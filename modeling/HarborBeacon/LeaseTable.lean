import Mathlib.Data.List.Basic

/-!
Leases that span several resources. A holder takes everything it needs in one step and gives it back
in one step, or leaves it quarantined for good.
-/

namespace HarborBeacon.LeaseTable

variable {R H : Type*}

@[ext]
structure Table (R H : Type*) where
  holder : R → Option H
  quarantined : R → Prop
  live : H → Prop

def Table.Free (t : Table R H) (r : R) : Prop :=
  t.holder r = none ∧ ¬t.quarantined r

/-- A live holder has all it needs, unquarantined; what is held is held by a live holder or
by one that was quarantined with all it needed; what is quarantined is held. -/
structure Valid (needs : H → List R) (t : Table R H) : Prop where
  held : ∀ h, t.live h → ∀ r ∈ needs h, t.holder r = some h ∧ ¬t.quarantined r
  needed : ∀ r h, t.holder r = some h → r ∈ needs h
  owner : ∀ r h, t.holder r = some h →
    t.live h ∨ ∀ r' ∈ needs h, t.holder r' = some h ∧ t.quarantined r'
  kept : ∀ r, t.quarantined r → t.holder r ≠ none

variable {needs : H → List R} {t t' : Table R H}

theorem valid_empty :
    Valid needs { holder := fun _ => none, quarantined := fun _ => False,
                  live := fun _ => False } where
  held := fun _ h => h.elim
  needed := fun _ _ h => by simp at h
  owner := fun _ _ h => by simp at h
  kept := fun _ h => h.elim

namespace Valid

theorem eq_of_share (hv : Valid needs t) {g h : H} (hg : t.live g) (hh : t.live h) {r : R}
    (hrg : r ∈ needs g) (hrh : r ∈ needs h) : g = h := by
  have hholder := (hv.held g hg r hrg).1
  rw [(hv.held h hh r hrh).1] at hholder
  exact (Option.some.inj hholder).symm

theorem holder_of_mem (hv : Valid needs t) {r r' : R} {h : H} (hr : t.holder r = some h)
    (hr' : r' ∈ needs h) : t.holder r' = some h := by
  rcases hv.owner r h hr with hlive | hquarantined
  · exact (hv.held h hlive r' hr').1
  · exact (hquarantined r' hr').1

theorem free_of_cover (hv : Valid needs t) {S T : List R}
    (hcover : ∀ h, (∃ r ∈ needs h, r ∈ S) → ∃ r ∈ needs h, r ∈ T)
    (hfree : ∀ r ∈ T, t.Free r) : ∀ r ∈ S, t.Free r := by
  intro r hr
  have hnone : t.holder r = none := by
    rcases hholder : t.holder r with _ | h
    · rfl
    · obtain ⟨r', hr', hT⟩ := hcover h ⟨r, hv.needed r h hholder, hr⟩
      have hheld := hv.holder_of_mem hholder hr'
      rw [(hfree r' hT).1] at hheld
      cases hheld
  exact ⟨hnone, fun hq => hv.kept r hq hnone⟩

end Valid

section Steps

variable [DecidableEq R]

inductive Step (needs : H → List R) (t : Table R H) : Table R H → Prop
  | stutter : Step needs t t
  | grant (h : H) (hnew : ¬t.live h) (hfree : ∀ r ∈ needs h, t.Free r) :
      Step needs t
        { t with
          holder := fun r => if r ∈ needs h then some h else t.holder r
          live := fun g => g = h ∨ t.live g }
  | release (h : H) (hlive : t.live h) :
      Step needs t
        { t with
          holder := fun r => if r ∈ needs h then none else t.holder r
          live := fun g => g ≠ h ∧ t.live g }
  | quarantine (h : H) (hlive : t.live h) :
      Step needs t
        { t with
          quarantined := fun r => r ∈ needs h ∨ t.quarantined r
          live := fun g => g ≠ h ∧ t.live g }

theorem Step.quarantined_of (hstep : Step needs t t') {r : R} (hr : t.quarantined r) :
    t'.quarantined r := by
  rcases hstep with _ | _ | _ | _
  · exact hr
  · exact hr
  · exact hr
  · exact .inr hr

variable (hv : Valid needs t) {h : H}

include hv

theorem Valid.grant (hfree : ∀ r ∈ needs h, t.Free r) :
    Valid needs
      { t with
        holder := fun r => if r ∈ needs h then some h else t.holder r
        live := fun g => g = h ∨ t.live g } := by
  -- nothing that was held is among what the new holder takes
  have hapart : ∀ {r g}, t.holder r = some g → r ∉ needs h := by
    intro r g hg hr
    rw [(hfree r hr).1] at hg
    cases hg
  constructor
  · rintro g (rfl | hg) r hr
    · exact ⟨if_pos hr, (hfree r hr).2⟩
    · obtain ⟨hheld, hq⟩ := hv.held g hg r hr
      exact ⟨(if_neg (hapart hheld)).trans hheld, hq⟩
  · intro r g hg
    by_cases hr : r ∈ needs h
    · simp only [hr, if_true, Option.some.injEq] at hg
      exact hg ▸ hr
    · simp only [hr, if_false] at hg
      exact hv.needed r g hg
  · intro r g hg
    by_cases hr : r ∈ needs h
    · simp only [hr, if_true, Option.some.injEq] at hg
      exact .inl (.inl hg.symm)
    · simp only [hr, if_false] at hg
      rcases hv.owner r g hg with hlive | hquarantined
      · exact .inl (.inr hlive)
      · refine .inr fun r' hr' => ?_
        obtain ⟨hheld, hq⟩ := hquarantined r' hr'
        exact ⟨(if_neg (hapart hheld)).trans hheld, hq⟩
  · intro r hq hnone
    have hheld := hv.kept r hq
    by_cases hr : r ∈ needs h
    · simp [hr] at hnone
    · exact hheld (by simpa [hr] using hnone)

theorem Valid.release (hlive : t.live h) :
    Valid needs
      { t with
        holder := fun r => if r ∈ needs h then none else t.holder r
        live := fun g => g ≠ h ∧ t.live g } := by
  constructor
  · rintro g ⟨hne, hg⟩ r hr
    have hr' : r ∉ needs h := fun hr' => hne (hv.eq_of_share hg hlive hr hr')
    exact ⟨(if_neg hr').trans (hv.held g hg r hr).1, (hv.held g hg r hr).2⟩
  · intro r g hg
    by_cases hr : r ∈ needs h
    · simp [hr] at hg
    · exact hv.needed r g (by simpa [hr] using hg)
  · intro r g hg
    by_cases hr : r ∈ needs h
    · simp [hr] at hg
    · replace hg : t.holder r = some g := by simpa [hr] using hg
      rcases hv.owner r g hg with hg' | hquarantined
      · refine .inl ⟨?_, hg'⟩
        rintro rfl
        exact hr (hv.needed r g hg)
      · refine .inr fun r' hr' => ?_
        obtain ⟨hheld, hq⟩ := hquarantined r' hr'
        have hr'' : r' ∉ needs h := fun hr'' => (hv.held h hlive r' hr'').2 hq
        exact ⟨(if_neg hr'').trans hheld, hq⟩
  · intro r hq hnone
    have hr : r ∉ needs h := fun hr => (hv.held h hlive r hr).2 hq
    exact hv.kept r hq (by simpa [hr] using hnone)

omit [DecidableEq R] in
theorem Valid.quarantine (hlive : t.live h) :
    Valid needs
      { t with
        quarantined := fun r => r ∈ needs h ∨ t.quarantined r
        live := fun g => g ≠ h ∧ t.live g } := by
  constructor
  · rintro g ⟨hne, hg⟩ r hr
    obtain ⟨hheld, hq⟩ := hv.held g hg r hr
    refine ⟨hheld, ?_⟩
    rintro (hr' | hq')
    · exact hne (hv.eq_of_share hg hlive hr hr')
    · exact hq hq'
  · exact hv.needed
  · intro r g hg
    by_cases hgh : g = h
    · subst hgh
      exact .inr fun r' hr' => ⟨(hv.held g hlive r' hr').1, .inl hr'⟩
    · rcases hv.owner r g hg with hg' | hquarantined
      · exact .inl ⟨hgh, hg'⟩
      · exact .inr fun r' hr' => ⟨(hquarantined r' hr').1, .inr (hquarantined r' hr').2⟩
  · rintro r (hr | hq)
    · rw [(hv.held h hlive r hr).1]
      exact Option.some_ne_none h
    · exact hv.kept r hq

theorem Valid.step (hstep : Step needs t t') : Valid needs t' := by
  rcases hstep with _ | ⟨g, -, hfree⟩ | ⟨g, hlive⟩ | ⟨g, hlive⟩
  · exact hv
  · exact hv.grant hfree
  · exact hv.release hlive
  · exact hv.quarantine hlive

end Steps

end HarborBeacon.LeaseTable
