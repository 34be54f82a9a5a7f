import HarborBeacon.Table
import Mathlib.Data.List.DropRight

/-!
State that is rebuilt from the newest entries of a log. A reader keeps a window of bounded
length; each key has a state of its own, into which its entries are replayed in order; and a
field of a state holds what was written to it last.
-/

namespace HarborBeacon.LogReplay

variable {ρ σ β : Type} {limit : Nat}

def push (limit : Nat) (window : List ρ) (entry : ρ) : List ρ :=
  (if window.length = limit then window.tail else window) ++ [entry]

theorem push_rtake (hlimit : 0 < limit) (entries : List ρ) (entry : ρ) :
    push limit (entries.rtake limit) entry = (entries ++ [entry]).rtake limit := by
  obtain ⟨n, rfl⟩ := Nat.exists_eq_succ_of_ne_zero (Nat.pos_iff_ne_zero.mp hlimit)
  rw [Nat.succ_eq_add_one, List.rtake_concat_succ, push]
  congr 1
  unfold List.rtake
  rw [List.length_drop]
  split
  · rename_i hfull
    rw [List.tail_drop]
    congr 1
    omega
  · rename_i hroom
    rw [show entries.length - (n + 1) = entries.length - n by omega]

theorem foldl_push_eq_rtake (hlimit : 0 < limit) (entries : List ρ) :
    entries.foldl (push limit) [] = entries.rtake limit := by
  induction entries using List.reverseRecOn with
  | nil => rw [List.foldl_nil, List.rtake_nil]
  | append_singleton entries entry ih =>
      rw [List.foldl_append, ih, List.foldl_cons, List.foldl_nil, push_rtake hlimit]

theorem exists_rtake_eq (older : List ρ) (entry : ρ) {newer : List ρ} (h : newer.length < limit) :
    ∃ kept, (older ++ entry :: newer).rtake limit = kept ++ entry :: newer := by
  refine ⟨older.drop ((older ++ entry :: newer).length - limit), ?_⟩
  rw [List.rtake, List.drop_append_of_le_length]
  rw [List.length_append, List.length_cons]
  omega

section LastWrites

variable (write : ρ → Option β)

def lastWrite (entries : List ρ) : Option β :=
  (entries.filterMap write).getLast?

theorem lastWrite_concat (entries : List ρ) (entry : ρ) :
    lastWrite write (entries ++ [entry]) = (write entry).or (lastWrite write entries) := by
  rw [lastWrite, List.filterMap_append]
  cases hwrite : write entry with
  | none => rw [List.filterMap_cons_none hwrite, List.filterMap_nil, List.append_nil]; rfl
  | some value =>
      rw [List.filterMap_cons_some hwrite, List.filterMap_nil, List.getLast?_concat]
      rfl

theorem field_foldl {step : σ → ρ → σ} {field : σ → β}
    (hstep : ∀ state entry, field (step state entry) = (write entry).getD (field state))
    (entries : List ρ) (state : σ) :
    field (entries.foldl step state) = (lastWrite write entries).getD (field state) := by
  induction entries using List.reverseRecOn with
  | nil => rfl
  | append_singleton entries entry ih =>
      rw [List.foldl_append, List.foldl_cons, List.foldl_nil, hstep, ih, lastWrite_concat]
      cases write entry with
      | none => rfl
      | some value => rfl

theorem lastWrite_of_agree {older newer : List ρ} {entry : ρ} {value : β}
    (hentry : write entry = some value)
    (hnewer : ∀ later ∈ newer, write later = none ∨ write later = some value) :
    lastWrite write (older ++ entry :: newer) = some value := by
  induction newer using List.reverseRecOn with
  | nil => rw [lastWrite_concat, hentry]; rfl
  | append_singleton newer later ih =>
      rw [← List.cons_append, ← List.append_assoc, lastWrite_concat]
      have hrest := ih fun other hother => hnewer other (List.mem_append_left _ hother)
      rcases hnewer later (by simp) with hnone | hsome
      · rw [hnone, hrest]
        rfl
      · rw [hsome]
        rfl

end LastWrites

section Keys

variable (keyOf : ρ → String) (init : String → σ) (step : σ → ρ → σ)

def replayEntry (states : Table σ) (entry : ρ) : Table σ :=
  states.insert (keyOf entry) (step ((states.lookup (keyOf entry)).getD (init (keyOf entry))) entry)

def replay (entries : List ρ) : Table σ :=
  entries.foldl (replayEntry keyOf init step) ∅

theorem lookup_replay (entries : List ρ) (key : String) :
    (replay keyOf init step entries).lookup key =
      if key ∈ entries.map keyOf then
        some ((entries.filter fun entry => keyOf entry = key).foldl step (init key))
      else none := by
  induction entries using List.reverseRecOn with
  | nil => simp [replay]
  | append_singleton entries entry ih =>
      have hunfold : replay keyOf init step (entries ++ [entry]) =
          replayEntry keyOf init step (replay keyOf init step entries) entry := by
        rw [replay, List.foldl_append, List.foldl_cons, List.foldl_nil, replay]
      rw [hunfold, replayEntry, Table.lookup_insert_eq_ite, List.filter_append, List.foldl_append]
      by_cases hkey : key = keyOf entry
      · subst hkey
        rw [if_pos rfl, if_pos (by simp), ih]
        simp only [List.filter_cons, decide_true, if_true, List.filter_nil, List.foldl_cons,
          List.foldl_nil]
        by_cases hmem : keyOf entry ∈ entries.map keyOf
        · rw [if_pos hmem, Option.getD_some]
        · have hnone : (entries.filter fun other => keyOf other = keyOf entry) = [] := by
            rw [List.filter_eq_nil_iff]
            intro other hother
            rw [decide_eq_true_eq]
            exact fun hsame => hmem (hsame ▸ List.mem_map_of_mem hother)
          rw [if_neg hmem, hnone]
          rfl
      · rw [if_neg hkey, ih]
        have hother : ¬ keyOf entry = key := fun h => hkey h.symm
        simp [hkey, hother]

end Keys

end HarborBeacon.LogReplay
