import HarborBeacon.SchedulerInvariant
import Mathlib.Data.Prod.Lex
import Mathlib.Order.WellFounded

/-!
Who is granted, who is woken and what a quarantine does to the others. All of it rests on one
fact about the workloads: those that share a resource form a class, and a lease of the class is
in the way of every request of the class.
-/

namespace HarborBeacon.AiResourceScheduler

open LeaseTable

section Classes

variable {c : Config} {u w : AiWorkload}

theorem free_of_overlaps (hv : Valid needs c.table) (hover : u.Overlaps w)
    (hfree : c.state.Free w) : c.state.Free u := by
  rw [← table_free_iff] at hfree ⊢
  refine hv.free_of_cover ?_ hfree
  intro h hshare
  have htouch : h.workload.Overlaps u := hshare
  exact htouch.trans hover

end Classes

section Barging

variable {queueCapacity : Nat} {c c' : Config} {o : StepOutcome} {action : Action}
  {log : List (Action × SchedulerEvent)} {lease : AiResourceLease} {v : LeaseWaiter}

theorem Inv.granted_first (hinv : Inv queueCapacity c) (heffect : Effect queueCapacity c o)
    {ticket : Option Nat} (hgranted : o.event = .granted lease ticket) (hv : v ∈ c.state.waiters)
    (hearlier : ∀ t, ticket = some t → v.ticket < t) (hover : v.workload.Overlaps lease.workload) :
    lease.workload.priority < v.priority := by
  rcases heffect with _ | ⟨w, -, hgrant⟩ | _ | _ | _ | _ | ⟨u, hu, -, hgrant, waitedMs⟩ | _ | _ |
    _ | _
  case grantedAtOnce =>
    obtain ⟨rfl, rfl⟩ := SchedulerEvent.granted.inj hgranted
    obtain ⟨hfree, hfirst⟩ := SchedulerState.canGrantNewRequest_iff.1 hgrant
    exact hfirst v hv hover (free_of_overlaps hinv.table hover hfree)
  case waiterGranted =>
    obtain ⟨rfl, rfl⟩ := SchedulerEvent.granted.inj hgranted
    obtain ⟨hfree, hfirst⟩ := (hinv.numbered.ticketOrder.waiterCanBeGranted_iff hu).1 hgrant
    have hnot := hfirst v hv hover (free_of_overlaps hinv.table hover hfree)
    have hlt := hearlier u.ticket rfl
    have hpriority := u.priority_eq
    unfold SchedulerState.Before at hnot
    dsimp only
    omega
  all_goals cases hgranted

def grantedTickets (w : AiWorkload) (log : List (Action × SchedulerEvent)) : List Nat :=
  log.filterMap fun
    | (_, .granted lease (some ticket)) => if lease.workload = w then some ticket else none
    | _ => none

structure GrantedInOrder (log : List (Action × SchedulerEvent)) (c : Config) : Prop where
  sorted : ∀ w, (grantedTickets w log).Pairwise (· < ·)
  drawn : ∀ w, ∀ t ∈ grantedTickets w log, t ≤ c.ticketsDrawn
  waiting : ∀ w, ∀ t ∈ grantedTickets w log, ∀ v ∈ c.state.waiters, v.workload = w →
    t < v.ticket

theorem grantedInOrder_nil : GrantedInOrder [] c where
  sorted _ := List.Pairwise.nil
  drawn _ _ ht := by cases ht
  waiting _ _ ht := by cases ht

theorem Effect.ticketsDrawn_le (heffect : Effect queueCapacity c o) :
    c.ticketsDrawn ≤ o.config.ticketsDrawn := by
  cases heffect with
  | queued => exact Nat.le_succ _
  | expiredAtOnce => exact Nat.le_succ _
  | _ => exact Nat.le_refl _

theorem Numbered.waiter_of_effect (hn : Numbered c) (heffect : Effect queueCapacity c o)
    (hb : Bounded o.config) (hv : v ∈ o.config.state.waiters) :
    v ∈ c.state.waiters ∨ v.ticket = c.ticketsDrawn + 1 := by
  cases heffect with
  | queued w =>
      rcases List.mem_append.1 hv with hv | hv
      · exact .inl hv
      · rw [List.mem_singleton.1 hv]
        exact .inr (hn.newWaiter_ticket (w := w) hb.tickets)
  | expiredAtOnce w => exact .inl (hn.removeWaiter_enqueue (w := w) hb.tickets ▸ hv)
  | waiterRejected | waiterGranted | waiterExpired =>
      exact .inl ((removeWaiter_sublist _ _).subset hv)
  | released lease =>
      have hqueue := c.state.release_queue lease.resourceMask lease.workload lease.leaseId
      exact .inl (hqueue.2.1 ▸ hv)
  | _ => exact .inl hv

theorem Numbered.granted_waiter (hn : Numbered c) (heffect : Effect queueCapacity c o) {t : Nat}
    (hgranted : o.event = .granted lease (some t)) :
    (∃ v ∈ c.state.waiters, v.ticket = t ∧ v.workload = lease.workload) ∧
      ∀ u ∈ o.config.state.waiters, u ∈ c.state.waiters ∧ u.ticket ≠ t := by
  cases heffect with
  | waiterGranted v hv =>
      obtain ⟨rfl, ht⟩ := SchedulerEvent.granted.inj hgranted
      obtain rfl := Option.some.inj ht
      refine ⟨⟨v, hv, rfl, rfl⟩, fun u hu => ?_⟩
      have hu' : u ∈ c.state.waiters.filter fun waiter => waiter.ticket ≠ v.ticket :=
        hn.ticketOrder.eraseP_eq_filter v.ticket ▸ hu
      simpa using hu'
  | grantedAtOnce => cases hgranted
  | _ => cases hgranted

theorem GrantedInOrder.granted (hord : GrantedInOrder log c) (hinv : Inv queueCapacity c)
    (heffect : Effect queueCapacity c o) {t : Nat} (hgranted : o.event = .granted lease (some t)) :
    GrantedInOrder (log ++ [(action, o.event)]) o.config := by
  obtain ⟨⟨v, hv, rfl, hworkload⟩, hrest⟩ := hinv.numbered.granted_waiter heffect hgranted
  have htickets : ∀ w, grantedTickets w (log ++ [(action, o.event)]) =
      grantedTickets w log ++ if lease.workload = w then [v.ticket] else [] := by
    intro w
    rw [hgranted, grantedTickets, List.filterMap_append]
    by_cases hw : lease.workload = w <;> simp [hw, grantedTickets]
  have hdrawn := heffect.ticketsDrawn_le
  constructor
  · intro w
    rw [htickets w]
    by_cases hw : lease.workload = w
    · rw [if_pos hw]
      refine List.pairwise_append.2 ⟨hord.sorted w, List.pairwise_singleton _ _, ?_⟩
      intro t ht t' ht'
      rw [List.mem_singleton.1 ht']
      exact hord.waiting w t ht v hv (hworkload.trans hw)
    · rw [if_neg hw, List.append_nil]
      exact hord.sorted w
  · intro w t ht
    rw [htickets w] at ht
    rcases List.mem_append.1 ht with ht | ht
    · exact Nat.le_trans (hord.drawn w t ht) hdrawn
    · split at ht
      · rw [List.mem_singleton.1 ht]
        exact Nat.le_trans (hinv.numbered.ticket_le v hv) hdrawn
      · cases ht
  · intro w t ht u hu huw
    obtain ⟨hmem, hne⟩ := hrest u hu
    rw [htickets w] at ht
    rcases List.mem_append.1 ht with ht | ht
    · exact hord.waiting w t ht u hmem huw
    · split at ht
      · rename_i hw
        rw [List.mem_singleton.1 ht]
        -- an earlier waiter of the same workload would have stood before it
        by_contra hnot
        have hover : u.workload.Overlaps lease.workload := by
          rw [huw, ← hw]
          exact AiWorkload.Overlaps.refl _
        have hpriority := hinv.granted_first heffect hgranted hmem
          (fun t' ht' => by
            obtain rfl := Option.some.inj ht'
            omega) hover
        rw [u.priority_eq, huw, hw] at hpriority
        omega
      · cases ht

theorem GrantedInOrder.step (hord : GrantedInOrder log c) (hinv : Inv queueCapacity c)
    (heffect : Effect queueCapacity c o) (hb : Bounded o.config) :
    GrantedInOrder (log ++ [(action, o.event)]) o.config := by
  by_cases hgranted : ∃ lease t, o.event = .granted lease (some t)
  · obtain ⟨lease, t, hgranted⟩ := hgranted
    exact hord.granted hinv heffect hgranted
  · have htickets : ∀ w, grantedTickets w (log ++ [(action, o.event)]) = grantedTickets w log := by
      intro w
      rw [grantedTickets, List.filterMap_append, List.filterMap_cons]
      split
      · simp [grantedTickets]
      · rename_i t ht
        split at ht
        · rename_i lease ticket hevent
          exact absurd ⟨lease, ticket, congrArg Prod.snd hevent⟩ hgranted
        · cases ht
    constructor
    · intro w
      rw [htickets w]
      exact hord.sorted w
    · intro w t ht
      rw [htickets w] at ht
      exact Nat.le_trans (hord.drawn w t ht) heffect.ticketsDrawn_le
    · intro w t ht v hv hvw
      rw [htickets w] at ht
      rcases hinv.numbered.waiter_of_effect heffect hb hv with hv | hv
      · exact hord.waiting w t ht v hv hvw
      · have hle := hord.drawn w t ht
        omega

theorem Run.grantedInOrder (hrun : Run queueCapacity {} log c) (hb : Bounded c) :
    GrantedInOrder log c := by
  generalize hstart : ({} : Config) = start at hrun
  induction hrun with
  | refl => exact grantedInOrder_nil
  | step hrun hstep ih =>
      subst hstart
      have hb' := hb.of_step hstep
      have hinv := hrun.inv inv_empty hb'
      exact (ih hb').step hinv (hinv.numbered.effect hstep hb) hb

/-- No request is granted past one that waits longer for a common resource and is at least as
urgent, and the waiters of a workload are granted in the order of their tickets. -/
theorem no_barging (hrun : Run queueCapacity {} log c)
    (hstep : c.step queueCapacity action = some o) (hb : Bounded o.config) :
    (∀ lease ticket, o.event = .granted lease ticket →
      ∀ v ∈ c.state.waiters, (∀ t, ticket = some t → v.ticket < t) →
        (∃ r ∈ resourcesInMask v.resourceMask, r ∈ resourcesInMask lease.resourceMask) →
        ¬v.priority ≤ lease.workload.priority) ∧
    ∀ w, (grantedTickets w (log ++ [(action, o.event)])).Pairwise (· < ·) := by
  have hinv := hrun.inv inv_empty (hb.of_step hstep)
  have heffect := hinv.numbered.effect hstep hb
  refine ⟨?_, (hrun.step hstep).grantedInOrder hb |>.sorted⟩
  rintro lease ticket hgranted v hv hearlier ⟨r, hr, hr'⟩
  rw [v.resourceMask_eq, mem_resourcesInMask] at hr
  rw [lease.resourceMask_eq, mem_resourcesInMask] at hr'
  exact Nat.not_le.2 (hinv.granted_first heffect hgranted hv hearlier ⟨r, hr, hr'⟩)

def contended : Config :=
  Config.steps 4 {}
    [.acquire .llm false 0, .acquire .vlm false 0, .acquire .catRecordingVerifier false 0,
      .drop 1]

/-- The recording check is more urgent than the vision request that came first. -/
theorem no_barging_contended :
    ∃ o, contended.step 4 (.wake 2 false 7) = some o ∧
      contended.state.waiters.map (·.workload) = [.vlm, .catRecordingVerifier] ∧
      ∀ lease ticket, o.event = .granted lease ticket →
        ∀ v ∈ contended.state.waiters, (∀ t, ticket = some t → v.ticket < t) →
          (∃ r ∈ resourcesInMask v.resourceMask, r ∈ resourcesInMask lease.resourceMask) →
          ¬v.priority ≤ lease.workload.priority := by
  obtain ⟨log, hrun⟩ : Reachable 4 contended := run_steps _ _ _
  have hstep : contended.step 4 (.wake 2 false 7) =
      some ((contended.step 4 (.wake 2 false 7)).get (by decide)) := (Option.some_get _).symm
  exact ⟨_, hstep, by decide, (no_barging hrun hstep ⟨by decide, by decide⟩).1⟩

end Barging

section WakeUps

variable {queueCapacity : Nat} {c : Config} {o : StepOutcome} {action : Action}
  {s s' : SchedulerState} {w : AiWorkload} {v : LeaseWaiter}

theorem before_iff_lex {other v : LeaseWaiter} :
    SchedulerState.Before other v ↔
      toLex (other.priority, other.ticket) < toLex (v.priority, v.ticket) := by
  simp [SchedulerState.Before, Prod.Lex.toLex_lt_toLex]

theorem exists_waiterCanBeGranted (horder : InTicketOrder s.waiters)
    (hfree : ∃ v ∈ s.waiters, s.Free v.workload) :
    ∃ v ∈ s.waiters, s.waiterCanBeGranted v.ticket = true := by
  have hwf : WellFounded fun other v : LeaseWaiter =>
      toLex (other.priority, other.ticket) < toLex (v.priority, v.ticket) :=
    InvImage.wf _ wellFounded_lt
  obtain ⟨v, ⟨hv, hfreev⟩, hmin⟩ :=
    hwf.has_min { v | v ∈ s.waiters ∧ s.Free v.workload } hfree
  refine ⟨v, hv, (horder.waiterCanBeGranted_iff hv).2 ⟨hfreev, ?_⟩⟩
  intro other hother _ hfree' hbefore
  exact hmin other ⟨hother, hfree'⟩ (before_iff_lex.1 hbefore)

theorem waiterCanBeGranted_of_sameLeases (hsame : SchedulerState.SameLeases s s')
    (horder : InTicketOrder s.waiters) (horder' : InTicketOrder s'.waiters) (hv : v ∈ s.waiters)
    (hsub : ∀ u ∈ s.waiters, u ∈ s'.waiters) (hgrant : s'.waiterCanBeGranted v.ticket = true) :
    s.waiterCanBeGranted v.ticket = true := by
  obtain ⟨hfree, hfirst⟩ := (horder'.waiterCanBeGranted_iff (hsub v hv)).1 hgrant
  simp only [hsame.free_iff] at hfree hfirst
  exact (horder.waiterCanBeGranted_iff hv).2
    ⟨hfree, fun other hother => hfirst other (hsub other hother)⟩

theorem free_grant_iff {waitedMs : Nat} (u : AiWorkload) :
    (s.grant w w.resourceMask waitedMs).Free u ↔ s.Free u ∧ ¬u.Overlaps w := by
  simp only [SchedulerState.Free, grant_resources]
  constructor
  · intro hfree
    have hapart : ∀ r ∈ u.requiredResources, r ∉ w.requiredResources := by
      intro r hr hw
      have hheld := (hfree r hr).1
      simp [hw] at hheld
    constructor
    · intro r hr
      have hstill := hfree r hr
      rwa [if_neg (hapart r hr)] at hstill
    · rintro ⟨r, hr, hw⟩
      exact hapart r hr hw
  · rintro ⟨hfree, hapart⟩ r hr
    rw [if_neg fun hw => hapart ⟨r, hr, hw⟩]
    exact hfree r hr

theorem waiterCanBeGranted_of_grant {t : SchedulerState} (waitedMs : Nat)
    (hsame : SchedulerState.SameLeases s t) (horder : InTicketOrder s.waiters)
    (hsub : t.waiters.Sublist s.waiters) (hgone : ∀ u ∈ s.waiters, u ∈ t.waiters ∨ u.workload = w)
    (hv : v ∈ t.waiters)
    (hgrant : (t.grant w w.resourceMask waitedMs).waiterCanBeGranted v.ticket = true) :
    s.waiterCanBeGranted v.ticket = true := by
  have horder' : InTicketOrder (t.grant w w.resourceMask waitedMs).waiters :=
    horder.sublist hsub
  obtain ⟨hfree, hfirst⟩ := (horder'.waiterCanBeGranted_iff hv).1 hgrant
  simp only [free_grant_iff, hsame.free_iff] at hfree hfirst
  refine (horder.waiterCanBeGranted_iff (hsub.subset hv)).2 ⟨hfree.1, ?_⟩
  intro other hother hover hfree'
  have hapart : ¬other.workload.Overlaps w := fun hw => hfree.2 (hover.symm.trans hw)
  rcases hgone other hother with hmem | hworkload
  · exact hfirst other hmem hover ⟨hfree', hapart⟩
  · rw [hworkload] at hapart
    exact absurd (AiWorkload.Overlaps.refl w) hapart

theorem quarantined_grant_eq {t : SchedulerState} (waitedMs : Nat) {u : AiWorkload}
    (hsame : SchedulerState.SameLeases s t) :
    (t.grant w w.resourceMask waitedMs).requiredResourcesAreQuarantined u =
      s.requiredResourcesAreQuarantined u := by
  simp only [SchedulerState.requiredResourcesAreQuarantined, grant_quarantineReason,
    hsame.quarantineReason]

/-- A step without a call of `notify_all` leaves nobody with a reason to wake up. -/
theorem Inv.silent (hinv : Inv queueCapacity c) (heffect : Effect queueCapacity c o)
    (hb : Bounded o.config) (hsilent : ¬o.notified = true) (hv : v ∈ o.config.state.waiters) :
    (o.config.state.waiterCanBeGranted v.ticket = true →
      c.state.waiterCanBeGranted v.ticket = true) ∧
    (o.config.state.requiredResourcesAreQuarantined v.workload = true →
      v ∈ c.state.waiters ∧ c.state.requiredResourcesAreQuarantined v.workload = true) := by
  obtain ⟨hn, htable, -⟩ := hinv
  have horder := hn.ticketOrder
  rcases heffect with ⟨w, -⟩ | ⟨w, -, hgrant⟩ | ⟨w, -, -⟩ | ⟨w, hclean, hbehind, -⟩ | _ | _ |
    ⟨u, hu, -, hgrant, waitedMs⟩ | _ | _ | ⟨lease, hlease⟩ | ⟨lease, hlease, reason⟩
  case rejected =>
    exact ⟨id, fun hq => ⟨hv, hq⟩⟩
  case grantedAtOnce =>
    have hsame : SchedulerState.SameLeases c.state (c.noteRequest w).state :=
      SchedulerState.sameLeases_noteRequested
    refine ⟨waiterCanBeGranted_of_grant 0 hsame horder (List.Sublist.refl _)
      (fun u hu => .inl hu) hv, fun hq => ⟨hv, ?_⟩⟩
    exact (quarantined_grant_eq 0 hsame).symm.trans hq
  case queueFull =>
    have hsame : SchedulerState.SameLeases c.state
        ((c.noteRequest w).state.noteQueueFull w) :=
      SchedulerState.sameLeases_noteRequested.trans SchedulerState.sameLeases_noteQueueFull
    refine ⟨waiterCanBeGranted_of_sameLeases hsame horder horder hv fun u hu => hu, ?_⟩
    intro hq
    exact ⟨hv, hsame.quarantined_eq ▸ hq⟩
  case queued =>
    have hsame : SchedulerState.SameLeases c.state ((c.noteRequest w).enqueue w).state :=
      sameLeases_enqueue
    rcases List.mem_append.1 hv with hv | hv
    · refine ⟨waiterCanBeGranted_of_sameLeases hsame horder (hn.ticketOrder_enqueue hb.tickets)
        hv fun u hu => List.mem_append_left _ hu, fun hq => ⟨hv, ?_⟩⟩
      rwa [hsame.quarantined_eq] at hq
    · obtain rfl := List.mem_singleton.1 hv
      refine ⟨fun hgrant => ?_, fun hq => ?_⟩
      · exact absurd ((hn.enqueue_granted_iff hb.tickets).1 hgrant) hbehind
      · rw [hsame.quarantined_eq] at hq
        exact absurd hq hclean
  case waiterGranted =>
    have hsame : SchedulerState.SameLeases c.state (c.state.removeWaiter u.ticket) :=
      SchedulerState.sameLeases_removeWaiter _
    have hsub := removeWaiter_sublist c.state u.ticket
    have hgone : ∀ x ∈ c.state.waiters,
        x ∈ (c.state.removeWaiter u.ticket).waiters ∨ x.workload = u.workload := by
      intro x hx
      obtain ⟨before, after, hsplit, hrest⟩ := horder.split hu
      rw [hsplit] at hx
      rw [hrest]
      simp only [List.mem_append, List.mem_cons] at hx ⊢
      rcases hx with hx | rfl | hx
      · exact .inl (.inl hx)
      · exact .inr rfl
      · exact .inl (.inr hx)
    refine ⟨fun hg => waiterCanBeGranted_of_grant waitedMs hsame horder hsub hgone hv ?_,
      fun hq => ⟨hsub.subset hv, ?_⟩⟩
    · rw [← u.resourceMask_eq]
      exact hg
    · refine (quarantined_grant_eq (w := u.workload) waitedMs hsame).symm.trans ?_
      rw [← u.resourceMask_eq]
      exact hq
  case waits =>
    exact ⟨id, fun hq => ⟨hv, hq⟩⟩
  case released =>
    exact absurd (holdsAny_of_live htable hlease) hsilent
  case quarantined =>
    exact absurd (holdsAny_of_live htable hlease) hsilent
  all_goals exact absurd rfl hsilent

/-- Where some waiter could run, some waiter can be granted; and whatever gives a waiter a
reason to wake up calls `notify_all`. -/
theorem no_lost_wake_up (hreach : Reachable queueCapacity c) (hb : Bounded c) :
    ((∃ v ∈ c.state.waiters, ∀ r ∈ resourcesInMask v.resourceMask,
        (c.state.resources r).holder = none ∧
          (c.state.resources r).quarantineReason = none) →
      ∃ v ∈ c.state.waiters, c.state.waiterCanBeGranted v.ticket = true) ∧
    ∀ action o, c.step queueCapacity action = some o → Bounded o.config →
      (∃ v ∈ o.config.state.waiters,
        (o.config.state.waiterCanBeGranted v.ticket = true ∧
          ¬c.state.waiterCanBeGranted v.ticket = true) ∨
        (o.config.state.requiredResourcesAreQuarantined v.workload = true ∧
          ¬(v ∈ c.state.waiters ∧
            c.state.requiredResourcesAreQuarantined v.workload = true))) →
      o.notified = true := by
  have hinv := hreach.inv hb
  constructor
  · rintro ⟨v, hv, hfree⟩
    refine exists_waiterCanBeGranted hinv.numbered.ticketOrder ⟨v, hv, fun r hr => hfree r ?_⟩
    rw [v.resourceMask_eq]
    exact mem_resourcesInMask.2 hr
  · rintro action o hstep hb' ⟨v, hv, hnew⟩
    by_contra hsilent
    obtain ⟨hgrant, hquarantined⟩ :=
      hinv.silent (hinv.numbered.effect hstep hb') hb' hsilent hv
    rcases hnew with ⟨hg, hnot⟩ | ⟨hq, hnot⟩
    · exact hnot (hgrant hg)
    · exact hnot (hquarantined hq)

theorem no_lost_wake_up_contended :
    (∃ v ∈ contended.state.waiters, ∀ r ∈ resourcesInMask v.resourceMask,
        (contended.state.resources r).holder = none ∧
          (contended.state.resources r).quarantineReason = none) ∧
      ∃ v ∈ contended.state.waiters, contended.state.waiterCanBeGranted v.ticket = true := by
  have hreach : Reachable 4 contended := run_steps _ _ _
  have hfree : ∃ v ∈ contended.state.waiters, ∀ r ∈ resourcesInMask v.resourceMask,
      (contended.state.resources r).holder = none ∧
        (contended.state.resources r).quarantineReason = none := by decide
  exact ⟨hfree, (no_lost_wake_up hreach ⟨by decide, by decide⟩).1 hfree⟩

end WakeUps

section Quarantine

/-- What became of a request, so far. -/
inductive Admission where
  | granted
  | refused (kind : AiLeaseErrorKind)
  | waits
deriving DecidableEq

/-- The request that an event answers, without its ids. -/
def SchedulerEvent.admission : SchedulerEvent → Option (AiWorkload × Admission)
  | .granted lease _ => some (lease.workload, .granted)
  | .refused workload kind _ => some (workload, .refused kind)
  | .waits workload _ => some (workload, .waits)
  | .released _ | .quarantined _ => none

variable {queueCapacity : Nat} {c c' : Config} {o : StepOutcome} {action : Action}
  {log : List (Action × SchedulerEvent)} {w : AiWorkload} {s s' : SchedulerState}

theorem Effect.admission_of_quarantined (heffect : Effect queueCapacity c o)
    (hquarantined : c.state.requiredResourcesAreQuarantined w = true) {a : Admission}
    (ha : o.event.admission = some (w, a)) : a = .refused .quarantined := by
  cases heffect with
  | rejected | waiterRejected =>
      obtain ⟨-, rfl⟩ := Prod.mk.inj (Option.some.inj ha)
      rfl
  | grantedAtOnce _ hclean | queueFull _ hclean | queued _ hclean | expiredAtOnce _ hclean =>
      obtain ⟨rfl, -⟩ := Prod.mk.inj (Option.some.inj ha)
      exact absurd hquarantined hclean
  | waiterGranted _ _ hclean | waiterExpired _ _ hclean | waits _ _ hclean =>
      obtain ⟨rfl, -⟩ := Prod.mk.inj (Option.some.inj ha)
      exact absurd hquarantined hclean
  | released | quarantined => cases ha

theorem Run.quarantined (hrun : Run queueCapacity c log c') (hinv : Inv queueCapacity c)
    (hb : Bounded c') {r : AiResource} (hr : c.table.quarantined r) :
    c'.table.quarantined r := by
  induction hrun with
  | refl => exact hr
  | step hrun hstep ih =>
      have hb' := hb.of_step hstep
      have hinv' := hrun.inv hinv hb'
      have hstep' := hinv'.numbered.table_step hinv'.table
        (hinv'.numbered.effect hstep hb) hb
      exact hstep'.quarantined_of (ih hb')

theorem Run.admission_of_quarantined (hrun : Run queueCapacity c log c')
    (hinv : Inv queueCapacity c) (hb : Bounded c')
    (hquarantined : c.state.requiredResourcesAreQuarantined w = true) :
    ∀ e ∈ log, ∀ a, e.2.admission = some (w, a) → a = .refused .quarantined := by
  induction hrun with
  | refl => simp
  | step hrun hstep ih =>
      intro e he a ha
      have hb' := hb.of_step hstep
      rcases List.mem_append.1 he with he | he
      · exact ih hb' e he a ha
      · obtain rfl := List.mem_singleton.1 he
        have hinv' := hrun.inv hinv hb'
        refine (hinv'.numbered.effect hstep hb).admission_of_quarantined ?_ ha
        rw [SchedulerState.requiredResourcesAreQuarantined_iff] at hquarantined ⊢
        obtain ⟨r, hr, hreason⟩ := hquarantined
        exact ⟨r, hr, hrun.quarantined hinv hb' hreason⟩

end Quarantine

section Apart

/-- The request or the lease that an event is about. -/
def SchedulerEvent.workload : SchedulerEvent → AiWorkload
  | .granted lease _ | .released lease | .quarantined lease => lease.workload
  | .refused workload _ _ | .waits workload _ => workload

def AiWorkload.Apart (k w : AiWorkload) : Prop :=
  ¬w.Overlaps k

instance (k w : AiWorkload) : Decidable (k.Apart w) :=
  inferInstanceAs (Decidable (¬w.Overlaps k))

variable {queueCapacity : Nat} {k w : AiWorkload} {s t : SchedulerState} {c d : Config}

theorem AiWorkload.Apart.of_overlaps {u : AiWorkload} (h : k.Apart w) (hover : u.Overlaps w) :
    k.Apart u :=
  fun hk => h (hover.symm.trans hk)

structure SameApart (k : AiWorkload) (s t : SchedulerState) : Prop where
  nextTicket : t.nextTicket = s.nextTicket
  nextLeaseId : t.nextLeaseId = s.nextLeaseId
  resources : ∀ w, k.Apart w → ∀ r ∈ w.requiredResources,
    (t.resources r).holder = (s.resources r).holder ∧
      (t.resources r).quarantineReason = (s.resources r).quarantineReason
  waiters : t.waiters.filter (fun v => k.Apart v.workload) =
    s.waiters.filter fun v => k.Apart v.workload

theorem heldBy_congr {state state' : ResourceState} (h : state'.holder = state.holder)
    (leaseId : Nat) :
    SchedulerState.heldBy leaseId state' = SchedulerState.heldBy leaseId state := by
  unfold SchedulerState.heldBy
  rw [h]

theorem release_resource (resourceMask : UInt8) (leaseId : Nat) (r : AiResource) :
    (s.release resourceMask w leaseId).resources r =
      if r ∈ resourcesInMask resourceMask then
        if SchedulerState.heldBy leaseId (s.resources r) then
          { s.resources r with
            holder := none
            metrics := { (s.resources r).metrics with
              releasedTotal := (s.resources r).metrics.releasedTotal + 1 } }
        else s.resources r
      else s.resources r := by
  unfold SchedulerState.release
  dsimp only
  split <;> rfl

namespace SameApart

variable (hsame : SameApart k s t) (hw : k.Apart w) {v : LeaseWaiter}

include hsame

theorem mem_waiters_iff (hv : k.Apart v.workload) :
    v ∈ t.waiters ↔ v ∈ s.waiters := by
  have hmem : ∀ l : List LeaseWaiter,
      v ∈ l.filter (fun v => k.Apart v.workload) ↔ v ∈ l := by
    intro l
    simp [List.mem_filter, hv]
  rw [← hmem t.waiters, hsame.waiters, hmem]

include hw

theorem free_iff : t.Free w ↔ s.Free w := by
  unfold SchedulerState.Free
  refine forall₂_congr fun r hr => ?_
  obtain ⟨hholder, hreason⟩ := hsame.resources w hw r hr
  rw [hholder, hreason]

theorem quarantined_eq :
    t.requiredResourcesAreQuarantined w = s.requiredResourcesAreQuarantined w := by
  rw [Bool.eq_iff_iff, SchedulerState.requiredResourcesAreQuarantined_iff,
    SchedulerState.requiredResourcesAreQuarantined_iff]
  refine exists_congr fun r => and_congr_right fun hr => ?_
  rw [(hsame.resources w hw r hr).2]

theorem canGrantNewRequest_eq : t.canGrantNewRequest w = s.canGrantNewRequest w := by
  rw [Bool.eq_iff_iff, SchedulerState.canGrantNewRequest_iff,
    SchedulerState.canGrantNewRequest_iff, hsame.free_iff hw]
  refine and_congr_right fun _ => forall_congr' fun v => ?_
  by_cases hover : v.workload.Overlaps w
  · rw [hsame.mem_waiters_iff (hw.of_overlaps hover), hsame.free_iff (hw.of_overlaps hover)]
  · simp [hover]

theorem queuedCount_eq {r : AiResource} (hr : r ∈ w.requiredResources) :
    t.queuedCountForResource r = s.queuedCountForResource r := by
  -- whoever waits for the resource shares it with `w`
  have hcount : ∀ l : List LeaseWaiter,
      l.countP (fun v => v.resourceMask &&& r.mask ≠ 0) =
        (l.filter fun v => k.Apart v.workload).countP
          fun v => v.resourceMask &&& r.mask ≠ 0 := by
    intro l
    rw [List.countP_filter]
    refine List.countP_congr fun v _ => ?_
    have hapart : v.resourceMask &&& r.mask ≠ 0 → k.Apart v.workload := by
      rw [v.resourceMask_eq, mask_ne_zero_iff]
      exact fun hv => hw.of_overlaps ⟨r, hv, hr⟩
    simpa using hapart
  unfold SchedulerState.queuedCountForResource
  rw [hcount t.waiters, hsame.waiters, ← hcount]

omit hw

theorem waiterCanBeGranted_eq (hv : k.Apart v.workload) (horder : InTicketOrder s.waiters)
    (horder' : InTicketOrder t.waiters) (hmem : v ∈ s.waiters) :
    t.waiterCanBeGranted v.ticket = s.waiterCanBeGranted v.ticket := by
  rw [Bool.eq_iff_iff, horder.waiterCanBeGranted_iff hmem,
    horder'.waiterCanBeGranted_iff ((hsame.mem_waiters_iff hv).2 hmem), hsame.free_iff hv]
  refine and_congr_right fun _ => forall_congr' fun other => ?_
  by_cases hover : other.workload.Overlaps v.workload
  · rw [hsame.mem_waiters_iff (hv.of_overlaps hover), hsame.free_iff (hv.of_overlaps hover)]
  · simp [hover]

theorem of_sameLeases {s' t' : SchedulerState} (hs : SchedulerState.SameLeases s s')
    (ht : SchedulerState.SameLeases t t') (hticket : s'.nextTicket = s.nextTicket)
    (hticket' : t'.nextTicket = t.nextTicket) (hwaiters : s'.waiters = s.waiters)
    (hwaiters' : t'.waiters = t.waiters) : SameApart k s' t' where
  nextTicket := by rw [hticket, hticket', hsame.nextTicket]
  nextLeaseId := by rw [hs.nextLeaseId, ht.nextLeaseId, hsame.nextLeaseId]
  resources w hw r hr := by
    rw [hs.holder, ht.holder, hs.quarantineReason, ht.quarantineReason]
    exact hsame.resources w hw r hr
  waiters := by rw [hwaiters, hwaiters', hsame.waiters]

theorem removeWaiter (horder : InTicketOrder s.waiters) (horder' : InTicketOrder t.waiters)
    (ticket : Nat) : SameApart k (s.removeWaiter ticket) (t.removeWaiter ticket) where
  nextTicket := hsame.nextTicket
  nextLeaseId := hsame.nextLeaseId
  resources := hsame.resources
  waiters := by
    show (t.waiters.eraseP _).filter _ = (s.waiters.eraseP _).filter _
    rw [horder.eraseP_eq_filter, horder'.eraseP_eq_filter, List.filter_comm, hsame.waiters,
      List.filter_comm]

theorem removeWaiter_left (horder : InTicketOrder s.waiters) (hv : v ∈ s.waiters)
    (hover : v.workload.Overlaps k) :
    SameApart k (s.removeWaiter v.ticket) t where
  nextTicket := hsame.nextTicket
  nextLeaseId := hsame.nextLeaseId
  resources := hsame.resources
  waiters := by
    show _ = (s.waiters.eraseP _).filter _
    rw [horder.eraseP_eq_filter, List.filter_filter, hsame.waiters]
    refine List.filter_congr fun u hu => ?_
    by_cases hticket : u.ticket = v.ticket
    · obtain rfl := horder.eq_of_ticket hu hv hticket
      have hnot : ¬k.Apart u.workload := fun h => h hover
      simp [hnot]
    · simp [hticket]

theorem enqueue (v : LeaseWaiter) (ticket : Nat) :
    SameApart k { s with nextTicket := ticket, waiters := s.waiters ++ [v] }
      { t with nextTicket := ticket, waiters := t.waiters ++ [v] } where
  nextTicket := rfl
  nextLeaseId := hsame.nextLeaseId
  resources := hsame.resources
  waiters := by rw [List.filter_append, List.filter_append, hsame.waiters]

theorem grant (waitedMs : Nat) :
    SameApart k (s.grant w w.resourceMask waitedMs) (t.grant w w.resourceMask waitedMs) where
  nextTicket := hsame.nextTicket
  nextLeaseId := congrArg nextId hsame.nextLeaseId
  resources u hu r hr := by
    obtain ⟨hholder, hreason⟩ := hsame.resources u hu r hr
    rw [grant_quarantineReason, grant_quarantineReason, grant_resources, grant_resources]
    refine ⟨?_, hreason⟩
    split
    · rw [hsame.nextLeaseId]
    · exact hholder
  waiters := hsame.waiters

theorem release (resourceMask : UInt8) (leaseId : Nat) :
    SameApart k (s.release resourceMask w leaseId) (t.release resourceMask w leaseId) := by
  have hqueue := s.release_queue resourceMask w leaseId
  have hqueue' := t.release_queue resourceMask w leaseId
  refine ⟨?_, ?_, ?_, ?_⟩
  · rw [hqueue.1, hqueue'.1, hsame.nextTicket]
  · rw [hqueue.2.2, hqueue'.2.2, hsame.nextLeaseId]
  · intro u hu r hr
    obtain ⟨hholder, hreason⟩ := hsame.resources u hu r hr
    rw [release_resource, release_resource, heldBy_congr hholder]
    split_ifs
    · exact ⟨rfl, hreason⟩
    · exact ⟨hholder, hreason⟩
    · exact ⟨hholder, hreason⟩
  · rw [hqueue.2.1, hqueue'.2.1, hsame.waiters]

theorem quarantine (resourceMask : UInt8) (leaseId : Nat) (reason : AiLeaseQuarantineReason) :
    SameApart k (s.quarantine resourceMask leaseId reason)
      (t.quarantine resourceMask leaseId reason) where
  nextTicket := hsame.nextTicket
  nextLeaseId := hsame.nextLeaseId
  resources u hu r hr := by
    obtain ⟨hholder, hreason⟩ := hsame.resources u hu r hr
    simp only [SchedulerState.quarantine, SchedulerState.onResources, heldBy_congr hholder]
    split_ifs
    · exact ⟨hholder, rfl⟩
    · exact ⟨hholder, hreason⟩
    · exact ⟨hholder, hreason⟩
  waiters := hsame.waiters

end SameApart

structure Config.SameApart (k : AiWorkload) (c d : Config) : Prop where
  state : AiResourceScheduler.SameApart k c.state d.state
  leases : d.leases.filter (fun lease => k.Apart lease.workload) =
    c.leases.filter fun lease => k.Apart lease.workload
  ticketsDrawn : d.ticketsDrawn = c.ticketsDrawn
  leasesDrawn : d.leasesDrawn = c.leasesDrawn

namespace Config.SameApart

variable (hsame : c.SameApart k d)

include hsame

theorem bounded (hb : Bounded c) : Bounded d :=
  ⟨hsame.ticketsDrawn ▸ hb.tickets, hsame.leasesDrawn ▸ hb.leases⟩

theorem mem_leases_iff {lease : AiResourceLease} (hlease : k.Apart lease.workload) :
    lease ∈ d.leases ↔ lease ∈ c.leases := by
  have hmem : ∀ l : List AiResourceLease,
      lease ∈ l.filter (fun lease => k.Apart lease.workload) ↔ lease ∈ l := by
    intro l
    simp [List.mem_filter, hlease]
  rw [← hmem d.leases, hsame.leases, hmem]

theorem refuse (hstate : AiResourceScheduler.SameApart k s t) (w : AiWorkload)
    (kind : AiLeaseErrorKind) (ticket : Option Nat) (notified : Bool) :
    (d.refuse t w kind ticket notified).event = (c.refuse s w kind ticket notified).event ∧
      (c.refuse s w kind ticket notified).config.SameApart k
        (d.refuse t w kind ticket notified).config :=
  ⟨rfl, hstate, hsame.leases, hsame.ticketsDrawn, hsame.leasesDrawn⟩

theorem grantTo (hstate : AiResourceScheduler.SameApart k s t) {resourceMask : UInt8}
    (hmask : resourceMask = w.resourceMask) (waitedMs : Nat) (ticket : Option Nat) :
    (d.grantTo t w resourceMask hmask waitedMs ticket).event =
        (c.grantTo s w resourceMask hmask waitedMs ticket).event ∧
      (c.grantTo s w resourceMask hmask waitedMs ticket).config.SameApart k
        (d.grantTo t w resourceMask hmask waitedMs ticket).config := by
  subst hmask
  refine ⟨?_, hstate.grant waitedMs, ?_, hsame.ticketsDrawn,
    congrArg (· + 1) hsame.leasesDrawn⟩
  · simp only [Config.grantTo, hstate.nextLeaseId]
  · simp only [Config.grantTo, hstate.nextLeaseId, List.filter_cons, hsame.leases]

theorem withoutLease (leaseId : Nat) :
    (d.withoutLease leaseId).leases.filter (fun lease => k.Apart lease.workload) =
      (c.withoutLease leaseId).leases.filter fun lease => k.Apart lease.workload := by
  simp only [Config.withoutLease]
  rw [List.filter_comm, hsame.leases, List.filter_comm]

variable (hn : Numbered c) (hn' : Numbered d)

include hn hn'

theorem waitRound {v : LeaseWaiter} (hv : k.Apart v.workload) (hmem : v ∈ c.state.waiters)
    (expired : Bool) (waitedMs : Nat) :
    (d.waitRound v expired waitedMs).event = (c.waitRound v expired waitedMs).event ∧
      (c.waitRound v expired waitedMs).config.SameApart k
        (d.waitRound v expired waitedMs).config := by
  have hrest := hsame.state.removeWaiter hn.ticketOrder hn'.ticketOrder v.ticket
  unfold Config.waitRound
  dsimp only
  rw [hsame.state.quarantined_eq hv,
    hsame.state.waiterCanBeGranted_eq hv hn.ticketOrder hn'.ticketOrder hmem]
  split_ifs
  · exact hsame.refuse (hrest.of_sameLeases SchedulerState.sameLeases_noteQuarantineRejected
      SchedulerState.sameLeases_noteQuarantineRejected rfl rfl rfl rfl) _ _ _ _
  · exact hsame.grantTo hrest v.resourceMask_eq waitedMs _
  · exact hsame.refuse (hrest.of_sameLeases SchedulerState.sameLeases_noteTimedOut
      SchedulerState.sameLeases_noteTimedOut rfl rfl rfl rfl) _ _ _ _
  · exact ⟨rfl, hsame⟩

theorem acquire (hw : k.Apart w) {expired : Bool} {waitedMs : Nat}
    (hb : Bounded (c.acquire queueCapacity w expired waitedMs).config) :
    (d.acquire queueCapacity w expired waitedMs).event =
        (c.acquire queueCapacity w expired waitedMs).event ∧
      (c.acquire queueCapacity w expired waitedMs).config.SameApart k
        (d.acquire queueCapacity w expired waitedMs).config := by
  have hnoted : AiResourceScheduler.SameApart k (c.noteRequest w).state
      (d.noteRequest w).state :=
    hsame.state.of_sameLeases (.of_resources rfl rfl) (.of_resources rfl rfl) rfl rfl rfl rfl
  have hsame' : (c.noteRequest w).SameApart k (d.noteRequest w) :=
    ⟨hnoted, hsame.leases, hsame.ticketsDrawn, hsame.leasesDrawn⟩
  have hfull : (w.requiredResources.any fun r =>
        queueCapacity ≤ (d.noteRequest w).state.queuedCountForResource r) =
      w.requiredResources.any fun r =>
        queueCapacity ≤ (c.noteRequest w).state.queuedCountForResource r := by
    rw [Bool.eq_iff_iff, List.any_eq_true, List.any_eq_true]
    refine exists_congr fun r => and_congr_right fun hr => ?_
    rw [hnoted.queuedCount_eq hw hr]
  revert hb
  unfold Config.acquire
  dsimp only
  rw [hnoted.quarantined_eq hw, hnoted.canGrantNewRequest_eq hw, hfull]
  split_ifs
  · exact fun _ => hsame'.refuse
      (hnoted.of_sameLeases SchedulerState.sameLeases_noteQuarantineRejected
        SchedulerState.sameLeases_noteQuarantineRejected rfl rfl rfl rfl) _ _ _ _
  · exact fun _ => hsame'.grantTo hnoted rfl 0 none
  · exact fun _ => hsame'.refuse (hnoted.of_sameLeases SchedulerState.sameLeases_noteQueueFull
      SchedulerState.sameLeases_noteQueueFull rfl rfl rfl rfl) _ _ _ _
  · intro hb
    have hdrawn : c.ticketsDrawn + 1 < 2 ^ 64 := by
      have htickets := hb.tickets
      rwa [waitRound_ticketsDrawn] at htickets
    have hdrawn' : d.ticketsDrawn + 1 < 2 ^ 64 := by
      rw [hsame.ticketsDrawn]
      exact hdrawn
    have hwaiter : (d.noteRequest w).newWaiter w = (c.noteRequest w).newWaiter w := by
      simp only [Config.newWaiter, hnoted.nextTicket]
    have henqueued : ((c.noteRequest w).enqueue w).SameApart k ((d.noteRequest w).enqueue w) := by
      refine ⟨?_, hsame.leases, congrArg (· + 1) hsame.ticketsDrawn, hsame.leasesDrawn⟩
      have hpushed := hnoted.enqueue ((c.noteRequest w).newWaiter w)
        (nextId (c.noteRequest w).state.nextTicket)
      unfold Config.enqueue
      dsimp only
      rw [hwaiter, hnoted.nextTicket]
      exact hpushed.of_sameLeases SchedulerState.sameLeases_noteQueued
        SchedulerState.sameLeases_noteQueued rfl rfl rfl rfl
    rw [hwaiter]
    exact henqueued.waitRound (hn.enqueue hdrawn) (hn'.enqueue hdrawn') hw
      (List.mem_append_right _ (List.mem_singleton_self _)) expired waitedMs

end Config.SameApart

variable {o : StepOutcome} {action : Action} {c' : Config}
  {log : List (Action × SchedulerEvent)}

theorem waitRound_workload (v : LeaseWaiter) (expired : Bool) (waitedMs : Nat) :
    (c.waitRound v expired waitedMs).event.workload = v.workload := by
  unfold Config.waitRound
  dsimp only
  split_ifs <;> rfl

theorem acquire_workload (expired : Bool) (waitedMs : Nat) :
    (c.acquire queueCapacity w expired waitedMs).event.workload = w := by
  unfold Config.acquire
  dsimp only
  split_ifs
  · rfl
  · rfl
  · rfl
  · exact waitRound_workload _ _ _

/-- A step about a workload apart from `k` can be taken in both worlds and looks the same. -/
theorem Config.SameApart.step (hsame : c.SameApart k d) (hn : Numbered c) (hn' : Numbered d)
    (hstep : c.step queueCapacity action = some o) (hb : Bounded o.config)
    (hapart : k.Apart o.event.workload) :
    ∃ o', d.step queueCapacity action = some o' ∧ o'.event = o.event ∧
      o.config.SameApart k o'.config := by
  cases action with
  | acquire w expired waitedMs =>
      obtain rfl := Option.some.inj hstep
      rw [acquire_workload] at hapart
      exact ⟨_, rfl, hsame.acquire hn hn' hapart hb⟩
  | wake ticket expired waitedMs =>
      obtain ⟨v, hfind, ho⟩ := Option.bind_eq_some_iff.1 hstep
      obtain rfl := Option.some.inj ho
      rw [waitRound_workload] at hapart
      have hmem := List.mem_of_find?_eq_some hfind
      have hticket : v.ticket = ticket := by simpa using List.find?_some hfind
      have hfind' := hn'.ticketOrder.find? ((hsame.state.mem_waiters_iff hapart).2 hmem)
      rw [hticket] at hfind'
      refine ⟨_, ?_, hsame.waitRound hn hn' hapart hmem expired waitedMs⟩
      rw [Config.step, hfind']
      rfl
  | drop leaseId =>
      obtain ⟨lease, hfind, ho⟩ := Option.bind_eq_some_iff.1 hstep
      obtain rfl := Option.some.inj ho
      have hid : lease.leaseId = leaseId := by simpa using List.find?_some hfind
      have hmem := (hsame.mem_leases_iff hapart).2 (List.mem_of_find?_eq_some hfind)
      have hfind' := hn'.find?_lease hmem
      rw [hid] at hfind'
      refine ⟨{
        config := { d.withoutLease leaseId with
          state := d.state.release lease.resourceMask lease.workload leaseId }
        event := .released lease
        notified := d.state.holdsAny lease.resourceMask leaseId },
        by rw [Config.step, hfind']; rfl, rfl, ?_⟩
      exact ⟨hsame.state.release _ _, hsame.withoutLease leaseId, hsame.ticketsDrawn,
        hsame.leasesDrawn⟩
  | quarantine leaseId reason =>
      obtain ⟨lease, hfind, ho⟩ := Option.bind_eq_some_iff.1 hstep
      obtain rfl := Option.some.inj ho
      have hid : lease.leaseId = leaseId := by simpa using List.find?_some hfind
      have hmem := (hsame.mem_leases_iff hapart).2 (List.mem_of_find?_eq_some hfind)
      have hfind' := hn'.find?_lease hmem
      rw [hid] at hfind'
      refine ⟨{
        config := { d.withoutLease leaseId with
          state := d.state.quarantine lease.resourceMask leaseId reason }
        event := .quarantined lease
        notified := d.state.holdsAny lease.resourceMask leaseId },
        by rw [Config.step, hfind']; rfl, rfl, ?_⟩
      exact ⟨hsame.state.quarantine _ _ _, hsame.withoutLease leaseId, hsame.ticketsDrawn,
        hsame.leasesDrawn⟩

theorem Config.SameApart.step_left (hsame : c.SameApart k d) (hinv : Inv queueCapacity c)
    (hquarantined : ∀ r ∈ k.requiredResources, c.table.quarantined r)
    (heffect : Effect queueCapacity c o) (hover : o.event.workload.Overlaps k) :
    o.config.SameApart k d := by
  have hq : ∀ w : AiWorkload, w.Overlaps k →
      c.state.requiredResourcesAreQuarantined w = true := by
    rintro w ⟨r, hr, hk⟩
    exact SchedulerState.requiredResourcesAreQuarantined_iff.2 ⟨r, hr, hquarantined r hk⟩
  have hlive : ∀ lease ∈ c.leases, ¬lease.workload.Overlaps k := by
    rintro lease hlease ⟨r, hr, hk⟩
    exact hquarantined r hk (holder_of_live hinv.table hlease hr).2
  have hmetrics : ∀ {s s' t : SchedulerState}, AiResourceScheduler.SameApart k s t →
      SchedulerState.SameLeases s s' → s'.nextTicket = s.nextTicket →
      s'.waiters = s.waiters → AiResourceScheduler.SameApart k s' t :=
    fun h hs hticket hwaiters =>
      h.of_sameLeases hs (.of_resources rfl rfl) hticket rfl hwaiters rfl
  cases heffect with
  | rejected w =>
      exact ⟨hmetrics hsame.state (.of_resources rfl rfl) rfl rfl, hsame.leases,
        hsame.ticketsDrawn, hsame.leasesDrawn⟩
  | waiterRejected v hv =>
      have hrest := hsame.state.removeWaiter_left hinv.numbered.ticketOrder hv hover
      exact ⟨hmetrics hrest (.of_resources rfl rfl) rfl rfl, hsame.leases, hsame.ticketsDrawn,
        hsame.leasesDrawn⟩
  | grantedAtOnce w hclean | queueFull w hclean | queued w hclean | expiredAtOnce w hclean =>
      exact absurd (hq w hover) hclean
  | waiterGranted v _ hclean | waiterExpired v _ hclean | waits v _ hclean =>
      exact absurd (hq v.workload hover) hclean
  | released lease hlease | quarantined lease hlease =>
      exact absurd hover (hlive lease hlease)

theorem Run.apart (hrun : Run queueCapacity c log c') (hinv : Inv queueCapacity c)
    (hb : Bounded c') (hquarantined : ∀ r ∈ k.requiredResources, c.table.quarantined r)
    (hsame : c.SameApart k d) (hinv' : Inv queueCapacity d) :
    ∃ d', Run queueCapacity d (log.filter fun e => k.Apart e.2.workload) d' ∧
      c'.SameApart k d' ∧ Inv queueCapacity d' := by
  induction hrun with
  | refl => exact ⟨d, .refl d, hsame, hinv'⟩
  | @step c₁ log action o hrun hstep ih =>
      have hb₁ := hb.of_step hstep
      have hinv₁ := hrun.inv hinv hb₁
      obtain ⟨d₁, hrun', hsame₁, hinv₁'⟩ := ih hb₁
      rw [List.filter_append]
      by_cases hapart : k.Apart o.event.workload
      · obtain ⟨o', hstep', hevent, hsame'⟩ :=
          hsame₁.step hinv₁.numbered hinv₁'.numbered hstep hb hapart
        refine ⟨o'.config, ?_, hsame', hinv₁'.step hstep' (hsame'.bounded hb)⟩
        have hrun'' := hrun'.step hstep'
        rw [hevent] at hrun''
        simpa [hapart] using hrun''
      · refine ⟨d₁, by simpa [hapart] using hrun', ?_, hinv₁'⟩
        refine hsame₁.step_left hinv₁ (fun r hr => hrun.quarantined hinv hb₁ (hquarantined r hr))
          (hinv₁.numbered.effect hstep hb) ?_
        exact not_not.1 hapart

theorem sameApart_quarantine (hinv : Inv queueCapacity c) {lease : AiResourceLease} (hlease : lease ∈ c.leases)
    (reason : AiLeaseQuarantineReason) :
    Config.SameApart lease.workload
      { c.withoutLease lease.leaseId with
        state := c.state.quarantine lease.resourceMask lease.leaseId reason } c := by
  refine ⟨⟨rfl, rfl, ?_, rfl⟩, ?_, rfl, rfl⟩
  · intro w hw r hr
    dsimp only
    rw [quarantine_resources hinv.table hlease, if_neg fun hr' => hw ⟨r, hr, hr'⟩]
    exact ⟨rfl, rfl⟩
  · simp only [Config.withoutLease, List.filter_filter]
    refine List.filter_congr fun other hother => ?_
    by_cases hsameId : other.leaseId = lease.leaseId
    · obtain rfl := hinv.numbered.eq_of_leaseId hother hlease hsameId
      have hnot : ¬other.workload.Apart other.workload :=
        fun h => h (AiWorkload.Overlaps.refl _)
      simp [hnot]
    · simp [hsameId]

/-- A quarantine is for good. Its resources stay quarantined, nothing that covers one of them
is granted, whoever asks for one is refused, and the others see what they would see had the
lease not been quarantined. -/
theorem quarantine_permanent {leaseId : Nat} {reason : AiLeaseQuarantineReason}
    {lease : AiResourceLease} (hreach : Reachable queueCapacity c)
    (hstep : c.step queueCapacity (.quarantine leaseId reason) = some o)
    (hlease : o.event = .quarantined lease) (hrun : Run queueCapacity o.config log c')
    (hb : Bounded c') :
    (∀ r ∈ resourcesInMask lease.resourceMask,
      (c'.state.resources r).quarantineReason ≠ none) ∧
    (∀ action granted ticket, (action, .granted granted ticket) ∈ log →
      ∀ r ∈ resourcesInMask lease.resourceMask,
        r ∉ resourcesInMask granted.resourceMask) ∧
    (∀ e ∈ log, ∀ w a, e.2.admission = some (w, a) →
      (∃ r ∈ resourcesInMask w.resourceMask, r ∈ resourcesInMask lease.resourceMask) →
      a = .refused .quarantined) ∧
    ∃ d, Run queueCapacity c
      (log.filter fun e => ¬e.2.workload.Overlaps lease.workload) d := by
  have hb₁ : Bounded o.config := hrun.bounded hb
  have hinv := hreach.inv (hb₁.of_step hstep)
  have hinv₁ := hinv.step hstep hb₁
  -- the step itself
  obtain ⟨found, hfind, ho⟩ := Option.bind_eq_some_iff.1 hstep
  obtain rfl := Option.some.inj ho
  obtain rfl := SchedulerEvent.quarantined.inj hlease
  have hid : found.leaseId = leaseId := by simpa using List.find?_some hfind
  subst hid
  have hmem := List.mem_of_find?_eq_some hfind
  have hquarantined : ∀ r ∈ found.workload.requiredResources,
      ((c.state.quarantine found.resourceMask found.leaseId reason).resources r).quarantineReason
        ≠ none := by
    intro r hr
    rw [quarantine_resources hinv.table hmem, if_pos hr]
    exact Option.some_ne_none reason
  have hrequests : ∀ e ∈ log, ∀ w a, e.2.admission = some (w, a) →
      w.Overlaps found.workload → a = .refused .quarantined := by
    rintro e he w a ha ⟨r, hr, hr'⟩
    refine hrun.admission_of_quarantined hinv₁ hb ?_ e he a ha
    exact SchedulerState.requiredResourcesAreQuarantined_iff.2 ⟨r, hr, hquarantined r hr'⟩
  refine ⟨?_, ?_, ?_, ?_⟩
  · intro r hr
    rw [found.resourceMask_eq, mem_resourcesInMask] at hr
    exact hrun.quarantined hinv₁ hb (hquarantined r hr)
  · intro action granted ticket he r hr hr'
    rw [found.resourceMask_eq, mem_resourcesInMask] at hr
    rw [granted.resourceMask_eq, mem_resourcesInMask] at hr'
    have hrefused := hrequests _ he granted.workload .granted rfl ⟨r, hr', hr⟩
    cases hrefused
  · rintro e he w a ha ⟨r, hr, hr'⟩
    rw [found.resourceMask_eq, mem_resourcesInMask] at hr'
    exact hrequests e he w a ha ⟨r, mem_resourcesInMask.1 hr, hr'⟩
  · have hsame := sameApart_quarantine hinv hmem reason
    obtain ⟨d, hrun', -⟩ := hrun.apart hinv₁ hb hquarantined hsame hinv
    exact ⟨d, hrun'⟩

/-- The classifier is quarantined while an assistant request waits for it; then the request is
refused, and a detector starts on the other cluster. -/
theorem quarantine_permanent_sample :
    ∃ c o lease c' log, Reachable 4 c ∧
      c.step 4 (.quarantine 1 .inferenceTimeout) = some o ∧ o.event = .quarantined lease ∧
      Run 4 o.config log c' ∧ c'.state.waiters = [] ∧ c'.leases.length = 1 ∧
      ∀ r ∈ resourcesInMask lease.resourceMask,
        (c'.state.resources r).quarantineReason ≠ none := by
  let c := Config.steps 4 {} [.acquire .catRecordingVerifier false 0, .acquire .llm false 0]
  let o := (c.step 4 (.quarantine 1 .inferenceTimeout)).get (by decide)
  have hstep : c.step 4 (.quarantine 1 .inferenceTimeout) = some o := (Option.some_get _).symm
  have hlease : o.event = .quarantined ⟨10, .catRecordingVerifier, 1, by decide⟩ := by decide
  obtain ⟨log, hrun⟩ := run_steps 4 o.config [.wake 1 false 0, .acquire .yolo false 0]
  exact ⟨c, o, _, _, log, run_steps _ _ _, hstep, hlease, hrun, by decide, by decide,
    (quarantine_permanent (run_steps _ _ _) hstep hlease hrun ⟨by decide, by decide⟩).1⟩

end Apart

end HarborBeacon.AiResourceScheduler
