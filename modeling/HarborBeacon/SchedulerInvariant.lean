import HarborBeacon.AiResourceScheduler
import HarborBeacon.LeaseTable
import Mathlib.Data.List.Nodup

/-!
What every reachable state of the scheduler satisfies. The tickets and the lease ids are
drawn in order; the holders and the quarantines are a table of leases; the queue is bounded
and the counters balance.
-/

namespace HarborBeacon.AiResourceScheduler

open LeaseTable

theorem nextId_eq {n : Nat} (h : n + 1 < 2 ^ 64) : nextId n = n + 1 := by
  unfold nextId
  rw [Nat.mod_eq_of_lt h]
  omega

section Predicates

namespace SchedulerState

variable {s : SchedulerState} {w : AiWorkload}

def Free (s : SchedulerState) (w : AiWorkload) : Prop :=
  ∀ r ∈ w.requiredResources,
    (s.resources r).holder = none ∧ (s.resources r).quarantineReason = none

theorem resourcesAreFree_iff : s.resourcesAreFree w.resourceMask = true ↔ s.Free w := by
  simp [resourcesAreFree, mem_resourcesInMask, resourceIsFree, Free]

theorem requiredResourcesAreQuarantined_iff :
    s.requiredResourcesAreQuarantined w = true ↔
      ∃ r ∈ w.requiredResources, (s.resources r).quarantineReason ≠ none := by
  simp [requiredResourcesAreQuarantined, Option.isSome_iff_ne_none]

end SchedulerState

/-- Two workloads that cannot run at the same time. -/
def AiWorkload.Overlaps (u v : AiWorkload) : Prop :=
  ∃ r ∈ u.requiredResources, r ∈ v.requiredResources

instance (u v : AiWorkload) : Decidable (u.Overlaps v) :=
  inferInstanceAs (Decidable (∃ r ∈ u.requiredResources, r ∈ v.requiredResources))

theorem AiWorkload.Overlaps.refl (u : AiWorkload) : u.Overlaps u := by
  cases u <;> decide

theorem AiWorkload.Overlaps.symm {u v : AiWorkload} (h : u.Overlaps v) : v.Overlaps u := by
  obtain ⟨r, hu, hv⟩ := h
  exact ⟨r, hv, hu⟩

theorem AiWorkload.Overlaps.trans {u v w : AiWorkload} :
    u.Overlaps v → v.Overlaps w → u.Overlaps w := by
  cases u <;> cases v <;> cases w <;> decide

namespace SchedulerState

variable {s : SchedulerState} {w : AiWorkload}

theorem overlap_waiter_iff {v : LeaseWaiter} :
    resourcesOverlap v.resourceMask w.resourceMask = true ↔ v.workload.Overlaps w := by
  rw [v.resourceMask_eq]
  exact resourcesOverlap_iff

theorem waiter_free_iff {v : LeaseWaiter} :
    s.resourcesAreFree v.resourceMask = true ↔ s.Free v.workload := by
  rw [v.resourceMask_eq]
  exact resourcesAreFree_iff

theorem canGrantNewRequest_iff :
    s.canGrantNewRequest w = true ↔
      s.Free w ∧ ∀ v ∈ s.waiters, v.workload.Overlaps w → s.Free v.workload →
        w.priority < v.priority := by
  simp only [canGrantNewRequest, Bool.and_eq_true, resourcesAreFree_iff, Bool.not_eq_true',
    List.any_eq_false, decide_eq_true_eq, overlap_waiter_iff, waiter_free_iff, not_and,
    Nat.not_le, and_imp]

def Before (other v : LeaseWaiter) : Prop :=
  other.priority < v.priority ∨ (other.priority = v.priority ∧ other.ticket < v.ticket)

theorem waiterCanBeGranted_of_find {v : LeaseWaiter} {ticket : Nat}
    (hfind : s.waiters.find? (fun waiter => waiter.ticket = ticket) = some v) :
    s.waiterCanBeGranted ticket = true ↔
      s.Free v.workload ∧ ∀ other ∈ s.waiters, other.ticket ≠ v.ticket →
        other.workload.Overlaps v.workload → s.Free other.workload → ¬Before other v := by
  have hoverlap : ∀ other : LeaseWaiter,
      resourcesOverlap other.resourceMask v.resourceMask = true ↔
        other.workload.Overlaps v.workload := by
    intro other
    rw [v.resourceMask_eq]
    exact overlap_waiter_iff
  simp only [waiterCanBeGranted, hfind, Bool.and_eq_true, waiter_free_iff, Bool.not_eq_true',
    List.any_eq_false, decide_eq_true_eq, hoverlap, not_and, and_imp, Before]

end SchedulerState

end Predicates

section Waiters

variable {waiters : List LeaseWaiter}

def InTicketOrder (waiters : List LeaseWaiter) : Prop :=
  waiters.Pairwise fun v w => v.ticket < w.ticket

theorem InTicketOrder.find? (horder : InTicketOrder waiters) {v : LeaseWaiter}
    (hv : v ∈ waiters) : waiters.find? (fun waiter => waiter.ticket = v.ticket) = some v := by
  induction waiters with
  | nil => cases hv
  | cons w rest ih =>
      obtain ⟨hw, hrest⟩ := List.pairwise_cons.1 horder
      rcases List.mem_cons.1 hv with rfl | hmem
      · simp
      · have hne : w.ticket ≠ v.ticket := Nat.ne_of_lt (hw v hmem)
        rw [List.find?_cons_of_neg (by simpa using hne)]
        exact ih hrest hmem

theorem InTicketOrder.eq_of_ticket (horder : InTicketOrder waiters) {v w : LeaseWaiter}
    (hv : v ∈ waiters) (hw : w ∈ waiters) (hticket : v.ticket = w.ticket) : v = w := by
  have hfind := horder.find? hv
  rw [hticket, horder.find? hw] at hfind
  exact (Option.some.inj hfind).symm

theorem InTicketOrder.eraseP_eq_filter (horder : InTicketOrder waiters) (ticket : Nat) :
    waiters.eraseP (fun waiter => waiter.ticket = ticket) =
      waiters.filter fun waiter => waiter.ticket ≠ ticket := by
  induction waiters with
  | nil => rfl
  | cons w rest ih =>
      obtain ⟨hw, hrest⟩ := List.pairwise_cons.1 horder
      by_cases hticket : w.ticket = ticket
      · -- the tickets behind are larger, so the filter takes nothing else
        have hkeep : ∀ v ∈ rest, decide (v.ticket ≠ ticket) = true := by
          intro v hv
          have hlt := hw v hv
          exact decide_eq_true (by omega)
        rw [List.eraseP_cons_of_pos (by simpa using hticket),
          List.filter_cons_of_neg (by simpa using hticket), List.filter_eq_self.2 hkeep]
      · simp [hticket, ih hrest]

theorem InTicketOrder.waiterCanBeGranted_iff {s : SchedulerState}
    (horder : InTicketOrder s.waiters) {v : LeaseWaiter} (hv : v ∈ s.waiters) :
    s.waiterCanBeGranted v.ticket = true ↔
      s.Free v.workload ∧ ∀ other ∈ s.waiters, other.workload.Overlaps v.workload →
        s.Free other.workload → ¬SchedulerState.Before other v := by
  rw [SchedulerState.waiterCanBeGranted_of_find (horder.find? hv)]
  constructor
  · rintro ⟨hfree, hfirst⟩
    refine ⟨hfree, fun other hother hover hfree' hbefore => ?_⟩
    by_cases hticket : other.ticket = v.ticket
    · rw [horder.eq_of_ticket hother hv hticket] at hbefore
      unfold SchedulerState.Before at hbefore
      omega
    · exact hfirst other hother hticket hover hfree' hbefore
  · rintro ⟨hfree, hfirst⟩
    exact ⟨hfree, fun other hother _ => hfirst other hother⟩

end Waiters

section Notes

namespace SchedulerState

variable {s s' : SchedulerState} {w : AiWorkload}

structure SameLeases (s s' : SchedulerState) : Prop where
  holder : ∀ r, (s'.resources r).holder = (s.resources r).holder
  quarantineReason : ∀ r, (s'.resources r).quarantineReason = (s.resources r).quarantineReason
  acquired : ∀ r,
    (s'.resources r).metrics.acquiredTotal = (s.resources r).metrics.acquiredTotal
  released : ∀ r,
    (s'.resources r).metrics.releasedTotal = (s.resources r).metrics.releasedTotal
  leaseQuarantined : ∀ r, (s'.resources r).metrics.leaseQuarantinedTotal =
    (s.resources r).metrics.leaseQuarantinedTotal
  nextLeaseId : s'.nextLeaseId = s.nextLeaseId

theorem SameLeases.of_resources (hresources : s'.resources = s.resources)
    (hnext : s'.nextLeaseId = s.nextLeaseId) : SameLeases s s' := by
  constructor <;> simp [hresources, hnext]

theorem SameLeases.trans {s'' : SchedulerState} (h : SameLeases s s')
    (h' : SameLeases s' s'') : SameLeases s s'' where
  holder r := (h'.holder r).trans (h.holder r)
  quarantineReason r := (h'.quarantineReason r).trans (h.quarantineReason r)
  acquired r := (h'.acquired r).trans (h.acquired r)
  released r := (h'.released r).trans (h.released r)
  leaseQuarantined r := (h'.leaseQuarantined r).trans (h.leaseQuarantined r)
  nextLeaseId := h'.nextLeaseId.trans h.nextLeaseId

theorem SameLeases.free_iff (h : SameLeases s s') : s'.Free w ↔ s.Free w := by
  simp only [Free, h.holder, h.quarantineReason]

theorem SameLeases.quarantined_eq (h : SameLeases s s') :
    s'.requiredResourcesAreQuarantined w = s.requiredResourcesAreQuarantined w := by
  simp only [requiredResourcesAreQuarantined, h.quarantineReason]

theorem sameLeases_removeWaiter (ticket : Nat) : SameLeases s (s.removeWaiter ticket) :=
  .of_resources rfl rfl

theorem sameLeases_onWorkload (f : WorkloadMetrics → WorkloadMetrics) :
    SameLeases s (s.onWorkload w f) :=
  .of_resources rfl rfl

theorem sameLeases_onResources (resources : List AiResource) {f : ResourceState → ResourceState}
    (hf : ∀ state, (f state).holder = state.holder ∧
      (f state).quarantineReason = state.quarantineReason ∧
      (f state).metrics.acquiredTotal = state.metrics.acquiredTotal ∧
      (f state).metrics.releasedTotal = state.metrics.releasedTotal ∧
      (f state).metrics.leaseQuarantinedTotal = state.metrics.leaseQuarantinedTotal) :
    SameLeases s (s.onResources resources f) := by
  have hcase : ∀ r, (s.onResources resources f).resources r = f (s.resources r) ∨
      (s.onResources resources f).resources r = s.resources r := fun r => ite_eq_or_eq _ _ _
  refine ⟨?_, ?_, ?_, ?_, ?_, rfl⟩
  all_goals
    intro r
    rcases hcase r with h | h
    · rw [h]
      simp only [hf]
    · rw [h]

theorem sameLeases_noteRequested : SameLeases s (s.noteRequested w) :=
  sameLeases_onWorkload _

theorem sameLeases_noteQuarantineRejected : SameLeases s (s.noteQuarantineRejected w) :=
  sameLeases_onWorkload _

theorem sameLeases_noteQueueFull : SameLeases s (s.noteQueueFull w) := by
  dsimp only [noteQueueFull]
  refine SameLeases.trans ?_ (sameLeases_onWorkload _)
  exact sameLeases_onResources _ fun _ => ⟨rfl, rfl, rfl, rfl, rfl⟩

theorem sameLeases_noteQueued : SameLeases s (s.noteQueued w) := by
  dsimp only [noteQueued]
  refine SameLeases.trans ?_ (sameLeases_onWorkload _)
  exact sameLeases_onResources _ fun _ => ⟨rfl, rfl, rfl, rfl, rfl⟩

theorem sameLeases_noteTimedOut : SameLeases s (s.noteTimedOut w) := by
  dsimp only [noteTimedOut]
  refine SameLeases.trans ?_ (sameLeases_onWorkload _)
  exact sameLeases_onResources _ fun _ => ⟨rfl, rfl, rfl, rfl, rfl⟩

end SchedulerState

end Notes

section Effects

/-- Tickets and lease ids are drawn in order and none was drawn twice. -/
structure Numbered (c : Config) : Prop where
  nextTicket : c.state.nextTicket = c.ticketsDrawn
  ticketOrder : InTicketOrder c.state.waiters
  ticket_le : ∀ v ∈ c.state.waiters, v.ticket ≤ c.ticketsDrawn
  nextLeaseId : c.state.nextLeaseId = c.leasesDrawn
  leaseIds : (c.leases.map (·.leaseId)).Nodup
  leaseId_le : ∀ lease ∈ c.leases, lease.leaseId ≤ c.leasesDrawn

/-- What a step can do. A request that was put in the queue is not granted in the same step,
since what kept it from being granted at once still stands. -/
inductive Effect (queueCapacity : Nat) (c : Config) : StepOutcome → Prop
  | rejected (w : AiWorkload)
      (hquarantined : c.state.requiredResourcesAreQuarantined w = true) :
      Effect queueCapacity c ((c.noteRequest w).refuse
        ((c.noteRequest w).state.noteQuarantineRejected w) w .quarantined none false)
  | grantedAtOnce (w : AiWorkload)
      (hclean : ¬c.state.requiredResourcesAreQuarantined w = true)
      (hgrant : c.state.canGrantNewRequest w = true) :
      Effect queueCapacity c ((c.noteRequest w).grantTo (c.noteRequest w).state w
        w.resourceMask rfl 0 none)
  | queueFull (w : AiWorkload)
      (hclean : ¬c.state.requiredResourcesAreQuarantined w = true)
      (hbehind : ¬c.state.canGrantNewRequest w = true) :
      Effect queueCapacity c ((c.noteRequest w).refuse
        ((c.noteRequest w).state.noteQueueFull w) w .queueFull none false)
  | queued (w : AiWorkload)
      (hclean : ¬c.state.requiredResourcesAreQuarantined w = true)
      (hbehind : ¬c.state.canGrantNewRequest w = true)
      (hroom : ∀ r ∈ w.requiredResources, c.state.queuedCountForResource r < queueCapacity) :
      Effect queueCapacity c
        { config := (c.noteRequest w).enqueue w
          event := .waits w (c.newWaiter w).ticket
          notified := false }
  | expiredAtOnce (w : AiWorkload)
      (hclean : ¬c.state.requiredResourcesAreQuarantined w = true)
      (hbehind : ¬c.state.canGrantNewRequest w = true)
      (hroom : ∀ r ∈ w.requiredResources, c.state.queuedCountForResource r < queueCapacity) :
      Effect queueCapacity c (((c.noteRequest w).enqueue w).refuse
        ((((c.noteRequest w).enqueue w).state.removeWaiter (c.newWaiter w).ticket).noteTimedOut w)
        w .waitTimeout (some (c.newWaiter w).ticket) true)
  | waiterRejected (v : LeaseWaiter) (hv : v ∈ c.state.waiters)
      (hquarantined : c.state.requiredResourcesAreQuarantined v.workload = true) :
      Effect queueCapacity c (c.refuse
        ((c.state.removeWaiter v.ticket).noteQuarantineRejected v.workload) v.workload
        .quarantined (some v.ticket) true)
  | waiterGranted (v : LeaseWaiter) (hv : v ∈ c.state.waiters)
      (hclean : ¬c.state.requiredResourcesAreQuarantined v.workload = true)
      (hgrant : c.state.waiterCanBeGranted v.ticket = true) (waitedMs : Nat) :
      Effect queueCapacity c (c.grantTo (c.state.removeWaiter v.ticket) v.workload
        v.resourceMask v.resourceMask_eq waitedMs (some v.ticket))
  | waiterExpired (v : LeaseWaiter) (hv : v ∈ c.state.waiters)
      (hclean : ¬c.state.requiredResourcesAreQuarantined v.workload = true)
      (hbehind : ¬c.state.waiterCanBeGranted v.ticket = true) :
      Effect queueCapacity c (c.refuse
        ((c.state.removeWaiter v.ticket).noteTimedOut v.workload) v.workload .waitTimeout
        (some v.ticket) true)
  | waits (v : LeaseWaiter) (hv : v ∈ c.state.waiters)
      (hclean : ¬c.state.requiredResourcesAreQuarantined v.workload = true)
      (hbehind : ¬c.state.waiterCanBeGranted v.ticket = true) :
      Effect queueCapacity c
        { config := c, event := .waits v.workload v.ticket, notified := false }
  | released (lease : AiResourceLease) (hlease : lease ∈ c.leases) :
      Effect queueCapacity c
        { config := { c.withoutLease lease.leaseId with
            state := c.state.release lease.resourceMask lease.workload lease.leaseId }
          event := .released lease
          notified := c.state.holdsAny lease.resourceMask lease.leaseId }
  | quarantined (lease : AiResourceLease) (hlease : lease ∈ c.leases)
      (reason : AiLeaseQuarantineReason) :
      Effect queueCapacity c
        { config := { c.withoutLease lease.leaseId with
            state := c.state.quarantine lease.resourceMask lease.leaseId reason }
          event := .quarantined lease
          notified := c.state.holdsAny lease.resourceMask lease.leaseId }

variable {queueCapacity : Nat} {c : Config} {o : StepOutcome} {action : Action}
  {w : AiWorkload}

theorem sameLeases_enqueue :
    SchedulerState.SameLeases c.state ((c.noteRequest w).enqueue w).state := by
  have hpushed : SchedulerState.SameLeases c.state
      { c.state.noteRequested w with
        nextTicket := nextId c.state.nextTicket
        waiters := c.state.waiters ++ [c.newWaiter w] } := .of_resources rfl rfl
  exact hpushed.trans SchedulerState.sameLeases_noteQueued

theorem Numbered.newWaiter_ticket (hn : Numbered c) (hdrawn : c.ticketsDrawn + 1 < 2 ^ 64) :
    (c.newWaiter w).ticket = c.ticketsDrawn + 1 := by
  have hticket := nextId_eq hdrawn
  rwa [← hn.nextTicket] at hticket ⊢

theorem Numbered.ticketOrder_enqueue (hn : Numbered c)
    (hdrawn : c.ticketsDrawn + 1 < 2 ^ 64) :
    InTicketOrder (c.state.waiters ++ [c.newWaiter w]) := by
  refine List.pairwise_append.2 ⟨hn.ticketOrder, List.pairwise_singleton _ _, ?_⟩
  intro v hv u hu
  rw [List.mem_singleton.1 hu, hn.newWaiter_ticket hdrawn]
  exact Nat.lt_succ_of_le (hn.ticket_le v hv)

theorem Numbered.enqueue_granted_iff (hn : Numbered c) (hdrawn : c.ticketsDrawn + 1 < 2 ^ 64) :
    ((c.noteRequest w).enqueue w).state.waiterCanBeGranted (c.newWaiter w).ticket = true ↔
      c.state.canGrantNewRequest w = true := by
  have horder : InTicketOrder ((c.noteRequest w).enqueue w).state.waiters :=
    hn.ticketOrder_enqueue hdrawn
  have hmem : c.newWaiter w ∈ ((c.noteRequest w).enqueue w).state.waiters :=
    List.mem_append_right _ (List.mem_singleton_self _)
  have hsame : SchedulerState.SameLeases c.state ((c.noteRequest w).enqueue w).state :=
    sameLeases_enqueue
  rw [horder.waiterCanBeGranted_iff hmem, SchedulerState.canGrantNewRequest_iff]
  simp only [hsame.free_iff]
  have hlater : ∀ v ∈ c.state.waiters, v.ticket < (c.newWaiter w).ticket := by
    intro v hv
    rw [hn.newWaiter_ticket hdrawn]
    exact Nat.lt_succ_of_le (hn.ticket_le v hv)
  constructor
  · rintro ⟨hfree, hfirst⟩
    refine ⟨hfree, fun v hv hover hfree' => ?_⟩
    have hnot := hfirst v (List.mem_append_left _ hv) hover hfree'
    have hlt := hlater v hv
    have hpriority : (c.newWaiter w).priority = w.priority := rfl
    unfold SchedulerState.Before at hnot
    omega
  · rintro ⟨hfree, hfirst⟩
    refine ⟨hfree, fun v hv hover hfree' => ?_⟩
    unfold SchedulerState.Before
    rcases List.mem_append.1 hv with hv | hv
    · have hlt := hfirst v hv hover hfree'
      have hpriority : (c.newWaiter w).priority = w.priority := rfl
      omega
    · have hself : v = c.newWaiter w := List.mem_singleton.1 hv
      rw [hself]
      omega

theorem waitRound_ticketsDrawn (v : LeaseWaiter) (expired : Bool) (waitedMs : Nat) :
    (c.waitRound v expired waitedMs).config.ticketsDrawn = c.ticketsDrawn := by
  unfold Config.waitRound
  dsimp only
  split_ifs <;> rfl

theorem Numbered.effect_acquire (hn : Numbered c) {expired : Bool} {waitedMs : Nat}
    (hb : Bounded (c.acquire queueCapacity w expired waitedMs).config) :
    Effect queueCapacity c (c.acquire queueCapacity w expired waitedMs) := by
  revert hb
  unfold Config.acquire
  dsimp only
  split_ifs with hquarantined hgrant hfull
  · exact fun _ => .rejected w hquarantined
  · exact fun _ => .grantedAtOnce w hquarantined hgrant
  · exact fun _ => .queueFull w hquarantined hgrant
  · intro hb
    have hroom : ∀ r ∈ w.requiredResources,
        (c.noteRequest w).state.queuedCountForResource r < queueCapacity := by
      simpa using hfull
    have hdrawn : c.ticketsDrawn + 1 < 2 ^ 64 := by
      have htickets := hb.tickets
      rwa [waitRound_ticketsDrawn] at htickets
    have hclean' : ¬((c.noteRequest w).enqueue w).state.requiredResourcesAreQuarantined
        ((c.noteRequest w).newWaiter w).workload = true := by
      rw [(sameLeases_enqueue (c := c) (w := w)).quarantined_eq]
      exact hquarantined
    have hbehind' : ¬((c.noteRequest w).enqueue w).state.waiterCanBeGranted
        ((c.noteRequest w).newWaiter w).ticket = true :=
      fun h => hgrant ((hn.enqueue_granted_iff hdrawn).1 h)
    unfold Config.waitRound
    dsimp only
    rw [if_neg hclean', if_neg hbehind']
    split_ifs
    · exact .expiredAtOnce w hquarantined hgrant hroom
    · exact .queued w hquarantined hgrant hroom

theorem effect_waitRound {v : LeaseWaiter} (hv : v ∈ c.state.waiters) (expired : Bool)
    (waitedMs : Nat) : Effect queueCapacity c (c.waitRound v expired waitedMs) := by
  unfold Config.waitRound
  dsimp only
  split_ifs with hquarantined hgrant hexpired
  · exact .waiterRejected v hv hquarantined
  · exact .waiterGranted v hv hquarantined hgrant waitedMs
  · exact .waiterExpired v hv hquarantined hgrant
  · exact .waits v hv hquarantined hgrant

theorem Numbered.effect (hn : Numbered c) (hstep : c.step queueCapacity action = some o)
    (hb : Bounded o.config) : Effect queueCapacity c o := by
  cases action with
  | acquire w expired waitedMs =>
      obtain rfl := Option.some.inj hstep
      exact hn.effect_acquire hb
  | wake ticket expired waitedMs =>
      obtain ⟨v, hfind, ho⟩ := Option.bind_eq_some_iff.1 hstep
      obtain rfl := Option.some.inj ho
      exact effect_waitRound (List.mem_of_find?_eq_some hfind) expired waitedMs
  | drop leaseId =>
      obtain ⟨lease, hfind, ho⟩ := Option.bind_eq_some_iff.1 hstep
      obtain rfl := Option.some.inj ho
      have hid : lease.leaseId = leaseId := by simpa using List.find?_some hfind
      subst hid
      exact .released lease (List.mem_of_find?_eq_some hfind)
  | quarantine leaseId reason =>
      obtain ⟨lease, hfind, ho⟩ := Option.bind_eq_some_iff.1 hstep
      obtain rfl := Option.some.inj ho
      have hid : lease.leaseId = leaseId := by simpa using List.find?_some hfind
      subst hid
      exact .quarantined lease (List.mem_of_find?_eq_some hfind) reason

end Effects

section Numbers

variable {queueCapacity : Nat} {c c' : Config} {o : StepOutcome} {s : SchedulerState}
  {w : AiWorkload}

theorem Numbered.of_sublist (hn : Numbered c)
    (hnextTicket : c'.state.nextTicket = c.state.nextTicket)
    (htickets : c'.ticketsDrawn = c.ticketsDrawn)
    (hwaiters : c'.state.waiters.Sublist c.state.waiters)
    (hnextLeaseId : c'.state.nextLeaseId = c.state.nextLeaseId)
    (hdrawn : c'.leasesDrawn = c.leasesDrawn) (hleases : c'.leases.Sublist c.leases) :
    Numbered c' where
  nextTicket := by rw [hnextTicket, htickets, hn.nextTicket]
  ticketOrder := hn.ticketOrder.sublist hwaiters
  ticket_le v hv := by
    rw [htickets]
    exact hn.ticket_le v (hwaiters.subset hv)
  nextLeaseId := by rw [hnextLeaseId, hdrawn, hn.nextLeaseId]
  leaseIds := hn.leaseIds.sublist (hleases.map _)
  leaseId_le lease hlease := by
    rw [hdrawn]
    exact hn.leaseId_le lease (hleases.subset hlease)

theorem Numbered.enqueue (hn : Numbered c) (hdrawn : c.ticketsDrawn + 1 < 2 ^ 64) :
    Numbered ((c.noteRequest w).enqueue w) where
  nextTicket := hn.newWaiter_ticket (w := w) hdrawn
  ticketOrder := hn.ticketOrder_enqueue hdrawn
  ticket_le v hv := by
    rcases List.mem_append.1 hv with hv | hv
    · exact Nat.le_succ_of_le (hn.ticket_le v hv)
    · rw [List.mem_singleton.1 hv]
      exact Nat.le_of_eq (hn.newWaiter_ticket (w := w) hdrawn)
  nextLeaseId := hn.nextLeaseId
  leaseIds := hn.leaseIds
  leaseId_le := hn.leaseId_le

theorem Numbered.nextId_nextLeaseId (hn : Numbered c) (hdrawn : c.leasesDrawn + 1 < 2 ^ 64) :
    nextId c.state.nextLeaseId = c.leasesDrawn + 1 := by
  rw [hn.nextLeaseId]
  exact nextId_eq hdrawn

theorem Numbered.grantTo (hn : Numbered c) (hdrawn : c.leasesDrawn + 1 < 2 ^ 64)
    (hnextTicket : s.nextTicket = c.state.nextTicket)
    (hwaiters : s.waiters.Sublist c.state.waiters)
    (hnextLeaseId : s.nextLeaseId = c.state.nextLeaseId) {resourceMask : UInt8}
    (hmask : resourceMask = w.resourceMask) (waitedMs : Nat) (ticket : Option Nat) :
    Numbered (c.grantTo s w resourceMask hmask waitedMs ticket).config := by
  have hid : nextId s.nextLeaseId = c.leasesDrawn + 1 := by
    rw [hnextLeaseId]
    exact hn.nextId_nextLeaseId hdrawn
  constructor
  · exact hnextTicket.trans hn.nextTicket
  · exact hn.ticketOrder.sublist hwaiters
  · exact fun v hv => hn.ticket_le v (hwaiters.subset hv)
  · exact hid
  · refine List.nodup_cons.2 ⟨?_, hn.leaseIds⟩
    intro hmem
    obtain ⟨lease, hlease, heq⟩ := List.mem_map.1 hmem
    have hle := hn.leaseId_le lease hlease
    have hnew : lease.leaseId = c.leasesDrawn + 1 := heq.trans hid
    omega
  · intro lease hlease
    rcases List.mem_cons.1 hlease with rfl | hlease
    · exact Nat.le_of_eq hid
    · exact Nat.le_succ_of_le (hn.leaseId_le lease hlease)

theorem SchedulerState.release_queue (s : SchedulerState) (resourceMask : UInt8)
    (workload : AiWorkload) (leaseId : Nat) :
    (s.release resourceMask workload leaseId).nextTicket = s.nextTicket ∧
      (s.release resourceMask workload leaseId).waiters = s.waiters ∧
      (s.release resourceMask workload leaseId).nextLeaseId = s.nextLeaseId := by
  unfold SchedulerState.release
  dsimp only
  split <;> exact ⟨rfl, rfl, rfl⟩

theorem removeWaiter_sublist (s : SchedulerState) (ticket : Nat) :
    (s.removeWaiter ticket).waiters.Sublist s.waiters :=
  List.eraseP_sublist

theorem Numbered.step (hn : Numbered c) (heffect : Effect queueCapacity c o)
    (hb : Bounded o.config) : Numbered o.config := by
  rcases heffect with ⟨w, -⟩ | ⟨w, -, -⟩ | ⟨w, -, -⟩ | ⟨w, -, -, -⟩ | ⟨w, -, -, -⟩ | ⟨v, -, -⟩ |
    ⟨v, -, -, -, waitedMs⟩ | ⟨v, -, -, -⟩ | _ | ⟨lease, -⟩ | ⟨lease, -, reason⟩
  · exact hn.of_sublist rfl rfl (List.Sublist.refl _) rfl rfl (List.Sublist.refl _)
  · have hn' : Numbered (c.noteRequest w) :=
      hn.of_sublist rfl rfl (List.Sublist.refl _) rfl rfl (List.Sublist.refl _)
    exact hn'.grantTo hb.leases rfl (List.Sublist.refl _) rfl rfl 0 none
  · exact hn.of_sublist rfl rfl (List.Sublist.refl _) rfl rfl (List.Sublist.refl _)
  · exact hn.enqueue hb.tickets
  · exact (hn.enqueue hb.tickets).of_sublist rfl rfl (removeWaiter_sublist _ _) rfl rfl
      (List.Sublist.refl _)
  · exact hn.of_sublist rfl rfl (removeWaiter_sublist _ _) rfl rfl (List.Sublist.refl _)
  · exact hn.grantTo (s := c.state.removeWaiter v.ticket) hb.leases rfl
      (removeWaiter_sublist _ _) rfl v.resourceMask_eq waitedMs _
  · exact hn.of_sublist rfl rfl (removeWaiter_sublist _ _) rfl rfl (List.Sublist.refl _)
  · exact hn
  · have hqueue := c.state.release_queue lease.resourceMask lease.workload lease.leaseId
    refine hn.of_sublist hqueue.1 rfl ?_ hqueue.2.2 rfl List.filter_sublist
    exact hqueue.2.1 ▸ List.Sublist.refl _
  · exact hn.of_sublist rfl rfl (List.Sublist.refl _) rfl rfl List.filter_sublist

end Numbers

section Table

def AiResourceLease.holder (lease : AiResourceLease) : LeaseHolder where
  leaseId := lease.leaseId
  workload := lease.workload

def needs (holder : LeaseHolder) : List AiResource :=
  holder.workload.requiredResources

def Config.table (c : Config) : Table AiResource LeaseHolder where
  holder r := (c.state.resources r).holder
  quarantined r := (c.state.resources r).quarantineReason ≠ none
  live h := ∃ lease ∈ c.leases, lease.holder = h

variable {queueCapacity : Nat} {c c' : Config} {o : StepOutcome} {s : SchedulerState}
  {w : AiWorkload}

theorem table_eq_of_sameLeases (hsame : SchedulerState.SameLeases c.state c'.state)
    (hleases : c'.leases = c.leases) : c'.table = c.table := by
  unfold Config.table
  congr 1
  · exact funext hsame.holder
  · funext r
    rw [hsame.quarantineReason r]
  · rw [hleases]

theorem table_free_iff {w : AiWorkload} :
    (∀ r ∈ w.requiredResources, c.table.Free r) ↔ c.state.Free w := by
  simp [Table.Free, Config.table, SchedulerState.Free]

theorem grant_resources (s : SchedulerState) (waitedMs : Nat) (r : AiResource) :
    (s.grant w w.resourceMask waitedMs).resources r =
      if r ∈ w.requiredResources then
        { s.resources r with
          holder := some ⟨nextId s.nextLeaseId, w⟩
          metrics := { (s.resources r).metrics with
            acquiredTotal := (s.resources r).metrics.acquiredTotal + 1
            totalWaitMs := saturatingAdd (s.resources r).metrics.totalWaitMs waitedMs
            maxWaitMs := max (s.resources r).metrics.maxWaitMs waitedMs } }
      else s.resources r := by
  simp only [SchedulerState.grant, SchedulerState.onWorkload, SchedulerState.onResources,
    mem_resourcesInMask]

theorem grant_quarantineReason (s : SchedulerState) (waitedMs : Nat) (r : AiResource) :
    ((s.grant w w.resourceMask waitedMs).resources r).quarantineReason =
      (s.resources r).quarantineReason := by
  rw [grant_resources]
  split <;> rfl

theorem Numbered.table_grantTo (hn : Numbered c) (hdrawn : c.leasesDrawn + 1 < 2 ^ 64)
    (hsame : SchedulerState.SameLeases c.state s) (hfree : c.state.Free w)
    {resourceMask : UInt8} (hmask : resourceMask = w.resourceMask) (waitedMs : Nat)
    (ticket : Option Nat) :
    Step needs c.table (c.grantTo s w resourceMask hmask waitedMs ticket).config.table := by
  subst hmask
  have hid : nextId s.nextLeaseId = c.leasesDrawn + 1 := by
    rw [hsame.nextLeaseId]
    exact hn.nextId_nextLeaseId hdrawn
  have hnew : ¬c.table.live ⟨nextId s.nextLeaseId, w⟩ := by
    rintro ⟨lease, hlease, heq⟩
    have hle := hn.leaseId_le lease hlease
    have hleaseId : lease.leaseId = nextId s.nextLeaseId := congrArg LeaseHolder.leaseId heq
    omega
  convert @Step.grant _ _ _ needs c.table ⟨nextId s.nextLeaseId, w⟩ hnew
    (table_free_iff.2 hfree) using 1
  refine Table.ext ?_ ?_ ?_
  · funext r
    show ((s.grant w w.resourceMask waitedMs).resources r).holder = _
    rw [grant_resources]
    dsimp only
    by_cases hr : r ∈ needs ⟨nextId s.nextLeaseId, w⟩
    · rw [if_pos hr]
      exact congrArg ResourceState.holder (if_pos hr)
    · rw [if_neg hr]
      exact (congrArg ResourceState.holder (if_neg hr)).trans (hsame.holder r)
  · funext r
    show (((s.grant w w.resourceMask waitedMs).resources r).quarantineReason ≠ none) = _
    rw [grant_quarantineReason, hsame.quarantineReason r]
    rfl
  · funext h
    refine propext ⟨?_, ?_⟩
    · rintro ⟨lease, hlease, rfl⟩
      rcases List.mem_cons.1 hlease with rfl | hlease
      · exact .inl rfl
      · exact .inr ⟨lease, hlease, rfl⟩
    · rintro (rfl | ⟨lease, hlease, rfl⟩)
      · exact ⟨_, List.mem_cons_self, rfl⟩
      · exact ⟨lease, List.mem_cons_of_mem _ hlease, rfl⟩

theorem Numbered.eq_of_leaseId (hn : Numbered c) {lease lease' : AiResourceLease}
    (hlease : lease ∈ c.leases) (hlease' : lease' ∈ c.leases)
    (hid : lease.leaseId = lease'.leaseId) : lease = lease' :=
  List.inj_on_of_nodup_map hn.leaseIds hlease hlease' hid

theorem Numbered.find?_lease (hn : Numbered c) {lease : AiResourceLease}
    (hlease : lease ∈ c.leases) :
    c.leases.find? (fun other => other.leaseId = lease.leaseId) = some lease := by
  rcases hfound : c.leases.find? (fun other => other.leaseId = lease.leaseId) with _ | found
  · exact absurd (List.find?_eq_none.1 hfound lease hlease) (by simp)
  · rw [hfound, hn.eq_of_leaseId (List.mem_of_find?_eq_some hfound) hlease
      (by simpa using List.find?_some hfound)]

theorem Numbered.live_withoutLease (hn : Numbered c) {lease : AiResourceLease}
    (hlease : lease ∈ c.leases) (h : LeaseHolder) :
    (∃ other ∈ (c.withoutLease lease.leaseId).leases, other.holder = h) ↔
      h ≠ lease.holder ∧ c.table.live h := by
  simp only [Config.withoutLease, List.mem_filter, decide_eq_true_eq]
  constructor
  · rintro ⟨other, ⟨hother, hne⟩, rfl⟩
    exact ⟨fun heq => hne (congrArg LeaseHolder.leaseId heq), other, hother, rfl⟩
  · rintro ⟨hne, other, hother, rfl⟩
    refine ⟨other, ⟨hother, fun hid => hne ?_⟩, rfl⟩
    rw [hn.eq_of_leaseId hother hlease hid]

variable (hv : Valid needs c.table) {lease : AiResourceLease} (hlease : lease ∈ c.leases)
  {r : AiResource}

include hv hlease

theorem holder_of_live (hr : r ∈ lease.workload.requiredResources) :
    (c.state.resources r).holder = some lease.holder ∧
      (c.state.resources r).quarantineReason = none := by
  obtain ⟨hholder, hreason⟩ := hv.held lease.holder ⟨lease, hlease, rfl⟩ r hr
  exact ⟨hholder, by simpa [Config.table] using hreason⟩

theorem heldBy_of_live (hr : r ∈ lease.workload.requiredResources) :
    SchedulerState.heldBy lease.leaseId (c.state.resources r) = true := by
  simp [SchedulerState.heldBy, (holder_of_live hv hlease hr).1, AiResourceLease.holder]

theorem holdsAny_of_live : c.state.holdsAny lease.resourceMask lease.leaseId = true := by
  rw [lease.resourceMask_eq]
  obtain ⟨r, hr, -⟩ := AiWorkload.Overlaps.refl lease.workload
  exact List.any_eq_true.2 ⟨r, mem_resourcesInMask.2 hr, heldBy_of_live hv hlease hr⟩

theorem release_resources (r : AiResource) :
    (c.state.release lease.resourceMask lease.workload lease.leaseId).resources r =
      if r ∈ lease.workload.requiredResources then
        { c.state.resources r with
          holder := none
          metrics := { (c.state.resources r).metrics with
            releasedTotal := (c.state.resources r).metrics.releasedTotal + 1 } }
      else c.state.resources r := by
  unfold SchedulerState.release
  rw [if_pos (holdsAny_of_live hv hlease)]
  simp only [SchedulerState.onWorkload, SchedulerState.onResources, lease.resourceMask_eq,
    mem_resourcesInMask]
  by_cases hr : r ∈ lease.workload.requiredResources
  · rw [if_pos hr, if_pos hr, if_pos (heldBy_of_live hv hlease hr)]
  · rw [if_neg hr, if_neg hr]

theorem quarantine_resources (reason : AiLeaseQuarantineReason) (r : AiResource) :
    (c.state.quarantine lease.resourceMask lease.leaseId reason).resources r =
      if r ∈ lease.workload.requiredResources then
        { c.state.resources r with
          quarantineReason := some reason
          metrics := { (c.state.resources r).metrics with
            leaseQuarantinedTotal := (c.state.resources r).metrics.leaseQuarantinedTotal + 1 } }
      else c.state.resources r := by
  simp only [SchedulerState.quarantine, SchedulerState.onResources, lease.resourceMask_eq,
    mem_resourcesInMask]
  by_cases hr : r ∈ lease.workload.requiredResources
  · rw [if_pos hr, if_pos hr, if_pos (heldBy_of_live hv hlease hr)]
  · rw [if_neg hr, if_neg hr]

theorem Numbered.table_release (hn : Numbered c) :
    Step needs c.table
      { c.withoutLease lease.leaseId with
        state := c.state.release lease.resourceMask lease.workload lease.leaseId }.table := by
  convert @Step.release _ _ _ needs c.table lease.holder ⟨lease, hlease, rfl⟩ using 1
  refine Table.ext ?_ ?_ ?_
  · funext r
    simp only [Config.table, release_resources hv hlease]
    by_cases hr : r ∈ needs lease.holder
    · rw [if_pos hr]
      exact congrArg ResourceState.holder (if_pos hr)
    · rw [if_neg hr]
      exact congrArg ResourceState.holder (if_neg hr)
  · funext r
    simp only [Config.table, release_resources hv hlease]
    split <;> rfl
  · funext h
    exact propext (hn.live_withoutLease hlease h)

theorem Numbered.table_quarantine (hn : Numbered c) (reason : AiLeaseQuarantineReason) :
    Step needs c.table
      { c.withoutLease lease.leaseId with
        state := c.state.quarantine lease.resourceMask lease.leaseId reason }.table := by
  convert @Step.quarantine _ _ _ needs c.table lease.holder
    ⟨lease, hlease, rfl⟩ using 1
  refine Table.ext ?_ ?_ ?_
  · funext r
    simp only [Config.table, quarantine_resources hv hlease]
    split <;> rfl
  · funext r
    simp only [Config.table, quarantine_resources hv hlease, needs, AiResourceLease.holder]
    by_cases hr : r ∈ lease.workload.requiredResources <;> simp [hr]
  · funext h
    exact propext (hn.live_withoutLease hlease h)

omit hv hlease

theorem step_of_sameLeases (hsame : SchedulerState.SameLeases c.state c'.state)
    (hleases : c'.leases = c.leases) : Step needs c.table c'.table := by
  rw [table_eq_of_sameLeases hsame hleases]
  exact .stutter

theorem Numbered.table_step (hn : Numbered c) (hv : Valid needs c.table)
    (heffect : Effect queueCapacity c o) (hb : Bounded o.config) :
    Step needs c.table o.config.table := by
  have hrequested : ∀ w, SchedulerState.SameLeases c.state (c.noteRequest w).state :=
    fun _ => SchedulerState.sameLeases_noteRequested
  rcases heffect with ⟨w, -⟩ | ⟨w, -, hgrant⟩ | ⟨w, -, -⟩ | ⟨w, -, -, -⟩ | ⟨w, -, -, -⟩ |
    ⟨v, -, -⟩ | ⟨v, hv, -, hgrant, waitedMs⟩ | ⟨v, -, -, -⟩ | _ | ⟨lease, hlease⟩ |
    ⟨lease, hlease, reason⟩
  · exact step_of_sameLeases ((hrequested w).trans SchedulerState.sameLeases_noteQuarantineRejected)
      rfl
  · have hn' : Numbered (c.noteRequest w) :=
      hn.of_sublist rfl rfl (List.Sublist.refl _) rfl rfl (List.Sublist.refl _)
    have hfree := (SchedulerState.canGrantNewRequest_iff.1 hgrant).1
    exact hn'.table_grantTo hb.leases (.of_resources rfl rfl) hfree rfl 0 none
  · exact step_of_sameLeases ((hrequested w).trans SchedulerState.sameLeases_noteQueueFull) rfl
  · exact step_of_sameLeases sameLeases_enqueue rfl
  · exact step_of_sameLeases (.trans (.trans sameLeases_enqueue
      (SchedulerState.sameLeases_removeWaiter _)) SchedulerState.sameLeases_noteTimedOut) rfl
  · exact step_of_sameLeases (.trans (SchedulerState.sameLeases_removeWaiter _)
      SchedulerState.sameLeases_noteQuarantineRejected) rfl
  · have hfree := ((hn.ticketOrder.waiterCanBeGranted_iff hv).1 hgrant).1
    exact hn.table_grantTo hb.leases (SchedulerState.sameLeases_removeWaiter _) hfree
      v.resourceMask_eq waitedMs _
  · exact step_of_sameLeases (.trans (SchedulerState.sameLeases_removeWaiter _)
      SchedulerState.sameLeases_noteTimedOut) rfl
  · exact .stutter
  · exact hn.table_release hv hlease
  · exact hn.table_quarantine hv hlease reason

end Table

section Counters

/-- The requests that were answered, with a lease or with an error. -/
def WorkloadMetrics.answered (metrics : WorkloadMetrics) : Nat :=
  metrics.acquiredTotal + metrics.queueFullTotal + metrics.timedOutTotal +
    metrics.quarantineRejectedTotal

def ResourceState.inUse (state : ResourceState) : Bool :=
  state.holder.isSome && state.quarantineReason.isNone

def SchedulerState.waitingCount (s : SchedulerState) (w : AiWorkload) : Nat :=
  s.waiters.countP fun v => v.workload = w

def SchedulerState.RequestsBalanced (s : SchedulerState) (w : AiWorkload) : Prop :=
  (s.workloads w).requestedTotal = (s.workloads w).answered + s.waitingCount w

def ResourceState.LeasesBalanced (state : ResourceState) : Prop :=
  state.metrics.acquiredTotal =
    state.metrics.releasedTotal + state.metrics.leaseQuarantinedTotal +
      if state.inUse then 1 else 0

structure Counted (queueCapacity : Nat) (s : SchedulerState) : Prop where
  queue : ∀ r, s.queuedCountForResource r ≤ queueCapacity
  requests : ∀ w, s.RequestsBalanced w
  leases : ∀ r, (s.resources r).LeasesBalanced

variable {queueCapacity : Nat} {c : Config} {o : StepOutcome} {s s' : SchedulerState}
  {w : AiWorkload} {v : LeaseWaiter} {asked done : Nat} {r : AiResource}

theorem mask_ne_zero_iff :
    w.resourceMask &&& r.mask ≠ 0 ↔ r ∈ w.requiredResources := by
  cases w <;> cases r <;> decide

theorem InTicketOrder.split (horder : InTicketOrder s.waiters) (hv : v ∈ s.waiters) :
    ∃ before after, s.waiters = before ++ v :: after ∧
      (s.removeWaiter v.ticket).waiters = before ++ after := by
  obtain ⟨u, before, after, -, hu, hsplit, herase⟩ :=
    List.exists_of_eraseP (p := fun waiter => decide (waiter.ticket = v.ticket)) hv
      (decide_eq_true rfl)
  have hmem : u ∈ s.waiters := hsplit ▸ List.mem_append_right _ List.mem_cons_self
  obtain rfl := horder.eq_of_ticket hmem hv (of_decide_eq_true hu)
  exact ⟨before, after, hsplit, herase⟩

theorem InTicketOrder.waitingCount_removeWaiter (horder : InTicketOrder s.waiters)
    (hv : v ∈ s.waiters) (w : AiWorkload) :
    s.waitingCount w =
      (s.removeWaiter v.ticket).waitingCount w + if v.workload = w then 1 else 0 := by
  obtain ⟨before, after, hsplit, herase⟩ := horder.split hv
  simp only [SchedulerState.waitingCount, hsplit, herase, List.countP_append,
    List.countP_cons, decide_eq_true_eq]
  omega

theorem queuedCount_mono (hwaiters : s'.waiters.Sublist s.waiters) (r : AiResource) :
    s'.queuedCountForResource r ≤ s.queuedCountForResource r :=
  hwaiters.countP_le

theorem SchedulerState.SameLeases.leasesBalanced (hsame : SchedulerState.SameLeases s s')
    (hleases : (s.resources r).LeasesBalanced) :
    (s'.resources r).LeasesBalanced := by
  unfold ResourceState.LeasesBalanced ResourceState.inUse at *
  rw [hsame.holder, hsame.quarantineReason, hsame.acquired, hsame.released,
    hsame.leaseQuarantined]
  exact hleases

theorem Counted.of_sameLeases (hc : Counted queueCapacity s)
    (hsame : SchedulerState.SameLeases s s') (hwaiters : s'.waiters.Sublist s.waiters)
    (hrequests : ∀ w, s'.RequestsBalanced w) : Counted queueCapacity s' where
  queue r := Nat.le_trans (queuedCount_mono hwaiters r) (hc.queue r)
  requests := hrequests
  leases r := hsame.leasesBalanced (hc.leases r)

def Counts (w : AiWorkload) (asked done : Nat) (s s' : SchedulerState) : Prop :=
  ∀ u, (s'.workloads u).requestedTotal =
      (s.workloads u).requestedTotal + (if w = u then asked else 0) ∧
    (s'.workloads u).answered = (s.workloads u).answered + if w = u then done else 0

theorem Counts.trans {s'' : SchedulerState} {asked done asked' done' : Nat}
    (h : Counts w asked done s s') (h' : Counts w asked' done' s' s'') :
    Counts w (asked + asked') (done + done') s s'' := by
  intro u
  have hfirst := h u
  have hsecond := h' u
  by_cases hu : w = u
  · simp only [hu, if_true] at hfirst hsecond ⊢
    omega
  · simp only [hu, if_false] at hfirst hsecond ⊢
    omega

theorem counts_of_update {metrics : WorkloadMetrics}
    (hworkloads : s'.workloads = Function.update s.workloads w metrics)
    (hasked : metrics.requestedTotal = (s.workloads w).requestedTotal + asked)
    (hdone : metrics.answered = (s.workloads w).answered + done) :
    Counts w asked done s s' := by
  intro u
  rw [hworkloads]
  by_cases hu : w = u
  · subst hu
    simp [hasked, hdone]
  · simp [Function.update_of_ne (Ne.symm hu), hu]

theorem counts_noteRequested : Counts w 1 0 s (s.noteRequested w) :=
  counts_of_update rfl rfl rfl

theorem counts_noteQuarantineRejected : Counts w 0 1 s (s.noteQuarantineRejected w) :=
  counts_of_update rfl rfl (by simp only [WorkloadMetrics.answered]; omega)

theorem counts_noteQueueFull : Counts w 0 1 s (s.noteQueueFull w) :=
  counts_of_update rfl rfl (by
    simp only [WorkloadMetrics.answered, SchedulerState.onResources]; omega)

theorem counts_noteQueued : Counts w 0 0 s (s.noteQueued w) :=
  counts_of_update rfl rfl rfl

theorem counts_noteTimedOut : Counts w 0 1 s (s.noteTimedOut w) :=
  counts_of_update rfl rfl (by
    simp only [WorkloadMetrics.answered, SchedulerState.onResources]; omega)

theorem counts_grant (resourceMask : UInt8) (waitedMs : Nat) :
    Counts w 0 1 s (s.grant w resourceMask waitedMs) :=
  counts_of_update rfl rfl (by
    simp only [WorkloadMetrics.answered, SchedulerState.onResources]; omega)

theorem Counts.balanced (hcounts : Counts w asked done s s') (hbalanced : ∀ u, s.RequestsBalanced u)
    (hwaiting : ∀ u, s'.waitingCount u + (if w = u then done else 0) =
      s.waitingCount u + if w = u then asked else 0) (u : AiWorkload) :
    s'.RequestsBalanced u := by
  have hbefore := hbalanced u
  have hchange := hcounts u
  have hcount := hwaiting u
  unfold SchedulerState.RequestsBalanced at *
  omega

theorem Counted.grant (hc : Counted queueCapacity s) (hfree : s.Free w)
    {asked : SchedulerState} (hsame : SchedulerState.SameLeases s asked)
    (hwaiters : asked.waiters.Sublist s.waiters) (waitedMs : Nat)
    (hrequests : ∀ u, (asked.grant w w.resourceMask waitedMs).RequestsBalanced u) :
    Counted queueCapacity (asked.grant w w.resourceMask waitedMs) where
  queue r := Nat.le_trans (queuedCount_mono hwaiters r) (hc.queue r)
  requests := hrequests
  leases r := by
    have hbefore := hsame.leasesBalanced (hc.leases r)
    rw [grant_resources]
    by_cases hr : r ∈ w.requiredResources
    · obtain ⟨hholder, hreason⟩ := hsame.free_iff.2 hfree r hr
      rw [if_pos hr]
      simp only [ResourceState.LeasesBalanced, ResourceState.inUse, hholder,
        hreason] at hbefore ⊢
      simpa using hbefore
    · rw [if_neg hr]
      exact hbefore

theorem Numbered.removeWaiter_enqueue (hn : Numbered c) (hdrawn : c.ticketsDrawn + 1 < 2 ^ 64) :
    (((c.noteRequest w).enqueue w).state.removeWaiter (c.newWaiter w).ticket).waiters =
      c.state.waiters := by
  show (c.state.waiters ++ [c.newWaiter w]).eraseP
    (fun waiter => waiter.ticket = (c.newWaiter w).ticket) = c.state.waiters
  rw [List.eraseP_append_right, List.eraseP_cons_of_pos (by simp), List.append_nil]
  intro v hv hticket
  have hle := hn.ticket_le v hv
  have heq := of_decide_eq_true hticket
  rw [hn.newWaiter_ticket hdrawn] at heq
  omega

theorem queuedCount_enqueue (r : AiResource) :
    ((c.noteRequest w).enqueue w).state.queuedCountForResource r =
      c.state.queuedCountForResource r + if r ∈ w.requiredResources then 1 else 0 := by
  show (c.state.waiters ++ [c.newWaiter w]).countP _ = c.state.waiters.countP _ + _
  rw [List.countP_append]
  simp only [List.countP_singleton, decide_eq_true_eq]
  congr 1
  exact if_congr mask_ne_zero_iff rfl rfl

theorem waitingCount_enqueue (u : AiWorkload) :
    ((c.noteRequest w).enqueue w).state.waitingCount u =
      c.state.waitingCount u + if w = u then 1 else 0 := by
  show (c.state.waiters ++ [c.newWaiter w]).countP _ = c.state.waiters.countP _ + _
  rw [List.countP_append]
  simp only [List.countP_singleton, decide_eq_true_eq]
  rfl

theorem Counted.enqueue (hc : Counted queueCapacity c.state)
    (hroom : ∀ r ∈ w.requiredResources, c.state.queuedCountForResource r < queueCapacity) :
    Counted queueCapacity ((c.noteRequest w).enqueue w).state where
  queue r := by
    rw [queuedCount_enqueue]
    have hbefore := hc.queue r
    split
    · rename_i hr
      exact hroom r hr
    · exact hbefore
  requests := by
    have hcounts : Counts w 1 0 c.state ((c.noteRequest w).enqueue w).state :=
      (counts_noteRequested (s := c.state)).trans counts_noteQueued
    refine hcounts.balanced hc.requests fun u => ?_
    rw [waitingCount_enqueue]
    simp
  leases r := sameLeases_enqueue.leasesBalanced (hc.leases r)

theorem Numbered.waitingCount_leave (hn : Numbered c) (hv : v ∈ c.state.waiters)
    (u : AiWorkload) :
    (c.state.removeWaiter v.ticket).waitingCount u + (if v.workload = u then 1 else 0) =
      c.state.waitingCount u + if v.workload = u then 0 else 0 := by
  have hremoved := hn.ticketOrder.waitingCount_removeWaiter hv u
  simp only [ite_self]
  omega

theorem Counted.release (hc : Counted queueCapacity c.state) (hv : Valid needs c.table)
    {lease : AiResourceLease} (hlease : lease ∈ c.leases) :
    Counted queueCapacity
      (c.state.release lease.resourceMask lease.workload lease.leaseId) := by
  obtain ⟨-, hwaiters, -⟩ :=
    c.state.release_queue lease.resourceMask lease.workload lease.leaseId
  refine ⟨?_, ?_, ?_⟩
  · intro r
    unfold SchedulerState.queuedCountForResource
    rw [hwaiters]
    exact hc.queue r
  · have hcounts : Counts lease.workload 0 0 c.state
        (c.state.release lease.resourceMask lease.workload lease.leaseId) := by
      unfold SchedulerState.release
      rw [if_pos (holdsAny_of_live hv hlease)]
      exact counts_of_update rfl rfl rfl
    refine hcounts.balanced hc.requests fun u => ?_
    unfold SchedulerState.waitingCount
    rw [hwaiters]
  · intro r
    have hbefore := hc.leases r
    rw [release_resources hv hlease]
    by_cases hr : r ∈ lease.workload.requiredResources
    · obtain ⟨hholder, hreason⟩ := holder_of_live hv hlease hr
      rw [if_pos hr]
      simp only [ResourceState.LeasesBalanced, ResourceState.inUse, hholder,
        hreason] at hbefore ⊢
      simp at hbefore ⊢
      omega
    · rw [if_neg hr]
      exact hbefore

theorem Counted.quarantine (hc : Counted queueCapacity c.state) (hv : Valid needs c.table)
    {lease : AiResourceLease} (hlease : lease ∈ c.leases) (reason : AiLeaseQuarantineReason) :
    Counted queueCapacity
      (c.state.quarantine lease.resourceMask lease.leaseId reason) := by
  refine ⟨hc.queue, hc.requests, ?_⟩
  intro r
  have hbefore := hc.leases r
  rw [quarantine_resources hv hlease]
  by_cases hr : r ∈ lease.workload.requiredResources
  · obtain ⟨hholder, hreason⟩ := holder_of_live hv hlease hr
    rw [if_pos hr]
    simp only [ResourceState.LeasesBalanced, ResourceState.inUse, hholder,
      hreason] at hbefore ⊢
    simp at hbefore ⊢
    omega
  · rw [if_neg hr]
    exact hbefore

theorem Counted.step (hc : Counted queueCapacity c.state) (hn : Numbered c)
    (hv : Valid needs c.table) (heffect : Effect queueCapacity c o) (hb : Bounded o.config) :
    Counted queueCapacity o.config.state := by
  rcases heffect with ⟨w, -⟩ | ⟨w, -, hgrant⟩ | ⟨w, -, -⟩ | ⟨w, -, -, hroom⟩ |
    ⟨w, -, -, hroom⟩ | ⟨v, hmem, -⟩ | ⟨v, hmem, -, hgrant, waitedMs⟩ | ⟨v, hmem, -, -⟩ | _ |
    ⟨lease, hlease⟩ | ⟨lease, hlease, reason⟩
  · have hcounts := (counts_noteRequested (s := c.state) (w := w)).trans
      counts_noteQuarantineRejected
    exact hc.of_sameLeases (.of_resources rfl rfl) (List.Sublist.refl _)
      (hcounts.balanced hc.requests fun u => rfl)
  · have hfree := (SchedulerState.canGrantNewRequest_iff.1 hgrant).1
    have hcounts := (counts_noteRequested (s := c.state) (w := w)).trans
      (counts_grant w.resourceMask 0)
    exact hc.grant hfree SchedulerState.sameLeases_noteRequested (List.Sublist.refl _) 0
      (hcounts.balanced hc.requests fun u => rfl)
  · have hcounts := (counts_noteRequested (s := c.state) (w := w)).trans counts_noteQueueFull
    exact hc.of_sameLeases (SchedulerState.sameLeases_noteRequested.trans
      SchedulerState.sameLeases_noteQueueFull) (List.Sublist.refl _)
      (hcounts.balanced hc.requests fun u => rfl)
  · exact hc.enqueue hroom
  · have hc' := hc.enqueue hroom
    have hcounts : Counts w 0 1 ((c.noteRequest w).enqueue w).state
        ((((c.noteRequest w).enqueue w).state.removeWaiter
          (c.newWaiter w).ticket).noteTimedOut w) := counts_noteTimedOut
    refine hc'.of_sameLeases (.trans (SchedulerState.sameLeases_removeWaiter _)
      SchedulerState.sameLeases_noteTimedOut) (removeWaiter_sublist _ _)
      (hcounts.balanced hc'.requests fun u => ?_)
    have hremoved := (hn.ticketOrder_enqueue (w := w) hb.tickets).waitingCount_removeWaiter
      (s := ((c.noteRequest w).enqueue w).state) (v := c.newWaiter w)
      (List.mem_append_right _ (List.mem_singleton_self _)) u
    rw [hremoved]
    simp [SchedulerState.waitingCount]
    rfl
  · have hcounts : Counts v.workload 0 1 c.state
        ((c.state.removeWaiter v.ticket).noteQuarantineRejected v.workload) :=
      counts_noteQuarantineRejected
    refine hc.of_sameLeases (.of_resources rfl rfl) (removeWaiter_sublist _ _)
      (hcounts.balanced hc.requests (hn.waitingCount_leave hmem))
  · have hfree := ((hn.ticketOrder.waiterCanBeGranted_iff hmem).1 hgrant).1
    have hcounts : Counts v.workload 0 1 c.state
        ((c.state.removeWaiter v.ticket).grant v.workload v.workload.resourceMask waitedMs) :=
      counts_grant _ _
    have hcounted := hc.grant hfree (SchedulerState.sameLeases_removeWaiter v.ticket)
      (removeWaiter_sublist _ _) waitedMs
      (hcounts.balanced hc.requests (hn.waitingCount_leave hmem))
    rwa [← v.resourceMask_eq] at hcounted
  · have hcounts : Counts v.workload 0 1 c.state
        ((c.state.removeWaiter v.ticket).noteTimedOut v.workload) := counts_noteTimedOut
    refine hc.of_sameLeases (.trans (SchedulerState.sameLeases_removeWaiter _)
      SchedulerState.sameLeases_noteTimedOut) (removeWaiter_sublist _ _)
      (hcounts.balanced hc.requests (hn.waitingCount_leave hmem))
  · exact hc
  · exact hc.release hv hlease
  · exact hc.quarantine hv hlease reason

end Counters

section Runs

variable {queueCapacity : Nat} {c c' : Config} {o : StepOutcome} {action : Action}
  {log : List (Action × SchedulerEvent)}

structure Inv (queueCapacity : Nat) (c : Config) : Prop where
  numbered : Numbered c
  table : Valid needs c.table
  counted : Counted queueCapacity c.state

theorem inv_empty : Inv queueCapacity {} where
  numbered :=
    { nextTicket := rfl
      ticketOrder := List.Pairwise.nil
      ticket_le := by simp
      nextLeaseId := rfl
      leaseIds := List.nodup_nil
      leaseId_le := by simp }
  table := by
    convert @valid_empty _ _ needs using 1
    simp [Config.table]
  counted :=
    { queue := fun _ => Nat.zero_le _
      requests := fun _ => rfl
      leases := fun _ => rfl }

theorem Bounded.of_step (hstep : c.step queueCapacity action = some o)
    (hb : Bounded o.config) : Bounded c := by
  have hround : ∀ (d : Config) v expired waitedMs,
      Bounded (d.waitRound v expired waitedMs).config → Bounded d := by
    intro d v expired waitedMs
    unfold Config.waitRound
    dsimp only
    split_ifs
    · exact fun h => ⟨h.tickets, h.leases⟩
    · exact fun h => ⟨h.tickets, Nat.lt_of_succ_lt h.leases⟩
    · exact fun h => ⟨h.tickets, h.leases⟩
    · exact id
  cases action with
  | acquire w expired waitedMs =>
      obtain rfl := Option.some.inj hstep
      revert hb
      unfold Config.acquire
      dsimp only
      split_ifs
      · exact fun h => ⟨h.tickets, h.leases⟩
      · exact fun h => ⟨h.tickets, Nat.lt_of_succ_lt h.leases⟩
      · exact fun h => ⟨h.tickets, h.leases⟩
      · intro h
        have henqueued := hround _ _ _ _ h
        exact ⟨Nat.lt_of_succ_lt henqueued.tickets, henqueued.leases⟩
  | wake ticket expired waitedMs =>
      obtain ⟨v, -, ho⟩ := Option.bind_eq_some_iff.1 hstep
      obtain rfl := Option.some.inj ho
      exact hround c v expired waitedMs hb
  | drop leaseId =>
      obtain ⟨lease, -, ho⟩ := Option.bind_eq_some_iff.1 hstep
      obtain rfl := Option.some.inj ho
      exact ⟨hb.tickets, hb.leases⟩
  | quarantine leaseId reason =>
      obtain ⟨lease, -, ho⟩ := Option.bind_eq_some_iff.1 hstep
      obtain rfl := Option.some.inj ho
      exact ⟨hb.tickets, hb.leases⟩

theorem Inv.step (hinv : Inv queueCapacity c) (hstep : c.step queueCapacity action = some o)
    (hb : Bounded o.config) : Inv queueCapacity o.config := by
  have heffect := hinv.numbered.effect hstep hb
  exact {
    numbered := hinv.numbered.step heffect hb
    table := hinv.table.step (hinv.numbered.table_step hinv.table heffect hb)
    counted := hinv.counted.step hinv.numbered hinv.table heffect hb }

theorem Run.bounded (hrun : Run queueCapacity c log c') (hb : Bounded c') : Bounded c := by
  induction hrun with
  | refl => exact hb
  | step _ hstep ih => exact ih (hb.of_step hstep)

theorem Run.inv (hrun : Run queueCapacity c log c') (hinv : Inv queueCapacity c) (hb : Bounded c') :
    Inv queueCapacity c' := by
  induction hrun with
  | refl => exact hinv
  | step _ hstep ih => exact (ih (hb.of_step hstep)).step hstep hb

theorem Reachable.inv (hreach : Reachable queueCapacity c) (hb : Bounded c) :
    Inv queueCapacity c := by
  obtain ⟨log, hrun⟩ := hreach
  exact hrun.inv inv_empty hb

end Runs

section Exclusion

variable {queueCapacity : Nat} {c : Config}

/-- Live leases are recorded on all of their resources and share none, and a release frees
those resources and no other. -/
theorem leases_exclusive (hreach : Reachable queueCapacity c) (hb : Bounded c) :
    (∀ lease ∈ c.leases, ∀ r ∈ resourcesInMask lease.resourceMask,
      (c.state.resources r).holder =
        some { leaseId := lease.leaseId, workload := lease.workload }) ∧
    (c.leases.Pairwise fun lease other =>
      lease.leaseId ≠ other.leaseId ∧
        ∀ r ∈ resourcesInMask lease.resourceMask, r ∉ resourcesInMask other.resourceMask) ∧
    ∀ lease ∈ c.leases, ∃ o, c.step queueCapacity (.drop lease.leaseId) = some o ∧
      o.event = .released lease ∧
      ∀ r, (o.config.state.resources r).holder =
        if r ∈ resourcesInMask lease.resourceMask then none
        else (c.state.resources r).holder := by
  obtain ⟨hn, hv, -⟩ := hreach.inv hb
  refine ⟨?_, ?_, ?_⟩
  · intro lease hlease r hr
    rw [lease.resourceMask_eq, mem_resourcesInMask] at hr
    exact (holder_of_live hv hlease hr).1
  · have hids := List.pairwise_map.1 hn.leaseIds
    refine hids.imp_of_mem ?_
    intro lease other hlease hother hne
    refine ⟨hne, fun r hr hr' => hne ?_⟩
    rw [lease.resourceMask_eq, mem_resourcesInMask] at hr
    rw [other.resourceMask_eq, mem_resourcesInMask] at hr'
    exact congrArg LeaseHolder.leaseId
      (hv.eq_of_share ⟨lease, hlease, rfl⟩ ⟨other, hother, rfl⟩ hr hr')
  · intro lease hlease
    have hfind := hn.find?_lease hlease
    refine ⟨_, by rw [Config.step, hfind]; rfl, rfl, fun r => ?_⟩
    dsimp only
    rw [release_resources hv hlease]
    simp only [lease.resourceMask_eq, mem_resourcesInMask]
    split <;> rfl

def leasesSample : Config :=
  Config.steps 2 {}
    [.acquire .yolo false 0, .acquire .catRecordingVerifier false 0, .acquire .llm false 0]

theorem leases_exclusive_sample :
    leasesSample.leases.length = 2 ∧ Reachable 2 leasesSample ∧
      ∀ lease ∈ leasesSample.leases, ∀ r ∈ resourcesInMask lease.resourceMask,
        (leasesSample.state.resources r).holder =
          some { leaseId := lease.leaseId, workload := lease.workload } := by
  have hreach : Reachable 2 leasesSample := run_steps _ _ _
  exact ⟨by decide, hreach, (leases_exclusive hreach ⟨by decide, by decide⟩).1⟩

theorem inUse_iff {r : AiResource} (hv : Valid needs c.table) :
    (c.state.resources r).inUse = true ↔
      ∃ lease ∈ c.leases, (c.state.resources r).holder = some lease.holder := by
  simp only [ResourceState.inUse, Bool.and_eq_true, Option.isSome_iff_exists,
    Option.isNone_iff_eq_none]
  constructor
  · rintro ⟨⟨h, hh⟩, hreason⟩
    rcases hv.owner r h hh with ⟨lease, hlease, rfl⟩ | hquarantined
    · exact ⟨lease, hlease, hh⟩
    · exact absurd hreason (hquarantined r (hv.needed r h hh)).2
  · rintro ⟨lease, hlease, hh⟩
    exact ⟨⟨_, hh⟩, (holder_of_live hv hlease (hv.needed r _ hh)).2⟩

/-- The queue of a resource is bounded, and the counters of the workloads and of the resources
balance. -/
theorem counters_conserved (hreach : Reachable queueCapacity c) (hb : Bounded c) :
    (∀ r, c.state.queuedCountForResource r ≤ queueCapacity) ∧
    (∀ w, (c.state.workloads w).requestedTotal =
      (c.state.workloads w).acquiredTotal + (c.state.workloads w).queueFullTotal +
        (c.state.workloads w).timedOutTotal + (c.state.workloads w).quarantineRejectedTotal +
        c.state.waiters.countP fun v => v.workload = w) ∧
    ∀ r, (c.state.resources r).metrics.acquiredTotal =
      (c.state.resources r).metrics.releasedTotal +
        (c.state.resources r).metrics.leaseQuarantinedTotal +
        if ∃ lease ∈ c.leases, (c.state.resources r).holder =
            some { leaseId := lease.leaseId, workload := lease.workload } then 1 else 0 := by
  obtain ⟨-, hv, hc⟩ := hreach.inv hb
  refine ⟨hc.queue, hc.requests, fun r => ?_⟩
  rw [hc.leases r]
  congr 1
  exact if_congr (inUse_iff hv) rfl rfl

theorem counters_conserved_sample :
    (leasesSample.state.workloads .llm).requestedTotal = 1 ∧
      (leasesSample.state.workloads .llm).requestedTotal =
        (leasesSample.state.workloads .llm).acquiredTotal +
          (leasesSample.state.workloads .llm).queueFullTotal +
          (leasesSample.state.workloads .llm).timedOutTotal +
          (leasesSample.state.workloads .llm).quarantineRejectedTotal +
          leasesSample.state.waiters.countP fun v => v.workload = .llm := by
  have hreach : Reachable 2 leasesSample := run_steps _ _ _
  exact ⟨by decide, (counters_conserved hreach ⟨by decide, by decide⟩).2.1 .llm⟩

end Exclusion

end HarborBeacon.AiResourceScheduler
