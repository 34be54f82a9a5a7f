import Mathlib.Algebra.Group.Nat.Defs
import Mathlib.Data.List.Basic

/-!
The lease scheduler of the A100 clusters. All of its state stands behind one mutex, so a
step is what one thread does between taking the lock and giving it up: the start of an
acquisition, one round of the loop of a waiter, a release, a quarantine. The clock enters
only through the answer to `now >= deadline` and through the time that was waited.
-/

namespace HarborBeacon.AiResourceScheduler

inductive AiCluster where
  | a100Cluster0
  | a100Cluster1
deriving DecidableEq

inductive AiResource where
  | a100Cluster0
  | a100Cluster1
  | spacemitOnnxRuntimeCluster0
  | spacemitOnnxRuntimeCluster1
deriving DecidableEq

def AiResource.all : List AiResource :=
  [.a100Cluster0, .a100Cluster1, .spacemitOnnxRuntimeCluster0, .spacemitOnnxRuntimeCluster1]

def AiResource.index : AiResource → Nat
  | .a100Cluster0 => 0
  | .a100Cluster1 => 1
  | .spacemitOnnxRuntimeCluster0 => 2
  | .spacemitOnnxRuntimeCluster1 => 3

def AiResource.mask (resource : AiResource) : UInt8 :=
  1 <<< UInt8.ofNat resource.index

def AiResource.fromCluster : AiCluster → AiResource
  | .a100Cluster0 => .a100Cluster0
  | .a100Cluster1 => .a100Cluster1

def AiCluster.other : AiCluster → AiCluster
  | .a100Cluster0 => .a100Cluster1
  | .a100Cluster1 => .a100Cluster0

inductive AiWorkload where
  | yolo
  | llm
  | catRecordingVerifier
  | vlm
deriving DecidableEq

def AiWorkload.cluster : AiWorkload → AiCluster
  | .yolo => .a100Cluster0
  | .llm | .catRecordingVerifier | .vlm => .a100Cluster1

def AiWorkload.requiredResources : AiWorkload → List AiResource
  | .yolo => [.a100Cluster0, .spacemitOnnxRuntimeCluster0]
  | .catRecordingVerifier => [.a100Cluster1, .spacemitOnnxRuntimeCluster1]
  | .llm | .vlm => [.a100Cluster1]

def AiWorkload.resourceMask (workload : AiWorkload) : UInt8 :=
  workload.requiredResources.foldl (fun mask resource => mask ||| resource.mask) 0

/-- A smaller number goes first. -/
def AiWorkload.priority : AiWorkload → Nat
  | .yolo | .llm => 0
  | .catRecordingVerifier => 5
  | .vlm => 10

def resourcesInMask (resourceMask : UInt8) : List AiResource :=
  AiResource.all.filter fun resource => resourceMask &&& resource.mask ≠ 0

def resourcesOverlap (left right : UInt8) : Bool :=
  left &&& right ≠ 0

theorem mem_resourcesInMask {workload : AiWorkload} {resource : AiResource} :
    resource ∈ resourcesInMask workload.resourceMask ↔
      resource ∈ workload.requiredResources := by
  cases workload <;> cases resource <;> decide

theorem resourcesOverlap_iff {left right : AiWorkload} :
    resourcesOverlap left.resourceMask right.resourceMask = true ↔
      ∃ resource ∈ left.requiredResources, resource ∈ right.requiredResources := by
  cases left <;> cases right <;> decide

section State

inductive AiLeaseErrorKind where
  | queueFull
  | waitTimeout
  | quarantined
deriving DecidableEq

inductive AiLeaseQuarantineReason where
  | processExitUnconfirmed
  | inferenceTimeout
  | runtimeFailure
deriving DecidableEq

structure LeaseHolder where
  leaseId : Nat
  workload : AiWorkload
deriving DecidableEq

structure LeaseWaiter where
  ticket : Nat
  workload : AiWorkload
  priority : Nat
  resourceMask : UInt8
  priority_eq : priority = workload.priority
  resourceMask_eq : resourceMask = workload.resourceMask
deriving DecidableEq

structure AiResourceLease where
  resourceMask : UInt8
  workload : AiWorkload
  leaseId : Nat
  resourceMask_eq : resourceMask = workload.resourceMask
deriving DecidableEq

structure ResourceMetrics where
  acquiredTotal : Nat := 0
  releasedTotal : Nat := 0
  leaseQuarantinedTotal : Nat := 0
  queuedTotal : Nat := 0
  queueFullTotal : Nat := 0
  timedOutTotal : Nat := 0
  totalWaitMs : Nat := 0
  maxWaitMs : Nat := 0
deriving DecidableEq

structure WorkloadMetrics where
  requestedTotal : Nat := 0
  acquiredTotal : Nat := 0
  releasedTotal : Nat := 0
  crossClusterParallelAcquiredTotal : Nat := 0
  quarantineRejectedTotal : Nat := 0
  queuedTotal : Nat := 0
  queueFullTotal : Nat := 0
  timedOutTotal : Nat := 0
  totalWaitMs : Nat := 0
  maxWaitMs : Nat := 0
deriving DecidableEq

structure ResourceState where
  holder : Option LeaseHolder := none
  quarantineReason : Option AiLeaseQuarantineReason := none
  metrics : ResourceMetrics := {}
deriving DecidableEq

structure SchedulerState where
  nextTicket : Nat := 0
  nextLeaseId : Nat := 0
  resources : AiResource → ResourceState := fun _ => {}
  waiters : List LeaseWaiter := []
  workloads : AiWorkload → WorkloadMetrics := fun _ => {}

/-- `wrapping_add(1).max(1)` on 64 bits. -/
def nextId (n : Nat) : Nat :=
  max ((n + 1) % 2 ^ 64) 1

def saturatingAdd (a b : Nat) : Nat :=
  min (a + b) (2 ^ 64 - 1)

namespace SchedulerState

variable (s : SchedulerState)

def onWorkload (workload : AiWorkload) (f : WorkloadMetrics → WorkloadMetrics) :
    SchedulerState :=
  { s with workloads := Function.update s.workloads workload (f (s.workloads workload)) }

def onResources (resources : List AiResource) (f : ResourceState → ResourceState) :
    SchedulerState :=
  { s with resources := fun resource =>
      if resource ∈ resources then f (s.resources resource) else s.resources resource }

def resourceIsFree (resource : AiResource) : Bool :=
  (s.resources resource).holder.isNone && (s.resources resource).quarantineReason.isNone

def resourcesAreFree (resourceMask : UInt8) : Bool :=
  (resourcesInMask resourceMask).all s.resourceIsFree

def requiredResourcesAreQuarantined (workload : AiWorkload) : Bool :=
  workload.requiredResources.any fun resource =>
    (s.resources resource).quarantineReason.isSome

/-- The ticket of a waiter never exceeds `u64::MAX`, so the pairs are compared by priority. -/
def canGrantNewRequest (workload : AiWorkload) : Bool :=
  s.resourcesAreFree workload.resourceMask &&
    !s.waiters.any fun waiter =>
      resourcesOverlap waiter.resourceMask workload.resourceMask &&
        s.resourcesAreFree waiter.resourceMask &&
        decide (waiter.priority ≤ workload.priority)

def waiterCanBeGranted (ticket : Nat) : Bool :=
  match s.waiters.find? fun waiter => waiter.ticket = ticket with
  | none => false
  | some waiter =>
      s.resourcesAreFree waiter.resourceMask &&
        !s.waiters.any fun other =>
          decide (other.ticket ≠ waiter.ticket) &&
            resourcesOverlap other.resourceMask waiter.resourceMask &&
            s.resourcesAreFree other.resourceMask &&
            decide (other.priority < waiter.priority ∨
              (other.priority = waiter.priority ∧ other.ticket < waiter.ticket))

def queuedCountForResource (resource : AiResource) : Nat :=
  s.waiters.countP fun waiter => waiter.resourceMask &&& resource.mask ≠ 0

def removeWaiter (ticket : Nat) : SchedulerState :=
  { s with waiters := s.waiters.eraseP fun waiter => waiter.ticket = ticket }

def noteRequested (workload : AiWorkload) : SchedulerState :=
  s.onWorkload workload fun metrics =>
    { metrics with requestedTotal := metrics.requestedTotal + 1 }

def noteQuarantineRejected (workload : AiWorkload) : SchedulerState :=
  s.onWorkload workload fun metrics =>
    { metrics with quarantineRejectedTotal := metrics.quarantineRejectedTotal + 1 }

def noteQueueFull (workload : AiWorkload) : SchedulerState :=
  let s := s.onResources workload.requiredResources fun state =>
    { state with
      metrics := { state.metrics with queueFullTotal := state.metrics.queueFullTotal + 1 } }
  s.onWorkload workload fun metrics =>
    { metrics with queueFullTotal := metrics.queueFullTotal + 1 }

def noteQueued (workload : AiWorkload) : SchedulerState :=
  let s := s.onResources workload.requiredResources fun state =>
    { state with
      metrics := { state.metrics with queuedTotal := state.metrics.queuedTotal + 1 } }
  s.onWorkload workload fun metrics =>
    { metrics with queuedTotal := metrics.queuedTotal + 1 }

def noteTimedOut (workload : AiWorkload) : SchedulerState :=
  let s := s.onResources workload.requiredResources fun state =>
    { state with
      metrics := { state.metrics with timedOutTotal := state.metrics.timedOutTotal + 1 } }
  s.onWorkload workload fun metrics =>
    { metrics with timedOutTotal := metrics.timedOutTotal + 1 }

def otherClusterBusy (workload : AiWorkload) : Bool :=
  (s.resources (AiResource.fromCluster workload.cluster.other)).holder.isSome

/-- The part of `grant` that changes the state; the lease gets the id that was drawn. -/
def grant (workload : AiWorkload) (resourceMask : UInt8) (waitedMs : Nat) : SchedulerState :=
  let leaseId := nextId s.nextLeaseId
  let busy := s.otherClusterBusy workload
  let s := { s with nextLeaseId := leaseId }
  let s := s.onResources (resourcesInMask resourceMask) fun state =>
    { state with
      holder := some { leaseId := leaseId, workload := workload }
      metrics := { state.metrics with
        acquiredTotal := state.metrics.acquiredTotal + 1
        totalWaitMs := saturatingAdd state.metrics.totalWaitMs waitedMs
        maxWaitMs := max state.metrics.maxWaitMs waitedMs } }
  s.onWorkload workload fun metrics =>
    { metrics with
      acquiredTotal := metrics.acquiredTotal + 1
      crossClusterParallelAcquiredTotal :=
        metrics.crossClusterParallelAcquiredTotal + if busy then 1 else 0
      totalWaitMs := saturatingAdd metrics.totalWaitMs waitedMs
      maxWaitMs := max metrics.maxWaitMs waitedMs }

def heldBy (leaseId : Nat) (state : ResourceState) : Bool :=
  state.holder.any fun holder => holder.leaseId = leaseId

/-- Some resource of the mask is held by the lease, so that the loop of `release` and
`quarantine` finds something to do. -/
def holdsAny (resourceMask : UInt8) (leaseId : Nat) : Bool :=
  (resourcesInMask resourceMask).any fun resource => heldBy leaseId (s.resources resource)

def release (resourceMask : UInt8) (workload : AiWorkload) (leaseId : Nat) : SchedulerState :=
  let released := s.onResources (resourcesInMask resourceMask) fun state =>
    if heldBy leaseId state then
      { state with
        holder := none
        metrics := { state.metrics with releasedTotal := state.metrics.releasedTotal + 1 } }
    else state
  if s.holdsAny resourceMask leaseId then
    released.onWorkload workload fun metrics =>
      { metrics with releasedTotal := metrics.releasedTotal + 1 }
  else released

def quarantine (resourceMask : UInt8) (leaseId : Nat) (reason : AiLeaseQuarantineReason) :
    SchedulerState :=
  s.onResources (resourcesInMask resourceMask) fun state =>
    if heldBy leaseId state then
      { state with
        quarantineReason := some reason
        metrics := { state.metrics with
          leaseQuarantinedTotal := state.metrics.leaseQuarantinedTotal + 1 } }
    else state

end SchedulerState

end State

section Steps

/-- The scheduler and the leases that its clients hold. The numbers of tickets and leases
drawn so far are not part of the program. -/
structure Config where
  state : SchedulerState := {}
  leases : List AiResourceLease := []
  ticketsDrawn : Nat := 0
  leasesDrawn : Nat := 0

inductive SchedulerEvent where
  | granted (lease : AiResourceLease) (ticket : Option Nat)
  | refused (workload : AiWorkload) (kind : AiLeaseErrorKind) (ticket : Option Nat)
  | waits (workload : AiWorkload) (ticket : Nat)
  | released (lease : AiResourceLease)
  | quarantined (lease : AiResourceLease)
deriving DecidableEq

/-- A step: the new configuration, what happened, and whether `notify_all` was called. -/
structure StepOutcome where
  config : Config
  event : SchedulerEvent
  notified : Bool

/-- What a thread does while it holds the lock. -/
inductive Action where
  | acquire (workload : AiWorkload) (expired : Bool) (waitedMs : Nat)
  | wake (ticket : Nat) (expired : Bool) (waitedMs : Nat)
  | drop (leaseId : Nat)
  | quarantine (leaseId : Nat) (reason : AiLeaseQuarantineReason)

namespace Config

variable (c : Config)

def grantTo (s : SchedulerState) (workload : AiWorkload) (resourceMask : UInt8)
    (hmask : resourceMask = workload.resourceMask) (waitedMs : Nat) (ticket : Option Nat) :
    StepOutcome :=
  let lease : AiResourceLease :=
    { resourceMask, workload, leaseId := nextId s.nextLeaseId, resourceMask_eq := hmask }
  { config :=
      { c with
        state := s.grant workload resourceMask waitedMs
        leases := lease :: c.leases
        leasesDrawn := c.leasesDrawn + 1 }
    event := .granted lease ticket
    notified := false }

def refuse (s : SchedulerState) (workload : AiWorkload) (kind : AiLeaseErrorKind)
    (ticket : Option Nat) (notified : Bool) : StepOutcome :=
  { config := { c with state := s }
    event := .refused workload kind ticket
    notified := notified }

def waitRound (waiter : LeaseWaiter) (expired : Bool) (waitedMs : Nat) : StepOutcome :=
  let s := c.state
  let rest := s.removeWaiter waiter.ticket
  if s.requiredResourcesAreQuarantined waiter.workload then
    c.refuse (rest.noteQuarantineRejected waiter.workload) waiter.workload .quarantined
      (some waiter.ticket) true
  else if s.waiterCanBeGranted waiter.ticket then
    c.grantTo rest waiter.workload waiter.resourceMask waiter.resourceMask_eq waitedMs
      (some waiter.ticket)
  else if expired then
    c.refuse (rest.noteTimedOut waiter.workload) waiter.workload .waitTimeout
      (some waiter.ticket) true
  else
    { config := c, event := .waits waiter.workload waiter.ticket, notified := false }

def newWaiter (workload : AiWorkload) : LeaseWaiter where
  ticket := nextId c.state.nextTicket
  workload := workload
  priority := workload.priority
  resourceMask := workload.resourceMask
  priority_eq := rfl
  resourceMask_eq := rfl

def enqueue (workload : AiWorkload) : Config :=
  let s := c.state
  let s :=
    { s with
      nextTicket := nextId s.nextTicket
      waiters := s.waiters ++ [c.newWaiter workload] }
  { c with
    state := s.noteQueued workload
    ticketsDrawn := c.ticketsDrawn + 1 }

def noteRequest (workload : AiWorkload) : Config :=
  { c with state := c.state.noteRequested workload }

/-- `acquire` up to the first wait on the condition variable. -/
def acquire (queueCapacity : Nat) (workload : AiWorkload) (expired : Bool) (waitedMs : Nat) :
    StepOutcome :=
  let c := c.noteRequest workload
  let s := c.state
  if s.requiredResourcesAreQuarantined workload then
    c.refuse (s.noteQuarantineRejected workload) workload .quarantined none false
  else if s.canGrantNewRequest workload then
    c.grantTo s workload workload.resourceMask rfl 0 none
  else if workload.requiredResources.any fun resource =>
      queueCapacity ≤ s.queuedCountForResource resource then
    c.refuse (s.noteQueueFull workload) workload .queueFull none false
  else (c.enqueue workload).waitRound (c.newWaiter workload) expired waitedMs

def withoutLease (leaseId : Nat) : Config :=
  { c with leases := c.leases.filter fun lease => lease.leaseId ≠ leaseId }

/-- A step of the thread that takes the lock, if it is one that can be taken. A lease is
dropped or quarantined by its owner, and only once. -/
def step (queueCapacity : Nat) : Action → Option StepOutcome
  | .acquire workload expired waitedMs =>
      some (c.acquire queueCapacity workload expired waitedMs)
  | .wake ticket expired waitedMs => do
      let waiter ← c.state.waiters.find? fun waiter => waiter.ticket = ticket
      return c.waitRound waiter expired waitedMs
  | .drop leaseId => do
      let lease ← c.leases.find? fun lease => lease.leaseId = leaseId
      return {
        config := { c.withoutLease leaseId with
          state := c.state.release lease.resourceMask lease.workload leaseId }
        event := .released lease
        notified := c.state.holdsAny lease.resourceMask leaseId }
  | .quarantine leaseId reason => do
      let lease ← c.leases.find? fun lease => lease.leaseId = leaseId
      return {
        config := { c.withoutLease leaseId with
          state := c.state.quarantine lease.resourceMask leaseId reason }
        event := .quarantined lease
        notified := c.state.holdsAny lease.resourceMask leaseId }

end Config

inductive Run (queueCapacity : Nat) : Config → List (Action × SchedulerEvent) → Config → Prop
  | refl (c : Config) : Run queueCapacity c [] c
  | step {c c' : Config} {log : List (Action × SchedulerEvent)} {action : Action}
      {o : StepOutcome} (hrun : Run queueCapacity c log c')
      (hstep : c'.step queueCapacity action = some o) :
      Run queueCapacity c (log ++ [(action, o.event)]) o.config

def Reachable (queueCapacity : Nat) (c : Config) : Prop :=
  ∃ log, Run queueCapacity {} log c

def Config.steps (queueCapacity : Nat) : Config → List Action → Config
  | c, [] => c
  | c, action :: actions =>
      match c.step queueCapacity action with
      | some o => o.config.steps queueCapacity actions
      | none => c.steps queueCapacity actions

theorem Run.append {queueCapacity : Nat} {c c' c'' : Config}
    {log log' : List (Action × SchedulerEvent)} (hrun : Run queueCapacity c log c')
    (hrun' : Run queueCapacity c' log' c'') : Run queueCapacity c (log ++ log') c'' := by
  induction hrun' with
  | refl => rwa [List.append_nil]
  | step _ hstep ih =>
      rw [← List.append_assoc]
      exact ih.step hstep

theorem run_steps (queueCapacity : Nat) (c : Config) (actions : List Action) :
    ∃ log, Run queueCapacity c log (c.steps queueCapacity actions) := by
  induction actions generalizing c with
  | nil => exact ⟨[], .refl c⟩
  | cons action actions ih =>
      unfold Config.steps
      split
      · rename_i o hstep
        obtain ⟨log, hrun⟩ := ih o.config
        exact ⟨_, ((Run.refl c).step hstep).append hrun⟩
      · exact ih c

/-- Fewer tickets and leases were drawn than there are ids. -/
structure Bounded (c : Config) : Prop where
  tickets : c.ticketsDrawn < 2 ^ 64
  leases : c.leasesDrawn < 2 ^ 64

end Steps

end HarborBeacon.AiResourceScheduler
