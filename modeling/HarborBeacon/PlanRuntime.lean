import HarborBeacon.ExecutorRouting
import HarborBeacon.TaskContract

/-!
The orchestrator runtime: every step of a plan is recorded in the audit log, passes the
policy, and is previewed or handed to the router.
-/

namespace HarborBeacon.PlanRuntime

open ExecutorRouting Json Json.Value Policy TaskContract Text

variable {W : Type}

structure TaskPlan where
  taskId : String
  steps : List Action

structure TaskResult where
  taskId : String
  results : List ExecutionResult

def statusName : StepStatus → String
  | .pending => "PENDING"
  | .approved => "APPROVED"
  | .executing => "EXECUTING"
  | .success => "SUCCESS"
  | .failed => "FAILED"
  | .skipped => "SKIPPED"
  | .blocked => "BLOCKED"

def encodeAction (action : Action) : Value :=
  obj
    [("domain", string action.domain),
     ("operation", string action.operation),
     ("resource", action.resource),
     ("args", action.args),
     ("risk_level", riskLevelValue action.riskLevel),
     ("requires_approval", .bool action.requiresApproval),
     ("dry_run", .bool action.dryRun)]

def encodeExecutionResult (result : ExecutionResult) : Value :=
  obj
    [("task_id", string result.taskId),
     ("step_id", string result.stepId),
     ("executor_used", string result.executorUsed),
     ("fallback_used", .bool result.fallbackUsed),
     ("status", string (statusName result.status)),
     ("duration_ms", number (.unsigned result.durationMs)),
     ("error_code", ofOption result.errorCode),
     ("error_message", ofOption result.errorMessage),
     ("audit_ref", string result.auditRef),
     ("result_payload", result.resultPayload)]

structure AuditEvent where
  auditRef : String
  taskId : String
  stepId : String
  domain : String
  operation : String
  routeSelected : String
  fallbackUsed : Bool
  riskLevel : String
  status : String
  durationMs : UInt64
  errorCode : Option String
  errorMessage : Option String
  dryRun : Bool
  inputs : Value
  outputs : Value
deriving DecidableEq

structure AuditLog where
  events : List AuditEvent

def startedEvent (taskId stepId : String) (action : Action) (auditRef : String) :
    AuditEvent where
  auditRef := auditRef
  taskId := taskId
  stepId := stepId
  domain := action.domain
  operation := action.operation
  routeSelected := ""
  fallbackUsed := false
  riskLevel := match action.riskLevel with
    | .low => "LOW"
    | .medium => "MEDIUM"
    | .high => "HIGH"
    | .critical => "CRITICAL"
  status := "PENDING"
  durationMs := 0
  errorCode := none
  errorMessage := none
  dryRun := action.dryRun
  inputs := encodeAction action
  outputs := obj []

def completedEvent (result : ExecutionResult) (event : AuditEvent) : AuditEvent :=
  { event with
    routeSelected := result.executorUsed
    fallbackUsed := result.fallbackUsed
    status := statusName result.status
    durationMs := result.durationMs
    errorCode := result.errorCode
    errorMessage := result.errorMessage
    outputs := encodeExecutionResult result }

def blockedEvent (code message : String) (event : AuditEvent) : AuditEvent :=
  { event with
    status := statusName .blocked
    errorCode := some code
    errorMessage := some message }

namespace AuditLog

/-- The audit reference of the new event is drawn at random in the source. -/
def recordStart (log : AuditLog) (taskId stepId : String) (action : Action)
    (auditRef : String) : Nat × AuditLog :=
  let events := log.events ++ [startedEvent taskId stepId action auditRef]
  (events.length - 1, { events })

/-- The source indexes the events, with the index that `recordStart` gave. -/
def auditRefFor (log : AuditLog) (eventId : Nat) : String :=
  (log.events[eventId]?.map AuditEvent.auditRef).getD ""

def recordComplete (log : AuditLog) (eventId : Nat) (result : ExecutionResult) : AuditLog where
  events := log.events.modify eventId (completedEvent result)

def recordPolicyBlock (log : AuditLog) (eventId : Nat) (code message : String) :
    AuditLog where
  events := log.events.modify eventId (blockedEvent code message)

end AuditLog

structure Runtime (W : Type) where
  router : Router W
  audit : AuditLog
  approval : Option ApprovalContext

def stepIdAt (idx : Nat) : String :=
  "s" ++ toString (idx + 1)

def blockedResult (taskId stepId : String) (violation : PolicyViolation) (auditRef : String) :
    ExecutionResult where
  taskId := taskId
  stepId := stepId
  executorUsed := "none"
  fallbackUsed := false
  status := .blocked
  durationMs := 0
  errorCode := some violation.code
  errorMessage := some violation.message
  auditRef := auditRef
  resultPayload := obj []

def dryRunResult (taskId stepId : String) (action : Action) (auditRef : String) :
    ExecutionResult where
  taskId := taskId
  stepId := stepId
  executorUsed := "dry_run"
  fallbackUsed := false
  status := .success
  durationMs := 0
  errorCode := none
  errorMessage := none
  auditRef := auditRef
  resultPayload := encodeAction action

/-- What the loop of `executePlan` carries from step to step. -/
structure PlanState (W : Type) where
  audit : AuditLog
  results : List ExecutionResult
  host : Host W

/-- One round of the loop of `executePlan`. -/
def executeStep (router : Router W) (approval : Option ApprovalContext) (taskId : String)
    (auditRefs : Nat → String) (idx : Nat) (action : Action) (state : PlanState W) :
    PlanState W :=
  let stepId := stepIdAt idx
  let (eventId, audit) := state.audit.recordStart taskId stepId action (auditRefs idx)
  let auditRef := audit.auditRefFor eventId
  match enforce action approval with
  | .error pv =>
      { state with
        audit := audit.recordPolicyBlock eventId pv.code pv.message
        results := state.results ++ [blockedResult taskId stepId pv auditRef] }
  | .ok () =>
      if action.dryRun then
        let result := dryRunResult taskId stepId action auditRef
        { state with
          audit := audit.recordComplete eventId result
          results := state.results ++ [result] }
      else
        let (result, host) := execute action taskId stepId router state.host
        let result := { result with auditRef := auditRef }
        { audit := audit.recordComplete eventId result
          results := state.results ++ [result]
          host := host }

def executeSteps (router : Router W) (approval : Option ApprovalContext) (taskId : String)
    (auditRefs : Nat → String) : Nat → List Action → PlanState W → PlanState W
  | _, [], state => state
  | idx, action :: rest, state =>
      executeSteps router approval taskId auditRefs (idx + 1) rest
        (executeStep router approval taskId auditRefs idx action state)

/-- The audit references of the events are drawn at random in the source. -/
def executePlan (runtime : Runtime W) (plan : TaskPlan) (auditRefs : Nat → String)
    (host : Host W) : TaskResult × Runtime W × Host W :=
  let state := executeSteps runtime.router runtime.approval plan.taskId auditRefs 0 plan.steps
    { audit := runtime.audit, results := [], host := host }
  ({ taskId := plan.taskId, results := state.results },
    { runtime with audit := state.audit }, state.host)

section Steps

theorem stepIdAt_injective : Function.Injective stepIdAt := by
  intro i j h
  have hdecimal : toString (i + 1) = toString (j + 1) := by
    simpa [stepIdAt] using h
  have hnumber := eq_of_toString_eq hdecimal
  omega

structure StepRun (W : Type) where
  result : ExecutionResult
  event : AuditEvent
  calls : List (Call W)

/-- What a step of the plan has to leave behind. -/
structure Performed (router : Router W) (approval : Option ApprovalContext) (taskId : String)
    (auditRefs : Nat → String) (idx : Nat) (action : Action) (run : StepRun W) : Prop where
  refused : ∀ violation, enforce action approval = .error violation →
    run.calls = [] ∧ run.result = blockedResult taskId (stepIdAt idx) violation (auditRefs idx) ∧
      run.event = blockedEvent violation.code violation.message
        (startedEvent taskId (stepIdAt idx) action (auditRefs idx))
  previewed : enforce action approval = .ok () → action.dryRun = true →
    run.calls = [] ∧ run.result = dryRunResult taskId (stepIdAt idx) action (auditRefs idx)
  executed : enforce action approval = .ok () → action.dryRun = false →
    (∃ host : Host W, run.result =
      { (execute action taskId (stepIdAt idx) router host).1 with auditRef := auditRefs idx }) ∧
    ∀ call ∈ run.calls,
      call.action = action ∧ call.taskId = taskId ∧ call.stepId = stepIdAt idx
  completed : enforce action approval = .ok () →
    run.event = completedEvent run.result
      (startedEvent taskId (stepIdAt idx) action (auditRefs idx))

def PlanState.after (state : PlanState W) (run : StepRun W) (world : W) : PlanState W where
  audit := { events := state.audit.events ++ [run.event] }
  results := state.results ++ [run.result]
  host := { world := world, calls := state.host.calls ++ run.calls }

theorem modify_append_singleton {α : Type} (xs : List α) (x : α) (f : α → α) :
    (xs ++ [x]).modify xs.length f = xs ++ [f x] := by
  induction xs with
  | nil => rfl
  | cons y xs ih =>
      rw [List.cons_append, List.length_cons, List.modify_succ_cons, ih, List.cons_append]

section AuditLemmas

variable (log : AuditLog) (taskId stepId : String) (action : Action) (auditRef : String)

@[simp] theorem recordStart_fst :
    (log.recordStart taskId stepId action auditRef).1 = log.events.length := by
  simp [AuditLog.recordStart]

@[simp] theorem auditRefFor_recordStart :
    (log.recordStart taskId stepId action auditRef).2.auditRefFor log.events.length =
      auditRef := by
  simp [AuditLog.recordStart, AuditLog.auditRefFor, startedEvent]

theorem recordComplete_recordStart (result : ExecutionResult) :
    (log.recordStart taskId stepId action auditRef).2.recordComplete log.events.length result =
      { events := log.events ++
          [completedEvent result (startedEvent taskId stepId action auditRef)] } := by
  simp only [AuditLog.recordStart, AuditLog.recordComplete, modify_append_singleton]

theorem recordPolicyBlock_recordStart (code message : String) :
    (log.recordStart taskId stepId action auditRef).2.recordPolicyBlock log.events.length code
        message =
      { events := log.events ++
          [blockedEvent code message (startedEvent taskId stepId action auditRef)] } := by
  simp only [AuditLog.recordStart, AuditLog.recordPolicyBlock, modify_append_singleton]

end AuditLemmas

variable (router : Router W) (approval : Option ApprovalContext) (taskId : String)
  (auditRefs : Nat → String)

/-- The step lemma: one round adds one result and one event, and only an executed step
makes calls. -/
theorem executeStep_performed (idx : Nat) (action : Action) (state : PlanState W) :
    ∃ run world, Performed router approval taskId auditRefs idx action run ∧
      executeStep router approval taskId auditRefs idx action state = state.after run world := by
  cases henforce : enforce action approval with
  | error violation =>
      refine ⟨{ result := blockedResult taskId (stepIdAt idx) violation (auditRefs idx)
                event := blockedEvent violation.code violation.message
                  (startedEvent taskId (stepIdAt idx) action (auditRefs idx))
                calls := [] }, state.host.world, ?_, ?_⟩
      · constructor
        · intro other hother
          obtain rfl := Except.error.inj (henforce.symm.trans hother)
          exact ⟨rfl, rfl, rfl⟩
        · intro hok
          simp [henforce] at hok
        · intro hok
          simp [henforce] at hok
        · intro hok
          simp [henforce] at hok
      · simp [executeStep, henforce, recordPolicyBlock_recordStart, PlanState.after]
  | ok _ =>
      cases hdry : action.dryRun with
      | true =>
          refine ⟨{ result := dryRunResult taskId (stepIdAt idx) action (auditRefs idx)
                    event := completedEvent
                      (dryRunResult taskId (stepIdAt idx) action (auditRefs idx))
                      (startedEvent taskId (stepIdAt idx) action (auditRefs idx))
                    calls := [] }, state.host.world, ?_, ?_⟩
          · constructor
            · intro violation hviolation
              simp [henforce] at hviolation
            · intro _ _
              exact ⟨rfl, rfl⟩
            · intro _ hlive
              simp [hdry] at hlive
            · intro _
              rfl
          · simp [executeStep, henforce, hdry, recordComplete_recordStart, PlanState.after]
      | false =>
          obtain ⟨made, hcalls, hmade⟩ :=
            calls_of_execute action taskId (stepIdAt idx) router state.host
          refine ⟨{ result := { (execute action taskId (stepIdAt idx) router state.host).1 with
                      auditRef := auditRefs idx }
                    event := completedEvent
                      { (execute action taskId (stepIdAt idx) router state.host).1 with
                        auditRef := auditRefs idx }
                      (startedEvent taskId (stepIdAt idx) action (auditRefs idx))
                    calls := made },
            (execute action taskId (stepIdAt idx) router state.host).2.world, ?_, ?_⟩
          · constructor
            · intro violation hviolation
              simp [henforce] at hviolation
            · intro _ hpreview
              simp [hdry] at hpreview
            · intro _ _
              exact ⟨⟨state.host, rfl⟩, hmade⟩
            · intro _
              rfl
          · simp [executeStep, henforce, hdry, recordComplete_recordStart, PlanState.after,
              ← hcalls]

theorem executeSteps_performed (idx : Nat) (steps : List Action) (state : PlanState W) :
    ∃ runs world,
      List.Forall₂ (fun step run =>
        Performed router approval taskId auditRefs step.2 step.1 run) (steps.zipIdx idx) runs ∧
      executeSteps router approval taskId auditRefs idx steps state =
        { audit := { events := state.audit.events ++ runs.map StepRun.event }
          results := state.results ++ runs.map StepRun.result
          host := { world := world
                    calls := state.host.calls ++ runs.flatMap StepRun.calls } } := by
  induction steps generalizing idx state with
  | nil => exact ⟨[], state.host.world, .nil, by simp [executeSteps]⟩
  | cons action rest ih =>
      obtain ⟨run, world, hrun, hstep⟩ :=
        executeStep_performed router approval taskId auditRefs idx action state
      obtain ⟨runs, final, hruns, hloop⟩ := ih (idx + 1) (state.after run world)
      refine ⟨run :: runs, final, ?_, ?_⟩
      · rw [List.zipIdx_cons]
        exact .cons hrun hruns
      · rw [executeSteps, hstep, hloop]
        simp [PlanState.after]

variable {router approval taskId auditRefs} {runs : List (StepRun W)} {steps : List Action}
  {run : StepRun W} {idx : Nat}

theorem performed_at (h : List.Forall₂ (fun step run =>
      Performed router approval taskId auditRefs step.2 step.1 run) (steps.zipIdx 0) runs)
    {action : Action} (haction : steps[idx]? = some action) :
    ∃ run, runs[idx]? = some run ∧
      Performed router approval taskId auditRefs idx action run := by
  obtain ⟨hlt, haction⟩ := List.getElem?_eq_some_iff.mp haction
  have hlength := h.length_eq
  rw [List.length_zipIdx] at hlength
  refine ⟨runs[idx], by simp, ?_⟩
  have hget := h.get (by simpa using hlt) (hlength ▸ hlt)
  simpa [haction] using hget

theorem exists_performed_of_mem (h : List.Forall₂ (fun step run =>
      Performed router approval taskId auditRefs step.2 step.1 run) (steps.zipIdx 0) runs)
    (hrun : run ∈ runs) :
    ∃ idx action, steps[idx]? = some action ∧
      Performed router approval taskId auditRefs idx action run := by
  obtain ⟨idx, hlt, rfl⟩ := List.getElem_of_mem hrun
  have hlength := h.length_eq
  rw [List.length_zipIdx] at hlength
  have haction : steps[idx]? = some steps[idx] := by simp
  obtain ⟨run, hget, hperformed⟩ := performed_at h haction
  obtain rfl := Option.some.inj ((List.getElem?_eq_getElem hlt).symm.trans hget)
  exact ⟨idx, _, haction, hperformed⟩

theorem Performed.allowed_of_call {action : Action}
    (h : Performed router approval taskId auditRefs idx action run) {call : Call W}
    (hcall : call ∈ run.calls) :
    enforce action approval = .ok () ∧ action.dryRun = false ∧
      call.action = action ∧ call.taskId = taskId ∧ call.stepId = stepIdAt idx := by
  cases henforce : enforce action approval with
  | error violation =>
      rw [(h.refused violation henforce).1] at hcall
      simp at hcall
  | ok _ =>
      cases hdry : action.dryRun with
      | true =>
          rw [(h.previewed henforce hdry).1] at hcall
          simp at hcall
      | false => exact ⟨rfl, rfl, (h.executed henforce hdry).2 call hcall⟩

end Steps

/-- Executors are called only for the steps of the plan that pass the policy and are no dry
runs; every step leaves one result and one audit event, in the order of the plan, and a
refused step causes no call. -/
theorem executePlan_calls_allowed_steps (runtime : Runtime W) (plan : TaskPlan)
    (auditRefs : Nat → String) (host : Host W) :
    ∃ (made : List (Call W)) (events : List AuditEvent),
      (executePlan runtime plan auditRefs host).2.2.calls = host.calls ++ made ∧
      (executePlan runtime plan auditRefs host).2.1.audit.events =
        runtime.audit.events ++ events ∧
      events.length = plan.steps.length ∧
      (executePlan runtime plan auditRefs host).1.results.length = plan.steps.length ∧
      (∀ idx action, plan.steps[idx]? = some action →
        ∃ run : StepRun W, events[idx]? = some run.event ∧
          (executePlan runtime plan auditRefs host).1.results[idx]? = some run.result ∧
          Performed runtime.router runtime.approval plan.taskId auditRefs idx action run) ∧
      (∀ call ∈ made, ∃ idx action, plan.steps[idx]? = some action ∧
        enforce action runtime.approval = .ok () ∧ action.dryRun = false ∧
        call.action = action ∧ call.taskId = plan.taskId ∧ call.stepId = stepIdAt idx) ∧
      ∀ idx action violation, plan.steps[idx]? = some action →
        enforce action runtime.approval = .error violation →
        ∀ call ∈ made, call.stepId ≠ stepIdAt idx := by
  obtain ⟨runs, world, hruns, hloop⟩ :=
    executeSteps_performed runtime.router runtime.approval plan.taskId auditRefs 0 plan.steps
      { audit := runtime.audit, results := [], host := host }
  have hlength : runs.length = plan.steps.length := by
    rw [← hruns.length_eq, List.length_zipIdx]
  have hcalls : ∀ call ∈ runs.flatMap StepRun.calls, ∃ idx action,
      plan.steps[idx]? = some action ∧ enforce action runtime.approval = .ok () ∧
        action.dryRun = false ∧ call.action = action ∧ call.taskId = plan.taskId ∧
        call.stepId = stepIdAt idx := by
    intro call hcall
    obtain ⟨run, hrun, hcall⟩ := List.mem_flatMap.mp hcall
    obtain ⟨idx, action, haction, hperformed⟩ := exists_performed_of_mem hruns hrun
    exact ⟨idx, action, haction, hperformed.allowed_of_call hcall⟩
  refine ⟨runs.flatMap StepRun.calls, runs.map StepRun.event, ?_, ?_, ?_, ?_, ?_, hcalls, ?_⟩
  · simp [executePlan, hloop]
  · simp [executePlan, hloop]
  · simp [hlength]
  · simp [executePlan, hloop, hlength]
  · intro idx action haction
    obtain ⟨run, hget, hperformed⟩ := performed_at hruns haction
    exact ⟨run, by simp [hget], by simp [executePlan, hloop, hget], hperformed⟩
  · intro idx action violation haction hviolation call hcall hstep
    obtain ⟨other, allowed, hother, hallowed, -, -, -, hid⟩ := hcalls call hcall
    have hidx : other = idx := stepIdAt_injective (hid.symm.trans hstep)
    rw [hidx] at hother
    obtain rfl := Option.some.inj (hother.symm.trans haction)
    rw [hallowed] at hviolation
    simp at hviolation

end HarborBeacon.PlanRuntime
