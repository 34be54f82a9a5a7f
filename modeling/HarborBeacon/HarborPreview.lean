import HarborBeacon.FilePlanners
import HarborBeacon.ServiceSteps

/-!
The handler of HarborOS tasks, with the effects that its executors have outside the
process, and what it does on a request that asks for a preview only.
-/

namespace HarborBeacon.HarborPreview

open ControlPlane ConversationState ExecutorRouting FallbackChain FileProgram HarborOps Json
open Json.Value Policy ServiceSteps TaskApi TaskContract TaskSession TaskTracking Text

section Handler

structure DispatchDraws where
  eventId : Uuid
  eventAt : String
  auditRef : String

def harborExecutionIsPreview (payload : Value) : Bool :=
  (boolAtPaths payload [["dry_run"]]).getD false ||
    payload.pointer ["passthrough"] = some (.bool false) ||
    ((stringAtPaths payload [["note"]]).map fun note =>
      containsText (toAsciiLowercase note) "preview").getD false

def nonEmptyAuditRef (auditRef drawn : String) : String :=
  let trimmed := trim auditRef
  if trimmed = "" then drawn else trimmed

def configurationErrorResponse (request : TaskRequest) (action : Action)
    (draws : DispatchDraws) (error : String) : TaskResponse :=
  let data := obj
    [("domain", string action.domain), ("operation", string action.operation),
     ("resource", action.resource), ("executor_used", string "harboros_router"),
     ("route_fallback_used", .bool false), ("error_code", string "EXECUTOR_CONFIG_ERROR"),
     ("error_message", string error)]
  let event := buildTaskEventRecord request (stepIdForRequest request) "task.harboros_failed"
    .error data draws.eventId draws.eventAt
  failedWithContext request "harboros_router" action.riskLevel
    ("HarborOS executor configuration error: " ++ error) data [event.encode] draws.auditRef

def harborResponseFromExecution (request : TaskRequest) (action : Action)
    (draws : DispatchDraws) (execution : ExecutionResult) : TaskResponse :=
  let data := obj
    [("domain", string action.domain), ("operation", string action.operation),
     ("resource", action.resource), ("executor_used", string execution.executorUsed),
     ("route_fallback_used", .bool execution.fallbackUsed),
     ("duration_ms", number (.unsigned execution.durationMs)),
     ("preview", .bool (harborExecutionIsPreview execution.resultPayload)),
     ("result", execution.resultPayload), ("error_code", ofOption execution.errorCode),
     ("error_message", ofOption execution.errorMessage)]
  let ok := execution.status = .success
  let message :=
    if ok then
      "HarborOS " ++ action.domain ++ "." ++ action.operation ++ " 已通过 " ++
        execution.executorUsed ++ " 执行"
    else
      "HarborOS " ++ action.domain ++ "." ++ action.operation ++ " 执行失败: " ++
        execution.errorMessage.getD "unknown error"
  let event := buildTaskEventRecord request (stepIdForRequest request)
    (if ok then "task.harboros_dispatched" else "task.harboros_failed")
    (if ok then .info else .error) data draws.eventId draws.eventAt
  { taskId := request.taskId
    traceId := request.traceId
    status := if ok then .completed else .failed
    executorUsed := execution.executorUsed
    riskLevel := action.riskLevel
    result := { message, data, events := [event.encode] }
    auditRef := nonEmptyAuditRef execution.auditRef draws.auditRef
    missingFields := []
    prompt := none
    resumeToken := none }

variable (platform : Platform) (answers : HostAnswers) (config : HarborExecutorConfig)

/-- The part of the handler after the gate, from a history of effects on. -/
def dispatchHarborAction (draws : DispatchDraws) (request : TaskRequest) (action : Action)
    (history : List Effect) : TaskResponse × List Effect :=
  match registerHarborExecutors platform answers Router.new config with
  | .error error => (configurationErrorResponse request action draws error, history)
  | .ok router =>
      let (execution, host) := execute action request.taskId (stepIdForRequest request) router
        { world := history, calls := [] }
      (harborResponseFromExecution request action draws execution, host.world)

def handleHarborSystemAction (gateDraws : GateDraws) (draws : DispatchDraws)
    (request : TaskRequest) (history : List Effect) :
    Service (TaskResponse × List Effect) :=
  match buildHarborActionFromRequest request with
  | .error error =>
      pure (failed request "harboros_router" (expectedRiskLevel request) error
        gateDraws.auditRef, history)
  | .ok action => do
      match ← ensureActionAllowed request action "harboros_router" gateDraws with
      | .error response => return (response, history)
      | .ok () =>
          return dispatchHarborAction platform answers config draws request action history

theorem exec_handleHarborSystemAction (handlers : TaskHandlers) (draws : DispatchDraws)
    (request : TaskRequest) (history : List Effect) (file : TaskConversationFile)
    (hexecute : ∀ action, handlers.executeHarborAction request action =
      (dispatchHarborAction platform answers config draws request action history).1) :
    ((handlers.harborSystemAction request).program request).exec file =
      let o := (handleHarborSystemAction platform answers config handlers.draws draws request
        history).exec file
      ⟨o.file, o.log, o.result.1⟩ := by
  unfold TaskHandlers.harborSystemAction handleHarborSystemAction
  cases buildHarborActionFromRequest request with
  | error error => rfl
  | ok action =>
      simp only [Handler.program, exec_bind, Outcome.andThen]
      cases ((ensureActionAllowed request action "harboros_router" handlers.draws).exec
        file).result with
      | error response => simp [Handler.program]
      | ok _ => simp [Handler.program, hexecute]

end Handler

theorem domain_applyGovernanceDefaults (action : Action) :
    (applyGovernanceDefaults action).domain = action.domain := by
  unfold applyGovernanceDefaults Action.normalize
  cases effectiveRiskLevel action <;> rfl

theorem dryRun_applyGovernanceDefaults (action : Action) :
    (applyGovernanceDefaults action).dryRun = action.dryRun := by
  unfold applyGovernanceDefaults Action.normalize
  cases effectiveRiskLevel action <;> rfl

theorem buildHarborActionFromRequest_spec {request : TaskRequest} {action : Action}
    (h : buildHarborActionFromRequest request = .ok action) :
    (action.domain = "service" ∨ action.domain = "files") ∧
      action.dryRun = requestPreviewFlag request := by
  unfold buildHarborActionFromRequest at h
  dsimp only at h
  split at h
  · unfold buildHarborServiceAction at h
    split at h
    · simp at h
    · obtain rfl := Except.ok.inj h
      exact ⟨Or.inl (domain_applyGovernanceDefaults _), dryRun_applyGovernanceDefaults _⟩
  · unfold buildHarborFilesAction at h
    obtain ⟨resource, -, h⟩ := FilePlanners.ok_of_bind h
    obtain rfl := Except.ok.inj h
    exact ⟨Or.inr (domain_applyGovernanceDefaults _), dryRun_applyGovernanceDefaults _⟩
  · simp at h

/-- The gate lets an action through exactly when its risk is within the autonomy of the
request and the policy allows it with the ticket that is pending for the task. -/
def GateAllows (file : TaskConversationFile) (request : TaskRequest) (action : Action) : Prop :=
  riskAllowed (effectiveAutonomyLevel request) (effectiveRiskLevel action) = true ∧
    enforce action
      (approvalContextForRequest request (pendingTicket file request.taskId)) = .ok ()

theorem ensureActionAllowed_ok_iff (request : TaskRequest) (action : Action)
    (executorUsed : String) (draws : GateDraws) (file : TaskConversationFile) :
    ((ensureActionAllowed request action executorUsed draws).exec file).result = .ok () ↔
      GateAllows file request action := by
  unfold GateAllows
  cases hrisk : riskAllowed (effectiveAutonomyLevel request) (effectiveRiskLevel action) with
  | false =>
      simp only [ensureActionAllowed, hrisk, Bool.not_false, if_true]
      simp
  | true =>
      rcases ensureActionAllowed_cases_of_riskAllowed request action executorUsed draws file
        hrisk with hrefused | hallowed
      · obtain ⟨violation, hviolation, -, response, hresult, -⟩ := hrefused
        rw [hresult, hviolation]
        simp
      · rw [hallowed.2.1, hallowed.1]
        simp

section Plans

variable (platform : Platform) {α β : Type}

theorem isOk_bind (x : Except String α) (f : α → Except String β) :
    (x >>= f).isOk = match x with
      | .ok a => (f a).isOk
      | .error _ => false := by
  cases x with
  | error e => rfl
  | ok a => rfl

theorem isOk_return {α : Type} (x : Except String α) (context : Value) :
    (x >>= fun planned => pure (planned, context)).isOk = x.isOk := by
  cases x with
  | error e => rfl
  | ok a => rfl

theorem isOk_plan_congr {service : String → Value → String → Except String α}
    {files : String → FileOperationContext → Except String α}
    {readOnlyFiles : String → ReadOnlyFileOperationContext → Except String α}
    {service' : String → Value → String → Except String β}
    {files' : String → FileOperationContext → Except String β}
    {readOnlyFiles' : String → ReadOnlyFileOperationContext → Except String β}
    (hservice : ∀ operation args name,
      (service operation args name).isOk = (service' operation args name).isOk)
    (hfiles : ∀ operation fileCtx, (files operation fileCtx).isOk = (files' operation fileCtx).isOk)
    (hread : ∀ operation fileCtx,
      (readOnlyFiles operation fileCtx).isOk = (readOnlyFiles' operation fileCtx).isOk)
    (action : Action) :
    (plan platform service files readOnlyFiles action).isOk =
      (plan platform service' files' readOnlyFiles' action).isOk := by
  unfold plan
  split
  · rw [isOk_bind, isOk_bind]
    cases extractServiceName platform action with
    | error e => rfl
    | ok name => simp only [isOk_return, hservice]
  · split
    · rw [isOk_bind, isOk_bind]
      cases extractReadOnlyFileOperationContext platform action with
      | error e => rfl
      | ok fileCtx => simp only [isOk_return, hread]
    · rw [isOk_bind, isOk_bind]
      cases extractFileOperationContext platform action with
      | error e => rfl
      | ok fileCtx => simp only [isOk_return, hfiles]
  · rfl

theorem isOk_mapServiceOperation (operation serviceName : String) (args : Value) :
    (mapServiceOperation operation serviceName args).isOk =
      decide (operation ∈ supportedServiceOps) := by
  unfold mapServiceOperation
  split
  all_goals simp_all [supportedServiceOps, Except.isOk, Except.toBool]

theorem isOk_mapWsServiceOperation (operation serviceName : String) (args : Value) :
    (mapWsServiceOperation operation serviceName args).isOk =
      decide (operation ∈ supportedServiceOps) := by
  unfold mapWsServiceOperation
  split
  all_goals simp_all [supportedServiceOps, Except.isOk, Except.toBool]

theorem isOk_buildMidcliServiceCommand (operation serviceName : String) (args : Value) :
    (buildMidcliServiceCommand operation serviceName args).isOk =
      decide (operation ∈ supportedServiceOps) := by
  unfold buildMidcliServiceCommand
  split
  all_goals simp_all [supportedServiceOps, Except.isOk, Except.toBool]

theorem isOk_mapFilesOperation (operation : String) (fileCtx : FileOperationContext) :
    (mapFilesOperation operation fileCtx).isOk =
      (buildMidcliFilesCommand operation fileCtx).isOk := by
  unfold mapFilesOperation buildMidcliFilesCommand
  split
  · rfl
  · rfl
  · simp_all [Except.isOk, Except.toBool]

theorem isOk_mapReadOnlyFilesOperation (operation : String)
    (fileCtx : ReadOnlyFileOperationContext) :
    (mapReadOnlyFilesOperation operation fileCtx).isOk =
      (buildMidcliReadOnlyFilesCommand operation fileCtx).isOk := by
  unfold mapReadOnlyFilesOperation buildMidcliReadOnlyFilesCommand
  split
  · rfl
  · rfl
  · rfl
  · simp_all [Except.isOk, Except.toBool]

theorem isOk_middlewarePlan (action : Action) :
    (middlewarePlan platform action).isOk = (midcliPlan platform action).isOk := by
  refine isOk_plan_congr platform ?_ isOk_mapFilesOperation isOk_mapReadOnlyFilesOperation action
  intro operation args name
  rw [isOk_mapServiceOperation, isOk_buildMidcliServiceCommand]

theorem isOk_wsPlan (action : Action) :
    (wsPlan platform action).isOk = (midcliPlan platform action).isOk := by
  refine isOk_plan_congr platform ?_ isOk_mapFilesOperation isOk_mapReadOnlyFilesOperation action
  intro operation args name
  rw [isOk_mapWsServiceOperation, isOk_buildMidcliServiceCommand]

theorem isOk_mapHttpServiceOperation (baseUrl operation serviceName : String) (args : Value) :
    (mapHttpServiceOperation baseUrl operation serviceName args).isOk =
      decide (operation ∈ supportedServiceOps) := by
  unfold mapHttpServiceOperation
  split
  all_goals simp_all [supportedServiceOps, Except.isOk, Except.toBool]

theorem isOk_httpPlan (baseUrl : String) (action : Action) (hservice : action.domain = "service") :
    (httpPlan platform baseUrl action).isOk = (midcliPlan platform action).isOk := by
  unfold httpPlan midcliPlan plan
  simp only [hservice]
  rw [isOk_bind, isOk_bind]
  cases extractServiceName platform action with
  | error e => rfl
  | ok name =>
      simp only [isOk_return, isOk_mapHttpServiceOperation, isOk_buildMidcliServiceCommand]

end Plans

section Runs

variable (platform : Platform) (answers : HostAnswers) (action : Action)
  (taskId stepId : String) (history : List Effect) {α β : Type}

/-- An executor leaves the host alone; `answered` says whether it gives a result. -/
def Quiet (executor : Executor (List Effect)) (answered : Bool) : Prop :=
  ∃ outcome : Except String ExecutionResult,
    executor.run action taskId stepId history = (outcome, history) ∧ outcome.isOk = answered

theorem run_bind (x : Effectful α) (f : α → Effectful β) :
    (x >>= f).run history =
      match x.run history with
      | (.ok a, later) => (f a).run later
      | (.error e, later) => (.error e, later) := by
  rw [ExceptT.run_bind]
  change StateT.run _ _ = match StateT.run x.run history with
    | (.ok a, later) => (f a).run later
    | (.error e, later) => (.error e, later)
  rw [StateT.run_bind]
  rcases StateT.run x.run history with ⟨outcome, later⟩
  cases outcome with
  | error e => rfl
  | ok a => rfl

theorem run_liftPlan (planned : Except String α) (f : α → Effectful β) :
    (liftPlan planned >>= f).run history =
      match planned with
      | .ok a => (f a).run history
      | .error e => (.error e, history) := by
  rw [run_bind]
  cases planned with
  | error e => rfl
  | ok a => rfl

theorem run_perform (effect : Effect) (answer : List Effect → Except String α) (label : String)
    (f : α → Effectful β) :
    (perform effect answer label >>= f).run history =
      match answer (history ++ [effect]) with
      | .ok a => (f a).run (history ++ [effect])
      | .error e => (.error (label ++ e), history ++ [effect]) := by
  have hrun : (perform effect answer label).run history =
      match answer (history ++ [effect]) with
      | .ok a => (.ok a, history ++ [effect])
      | .error e => (.error (label ++ e), history ++ [effect]) := rfl
  rw [run_bind, hrun]
  cases answer (history ++ [effect]) with
  | error e => rfl
  | ok a => rfl

theorem quiet_middlewareExecutor :
    Quiet action taskId stepId history (middlewareExecutor platform answers)
      (decide (answers.forceMiddlewareError ≠ some "1") &&
        (middlewarePlan platform action).isOk) := by
  unfold Quiet middlewareExecutor effectfulExecutor middlewareRun
  dsimp only
  by_cases hforced : answers.forceMiddlewareError = some "1"
  · rw [if_pos hforced]
    exact ⟨.error "forced middleware failure", rfl, by simp [hforced, Except.isOk, Except.toBool]⟩
  · rw [if_neg hforced, run_liftPlan]
    cases middlewarePlan platform action with
    | error e => exact ⟨.error e, rfl, by simp [Except.isOk, Except.toBool]⟩
    | ok planned => exact ⟨_, rfl, by simp [hforced, Except.isOk, Except.toBool]⟩

theorem midcliExecutor_run (bin : String) (passthrough : Bool) :
    ((midcliExecutor platform answers bin passthrough).run action taskId stepId history).2 =
      history ↔ ¬ (passthrough = true ∧ (midcliPlan platform action).isOk = true) := by
  unfold midcliExecutor effectfulExecutor midcliRun
  dsimp only
  rw [run_liftPlan]
  cases midcliPlan platform action with
  | error e => simp [Except.isOk, Except.toBool]
  | ok planned =>
      cases passthrough with
      | false => exact iff_of_true rfl (by simp)
      | true =>
          refine iff_of_false ?_ (by simp [Except.isOk, Except.toBool])
          simp only [if_true]
          rw [run_perform]
          cases answers.spawn (history ++ [.spawn bin planned.1]) with
          | error e => simp
          | ok output =>
              have hlater : ∀ outcome : Except String ExecutionResult,
                  ((outcome, history ++ [Effect.spawn bin planned.1]) :
                    Except String ExecutionResult × List Effect).2 ≠ history := by
                intro outcome
                simp
              cases hsuccess : output.success with
              | false =>
                  simp only [hsuccess, Bool.not_false, if_true]
                  exact hlater _
              | true =>
                  simp only [hsuccess, Bool.not_true, Bool.false_eq_true, if_false]
                  exact hlater _

variable {action}

theorem quiet_wsExecutor (hdry : action.dryRun = true) (baseUrl username password : String) :
    Quiet action taskId stepId history
      (wsExecutor platform answers baseUrl username password) (wsPlan platform action).isOk := by
  unfold Quiet wsExecutor effectfulExecutor wsRun
  dsimp only
  rw [run_liftPlan]
  cases wsPlan platform action with
  | error e => exact ⟨.error e, rfl, rfl⟩
  | ok planned =>
      simp only [hdry, if_true]
      exact ⟨_, rfl, rfl⟩

def ClientBuilds (platform : Platform) (apiKey : String) : Prop :=
  platform.buildClient = .ok () ∧ (platform.headerValue ("Bearer " ++ apiKey)).isOk = true

theorem httpExecutor_cases (baseUrl apiKey : String) :
    ((∃ e, httpExecutor platform answers baseUrl apiKey = .error e) ∧
      ¬ ClientBuilds platform apiKey) ∨
    (∃ authHeader, httpExecutor platform answers baseUrl apiKey =
      .ok (effectfulExecutor .middlewareApi (fun action => action.domain = "service")
        (httpRun platform answers (trimEndSlashes baseUrl) authHeader)) ∧
      ClientBuilds platform apiKey) := by
  unfold httpExecutor ClientBuilds
  cases platform.buildClient with
  | error e => exact Or.inl ⟨⟨_, rfl⟩, by simp⟩
  | ok _ =>
      cases platform.headerValue ("Bearer " ++ apiKey) with
      | error e => exact Or.inl ⟨⟨_, rfl⟩, by simp [Except.isOk, Except.toBool]⟩
      | ok authHeader => exact Or.inr ⟨authHeader, rfl, rfl, rfl⟩

theorem quiet_httpRun (hdry : action.dryRun = true) (baseUrl authHeader : String) :
    Quiet action taskId stepId history
      (effectfulExecutor .middlewareApi (fun action => action.domain = "service")
        (httpRun platform answers baseUrl authHeader)) (httpPlan platform baseUrl action).isOk := by
  unfold Quiet effectfulExecutor httpRun
  dsimp only
  rw [run_liftPlan]
  cases httpPlan platform baseUrl action with
  | error e => exact ⟨.error e, rfl, rfl⟩
  | ok planned =>
      simp only [hdry, if_true]
      exact ⟨_, rfl, rfl⟩

end Runs

section Dispatch

variable {platform : Platform} {answers : HostAnswers} {config : HarborExecutorConfig}
  {action : Action} {taskId stepId : String}
  {answer : Option (Executor (List Effect) × ExecutionResult)}
  {failures : List (Executor (List Effect) × String)} {middleware : List (Executor (List Effect))}
  {host host' : Host (List Effect)}

def MiddlewareSkipped (platform : Platform) (answers : HostAnswers)
    (config : HarborExecutorConfig) (action : Action) : Prop :=
  config.disableMiddleware = true ∨
    (config.harborUrl = none ∧ answers.forceMiddlewareError = some "1") ∨
    (config.harborUrl.isSome = true ∧ action.domain = "files" ∧
      ∃ apiKey, config.harborApiKey = some apiKey ∧ ClientBuilds platform apiKey)

def SpawnsForPreview (platform : Platform) (answers : HostAnswers)
    (config : HarborExecutorConfig) (action : Action) : Prop :=
  config.disableMidcli = false ∧ config.midcliPassthrough = true ∧
    (midcliPlan platform action).isOk = true ∧ MiddlewareSkipped platform answers config action

theorem Routed.world_of_quiet {executor : Executor (List Effect)}
    {rest : List (Executor (List Effect))} {answered : Bool}
    (hquiet : Quiet action taskId stepId host.world executor answered)
    (h : Routed action taskId stepId (executor :: rest) host failures answer host') :
    ((executor.admits action host && answered) = true → host'.world = host.world) ∧
    ((executor.admits action host && answered) = false →
      ∃ next failures answer, next.world = host.world ∧
        Routed action taskId stepId rest next failures answer host') := by
  obtain ⟨outcome, hrun, rfl⟩ := hquiet
  cases h with
  | passed hpassed hrest =>
      rw [hpassed]
      exact ⟨by simp, fun _ => ⟨host, _, _, rfl, hrest⟩⟩
  | answered hadmits hexecute =>
      simp only [Executor.execute, hrun, Prod.mk.injEq] at hexecute
      obtain ⟨rfl, rfl⟩ := hexecute
      rw [hadmits]
      exact ⟨fun _ => rfl, by simp [Except.isOk, Except.toBool]⟩
  | failed hadmits hexecute hrest =>
      simp only [Executor.execute, hrun, Prod.mk.injEq] at hexecute
      obtain ⟨rfl, rfl⟩ := hexecute
      rw [hadmits]
      refine ⟨by simp [Except.isOk, Except.toBool], fun _ => ⟨_, _, _, ?_, hrest⟩⟩
      rfl

theorem Routed.world_of_midcli (hdomain : isHarborDomain action = true)
    (h : Routed action taskId stepId (midcliExecutors platform answers config) host failures
      answer host') :
    host'.world = host.world ↔
      ¬ (config.disableMidcli = false ∧ config.midcliPassthrough = true ∧
        (midcliPlan platform action).isOk = true) := by
  unfold midcliExecutors at h
  cases hdisabled : config.disableMidcli with
  | true =>
      rw [hdisabled, if_pos rfl] at h
      cases h
      simp
  | false =>
      rw [hdisabled, if_neg (by simp)] at h
      have hrun := midcliExecutor_run platform answers action taskId stepId host.world
        config.midcliBin config.midcliPassthrough
      simp only [true_and]
      rw [← hrun]
      cases h with
      | passed hpassed _ =>
          have hadmits : (midcliExecutor platform answers config.midcliBin
              config.midcliPassthrough).admits action host = true := by
            simp [Executor.admits, midcliExecutor, effectfulExecutor, hdomain]
          rw [hadmits] at hpassed
          exact absurd hpassed (by simp)
      | answered _ hexecute =>
          simp only [Executor.execute, Prod.mk.injEq] at hexecute
          obtain ⟨-, rfl⟩ := hexecute
          rfl
      | failed _ hexecute hrest =>
          cases hrest
          simp only [Executor.execute, Prod.mk.injEq] at hexecute
          obtain ⟨-, rfl⟩ := hexecute
          rfl

/-- What the configured middleware does with a preview: it is misconfigured, or absent, or
one quiet executor that answers unless it is skipped. -/
theorem middlewareExecutors_cases (platform : Platform) (answers : HostAnswers)
    (config : HarborExecutorConfig) (taskId stepId : String) (hdry : action.dryRun = true)
    (hdomain : action.domain = "service" ∨ action.domain = "files") (history : List Effect) :
    ((∃ e, middlewareExecutors platform answers config = .error e) ∧
      ¬ MiddlewareSkipped platform answers config action) ∨
    (middlewareExecutors platform answers config = .ok [] ∧
      MiddlewareSkipped platform answers config action) ∨
    ∃ executor answered, middlewareExecutors platform answers config = .ok [executor] ∧
      executor.route = .middlewareApi ∧
      Quiet action taskId stepId history executor answered ∧
      ((midcliPlan platform action).isOk = true →
        ((executor.supports action history && executor.isAvailable history && answered) = true ↔
          ¬ MiddlewareSkipped platform answers config action)) := by
  have hharbor : isHarborDomain action = true := by simpa [isHarborDomain] using hdomain
  unfold middlewareExecutors
  cases hdisabled : config.disableMiddleware with
  | true => exact Or.inr (Or.inl ⟨rfl, Or.inl hdisabled⟩)
  | false =>
      rw [if_neg (by simp)]
      cases hurl : config.harborUrl with
      | none =>
          refine Or.inr (Or.inr ⟨_, _, rfl, rfl, quiet_middlewareExecutor platform answers action
            taskId stepId history, ?_⟩)
          intro hplan
          rw [isOk_middlewarePlan, hplan]
          simp [MiddlewareSkipped, hdisabled, hurl, middlewareExecutor, effectfulExecutor, hharbor]
      | some url =>
          dsimp only
          cases hkey : config.harborApiKey with
          | some apiKey =>
              dsimp only
              rcases httpExecutor_cases platform answers url apiKey with
                ⟨⟨e, hhttp⟩, hclient⟩ | ⟨authHeader, hhttp, hclient⟩
              · refine Or.inl ⟨⟨e, by rw [hhttp]; rfl⟩, ?_⟩
                simp [MiddlewareSkipped, hdisabled, hurl, hkey, hclient]
              · refine Or.inr (Or.inr ⟨_, _, by rw [hhttp]; rfl, rfl, quiet_httpRun platform
                  answers taskId stepId history hdry _ authHeader, ?_⟩)
                intro hplan
                rcases hdomain with hservice | hfiles
                · rw [isOk_httpPlan platform _ action hservice, hplan]
                  simp [MiddlewareSkipped, hdisabled, hurl, hservice, effectfulExecutor]
                · simp [MiddlewareSkipped, hurl, hkey, hclient, hfiles, effectfulExecutor]
          | none =>
              dsimp only
              split
              · refine Or.inr (Or.inr ⟨_, _, rfl, rfl, quiet_wsExecutor platform answers
                  taskId stepId history hdry _ _ _, ?_⟩)
                intro hplan
                rw [isOk_wsPlan, hplan]
                simp [MiddlewareSkipped, hdisabled, hurl, hkey, wsExecutor, effectfulExecutor,
                  hharbor]
              · refine Or.inl ⟨⟨_, rfl⟩, ?_⟩
                simp [MiddlewareSkipped, hdisabled, hurl, hkey]

theorem candidates_harbor (platform : Platform) (answers : HostAnswers)
    (config : HarborExecutorConfig) (hdomain : action.domain = "service" ∨ action.domain = "files")
    (hmiddleware : ∀ executor ∈ middleware, executor.route = .middlewareApi) :
    candidates (middleware ++ midcliExecutors platform answers config) action =
      middleware ++ midcliExecutors platform answers config := by
  have hroutes : allowedRoutes action = [.middlewareApi, .midcli] := by
    rw [allowedRoutes, if_pos hdomain]
    decide
  have hmidcli : ∀ executor ∈ midcliExecutors platform answers config,
      executor.route = .midcli := by
    intro executor hexecutor
    unfold midcliExecutors at hexecutor
    split_ifs at hexecutor
    · simp at hexecutor
    · obtain rfl := List.mem_singleton.mp hexecutor
      rfl
  have hfirst : (midcliExecutors platform answers config).filter
      (fun executor => executor.route = .middlewareApi) = [] := by
    rw [List.filter_eq_nil_iff]
    intro executor hexecutor
    simp [hmidcli executor hexecutor]
  have hsecond : middleware.filter (fun executor => executor.route = .midcli) = [] := by
    rw [List.filter_eq_nil_iff]
    intro executor hexecutor
    simp [hmiddleware executor hexecutor]
  have hmiddlewareAll : middleware.filter (fun executor => executor.route = .middlewareApi) =
      middleware := by
    rw [List.filter_eq_self]
    intro executor hexecutor
    simp [hmiddleware executor hexecutor]
  have hmidcliAll : (midcliExecutors platform answers config).filter
      (fun executor => executor.route = .midcli) = midcliExecutors platform answers config := by
    rw [List.filter_eq_self]
    intro executor hexecutor
    simp [hmidcli executor hexecutor]
  simp only [candidates, hroutes, List.flatMap_cons, List.flatMap_nil, List.filter_append, hfirst,
    hsecond, hmiddlewareAll, hmidcliAll, List.append_nil, List.nil_append]

theorem dispatch_routed (answers : HostAnswers) (config : HarborExecutorConfig)
    (draws : DispatchDraws) (request : TaskRequest)
    (hdomain : action.domain = "service" ∨ action.domain = "files") (history : List Effect)
    (hregister : middlewareExecutors platform answers config = .ok middleware)
    (hmiddleware : ∀ executor ∈ middleware, executor.route = .middlewareApi) :
    ∃ failures answer host',
      Routed action request.taskId (stepIdForRequest request)
        (middleware ++ midcliExecutors platform answers config)
        { world := history, calls := [] } failures answer host' ∧
      (dispatchHarborAction platform answers config draws request action history).2 =
        host'.world := by
  have hrouter : registerHarborExecutors platform answers Router.new config =
      .ok (Router.ofExecutors (middleware ++ midcliExecutors platform answers config)) := by
    unfold registerHarborExecutors
    rw [hregister]
    rfl
  obtain ⟨failures, answer, hchain, -⟩ := execute_routed action request.taskId
    (stepIdForRequest request)
    (Router.ofExecutors (middleware ++ midcliExecutors platform answers config))
    { world := history, calls := [] }
  rw [executorsOn_ofExecutors, candidates_harbor platform answers config hdomain hmiddleware]
    at hchain
  refine ⟨failures, answer, _, hchain, ?_⟩
  unfold dispatchHarborAction
  rw [hrouter]

/-- The dispatch of a preview leaves the host alone exactly when midcli spawns nothing. -/
theorem dispatch_quiet_iff (platform : Platform) (answers : HostAnswers)
    (config : HarborExecutorConfig) (draws : DispatchDraws) (request : TaskRequest)
    (hdry : action.dryRun = true)
    (hdomain : action.domain = "service" ∨ action.domain = "files") (history : List Effect) :
    (dispatchHarborAction platform answers config draws request action history).2 = history ↔
      ¬ SpawnsForPreview platform answers config action := by
  have hharbor : isHarborDomain action = true := by simpa [isHarborDomain] using hdomain
  rcases middlewareExecutors_cases platform answers config request.taskId
    (stepIdForRequest request) hdry hdomain history with
    ⟨⟨e, herror⟩, hskipped⟩ | ⟨hnone, hskipped⟩ |
      ⟨executor, answered, hone, hroute, hquiet, hanswers⟩
  · have hrouter : registerHarborExecutors platform answers Router.new config = .error e := by
      unfold registerHarborExecutors
      rw [herror]
      rfl
    simp [dispatchHarborAction, hrouter, SpawnsForPreview, hskipped]
  · obtain ⟨failures, answer, host', hchain, hworld⟩ :=
      dispatch_routed answers config draws request hdomain history hnone (by simp)
    rw [hworld, Routed.world_of_midcli hharbor hchain]
    simp [SpawnsForPreview, hskipped]
  · obtain ⟨failures, answer, host', hchain, hworld⟩ :=
      dispatch_routed answers config draws request hdomain history hone (by simp [hroute])
    obtain ⟨hstops, hgoes⟩ := Routed.world_of_quiet hquiet hchain
    rw [hworld]
    cases hadmits : executor.admits action { world := history, calls := [] } && answered with
    | true =>
        -- the executor of the middleware answers, so midcli is not reached
        refine iff_of_true (hstops hadmits) ?_
        rintro ⟨-, -, hplan, hskipped⟩
        exact (hanswers hplan).mp hadmits hskipped
    | false =>
        obtain ⟨next, failures', answer', hnext, hrest⟩ := hgoes hadmits
        have hmidcli := Routed.world_of_midcli hharbor hrest
        rw [hnext] at hmidcli
        rw [hmidcli]
        have hskipped : (midcliPlan platform action).isOk = true →
            MiddlewareSkipped platform answers config action := by
          intro hplan
          by_contra hreached
          have := (hanswers hplan).mpr hreached
          exact absurd (hadmits.symm.trans this) (by simp)
        unfold SpawnsForPreview
        constructor
        · rintro hquiet ⟨henabled, hpassthrough, hplan, -⟩
          exact hquiet ⟨henabled, hpassthrough, hplan⟩
        · rintro hnever ⟨henabled, hpassthrough, hplan⟩
          exact hnever ⟨henabled, hpassthrough, hplan, hskipped hplan⟩

end Dispatch

/-- A request for a preview has no effect outside the process exactly when it is not one
whose action is built, passes the gate and reaches midcli with its commands passed through. -/
theorem preview_quiet_iff (platform : Platform) (answers : HostAnswers)
    (config : HarborExecutorConfig) (gateDraws : GateDraws) (draws : DispatchDraws)
    (request : TaskRequest) (history : List Effect) (file : TaskConversationFile)
    (hpreview : requestPreviewFlag request = true) :
    ((handleHarborSystemAction platform answers config gateDraws draws request history).exec
        file).result.2 = history ↔
      ¬ ∃ action, buildHarborActionFromRequest request = .ok action ∧
        GateAllows file request action ∧ SpawnsForPreview platform answers config action := by
  unfold handleHarborSystemAction
  cases haction : buildHarborActionFromRequest request with
  | error e => simp
  | ok action =>
      obtain ⟨hdomain, hdry⟩ := buildHarborActionFromRequest_spec haction
      rw [hpreview] at hdry
      have hgate := ensureActionAllowed_ok_iff request action "harboros_router" gateDraws file
      simp only [exec_bind, Outcome.andThen, Except.ok.injEq, exists_eq_left']
      cases hresult : ((ensureActionAllowed request action "harboros_router" gateDraws).exec
        file).result with
      | error response =>
          rw [hresult] at hgate
          have hrefused : ¬ GateAllows file request action := by
            intro hallows
            exact absurd (hgate.mpr hallows) (by simp)
          simp [hrefused]
      | ok _ =>
          have hallows := hgate.mp hresult
          simp only [exec_pure, hallows, true_and]
          exact dispatch_quiet_iff platform answers config draws request hdry hdomain history

def previewStatus : TaskRequest where
  taskId := "task-1"
  intent := { domain := "service", action := "status" }
  args := obj [("service_name", string "ssh"), ("dry_run", .bool true)]

def obligingHost : HostAnswers where
  httpSend := fun _ => .ok { status := 200, text := "" }
  wsConnect := fun _ => .ok ()
  wsSend := fun _ => .ok ()
  wsRead := fun _ => .ok ""
  spawn := fun _ => .ok { success := true, stdout := "running", stderr := "" }
  elapsedMs := fun _ => 1
  forceMiddlewareError := none

theorem previewDraw_not_blank : isBlank "preview-draw" = false := by
  decide

def drawnUuid : Uuid := ⟨"preview-draw", previewDraw_not_blank⟩

def plainGateDraws : GateDraws where
  approvalId := drawnUuid
  eventId := drawnUuid
  auditRef := "ref"
  requestedAt := "1"
  eventAt := "1"
  decidedAt := "1"

def plainDispatchDraws : DispatchDraws where
  eventId := drawnUuid
  eventAt := "1"
  auditRef := "ref"

/-- With the middleware disabled and midcli passing its commands through, the preview of a
service status runs the command. -/
theorem preview_spawns_command :
    requestPreviewFlag previewStatus = true ∧
      ((handleHarborSystemAction FilePlanners.plainPlatform obligingHost
        { disableMiddleware := true, midcliPassthrough := true } plainGateDraws
        plainDispatchDraws previewStatus []).exec {}).result.2 =
          [.spawn "midcli" ["service", "ssh", "show"]] := by
  decide +kernel

theorem preview_quiet_without_passthrough :
    requestPreviewFlag previewStatus = true ∧
      (((handleHarborSystemAction FilePlanners.plainPlatform obligingHost
        { disableMiddleware := true } plainGateDraws plainDispatchDraws previewStatus []).exec
          {}).result.2 = [] ↔
        ¬ ∃ action, buildHarborActionFromRequest previewStatus = .ok action ∧
          GateAllows {} previewStatus action ∧
          SpawnsForPreview FilePlanners.plainPlatform obligingHost { disableMiddleware := true }
            action) :=
  ⟨by decide +kernel, preview_quiet_iff _ _ _ _ _ _ _ _ (by decide +kernel)⟩

end HarborBeacon.HarborPreview
