import HarborBeacon.TaskTracking

/-!
The task API service over the conversation store: the approval gate, the handling of a
task, and the decisions on approval tickets. What a handler does beside the store (the
camera hub, the language models, the HarborOS router) decides which tree of store
operations it is; a tree can reach the store only through the operations that the
handlers of the service use.
-/

namespace HarborBeacon.TaskApi

open ControlPlane ConversationState FileProgram Json Json.Value Policy TaskContract TaskSession
open TaskTracking Text

/-- What is observed of the service. -/
inductive ApiEvent where
  | taskStarted (request : TaskRequest)
  | approvalIdDrawn (approvalId : String)
  | ticketSaved (ticket : ApprovalTicket)
  | ticketsApproved (taskId : String)
  | ticketRejected (approvalId : String)
  | actionAllowed (request : TaskRequest) (action : Action)
deriving DecidableEq

abbrev Service := FileProgram TaskConversationFile ApiEvent

def failedWithContext (request : TaskRequest) (executorUsed : String) (riskLevel : RiskLevel)
    (message : String) (data : Value) (events : List Value) (auditRef : String) :
    TaskResponse where
  taskId := request.taskId
  traceId := request.traceId
  status := .failed
  executorUsed := executorUsed
  riskLevel := riskLevel
  result := { message, data, events }
  auditRef := auditRef
  missingFields := []
  prompt := none
  resumeToken := none

def failed (request : TaskRequest) (executorUsed : String) (riskLevel : RiskLevel)
    (message : String) (auditRef : String) : TaskResponse :=
  failedWithContext request executorUsed riskLevel message .null [] auditRef

def needsInputWithContext (request : TaskRequest) (executorUsed : String)
    (riskLevel : RiskLevel) (prompt : String) (missingFields : List String)
    (resumeToken : String) (data : Value) (events : List Value) (nextActions : List String)
    (auditRef : String) : TaskResponse where
  taskId := request.taskId
  traceId := request.traceId
  status := .needsInput
  executorUsed := executorUsed
  riskLevel := riskLevel
  result := { message := prompt, data, events, nextActions }
  auditRef := auditRef
  missingFields := missingFields
  prompt := some prompt
  resumeToken := some resumeToken

def policyRef (action : Action) : String :=
  action.domain ++ "." ++ action.operation

structure GateDraws where
  approvalId : Uuid
  eventId : Uuid
  auditRef : String
  requestedAt : String
  eventAt : String
  decidedAt : String

def autonomyBlockedResponse (request : TaskRequest) (action : Action) (executorUsed : String)
    (draws : GateDraws) : TaskResponse :=
  let label := autonomyLevelLabel (effectiveAutonomyLevel request)
  let event := buildTaskEventRecord request (stepIdForRequest request)
    "task.autonomy_blocked" .warning
    (obj
      [("executor_used", string executorUsed),
       ("autonomy_level", string label),
       ("policy_ref", string (policyRef action)),
       ("risk_level", riskLevelValue (effectiveRiskLevel action))])
    draws.eventId draws.eventAt
  failedWithContext request executorUsed (effectiveRiskLevel action)
    ("当前任务处于 " ++ label ++ " 模式，无法执行需要写入或变更的操作。")
    (obj
      [("error", string "AUTONOMY_BLOCKED"),
       ("autonomy_level", string label),
       ("policy_ref", string (policyRef action))])
    [event.encode] draws.auditRef

def violationTicket (request : TaskRequest) (action : Action) (violation : PolicyViolation)
    (approvalId requestedAt : String) : ApprovalTicket where
  approvalId := approvalId
  taskId := request.taskId
  traceId := request.traceId
  routeKey := request.source.routeKey
  policyRef := policyRef action
  requesterUserId := request.source.userId
  approverUserId := none
  status := .pending
  reason := violation.message
  requestedAt := some requestedAt
  decidedAt := none

def approvalRequiredResponse (request : TaskRequest) (action : Action) (executorUsed : String)
    (violation : PolicyViolation) (ticket : ApprovalTicket) (draws : GateDraws) :
    TaskResponse :=
  let event := buildTaskEventRecord request (stepIdForRequest request)
    "task.approval_required" .warning
    (obj
      [("executor_used", string executorUsed),
       ("policy_violation", obj
         [("code", string violation.code), ("message", string violation.message)]),
       ("approval_ticket", encodeApprovalTicket ticket)])
    draws.eventId draws.eventAt
  needsInputWithContext request executorUsed action.riskLevel
    "这个操作需要审批，请带 approval_token 重新提交。" ["approval_token"]
    ticket.approvalId
    (obj
      [("approval_ticket", encodeApprovalTicket ticket),
       ("policy_ref", string (policyRef action))])
    [event.encode] ["approval_token " ++ ticket.approvalId] draws.auditRef

def ticketId (pendingApproval : Option ApprovalTicket) (draws : GateDraws) : Service String :=
  match pendingApproval with
  | some approval => pure approval.approvalId
  | none => do
      report (.approvalIdDrawn draws.approvalId.text)
      return draws.approvalId.text

def saveTicket (ticket : ApprovalTicket) : Service Unit := do
  match ← (saveApproval ticket).run with
  | .ok () => report (.ticketSaved ticket)
  | .error _ => pure ()

def resolveTickets (request : TaskRequest) (decidedAt : String) : Service Unit := do
  let _ ← (resolvePendingApprovals request.taskId (requestApproverId request)
    (some decidedAt)).run
  report (.ticketsApproved request.taskId)

def ensureActionAllowed (request : TaskRequest) (action : Action) (executorUsed : String)
    (draws : GateDraws) : Service (Except TaskResponse Unit) := do
  if !riskAllowed (effectiveAutonomyLevel request) (effectiveRiskLevel action) then
    return .error (autonomyBlockedResponse request action executorUsed draws)
  let approvalTickets ← (approvalsForTask request.taskId).run
  let pendingApproval :=
    (approvalTickets.toOption.getD []).find? fun approval => approval.status = .pending
  match enforce action (approvalContextForRequest request pendingApproval) with
  | .error violation =>
      let approvalId ← ticketId pendingApproval draws
      let ticket := violationTicket request action violation approvalId draws.requestedAt
      saveTicket ticket
      return .error
        (approvalRequiredResponse request action executorUsed violation ticket draws)
  | .ok () =>
      report (.actionAllowed request action)
      if (actionRequiresApproval action || pendingApproval.isSome) &&
          (requestApprovalToken request).isSome then
        resolveTickets request draws.decidedAt
      return .ok ()

/-- A handler as the tree of its store operations. The request that it passes to the gate
differs from its own in the intent and the arguments only. -/
inductive Handler where
  | respond (response : TaskResponse)
  | inspect (next : TaskConversationFile → Handler)
  | gate (intent : TaskIntent) (args : Value) (action : Action) (executorUsed : String)
      (draws : GateDraws) (next : Except TaskResponse Unit → Handler)
  | saveConversation (state : TaskConversationState) (next : Except String Unit → Handler)
  | saveMediaAsset (mediaAsset : MediaAsset) (next : Except String Unit → Handler)
  | saveShareLinkBundle (mediaSession : MediaSession) (shareLink : ShareLink)
      (next : Except String Unit → Handler)

def saveConversation {ε : Type} (request : TaskRequest) (conversation : TaskConversationState) :
    Store ε Unit := do
  let sessionId := conversationHandleForRequest request
  let session ← loadSession sessionId
  saveForSession (session.getD (newSession request sessionId)) conversation

def Handler.program (request : TaskRequest) : Handler → Service TaskResponse
  | respond response => pure response
  | inspect next => do
      let file ← FileProgram.read id
      (next file).program request
  | gate intent args action executorUsed draws next => do
      let allowed ← ensureActionAllowed { request with intent := intent, args := args } action
        executorUsed draws
      (next allowed).program request
  | saveConversation state next => do
      let saved ← (TaskApi.saveConversation request state).run
      (next saved).program request
  | saveMediaAsset mediaAsset next => do
      let saved ← (TaskSession.saveMediaAsset mediaAsset).run
      (next saved).program request
  | saveShareLinkBundle mediaSession shareLink next => do
      let saved ← (TaskSession.saveShareLinkBundle mediaSession shareLink).run
      (next saved).program request

def serviceNamePaths : List (List String) :=
  [["service_name"], ["resource", "service_name"], ["service", "name"],
   ["service", "id_or_name"], ["service"], ["resource", "id_or_name"], ["resource", "name"],
   ["id_or_name"], ["name"]]

def requestFlag (request : TaskRequest) (paths : List (List String)) (fallback : Bool) : Bool :=
  ((boolAtPaths request.args paths).or (boolAtPaths request.entityRefs paths)).getD fallback

def requestPreviewFlag (request : TaskRequest) : Bool :=
  requestFlag request
    [["dry_run"], ["preview"], ["resource", "dry_run"], ["resource", "preview"]] false

def buildHarborServiceAction (request : TaskRequest) (operation : String) :
    Except String Action :=
  match firstString [request.args, request.entityRefs] serviceNamePaths with
  | none => .error "service action requires service_name or resource.id_or_name"
  | some serviceName =>
      let args :=
        if operation = "enable" then
          obj [("enable", .bool (requestFlag request [["enable"], ["resource", "enable"]] true))]
        else obj []
      .ok (applyGovernanceDefaults
        { domain := "service"
          operation := operation
          resource := obj [("service_name", string serviceName)]
          args := args
          riskLevel := .low
          requiresApproval := requestRequiresApproval request
          dryRun := requestPreviewFlag request })

def filesPathPaths : List (List String) :=
  [["path"], ["resource", "path"], ["paths", "0"], ["resource", "paths", "0"], ["source"],
   ["resource", "source"], ["src"], ["resource", "src"]]

def filesSourcePaths : List (List String) :=
  [["source"], ["resource", "source"], ["src"], ["resource", "src"], ["paths", "0"],
   ["resource", "paths", "0"], ["path"], ["resource", "path"]]

def filesTargetPaths : List (List String) :=
  [["target"], ["resource", "target"], ["destination"], ["resource", "destination"], ["dst"],
   ["resource", "dst"], ["paths", "1"], ["resource", "paths", "1"]]

def buildHarborFilesResource (request : TaskRequest) (operation : String) :
    Except String Value :=
  let values := [request.args, request.entityRefs]
  match operation with
  | "list" =>
      match firstString values filesPathPaths with
      | none => .error "files.list requires path or resource.path"
      | some path => .ok (obj [("path", string path), ("paths", ofStrings [path])])
  | "copy" | "move" =>
      match firstString values filesSourcePaths, firstString values filesTargetPaths with
      | none, _ => .error "files action requires source or resource.paths[0]"
      | some _, none => .error "files action requires target or resource.destination"
      | some source, some target =>
          .ok (obj
            [("source", string source), ("target", string target),
             ("paths", ofStrings [source])])
  | _ => .error ("unsupported HarborOS files operation: " ++ operation)

def buildHarborFilesAction (request : TaskRequest) (operation : String) :
    Except String Action := do
  let recursive := requestFlag request [["recursive"], ["resource", "recursive"]] false
  let overwrite := requestFlag request [["overwrite"], ["resource", "overwrite"]] false
  let maxBytesPaths := [["max_bytes"], ["resource", "max_bytes"]]
  let maxBytes :=
    (u64AtPaths request.args maxBytesPaths).or (u64AtPaths request.entityRefs maxBytesPaths)
  let resource ← buildHarborFilesResource request operation
  return applyGovernanceDefaults
    { domain := "files"
      operation := operation
      resource := resource
      args := structObj
        [("recursive", if recursive then some (.bool true) else none),
         ("overwrite", if overwrite then some (.bool true) else none),
         ("max_bytes", maxBytes.map fun n => .number (.unsigned n))]
      riskLevel := .low
      requiresApproval := requestRequiresApproval request
      dryRun := requestPreviewFlag request }

def buildHarborActionFromRequest (request : TaskRequest) : Except String Action :=
  let domain := toLowercase (trim request.intent.domain)
  let operation := toLowercase (trim request.intent.action)
  match domain with
  | "service" => buildHarborServiceAction request operation
  | "files" => buildHarborFilesAction request operation
  | _ => .error ("unsupported HarborOS task action: " ++ domain ++ "." ++ operation)

def isSupportedHarborTask (domain action : String) : Bool :=
  (domain = "service" ∧ action ∈ ["status", "start", "stop", "restart", "enable"]) ∨
    (domain = "files" ∧ action ∈ ["list", "copy", "move"])

/-- The handlers of the service, for one state of what surrounds it: the answer of the
HarborOS router comes from outside, and so does the course of the other handlers. -/
structure TaskHandlers where
  knowledgeSearch : TaskRequest → Handler
  ragAnswer : TaskRequest → Handler
  generalMessage : TaskRequest → Handler
  cameraScan : TaskRequest → Handler
  cameraConnect : TaskRequest → Handler
  cameraSnapshot : TaskRequest → Handler
  cameraShareLink : TaskRequest → Handler
  cameraAnalyze : TaskRequest → Handler
  executeHarborAction : TaskRequest → Action → TaskResponse
  draws : GateDraws

def TaskHandlers.harborSystemAction (handlers : TaskHandlers) (request : TaskRequest) :
    Handler :=
  match buildHarborActionFromRequest request with
  | .error message =>
      .respond (failed request "harboros_router" (expectedRiskLevel request) message
        handlers.draws.auditRef)
  | .ok action =>
      .gate request.intent request.args action "harboros_router" handlers.draws fun allowed =>
        match allowed with
        | .error response => .respond response
        | .ok () => .respond (handlers.executeHarborAction request action)

def TaskHandlers.dispatch (handlers : TaskHandlers) (request : TaskRequest) : Handler :=
  let domain := toLowercase (trim request.intent.domain)
  let action := toLowercase (trim request.intent.action)
  if domain = "knowledge" ∧ action = "search" then handlers.knowledgeSearch request
  else if (domain = "rag" ∧ action = "answer") ∨ action = "rag.answer" then
    handlers.ragAnswer request
  else if domain = "general" ∧ action = "message" then handlers.generalMessage request
  else if isSupportedHarborTask domain action then handlers.harborSystemAction request
  else if domain = "camera" ∧ action = "scan" then handlers.cameraScan request
  else if domain = "camera" ∧ action = "connect" then handlers.cameraConnect request
  else if domain = "camera" ∧ action = "snapshot" then handlers.cameraSnapshot request
  else if domain = "camera" ∧ (action = "share_link" ∨ action = "live_view") then
    handlers.cameraShareLink request
  else if domain = "camera" ∧ action = "analyze" then handlers.cameraAnalyze request
  else
    .respond (failed request "task_api" .low
      ("unsupported task action: " ++ domain ++ "." ++ action) handlers.draws.auditRef)

structure TaskDraws where
  taskId : Uuid
  startedAt : String
  lifecycleEventId : Uuid
  lifecycleAt : String
  finishedAt : String
  eventNow : Nat → String

def prepareRequest (request : TaskRequest) (taskId : Uuid) : TaskRequest :=
  let request :=
    if isBlank request.taskId then { request with taskId := taskId.text } else request
  if isBlank request.traceId then { request with traceId := request.taskId } else request

def lifecycleEvent : TaskStatus → String × EventSeverity
  | .completed => ("task.completed", .info)
  | .needsInput => ("task.needs_input", .warning)
  | .failed => ("task.failed", .error)

def appendTaskLifecycleEvent (request : TaskRequest) (tracking : TaskRuntimeTracking)
    (draws : TaskDraws) (response : TaskResponse) : TaskResponse :=
  let event := buildTaskEventRecord request tracking.stepId (lifecycleEvent response.status).1
    (lifecycleEvent response.status).2
    (obj
      [("executor_used", string response.executorUsed),
       ("risk_level", riskLevelValue response.riskLevel),
       ("message", string response.result.message),
       ("missing_fields", ofStrings response.missingFields),
       ("continuation_token", ofOption response.resumeToken),
       ("audit_ref", string response.auditRef)])
    draws.lifecycleEventId draws.lifecycleAt
  { response with
    result := { response.result with events := response.result.events ++ [event.encode] } }

def handlePrepared (handlers : TaskHandlers) (draws : TaskDraws) (request : TaskRequest) :
    Service TaskResponse := do
  report (.taskStarted request)
  let tracking ← beginTaskTracking request draws.startedAt
  let response ← (handlers.dispatch request).program request
  let response := appendTaskLifecycleEvent request tracking draws response
  let _ ← (finishTaskTracking request response tracking draws.finishedAt draws.eventNow).run
  return response

def handleTask (handlers : TaskHandlers) (draws : TaskDraws) (request : TaskRequest) :
    Service TaskResponse :=
  handlePrepared handlers draws (prepareRequest request draws.taskId)

structure TaskApprovalSummary where
  approvalTicket : ApprovalTicket
  sourceChannel : String
  surface : String
  conversationId : String
  userId : String
  sessionId : String
  domain : String
  action : String
  intentText : String
  autonomyLevel : String
  riskLevel : RiskLevel
deriving DecidableEq

def surfaceOf (taskRun : TaskRun) (session : Option ConversationSession) : String :=
  match session with
  | some session => session.surface
  | none => ((taskRun.metadata.pointer ["surface"]).bind asStr).getD "task_api"

def buildApprovalSummary (approval : ApprovalTicket) (taskRun : TaskRun)
    (session : Option ConversationSession) : TaskApprovalSummary where
  approvalTicket := approval
  sourceChannel := taskRun.sourceChannel
  surface := surfaceOf taskRun session
  conversationId := (session.map (·.conversationId)).getD ""
  userId := (session.map (·.userId)).getD approval.requesterUserId
  sessionId := taskRun.sessionId
  domain := taskRun.domain
  action := taskRun.action
  intentText := taskRun.intentText
  autonomyLevel := normalizeTaskAutonomyLevel taskRun.autonomyLevel
  riskLevel := taskRun.riskLevel

def loadTaskContext {ε : Type} (approval : ApprovalTicket) :
    Store ε (TaskRun × Option ConversationSession) := do
  match ← loadTaskRun approval.taskId with
  | none => throw ("task run not found for approval: " ++ approval.taskId)
  | some taskRun =>
      let session ← if isBlank taskRun.sessionId then pure none
        else loadSession taskRun.sessionId
      return (taskRun, session)

def loadApprovalContext {ε : Type} (approvalId : String) :
    Store ε (ApprovalTicket × TaskRun × Option ConversationSession) := do
  match ← loadApproval approvalId with
  | none => throw ("approval not found: " ++ approvalId)
  | some approval =>
      let (taskRun, session) ← loadTaskContext approval
      return (approval, taskRun, session)

def loadApprovalSummary {ε : Type} (approval : ApprovalTicket) :
    Store ε TaskApprovalSummary := do
  let (taskRun, session) ← loadTaskContext approval
  return buildApprovalSummary approval taskRun session

def pendingApprovals {ε : Type} : Store ε (List TaskApprovalSummary) := do
  let approvals ← TaskSession.pendingApprovals
  approvals.mapM loadApprovalSummary

def injectApprovalArgs (args : Value) (approvalId : String) (approverUserId : Option String) :
    Value :=
  let fields :=
    match args with
    | .object fields => fields
    | _ => []
  let entry :=
    match lookupField "approval" fields with
    | some (.object entry) => entry
    | _ => []
  let entry := insertField "token" (string approvalId) entry
  let entry :=
    match approverUserId with
    | some approverUserId => insertField "approver_id" (string approverUserId) entry
    | none => entry
  .object (insertField "approval" (.object entry) fields)

def approvalResumeStepId (approvalId : String) : String :=
  "approval:" ++ approvalId ++ ":resume"

def approvalEventStepId (approvalId : String) : String :=
  "approval:" ++ approvalId ++ ":event"

def sourceRouteKeyFromContext (taskRun : TaskRun) (session : Option ConversationSession) :
    String :=
  (((session.map fun session => trim session.routeKey).filter (· ≠ "")).or
    ((((taskRun.metadata.pointer ["route_key"]).bind asStr).map trim).filter (· ≠ ""))).getD ""

def storedSource (approval : ApprovalTicket) (taskRun : TaskRun)
    (session : Option ConversationSession) (surface : String) : TaskSource where
  channel := taskRun.sourceChannel
  surface := surface
  conversationId := (session.map (·.conversationId)).getD ""
  userId := (session.map (·.userId)).getD approval.requesterUserId
  sessionId := taskRun.sessionId
  routeKey := sourceRouteKeyFromContext taskRun session

def buildApprovalResumeRequest (approval : ApprovalTicket) (taskRun : TaskRun)
    (session : Option ConversationSession) (approverUserId : Option String) : TaskRequest where
  taskId := taskRun.taskId
  traceId := (metadataId taskRun "trace_id").getD taskRun.taskId
  stepId := approvalResumeStepId approval.approvalId
  source := storedSource approval taskRun session
    ((((session.map fun session => trim session.surface).filter (· ≠ "")).or
      ((((taskRun.metadata.pointer ["surface"]).bind asStr).map trim).filter (· ≠ ""))).getD
        "task_api")
  intent := { domain := taskRun.domain, action := taskRun.action, rawText := taskRun.intentText }
  entityRefs := taskRun.entityRefs
  args := injectApprovalArgs taskRun.args approval.approvalId approverUserId
  autonomyLevel := normalizeTaskAutonomyLevel taskRun.autonomyLevel
  message := none

def recordApprovalDecisionEvent {ε : Type} (approval : ApprovalTicket) (taskRun : TaskRun)
    (session : Option ConversationSession) (eventType : String) (severity : EventSeverity)
    (approverUserId : Option String) (eventId : Uuid) (now : String) : Store ε Unit :=
  let stepId := approvalEventStepId approval.approvalId
  let request : TaskRequest :=
    { taskId := taskRun.taskId
      traceId := ((taskRun.metadata.pointer ["trace_id"]).bind asStr).getD taskRun.taskId
      stepId := stepId
      source := storedSource approval taskRun session (surfaceOf taskRun session)
      intent :=
        { domain := taskRun.domain, action := taskRun.action, rawText := taskRun.intentText }
      entityRefs := taskRun.entityRefs
      args := taskRun.args
      autonomyLevel := normalizeTaskAutonomyLevel taskRun.autonomyLevel }
  let event := buildTaskEventRecord request stepId eventType severity
    (obj
      [("approval_ticket", encodeApprovalTicket approval),
       ("approver_user_id", ofOption approverUserId),
       ("policy_ref", string approval.policyRef)])
    eventId now
  replaceEventsForStep taskRun.taskId (some stepId) [event]

structure DecisionDraws where
  eventId : Uuid
  eventAt : String
  decidedAt : String

def notPending (approval : ApprovalTicket) : String :=
  "approval is not pending: " ++ approval.approvalId

/-- The part of `approve_pending_approval` after the check of the status. -/
def resumeApproved (handlers : TaskHandlers) (taskDraws : TaskDraws) (draws : DecisionDraws)
    (approvalId : String) (approverUserId : Option String) (approval : ApprovalTicket)
    (taskRun : TaskRun) (session : Option ConversationSession) :
    Store ApiEvent (TaskApprovalSummary × TaskResponse) := do
  let response ← ExceptT.lift (handleTask handlers taskDraws
    (buildApprovalResumeRequest approval taskRun session approverUserId))
  let stored ← loadApproval approvalId
  let updatedApproval := stored.getD approval
  recordApprovalDecisionEvent updatedApproval taskRun session "task.approval_approved" .info
    approverUserId draws.eventId draws.eventAt
  let summary ← loadApprovalSummary updatedApproval
  return (summary, response)

def approvePendingApproval (handlers : TaskHandlers) (taskDraws : TaskDraws)
    (draws : DecisionDraws) (approvalId : String) (approverUserId : Option String) :
    Store ApiEvent (TaskApprovalSummary × TaskResponse) := do
  let (approval, taskRun, session) ← loadApprovalContext approvalId
  if approval.status ≠ .pending then throw (notPending approval)
  else resumeApproved handlers taskDraws draws approvalId approverUserId approval taskRun session

/-- A rejected task has nothing to resume. -/
def clearResumeToken {ε : Type} : Option ConversationSession → Store ε Unit
  | some session => saveSession { session with resumeToken := none }
  | none => pure ()

def closeRejected (draws : DecisionDraws) (approverUserId : Option String)
    (updatedApproval : ApprovalTicket) (taskRun : TaskRun)
    (session : Option ConversationSession) : Store ApiEvent TaskApprovalSummary := do
  let taskRun := { taskRun with status := .failed, completedAt := some draws.decidedAt }
  saveTaskRun taskRun
  clearResumeToken session
  recordApprovalDecisionEvent updatedApproval taskRun session "task.approval_rejected"
    .warning approverUserId draws.eventId draws.eventAt
  loadApprovalSummary updatedApproval

def markRejected (draws : DecisionDraws) (approvalId : String)
    (approverUserId : Option String) : Store ApiEvent ApprovalTicket := do
  match ← updateApprovalStatus approvalId .rejected approverUserId (some draws.decidedAt) with
  | none => throw ("approval not found: " ++ approvalId)
  | some updatedApproval =>
      ExceptT.lift (report (.ticketRejected approvalId))
      return updatedApproval

def rejectPendingApproval (draws : DecisionDraws) (approvalId : String)
    (approverUserId : Option String) : Store ApiEvent TaskApprovalSummary := do
  let (approval, taskRun, session) ← loadApprovalContext approvalId
  if approval.status ≠ .pending then throw (notPending approval)
  else do
    let updatedApproval ← markRejected draws approvalId approverUserId
    closeRejected draws approverUserId updatedApproval taskRun session

/-- A call that reaches the store of the service. -/
inductive Call where
  | handleTask (handlers : TaskHandlers) (draws : TaskDraws) (request : TaskRequest)
  | approvePendingApproval (handlers : TaskHandlers) (taskDraws : TaskDraws)
      (draws : DecisionDraws) (approvalId : String) (approverUserId : Option String)
  | rejectPendingApproval (draws : DecisionDraws) (approvalId : String)
      (approverUserId : Option String)
  | deleteSessionWithTasks (sessionId : String)
  | pruneSessionsForUserSurface (userId surface : String) (limit : Nat)

/-- Forget what a program returns. -/
def discard {α : Type} (p : Service α) : Service Unit := do
  let _ ← p
  return ()

def Call.program : Call → Service Unit
  | handleTask handlers draws request => discard (TaskApi.handleTask handlers draws request)
  | approvePendingApproval handlers taskDraws draws approvalId approverUserId =>
      discard (TaskApi.approvePendingApproval handlers taskDraws draws approvalId
        approverUserId).run
  | rejectPendingApproval draws approvalId approverUserId =>
      discard (TaskApi.rejectPendingApproval draws approvalId approverUserId).run
  | deleteSessionWithTasks sessionId =>
      discard (TaskSession.deleteSessionWithTasks sessionId).run
  | pruneSessionsForUserSurface userId surface limit =>
      discard (TaskSession.pruneSessionsForUserSurface userId surface limit).run

def runCalls : List Call → Service Unit
  | [] => pure ()
  | call :: rest => do
      call.program
      runCalls rest

end HarborBeacon.TaskApi
