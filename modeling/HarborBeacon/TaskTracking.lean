import HarborBeacon.TaskContract
import HarborBeacon.TaskSession

/-!
The records that a handled task leaves in the store, and the response that is put
together from them when the task is asked for again. Clock readings and drawn ids are
arguments.
-/

namespace HarborBeacon.TaskTracking

open ControlPlane ConversationState FileProgram Json Json.Value TaskContract TaskSession Text

variable {ε : Type}

structure TaskRuntimeTracking where
  sessionId : String
  stepId : String
  startedAt : String
deriving DecidableEq

def sessionStateValueFromConversation (state : TaskConversationState)
    (session : Option ConversationSession) : Except String Value :=
  (envelopeFromConversationState state session).map TaskSessionStateEnvelope.encode

def newSession (request : TaskRequest) (sessionId : String) : ConversationSession where
  sessionId := sessionId
  workspaceId := workspaceIdForRequest request
  channel := request.source.channel
  surface := request.source.surface
  conversationId := request.source.conversationId
  userId := request.source.userId
  routeKey := request.source.routeKey
  lastMessageId := taskMessageId request
  chatType := taskChatType request
  state := .null
  resumeToken := none
  expiresAt := none

def sessionRecord (stored : Option ConversationSession)
    (conversation : Option TaskConversationState) (request : TaskRequest)
    (tracking : TaskRuntimeTracking) (resumeToken : Option String) : ConversationSession :=
  let session := stored.getD (newSession request tracking.sessionId)
  let session := { session with
    workspaceId := workspaceIdForRequest request
    channel := request.source.channel
    surface := request.source.surface
    conversationId := request.source.conversationId
    userId := request.source.userId
    routeKey :=
      if isBlank request.source.routeKey then session.routeKey else request.source.routeKey
    lastMessageId :=
      if taskMessageId request = "" then session.lastMessageId else taskMessageId request
    chatType := if taskChatType request = "" then session.chatType else taskChatType request }
  { session with
    state := (conversation.bind fun state =>
      (sessionStateValueFromConversation state (some session)).toOption).getD .null
    resumeToken := resumeToken
    expiresAt := none }

def runningTaskRun (stored : Option TaskRun) (request : TaskRequest)
    (tracking : TaskRuntimeTracking) : TaskRun :=
  let taskRun := stored.getD { taskId := request.taskId, startedAt := some tracking.startedAt }
  { taskRun with
    workspaceId := workspaceIdForRequest request
    sessionId := tracking.sessionId
    sourceChannel := request.source.channel
    domain := request.intent.domain
    action := request.intent.action
    intentText := request.intent.rawText
    entityRefs := request.entityRefs
    args := request.args
    autonomyLevel := autonomyLevelLabel (effectiveAutonomyLevel request)
    status := .running
    riskLevel := expectedRiskLevel request
    requiresApproval := effectiveRequiresApproval request
    startedAt := taskRun.startedAt.or (some tracking.startedAt)
    completedAt := none
    metadata := buildTaskRunMetadata request tracking.stepId }

def executingTaskStep (stored : Option TaskStepRun) (request : TaskRequest)
    (tracking : TaskRuntimeTracking) : TaskStepRun :=
  let taskStep := stored.getD
    { stepId := tracking.stepId, startedAt := some tracking.startedAt }
  { taskStep with
    taskId := request.taskId
    traceId := request.traceId
    routeKey := request.source.routeKey
    domain := request.intent.domain
    operation := request.intent.action
    route := .local
    executorUsed := "task_api_dispatch"
    status := .executing
    inputPayload := buildStepInputPayload request
    outputPayload := .null
    errorCode := none
    errorMessage := none
    auditRef := none
    startedAt := taskStep.startedAt.or (some tracking.startedAt)
    endedAt := none }

def taskRunStatusFromResponse : TaskStatus → TaskRunStatus
  | .completed => .completed
  | .needsInput => .needsInput
  | .failed => .failed

def taskStepStatusFromResponse : TaskStatus → TaskStepRunStatus
  | .completed => .success
  | .needsInput => .blocked
  | .failed => .failed

def taskRunCompletedAt (status : TaskStatus) (finishedAt : String) : Option String :=
  match status with
  | .completed | .failed => some finishedAt
  | .needsInput => none

def executionRouteForExecutor (executorUsed : String) : ExecutionRoute :=
  match toLowercase (trim executorUsed) with
  | "middleware_api" => .middlewareApi
  | "midcli" => .midcli
  | "browser" => .browser
  | "mcp" => .mcp
  | _ => .local

def responseErrorCode (response : TaskResponse) : Option String :=
  stringAtPaths response.result.data
    [["error_code"], ["error", "code"], ["result", "error_code"], ["result", "error", "code"]]

def stepIdentity (request : TaskRequest) (response : TaskResponse) : String × String :=
  if response.executorUsed = "vision_executor" then ("vision", "analyze_camera")
  else (request.intent.domain, request.intent.action)

def finishedTaskRun (stored : Option TaskRun) (request : TaskRequest)
    (response : TaskResponse) (tracking : TaskRuntimeTracking) (finishedAt : String) :
    TaskRun :=
  let taskRun := stored.getD { taskId := request.taskId, startedAt := some tracking.startedAt }
  { taskRun with
    workspaceId := workspaceIdForRequest request
    sessionId := tracking.sessionId
    sourceChannel := request.source.channel
    domain := request.intent.domain
    action := request.intent.action
    intentText := request.intent.rawText
    entityRefs := request.entityRefs
    args := request.args
    autonomyLevel := autonomyLevelLabel (effectiveAutonomyLevel request)
    status := taskRunStatusFromResponse response.status
    riskLevel := response.riskLevel
    requiresApproval := effectiveRequiresApproval request
    startedAt := taskRun.startedAt.or (some tracking.startedAt)
    completedAt := taskRunCompletedAt response.status finishedAt
    metadata := buildTaskRunMetadata request tracking.stepId }

def finishedTaskStep (stored : Option TaskStepRun) (request : TaskRequest)
    (response : TaskResponse) (tracking : TaskRuntimeTracking) (finishedAt : String) :
    TaskStepRun :=
  let taskStep := stored.getD
    { stepId := tracking.stepId, startedAt := some tracking.startedAt }
  { taskStep with
    taskId := request.taskId
    traceId := request.traceId
    routeKey := request.source.routeKey
    domain := (stepIdentity request response).1
    operation := (stepIdentity request response).2
    route := executionRouteForExecutor response.executorUsed
    executorUsed := response.executorUsed
    status := taskStepStatusFromResponse response.status
    inputPayload := buildStepInputPayload request
    outputPayload := buildStepOutputPayload response
    errorCode :=
      match response.status with
      | .failed => (responseErrorCode response).or (some (response.executorUsed ++ "_failed"))
      | _ => none
    errorMessage :=
      match response.status with
      | .failed => some response.result.message
      | _ => none
    auditRef := some response.auditRef
    startedAt := taskStep.startedAt.or (some tracking.startedAt)
    endedAt := some finishedAt }

def artifactKindFromName (kind : String) : ArtifactKind :=
  match toLowercase (trim kind) with
  | "image" => .image
  | "video" => .video
  | "link" => .link
  | "card" => .card
  | "json" => .json
  | _ => .text

def taskArtifactKindName : ArtifactKind → String
  | .text => "text"
  | .image => "image"
  | .video => "video"
  | .link => "link"
  | .card => "card"
  | .json => "json"

def artifactRecordId (request : TaskRequest) (stepId : String) (index : Nat) : String :=
  request.taskId ++ ":" ++ stepId ++ ":artifact-" ++ toString (index + 1)

def buildArtifactRecords (request : TaskRequest) (stepId : String)
    (artifacts : List TaskArtifact) : List ArtifactRecord :=
  artifacts.mapIdx fun index artifact =>
    { artifactId := artifactRecordId request stepId index
      taskId := request.taskId
      traceId := request.traceId
      stepId := some stepId
      routeKey := request.source.routeKey
      artifactKind := artifactKindFromName artifact.kind
      label := artifact.label
      mimeType := artifact.mimeType
      mediaAssetId := artifact.mediaAssetId
      path := artifact.path
      url := artifact.url
      metadata := artifact.metadata }

def taskArtifactFromRecord (record : ArtifactRecord) : TaskArtifact where
  kind := taskArtifactKindName record.artifactKind
  artifactId := some record.artifactId
  label := record.label
  mimeType := record.mimeType
  mediaAssetId := record.mediaAssetId
  path := record.path
  url := record.url
  metadata := record.metadata

def completeEvent (request : TaskRequest) (stepId now : String) (event : EventRecord) :
    EventRecord :=
  let occurredAt := event.occurredAt.or (some now)
  { event with
    workspaceId :=
      if isBlank event.workspaceId then workspaceIdForRequest request else event.workspaceId
    sourceId := if isBlank event.sourceId then request.taskId else event.sourceId
    correlationId :=
      if event.correlationId.isNone && !isBlank request.traceId then some request.traceId
      else event.correlationId
    causationId := event.causationId.or (some stepId)
    occurredAt := occurredAt
    ingestedAt := event.ingestedAt.or occurredAt }

/-- The clock is read anew for every event; `now` gives the reading by position. -/
def buildEventRecords (request : TaskRequest) (stepId : String) (now : Nat → String)
    (events : List Value) : List EventRecord :=
  (events.filterMap EventRecord.decode).mapIdx fun index event =>
    completeEvent request stepId (now index) event

def buildTaskEventRecord (request : TaskRequest) (stepId eventType : String)
    (severity : EventSeverity) (payload : Value) (eventId : Uuid) (now : String) :
    EventRecord where
  eventId := eventId.text
  workspaceId := workspaceIdForRequest request
  sourceKind := .task
  sourceId := request.taskId
  eventType := eventType
  severity := severity
  payload := payload
  correlationId := if isBlank request.traceId then none else some request.traceId
  causationId := some stepId
  occurredAt := some now
  ingestedAt := some now

def loadConversation (request : TaskRequest) :
    FileProgram TaskConversationFile ε (Option TaskConversationState) := do
  let sessionId := conversationHandleForRequest request
  let key := (conversationKey request).getD sessionId
  let state ← (loadForSession sessionId (some key)).run
  return state.toOption.join

def buildSessionRecord (request : TaskRequest) (tracking : TaskRuntimeTracking)
    (resumeToken : Option String) :
    FileProgram TaskConversationFile ε ConversationSession := do
  let stored ← (loadSession tracking.sessionId).run
  let conversation ← loadConversation request
  return sessionRecord stored.toOption.join conversation request tracking resumeToken

def trackingFor (request : TaskRequest) (startedAt : String) : TaskRuntimeTracking where
  sessionId := conversationHandleForRequest request
  stepId := stepIdForRequest request
  startedAt := startedAt

theorem trackingFor_sessionId (request : TaskRequest) (startedAt : String) :
    (trackingFor request startedAt).sessionId = conversationHandleForRequest request := by
  rw [trackingFor]

theorem trackingFor_stepId (request : TaskRequest) (startedAt : String) :
    (trackingFor request startedAt).stepId = stepIdForRequest request := by
  rw [trackingFor]

theorem finishedTaskRun_metadata (stored : Option TaskRun) (request : TaskRequest)
    (response : TaskResponse) (startedAt finishedAt : String) :
    (finishedTaskRun stored request response (trackingFor request startedAt) finishedAt).metadata =
      buildTaskRunMetadata request (stepIdForRequest request) := by
  rw [← trackingFor_stepId request startedAt]
  rfl

def beginTaskTracking (request : TaskRequest) (startedAt : String) :
    FileProgram TaskConversationFile ε TaskRuntimeTracking := do
  let tracking := trackingFor request startedAt
  let session ← buildSessionRecord request tracking none
  let _ ← (saveSession session).run
  let storedRun ← (loadTaskRun request.taskId).run
  let _ ← (saveTaskRun (runningTaskRun storedRun.toOption.join request tracking)).run
  let storedStep ← (loadTaskStep tracking.stepId).run
  let _ ← (saveTaskStep (executingTaskStep storedStep.toOption.join request tracking)).run
  return tracking

def finishTaskTracking (request : TaskRequest) (response : TaskResponse)
    (tracking : TaskRuntimeTracking) (finishedAt : String) (now : Nat → String) :
    Store ε Unit := do
  let storedRun ← loadTaskRun request.taskId
  saveTaskRun (finishedTaskRun storedRun request response tracking finishedAt)
  let storedStep ← loadTaskStep tracking.stepId
  saveTaskStep (finishedTaskStep storedStep request response tracking finishedAt)
  replaceArtifactsForStep request.taskId (some tracking.stepId)
    (buildArtifactRecords request tracking.stepId response.result.artifacts)
  replaceEventsForStep request.taskId (some tracking.stepId)
    (buildEventRecords request tracking.stepId now response.result.events)
  let session ← ExceptT.lift (buildSessionRecord request tracking response.resumeToken)
  saveSession session

def taskStatusFromTaskRunStatus : TaskRunStatus → TaskStatus
  | .completed => .completed
  | .needsInput | .blocked => .needsInput
  | .queued | .running | .failed => .failed

def metadataId (taskRun : TaskRun) (key : String) : Option String :=
  ((taskRun.metadata.pointer [key]).bind asStr).filter fun value => !isBlank value

def replayTaskResponse (taskRun : TaskRun) : Store ε TaskResponse := do
  let stepId := metadataId taskRun "step_id"
  let taskStep ← match stepId with
    | some stepId => loadTaskStep stepId
    | none => pure none
  let artifacts ← artifactsForTask taskRun.taskId
  let events ← eventsForTask taskRun.taskId
  let outputPayload := (taskStep.map (·.outputPayload)).getD .null
  return {
    taskId := taskRun.taskId
    traceId := (metadataId taskRun "trace_id").getD taskRun.taskId
    status := taskStatusFromTaskRunStatus taskRun.status
    executorUsed := (taskStep.map (·.executorUsed)).getD "task_api_dispatch"
    riskLevel := taskRun.riskLevel
    result :=
      { message := (stringAtPaths outputPayload [["message"]]).getD ""
        data := (outputPayload.pointer ["data"]).getD (obj [])
        artifacts := (artifacts.filter fun artifact =>
          stepId.isNone || artifact.stepId = stepId).map taskArtifactFromRecord
        events := (events.filter fun event =>
          stepId.isNone || event.causationId = stepId).map EventRecord.encode
        nextActions := stringVecAtPaths outputPayload [["next_actions"]] }
    auditRef := (taskStep.bind (·.auditRef)).getD ""
    missingFields := stringVecAtPaths outputPayload [["missing_fields"]]
    prompt := stringAtPaths outputPayload [["prompt"]]
    resumeToken := stringAtPaths outputPayload [["continuation_token"], ["resume_token"]] }

inductive TaskRequestAcceptance where
  | accept
  | replay (response : TaskResponse)
  | conflict (message : String)
deriving DecidableEq

def acceptOrReplayTask (request : TaskRequest) : Store ε TaskRequestAcceptance := do
  if isBlank request.taskId then return .accept
  match ← loadTaskRun request.taskId with
  | none => return .accept
  | some taskRun =>
      if persistedTaskRequestIdentity taskRun ≠ taskRequestIdentity request then
        return .conflict "task_id already exists with a different request identity"
      return .replay (← replayTaskResponse taskRun)

end HarborBeacon.TaskTracking
