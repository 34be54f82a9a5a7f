import HarborBeacon.Policy

/-!
The records of the control plane: conversation sessions, task runs and their steps,
artifacts, events, approval tickets, and media.
-/

namespace HarborBeacon.ControlPlane

open Json Json.Value Policy

structure ConversationSession where
  sessionId : String := ""
  workspaceId : String := ""
  channel : String := ""
  surface : String := ""
  conversationId : String := ""
  userId : String := ""
  routeKey : String := ""
  lastMessageId : String := ""
  chatType : String := ""
  state : Value := .null
  resumeToken : Option String := none
  expiresAt : Option String := none
deriving DecidableEq, Inhabited

inductive TaskRunStatus where
  | queued
  | running
  | needsInput
  | blocked
  | completed
  | failed
deriving DecidableEq, Inhabited

structure TaskRun where
  taskId : String := ""
  workspaceId : String := ""
  sessionId : String := ""
  sourceChannel : String := ""
  domain : String := ""
  action : String := ""
  intentText : String := ""
  entityRefs : Value := .null
  args : Value := .null
  autonomyLevel : String := ""
  status : TaskRunStatus := .queued
  riskLevel : RiskLevel := .low
  requiresApproval : Bool := false
  startedAt : Option String := none
  completedAt : Option String := none
  metadata : Value := .null
deriving DecidableEq, Inhabited

inductive ExecutionRoute where
  | «local»
  | cloud
  | middlewareApi
  | midcli
  | browser
  | mcp
deriving DecidableEq, Inhabited

inductive TaskStepRunStatus where
  | pending
  | approved
  | executing
  | success
  | failed
  | skipped
  | blocked
deriving DecidableEq, Inhabited

structure TaskStepRun where
  stepId : String := ""
  taskId : String := ""
  traceId : String := ""
  routeKey : String := ""
  domain : String := ""
  operation : String := ""
  route : ExecutionRoute := .local
  executorUsed : String := ""
  status : TaskStepRunStatus := .pending
  inputPayload : Value := .null
  outputPayload : Value := .null
  errorCode : Option String := none
  errorMessage : Option String := none
  auditRef : Option String := none
  startedAt : Option String := none
  endedAt : Option String := none
deriving DecidableEq, Inhabited

inductive ArtifactKind where
  | text
  | image
  | video
  | link
  | card
  | json
deriving DecidableEq, Inhabited

structure ArtifactRecord where
  artifactId : String := ""
  taskId : String := ""
  traceId : String := ""
  stepId : Option String := none
  routeKey : String := ""
  artifactKind : ArtifactKind := .text
  label : String := ""
  mimeType : String := ""
  mediaAssetId : Option String := none
  path : Option String := none
  url : Option String := none
  metadata : Value := .null
deriving DecidableEq, Inhabited

inductive ApprovalStatus where
  | pending
  | approved
  | rejected
  | expired
  | cancelled
deriving DecidableEq, Inhabited

structure ApprovalTicket where
  approvalId : String := ""
  taskId : String := ""
  traceId : String := ""
  routeKey : String := ""
  policyRef : String := ""
  requesterUserId : String := ""
  approverUserId : Option String := none
  status : ApprovalStatus := .pending
  reason : String := ""
  requestedAt : Option String := none
  decidedAt : Option String := none
deriving DecidableEq, Inhabited

inductive EventSourceKind where
  | device
  | media
  | task
  | automation
  | system
  | inference
deriving DecidableEq, Inhabited

inductive EventSeverity where
  | info
  | warning
  | error
  | critical
deriving DecidableEq, Inhabited

structure EventRecord where
  eventId : String := ""
  workspaceId : String := ""
  sourceKind : EventSourceKind := .device
  sourceId : String := ""
  eventType : String := ""
  severity : EventSeverity := .info
  payload : Value := .null
  correlationId : Option String := none
  causationId : Option String := none
  occurredAt : Option String := none
  ingestedAt : Option String := none
deriving DecidableEq, Inhabited

def EventSourceKind.names : List (String × EventSourceKind) :=
  [("device", .device), ("media", .media), ("task", .task), ("automation", .automation),
   ("system", .system), ("inference", .inference)]

def EventSourceKind.name : EventSourceKind → String
  | device => "device"
  | media => "media"
  | task => "task"
  | automation => "automation"
  | system => "system"
  | inference => "inference"

def EventSeverity.names : List (String × EventSeverity) :=
  [("info", .info), ("warning", .warning), ("error", .error), ("critical", .critical)]

def EventSeverity.name : EventSeverity → String
  | info => "info"
  | warning => "warning"
  | error => "error"
  | critical => "critical"

def EventRecord.encode (event : EventRecord) : Value :=
  obj
    [("event_id", string event.eventId),
     ("workspace_id", string event.workspaceId),
     ("source_kind", string event.sourceKind.name),
     ("source_id", string event.sourceId),
     ("event_type", string event.eventType),
     ("severity", string event.severity.name),
     ("payload", event.payload),
     ("correlation_id", ofOption event.correlationId),
     ("causation_id", ofOption event.causationId),
     ("occurred_at", ofOption event.occurredAt),
     ("ingested_at", ofOption event.ingestedAt)]

def EventRecord.decode (v : Value) : Option EventRecord := do
  let field ← structFields 11 v
  let eventId ← (field 0 "event_id").bind decodeString
  let workspaceId ← (field 1 "workspace_id").bind decodeString
  let sourceKind ← (field 2 "source_kind").bind (decodeVariant EventSourceKind.names)
  let sourceId ← (field 3 "source_id").bind decodeString
  let eventType ← (field 4 "event_type").bind decodeString
  let severity ← (field 5 "severity").bind (decodeVariant EventSeverity.names)
  let payload ← orDefault (field 6 "payload") some .null
  let correlationId ← orDefault (field 7 "correlation_id") (decodeOption decodeString) none
  let causationId ← orDefault (field 8 "causation_id") (decodeOption decodeString) none
  let occurredAt ← orDefault (field 9 "occurred_at") (decodeOption decodeString) none
  let ingestedAt ← orDefault (field 10 "ingested_at") (decodeOption decodeString) none
  return { eventId, workspaceId, sourceKind, sourceId, eventType, severity, payload,
           correlationId, causationId, occurredAt, ingestedAt }

@[simp] theorem decodeVariant_sourceKind (kind : EventSourceKind) :
    decodeVariant EventSourceKind.names (.string kind.name) = some kind := by
  cases kind <;> decide

@[simp] theorem decodeVariant_severity (severity : EventSeverity) :
    decodeVariant EventSeverity.names (.string severity.name) = some severity := by
  cases severity <;> decide

@[simp] theorem EventRecord.decode_encode (event : EventRecord) :
    decode event.encode = some event := by
  simp [decode, encode, structFields, obj]

inductive StorageTargetKind where
  | nas
  | localDisk
  | harborOsPool
  | objectStorage
deriving DecidableEq, Inhabited

inductive MediaAssetKind where
  | snapshot
  | clip
  | recording
  | replay
  | derived
  | report
deriving DecidableEq, Inhabited

structure MediaAsset where
  assetId : String := ""
  workspaceId : String := ""
  deviceId : Option String := none
  assetKind : MediaAssetKind := .snapshot
  storageTarget : StorageTargetKind := .nas
  storageUri : String := ""
  mimeType : String := ""
  byteSize : UInt64 := 0
  checksum : Option String := none
  capturedAt : Option String := none
  startedAt : Option String := none
  endedAt : Option String := none
  derivedFromAssetId : Option String := none
  tags : List String := []
  metadata : Value := .null
deriving DecidableEq, Inhabited

inductive MediaSessionKind where
  | liveView
  | replay
  | share
  | proxy
deriving DecidableEq, Inhabited

inductive MediaDeliveryMode where
  | localPlayer
  | webrtc
  | hls
  | download
deriving DecidableEq, Inhabited

inductive MediaSessionStatus where
  | opening
  | active
  | closed
  | failed
deriving DecidableEq, Inhabited

structure MediaSession where
  mediaSessionId : String := ""
  deviceId : String := ""
  streamProfileId : String := ""
  sessionKind : MediaSessionKind := .liveView
  deliveryMode : MediaDeliveryMode := .localPlayer
  openedByUserId : Option String := none
  status : MediaSessionStatus := .opening
  shareLinkId : Option String := none
  startedAt : Option String := none
  endedAt : Option String := none
  metadata : Value := .null
deriving DecidableEq, Inhabited

inductive ShareAccessScope where
  | publicLink
  | workspace
  | inviteOnly
deriving DecidableEq, Inhabited

structure ShareLink where
  shareLinkId : String := ""
  mediaSessionId : String := ""
  tokenHash : String := ""
  accessScope : ShareAccessScope := .publicLink
  expiresAt : Option String := none
  revokedAt : Option String := none
deriving DecidableEq, Inhabited

end HarborBeacon.ControlPlane
