import HarborBeacon.ControlPlane

/-!
Task requests and responses, what the task API derives from a request, and the identity
by which a repeated request is recognised.
-/

namespace HarborBeacon.TaskContract

open ControlPlane Json Json.Value Policy Text

structure TaskSource where
  channel : String := ""
  surface : String := ""
  conversationId : String := ""
  userId : String := ""
  sessionId : String := ""
  routeKey : String := ""
deriving DecidableEq

structure TaskMessageMention where
  id : String
  name : String
deriving DecidableEq

structure TaskMessageAttachmentDownload where
  mode : String
  url : String
  method : String
  headers : Value
  /-- the `type` of the `auth` block -/
  auth : Option String
  expiresAt : String
  maxSizeBytes : Option UInt64
deriving DecidableEq

structure TaskMessageAttachment where
  attachmentId : String
  attachmentType : String
  name : String
  mimeType : String
  sizeBytes : Option UInt64
  download : Option TaskMessageAttachmentDownload
  metadata : Value
deriving DecidableEq

structure TaskMessage where
  messageId : String := ""
  chatType : String := ""
  mentions : List TaskMessageMention := []
  attachments : List TaskMessageAttachment := []
deriving DecidableEq

structure TaskIntent where
  domain : String := ""
  action : String := ""
  rawText : String := ""
deriving DecidableEq

def defaultTaskAutonomyLevel : String := "supervised"

structure TaskRequest where
  taskId : String := ""
  traceId : String := ""
  stepId : String := ""
  source : TaskSource := {}
  intent : TaskIntent := {}
  entityRefs : Value := .null
  args : Value := .null
  /-- the `level` of the `autonomy` block -/
  autonomyLevel : String := defaultTaskAutonomyLevel
  message : Option TaskMessage := none
deriving DecidableEq

inductive TaskStatus where
  | completed
  | needsInput
  | failed
deriving DecidableEq

structure TaskArtifact where
  kind : String := ""
  artifactId : Option String := none
  label : String := ""
  mimeType : String := ""
  mediaAssetId : Option String := none
  path : Option String := none
  url : Option String := none
  metadata : Value := .null
deriving DecidableEq

structure TaskResultEnvelope where
  message : String := ""
  data : Value := .null
  artifacts : List TaskArtifact := []
  events : List Value := []
  nextActions : List String := []
deriving DecidableEq

structure TaskResponse where
  taskId : String
  traceId : String
  status : TaskStatus
  executorUsed : String
  riskLevel : RiskLevel
  result : TaskResultEnvelope
  auditRef : String
  missingFields : List String
  prompt : Option String
  resumeToken : Option String
deriving DecidableEq

/-- A drawn identifier: `Uuid::new_v4` never prints a blank text. -/
structure Uuid where
  text : String
  notBlank : isBlank text = false

def stringAtPaths (value : Value) (paths : List (List String)) : Option String :=
  paths.findSome? fun path =>
    (((value.pointer path).bind asStr).map trim).filter (· ≠ "")

def stringVecAtPaths (value : Value) (paths : List (List String)) : List String :=
  (paths.findSome? fun path =>
    ((value.pointer path).bind asArray).map fun items =>
      ((items.filterMap asStr).map trim).filter (· ≠ "")).getD []

def boolAtPaths (value : Value) (paths : List (List String)) : Option Bool :=
  paths.findSome? fun path => do
    let item ← value.pointer path
    match item.asBool with
    | some flag => some flag
    | none =>
        let text ← item.asStr
        match toLowercase (trim text) with
        | "true" | "1" | "yes" => some true
        | "false" | "0" | "no" => some false
        | _ => none

/-- `str::parse::<u64>`. -/
def parseU64 (text : String) : Option UInt64 :=
  let digits :=
    match text.toList with
    | '+' :: rest => rest
    | other => other
  if digits.isEmpty || !digits.all Char.isDigit then none
  else
    let n := digits.foldl (fun n c => 10 * n + (c.toNat - '0'.toNat)) 0
    if n < 2 ^ 64 then some (UInt64.ofNat n) else none

def u64AtPaths (value : Value) (paths : List (List String)) : Option UInt64 :=
  paths.findSome? fun path => do
    let item ← value.pointer path
    match item.asU64 with
    | some n => some n
    | none => parseU64 (trim (← item.asStr))

def firstString (values : List Value) (paths : List (List String)) : Option String :=
  values.findSome? fun value => stringAtPaths value paths

def firstNonEmpty (values : List String) : Option String :=
  values.find? fun value => !isBlank value

def taskMessageId (request : TaskRequest) : String :=
  ((request.message.map fun message => trim message.messageId).filter (· ≠ "")).getD ""

def taskChatType (request : TaskRequest) : String :=
  ((request.message.map fun message => trim message.chatType).filter (· ≠ "")).getD ""

def conversationHandleForRequest (request : TaskRequest) : String :=
  (firstNonEmpty
    [request.source.sessionId, request.source.conversationId, request.source.userId]).getD
      ("task-" ++ request.taskId)

def conversationKey (request : TaskRequest) : Option String :=
  firstNonEmpty
    [request.source.conversationId, request.source.sessionId, request.source.userId]

/-- A step id `step_N`, which a client counts anew in every turn. -/
def looksLikeTurnLocalStepId (stepId : String) : Bool :=
  match stepId.toList with
  | 's' :: 't' :: 'e' :: 'p' :: '_' :: suffix => !suffix.isEmpty && suffix.all Char.isDigit
  | _ => false

def stepIdForRequest (request : TaskRequest) : String :=
  match firstNonEmpty [request.stepId] with
  | some stepId =>
      if looksLikeTurnLocalStepId stepId then request.taskId ++ ":" ++ stepId else stepId
  | none => request.taskId ++ ":s1"

def workspaceIdForRequest (request : TaskRequest) : String :=
  (firstString [request.entityRefs, request.args] [["workspace_id"]]).getD "home-1"

inductive AutonomyLevel where
  | readOnly
  | supervised
  | full
deriving DecidableEq

def effectiveAutonomyLevel (request : TaskRequest) : AutonomyLevel :=
  match toLowercase (trim request.autonomyLevel) with
  | "" | "supervised" => .supervised
  | "readonly" | "read_only" | "read-only" => .readOnly
  | "full" => .full
  | _ => .supervised

def autonomyLevelLabel : AutonomyLevel → String
  | .readOnly => "readonly"
  | .supervised => "supervised"
  | .full => "full"

def normalizeTaskAutonomyLevel (level : String) : String :=
  match toLowercase (trim level) with
  | "" => defaultTaskAutonomyLevel
  | "readonly" | "read_only" | "read-only" => "readonly"
  | "full" => "full"
  | _ => "supervised"

def riskAllowed : AutonomyLevel → RiskLevel → Bool
  | .readOnly, risk => risk = .low
  | .supervised, _ | .full, _ => true

def requestRequiresApproval (request : TaskRequest) : Bool :=
  (boolAtPaths request.args [["approval", "required"], ["requires_approval"]]).getD false

def requestAction (request : TaskRequest) : Action where
  domain := toLowercase (trim request.intent.domain)
  operation := toLowercase (trim request.intent.action)
  resource := .null
  args := request.args
  riskLevel := .low
  requiresApproval := requestRequiresApproval request
  dryRun := false

def expectedRiskLevel (request : TaskRequest) : RiskLevel :=
  effectiveRiskLevel (requestAction request)

def effectiveRequiresApproval (request : TaskRequest) : Bool :=
  (applyGovernanceDefaults (requestAction request)).requiresApproval

def approvalTokenPaths : List (List String) :=
  [["approval", "token"], ["approval_token"]]

def requestApprovalToken (request : TaskRequest) : Option String :=
  firstString [request.args, request.entityRefs] approvalTokenPaths

def requestApproverId (request : TaskRequest) : Option String :=
  firstString [request.args, request.entityRefs] [["approval", "approver_id"], ["approver_id"]]

def approvalContextForRequest (request : TaskRequest)
    (pendingApproval : Option ApprovalTicket) : Option ApprovalContext :=
  let token := requestApprovalToken request
  let requiredToken := pendingApproval.map (·.approvalId)
  let approverId := requestApproverId request
  if token.isNone && requiredToken.isNone && approverId.isNone then none
  else some { token, requiredToken, approverId }

mutual

/-- `normalized_contract_value`: texts are trimmed and `null` becomes an empty object. -/
def normalizedContractValue : Value → Value
  | .null => .object []
  | .bool b => .bool b
  | .number n => .number n
  | .string s => .string (trim s)
  | .array items => .array (normalizedContractItems items)
  | .object fields => .object (normalizedContractFields fields)

def normalizedContractItems : List Value → List Value
  | [] => []
  | item :: rest => normalizedContractValue item :: normalizedContractItems rest

def normalizedContractFields : Fields → Fields
  | [] => []
  | (key, value) :: rest => (key, normalizedContractValue value) :: normalizedContractFields rest

end

def taskRequestIdentity (request : TaskRequest) : Value :=
  obj
    [("route_key", string (trim request.source.routeKey)),
     ("conversation_id", string (trim request.source.conversationId)),
     ("message_id", string (taskMessageId request)),
     ("intent", obj
       [("domain", string (trim request.intent.domain)),
        ("action", string (trim request.intent.action)),
        ("raw_text", string (trim request.intent.rawText))]),
     ("entity_refs", normalizedContractValue request.entityRefs),
     ("args", normalizedContractValue request.args)]

def metadataText (taskRun : TaskRun) (key : String) : String :=
  ((taskRun.metadata.pointer [key]).bind asStr).getD ""

def persistedTaskRequestIdentity (taskRun : TaskRun) : Value :=
  match taskRun.metadata.pointer ["request_identity"] with
  | some identity => identity
  | none =>
      obj
        [("route_key", string (metadataText taskRun "route_key")),
         ("conversation_id", string (metadataText taskRun "conversation_id")),
         ("message_id", string (metadataText taskRun "message_id")),
         ("intent", obj
           [("domain", string (trim taskRun.domain)),
            ("action", string (trim taskRun.action)),
            ("raw_text", string (trim taskRun.intentText))]),
         ("entity_refs", normalizedContractValue taskRun.entityRefs),
         ("args", normalizedContractValue taskRun.args)]

def downloadContract (download : TaskMessageAttachmentDownload) : Value :=
  obj
    [("mode", string (trim download.mode)),
     ("url", string (trim download.url)),
     ("method", string (trim download.method)),
     ("headers", normalizedContractValue download.headers),
     ("auth", (download.auth.map fun kind => obj [("type", string (trim kind))]).getD .null),
     ("expires_at", string (trim download.expiresAt)),
     ("max_size_bytes", ofOptionU64 download.maxSizeBytes)]

def taskAttachmentTransportContract (request : TaskRequest) : Value :=
  match request.message with
  | none => .array []
  | some message =>
      .array (message.attachments.map fun attachment =>
        obj
          [("attachment_id", string (trim attachment.attachmentId)),
           ("type", string (trim attachment.attachmentType)),
           ("name", string (trim attachment.name)),
           ("mime_type", string (trim attachment.mimeType)),
           ("size_bytes", ofOptionU64 attachment.sizeBytes),
           ("download", (attachment.download.map downloadContract).getD .null),
           ("metadata", normalizedContractValue attachment.metadata)])

def TaskSource.encode (source : TaskSource) : Value :=
  obj
    [("channel", string source.channel),
     ("surface", string source.surface),
     ("conversation_id", string source.conversationId),
     ("user_id", string source.userId),
     ("session_id", string source.sessionId),
     ("route_key", string source.routeKey)]

def TaskIntent.encode (intent : TaskIntent) : Value :=
  obj
    [("domain", string intent.domain),
     ("action", string intent.action),
     ("raw_text", string intent.rawText)]

def TaskMessageAttachmentDownload.encode (download : TaskMessageAttachmentDownload) : Value :=
  obj
    [("mode", string download.mode),
     ("url", string download.url),
     ("method", string download.method),
     ("headers", download.headers),
     ("auth", (download.auth.map fun kind => obj [("type", string kind)]).getD .null),
     ("expires_at", string download.expiresAt),
     ("max_size_bytes", ofOptionU64 download.maxSizeBytes)]

def TaskMessageAttachment.encode (attachment : TaskMessageAttachment) : Value :=
  obj
    [("attachment_id", string attachment.attachmentId),
     ("type", string attachment.attachmentType),
     ("name", string attachment.name),
     ("mime_type", string attachment.mimeType),
     ("size_bytes", ofOptionU64 attachment.sizeBytes),
     ("download", (attachment.download.map TaskMessageAttachmentDownload.encode).getD .null),
     ("metadata", attachment.metadata)]

def TaskMessage.encode (message : TaskMessage) : Value :=
  obj
    [("message_id", string message.messageId),
     ("chat_type", string message.chatType),
     ("mentions", array (message.mentions.map fun mention =>
       obj [("id", string mention.id), ("name", string mention.name)])),
     ("attachments", array (message.attachments.map TaskMessageAttachment.encode))]

def buildStepInputPayload (request : TaskRequest) : Value :=
  obj
    [("trace_id", string request.traceId),
     ("source", request.source.encode),
     ("intent", request.intent.encode),
     ("entity_refs", request.entityRefs),
     ("args", request.args),
     ("message", (request.message.map TaskMessage.encode).getD .null)]

def buildStepOutputPayload (response : TaskResponse) : Value :=
  obj
    [("message", string response.result.message),
     ("data", response.result.data),
     ("events", array response.result.events),
     ("next_actions", ofStrings response.result.nextActions),
     ("missing_fields", ofStrings response.missingFields),
     ("prompt", ofOption response.prompt),
     ("continuation_token", ofOption response.resumeToken),
     ("resume_token", ofOption response.resumeToken)]

def buildTaskRunMetadata (request : TaskRequest) (stepId : String) : Value :=
  obj
    [("trace_id", string request.traceId),
     ("step_id", string stepId),
     ("surface", string request.source.surface),
     ("conversation_id", string request.source.conversationId),
     ("route_key", string request.source.routeKey),
     ("message_id", string ((request.message.map (·.messageId)).getD "")),
     ("chat_type", string ((request.message.map (·.chatType)).getD "")),
     ("attachments", taskAttachmentTransportContract request),
     ("request_identity", taskRequestIdentity request)]

def riskLevelValue : RiskLevel → Value
  | .low => string "LOW"
  | .medium => string "MEDIUM"
  | .high => string "HIGH"
  | .critical => string "CRITICAL"

def approvalStatusName : ApprovalStatus → String
  | .pending => "pending"
  | .approved => "approved"
  | .rejected => "rejected"
  | .expired => "expired"
  | .cancelled => "cancelled"

def encodeApprovalTicket (ticket : ApprovalTicket) : Value :=
  obj
    [("approval_id", string ticket.approvalId),
     ("task_id", string ticket.taskId),
     ("trace_id", string ticket.traceId),
     ("route_key", string ticket.routeKey),
     ("policy_ref", string ticket.policyRef),
     ("requester_user_id", string ticket.requesterUserId),
     ("approver_user_id", ofOption ticket.approverUserId),
     ("status", string (approvalStatusName ticket.status)),
     ("reason", string ticket.reason),
     ("requested_at", ofOption ticket.requestedAt),
     ("decided_at", ofOption ticket.decidedAt)]

end HarborBeacon.TaskContract
