import HarborBeacon.JsonText
import HarborBeacon.TaskContract

/-!
The state of the admin console: the binding of the hub, its notification targets and
automation reviews, the accounts of the platform and the downloads of models, with the
functions that normalize them. The other sections of the state and of the platform are left
open, together with the functions that normalize them and that project the state to the
platform and back.
-/

namespace HarborBeacon.AdminConsole

open Json Json.Value JsonText TaskContract Text TextEncoding

structure AdminBindingState where
  status : String
  metric : String
  boundUser : Option String
  channel : String
  sessionCode : String
  qrToken : String
  setupUrl : String
  staticSetupUrl : String
deriving DecidableEq

structure IdentityBindingRecord where
  openId : String
  userId : Option String
  unionId : Option String
  displayName : String
  chatId : Option String
deriving DecidableEq

structure NotificationTargetRecord where
  targetId : String
  label : String
  routeKey : String
  platformHint : String
  isDefault : Bool
deriving DecidableEq

structure AutomationRuleReview where
  reviewId : String
  workspaceId : String
  source : String
  sourceChannel : Option String
  sourceConversationId : Option String
  originalPrompt : String
  status : String
  triggerDefinition : Option Value
  conditionDefinition : Option Value
  actionPlan : Option Value
  deviceRefs : List Value
  riskLevel : Option String
  requiresApproval : Bool
  createdAt : Option String
  updatedAt : Option String
  expiresAt : Option String
  ruleId : Option String
  runSummaries : List Value
  metadata : Option Value
deriving DecidableEq

structure ModelDownloadJobRecord where
  jobId : String
  modelId : String
  displayName : String
  providerKey : String
  status : String
  requestedAt : String
  updatedAt : String
  targetPath : Option String
  progressPercent : Option UInt8
  bytesDownloaded : Option UInt64
  totalBytes : Option UInt64
  startedAt : Option String
  completedAt : Option String
  errorMessage : Option String
  message : String
  metadata : Value
deriving DecidableEq

inductive RoleKind where
  | owner
  | admin
  | operator
  | member
  | viewer
  | guest
deriving DecidableEq

inductive WorkspaceType where
  | home
  | lab
  | managed
deriving DecidableEq

inductive WorkspaceStatus where
  | active
  | suspended
  | archived
deriving DecidableEq

structure Workspace where
  workspaceId : String
  workspaceType : WorkspaceType
  displayName : String
  timezone : String
  locale : String
  ownerUserId : String
  status : WorkspaceStatus
  settings : Value
deriving DecidableEq

inductive UserStatus where
  | active
  | invited
  | disabled
deriving DecidableEq

structure UserAccount where
  userId : String
  displayName : String
  email : Option String
  phone : Option String
  status : UserStatus
  defaultWorkspaceId : Option String
  preferences : Value
deriving DecidableEq

inductive MembershipStatus where
  | active
  | pending
  | revoked
deriving DecidableEq

structure Membership where
  membershipId : String
  workspaceId : String
  userId : String
  roleKind : RoleKind
  status : MembershipStatus
  grantedByUserId : Option String
  grantedAt : Option String
deriving DecidableEq

inductive AuthSource where
  | localAccount
  | harborOs
  | imChannel
deriving DecidableEq

structure IdentityBinding where
  identityId : String
  userId : String
  authSource : AuthSource
  providerKey : String
  externalUserId : String
  externalUnionId : Option String
  externalChatId : Option String
  profileSnapshot : Value
  lastSeenAt : Option String
deriving DecidableEq

/-- The permission bindings, provider accounts, credentials and recording policies are the
other sections. -/
structure AdminPlatformState (π : Type) where
  workspaces : List Workspace
  users : List UserAccount
  memberships : List Membership
  identityBindings : List IdentityBinding
  sections : π

/-- The defaults, the bridge provider, the remote view, the legacy identity bindings, the
device credentials and evidence, the model center, the knowledge settings and jobs, Home
Assistant, the apps and the audit records are the other sections. -/
structure AdminConsoleState (ρ π : Type) where
  binding : AdminBindingState
  notificationTargets : List NotificationTargetRecord
  automationReviews : List AutomationRuleReview
  platform : AdminPlatformState π
  modelDownloadJobs : List ModelDownloadJobRecord
  sections : ρ

/-- What one call finds outside the state file: the clock, the identifiers that it draws, the
texts of floating-point numbers, the initial state with the hints of the device registry, and
the functions on the open sections. -/
structure Environment (ρ π : Type) where
  modelTestTimestamp : String
  newUuid : String
  uuidAt : Nat → String
  bindingCode : String
  newBindingCode : String
  renderF64 : UInt64 → List Char
  defaultState : AdminConsoleState ρ π
  applyRtspHints : ρ → Except String ρ
  sanitizeSections : ρ → ρ
  hydrateLegacyViews : AdminConsoleState ρ π → AdminBindingState × ρ
  syncPlatformFromLegacy : AdminConsoleState ρ π → AdminPlatformState π

variable {ρ π : Type} (env : Environment ρ π)

def defaultWorkspaceId : String := "home-1"

def nonEmptyOpt (value : String) : Option String :=
  if trim value = "" then none else some (trim value)

section Lists

variable {α : Type}

def updateFirst (p : α → Bool) (f : α → α) : List α → List α
  | [] => []
  | item :: rest => if p item then f item :: rest else item :: updateFirst p f rest

def upsertBy (key : α → String) (new : α) (items : List α) : List α :=
  if items.any fun item => key item = key new then
    updateFirst (fun item => key item = key new) (fun _ => new) items
  else items ++ [new]

end Lists

def generateQrToken (sessionCode : String) : String :=
  "hub://bind/im_bridge/" ++ sessionCode

def defaultBinding (sessionCode : String) : AdminBindingState where
  status := "等待扫码"
  metric := "等待绑定"
  boundUser := none
  channel := "Harbor HarborGate"
  sessionCode := sessionCode
  qrToken := generateQrToken sessionCode
  setupUrl := ""
  staticSetupUrl := ""

def normalizeBindingCode (value : String) : Option String :=
  let trimmed := trim value
  if trimmed = "" then none
  else
    let withoutScheme :=
      if startsWithText trimmed "hub://bind/" then
        -- the part after the last slash
        String.ofList ((trimmed.toList.drop "hub://bind/".length).rtakeWhile (· ≠ '/'))
      else trimmed
    let compact := ((trim withoutScheme).toList.filter Char.isAlphanum).map Char.toUpper
    if compact.length ≠ 8 then none
    else some (String.ofList (compact.take 4 ++ '-' :: compact.drop 4))

def sanitizeBinding (binding : AdminBindingState) : AdminBindingState :=
  let status := if isBlank binding.status then "等待扫码" else binding.status
  let metric := if isBlank binding.metric then "等待绑定" else binding.metric
  let channel := if isBlank binding.channel then "Harbor HarborGate" else binding.channel
  let sessionCode :=
    match normalizeBindingCode binding.qrToken with
    | some tokenCode => tokenCode
    | none => if isBlank binding.sessionCode then env.bindingCode else binding.sessionCode
  let qrToken :=
    if isBlank binding.qrToken || normalizeBindingCode binding.qrToken ≠ some sessionCode then
      generateQrToken sessionCode
    else binding.qrToken
  { binding with status, metric, channel, sessionCode, qrToken }

def sanitizeNotificationTargetLabel (label : String) : Except String String :=
  if trim label = "" then .error "label 不能为空" else .ok (trim label)

def sanitizeNotificationTargetRouteKey (routeKey : String) : Except String String :=
  if trim routeKey = "" then .error "route_key 不能为空" else .ok (trim routeKey)

def normalizePlatformHint (platformHint : String) : String :=
  toAsciiLowercase (trim platformHint)

def newNotificationTargetId (uuid : String) : String :=
  "target-" ++ uuid

def sanitizeNotificationTarget (uuid : String) (target : NotificationTargetRecord) :
    Except String NotificationTargetRecord := do
  let targetId :=
    if trim target.targetId = "" then newNotificationTargetId uuid else trim target.targetId
  let label ← sanitizeNotificationTargetLabel target.label
  let routeKey ← sanitizeNotificationTargetRouteKey target.routeKey
  pure { target with
    targetId, label, routeKey, platformHint := normalizePlatformHint target.platformHint }

def collectNotificationTargets (position : Nat) (seenIds seenRoutes : List String) :
    List NotificationTargetRecord → List NotificationTargetRecord
  | [] => []
  | target :: rest =>
      match sanitizeNotificationTarget (env.uuidAt position) target with
      | .error _ => collectNotificationTargets (position + 1) seenIds seenRoutes rest
      | .ok target =>
          if target.targetId ∈ seenIds then
            collectNotificationTargets (position + 1) seenIds seenRoutes rest
          else if target.routeKey ∈ seenRoutes then
            collectNotificationTargets (position + 1) (target.targetId :: seenIds) seenRoutes rest
          else
            target :: collectNotificationTargets (position + 1) (target.targetId :: seenIds)
              (target.routeKey :: seenRoutes) rest

def keepFirstDefault (defaultSeen : Bool) :
    List NotificationTargetRecord → List NotificationTargetRecord
  | [] => []
  | target :: rest =>
      if target.isDefault && !defaultSeen then target :: keepFirstDefault true rest
      else { target with isDefault := false } :: keepFirstDefault defaultSeen rest

def ensureSingleDefaultNotificationTarget (targets : List NotificationTargetRecord) :
    List NotificationTargetRecord :=
  if targets.any (·.isDefault) then keepFirstDefault false targets
  else targets.modifyHead fun first => { first with isDefault := true }

def sanitizeNotificationTargets (targets : List NotificationTargetRecord) :
    List NotificationTargetRecord :=
  ensureSingleDefaultNotificationTarget (collectNotificationTargets env 0 [] [] targets)

def sanitizeAutomationReviewStatus (status : String) : Except String String :=
  let normalized := toAsciiLowercase (trim status)
  let normalized := if normalized = "" then "draft" else normalized
  if normalized ∈ ["draft", "pending", "active", "paused", "discarded", "expired"] then
    .ok normalized
  else .error ("不支持的 automation review status " ++ status)

def AutomationRuleReview.render (review : AutomationRuleReview) : List Char :=
  let value := JsonText.render env.renderF64
  renderFields
    [("review_id", jsonString review.reviewId),
     ("workspace_id", jsonString review.workspaceId),
     ("source", jsonString review.source),
     ("source_channel", renderOptionText review.sourceChannel),
     ("source_conversation_id", renderOptionText review.sourceConversationId),
     ("original_prompt", jsonString review.originalPrompt),
     ("status", jsonString review.status),
     ("trigger_definition", renderOption value review.triggerDefinition),
     ("condition_definition", renderOption value review.conditionDefinition),
     ("action_plan", renderOption value review.actionPlan),
     ("device_refs", renderList (review.deviceRefs.map value)),
     ("risk_level", renderOptionText review.riskLevel),
     ("requires_approval", renderBool review.requiresApproval),
     ("created_at", renderOptionText review.createdAt),
     ("updated_at", renderOptionText review.updatedAt),
     ("expires_at", renderOptionText review.expiresAt),
     ("rule_id", renderOptionText review.ruleId),
     ("run_summaries", renderList (review.runSummaries.map value)),
     ("metadata", renderOption value review.metadata)]

def sensitivePayloadNeedles : List String :=
  ["rtsp://", "rtsps://", "ha_token", "home_assistant_token", "access_token", "api_key",
    "apikey", "private_key", "begin private key", "camera credential", "camera_credential",
    "upload_url", "presigned", "/var/lib/harboros-beacon", "/tmp/harbornavi"]

def automationReviewHasSensitivePayload (review : AutomationRuleReview) : Bool :=
  let normalized := toAsciiLowercase (String.ofList (review.render env))
  sensitivePayloadNeedles.any fun needle => containsText normalized needle

def newAutomationReviewId (uuid : String) : String :=
  "review-" ++ uuid

def sanitizeAutomationReview (uuid : String) (review : AutomationRuleReview) :
    Except String AutomationRuleReview := do
  let reviewId :=
    if trim review.reviewId = "" then newAutomationReviewId uuid else trim review.reviewId
  if trim review.originalPrompt = "" then
    throw "original_prompt 不能为空"
  let status ← sanitizeAutomationReviewStatus review.status
  let review :=
    { review with
      reviewId
      workspaceId := (nonEmptyOpt review.workspaceId).getD defaultWorkspaceId
      source := (nonEmptyOpt review.source).getD "harbor_assistant"
      sourceChannel := review.sourceChannel.bind nonEmptyOpt
      sourceConversationId := review.sourceConversationId.bind nonEmptyOpt
      originalPrompt := trim review.originalPrompt
      status
      riskLevel := review.riskLevel.bind nonEmptyOpt
      createdAt := review.createdAt.bind nonEmptyOpt
      updatedAt := review.updatedAt.bind nonEmptyOpt
      expiresAt := review.expiresAt.bind nonEmptyOpt
      ruleId := review.ruleId.bind nonEmptyOpt }
  if automationReviewHasSensitivePayload env review then
    throw "automation review payload 包含敏感字段，已拒绝保存"
  pure review

def collectAutomationReviews (position : Nat) (seenIds : List String) :
    List AutomationRuleReview → List AutomationRuleReview
  | [] => []
  | review :: rest =>
      match sanitizeAutomationReview env (env.uuidAt position) review with
      | .error _ => collectAutomationReviews (position + 1) seenIds rest
      | .ok review =>
          if review.reviewId ∈ seenIds then collectAutomationReviews (position + 1) seenIds rest
          else
            review :: collectAutomationReviews (position + 1) (review.reviewId :: seenIds) rest

def optionTextLe : Option String → Option String → Bool
  | none, _ => true
  | some _, none => false
  | some a, some b => decide (a ≤ b)

def sanitizeAutomationReviews (reviews : List AutomationRuleReview) :
    List AutomationRuleReview :=
  ((collectAutomationReviews env 0 [] reviews).mergeSort fun left right =>
    optionTextLe right.updatedAt left.updatedAt).take 100

def sanitizeIdentityBindingRecord (binding : IdentityBindingRecord) :
    Except String IdentityBindingRecord :=
  if trim binding.openId = "" then .error "open_id 不能为空"
  else
    .ok
      { openId := trim binding.openId
        displayName :=
          if trim binding.displayName = "" then trim binding.openId else trim binding.displayName
        userId := binding.userId.bind nonEmptyOpt
        unionId := binding.unionId.bind nonEmptyOpt
        chatId := binding.chatId.bind nonEmptyOpt }

def collapseDashes : Nat → String → String
  | 0, compact => compact
  | rounds + 1, compact =>
      if containsText compact "--" then collapseDashes rounds (replaceText "--" "-" compact)
      else compact

def slugifyIdentityComponent (value : String) : String :=
  let compact := String.ofList ((trim value).toList.filterMap fun c =>
    if c.isAlphanum then some c.toLower
    else if c = '-' ∨ c = '_' ∨ c = '.' then some '-'
    else none)
  let compact := collapseDashes compact.length compact
  String.ofList ((compact.toList.dropWhile (· = '-')).rdropWhile (· = '-'))

def projectedUserIdForBinding (binding : IdentityBindingRecord) : String :=
  (binding.userId.bind nonEmptyOpt).getD
    ("im-user-" ++ slugifyIdentityComponent binding.openId)

def defaultUserPreferences (openId : String) : Value :=
  obj [("auth_source", string "im_bridge"), ("open_id", string openId),
    ("delivery", obj [("default_surface", string "feishu")])]

def buildUserAccountProjection (binding : IdentityBindingRecord) (workspaceId : String) :
    UserAccount where
  userId := projectedUserIdForBinding binding
  displayName := binding.displayName
  email := none
  phone := none
  status := .active
  defaultWorkspaceId := some workspaceId
  preferences := defaultUserPreferences binding.openId

def buildIdentityBindingProjection (binding : IdentityBindingRecord) : IdentityBinding where
  identityId := "identity-" ++ binding.openId
  userId := projectedUserIdForBinding binding
  authSource := .imChannel
  providerKey := "im_bridge"
  externalUserId := binding.openId
  externalUnionId := binding.unionId
  externalChatId := binding.chatId
  profileSnapshot := obj [("display_name", string binding.displayName)]
  lastSeenAt := none

def buildMembershipProjection (workspace : Workspace) (binding : IdentityBindingRecord) :
    Membership where
  membershipId := "membership-" ++ projectedUserIdForBinding binding
  workspaceId := workspace.workspaceId
  userId := projectedUserIdForBinding binding
  roleKind := .viewer
  status := .active
  grantedByUserId := some workspace.ownerUserId
  grantedAt := none

def preferredWorkspace (workspaces : List Workspace) : Option Workspace :=
  (workspaces.find? fun workspace => workspace.workspaceId = defaultWorkspaceId).or
    workspaces.head?

def updatePreferredWorkspace (f : Workspace → Workspace) (workspaces : List Workspace) :
    List Workspace :=
  if workspaces.any fun workspace => workspace.workspaceId = defaultWorkspaceId then
    updateFirst (fun workspace => workspace.workspaceId = defaultWorkspaceId) f workspaces
  else workspaces.modifyHead f

def setWorkspaceBindingProjection (binding : AdminBindingState) (workspace : Workspace) :
    Workspace :=
  let settings :=
    match workspace.settings with
    | .object fields => fields
    | _ => []
  let projection := obj [("channel", string binding.channel), ("status", string binding.status),
    ("metric", string binding.metric), ("bound_user", ofOption binding.boundUser)]
  { workspace with settings := .object (insertField "binding" projection settings) }

def modelDownloadJobRecordTimestamp (value : String) : UInt64 :=
  (parseU64 (trim value)).getD 0

/-- The order of the sort keys of two jobs. -/
def modelDownloadJobLe (left right : ModelDownloadJobRecord) : Bool :=
  let updated := modelDownloadJobRecordTimestamp ∘ ModelDownloadJobRecord.updatedAt
  let requested := modelDownloadJobRecordTimestamp ∘ ModelDownloadJobRecord.requestedAt
  decide (updated left < updated right ∨ updated left = updated right ∧
    (requested left < requested right ∨
      requested left = requested right ∧ left.jobId ≤ right.jobId))

def latestModelDownloadJobIndex (jobs : List ModelDownloadJobRecord) (modelId : String) :
    Option Nat :=
  let candidates := jobs.zipIdx.filter fun candidate => candidate.1.modelId = modelId
  let latest := candidates.foldl (fun best candidate =>
    match best with
    | none => some candidate
    | some found => if modelDownloadJobLe found.1 candidate.1 then some candidate else best) none
  latest.map Prod.snd

def modelDownloadJobRecordIsActive (job : ModelDownloadJobRecord) : Bool :=
  job.status ∈ ["queued", "running", "downloading", "installing"]

def dropDvrSettings (workspace : Workspace) : Workspace :=
  match workspace.settings with
  | .object fields => { workspace with settings := .object (removeField "dvr" fields) }
  | _ => workspace

def sanitizeLegacyAdminFields (state : AdminConsoleState ρ π) : AdminConsoleState ρ π :=
  { state with
    binding := sanitizeBinding env state.binding
    platform :=
      { state.platform with workspaces := state.platform.workspaces.map dropDvrSettings }
    notificationTargets := sanitizeNotificationTargets env state.notificationTargets
    automationReviews := sanitizeAutomationReviews env state.automationReviews
    sections := env.sanitizeSections state.sections }

def hydrateLegacyViewsFromPlatform (state : AdminConsoleState ρ π) : AdminConsoleState ρ π :=
  let views := env.hydrateLegacyViews state
  { state with binding := views.1, sections := views.2 }

def syncPlatform (state : AdminConsoleState ρ π) : AdminConsoleState ρ π :=
  { state with platform := env.syncPlatformFromLegacy state }

def normalizeLoadedAdminState (state : AdminConsoleState ρ π) : AdminConsoleState ρ π :=
  syncPlatform env (sanitizeLegacyAdminFields env
    (hydrateLegacyViewsFromPlatform env (sanitizeLegacyAdminFields env state)))

def sanitizeAdminState (state : AdminConsoleState ρ π) : AdminConsoleState ρ π :=
  syncPlatform env (sanitizeLegacyAdminFields env state)

end HarborBeacon.AdminConsole
