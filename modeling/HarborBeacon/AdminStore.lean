import HarborBeacon.AdminConsole
import HarborBeacon.FileSessions

/-!
The store of the admin console. Every operation reads the state file once; most of them write
the normalized state back at once, and write it again with their change. The lock of the state
file covers single reads and writes. Only the operations on downloads hold a lock of their own
from their start to their end.
-/

namespace HarborBeacon.AdminConsole

open FileProgram Json Text

variable {ρ π : Type}

/-- What the path of the store leads to. -/
inductive StateFile (ρ π : Type) where
  | missing
  | unreadable (message : String)
  | holds (state : AdminConsoleState ρ π)

abbrev Store (ρ π α : Type) : Type :=
  ExceptT String (FileProgram (StateFile ρ π) Empty) α

variable (env : Environment ρ π)

section States

def applyRegistryHints (state : AdminConsoleState ρ π) :
    Except String (AdminConsoleState ρ π) := do
  let sections ← env.applyRtspHints state.sections
  pure (normalizeLoadedAdminState env { state with sections })

def bootstrapState : Except String (AdminConsoleState ρ π) :=
  applyRegistryHints env env.defaultState

def loadedState : StateFile ρ π → Except String (AdminConsoleState ρ π)
  | .missing => bootstrapState env
  | .unreadable message => .error message
  | .holds state => applyRegistryHints env state

def loadState : Store ρ π (AdminConsoleState ρ π) :=
  ExceptT.mk (read (loadedState env))

def saveState (state : AdminConsoleState ρ π) : Store ρ π Unit :=
  ExceptT.mk (saveFile (.holds (sanitizeAdminState env state)) (done (.ok ())))

def loadOrCreateState : Store ρ π (AdminConsoleState ρ π) := do
  let state ← loadState env
  saveState env state
  pure state

variable {env} in
theorem exec_loadOrCreateState {file : StateFile ρ π} {state : AdminConsoleState ρ π}
    (hloaded : loadedState env file = .ok state) : (loadOrCreateState env).run.exec file =
      ⟨.holds (sanitizeAdminState env state), [], .ok state⟩ := by
  have hread : (loadState env).run.exec file = ⟨file, [], .ok state⟩ :=
    congrArg (Outcome.mk file []) hloaded
  rw [loadOrCreateState, exec_run_bind_of_ok hread]
  rfl

def savePlatformPrimaryState (state : AdminConsoleState ρ π) :
    Store ρ π (AdminConsoleState ρ π) := do
  let state := syncPlatform env
    (sanitizeLegacyAdminFields env (hydrateLegacyViewsFromPlatform env state))
  saveState env state
  pure state

def saveProjectedState (state : AdminConsoleState ρ π) :
    Store ρ π (AdminConsoleState ρ π) := do
  let state := hydrateLegacyViewsFromPlatform env
    (syncPlatform env (sanitizeLegacyAdminFields env state))
  saveState env state
  pure state

end States

def refreshBindingQr : Store ρ π (AdminConsoleState ρ π) := do
  let state ← loadOrCreateState env
  saveProjectedState env { state with binding := defaultBinding env.newBindingCode }

def markDemoBound (userName : String) : Store ρ π (AdminConsoleState ρ π) := do
  let state ← loadOrCreateState env
  let binding :=
    { state.binding with status := "已绑定", metric := "已绑定", boundUser := some userName }
  saveProjectedState env { state with binding }

def activateMembership (workspace : Workspace) (user : IdentityBindingRecord)
    (memberships : List Membership) : List Membership :=
  let same (membership : Membership) : Bool :=
    membership.workspaceId = workspace.workspaceId ∧
      membership.userId = projectedUserIdForBinding user
  if memberships.any same then
    updateFirst same (fun membership => { membership with status := .active }) memberships
  else memberships ++ [buildMembershipProjection workspace user]

def bindIdentityUser (tokenOrCode : String) (user : IdentityBindingRecord) :
    Store ρ π (AdminConsoleState ρ π) := do
  let state ← loadOrCreateState env
  let some providedCode := normalizeBindingCode tokenOrCode
    | throw "绑定码格式不正确"
  if providedCode ≠ state.binding.sessionCode then
    throw ("绑定码不匹配，当前有效绑定码是 " ++ state.binding.sessionCode)
  let user ← sanitizeIdentityBindingRecord user
  let some workspace := preferredWorkspace state.platform.workspaces
    | throw "当前没有可编辑的 workspace"
  let binding :=
    { state.binding with
      status := "已绑定", metric := "已绑定", boundUser := some user.displayName }
  let platform :=
    { state.platform with
      users := upsertBy UserAccount.userId
        (buildUserAccountProjection user workspace.workspaceId) state.platform.users
      identityBindings := upsertBy IdentityBinding.identityId
        (buildIdentityBindingProjection user) state.platform.identityBindings
      memberships :=
        if projectedUserIdForBinding user ≠ workspace.ownerUserId then
          activateMembership workspace user state.platform.memberships
        else state.platform.memberships
      workspaces := updatePreferredWorkspace (setWorkspaceBindingProjection binding)
        state.platform.workspaces }
  savePlatformPrimaryState env { state with binding, platform }

/-- Change the target that is named, or else the one with the same route, or add one; the id
of the target comes with the list. -/
def putNotificationTarget (requestedTargetId : Option String)
    (label routeKey platformHint : String) (targets : List NotificationTargetRecord) :
    List NotificationTargetRecord × String :=
  let named := requestedTargetId.bind fun targetId =>
    targets.findIdx? fun target => target.targetId = targetId
  let found := named.or (targets.findIdx? fun target => target.routeKey = routeKey)
  match found.bind fun index => targets[index]?.map fun target => (index, target.targetId) with
  | some (index, targetId) =>
      (targets.modify index fun target => { target with label, routeKey, platformHint }, targetId)
  | none =>
      let targetId := requestedTargetId.getD (newNotificationTargetId env.newUuid)
      (targets ++ [{ targetId, label, routeKey, platformHint, isDefault := false }], targetId)

def markDefault (targetId : String) (targets : List NotificationTargetRecord) :
    List NotificationTargetRecord :=
  targets.map fun target => { target with isDefault := target.targetId = targetId }

def upsertNotificationTarget (targetId : Option String)
    (label routeKey platformHint : String) (makeDefault : Bool) :
    Store ρ π (AdminConsoleState ρ π) := do
  let state ← loadOrCreateState env
  let label ← sanitizeNotificationTargetLabel label
  let routeKey ← sanitizeNotificationTargetRouteKey routeKey
  let (targets, targetId) := putNotificationTarget env (targetId.bind nonEmptyOpt) label routeKey
    (normalizePlatformHint platformHint) state.notificationTargets
  let targets :=
    if makeDefault || targets.all (!·.isDefault) then markDefault targetId targets else targets
  saveProjectedState env
    { state with notificationTargets := sanitizeNotificationTargets env targets }

def setDefaultNotificationTarget (targetId : String) : Store ρ π (AdminConsoleState ρ π) := do
  if trim targetId = "" then
    throw "target_id 不能为空"
  let state ← loadOrCreateState env
  if !state.notificationTargets.any fun target => target.targetId = trim targetId then
    throw ("未找到 notification target " ++ trim targetId)
  let targets := markDefault (trim targetId) state.notificationTargets
  saveProjectedState env
    { state with notificationTargets := sanitizeNotificationTargets env targets }

def deleteNotificationTarget (targetId : String) : Store ρ π (AdminConsoleState ρ π) := do
  if trim targetId = "" then
    throw "target_id 不能为空"
  let state ← loadOrCreateState env
  let targets := state.notificationTargets.filter fun target => target.targetId ≠ trim targetId
  if targets.length = state.notificationTargets.length then
    throw ("未找到 notification target " ++ trim targetId)
  saveProjectedState env
    { state with notificationTargets := sanitizeNotificationTargets env targets }

def upsertAutomationReview (review : AutomationRuleReview) :
    Store ρ π (AdminConsoleState ρ π) := do
  let state ← loadOrCreateState env
  let review ← sanitizeAutomationReview env env.newUuid review
  let now := env.modelTestTimestamp
  let review := { review with createdAt := review.createdAt.or (some now), updatedAt := some now }
  let reviews := upsertBy AutomationRuleReview.reviewId review state.automationReviews
  saveProjectedState env { state with automationReviews := sanitizeAutomationReviews env reviews }

def setAutomationReviewStatus (reviewId status : String) :
    Store ρ π (AdminConsoleState ρ π) := do
  if trim reviewId = "" then
    throw "review_id 不能为空"
  let status ← sanitizeAutomationReviewStatus status
  let state ← loadOrCreateState env
  let same (review : AutomationRuleReview) : Bool := review.reviewId = trim reviewId
  if !state.automationReviews.any same then
    throw ("未找到 automation review " ++ trim reviewId)
  let reviews := updateFirst same
    (fun review => { review with status, updatedAt := some env.modelTestTimestamp })
    state.automationReviews
  saveProjectedState env { state with automationReviews := sanitizeAutomationReviews env reviews }

structure ModelDownloadJobCreateResult where
  job : ModelDownloadJobRecord
  shouldSpawnWorker : Bool

def queuedJob (jobId modelId displayName providerKey : String) (targetPath : Option String)
    (metadata : Value) : ModelDownloadJobRecord where
  jobId := jobId
  modelId := modelId
  displayName := trim displayName
  providerKey := trim providerKey
  status := "queued"
  requestedAt := env.modelTestTimestamp
  updatedAt := env.modelTestTimestamp
  targetPath := targetPath
  progressPercent := some 0
  bytesDownloaded := some 0
  totalBytes := none
  startedAt := none
  completedAt := none
  errorMessage := none
  message := "download job queued by explicit admin action"
  metadata := metadata

def createOrUpdateModelDownloadJob (modelId displayName providerKey : String)
    (targetPath : Option String) (metadata : Value) :
    Store ρ π ModelDownloadJobCreateResult := do
  if trim modelId = "" then
    throw "model_id 不能为空"
  let state ← loadOrCreateState env
  let jobs := state.modelDownloadJobs
  let latest := (latestModelDownloadJobIndex jobs (trim modelId)).bind fun index =>
    jobs[index]?.map fun existing => (index, existing)
  match latest with
  | some (index, existing) =>
      if modelDownloadJobRecordIsActive existing then
        pure ⟨existing, false⟩
      else
        let job := queuedJob env existing.jobId existing.modelId displayName providerKey targetPath
          metadata
        let _ ← saveProjectedState env { state with modelDownloadJobs := jobs.set index job }
        pure ⟨job, true⟩
  | none =>
      let job := queuedJob env ("model-download-" ++ env.newUuid) (trim modelId) displayName
        providerKey targetPath metadata
      let _ ← saveProjectedState env { state with modelDownloadJobs := jobs ++ [job] }
      pure ⟨job, true⟩

def createModelDownloadJob (modelId displayName providerKey : String)
    (targetPath : Option String) (metadata : Value) : Store ρ π ModelDownloadJobRecord := do
  let created ← createOrUpdateModelDownloadJob env modelId displayName providerKey targetPath
    metadata
  pure created.job

def modelDownloadJob (jobId : String) : Store ρ π (Option ModelDownloadJobRecord) := do
  if trim jobId = "" then
    pure none
  else
    let state ← loadState env
    pure (state.modelDownloadJobs.find? fun job => job.jobId = trim jobId)

def cancelledJob (job : ModelDownloadJobRecord) : ModelDownloadJobRecord :=
  if job.status ∈ ["completed", "failed", "cancelled", "canceled"] then job
  else
    { job with
      status := "canceled"
      updatedAt := env.modelTestTimestamp
      completedAt := some env.modelTestTimestamp
      message := "download job canceled by explicit admin action" }

def cancelModelDownloadJob (jobId : String) : Store ρ π (Option ModelDownloadJobRecord) := do
  if trim jobId = "" then
    pure none
  else
    let state ← loadOrCreateState env
    let same (job : ModelDownloadJobRecord) : Bool := job.jobId = trim jobId
    match state.modelDownloadJobs.find? same with
    | none => pure none
    | some job =>
        let modelDownloadJobs := updateFirst same (cancelledJob env) state.modelDownloadJobs
        let _ ← saveProjectedState env { state with modelDownloadJobs }
        pure (some (cancelledJob env job))

def listModelDownloadJobs : Store ρ π (List ModelDownloadJobRecord) := do
  let state ← loadState env
  pure state.modelDownloadJobs

def saveModelDownloadJob (job : ModelDownloadJobRecord) : Store ρ π ModelDownloadJobRecord := do
  if trim job.jobId = "" then
    throw "job_id 不能为空"
  let state ← loadOrCreateState env
  let same (existing : ModelDownloadJobRecord) : Bool := existing.jobId = trim job.jobId
  if !state.modelDownloadJobs.any same then
    throw ("未找到模型下载任务 " ++ trim job.jobId)
  let modelDownloadJobs := updateFirst same (fun _ => job) state.modelDownloadJobs
  let _ ← saveProjectedState env { state with modelDownloadJobs }
  pure job

/-- A worker has no use for the result of an operation. -/
def withoutResult {α : Type} (x : Store ρ π α) : Store ρ π Unit := do
  let _ ← x
  pure ()

inductive SaveKind where
  | projected
  | platformPrimary

def readingOperation {α : Type} (view : AdminConsoleState ρ π → α) : Store ρ π α := do
  let state ← loadState env
  pure (view state)

def listingOperation {α : Type} (view : AdminConsoleState ρ π → α) : Store ρ π α := do
  let state ← loadOrCreateState env
  pure (view state)

/-- An operation that computes a new state from the one it loads, unless it fails or has
nothing to save. -/
def changingOperation
    (change : AdminConsoleState ρ π → Except String (Option (SaveKind × AdminConsoleState ρ π))) :
    Store ρ π Unit := do
  let state ← loadOrCreateState env
  match ← change state with
  | none => pure ()
  | some (.projected, changed) => withoutResult (saveProjectedState env changed)
  | some (.platformPrimary, changed) => withoutResult (savePlatformPrimaryState env changed)

/-- The operations of the store. The last three stand for the operations on the open sections:
`home_assistant_state` reads; `load_or_create_state`, `knowledge_settings`, `harbor_app`,
`load_remote_view_config`, `audit_records` and the operations that list the index jobs, the
apps and the evidence of a device do no more than list; every other operation changes the
state. -/
inductive AdminOperation (ρ π : Type) where
  | refreshBindingQr
  | markDemoBound (userName : String)
  | bindIdentityUser (tokenOrCode : String) (user : IdentityBindingRecord)
  | upsertNotificationTarget (targetId : Option String) (label routeKey platformHint : String)
      (makeDefault : Bool)
  | setDefaultNotificationTarget (targetId : String)
  | deleteNotificationTarget (targetId : String)
  | upsertAutomationReview (review : AutomationRuleReview)
  | setAutomationReviewStatus (reviewId status : String)
  | createOrUpdateModelDownloadJob (modelId displayName providerKey : String)
      (targetPath : Option String) (metadata : Value)
  | modelDownloadJob (jobId : String)
  | cancelModelDownloadJob (jobId : String)
  | listModelDownloadJobs
  | saveModelDownloadJob (job : ModelDownloadJobRecord)
  | reading
  | listing
  | changing
      (change : AdminConsoleState ρ π → Except String (Option (SaveKind × AdminConsoleState ρ π)))

namespace AdminOperation

/-- The operations that hold the write lock of the downloads. -/
def exclusive : AdminOperation ρ π → Bool
  | createOrUpdateModelDownloadJob _ _ _ _ _ => true
  | cancelModelDownloadJob _ => true
  | saveModelDownloadJob _ => true
  | _ => false

def program : AdminOperation ρ π → Store ρ π Unit
  | refreshBindingQr => withoutResult (AdminConsole.refreshBindingQr env)
  | markDemoBound userName => withoutResult (AdminConsole.markDemoBound env userName)
  | bindIdentityUser tokenOrCode user =>
      withoutResult (AdminConsole.bindIdentityUser env tokenOrCode user)
  | upsertNotificationTarget targetId label routeKey platformHint makeDefault =>
      withoutResult (AdminConsole.upsertNotificationTarget env targetId label routeKey platformHint
        makeDefault)
  | setDefaultNotificationTarget targetId =>
      withoutResult (AdminConsole.setDefaultNotificationTarget env targetId)
  | deleteNotificationTarget targetId =>
      withoutResult (AdminConsole.deleteNotificationTarget env targetId)
  | upsertAutomationReview review => withoutResult (AdminConsole.upsertAutomationReview env review)
  | setAutomationReviewStatus reviewId status =>
      withoutResult (AdminConsole.setAutomationReviewStatus env reviewId status)
  | createOrUpdateModelDownloadJob modelId displayName providerKey targetPath metadata =>
      withoutResult (AdminConsole.createOrUpdateModelDownloadJob env modelId displayName providerKey
        targetPath metadata)
  | modelDownloadJob jobId => withoutResult (AdminConsole.modelDownloadJob env jobId)
  | cancelModelDownloadJob jobId => withoutResult (AdminConsole.cancelModelDownloadJob env jobId)
  | listModelDownloadJobs => withoutResult (AdminConsole.listModelDownloadJobs env)
  | saveModelDownloadJob job => withoutResult (AdminConsole.saveModelDownloadJob env job)
  | reading => withoutResult (readingOperation env id)
  | listing => withoutResult (listingOperation env id)
  | changing change => changingOperation env change

end AdminOperation

structure Call (ρ π : Type) where
  environment : Environment ρ π
  operation : AdminOperation ρ π

def Call.toOperation (call : Call ρ π) : Operation (StateFile ρ π) Empty (Except String Unit) where
  exclusive := call.operation.exclusive
  program := (call.operation.program call.environment).run

def workers {ω : Type} (file : StateFile ρ π) (calls : ω → List (Call ρ π)) :
    Sessions (StateFile ρ π) Empty (Except String Unit) ω where
  file := file
  holder := none
  activity := fun _ => none
  pending := fun w => (calls w).map Call.toOperation

end HarborBeacon.AdminConsole
