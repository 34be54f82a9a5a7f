import HarborBeacon.AdminStore

/-!
The accounts of the platform beside the legacy identity bindings. Every load and every save projects
the bindings to users, memberships and identity bindings of the platform, and what an earlier change
wrote there is kept.
-/

namespace HarborBeacon.AdminConsole

open FileProgram Json Json.Value Text

variable {ρ π : Type}

structure LegacySections (ρ : Type) where
  identityBindings : List IdentityBindingRecord
  others : ρ

abbrev MemberState (ρ π : Type) : Type :=
  AdminConsoleState (LegacySections ρ) π

/-- What one call finds outside the state file, except for the current user: the clock, the
identifiers and the codes, and the functions on the sections that stay open. -/
structure Outside (ρ π : Type) where
  modelTestTimestamp : String
  newUuid : String
  uuidAt : Nat → String
  bindingCode : String
  newBindingCode : String
  renderF64 : UInt64 → List Char
  defaultOthers : ρ
  defaultPlatformSections : π
  applyRtspHints : ρ → Except String ρ
  sanitizeOthers : ρ → ρ
  hydrateOthers : MemberState ρ π → ρ
  workspaceSettings : MemberState ρ π → Value
  platformSections : MemberState ρ π → π

def assignString (target : String) (value : Option Value) : String :=
  ((value.bind Value.asStr).bind nonEmptyOpt).getD target

def optionalString (value : Option Value) : Option String :=
  (value.bind Value.asStr).bind nonEmptyOpt

def applyWorkspaceBinding (state : MemberState ρ π) : AdminBindingState :=
  match (preferredWorkspace state.platform.workspaces).bind fun workspace =>
      workspace.settings.get "binding" with
  | some projection =>
      { state.binding with
        channel := assignString state.binding.channel (projection.get "channel")
        status := assignString state.binding.status (projection.get "status")
        metric := assignString state.binding.metric (projection.get "metric")
        boundUser := optionalString (projection.get "bound_user") }
  | none => state.binding

def legacyIdentityBinding (users : List UserAccount) (binding : IdentityBinding) :
    IdentityBindingRecord where
  openId := binding.externalUserId
  userId := some binding.userId
  unionId := binding.externalUnionId
  displayName :=
    (((users.find? fun user => user.userId = binding.userId).map UserAccount.displayName).or
      ((binding.profileSnapshot.get "display_name").bind Value.asStr)).getD binding.externalUserId
  chatId := binding.externalChatId

def collectIdentityBindings (users : List UserAccount) (seen : List String) :
    List IdentityBinding → List IdentityBindingRecord
  | [] => []
  | binding :: rest =>
      if binding.externalUserId ∈ seen then collectIdentityBindings users seen rest
      else
        legacyIdentityBinding users binding ::
          collectIdentityBindings users (binding.externalUserId :: seen) rest

def legacyIdentityBindingsFromPlatform (platform : AdminPlatformState π) :
    List IdentityBindingRecord :=
  collectIdentityBindings platform.users [] platform.identityBindings

def resolvedIdentityBindingRecords (state : MemberState ρ π) : List IdentityBindingRecord :=
  if state.platform.identityBindings ≠ [] then legacyIdentityBindingsFromPlatform state.platform
  else state.sections.identityBindings.filterMap fun binding =>
    (sanitizeIdentityBindingRecord binding).toOption

def defaultWorkspaceOwnerId : String := "local-owner"

def harborosCurrentUserId (currentUser : Option String) : String :=
  (currentUser.bind nonEmptyOpt).getD defaultWorkspaceOwnerId

def buildWorkspaceProjection (owner : String) (settings : Value) : Workspace where
  workspaceId := defaultWorkspaceId
  workspaceType := .home
  displayName := "Harbor Home"
  timezone := "Asia/Shanghai"
  locale := "zh-CN"
  ownerUserId := owner
  status := .active
  settings := settings

def keepsPreferences : Value → Bool
  | .null => false
  | .object fields => !fields.isEmpty
  | _ => true

def preserveCustomUserAccount (existingUsers : List UserAccount) (user : UserAccount) :
    UserAccount :=
  match existingUsers.find? fun existing => existing.userId = user.userId with
  | none => user
  | some existing =>
      { user with
        displayName :=
          if isBlank existing.displayName then user.displayName else existing.displayName
        email := existing.email.or user.email
        phone := existing.phone.or user.phone
        status := existing.status
        defaultWorkspaceId := existing.defaultWorkspaceId.or user.defaultWorkspaceId
        preferences :=
          if keepsPreferences existing.preferences then existing.preferences
          else user.preferences }

def buildOwnerAccount (workspace : Workspace) : UserAccount where
  userId := workspace.ownerUserId
  displayName := workspace.ownerUserId
  email := none
  phone := none
  status := .active
  defaultWorkspaceId := some workspace.workspaceId
  preferences := obj [("bootstrap", bool true), ("channel", string "harbor_os"),
    ("auth_source", string "harbor_os")]

def buildUserAccounts (state : MemberState ρ π) (workspace : Workspace) : List UserAccount :=
  (resolvedIdentityBindingRecords state).foldl (fun users binding =>
    if users.any fun user => user.userId = projectedUserIdForBinding binding then users
    else users ++ [preserveCustomUserAccount state.platform.users
      (buildUserAccountProjection binding workspace.workspaceId)])
    [preserveCustomUserAccount state.platform.users (buildOwnerAccount workspace)]

def ownerMembership (workspace : Workspace) : Membership where
  membershipId := "membership-" ++ workspace.ownerUserId
  workspaceId := workspace.workspaceId
  userId := workspace.ownerUserId
  roleKind := .owner
  status := .active
  grantedByUserId := none
  grantedAt := none

def buildMemberships (state : MemberState ρ π) (workspace : Workspace) : List Membership :=
  (resolvedIdentityBindingRecords state).foldl (fun memberships binding =>
    if projectedUserIdForBinding binding = workspace.ownerUserId ∨
        memberships.any fun membership =>
          membership.userId = projectedUserIdForBinding binding then
      memberships
    else memberships ++ [buildMembershipProjection workspace binding])
    [ownerMembership workspace]

def preserveCustomMembership (existingMemberships : List Membership) (membership : Membership) :
    Membership :=
  if membership.roleKind = .owner then membership
  else
    match existingMemberships.find? fun existing =>
        existing.membershipId = membership.membershipId with
    | none => membership
    | some existing =>
        { membership with
          roleKind := existing.roleKind
          status := existing.status
          grantedByUserId := existing.grantedByUserId
          grantedAt := existing.grantedAt }

def mergeMembership (memberships : List Membership) (membership : Membership) :
    List Membership :=
  upsertBy Membership.membershipId (preserveCustomMembership memberships membership) memberships

def buildIdentityBindingProjections (state : MemberState ρ π) : List IdentityBinding :=
  (resolvedIdentityBindingRecords state).map buildIdentityBindingProjection

def syncPlatformFromLegacy (owner : String) (outside : Outside ρ π) (state : MemberState ρ π) :
    AdminPlatformState π :=
  let workspace := buildWorkspaceProjection owner (outside.workspaceSettings state)
  { workspaces := upsertBy Workspace.workspaceId workspace state.platform.workspaces
    users := (buildUserAccounts state workspace).foldl
      (fun users user => upsertBy UserAccount.userId user users) state.platform.users
    memberships := (buildMemberships state workspace).foldl mergeMembership
      state.platform.memberships
    identityBindings := (buildIdentityBindingProjections state).foldl
      (fun bindings binding => upsertBy IdentityBinding.identityId binding bindings)
      state.platform.identityBindings
    sections := outside.platformSections state }

def defaultAdminState (outside : Outside ρ π) : MemberState ρ π where
  binding := defaultBinding outside.bindingCode
  notificationTargets := []
  automationReviews := []
  platform := ⟨[], [], [], [], outside.defaultPlatformSections⟩
  modelDownloadJobs := []
  sections := ⟨[], outside.defaultOthers⟩

def memberEnvironment (owner : String) (outside : Outside ρ π) :
    Environment (LegacySections ρ) π where
  modelTestTimestamp := outside.modelTestTimestamp
  newUuid := outside.newUuid
  uuidAt := outside.uuidAt
  bindingCode := outside.bindingCode
  newBindingCode := outside.newBindingCode
  renderF64 := outside.renderF64
  defaultState := defaultAdminState outside
  applyRtspHints := fun sections =>
    (outside.applyRtspHints sections.others).map fun others => { sections with others }
  sanitizeSections := fun sections =>
    { sections with others := outside.sanitizeOthers sections.others }
  hydrateLegacyViews := fun state =>
    (applyWorkspaceBinding state,
      { identityBindings :=
          if state.platform.identityBindings ≠ [] then
            legacyIdentityBindingsFromPlatform state.platform
          else state.sections.identityBindings
        others := outside.hydrateOthers state })
  syncPlatformFromLegacy := syncPlatformFromLegacy owner outside

def normalizeDeliverySurface (value : String) : Option String :=
  if toAsciiLowercase (trim value) = "feishu" then some "feishu"
  else if toAsciiLowercase (trim value) = "weixin" then some "weixin"
  else none

def objectFields : Value → Fields
  | .object fields => fields
  | _ => []

def insertDelivery (fields : List (String × Value)) (user : UserAccount) : UserAccount :=
  let root := objectFields user.preferences
  let delivery := ((lookupField "delivery" root).map objectFields).getD []
  let delivery := fields.foldl (fun delivery field => insertField field.1 field.2 delivery) delivery
  { user with preferences := .object (insertField "delivery" (.object delivery) root) }

def setUserDefaultDeliverySurface (surface : String) (user : UserAccount) : UserAccount :=
  insertDelivery [("default_surface", string surface)] user

def setUserRecentInteractiveSurface (surface : String) (routeKey : Option String)
    (user : UserAccount) : UserAccount :=
  let routeField := match routeKey.bind nonEmptyOpt with
    | some routeKey => [("recent_interactive_route_key", string routeKey)]
    | none => []
  insertDelivery (("recent_interactive_surface", string surface) :: routeField) user

section Members

variable (env : Environment (LegacySections ρ) π)

def ensurePlatformUserExists (state : MemberState ρ π) (workspaceId userId : String) :
    Except String (List UserAccount) :=
  if state.platform.users.any fun user => user.userId = userId then .ok state.platform.users
  else
    match (resolvedIdentityBindingRecords state).find? fun binding =>
        binding.userId = some userId with
    | none => .error ("未找到 user_id=" ++ userId ++ " 对应的平台用户")
    | some binding =>
        .ok (state.platform.users ++
          [{ userId := userId
             displayName := binding.displayName
             email := none
             phone := none
             status := .active
             defaultWorkspaceId := some workspaceId
             preferences := defaultUserPreferences binding.openId }])

def assignRole (workspace : Workspace) (userId : String) (roleKind : RoleKind)
    (memberships : List Membership) : List Membership :=
  let same (membership : Membership) : Bool :=
    membership.workspaceId = workspace.workspaceId ∧ membership.userId = userId
  if memberships.any same then
    updateFirst same (fun membership => { membership with roleKind, status := .active })
      memberships
  else
    memberships ++
      [{ membershipId := "membership-" ++ userId
         workspaceId := workspace.workspaceId
         userId := userId
         roleKind := roleKind
         status := .active
         grantedByUserId := some workspace.ownerUserId
         grantedAt := none }]

def setMemberRole (userId : String) (roleKind : RoleKind) : Store (LegacySections ρ) π
    (MemberState ρ π) := do
  let userId := trim userId
  if userId = "" then
    throw "user_id 不能为空"
  if roleKind = .owner then
    throw "当前入口不支持把成员直接提升为 owner"
  let state ← loadOrCreateState env
  let some workspace := preferredWorkspace state.platform.workspaces
    | throw "当前没有可编辑的 workspace"
  if userId = workspace.ownerUserId then
    throw "本地 owner 角色不能在这里修改"
  let users ← ensurePlatformUserExists state workspace.workspaceId userId
  let memberships := assignRole workspace userId roleKind state.platform.memberships
  savePlatformPrimaryState env
    { state with platform := { state.platform with users, memberships } }

def setMemberDefaultDeliverySurface (userId surface : String) : Store (LegacySections ρ) π
    (MemberState ρ π) := do
  let userId := trim userId
  if userId = "" then
    throw "user_id 不能为空"
  let some surface := normalizeDeliverySurface surface
    | throw "surface 只能是 feishu 或 weixin"
  let state ← loadOrCreateState env
  let some workspace := preferredWorkspace state.platform.workspaces
    | throw "当前没有可编辑的 workspace"
  let users ← ensurePlatformUserExists state workspace.workspaceId userId
  if !users.any fun user => user.userId = userId then
    throw ("未找到 user_id=" ++ userId ++ " 对应的平台用户")
  let users := updateFirst (fun user => user.userId = userId)
    (setUserDefaultDeliverySurface surface) users
  savePlatformPrimaryState env { state with platform := { state.platform with users } }

def recordMemberInteractiveSurface (userId surface : String) (routeKey : Option String) :
    Store (LegacySections ρ) π Unit := do
  let userId := trim userId
  let surface := (normalizeDeliverySurface surface).getD (trim surface)
  if userId = "" ∨ surface = "" then
    pure ()
  else
    let state ← loadOrCreateState env
    let some workspace := preferredWorkspace state.platform.workspaces
      | throw "当前没有可编辑的 workspace"
    let users ← ensurePlatformUserExists state workspace.workspaceId userId
    if users.any fun user => user.userId = userId then
      let users := updateFirst (fun user => user.userId = userId)
        (setUserRecentInteractiveSurface surface routeKey) users
      let _ ← savePlatformPrimaryState env { state with platform := { state.platform with users } }

end Members

structure SameAccounts (changed state : MemberState ρ π) : Prop where
  workspaces : changed.platform.workspaces = state.platform.workspaces
  memberships : changed.platform.memberships = state.platform.memberships
  bindings : changed.platform.identityBindings = state.platform.identityBindings
  legacy : changed.sections.identityBindings = state.sections.identityBindings

structure SectionChange (ρ π : Type) where
  change : MemberState ρ π → Except String (Option (SaveKind × MemberState ρ π))
  keeps : ∀ {state kind changed}, change state = .ok (some (kind, changed)) →
    SameAccounts changed state

/-- The operations of the store: those on members, those on the sections that stay open, and
the others. -/
inductive MemberOperation (ρ π : Type) where
  | setMemberRole (userId : String) (roleKind : RoleKind)
  | setMemberDefaultDeliverySurface (userId surface : String)
  | recordMemberInteractiveSurface (userId surface : String) (routeKey : Option String)
  | changeSections (change : SectionChange ρ π)
  | other (operation : AdminOperation (LegacySections ρ) π)
      (closed : ∀ change, operation ≠ .changing change)

def MemberOperation.program (env : Environment (LegacySections ρ) π) :
    MemberOperation ρ π → Store (LegacySections ρ) π Unit
  | .setMemberRole userId roleKind => withoutResult (AdminConsole.setMemberRole env userId roleKind)
  | .setMemberDefaultDeliverySurface userId surface =>
      withoutResult (AdminConsole.setMemberDefaultDeliverySurface env userId surface)
  | .recordMemberInteractiveSurface userId surface routeKey =>
      AdminConsole.recordMemberInteractiveSurface env userId surface routeKey
  | .changeSections change => changingOperation env change.change
  | .other operation _ => operation.program env

structure MemberCall (ρ π : Type) where
  outside : Outside ρ π
  operation : MemberOperation ρ π

def runCalls (owner : String) (file : StateFile (LegacySections ρ) π)
    (calls : List (MemberCall ρ π)) : StateFile (LegacySections ρ) π :=
  calls.foldl (fun file call =>
    ((call.operation.program (memberEnvironment owner call.outside)).run.exec file).file) file

end HarborBeacon.AdminConsole
