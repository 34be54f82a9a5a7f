import HarborBeacon.IdentityCollisions

/-!
Binding an identity whose user has an account already. The account is written anew before the
projection could preserve it, so only an account without anything of its own is kept; the role
stays as the projection of the bindings leaves it.
-/

namespace HarborBeacon.AdminConsole

open FileProgram Json Text

variable {ρ π : Type}

section Runs

variable {owner : String} {outside : Outside ρ π} {file : StateFile (LegacySections ρ) π}
  {state after : MemberState ρ π} {code : String} {user bound : IdentityBindingRecord}
  {workspace : Workspace}

def boundState (state : MemberState ρ π) (workspace : Workspace) (bound : IdentityBindingRecord) :
    MemberState ρ π :=
  let binding :=
    { state.binding with
      status := "已绑定", metric := "已绑定", boundUser := some bound.displayName }
  { state with
    binding
    platform :=
      { state.platform with
        users := upsertBy UserAccount.userId
          (buildUserAccountProjection bound workspace.workspaceId) state.platform.users
        identityBindings := upsertBy IdentityBinding.identityId
          (buildIdentityBindingProjection bound) state.platform.identityBindings
        memberships :=
          if projectedUserIdForBinding bound ≠ workspace.ownerUserId then
            activateMembership workspace bound state.platform.memberships
          else state.platform.memberships
        workspaces := updatePreferredWorkspace (setWorkspaceBindingProjection binding)
          state.platform.workspaces } }

def primaryState (env : Environment (LegacySections ρ) π) (state : MemberState ρ π) :
    MemberState ρ π :=
  syncPlatform env (sanitizeLegacyAdminFields env (hydrateLegacyViewsFromPlatform env state))

/-- What a bind call returns if it succeeds. -/
theorem bindIdentityUser_eq_ok {env : Environment (LegacySections ρ) π}
    (hload : loadedState env file = .ok state) :
    ((bindIdentityUser env code user).run.exec file).result = .ok after ↔
      normalizeBindingCode code = some state.binding.sessionCode ∧
        ∃ bound workspace, sanitizeIdentityBindingRecord user = .ok bound ∧
          preferredWorkspace state.platform.workspaces = some workspace ∧
            after = primaryState env (boundState state workspace bound) := by
  unfold bindIdentityUser
  rw [exec_run_bind_of_ok (exec_loadOrCreateState hload)]
  have hfailed : ∀ (message : String) (saved : StateFile (LegacySections ρ) π),
      ((throw message : Store (LegacySections ρ) π (MemberState ρ π)).run.exec saved).result ≠
        .ok after := by
    intro message saved h
    cases h
  cases hcode : normalizeBindingCode code with
  | none =>
      refine iff_of_false (hfailed _ _) ?_
      rintro ⟨hsome, -⟩
      cases hsome
  | some providedCode =>
      dsimp only
      by_cases hsame : providedCode ≠ state.binding.sessionCode
      · rw [if_pos hsame]
        refine iff_of_false (hfailed _ _) ?_
        rintro ⟨hsome, -⟩
        exact hsame (Option.some.inj hsome)
      · rw [if_neg hsame]
        have hcodes : some providedCode = some state.binding.sessionCode :=
          congrArg some (not_not.mp hsame)
        cases hbound : sanitizeIdentityBindingRecord user with
        | error message =>
            refine iff_of_false ?_ ?_
            · intro h
              cases h
            · rintro ⟨-, bound, workspace, hok, -⟩
              cases hok
        | ok bound =>
            have hlift : ∀ f : IdentityBindingRecord → Store (LegacySections ρ) π (MemberState ρ π),
                ((liftM (Except.ok bound : Except String IdentityBindingRecord) :
                  Store (LegacySections ρ) π IdentityBindingRecord) >>= f) = f bound :=
              fun _ => rfl
            rw [hlift]
            cases hworkspace : preferredWorkspace state.platform.workspaces with
            | none =>
                refine iff_of_false (hfailed _ _) ?_
                rintro ⟨-, bound, workspace, -, hsome, -⟩
                cases hsome
            | some workspace =>
                have hresult : ((savePlatformPrimaryState env
                    (boundState state workspace bound)).run.exec
                      (.holds (sanitizeAdminState env state))).result =
                    .ok (primaryState env (boundState state workspace bound)) := rfl
                refine (Eq.congr_left hresult).trans ?_
                constructor
                · intro h
                  exact ⟨hcodes, bound, workspace, rfl, rfl, (Except.ok.inj h).symm⟩
                · rintro ⟨-, other, place, hother, hplace, rfl⟩
                  rw [Except.ok.inj hother, Option.some.inj hplace]

end Runs

section Accounts

variable {owner : String} {outside : Outside ρ π} {state : MemberState ρ π}
  {users : List UserAccount} {bound : IdentityBindingRecord} {workspace : Workspace}
  {account : UserAccount} {userId : String}

def accountOf (users : List UserAccount) (userId : String) : Option UserAccount :=
  users.find? fun user => user.userId = userId

structure AccountKept (before after : UserAccount) : Prop where
  displayName : isBlank before.displayName = false → after.displayName = before.displayName
  email : before.email ≠ none → after.email = before.email
  phone : before.phone ≠ none → after.phone = before.phone
  status : after.status = before.status
  defaultWorkspaceId : before.defaultWorkspaceId ≠ none →
    after.defaultWorkspaceId = before.defaultWorkspaceId
  preferences : keepsPreferences before.preferences = true →
    after.preferences = before.preferences

structure NotCustomised (bound : IdentityBindingRecord) (account : UserAccount) : Prop where
  displayName : isBlank account.displayName = false → account.displayName = bound.displayName
  email : account.email = none
  phone : account.phone = none
  status : account.status = .active
  defaultWorkspaceId : account.defaultWorkspaceId ≠ none →
    account.defaultWorkspaceId = some defaultWorkspaceId
  preferences : keepsPreferences account.preferences = true →
    account.preferences = defaultUserPreferences bound.openId

theorem accountKept_projection_iff :
    AccountKept account (buildUserAccountProjection bound defaultWorkspaceId) ↔
      NotCustomised bound account := by
  have hnone : ∀ value : Option String, (value ≠ none → none = value) ↔ value = none := by
    intro value
    cases value with
    | none => simp
    | some text => simp
  constructor
  · intro h
    exact ⟨fun hfilled => (h.displayName hfilled).symm, (hnone _).mp h.email, (hnone _).mp h.phone,
      h.status.symm, fun hsome => (h.defaultWorkspaceId hsome).symm,
      fun hkept => (h.preferences hkept).symm⟩
  · intro h
    exact ⟨fun hfilled => (h.displayName hfilled).symm, (hnone _).mpr h.email,
      (hnone _).mpr h.phone, h.status.symm, fun hsome => (h.defaultWorkspaceId hsome).symm,
      fun hkept => (h.preferences hkept).symm⟩

theorem displayName_of_sanitize {user : IdentityBindingRecord}
    (h : sanitizeIdentityBindingRecord user = .ok bound) : isBlank bound.displayName = false := by
  have hfilled : ∀ text : String, trim text ≠ "" → isBlank (trim text) = false := by
    intro text hne
    rw [isBlank, trim_trim]
    simpa using hne
  rw [sanitizeIdentityBindingRecord] at h
  split at h
  · cases h
  · rename_i hopen
    obtain rfl := Except.ok.inj h
    dsimp only
    split_ifs with hname
    · exact hfilled _ hopen
    · exact hfilled _ hname

theorem find?_upsertBy_self {α : Type} (key : α → String) (new : α) (items : List α) :
    (upsertBy key new items).find? (fun item => key item = key new) = some new := by
  rw [upsertBy]
  split
  · rename_i hany
    induction items with
    | nil => cases hany
    | cons item rest ih =>
        rw [updateFirst]
        split
        · exact List.find?_cons_of_pos (decide_eq_true rfl)
        · rename_i hitem
          have hother := Bool.eq_false_iff.mpr hitem
          rw [List.any_cons, hother, Bool.false_or] at hany
          rw [List.find?_cons, hother]
          exact ih hany
  · rename_i hany
    have hrest : items.find? (fun item => key item = key new) = none := by
      rw [List.find?_eq_none]
      exact fun item hitem hkey => hany (List.any_eq_true.mpr ⟨item, hitem, hkey⟩)
    rw [List.find?_append, hrest]
    simp

theorem insertField_ne_nil (key : String) (value : Value) (fields : Fields) :
    insertField key value fields ≠ [] := by
  cases fields with
  | nil => simp [insertField]
  | cons field rest =>
      rw [insertField]
      split_ifs
      · simp
      · simp
      · simp

theorem preserve_projection {projected : UserAccount}
    (hfind : accountOf users projected.userId =
      some (buildUserAccountProjection bound defaultWorkspaceId))
    (hname : isBlank bound.displayName = false) (hemail : projected.email = none)
    (hphone : projected.phone = none) :
    preserveCustomUserAccount users projected =
      buildUserAccountProjection bound defaultWorkspaceId := by
  have hkeeps : ∀ openId, keepsPreferences (defaultUserPreferences openId) = true := by
    intro openId
    simp [defaultUserPreferences, obj, keepsPreferences, insertField_ne_nil]
  have huser := List.find?_some hfind
  rw [decide_eq_true_iff] at huser
  rw [preserveCustomUserAccount]
  rw [accountOf] at hfind
  rw [hfind]
  dsimp only [buildUserAccountProjection] at huser ⊢
  rw [hname, hemail, hphone, ← huser, if_neg Bool.false_ne_true, if_pos (hkeeps bound.openId)]
  rfl

theorem mem_buildUserAccounts (h : account ∈ buildUserAccounts state workspace) :
    ∃ projected, account = preserveCustomUserAccount state.platform.users projected ∧
      projected.email = none ∧ projected.phone = none := by
  rw [buildUserAccounts] at h
  generalize resolvedIdentityBindingRecords state = records at h
  induction records using List.reverseRecOn with
  | nil =>
      rw [List.foldl_nil, List.mem_singleton] at h
      exact ⟨_, h, rfl, rfl⟩
  | append_singleton records record ih =>
      rw [List.foldl_concat] at h
      split at h
      · exact ih h
      · rcases List.mem_append.mp h with hmem | hmem
        · exact ih hmem
        · exact ⟨_, List.mem_singleton.mp hmem, rfl, rfl⟩

theorem userId_preserveCustomUserAccount (users : List UserAccount) (user : UserAccount) :
    (preserveCustomUserAccount users user).userId = user.userId := by
  rw [preserveCustomUserAccount]
  split
  · rfl
  · rfl

theorem accountOf_foldl_upsertBy {accounts : List UserAccount}
    (hfind : accountOf users userId = some account)
    (h : ∀ other ∈ accounts, other.userId = userId → other = account) :
    accountOf (accounts.foldl (fun users user => upsertBy UserAccount.userId user users) users)
      userId = some account := by
  induction accounts generalizing users with
  | nil => exact hfind
  | cons other rest ih =>
      rw [List.forall_mem_cons] at h
      rw [List.foldl_cons]
      refine ih ?_ h.2
      by_cases hother : other.userId = userId
      · have hself := find?_upsertBy_self UserAccount.userId other users
        rw [hother] at hself
        rw [accountOf, hself, h.1 hother]
      · rw [accountOf, find?_upsertBy_of_ne fun hsame => hother hsame.symm]
        exact hfind

theorem accountOf_sync (hname : isBlank bound.displayName = false)
    (hfind : accountOf state.platform.users (projectedUserIdForBinding bound) =
      some (buildUserAccountProjection bound defaultWorkspaceId)) :
    accountOf (syncPlatformFromLegacy owner outside state).users
        (projectedUserIdForBinding bound) =
      some (buildUserAccountProjection bound defaultWorkspaceId) := by
  rw [syncPlatformFromLegacy]
  refine accountOf_foldl_upsertBy hfind ?_
  intro other hother huser
  obtain ⟨projected, rfl, hemail, hphone⟩ := mem_buildUserAccounts hother
  rw [userId_preserveCustomUserAccount] at huser
  refine preserve_projection ?_ hname hemail hphone
  rw [huser]
  exact hfind

theorem accountOf_primaryState (hname : isBlank bound.displayName = false)
    (hworkspace : workspace.workspaceId = defaultWorkspaceId) :
    accountOf (primaryState (memberEnvironment owner outside)
        (boundState state workspace bound)).platform.users (projectedUserIdForBinding bound) =
      some (buildUserAccountProjection bound defaultWorkspaceId) := by
  apply accountOf_sync hname
  change accountOf (upsertBy UserAccount.userId
    (buildUserAccountProjection bound workspace.workspaceId) state.platform.users) _ = _
  rw [hworkspace]
  have hself := find?_upsertBy_self UserAccount.userId
    (buildUserAccountProjection bound defaultWorkspaceId) state.platform.users
  exact hself

end Accounts

section Roles

variable {owner : String} {outside : Outside ρ π} {state : MemberState ρ π}
  {memberships others : List Membership} {bound : IdentityBindingRecord} {workspace : Workspace}
  {userId : String}

def Membership.activated (membership : Membership) : Membership :=
  { membership with status := .active }

theorem memberRole_map_activated (memberships : List Membership) (userId : String) :
    memberRole (memberships.map Membership.activated) userId = memberRole memberships userId := by
  rw [memberRole, List.find?_map, Option.map_map]
  rfl

theorem map_upsertBy {α : Type} {key : α → String} {f : α → α} (hf : ∀ item, key (f item) = key item)
    (new : α) (items : List α) :
    (upsertBy key new items).map f = upsertBy key (f new) (items.map f) := by
  have hany : ((items.map f).any fun item => key item = key (f new)) =
      items.any fun item => key item = key new := by
    rw [List.any_map]
    simp only [Function.comp_def, hf]
  rw [upsertBy, upsertBy, hany]
  split
  · clear hany
    rename_i hany
    clear hany
    simp only [hf]
    induction items with
    | nil => rfl
    | cons item rest ih =>
        rw [updateFirst, List.map_cons, updateFirst, hf]
        split
        · rfl
        · rw [List.map_cons, ih]
  · rw [List.map_append]
    rfl

theorem activated_preserveCustomMembership (memberships : List Membership)
    (membership : Membership) :
    (preserveCustomMembership (memberships.map Membership.activated) membership).activated =
      (preserveCustomMembership memberships membership).activated := by
  rw [preserveCustomMembership, preserveCustomMembership]
  split_ifs
  · rfl
  · rw [List.find?_map]
    have hsame : ((fun existing : Membership =>
        decide (existing.membershipId = membership.membershipId)) ∘ Membership.activated) =
          fun existing => decide (existing.membershipId = membership.membershipId) := rfl
    rw [hsame]
    cases memberships.find? fun existing : Membership =>
        decide (existing.membershipId = membership.membershipId) with
    | none => rfl
    | some existing => rfl

theorem map_mergeMembership (memberships : List Membership) (membership : Membership) :
    (mergeMembership memberships membership).map Membership.activated =
      (mergeMembership (memberships.map Membership.activated) membership).map
        Membership.activated := by
  have hkey : ∀ item : Membership, item.activated.membershipId = item.membershipId := fun _ => rfl
  have htwice : (memberships.map Membership.activated).map Membership.activated =
      memberships.map Membership.activated := by
    rw [List.map_map]
    rfl
  rw [mergeMembership, mergeMembership, map_upsertBy hkey, map_upsertBy hkey,
    activated_preserveCustomMembership, htwice]

theorem map_foldl_mergeMembership {projected : List Membership}
    (h : memberships.map Membership.activated = others.map Membership.activated) :
    (projected.foldl mergeMembership memberships).map Membership.activated =
      (projected.foldl mergeMembership others).map Membership.activated := by
  induction projected generalizing memberships others with
  | nil => exact h
  | cons membership rest ih =>
      apply ih
      rw [map_mergeMembership, h, ← map_mergeMembership]

theorem projectedUsers_collect (users accounts : List UserAccount) (seen : List String)
    (bindings : List IdentityBinding) :
    (collectIdentityBindings users seen bindings).map projectedUserIdForBinding =
      (collectIdentityBindings accounts seen bindings).map projectedUserIdForBinding := by
  induction bindings generalizing seen with
  | nil => rfl
  | cons binding rest ih =>
      rw [collectIdentityBindings, collectIdentityBindings]
      split
      · exact ih seen
      · rw [List.map_cons, List.map_cons, ih]
        rfl

theorem buildMemberships_congr {changed : MemberState ρ π} (settings : Value)
    (h : (resolvedIdentityBindingRecords changed).map projectedUserIdForBinding =
      (resolvedIdentityBindingRecords state).map projectedUserIdForBinding) :
    buildMemberships changed (buildWorkspaceProjection owner settings) =
      buildMemberships state (buildWorkspaceProjection owner .null) := by
  have hfold : ∀ (records : List IdentityBindingRecord) (settings : Value),
      records.foldl (fun memberships binding =>
        if projectedUserIdForBinding binding = owner ∨ memberships.any fun membership =>
            membership.userId = projectedUserIdForBinding binding then memberships
        else memberships ++
          [buildMembershipProjection (buildWorkspaceProjection owner settings) binding])
          [ownMembership owner] =
        (records.map projectedUserIdForBinding).foldl (fun memberships userId =>
          if userId = owner ∨ memberships.any fun membership => membership.userId = userId then
            memberships
          else memberships ++
            [{ membershipId := "membership-" ++ userId
               workspaceId := defaultWorkspaceId
               userId := userId
               roleKind := .viewer
               status := .active
               grantedByUserId := some owner
               grantedAt := none }]) [ownMembership owner] := by
    intro records settings
    rw [List.foldl_map]
    rfl
  exact (hfold _ settings).trans ((congrArg _ h).trans (hfold _ .null).symm)

theorem map_activateMembership {role : RoleKind}
    (hworkspace : workspace.workspaceId = defaultWorkspaceId)
    (hrole : memberRole memberships (projectedUserIdForBinding bound) = some role) :
    (activateMembership workspace bound memberships).map Membership.activated =
      memberships.map Membership.activated := by
  have hany : memberships.any (isMember (projectedUserIdForBinding bound)) = true := by
    by_contra hnone
    rw [memberRole_eq_none_of_any hnone] at hrole
    cases hrole
  unfold activateMembership
  rw [hworkspace]
  dsimp only
  refine (congrArg (List.map Membership.activated) (if_pos hany)).trans ?_
  exact map_updateFirst fun _ _ _ => rfl

end Roles

section Again

variable {owner : String} {outside : Outside ρ π} {file : StateFile (LegacySections ρ) π}
  {state after : MemberState ρ π} {code : String} {user bound : IdentityBindingRecord}
  {workspace : Workspace} {account : UserAccount}

/-- The user keeps what is their own in the account, and the role. -/
def UserKept (state after : MemberState ρ π) (userId : String) : Prop :=
  (∀ account, accountOf state.platform.users userId = some account →
    ∃ kept, accountOf after.platform.users userId = some kept ∧ AccountKept account kept) ∧
  ∀ role, memberRole state.platform.memberships userId = some role →
    memberRole after.platform.memberships userId = some role

def withIdentity (state : MemberState ρ π) (bound : IdentityBindingRecord) : MemberState ρ π :=
  { state with
    platform :=
      { state.platform with
        identityBindings := upsertBy IdentityBinding.identityId
          (buildIdentityBindingProjection bound) state.platform.identityBindings } }

/-- The projection of the bindings on the memberships leaves the role of the user. It does not
where the membership id of the user stands for somebody else. -/
def RoleStands (owner : String) (state : MemberState ρ π) (bound : IdentityBindingRecord) : Prop :=
  ∀ role, memberRole state.platform.memberships (projectedUserIdForBinding bound) = some role →
    memberRole ((buildMemberships (withIdentity state bound)
        (buildWorkspaceProjection owner .null)).foldl mergeMembership state.platform.memberships)
      (projectedUserIdForBinding bound) = some role

theorem preferredWorkspace_of_loaded
    (hload : loadedState (memberEnvironment owner outside) file = .ok state)
    (hworkspace : preferredWorkspace state.platform.workspaces = some workspace) :
    workspace.workspaceId = defaultWorkspaceId := by
  obtain ⟨earlier, hsame⟩ : ∃ earlier : MemberState ρ π,
      state.platform.workspaces = upsertBy Workspace.workspaceId
        (buildWorkspaceProjection owner (outside.workspaceSettings earlier))
          earlier.platform.workspaces := by
    have hnormal : ∀ saved : MemberState ρ π, ∃ earlier : MemberState ρ π,
        (normalizeLoadedAdminState (memberEnvironment owner outside) saved).platform.workspaces =
          upsertBy Workspace.workspaceId
            (buildWorkspaceProjection owner (outside.workspaceSettings earlier))
              earlier.platform.workspaces :=
      fun saved => ⟨sanitizeLegacyAdminFields (memberEnvironment owner outside)
        (hydrateLegacyViewsFromPlatform (memberEnvironment owner outside)
          (sanitizeLegacyAdminFields (memberEnvironment owner outside) saved)), rfl⟩
    cases file with
    | missing =>
        obtain ⟨others, rfl⟩ := applyRegistryHints_eq_ok hload
        exact hnormal _
    | unreadable message => cases hload
    | holds saved =>
        obtain ⟨others, rfl⟩ := applyRegistryHints_eq_ok hload
        exact hnormal _
  have hself := find?_upsertBy_self Workspace.workspaceId
    (buildWorkspaceProjection owner (outside.workspaceSettings earlier))
    earlier.platform.workspaces
  have hdefault : (buildWorkspaceProjection owner
      (outside.workspaceSettings earlier)).workspaceId = defaultWorkspaceId := rfl
  rw [hdefault] at hself
  rw [preferredWorkspace, hsame, hself, Option.some_or] at hworkspace
  rw [← Option.some.inj hworkspace]
  rfl

theorem memberRole_primaryState {role : RoleKind}
    (hworkspace : workspace.workspaceId = defaultWorkspaceId)
    (hrole : memberRole state.platform.memberships (projectedUserIdForBinding bound) =
      some role) :
    memberRole (primaryState (memberEnvironment owner outside)
        (boundState state workspace bound)).platform.memberships (projectedUserIdForBinding bound) =
      memberRole ((buildMemberships (withIdentity state bound)
          (buildWorkspaceProjection owner .null)).foldl mergeMembership state.platform.memberships)
        (projectedUserIdForBinding bound) := by
  have hactivated : (boundState state workspace bound).platform.memberships.map
      Membership.activated = state.platform.memberships.map Membership.activated := by
    dsimp only [boundState]
    split_ifs
    · exact map_activateMembership hworkspace hrole
    · rfl
  have hnonempty : upsertBy IdentityBinding.identityId (buildIdentityBindingProjection bound)
      state.platform.identityBindings ≠ [] := upsertBy_ne_nil _ _ _
  have hviews : (resolvedIdentityBindingRecords (sanitizeLegacyAdminFields
      (memberEnvironment owner outside) (hydrateLegacyViewsFromPlatform
        (memberEnvironment owner outside) (boundState state workspace bound)))).map
          projectedUserIdForBinding =
      (resolvedIdentityBindingRecords (withIdentity state bound)).map
        projectedUserIdForBinding := by
    rw [resolvedIdentityBindingRecords, resolvedIdentityBindingRecords]
    refine (congrArg _ (if_pos hnonempty)).trans
      (Eq.trans ?_ (congrArg _ (if_pos hnonempty)).symm)
    exact projectedUsers_collect _ _ _ _
  rw [← memberRole_map_activated, ← memberRole_map_activated (List.foldl _ _ _)]
  change memberRole (((buildMemberships _ (buildWorkspaceProjection owner _)).foldl mergeMembership
    (boundState state workspace bound).platform.memberships).map Membership.activated) _ = _
  rw [buildMemberships_congr _ hviews, map_foldl_mergeMembership hactivated]

end Again

def plainOutside : Outside Unit Unit where
  modelTestTimestamp := "1"
  newUuid := "u1"
  uuidAt := fun _ => "u1"
  bindingCode := "ABCD-1234"
  newBindingCode := "ABCD-1234"
  renderF64 := fun _ => []
  defaultOthers := ()
  defaultPlatformSections := ()
  applyRtspHints := .ok
  sanitizeOthers := id
  hydrateOthers := fun state => state.sections.others
  workspaceSettings := fun _ => .object []
  platformSections := fun state => state.platform.sections

def alice : IdentityBindingRecord :=
  namedIdentity "ou_alice" "Alice"

def savedAccount (status : UserStatus) : MemberState Unit Unit :=
  { defaultAdminState plainOutside with
    platform :=
      { workspaces := []
        users := [{ buildUserAccountProjection alice defaultWorkspaceId with status }]
        memberships := []
        identityBindings := [buildIdentityBindingProjection alice]
        sections := () } }

def loadedAccount (status : UserStatus) : MemberState Unit Unit :=
  normalizeLoadedAdminState (memberEnvironment "local-owner" plainOutside) (savedAccount status)

theorem accountOf_loadedAccount (status : UserStatus) :
    accountOf (loadedAccount status).platform.users (projectedUserIdForBinding alice) =
      some { buildUserAccountProjection alice defaultWorkspaceId with status } := by
  cases status <;> decide

theorem bind_loadedAccount (status : UserStatus) : ∃ workspace after,
    preferredWorkspace (loadedAccount status).platform.workspaces = some workspace ∧
      after = primaryState (memberEnvironment "local-owner" plainOutside)
        (boundState (loadedAccount status) workspace alice) ∧
      ((bindIdentityUser (memberEnvironment "local-owner" plainOutside) "ABCD1234"
        alice).run.exec (.holds (savedAccount status))).result = .ok after := by
  have hload : loadedState (memberEnvironment "local-owner" plainOutside)
      (.holds (savedAccount status)) = .ok (loadedAccount status) := rfl
  have hcode : normalizeBindingCode "ABCD1234" =
      some (loadedAccount status).binding.sessionCode := by
    cases status <;> decide +kernel
  have halice : sanitizeIdentityBindingRecord alice = .ok alice :=
    sanitize_namedIdentity (by decide +kernel) (by decide +kernel) (by decide) (by decide)
  obtain ⟨workspace, hworkspace⟩ : ∃ workspace,
      preferredWorkspace (loadedAccount status).platform.workspaces = some workspace := by
    apply Option.isSome_iff_exists.mp
    cases status <;> decide +kernel
  exact ⟨workspace, _, hworkspace, rfl, (bindIdentityUser_eq_ok hload).mpr
    ⟨hcode, alice, workspace, halice, hworkspace, rfl⟩⟩

end HarborBeacon.AdminConsole
