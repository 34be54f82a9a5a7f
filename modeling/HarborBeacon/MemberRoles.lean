import HarborBeacon.MemberRoster

/-!
The roles of members over runs of the store. Whatever is called, the owner stays the only
owner, and the role of another user changes only where it is set or where the user is bound
for the first time.
-/

namespace HarborBeacon.AdminConsole

open FileProgram Text

variable {ρ π : Type}

section Files

/-- The state file holds these memberships, or will as soon as it is created. -/
def Holds (owner : String) (memberships : List Membership) :
    StateFile (LegacySections ρ) π → Prop
  | .missing => memberships = [ownMembership owner]
  | .unreadable _ => False
  | .holds state => Settled owner state ∧ state.platform.memberships = memberships

variable {owner : String} {memberships : List Membership}
  {file : StateFile (LegacySections ρ) π} {outside : Outside ρ π} {state : MemberState ρ π}

theorem applyRegistryHints_eq_ok {loaded : MemberState ρ π}
    (h : applyRegistryHints (memberEnvironment owner outside) loaded = .ok state) :
    ∃ others, state = normalizeLoadedAdminState (memberEnvironment owner outside)
      { loaded with sections := { loaded.sections with others } } := by
  change ((outside.applyRtspHints loaded.sections.others).map _ >>= _) = _ at h
  cases hhints : outside.applyRtspHints loaded.sections.others with
  | error message =>
      rw [hhints] at h
      cases h
  | ok others =>
      rw [hhints] at h
      exact ⟨others, (Except.ok.inj h).symm⟩

theorem Holds.load (h : Holds owner memberships file)
    (hloaded : loadedState (memberEnvironment owner outside) file = .ok state) :
    Settled owner state ∧ state.platform.memberships = memberships := by
  cases file with
  | missing =>
      obtain ⟨others, rfl⟩ := applyRegistryHints_eq_ok hloaded
      change memberships = _ at h
      subst h
      exact Blank.sync ⟨rfl, rfl, rfl, rfl⟩ outside
  | unreadable message => exact h.elim
  | holds saved =>
      obtain ⟨others, rfl⟩ := applyRegistryHints_eq_ok hloaded
      obtain ⟨hsettled, hsame⟩ := h
      have hothers : Settled owner { saved with sections := { saved.sections with others } } :=
        hsettled.withOthers rfl
      obtain ⟨hnormal, hkept⟩ := hothers.normalizeLoadedAdminState outside
      exact ⟨hnormal, hkept.trans hsame⟩

end Files

section Programs

variable {owner : String} {outside : Outside ρ π} {memberships : List Membership}
  {P : List Membership → Prop} {α β : Type} {f : MemberState ρ π → Store (LegacySections ρ) π α}
  {x : Store (LegacySections ρ) π α}

/-- Run on a file with these memberships, the program leaves a file with memberships of the
given kind. -/
def Leads (owner : String) (memberships : List Membership) (P : List Membership → Prop)
    (x : Store (LegacySections ρ) π α) : Prop :=
  ∀ file, Holds owner memberships file →
    ∃ after, Holds owner after (x.run.exec file).file ∧ P after

theorem leads_pure (hP : P memberships) (a : α) :
    Leads owner memberships P (pure a : Store (LegacySections ρ) π α) :=
  fun _ h => ⟨memberships, h, hP⟩

theorem leads_throw (hP : P memberships) (message : String) :
    Leads owner memberships P (throw message : Store (LegacySections ρ) π α) :=
  fun _ h => ⟨memberships, h, hP⟩

theorem leads_fromExcept (hP : P memberships) (result : Except String α)
    {f : α → Store (LegacySections ρ) π β}
    (hf : ∀ a, result = .ok a → Leads owner memberships P (f a)) :
    Leads owner memberships P (liftM result >>= f) := by
  cases result with
  | ok a => exact hf a rfl
  | error message => exact fun _ h => ⟨memberships, h, hP⟩

theorem leads_guard (hP : P memberships) {c : Prop} [Decidable c] {message : String}
    {f : PUnit → Store (LegacySections ρ) π α} (hf : ¬ c → Leads owner memberships P (f ())) :
    Leads owner memberships P (if c then throw message >>= f else f ()) := by
  split
  · exact fun _ h => ⟨memberships, h, hP⟩
  · rename_i hc
    exact hf hc

theorem leads_map (hx : Leads owner memberships P x) (f : α → β) :
    Leads owner memberships P (x >>= fun a => pure (f a)) := by
  intro file h
  obtain ⟨after, hafter, hP⟩ := hx file h
  refine ⟨after, ?_, hP⟩
  rw [exec_run_bind, Outcome.andThenOk]
  split
  · exact hafter
  · exact hafter

theorem leads_withoutResult (hx : Leads owner memberships P x) :
    Leads owner memberships P (withoutResult x) :=
  leads_map hx fun _ => ()

theorem leads_loadState (hP : P memberships)
    (hf : ∀ state, Settled owner state → state.platform.memberships = memberships →
      Leads owner memberships P (f state)) :
    Leads owner memberships P (loadState (memberEnvironment owner outside) >>= f) := by
  intro file h
  cases hloaded : loadedState (memberEnvironment owner outside) file with
  | error message =>
      have hload : (loadState (memberEnvironment owner outside)).run.exec file =
          ⟨file, [], .error message⟩ := congrArg (Outcome.mk file []) hloaded
      rw [exec_run_bind_of_error hload]
      exact ⟨memberships, h, hP⟩
  | ok state =>
      have hload : (loadState (memberEnvironment owner outside)).run.exec file =
          ⟨file, [], .ok state⟩ := congrArg (Outcome.mk file []) hloaded
      rw [exec_run_bind_of_ok hload]
      obtain ⟨hsettled, hsame⟩ := h.load hloaded
      exact hf state hsettled hsame file h

theorem leads_loadOrCreateState (hP : P memberships)
    (hf : ∀ state, Settled owner state → state.platform.memberships = memberships →
      Leads owner memberships P (f state)) :
    Leads owner memberships P (loadOrCreateState (memberEnvironment owner outside) >>= f) := by
  rw [loadOrCreateState]
  simp only [bind_assoc, pure_bind]
  refine leads_loadState hP fun state hsettled hsame file h => ?_
  obtain ⟨hsaved, hkept⟩ := hsettled.sanitizeAdminState outside
  exact hf state hsettled hsame _ ⟨hsaved, hkept.trans hsame⟩

theorem leads_savePlatformPrimaryState {state : MemberState ρ π} (h : Settled owner state)
    (hP : P state.platform.memberships) :
    Leads owner memberships P
      (savePlatformPrimaryState (memberEnvironment owner outside) state) := by
  intro file _
  have hviews := (h.hydrate outside).sanitizeLegacyAdminFields outside
  have hsynced := hviews.sync outside
  have hsame := memberships_sync hviews outside
  obtain ⟨hsaved, hkept⟩ := hsynced.sanitizeAdminState outside
  exact ⟨state.platform.memberships, ⟨hsaved, hkept.trans hsame⟩, hP⟩

theorem leads_saveProjectedState {state : MemberState ρ π} (h : Settled owner state)
    (hP : P state.platform.memberships) :
    Leads owner memberships P (saveProjectedState (memberEnvironment owner outside) state) := by
  intro file _
  have hfields := h.sanitizeLegacyAdminFields outside
  have hsynced := (hfields.sync outside).hydrate outside
  have hsame := memberships_sync hfields outside
  obtain ⟨hsaved, hkept⟩ := hsynced.sanitizeAdminState outside
  exact ⟨state.platform.memberships, ⟨hsaved, hkept.trans hsame⟩, hP⟩

end Programs

section Operations

variable {owner : String} {outside : Outside ρ π} {memberships : List Membership}
  {state : MemberState ρ π}

theorem Settled.congr (h : Settled owner state) {changed : MemberState ρ π}
    (hsame : SameAccounts changed state) : Settled owner changed := by
  constructor
  · rw [hsame.workspaces]
    exact h.workspaces
  · rw [hsame.memberships]
    exact h.roster
  · rw [hsame.bindings, hsame.memberships]
    exact h.bindings
  · rw [hsame.bindings, hsame.legacy]
    exact h.legacy

def KeepsMembers {α : Type} (owner : String) (x : Store (LegacySections ρ) π α) : Prop :=
  ∀ memberships, Leads owner memberships (· = memberships) x

theorem leads_saveChanged {changed : MemberState ρ π} (h : Settled owner state)
    (hmembers : state.platform.memberships = memberships) (hsame : SameAccounts changed state) :
    Leads owner memberships (· = memberships)
      (saveProjectedState (memberEnvironment owner outside) changed) :=
  leads_saveProjectedState (h.congr hsame) (hsame.memberships.trans hmembers)

theorem leads_savePlatformChanged {changed : MemberState ρ π} (h : Settled owner state)
    (hmembers : state.platform.memberships = memberships) (hsame : SameAccounts changed state) :
    Leads owner memberships (· = memberships)
      (savePlatformPrimaryState (memberEnvironment owner outside) changed) :=
  leads_savePlatformPrimaryState (h.congr hsame) (hsame.memberships.trans hmembers)

theorem keepsMembers_refreshBindingQr :
    KeepsMembers owner (refreshBindingQr (memberEnvironment owner outside)) :=
  fun _ => leads_loadOrCreateState rfl fun _ hsettled hmembers =>
    leads_saveChanged hsettled hmembers ⟨rfl, rfl, rfl, rfl⟩

theorem keepsMembers_markDemoBound (userName : String) :
    KeepsMembers owner (markDemoBound (memberEnvironment owner outside) userName) :=
  fun _ => leads_loadOrCreateState rfl fun _ hsettled hmembers =>
    leads_saveChanged hsettled hmembers ⟨rfl, rfl, rfl, rfl⟩

theorem keepsMembers_upsertNotificationTarget (targetId : Option String)
    (label routeKey platformHint : String) (makeDefault : Bool) :
    KeepsMembers owner (upsertNotificationTarget (memberEnvironment owner outside) targetId label
      routeKey platformHint makeDefault) := by
  intro memberships
  refine leads_loadOrCreateState (by rfl) fun state hsettled hmembers => ?_
  refine leads_fromExcept (by rfl) _ fun label _ => ?_
  refine leads_fromExcept (by rfl) _ fun routeKey _ => ?_
  exact leads_saveChanged hsettled hmembers ⟨rfl, rfl, rfl, rfl⟩

theorem keepsMembers_setDefaultNotificationTarget (targetId : String) :
    KeepsMembers owner
      (setDefaultNotificationTarget (memberEnvironment owner outside) targetId) := by
  intro memberships
  unfold setDefaultNotificationTarget
  refine leads_guard (by rfl) fun _ => ?_
  refine leads_loadOrCreateState (by rfl) fun state hsettled hmembers => ?_
  refine leads_guard (by rfl) fun _ => ?_
  exact leads_saveChanged hsettled hmembers ⟨rfl, rfl, rfl, rfl⟩

theorem keepsMembers_deleteNotificationTarget (targetId : String) :
    KeepsMembers owner (deleteNotificationTarget (memberEnvironment owner outside) targetId) := by
  intro memberships
  unfold deleteNotificationTarget
  refine leads_guard (by rfl) fun _ => ?_
  refine leads_loadOrCreateState (by rfl) fun state hsettled hmembers => ?_
  refine leads_guard (by rfl) fun _ => ?_
  exact leads_saveChanged hsettled hmembers ⟨rfl, rfl, rfl, rfl⟩

theorem keepsMembers_upsertAutomationReview (review : AutomationRuleReview) :
    KeepsMembers owner (upsertAutomationReview (memberEnvironment owner outside) review) := by
  intro memberships
  refine leads_loadOrCreateState (by rfl) fun state hsettled hmembers => ?_
  refine leads_fromExcept (by rfl) _ fun review _ => ?_
  exact leads_saveChanged hsettled hmembers ⟨rfl, rfl, rfl, rfl⟩

theorem keepsMembers_setAutomationReviewStatus (reviewId status : String) :
    KeepsMembers owner
      (setAutomationReviewStatus (memberEnvironment owner outside) reviewId status) := by
  intro memberships
  unfold setAutomationReviewStatus
  refine leads_guard (by rfl) fun _ => ?_
  refine leads_fromExcept (by rfl) _ fun status _ => ?_
  refine leads_loadOrCreateState (by rfl) fun state hsettled hmembers => ?_
  refine leads_guard (by rfl) fun _ => ?_
  exact leads_saveChanged hsettled hmembers ⟨rfl, rfl, rfl, rfl⟩

theorem keepsMembers_createOrUpdateModelDownloadJob (modelId displayName providerKey : String)
    (targetPath : Option String) (metadata : Json.Value) :
    KeepsMembers owner (createOrUpdateModelDownloadJob (memberEnvironment owner outside) modelId
      displayName providerKey targetPath metadata) := by
  intro memberships
  unfold createOrUpdateModelDownloadJob
  refine leads_guard (by rfl) fun _ => ?_
  refine leads_loadOrCreateState (by rfl) fun state hsettled hmembers => ?_
  dsimp only
  split
  · split
    · exact leads_pure (by rfl) _
    · apply leads_map
      exact leads_saveChanged hsettled hmembers ⟨rfl, rfl, rfl, rfl⟩
  · apply leads_map
    exact leads_saveChanged hsettled hmembers ⟨rfl, rfl, rfl, rfl⟩

theorem keepsMembers_modelDownloadJob (jobId : String) :
    KeepsMembers owner (modelDownloadJob (memberEnvironment owner outside) jobId) := by
  intro memberships
  unfold modelDownloadJob
  split
  · exact leads_pure (by rfl) _
  · exact leads_loadState (by rfl) fun _ _ _ => leads_pure (by rfl) _

theorem keepsMembers_cancelModelDownloadJob (jobId : String) :
    KeepsMembers owner (cancelModelDownloadJob (memberEnvironment owner outside) jobId) := by
  intro memberships
  unfold cancelModelDownloadJob
  split
  · exact leads_pure (by rfl) _
  · refine leads_loadOrCreateState (by rfl) fun state hsettled hmembers => ?_
    dsimp only
    split
    · exact leads_pure (by rfl) _
    · apply leads_map
      exact leads_saveChanged hsettled hmembers ⟨rfl, rfl, rfl, rfl⟩

theorem keepsMembers_saveModelDownloadJob (job : ModelDownloadJobRecord) :
    KeepsMembers owner (saveModelDownloadJob (memberEnvironment owner outside) job) := by
  intro memberships
  unfold saveModelDownloadJob
  refine leads_guard (by rfl) fun _ => ?_
  refine leads_loadOrCreateState (by rfl) fun state hsettled hmembers => ?_
  refine leads_guard (by rfl) fun _ => ?_
  apply leads_map
  exact leads_saveChanged hsettled hmembers ⟨rfl, rfl, rfl, rfl⟩

theorem keepsMembers_reading {α : Type} (view : MemberState ρ π → α) :
    KeepsMembers owner (readingOperation (memberEnvironment owner outside) view) :=
  fun _ => leads_loadState (by rfl) fun _ _ _ => leads_pure (by rfl) _

theorem keepsMembers_listing {α : Type} (view : MemberState ρ π → α) :
    KeepsMembers owner (listingOperation (memberEnvironment owner outside) view) :=
  fun _ => leads_loadOrCreateState (by rfl) fun _ _ _ => leads_pure (by rfl) _

theorem keepsMembers_changeSections (change : SectionChange ρ π) :
    KeepsMembers owner (changingOperation (memberEnvironment owner outside) change.change) := by
  intro memberships
  unfold changingOperation
  refine leads_loadOrCreateState (by rfl) fun state hsettled hmembers => ?_
  refine leads_fromExcept (by rfl) _ fun result hresult => ?_
  split
  · exact leads_pure (by rfl) _
  · exact leads_withoutResult (leads_saveChanged hsettled hmembers (change.keeps hresult))
  · exact leads_withoutResult (leads_savePlatformChanged hsettled hmembers (change.keeps hresult))

theorem keepsMembers_setMemberDefaultDeliverySurface (userId surface : String) :
    KeepsMembers owner
      (setMemberDefaultDeliverySurface (memberEnvironment owner outside) userId surface) := by
  intro memberships
  unfold setMemberDefaultDeliverySurface
  refine leads_guard (by rfl) fun _ => ?_
  split
  · refine leads_loadOrCreateState (by rfl) fun state hsettled hmembers => ?_
    split
    · refine leads_fromExcept (by rfl) _ fun users _ => ?_
      refine leads_guard (by rfl) fun _ => ?_
      exact leads_savePlatformChanged hsettled hmembers ⟨rfl, rfl, rfl, rfl⟩
    · exact leads_throw (by rfl) _
  · exact leads_throw (by rfl) _

theorem keepsMembers_recordMemberInteractiveSurface (userId surface : String)
    (routeKey : Option String) :
    KeepsMembers owner (recordMemberInteractiveSurface (memberEnvironment owner outside) userId
      surface routeKey) := by
  intro memberships
  unfold recordMemberInteractiveSurface
  dsimp only
  split
  · exact leads_pure (by rfl) _
  · refine leads_loadOrCreateState (by rfl) fun state hsettled hmembers => ?_
    split
    · refine leads_fromExcept (by rfl) _ fun users _ => ?_
      split
      · exact leads_withoutResult
          (leads_savePlatformChanged hsettled hmembers ⟨rfl, rfl, rfl, rfl⟩)
      · exact leads_pure (by rfl) _
    · exact leads_throw (by rfl) _

end Operations

section Roles

variable {owner userId : String} {memberships : List Membership} {workspace : Workspace}
  {f : Membership → Membership} {user : IdentityBindingRecord} {p : Membership → Bool}

def isMember (userId : String) (membership : Membership) : Bool :=
  membership.workspaceId = defaultWorkspaceId ∧ membership.userId = userId

def memberRole (memberships : List Membership) (userId : String) : Option RoleKind :=
  (memberships.find? (isMember userId)).map Membership.roleKind

theorem memberRole_append (memberships added : List Membership) (userId : String) :
    memberRole (memberships ++ added) userId =
      (memberRole memberships userId).or (memberRole added userId) := by
  rw [memberRole, List.find?_append, Option.map_or]
  rfl

theorem memberRole_singleton_of_ne {membership : Membership} (h : membership.userId ≠ userId) :
    memberRole [membership] userId = none := by
  simp [memberRole, isMember, h]

theorem memberRole_updateFirst_of_ne {changed : String}
    (hp : ∀ membership, p membership = true → membership.userId = changed)
    (hf : ∀ membership, (f membership).userId = membership.userId) (hne : userId ≠ changed) :
    memberRole (updateFirst p f memberships) userId = memberRole memberships userId := by
  have hcons : ∀ (membership : Membership) (rest : List Membership),
      memberRole (membership :: rest) userId =
        (memberRole [membership] userId).or (memberRole rest userId) :=
    fun membership rest => memberRole_append [membership] rest userId
  induction memberships with
  | nil => rfl
  | cons membership rest ih =>
      rw [updateFirst]
      split
      · rename_i hchanged
        have huser := hp membership hchanged
        have hold : membership.userId ≠ userId := huser ▸ hne.symm
        have hnew : (f membership).userId ≠ userId := (hf membership).symm ▸ hold
        rw [hcons (f membership) rest, hcons membership rest, memberRole_singleton_of_ne hold,
          memberRole_singleton_of_ne hnew]
      · rw [hcons, ih, ← hcons]

theorem memberRole_assignRole_of_ne {changed : String} (h : userId ≠ changed)
    (roleKind : RoleKind) :
    memberRole (assignRole workspace changed roleKind memberships) userId =
      memberRole memberships userId := by
  unfold assignRole
  dsimp only
  split
  · exact memberRole_updateFirst_of_ne (fun _ hp => (of_decide_eq_true hp).2) (fun _ => rfl) h
  · rw [memberRole_append, memberRole_singleton_of_ne h.symm, Option.or_none]

theorem memberRole_activateMembership_of_ne (h : userId ≠ projectedUserIdForBinding user) :
    memberRole (activateMembership workspace user memberships) userId =
      memberRole memberships userId := by
  unfold activateMembership
  dsimp only
  split
  · exact memberRole_updateFirst_of_ne (fun _ hp => (of_decide_eq_true hp).2) (fun _ => rfl) h
  · rw [memberRole_append, memberRole_singleton_of_ne h.symm, Option.or_none]

theorem find?_updateFirst (hf : ∀ membership, p (f membership) = p membership) :
    (updateFirst p f memberships).find? p = (memberships.find? p).map f := by
  induction memberships with
  | nil => rfl
  | cons membership rest ih =>
      rw [updateFirst]
      split
      · rename_i hp
        rw [List.find?_cons_of_pos ((hf membership).trans hp), List.find?_cons_of_pos hp]
        rfl
      · rename_i hp
        rw [List.find?_cons_of_neg hp, List.find?_cons_of_neg hp, ih]

theorem memberRole_updateFirst
    (hf : ∀ membership, isMember userId (f membership) = isMember userId membership) :
    memberRole (updateFirst (isMember userId) f memberships) userId =
      (memberships.find? (isMember userId)).map fun membership => (f membership).roleKind := by
  rw [memberRole, find?_updateFirst hf, Option.map_map]
  rfl

theorem memberRole_eq_none_of_any
    (h : ¬ memberships.any (isMember userId) = true) : memberRole memberships userId = none := by
  rw [memberRole, Option.map_eq_none_iff, List.find?_eq_none]
  intro membership hmem hp
  exact h (List.any_eq_true.mpr ⟨membership, hmem, hp⟩)

theorem exists_member_of_any (h : memberships.any (isMember userId) = true) :
    ∃ membership, memberships.find? (isMember userId) = some membership := by
  obtain ⟨membership, hmem, hp⟩ := List.any_eq_true.mp h
  exact Option.isSome_iff_exists.mp (List.find?_isSome.mpr ⟨membership, hmem, hp⟩)

theorem memberRole_assignRole (hworkspace : workspace.workspaceId = defaultWorkspaceId)
    (roleKind : RoleKind) :
    memberRole (assignRole workspace userId roleKind memberships) userId = some roleKind := by
  unfold assignRole
  rw [hworkspace]
  dsimp only
  split
  · rename_i hany
    obtain ⟨found, hfound⟩ := exists_member_of_any hany
    refine (memberRole_updateFirst ?_).trans ?_
    · intro membership
      rfl
    · rw [hfound]
      rfl
  · rename_i hnone
    rw [memberRole_append, memberRole_eq_none_of_any hnone]
    simp [memberRole, isMember]

theorem memberRole_activateMembership (hworkspace : workspace.workspaceId = defaultWorkspaceId) :
    memberRole (activateMembership workspace user memberships) (projectedUserIdForBinding user) =
      some ((memberRole memberships (projectedUserIdForBinding user)).getD .viewer) := by
  unfold activateMembership
  rw [hworkspace]
  dsimp only
  split
  · rename_i hany
    obtain ⟨found, hfound⟩ := exists_member_of_any hany
    refine (memberRole_updateFirst ?_).trans ?_
    · intro membership
      rfl
    · rw [memberRole, hfound]
      rfl
  · rename_i hnone
    rw [memberRole_append, memberRole_eq_none_of_any hnone]
    simp [memberRole, isMember, buildMembershipProjection, hworkspace]

end Roles

section Rosters

variable {owner changed : String} {memberships : List Membership} {workspace : Workspace}

theorem Roster.updateFirst (h : Roster owner memberships) {p : Membership → Bool}
    {f : Membership → Membership}
    (hp : ∀ membership, p membership = true → membership.userId = changed)
    (howner : changed ≠ owner)
    (hf : ∀ membership, (f membership).userId = membership.userId ∧
      (f membership).workspaceId = membership.workspaceId ∧
      (f membership).membershipId = membership.membershipId ∧
      ((f membership).roleKind = .owner → membership.roleKind = .owner)) :
    Roster owner (updateFirst p f memberships) := by
  constructor
  · intro membership hmem
    rcases mem_updateFirst hmem with hold | ⟨old, hold, -, rfl⟩
    · exact h.workspaceId membership hold
    · exact (hf old).2.1.trans (h.workspaceId old hold)
  · intro membership hmem
    rcases mem_updateFirst hmem with hold | ⟨old, hold, -, rfl⟩
    · exact h.membershipId membership hold
    · rw [(hf old).2.2.1, (hf old).1]
      exact h.membershipId old hold
  · rw [map_updateFirst fun membership _ _ => (hf membership).1]
    exact h.nodup
  · apply mem_updateFirst_of_mem h.owner_mem
    apply Bool.eq_false_iff.mpr
    intro hchanged
    exact howner (hp _ hchanged).symm
  · intro membership hmem hrole
    rcases mem_updateFirst hmem with hold | ⟨old, hold, -, rfl⟩
    · exact h.owner_only membership hold hrole
    · exact (hf old).1.trans (h.owner_only old hold ((hf old).2.2.2 hrole))

theorem Roster.append (h : Roster owner memberships) {membership : Membership}
    (hfresh : membership.userId ∉ memberships.map Membership.userId)
    (hworkspace : membership.workspaceId = defaultWorkspaceId)
    (hid : membership.membershipId = "membership-" ++ membership.userId)
    (hrole : membership.roleKind ≠ .owner) : Roster owner (memberships ++ [membership]) := by
  have hmem : ∀ found ∈ memberships ++ [membership],
      found ∈ memberships ∨ found = membership :=
    fun found hfound => (List.mem_append.mp hfound).imp_right List.mem_singleton.mp
  constructor
  · intro found hfound
    rcases hmem found hfound with hold | rfl
    · exact h.workspaceId found hold
    · exact hworkspace
  · intro found hfound
    rcases hmem found hfound with hold | rfl
    · exact h.membershipId found hold
    · exact hid
  · rw [List.map_append, List.nodup_append]
    refine ⟨h.nodup, List.nodup_singleton _, ?_⟩
    intro userId hold other hnew hsame
    rw [List.map_singleton, List.mem_singleton] at hnew
    exact hfresh (hnew ▸ hsame ▸ hold)
  · exact List.mem_append_left _ h.owner_mem
  · intro found hfound hfoundRole
    rcases hmem found hfound with hold | rfl
    · exact h.owner_only found hold hfoundRole
    · exact absurd hfoundRole hrole

theorem Roster.not_mem_of_any (h : Roster owner memberships)
    (hworkspace : workspace.workspaceId = defaultWorkspaceId)
    (hnone : ¬ (memberships.any fun membership =>
      membership.workspaceId = workspace.workspaceId ∧ membership.userId = changed) = true) :
    changed ∉ memberships.map Membership.userId := by
  intro hmem
  obtain ⟨membership, hmembership, huser⟩ := List.mem_map.mp hmem
  apply hnone
  rw [List.any_eq_true]
  refine ⟨membership, hmembership, decide_eq_true ⟨?_, huser⟩⟩
  rw [h.workspaceId membership hmembership, hworkspace]

theorem Roster.assignRole (h : Roster owner memberships)
    (hworkspace : workspace.workspaceId = defaultWorkspaceId) (howner : changed ≠ owner)
    {roleKind : RoleKind} (hrole : roleKind ≠ .owner) :
    Roster owner (assignRole workspace changed roleKind memberships) := by
  unfold AdminConsole.assignRole
  dsimp only
  split
  · exact h.updateFirst (fun _ hp => (of_decide_eq_true hp).2) howner
      fun _ => ⟨rfl, rfl, rfl, fun hnew => absurd hnew hrole⟩
  · rename_i hnone
    exact h.append (h.not_mem_of_any hworkspace hnone) hworkspace rfl hrole

theorem Roster.activateMembership (h : Roster owner memberships)
    (hworkspace : workspace.workspaceId = defaultWorkspaceId) {user : IdentityBindingRecord}
    (howner : projectedUserIdForBinding user ≠ owner) :
    Roster owner (activateMembership workspace user memberships) := by
  unfold AdminConsole.activateMembership
  dsimp only
  split
  · exact h.updateFirst (fun _ hp => (of_decide_eq_true hp).2) howner
      fun _ => ⟨rfl, rfl, rfl, id⟩
  · rename_i hnone
    exact h.append (h.not_mem_of_any hworkspace hnone) hworkspace rfl RoleKind.noConfusion

theorem mem_userIds_assignRole {userId : String} {roleKind : RoleKind}
    (h : userId ∈ memberships.map Membership.userId) :
    userId ∈ (assignRole workspace changed roleKind memberships).map Membership.userId := by
  unfold assignRole
  dsimp only
  split
  · rw [map_updateFirst]
    · exact h
    · intro _ _ _
      rfl
  · rw [List.map_append]
    exact List.mem_append_left _ h

theorem mem_userIds_activateMembership {userId : String} {user : IdentityBindingRecord}
    (h : userId ∈ memberships.map Membership.userId ∨ userId = projectedUserIdForBinding user) :
    userId ∈ (activateMembership workspace user memberships).map Membership.userId := by
  unfold activateMembership
  dsimp only
  split
  · rename_i hany
    rw [map_updateFirst]
    · rcases h with hold | rfl
      · exact hold
      · obtain ⟨membership, hmem, hp⟩ := List.any_eq_true.mp hany
        exact List.mem_map.mpr ⟨membership, hmem, (of_decide_eq_true hp).2⟩
    · intro _ _ _
      rfl
  · rw [List.map_append]
    rcases h with hold | rfl
    · exact List.mem_append_left _ hold
    · exact List.mem_append_right _ (List.mem_singleton_self _)

end Rosters

section MemberOperations

variable {owner : String} {outside : Outside ρ π} {memberships : List Membership}
  {state : MemberState ρ π} {workspaces : List Workspace}

theorem mem_of_preferredWorkspace {workspace : Workspace}
    (h : preferredWorkspace workspaces = some workspace) : workspace ∈ workspaces := by
  rw [preferredWorkspace] at h
  cases hfound : workspaces.find? fun workspace => workspace.workspaceId = defaultWorkspaceId with
  | some found =>
      rw [hfound] at h
      cases h
      exact List.mem_of_find?_eq_some hfound
  | none =>
      rw [hfound, Option.none_or] at h
      exact List.mem_of_mem_head? h

theorem mem_updatePreferredWorkspace {f : Workspace → Workspace} {workspace : Workspace}
    (h : workspace ∈ updatePreferredWorkspace f workspaces) :
    ∃ old ∈ workspaces, workspace = old ∨ workspace = f old := by
  rw [updatePreferredWorkspace] at h
  split at h
  · rcases mem_updateFirst h with hold | ⟨old, hold, -, hnew⟩
    · exact ⟨workspace, hold, Or.inl rfl⟩
    · exact ⟨old, hold, Or.inr hnew⟩
  · cases workspaces with
    | nil => exact absurd h List.not_mem_nil
    | cons first rest =>
        rcases List.mem_cons.mp h with hfirst | hrest
        · exact ⟨first, List.mem_cons_self, Or.inr hfirst⟩
        · exact ⟨workspace, List.mem_cons_of_mem _ hrest, Or.inl rfl⟩

def AfterSetRole (owner userId : String) (roleKind : RoleKind)
    (memberships after : List Membership) : Prop :=
  userId ≠ owner ∧ roleKind ≠ .owner ∧ ∃ workspace : Workspace,
    workspace.workspaceId = defaultWorkspaceId ∧
      after = assignRole workspace userId roleKind memberships

theorem leads_setMemberRole (userId : String) (roleKind : RoleKind) :
    Leads owner memberships
      (fun after => after = memberships ∨
        AfterSetRole owner (trim userId) roleKind memberships after)
      (setMemberRole (memberEnvironment owner outside) userId roleKind) := by
  unfold setMemberRole
  refine leads_guard (Or.inl (by rfl)) fun _ => ?_
  refine leads_guard (Or.inl (by rfl)) fun hrole => ?_
  refine leads_loadOrCreateState (Or.inl (by rfl)) fun state hsettled hmembers => ?_
  split
  · rename_i workspace hworkspace
    obtain ⟨hid, hworkspaceOwner⟩ :=
      hsettled.workspaces workspace (mem_of_preferredWorkspace hworkspace)
    refine leads_guard (Or.inl (by rfl)) fun howner => ?_
    rw [hworkspaceOwner] at howner
    refine leads_fromExcept (Or.inl (by rfl)) _ fun users _ => ?_
    apply leads_savePlatformPrimaryState
    · refine ⟨hsettled.workspaces, hsettled.roster.assignRole hid howner hrole, ?_,
        hsettled.legacy⟩
      intro binding hbinding
      obtain ⟨htrimmed, hmember⟩ := hsettled.bindings binding hbinding
      exact ⟨htrimmed, mem_userIds_assignRole hmember⟩
    · refine Or.inr ⟨howner, hrole, workspace, hid, ?_⟩
      rw [← hmembers]
  · exact leads_throw (Or.inl (by rfl)) _

def AfterBind (owner : String) (user : IdentityBindingRecord)
    (memberships after : List Membership) : Prop :=
  ∃ bound, sanitizeIdentityBindingRecord user = .ok bound ∧
    projectedUserIdForBinding bound ≠ owner ∧ ∃ workspace : Workspace,
      workspace.workspaceId = defaultWorkspaceId ∧
        after = activateMembership workspace bound memberships

theorem Settled.withBinding (h : Settled owner state) {changed : MemberState ρ π}
    {bound : IdentityBindingRecord}
    (hworkspaces : ∀ workspace ∈ changed.platform.workspaces,
      workspace.workspaceId = defaultWorkspaceId ∧ workspace.ownerUserId = owner)
    (hroster : Roster owner changed.platform.memberships)
    (hbindings : changed.platform.identityBindings = upsertBy IdentityBinding.identityId
      (buildIdentityBindingProjection bound) state.platform.identityBindings)
    (hmembers : ∀ userId, userId ∈ state.platform.memberships.map Membership.userId ∨
      userId = projectedUserIdForBinding bound →
        userId ∈ changed.platform.memberships.map Membership.userId) :
    Settled owner changed := by
  refine ⟨hworkspaces, hroster, ?_, ?_⟩
  · intro binding hmem
    rw [hbindings] at hmem
    rcases mem_upsertBy hmem with hold | rfl
    · obtain ⟨htrimmed, hmember⟩ := h.bindings binding hold
      exact ⟨htrimmed, hmembers _ (Or.inl hmember)⟩
    · exact ⟨trimmedId_projectedUserIdForBinding bound, hmembers _ (Or.inr rfl)⟩
  · intro hnone
    rw [hbindings] at hnone
    exact absurd hnone (upsertBy_ne_nil _ _ _)

theorem Settled.updatePreferredWorkspace (h : Settled owner state) (binding : AdminBindingState) :
    ∀ workspace ∈ updatePreferredWorkspace (setWorkspaceBindingProjection binding)
        state.platform.workspaces,
      workspace.workspaceId = defaultWorkspaceId ∧ workspace.ownerUserId = owner := by
  intro workspace hmem
  obtain ⟨old, hold, rfl | rfl⟩ := mem_updatePreferredWorkspace hmem
  · exact h.workspaces workspace hold
  · exact h.workspaces old hold

theorem leads_bindIdentityUser (tokenOrCode : String) (user : IdentityBindingRecord) :
    Leads owner memberships
      (fun after => after = memberships ∨ AfterBind owner user memberships after)
      (bindIdentityUser (memberEnvironment owner outside) tokenOrCode user) := by
  unfold bindIdentityUser
  refine leads_loadOrCreateState (Or.inl (by rfl)) fun state hsettled hmembers => ?_
  split
  · refine leads_guard (Or.inl (by rfl)) fun _ => ?_
    refine leads_fromExcept (Or.inl (by rfl)) _ fun bound hbound => ?_
    split
    · rename_i workspace hworkspace
      obtain ⟨hid, hworkspaceOwner⟩ :=
        hsettled.workspaces workspace (mem_of_preferredWorkspace hworkspace)
      have hworkspaces := hsettled.updatePreferredWorkspace
      dsimp only
      rw [hworkspaceOwner]
      by_cases howner : projectedUserIdForBinding bound = owner
      · rw [if_neg (not_not.mpr howner)]
        refine leads_savePlatformPrimaryState (hsettled.withBinding (hworkspaces _)
          hsettled.roster rfl ?_) (Or.inl hmembers)
        rintro userId (hold | rfl)
        · exact hold
        · rw [howner]
          exact List.mem_map_of_mem hsettled.roster.owner_mem
      · rw [if_pos howner]
        refine leads_savePlatformPrimaryState (hsettled.withBinding (hworkspaces _)
          (hsettled.roster.activateMembership hid howner) rfl
          fun _ => mem_userIds_activateMembership) ?_
        exact Or.inr ⟨bound, hbound, howner, workspace, hid, by rw [← hmembers]⟩
    · exact leads_throw (Or.inl (by rfl)) _
  · exact leads_throw (Or.inl (by rfl)) _

end MemberOperations

section Runs

variable {owner : String} {memberships : List Membership}

def MemberOperation.Changes (owner : String) (operation : MemberOperation ρ π)
    (memberships after : List Membership) : Prop :=
  after = memberships ∨
    match operation with
    | .setMemberRole userId roleKind =>
        AfterSetRole owner (trim userId) roleKind memberships after
    | .other (.bindIdentityUser _ user) _ => AfterBind owner user memberships after
    | _ => False

theorem Leads.mono {α : Type} {P Q : List Membership → Prop} {x : Store (LegacySections ρ) π α}
    (h : Leads owner memberships P x) (hPQ : ∀ after, P after → Q after) :
    Leads owner memberships Q x := by
  intro file hfile
  obtain ⟨after, hafter, hP⟩ := h file hfile
  exact ⟨after, hafter, hPQ after hP⟩

/-- One call changes the memberships only as its operation says. -/
theorem leads_program (outside : Outside ρ π) (operation : MemberOperation ρ π) :
    Leads owner memberships (operation.Changes owner memberships)
      (operation.program (memberEnvironment owner outside)) := by
  have hkeeps : ∀ {α : Type} {x : Store (LegacySections ρ) π α}, KeepsMembers owner x →
      Leads owner memberships (operation.Changes owner memberships) x :=
    fun hx => (hx memberships).mono fun _ => Or.inl
  have hkeeps' : ∀ {α : Type} {x : Store (LegacySections ρ) π α}, KeepsMembers owner x →
      Leads owner memberships (operation.Changes owner memberships) (withoutResult x) :=
    fun hx => leads_withoutResult (hkeeps hx)
  cases operation with
  | setMemberRole userId roleKind => exact leads_withoutResult (leads_setMemberRole userId roleKind)
  | setMemberDefaultDeliverySurface userId surface =>
      exact hkeeps' (keepsMembers_setMemberDefaultDeliverySurface userId surface)
  | recordMemberInteractiveSurface userId surface routeKey =>
      exact hkeeps (keepsMembers_recordMemberInteractiveSurface userId surface routeKey)
  | changeSections change => exact hkeeps (keepsMembers_changeSections change)
  | other operation closed =>
      cases operation with
      | refreshBindingQr => exact hkeeps' keepsMembers_refreshBindingQr
      | markDemoBound userName => exact hkeeps' (keepsMembers_markDemoBound userName)
      | bindIdentityUser tokenOrCode user =>
          exact leads_withoutResult (leads_bindIdentityUser tokenOrCode user)
      | upsertNotificationTarget targetId label routeKey platformHint makeDefault =>
          exact hkeeps' (keepsMembers_upsertNotificationTarget targetId label routeKey platformHint
            makeDefault)
      | setDefaultNotificationTarget targetId =>
          exact hkeeps' (keepsMembers_setDefaultNotificationTarget targetId)
      | deleteNotificationTarget targetId =>
          exact hkeeps' (keepsMembers_deleteNotificationTarget targetId)
      | upsertAutomationReview review => exact hkeeps' (keepsMembers_upsertAutomationReview review)
      | setAutomationReviewStatus reviewId status =>
          exact hkeeps' (keepsMembers_setAutomationReviewStatus reviewId status)
      | createOrUpdateModelDownloadJob modelId displayName providerKey targetPath metadata =>
          exact hkeeps' (keepsMembers_createOrUpdateModelDownloadJob modelId displayName
            providerKey targetPath metadata)
      | modelDownloadJob jobId => exact hkeeps' (keepsMembers_modelDownloadJob jobId)
      | cancelModelDownloadJob jobId => exact hkeeps' (keepsMembers_cancelModelDownloadJob jobId)
      | listModelDownloadJobs => exact hkeeps' (keepsMembers_reading _)
      | saveModelDownloadJob job => exact hkeeps' (keepsMembers_saveModelDownloadJob job)
      | reading => exact hkeeps' (keepsMembers_reading _)
      | listing => exact hkeeps' (keepsMembers_listing _)
      | changing change => exact absurd rfl (closed change)

theorem runCalls_append (file : StateFile (LegacySections ρ) π)
    (calls rest : List (MemberCall ρ π)) :
    runCalls owner file (calls ++ rest) = runCalls owner (runCalls owner file calls) rest :=
  List.foldl_append

theorem holds_runCalls (calls : List (MemberCall ρ π)) :
    ∃ memberships, Holds owner memberships (runCalls owner .missing calls) := by
  induction calls using List.reverseRecOn with
  | nil => exact ⟨[ownMembership owner], rfl⟩
  | append_singleton calls call ih =>
      obtain ⟨memberships, hholds⟩ := ih
      obtain ⟨after, hafter, -⟩ := leads_program call.outside call.operation _ hholds
      rw [runCalls_append]
      exact ⟨after, hafter⟩

/-- What a reader of the file can find there. -/
def LoadsAs (owner : String) (file : StateFile (LegacySections ρ) π) (state : MemberState ρ π) :
    Prop :=
  ∃ outside, loadedState (memberEnvironment owner outside) file = .ok state

def MemberOperation.SetsRole (operation : MemberOperation ρ π) (userId : String)
    (roleKind : RoleKind) : Prop :=
  ∃ text, operation = .setMemberRole text roleKind ∧ trim text = userId

def MemberOperation.Binds (operation : MemberOperation ρ π) (userId : String) : Prop :=
  ∃ tokenOrCode user closed bound,
    operation = .other (.bindIdentityUser tokenOrCode user) closed ∧
      sanitizeIdentityBindingRecord user = .ok bound ∧ projectedUserIdForBinding bound = userId

theorem MemberOperation.Changes.role {operation : MemberOperation ρ π}
    {after : List Membership} (h : operation.Changes owner memberships after) {userId : String}
    (hchanged : memberRole after userId ≠ memberRole memberships userId) :
    (∃ roleKind, operation.SetsRole userId roleKind ∧
        memberRole after userId = some roleKind) ∨
      operation.Binds userId ∧ memberRole memberships userId = none ∧
        memberRole after userId = some .viewer := by
  rcases h with rfl | h
  · exact absurd rfl hchanged
  · split at h
    · rename_i text roleKind
      obtain ⟨-, -, workspace, hworkspace, rfl⟩ := h
      by_cases hsame : userId = trim text
      · subst hsame
        exact Or.inl ⟨roleKind, ⟨text, rfl, rfl⟩, memberRole_assignRole hworkspace roleKind⟩
      · exact absurd (memberRole_assignRole_of_ne hsame roleKind) hchanged
    · rename_i tokenOrCode user closed
      obtain ⟨bound, hbound, -, workspace, hworkspace, rfl⟩ := h
      by_cases hsame : userId = projectedUserIdForBinding bound
      · subst hsame
        have hrole : memberRole (activateMembership workspace bound memberships)
            (projectedUserIdForBinding bound) =
              some ((memberRole memberships (projectedUserIdForBinding bound)).getD .viewer) :=
          memberRole_activateMembership hworkspace
        cases hbefore : memberRole memberships (projectedUserIdForBinding bound) with
        | some roleKind =>
            rw [hrole, hbefore] at hchanged
            exact absurd rfl hchanged
        | none =>
            rw [hbefore] at hrole
            exact Or.inr ⟨⟨tokenOrCode, user, closed, bound, rfl, hbound, rfl⟩, rfl, hrole⟩
      · exact absurd (memberRole_activateMembership_of_ne hsame) hchanged
    · exact h.elim

theorem Roster.memberRole_ne_none (h : Roster owner memberships) {userId : String}
    (hmem : userId ∈ memberships.map Membership.userId) : memberRole memberships userId ≠ none := by
  obtain ⟨membership, hmembership, rfl⟩ := List.mem_map.mp hmem
  rw [memberRole, ne_eq, Option.map_eq_none_iff, List.find?_eq_none]
  intro hnone
  exact hnone membership hmembership (decide_eq_true ⟨h.workspaceId membership hmembership, rfl⟩)

end Runs

end HarborBeacon.AdminConsole
