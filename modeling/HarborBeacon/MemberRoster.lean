import HarborBeacon.MemberProjection
import HarborBeacon.Slugs

/-!
The memberships under the projections. A load or a save projects the identity bindings to
memberships again, and that leaves the memberships as they are once every bound user has one.
-/

namespace HarborBeacon.AdminConsole

open FileProgram Text

variable {ρ π : Type} {users : List UserAccount}

section Lists

variable {α β : Type} {items : List α} {p : α → Bool} {f : α → α} {key : α → String} {item : α}

theorem updateFirst_eq_self (h : ∀ item ∈ items, p item = true → f item = item) :
    updateFirst p f items = items := by
  induction items with
  | nil => rfl
  | cons item rest ih =>
      rw [List.forall_mem_cons] at h
      rw [updateFirst]
      split
      · rename_i hp
        rw [h.1 hp]
      · rw [ih h.2]

theorem mem_updateFirst (h : item ∈ updateFirst p f items) :
    item ∈ items ∨ ∃ old ∈ items, p old = true ∧ item = f old := by
  induction items with
  | nil => exact absurd h List.not_mem_nil
  | cons first rest ih =>
      rw [updateFirst] at h
      split at h
      · rename_i hp
        rcases List.mem_cons.mp h with rfl | hmem
        · exact Or.inr ⟨first, List.mem_cons_self, hp, rfl⟩
        · exact Or.inl (List.mem_cons_of_mem _ hmem)
      · rcases List.mem_cons.mp h with rfl | hmem
        · exact Or.inl List.mem_cons_self
        · rcases ih hmem with hmem | ⟨old, hold, hp, rfl⟩
          · exact Or.inl (List.mem_cons_of_mem _ hmem)
          · exact Or.inr ⟨old, List.mem_cons_of_mem _ hold, hp, rfl⟩

theorem map_updateFirst {g : α → β} (h : ∀ item ∈ items, p item = true → g (f item) = g item) :
    (updateFirst p f items).map g = items.map g := by
  induction items with
  | nil => rfl
  | cons item rest ih =>
      rw [List.forall_mem_cons] at h
      rw [updateFirst]
      split
      · rename_i hp
        rw [List.map_cons, List.map_cons, h.1 hp]
      · rw [List.map_cons, List.map_cons, ih h.2]

theorem mem_updateFirst_of_mem (h : item ∈ items) (hp : p item = false) :
    item ∈ updateFirst p f items := by
  induction items with
  | nil => exact absurd h List.not_mem_nil
  | cons first rest ih =>
      rw [updateFirst]
      rcases List.mem_cons.mp h with rfl | hmem
      · rw [hp]
        exact List.mem_cons_self
      · split
        · exact List.mem_cons_of_mem _ hmem
        · exact List.mem_cons_of_mem _ (ih hmem)

theorem mem_upsertBy {new item : α} (h : item ∈ upsertBy key new items) :
    item ∈ items ∨ item = new := by
  rw [upsertBy] at h
  split at h
  · exact (mem_updateFirst h).imp_right fun ⟨_, _, _, hitem⟩ => hitem
  · exact (List.mem_append.mp h).imp_right List.mem_singleton.mp

theorem upsertBy_ne_nil (key : α → String) (new : α) (items : List α) :
    upsertBy key new items ≠ [] := by
  rw [upsertBy]
  split
  · rename_i hany
    cases items with
    | nil => cases hany
    | cons first rest =>
        rw [updateFirst]
        split <;> exact List.cons_ne_nil _ _
  · exact List.append_ne_nil_of_right_ne_nil _ (List.cons_ne_nil _ _)

theorem upsertBy_eq_self {new : α} (hmem : new ∈ items)
    (h : ∀ item ∈ items, key item = key new → item = new) : upsertBy key new items = items := by
  rw [upsertBy, if_pos (List.any_eq_true.mpr ⟨new, hmem, decide_eq_true rfl⟩)]
  exact updateFirst_eq_self fun item hitem hkey => (h item hitem (of_decide_eq_true hkey)).symm

end Lists

def TrimmedId (userId : String) : Prop :=
  nonEmptyOpt userId = some userId

theorem trimmedId_of_nonEmptyOpt {value userId : String} (h : nonEmptyOpt value = some userId) :
    TrimmedId userId := by
  unfold nonEmptyOpt at h
  split at h
  · cases h
  · rename_i hblank
    cases h
    rw [TrimmedId, nonEmptyOpt, trim_trim, if_neg hblank]

theorem trim_imUser (value : String) :
    trim ("im-user-" ++ slugifyIdentityComponent value) =
      "im-user-" ++ slugifyIdentityComponent value := by
  apply trim_eq_self
  intro c hc
  apply isWhitespace_of_isSlugChar
  rw [String.toList_append] at hc
  rcases List.mem_append.mp hc with hstart | hslug
  · have hall : ∀ c ∈ "im-user-".toList, isSlugChar c = true :=
      forall_mem_of_all (by decide)
    exact hall c hstart
  · exact isSlugChar_of_mem hslug

theorem trimmedId_projectedUserIdForBinding (binding : IdentityBindingRecord) :
    TrimmedId (projectedUserIdForBinding binding) := by
  rw [projectedUserIdForBinding]
  cases huser : binding.userId.bind nonEmptyOpt with
  | some userId =>
      obtain ⟨value, -, hvalue⟩ := Option.bind_eq_some_iff.mp huser
      exact trimmedId_of_nonEmptyOpt hvalue
  | none =>
      rw [Option.getD_none, TrimmedId, nonEmptyOpt, trim_imUser, if_neg]
      intro hempty
      have hlength := congrArg String.length hempty
      rw [String.length_append] at hlength
      have hstart : "im-user-".length = 8 := by decide
      have hnone : "".length = 0 := rfl
      omega

theorem projectedUserId_legacyIdentityBinding {binding : IdentityBinding}
    (h : TrimmedId binding.userId) :
    projectedUserIdForBinding (legacyIdentityBinding users binding) = binding.userId := by
  rw [projectedUserIdForBinding, legacyIdentityBinding, Option.bind_some, h, Option.getD_some]

theorem exists_of_mem_collectIdentityBindings {seen : List String} {bindings : List IdentityBinding}
    {record : IdentityBindingRecord} (h : record ∈ collectIdentityBindings users seen bindings) :
    ∃ binding ∈ bindings, record = legacyIdentityBinding users binding := by
  induction bindings generalizing seen with
  | nil => exact absurd h List.not_mem_nil
  | cons binding rest ih =>
      rw [collectIdentityBindings] at h
      split at h
      · obtain ⟨found, hfound, hrecord⟩ := ih h
        exact ⟨found, List.mem_cons_of_mem _ hfound, hrecord⟩
      · rcases List.mem_cons.mp h with rfl | hmem
        · exact ⟨binding, List.mem_cons_self, rfl⟩
        · obtain ⟨found, hfound, hrecord⟩ := ih hmem
          exact ⟨found, List.mem_cons_of_mem _ hfound, hrecord⟩

section Invariants

def ownMembership (owner : String) : Membership :=
  ownerMembership (buildWorkspaceProjection owner .null)

/-- Memberships of the default workspace: the one of the owner, and at most one of each other
user, who is no owner. -/
structure Roster (owner : String) (memberships : List Membership) : Prop where
  workspaceId : ∀ membership ∈ memberships, membership.workspaceId = defaultWorkspaceId
  membershipId : ∀ membership ∈ memberships,
    membership.membershipId = "membership-" ++ membership.userId
  nodup : (memberships.map Membership.userId).Nodup
  owner_mem : ownMembership owner ∈ memberships
  owner_only : ∀ membership ∈ memberships, membership.roleKind = .owner →
    membership.userId = owner

structure Settled (owner : String) (state : MemberState ρ π) : Prop where
  workspaces : ∀ workspace ∈ state.platform.workspaces,
    workspace.workspaceId = defaultWorkspaceId ∧ workspace.ownerUserId = owner
  roster : Roster owner state.platform.memberships
  bindings : ∀ binding ∈ state.platform.identityBindings, TrimmedId binding.userId ∧
    binding.userId ∈ state.platform.memberships.map Membership.userId
  legacy : state.platform.identityBindings = [] → state.sections.identityBindings = []

structure Blank (state : MemberState ρ π) : Prop where
  workspaces : state.platform.workspaces = []
  memberships : state.platform.memberships = []
  bindings : state.platform.identityBindings = []
  legacy : state.sections.identityBindings = []

variable {owner : String} {memberships : List Membership} {a b : Membership}

theorem Roster.eq_of_userId (h : Roster owner memberships) (ha : a ∈ memberships)
    (hb : b ∈ memberships) (hsame : a.userId = b.userId) : a = b :=
  List.inj_on_of_nodup_map h.nodup ha hb hsame

theorem Roster.eq_of_membershipId (h : Roster owner memberships) (ha : a ∈ memberships)
    (hb : b ∈ memberships) (hsame : a.membershipId = b.membershipId) : a = b := by
  apply h.eq_of_userId ha hb
  rw [h.membershipId a ha, h.membershipId b hb] at hsame
  exact String.append_right_inj _ |>.mp hsame

theorem roster_own (owner : String) : Roster owner [ownMembership owner] := by
  constructor
  · intro membership hmem
    rw [List.mem_singleton.mp hmem]
    rfl
  · intro membership hmem
    rw [List.mem_singleton.mp hmem]
    rfl
  · exact List.nodup_singleton _
  · exact List.mem_singleton_self _
  · intro membership hmem _
    rw [List.mem_singleton.mp hmem]
    rfl

end Invariants

section Projections

variable {owner : String} {outside : Outside ρ π} {state : MemberState ρ π}
  {projected bindings : List IdentityBinding} {memberships : List Membership}

theorem Settled.resolved (h : Settled owner state) :
    ∀ record ∈ resolvedIdentityBindingRecords state,
      projectedUserIdForBinding record ∈
        state.platform.memberships.map Membership.userId := by
  intro record hrecord
  rw [resolvedIdentityBindingRecords] at hrecord
  split at hrecord
  · obtain ⟨binding, hbinding, rfl⟩ := exists_of_mem_collectIdentityBindings hrecord
    obtain ⟨htrimmed, hmember⟩ := h.bindings binding hbinding
    rwa [projectedUserId_legacyIdentityBinding htrimmed]
  · rename_i hnone
    rw [h.legacy (not_not.mp hnone)] at hrecord
    exact absurd hrecord List.not_mem_nil

theorem resolved_of_blank (h : Blank state) : resolvedIdentityBindingRecords state = [] := by
  rw [resolvedIdentityBindingRecords, if_neg (not_not.mpr h.bindings), h.legacy]
  rfl

theorem mem_buildMemberships {workspace : Workspace} {membership : Membership}
    (h : membership ∈ buildMemberships state workspace) :
    membership = ownerMembership workspace ∨
      ∃ record ∈ resolvedIdentityBindingRecords state,
        membership = buildMembershipProjection workspace record := by
  rw [buildMemberships] at h
  generalize resolvedIdentityBindingRecords state = records at h ⊢
  induction records using List.reverseRecOn with
  | nil => exact Or.inl (List.mem_singleton.mp h)
  | append_singleton records record ih =>
      rw [List.foldl_concat] at h
      have hearlier : ∀ {found}, (∃ record' ∈ records,
          found = buildMembershipProjection workspace record') →
          ∃ record' ∈ records ++ [record], found = buildMembershipProjection workspace record' :=
        fun ⟨record', hmem, hfound⟩ => ⟨record', List.mem_append_left _ hmem, hfound⟩
      split at h
      · exact (ih h).imp_right hearlier
      · rcases List.mem_append.mp h with hmem | hmem
        · exact (ih hmem).imp_right hearlier
        · exact Or.inr ⟨record, List.mem_append_right _ (List.mem_singleton_self _),
            List.mem_singleton.mp hmem⟩

theorem mergeMembership_own (h : Roster owner memberships) (settings : Json.Value) :
    mergeMembership memberships (ownerMembership (buildWorkspaceProjection owner settings)) =
      memberships := by
  have hrole : (ownerMembership (buildWorkspaceProjection owner settings)).roleKind = .owner := rfl
  rw [mergeMembership, preserveCustomMembership, if_pos hrole]
  exact upsertBy_eq_self h.owner_mem fun membership hmem hid =>
    h.eq_of_membershipId hmem h.owner_mem hid

theorem mergeMembership_projection (h : Roster owner memberships) (settings : Json.Value)
    {record : IdentityBindingRecord}
    (hmember : projectedUserIdForBinding record ∈ memberships.map Membership.userId) :
    mergeMembership memberships
        (buildMembershipProjection (buildWorkspaceProjection owner settings) record) =
      memberships := by
  obtain ⟨membership, hmem, huser⟩ := List.mem_map.mp hmember
  have hid : membership.membershipId = "membership-" ++ projectedUserIdForBinding record := by
    rw [h.membershipId membership hmem, huser]
  have hfind : memberships.find? (fun existing =>
      existing.membershipId = "membership-" ++ projectedUserIdForBinding record) =
        some membership := by
    cases hfound : memberships.find? fun existing =>
        decide (existing.membershipId = "membership-" ++ projectedUserIdForBinding record) with
    | none => exact absurd hid (of_decide_eq_false
        (Bool.eq_false_iff.mpr (List.find?_eq_none.mp hfound membership hmem)))
    | some found =>
        have hsame := List.find?_some hfound
        rw [decide_eq_true_eq] at hsame
        rw [h.eq_of_membershipId (List.mem_of_find?_eq_some hfound) hmem (hsame.trans hid.symm)]
  have hpreserved : preserveCustomMembership memberships
      (buildMembershipProjection (buildWorkspaceProjection owner settings) record) =
        membership := by
    have hrole : (buildMembershipProjection (buildWorkspaceProjection owner settings)
        record).roleKind ≠ .owner := RoleKind.noConfusion
    rw [preserveCustomMembership, if_neg hrole]
    have hsame : (buildMembershipProjection (buildWorkspaceProjection owner settings)
        record).membershipId = "membership-" ++ projectedUserIdForBinding record := rfl
    rw [hsame, hfind]
    dsimp only [buildMembershipProjection, buildWorkspaceProjection]
    rw [← h.workspaceId membership hmem, ← hid, ← huser]
  rw [mergeMembership, hpreserved]
  exact upsertBy_eq_self hmem fun other hother hsame => h.eq_of_membershipId hother hmem hsame

theorem foldl_mergeMembership {memberships projected : List Membership}
    (h : ∀ membership ∈ projected, mergeMembership memberships membership = memberships) :
    projected.foldl mergeMembership memberships = memberships := by
  induction projected with
  | nil => rfl
  | cons membership rest ih =>
      rw [List.forall_mem_cons] at h
      rw [List.foldl_cons, h.1]
      exact ih h.2

theorem memberships_sync (h : Settled owner state) (outside : Outside ρ π) :
    (syncPlatformFromLegacy owner outside state).memberships = state.platform.memberships := by
  rw [syncPlatformFromLegacy]
  apply foldl_mergeMembership
  intro membership hmem
  rcases mem_buildMemberships hmem with rfl | ⟨record, hrecord, rfl⟩
  · exact mergeMembership_own h.roster _
  · exact mergeMembership_projection h.roster _ (h.resolved record hrecord)

theorem workspaces_sync (outside : Outside ρ π)
    (h : ∀ workspace ∈ state.platform.workspaces,
      workspace.workspaceId = defaultWorkspaceId ∧ workspace.ownerUserId = owner) :
    ∀ workspace ∈ (syncPlatformFromLegacy owner outside state).workspaces,
      workspace.workspaceId = defaultWorkspaceId ∧ workspace.ownerUserId = owner := by
  intro workspace hmem
  rcases mem_upsertBy hmem with hold | rfl
  · exact h workspace hold
  · exact ⟨rfl, rfl⟩

theorem mem_foldl_upsertBindings {binding : IdentityBinding} (h : binding ∈ projected.foldl
      (fun bindings binding => upsertBy IdentityBinding.identityId binding bindings) bindings) :
    binding ∈ bindings ∨ binding ∈ projected := by
  induction projected generalizing bindings with
  | nil => exact Or.inl h
  | cons first rest ih =>
      rw [List.foldl_cons] at h
      rcases ih h with hmem | hmem
      · rcases mem_upsertBy hmem with hold | rfl
        · exact Or.inl hold
        · exact Or.inr List.mem_cons_self
      · exact Or.inr (List.mem_cons_of_mem _ hmem)

theorem foldl_upsertBindings_ne_nil (h : bindings ≠ []) : projected.foldl
      (fun bindings binding => upsertBy IdentityBinding.identityId binding bindings) bindings ≠
        [] := by
  induction projected generalizing bindings with
  | nil => exact h
  | cons first rest ih => exact ih (upsertBy_ne_nil _ _ _)

theorem Settled.sync (h : Settled owner state) (outside : Outside ρ π) :
    Settled owner (syncPlatform (memberEnvironment owner outside) state) := by
  constructor
  · exact workspaces_sync outside h.workspaces
  · change Roster owner (syncPlatformFromLegacy owner outside state).memberships
    rw [memberships_sync h]
    exact h.roster
  · intro binding hmem
    change _ ∧ _ ∈ (syncPlatformFromLegacy owner outside state).memberships.map _
    rw [memberships_sync h]
    rcases mem_foldl_upsertBindings hmem with hold | hnew
    · exact h.bindings binding hold
    · obtain ⟨record, hrecord, rfl⟩ := List.mem_map.mp hnew
      exact ⟨trimmedId_projectedUserIdForBinding record, h.resolved record hrecord⟩
  · intro hnone
    apply h.legacy
    by_contra hsome
    exact foldl_upsertBindings_ne_nil hsome hnone

theorem Blank.sync (h : Blank state) (outside : Outside ρ π) :
    Settled owner (syncPlatform (memberEnvironment owner outside) state) ∧
      (syncPlatform (memberEnvironment owner outside) state).platform.memberships =
        [ownMembership owner] := by
  have hmemberships : (syncPlatformFromLegacy owner outside state).memberships =
      [ownMembership owner] := by
    rw [syncPlatformFromLegacy, buildMemberships, resolved_of_blank h, h.memberships]
    rfl
  have hbindings : (syncPlatformFromLegacy owner outside state).identityBindings = [] := by
    rw [syncPlatformFromLegacy, buildIdentityBindingProjections, resolved_of_blank h, h.bindings]
    rfl
  refine ⟨⟨?_, ?_, ?_, ?_⟩, hmemberships⟩
  · apply workspaces_sync outside
    intro workspace hmem
    rw [h.workspaces] at hmem
    exact absurd hmem List.not_mem_nil
  · change Roster owner (syncPlatformFromLegacy owner outside state).memberships
    rw [hmemberships]
    exact roster_own owner
  · intro binding hmem
    change binding ∈ (syncPlatformFromLegacy owner outside state).identityBindings at hmem
    rw [hbindings] at hmem
    exact absurd hmem List.not_mem_nil
  · intro _
    exact h.legacy

end Projections

section Normalization

variable {owner : String} {state : MemberState ρ π} (outside : Outside ρ π)

theorem Settled.sanitizeLegacyAdminFields (h : Settled owner state) :
    Settled owner (sanitizeLegacyAdminFields (memberEnvironment owner outside) state) := by
  refine ⟨?_, h.roster, h.bindings, h.legacy⟩
  intro workspace hmem
  obtain ⟨old, hold, rfl⟩ := List.mem_map.mp hmem
  have hsame : (dropDvrSettings old).workspaceId = old.workspaceId ∧
      (dropDvrSettings old).ownerUserId = old.ownerUserId := by
    unfold dropDvrSettings
    split <;> exact ⟨rfl, rfl⟩
  rw [hsame.1, hsame.2]
  exact h.workspaces old hold

theorem Settled.hydrate (h : Settled owner state) :
    Settled owner (hydrateLegacyViewsFromPlatform (memberEnvironment owner outside) state) := by
  refine ⟨h.workspaces, h.roster, h.bindings, ?_⟩
  intro hnone
  change state.platform.identityBindings = [] at hnone
  change (if state.platform.identityBindings ≠ [] then _ else _) = _
  rw [if_neg (not_not.mpr hnone)]
  exact h.legacy hnone

theorem Settled.withOthers (h : Settled owner state) {sections : LegacySections ρ}
    (hsame : sections.identityBindings = state.sections.identityBindings) :
    Settled owner { state with sections } :=
  ⟨h.workspaces, h.roster, h.bindings, fun hnone => hsame.trans (h.legacy hnone)⟩

theorem Settled.normalizeLoadedAdminState (h : Settled owner state) :
    Settled owner (normalizeLoadedAdminState (memberEnvironment owner outside) state) ∧
      (normalizeLoadedAdminState (memberEnvironment owner outside) state).platform.memberships =
        state.platform.memberships := by
  have hviews := ((h.sanitizeLegacyAdminFields outside).hydrate outside).sanitizeLegacyAdminFields
    outside
  exact ⟨hviews.sync outside, memberships_sync hviews outside⟩

theorem Settled.sanitizeAdminState (h : Settled owner state) :
    Settled owner (sanitizeAdminState (memberEnvironment owner outside) state) ∧
      (sanitizeAdminState (memberEnvironment owner outside) state).platform.memberships =
        state.platform.memberships := by
  have hfields := h.sanitizeLegacyAdminFields outside
  exact ⟨hfields.sync outside, memberships_sync hfields outside⟩

end Normalization

end HarborBeacon.AdminConsole
