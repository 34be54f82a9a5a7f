import HarborBeacon.MemberRoles

/-!
The users that identity bindings without a user id of their own are projected to. The id is made
of the words of the open id, so two identities share a user exactly if their words are the same.
-/

namespace HarborBeacon.AdminConsole

open Text

section Users

variable {first second : IdentityBindingRecord} {value : String}

def WithoutUserId (user : IdentityBindingRecord) : Prop :=
  user.userId.bind nonEmptyOpt = none

/-- Two identities lead to two users: binding the second one leaves the account and the role of
the first as they are, whatever the state holds. -/
structure KeptApart (first second : IdentityBindingRecord) : Prop where
  users : projectedUserIdForBinding first ≠ projectedUserIdForBinding second
  accounts : ∀ (workspaceId : String) (accounts : List UserAccount),
    (upsertBy UserAccount.userId (buildUserAccountProjection second workspaceId) accounts).find?
        (fun account => account.userId = projectedUserIdForBinding first) =
      accounts.find? fun account => account.userId = projectedUserIdForBinding first
  roles : ∀ (workspace : Workspace) (memberships : List Membership),
    memberRole (activateMembership workspace second memberships)
        (projectedUserIdForBinding first) =
      memberRole memberships (projectedUserIdForBinding first)

theorem projectedUserId_of_withoutUserId (h : WithoutUserId first) :
    projectedUserIdForBinding first = "im-user-" ++ slugifyIdentityComponent first.openId := by
  rw [projectedUserIdForBinding, h, Option.getD_none]

theorem find?_upsertBy_of_ne {α : Type} {key : α → String} {new : α} {items : List α}
    (h : value ≠ key new) : (upsertBy key new items).find? (fun item => key item = value) =
      items.find? fun item => key item = value := by
  have hnew : ¬ key new = value := fun hsame => h hsame.symm
  rw [upsertBy]
  split
  · induction items with
    | nil => rfl
    | cons item rest ih =>
        rename_i hany
        rw [updateFirst]
        split
        · rename_i hitem
          rw [decide_eq_true_iff] at hitem
          rw [List.find?_cons_of_neg (by simpa using hnew),
            List.find?_cons_of_neg (by rw [hitem]; simpa using hnew)]
        · rename_i hitem
          have hrest : (rest.any fun existing => key existing = key new) = true := by
            rw [List.any_cons] at hany
            simpa [Bool.eq_false_iff.mpr hitem] using hany
          rw [List.find?_cons, List.find?_cons, ih hrest]
  · rw [List.find?_append, List.find?_cons_of_neg (by simpa using hnew)]
    simp

theorem sanitizeIdentityBindingRecord_ok {bound : IdentityBindingRecord}
    (h : sanitizeIdentityBindingRecord first = .ok bound) :
    bound.openId = trim first.openId ∧ trim first.openId ≠ "" ∧
      bound.userId = first.userId.bind nonEmptyOpt := by
  rw [sanitizeIdentityBindingRecord] at h
  split at h
  · cases h
  · rename_i hopen
    obtain rfl := Except.ok.inj h
    exact ⟨rfl, hopen, rfl⟩

theorem keptApart_of_ne (h : projectedUserIdForBinding first ≠ projectedUserIdForBinding second) :
    KeptApart first second where
  users := h
  accounts := fun _ _ => find?_upsertBy_of_ne h
  roles := fun _ _ => memberRole_activateMembership_of_ne h

/-- Two identities are kept apart exactly if the words of their open ids differ. -/
theorem keptApart_iff {bound other : IdentityBindingRecord}
    (hfirst : sanitizeIdentityBindingRecord first = .ok bound)
    (hsecond : sanitizeIdentityBindingRecord second = .ok other)
    (hnone : WithoutUserId first) (hnoneSecond : WithoutUserId second) :
    KeptApart bound other ↔ slugWords first.openId ≠ slugWords second.openId := by
  obtain ⟨hopen, -, huser⟩ := sanitizeIdentityBindingRecord_ok hfirst
  obtain ⟨hopenSecond, -, huserSecond⟩ := sanitizeIdentityBindingRecord_ok hsecond
  have hbound : WithoutUserId bound := by rw [WithoutUserId, huser, hnone, Option.bind_none]
  have hother : WithoutUserId other := by
    rw [WithoutUserId, huserSecond, hnoneSecond, Option.bind_none]
  have hsame : projectedUserIdForBinding bound = projectedUserIdForBinding other ↔
      slugWords first.openId = slugWords second.openId := by
    rw [projectedUserId_of_withoutUserId hbound, projectedUserId_of_withoutUserId hother,
      String.append_right_inj, slugify_eq_iff, hopen, hopenSecond, slugWords_trim, slugWords_trim]
  rw [ne_eq, ← hsame]
  constructor
  · exact fun hapart => hapart.users
  · exact keptApart_of_ne

def namedIdentity (openId displayName : String) : IdentityBindingRecord where
  openId := openId
  userId := none
  unionId := none
  displayName := displayName
  chatId := none

theorem sanitize_namedIdentity {openId displayName : String} (hopen : trim openId = openId)
    (hname : trim displayName = displayName) (hopenne : openId ≠ "") (hnamene : displayName ≠ "") :
    sanitizeIdentityBindingRecord (namedIdentity openId displayName) =
      .ok (namedIdentity openId displayName) := by
  simp only [sanitizeIdentityBindingRecord, namedIdentity, hopen, hname, if_neg hopenne,
    if_neg hnamene, Option.bind_none]

theorem keptApart_alice_bob :
    KeptApart (namedIdentity "ou_alice" "Alice") (namedIdentity "ou_bob" "Bob") ↔
      slugWords (namedIdentity "ou_alice" "Alice").openId ≠
        slugWords (namedIdentity "ou_bob" "Bob").openId := by
  have halice : sanitizeIdentityBindingRecord (namedIdentity "ou_alice" "Alice") =
      .ok (namedIdentity "ou_alice" "Alice") :=
    sanitize_namedIdentity (by decide) (by decide) (by decide) (by decide)
  have hbob : sanitizeIdentityBindingRecord (namedIdentity "ou_bob" "Bob") =
      .ok (namedIdentity "ou_bob" "Bob") :=
    sanitize_namedIdentity (by decide) (by decide) (by decide) (by decide)
  have hnone : ∀ openId displayName, WithoutUserId (namedIdentity openId displayName) :=
    fun _ _ => rfl
  exact keptApart_iff halice hbob (hnone _ _) (hnone _ _)

/-- Two identities that differ in the case of their letters. -/
theorem letter_case_merges_users :
    ¬ KeptApart (namedIdentity "oA1b" "Alice") (namedIdentity "oa1B" "Bob") := by
  intro h
  apply h.users
  decide +kernel

end Users

end HarborBeacon.AdminConsole
