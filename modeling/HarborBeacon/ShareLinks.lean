import HarborBeacon.RemoteView
import HarborBeacon.TaskTracking
import Mathlib.Logic.Equiv.List

/-!
Share links are created and revoked one after the other. A link is looked up by the hash
of its token, so a revocation takes effect as long as no two links were issued for the
same secret, camera and expiry second.
-/

namespace HarborBeacon.ShareLinks

open ControlPlane FileProgram Json Json.Value RemoteView TaskContract TaskSession Text

inductive StreamTransport where
  | rtsp
  | hls
  | webrtc
  | unknown
deriving DecidableEq

/-- The camera of a link, with the fields that its media session takes over. -/
structure ResolvedCameraTarget where
  deviceId : String
  transport : StreamTransport
deriving DecidableEq

def streamTransportName : StreamTransport → String
  | .rtsp => "rtsp"
  | .hls => "hls"
  | .webrtc => "webrtc"
  | .unknown => "unknown"

def shareDeliveryMode (target : ResolvedCameraTarget) : MediaDeliveryMode :=
  match target.transport with
  | .webrtc => .webrtc
  | .hls => .hls
  | .rtsp | .unknown => .hls

def buildShareMediaSession (request : TaskRequest) (target : ResolvedCameraTarget)
    (mediaSessionId shareLinkId startedAt : String) : MediaSession where
  mediaSessionId := mediaSessionId
  deviceId := target.deviceId
  streamProfileId := target.deviceId ++ "::stream::primary"
  sessionKind := .share
  deliveryMode := shareDeliveryMode target
  openedByUserId := if isBlank request.source.userId then none else some request.source.userId
  status := .active
  shareLinkId := some shareLinkId
  startedAt := some startedAt
  endedAt := none
  metadata := obj
    [("task_id", string request.taskId),
     ("step_id", string (stepIdForRequest request)),
     ("source_channel", string request.source.channel),
     ("source_surface", string request.source.surface),
     ("conversation_id", string request.source.conversationId),
     ("delivery_proxy", string "mjpeg"),
     ("stream_transport", string (streamTransportName target.transport))]

def buildShareLinkRecord (digests : Digests) (issued : IssuedCameraShareToken)
    (mediaSessionId shareLinkId : String) : ShareLink where
  shareLinkId := shareLinkId
  mediaSessionId := mediaSessionId
  tokenHash := cameraShareTokenHash digests issued.token
  accessScope := .publicLink
  expiresAt := some (toString issued.expiresAtUnixSecs.toNat)
  revokedAt := none

/-- What one creation of a link takes from the request, the configuration, the clock and
the drawn ids. -/
structure Creation where
  request : TaskRequest
  target : ResolvedCameraTarget
  secret : String
  ttlMinutes : UInt32
  now : UInt64
  startedAt : String
  shareLinkId : Uuid
  mediaSessionId : Uuid

/-- The part of `handle_camera_share_link` that issues a token and stores its link. -/
def createShareLink {ε : Type} (digests : Digests) (c : Creation) : Store ε Unit :=
  match issueCameraShareToken digests c.secret c.target.deviceId c.ttlMinutes c.now with
  | .error message => throw message
  | .ok issued =>
      saveShareLinkBundle
        (buildShareMediaSession c.request c.target c.mediaSessionId.text c.shareLinkId.text
          c.startedAt)
        (buildShareLinkRecord digests issued c.mediaSessionId.text c.shareLinkId.text)

inductive ShareOp where
  | create (creation : Creation)
  | revoke (shareLinkId : String) (revokedAt : Option String)

def ShareOp.apply (digests : Digests) (file : TaskConversationFile) :
    ShareOp → TaskConversationFile
  | .create creation => ((createShareLink digests creation : Store Empty _).run.exec file).file
  | .revoke shareLinkId revokedAt =>
      ((revokeShareLink shareLinkId revokedAt : Store Empty _).run.exec file).file

def shareFile (digests : Digests) (ops : List ShareOp) : TaskConversationFile :=
  ops.foldl (ShareOp.apply digests) {}

section Steps

/-- The expiry second of a token, unless no token is issued. -/
def Creation.expiry (c : Creation) : Option UInt64 :=
  if isBlank c.secret || isBlank c.target.deviceId then none
  else checkedAdd c.now (clampTtlMinutes c.ttlMinutes * 60)

def Creation.subject (c : Creation) : String × String × Option UInt64 :=
  (c.secret, c.target.deviceId, c.expiry)

def Creation.tokenHash (digests : Digests) (c : Creation) : Option String :=
  c.expiry.map fun exp =>
    cameraShareTokenHash digests (shareToken digests c.secret c.target.deviceId exp)

def ShareOp.creation : ShareOp → Option Creation
  | .create creation => if creation.expiry.isSome then some creation else none
  | .revoke .. => none

def issuedIn (ops : List ShareOp) : List Creation :=
  ops.filterMap ShareOp.creation

variable {digests : Digests}

theorem issueCameraShareToken_eq (digests : Digests) (c : Creation) :
    (∃ message, c.expiry = none ∧ issueCameraShareToken digests c.secret c.target.deviceId
      c.ttlMinutes c.now = .error message) ∨
    ∃ exp, c.expiry = some exp ∧ issueCameraShareToken digests c.secret c.target.deviceId
      c.ttlMinutes c.now = .ok
        { token := shareToken digests c.secret c.target.deviceId exp
          expiresAtUnixSecs := exp
          ttlMinutes := clampTtlMinutes c.ttlMinutes } := by
  unfold Creation.expiry issueCameraShareToken
  cases isBlank c.secret with
  | true => exact Or.inl ⟨_, rfl, rfl⟩
  | false =>
      cases isBlank c.target.deviceId with
      | true => exact Or.inl ⟨_, rfl, rfl⟩
      | false =>
          simp only [Bool.or_self, Bool.false_eq_true, if_false]
          cases checkedAdd c.now (clampTtlMinutes c.ttlMinutes * 60) with
          | none => exact Or.inl ⟨_, rfl, rfl⟩
          | some exp => exact Or.inr ⟨exp, rfl, rfl⟩

theorem create_shareLinks (c : Creation) (file : TaskConversationFile) :
    (c.expiry = none ∧ (ShareOp.apply digests file (.create c)).shareLinks = file.shareLinks) ∨
    ∃ link, c.expiry.isSome ∧ some link.tokenHash = c.tokenHash digests ∧ link.revokedAt = none ∧
      (ShareOp.apply digests file (.create c)).shareLinks =
        file.shareLinks.insert c.shareLinkId.text link := by
  rcases issueCameraShareToken_eq digests c with ⟨message, hnone, hissue⟩ | ⟨exp, hsome, hissue⟩
  · left
    refine ⟨hnone, ?_⟩
    simp only [ShareOp.apply, createShareLink, hissue]
    rfl
  · right
    refine ⟨buildShareLinkRecord digests
      { token := shareToken digests c.secret c.target.deviceId exp
        expiresAtUnixSecs := exp
        ttlMinutes := clampTtlMinutes c.ttlMinutes } c.mediaSessionId.text c.shareLinkId.text,
      by rw [hsome]; rfl, ?_, rfl, ?_⟩
    · rw [Creation.tokenHash, hsome]
      rfl
    · simp only [ShareOp.apply, createShareLink, hissue, saveShareLinkBundle,
        buildShareMediaSession, buildShareLinkRecord, c.mediaSessionId.notBlank,
        c.shareLinkId.notBlank, Bool.false_eq_true, if_false, ne_eq, not_true_eq_false]
      rfl

theorem revoke_shareLinks (shareLinkId : String) (revokedAt : Option String)
    (file : TaskConversationFile) :
    (ShareOp.apply digests file (.revoke shareLinkId revokedAt)).shareLinks =
      match file.shareLinks.lookup shareLinkId with
      | none => file.shareLinks
      | some link => file.shareLinks.insert shareLinkId
          { link with revokedAt := revokedAt.or link.revokedAt } := by
  simp only [ShareOp.apply, revokeShareLink, updateRecord, ExceptT.run_mk, exec]
  cases file.shareLinks.lookup shareLinkId with
  | none => rfl
  | some link => rfl

end Steps

section Runs

variable {digests : Digests} {ops : List ShareOp} {file : TaskConversationFile}
  {id tokenHash : String} {c d : Creation}

theorem shareFile_concat (ops : List ShareOp) (op : ShareOp) :
    shareFile digests (ops ++ [op]) = op.apply digests (shareFile digests ops) := by
  rw [shareFile, List.foldl_append]
  rfl

def FreshIds (ops : List ShareOp) : Prop :=
  ((issuedIn ops).map (·.shareLinkId.text)).Nodup

theorem FreshIds.of_append {ops ops' : List ShareOp} (h : FreshIds (ops ++ ops')) :
    FreshIds ops := by
  rw [FreshIds, issuedIn, List.filterMap_append, List.map_append] at h
  exact (List.nodup_append.mp h).1

structure Stores (digests : Digests) (ops : List ShareOp) (shareLinks : Table ShareLink) :
    Prop where
  sound : ∀ id link, shareLinks.lookup id = some link →
    ∃ c ∈ issuedIn ops, c.shareLinkId.text = id ∧ some link.tokenHash = c.tokenHash digests
  complete : ∀ c ∈ issuedIn ops, ∃ link,
    shareLinks.lookup c.shareLinkId.text = some link ∧ some link.tokenHash = c.tokenHash digests

theorem stores_revoke {shareLinkId : String} {revokedAt : Option String}
    (h : Stores digests ops file.shareLinks) :
    Stores digests (ops ++ [.revoke shareLinkId revokedAt])
      (ShareOp.apply digests file (.revoke shareLinkId revokedAt)).shareLinks := by
  have hissued : issuedIn (ops ++ [.revoke shareLinkId revokedAt]) = issuedIn ops := by
    simp [issuedIn, ShareOp.creation]
  rw [revoke_shareLinks]
  cases hlink : file.shareLinks.lookup shareLinkId with
  | none =>
      exact ⟨by rw [hissued]; exact h.sound, by rw [hissued]; exact h.complete⟩
  | some link =>
      constructor
      · intro id stored hstored
        rw [hissued]
        rw [Table.lookup_insert_eq_ite] at hstored
        split at hstored
        · rename_i hid
          cases hstored
          rw [hid]
          exact h.sound shareLinkId link hlink
        · exact h.sound id stored hstored
      · intro c hc
        rw [hissued] at hc
        obtain ⟨stored, hstored, hhash⟩ := h.complete c hc
        rw [Table.lookup_insert_eq_ite]
        split
        · rename_i hid
          rw [hid, hlink] at hstored
          cases hstored
          exact ⟨_, rfl, hhash⟩
        · exact ⟨stored, hstored, hhash⟩

theorem stores_create {creation : Creation} (hfresh : FreshIds (ops ++ [.create creation]))
    (h : Stores digests ops file.shareLinks) :
    Stores digests (ops ++ [.create creation])
      (ShareOp.apply digests file (.create creation)).shareLinks := by
  rcases create_shareLinks creation file with ⟨hnone, hsame⟩ | ⟨link, hsome, hhash, -, hinsert⟩
  · have hissued : issuedIn (ops ++ [.create creation]) = issuedIn ops := by
      simp [issuedIn, ShareOp.creation, hnone]
    rw [hsame]
    exact ⟨by rw [hissued]; exact h.sound, by rw [hissued]; exact h.complete⟩
  · have hissued : issuedIn (ops ++ [.create creation]) = issuedIn ops ++ [creation] := by
      simp [issuedIn, ShareOp.creation, hsome]
    rw [FreshIds, hissued, List.map_append, List.nodup_append] at hfresh
    rw [hinsert]
    constructor
    · intro id stored hstored
      rw [hissued]
      rw [Table.lookup_insert_eq_ite] at hstored
      split at hstored
      · rename_i hid
        cases hstored
        exact ⟨creation, List.mem_append_right _ List.mem_cons_self, hid.symm, hhash⟩
      · obtain ⟨c, hc, hcreated⟩ := h.sound id stored hstored
        exact ⟨c, List.mem_append_left _ hc, hcreated⟩
    · intro c hc
      rw [hissued, List.mem_append, List.mem_singleton] at hc
      rw [Table.lookup_insert_eq_ite]
      rcases hc with hc | rfl
      · have hne : c.shareLinkId.text ≠ creation.shareLinkId.text :=
          hfresh.2.2 _ (List.mem_map_of_mem hc) _ List.mem_cons_self
        rw [if_neg hne]
        exact h.complete c hc
      · rw [if_pos rfl]
        exact ⟨link, rfl, hhash⟩

theorem stores_shareFile (hfresh : FreshIds ops) :
    Stores digests ops (shareFile digests ops).shareLinks := by
  induction ops using List.reverseRecOn with
  | nil =>
      constructor
      · intro id link hlink
        rw [shareFile, List.foldl_nil] at hlink
        exact absurd hlink (Option.some_ne_none link).symm
      · intro c hc
        exact absurd hc List.not_mem_nil
  | append_singleton ops op ih =>
      have hstored := ih hfresh.of_append
      rw [shareFile_concat]
      cases op with
      | create creation => exact stores_create hfresh hstored
      | revoke shareLinkId revokedAt => exact stores_revoke hstored

/-- No two stored links have the same token hash. -/
def NoSharedHash (file : TaskConversationFile) : Prop :=
  ∀ id id' link link', file.shareLinks.lookup id = some link →
    file.shareLinks.lookup id' = some link' → link.tokenHash = link'.tokenHash → id = id'

/-- The tokens of a run are issued for different subjects. -/
def DistinctSubjects (ops : List ShareOp) : Prop :=
  ((issuedIn ops).map Creation.subject).Nodup

theorem DistinctSubjects.of_append {ops ops' : List ShareOp}
    (h : DistinctSubjects (ops ++ ops')) : DistinctSubjects ops := by
  rw [DistinctSubjects, issuedIn, List.filterMap_append, List.map_append] at h
  exact (List.nodup_append.mp h).1

theorem expiry_isSome_of_mem {c : Creation} (hc : c ∈ issuedIn ops) : c.expiry.isSome := by
  obtain ⟨op, -, hop⟩ := List.mem_filterMap.mp hc
  cases op with
  | create creation =>
      simp only [ShareOp.creation] at hop
      split at hop
      · rename_i hsome
        cases hop
        exact hsome
      · cases hop
  | revoke shareLinkId revokedAt => cases hop

theorem subject_eq_of_tokenHash (hdigests : digests.CollisionFree) (hc : c ∈ issuedIn ops)
    (hd : d ∈ issuedIn ops) (h : c.tokenHash digests = d.tokenHash digests) :
    c.subject = d.subject := by
  obtain ⟨exp, hexp⟩ := Option.isSome_iff_exists.mp (expiry_isSome_of_mem hc)
  obtain ⟨exp', hexp'⟩ := Option.isSome_iff_exists.mp (expiry_isSome_of_mem hd)
  rw [Creation.tokenHash, Creation.tokenHash, hexp, hexp', Option.map_some, Option.map_some,
    Option.some.injEq] at h
  obtain ⟨hsecret, hdevice, hsame⟩ :=
    shareToken_inj hdigests (cameraShareTokenHash_injective hdigests h)
  rw [Creation.subject, Creation.subject, hexp, hexp', hsecret, hdevice, hsame]

theorem tokenHash_eq_of_subject (h : c.subject = d.subject) :
    c.tokenHash digests = d.tokenHash digests := by
  simp only [Creation.subject, Prod.mk.injEq] at h
  obtain ⟨hsecret, hdevice, hexp⟩ := h
  rw [Creation.tokenHash, Creation.tokenHash, hsecret, hdevice, hexp]

theorem noSharedHash_iff (hdigests : digests.CollisionFree) (hfresh : FreshIds ops) :
    NoSharedHash (shareFile digests ops) ↔ DistinctSubjects ops := by
  have hstores : Stores digests ops (shareFile digests ops).shareLinks :=
    stores_shareFile hfresh
  have hnodup : (issuedIn ops).Nodup := List.Nodup.of_map _ hfresh
  constructor
  · intro hshared
    rw [DistinctSubjects, List.nodup_map_iff_inj_on hnodup]
    intro c hc d hd hsubject
    obtain ⟨link, hlink, hhash⟩ := hstores.complete c hc
    obtain ⟨link', hlink', hhash'⟩ := hstores.complete d hd
    rw [tokenHash_eq_of_subject hsubject, ← hhash', Option.some.injEq] at hhash
    have hid := hshared _ _ link link' hlink hlink' hhash
    exact List.inj_on_of_nodup_map hfresh hc hd hid
  · intro hdistinct id id' link link' hlink hlink' hhash
    obtain ⟨c, hc, rfl, hchash⟩ := hstores.sound id link hlink
    obtain ⟨d, hd, rfl, hdhash⟩ := hstores.sound id' link' hlink'
    rw [hhash, hdhash] at hchash
    have hsubject := subject_eq_of_tokenHash hdigests hc hd hchash.symm
    rw [List.inj_on_of_nodup_map hdistinct hc hd hsubject]

def Revoked (id tokenHash : String) (shareLinks : Table ShareLink) : Prop :=
  ∃ link, shareLinks.lookup id = some link ∧ link.tokenHash = tokenHash ∧ link.revokedAt.isSome

theorem revoked_concat {op : ShareOp} (hfresh : FreshIds (ops ++ [op]))
    (h : Revoked id tokenHash (shareFile digests ops).shareLinks) :
    Revoked id tokenHash (shareFile digests (ops ++ [op])).shareLinks := by
  obtain ⟨link, hlink, hhash, hrevoked⟩ := h
  rw [shareFile_concat]
  cases op with
  | create creation =>
      rcases create_shareLinks creation (shareFile digests ops) with
        ⟨-, hsame⟩ | ⟨link', hsome, -, -, hinsert⟩
      · rw [hsame]
        exact ⟨link, hlink, hhash, hrevoked⟩
      · -- the id was drawn before, so the new link has another one
        obtain ⟨c, hc, hid, -⟩ := (stores_shareFile hfresh.of_append).sound id link hlink
        have hissued : issuedIn (ops ++ [.create creation]) = issuedIn ops ++ [creation] := by
          simp [issuedIn, ShareOp.creation, hsome]
        rw [FreshIds, hissued, List.map_append, List.nodup_append] at hfresh
        have hne : c.shareLinkId.text ≠ creation.shareLinkId.text :=
          hfresh.2.2 _ (List.mem_map_of_mem hc) _ List.mem_cons_self
        rw [hid] at hne
        rw [hinsert]
        refine ⟨link, ?_, hhash, hrevoked⟩
        rw [Table.lookup_insert_eq_ite, if_neg hne]
        exact hlink
  | revoke shareLinkId revokedAt =>
      rw [revoke_shareLinks]
      cases hstored : (shareFile digests ops).shareLinks.lookup shareLinkId with
      | none => exact ⟨link, hlink, hhash, hrevoked⟩
      | some stored =>
          simp only [Revoked, Table.lookup_insert_eq_ite]
          split
          · rename_i hid
            rw [hid, hstored] at hlink
            cases hlink
            refine ⟨_, rfl, hhash, ?_⟩
            cases revokedAt with
            | none => exact hrevoked
            | some time => rfl
          · exact ⟨link, hlink, hhash, hrevoked⟩

theorem revoked_append {ops' : List ShareOp} (hfresh : FreshIds (ops ++ ops'))
    (h : Revoked id tokenHash (shareFile digests ops).shareLinks) :
    Revoked id tokenHash (shareFile digests (ops ++ ops')).shareLinks := by
  induction ops' using List.reverseRecOn with
  | nil =>
      rw [List.append_nil]
      exact h
  | append_singleton ops' op ih =>
      rw [← List.append_assoc] at hfresh ⊢
      exact revoked_concat hfresh (ih hfresh.of_append)

/-- In every run that issues its tokens for different subjects, no two stored links ever
have the same token hash, and once a link is revoked, a lookup by the hash of its token
finds a revoked link, in whatever order the links are gone through. -/
theorem revocation_effective (hdigests : digests.CollisionFree) (hfresh : FreshIds ops)
    (hdistinct : DistinctSubjects ops) {before after : List ShareOp}
    (hops : ops = before ++ after) :
    NoSharedHash (shareFile digests before) ∧
    ∀ id link, (shareFile digests before).shareLinks.lookup id = some link →
      link.revokedAt.isSome →
      ∀ links : List ShareLink, links.Perm (shareFile digests ops).shareLinks.values →
        ∀ found, links.find? (fun other => other.tokenHash = link.tokenHash) = some found →
          found.revokedAt.isSome := by
  subst hops
  constructor
  · exact (noSharedHash_iff hdigests hfresh.of_append).mpr hdistinct.of_append
  · intro id link hlink hrevoked links hlinks found hfound
    obtain ⟨last, hlast, hhash, hlastRevoked⟩ :=
      revoked_append hfresh ⟨link, hlink, rfl, hrevoked⟩
    have hshared := (noSharedHash_iff hdigests hfresh).mpr hdistinct
    have hmem := hlinks.subset (List.mem_of_find?_eq_some hfound)
    obtain ⟨id', hid'⟩ := Table.mem_values_iff.mp hmem
    have hsame : found.tokenHash = link.tokenHash := by simpa using List.find?_some hfound
    have hid := hshared id' id found last hid' hlast (hsame.trans hhash.symm)
    rw [hid, hlast] at hid'
    cases hid'
    exact hlastRevoked

end Runs

/-- The claims of a link to `cam-1` that expires at 1700000900, encoded. -/
def firstPayload : String :=
  "eyJ2IjoxLCJraW5kIjoiY2FtZXJhX2xpdmUiLCJkZXZpY2VfaWQiOiJjYW0tMSIsImV4cCI6MTcwMDAwMDkwMH0"

def secondPayload : String :=
  "eyJ2IjoxLCJraW5kIjoiY2FtZXJhX2xpdmUiLCJkZXZpY2VfaWQiOiJjYW0tMSIsImV4cCI6MTcwMDAwMDkwMX0"

def firstMac : List UInt8 :=
  [249, 144, 1, 171, 71, 20, 16, 214, 6, 7, 92, 197, 82, 188, 39, 172, 218, 55, 0, 235,
   172, 242, 155, 203, 81, 89, 74, 200, 244, 100, 98, 84]

def secondMac : List UInt8 :=
  [27, 77, 168, 158, 179, 178, 187, 1, 165, 182, 50, 223, 167, 12, 145, 142, 166, 5, 170,
   240, 235, 235, 120, 103, 213, 250, 31, 31, 217, 81, 133, 157]

def firstToken : String :=
  firstPayload ++ ".-ZABq0cUENYGB1zFUrwnrNo3AOus8pvLUVlKyPRkYlQ"

def secondToken : String :=
  secondPayload ++ ".G02onrOyuwGltjLfpwyRjqYFqvDr63hn1fofH9lRhZ0"

def firstHash : List UInt8 :=
  [212, 96, 140, 46, 164, 212, 20, 5, 25, 170, 58, 210, 208, 16, 102, 24, 38, 96, 65, 169,
   100, 188, 51, 167, 84, 23, 116, 134, 218, 90, 116, 121]

def secondHash : List UInt8 :=
  [157, 82, 105, 50, 250, 233, 245, 137, 216, 221, 99, 55, 8, 192, 73, 146, 154, 252, 228,
   198, 27, 173, 162, 178, 231, 107, 88, 51, 105, 69, 161, 16]

def tabulated {α : Type} [DecidableEq α] (code : α → Nat) (first second : α)
    (digest digest' : List UInt8) : α → List UInt8 :=
  Function.update (Function.update (fun input => List.replicate (33 + code input) 0)
    first digest) second digest'

theorem injective_update {α β : Type} [DecidableEq α] {f : α → β} (hf : Function.Injective f)
    {a : α} {b : β} (hb : ∀ x, f x ≠ b) : Function.Injective (Function.update f a b) := by
  intro x y hxy
  by_cases hx : x = a
  · by_cases hy : y = a
    · rw [hx, hy]
    · rw [hx, Function.update_self, Function.update_of_ne hy] at hxy
      exact absurd hxy.symm (hb y)
  · by_cases hy : y = a
    · rw [hy, Function.update_self, Function.update_of_ne hx] at hxy
      exact absurd hxy (hb x)
    · rw [Function.update_of_ne hx, Function.update_of_ne hy] at hxy
      exact hf hxy

theorem tabulated_injective {α : Type} [DecidableEq α] {code : α → Nat}
    (hcode : Function.Injective code) {first second : α} {digest digest' : List UInt8}
    (hlength : digest.length = 32) (hlength' : digest'.length = 32) (hne : digest ≠ digest') :
    Function.Injective (tabulated code first second digest digest') := by
  have hlong : ∀ input, (List.replicate (33 + code input) (0 : UInt8)).length ≠ 32 := by
    intro input
    rw [List.length_replicate]
    omega
  apply injective_update
  · apply injective_update
    · intro x y hxy
      have hlengths := congrArg List.length hxy
      rw [List.length_replicate, List.length_replicate] at hlengths
      exact hcode (by omega)
    · intro x hx
      exact hlong x (by rw [hx, hlength])
  · intro x hx
    by_cases hfirst : x = first
    · rw [hfirst, Function.update_self] at hx
      exact hne hx
    · rw [Function.update_of_ne hfirst] at hx
      exact hlong x (by rw [hx, hlength'])

def byteCode (bytes : List UInt8) : Nat :=
  Encodable.encode (bytes.map UInt8.toNat)

theorem byteCode_injective : Function.Injective byteCode := by
  intro bytes bytes' h
  apply List.map_injective_iff.mpr (fun _ _ => UInt8.toNat_inj.mp)
  exact Encodable.encode_injective h

def linkDigests : Digests where
  hmacSha256 key message :=
    tabulated (fun input : List UInt8 × List UInt8 =>
        Nat.pair (byteCode input.1) (byteCode input.2))
      (TextEncoding.utf8 "share-secret", TextEncoding.utf8 firstPayload)
      (TextEncoding.utf8 "share-secret", TextEncoding.utf8 secondPayload)
      firstMac secondMac (key, message)
  sha256 := tabulated byteCode (TextEncoding.utf8 firstToken) (TextEncoding.utf8 secondToken)
    firstHash secondHash

example : shareToken linkDigests "share-secret" "cam-1" 1700000901 = secondToken := by
  decide +kernel

theorem linkDigests_collisionFree : linkDigests.CollisionFree where
  hmacSha256 := by
    apply tabulated_injective _ (by decide) (by decide) (by decide)
    intro input input' h
    have hpair := Nat.pair_eq_pair.mp h
    exact Prod.ext (byteCode_injective hpair.1) (byteCode_injective hpair.2)
  sha256 := tabulated_injective byteCode_injective (by decide) (by decide) (by decide)

def linkAt (now : UInt64) (shareLinkId mediaSessionId : Uuid) : Creation where
  request := { taskId := "task-1" }
  target := { deviceId := "cam-1", transport := .rtsp }
  secret := "share-secret"
  ttlMinutes := 15
  now := now
  startedAt := "1700000000"
  shareLinkId := shareLinkId
  mediaSessionId := mediaSessionId

def revokeThenShare (now : UInt64) : List ShareOp :=
  [.create (linkAt 1700000000 ⟨"share-link-1", by decide⟩ ⟨"media-session-1", by decide⟩),
   .revoke "share-link-1" (some "1700000000"),
   .create (linkAt now ⟨"share-link-2", by decide⟩ ⟨"media-session-2", by decide⟩)]

theorem share_later_revoked :
    NoSharedHash (shareFile linkDigests ((revokeThenShare 1700000001).take 2)) ∧
    ∀ links : List ShareLink,
      links.Perm (shareFile linkDigests (revokeThenShare 1700000001)).shareLinks.values →
      ∀ found, links.find? (fun link =>
        link.tokenHash = cameraShareTokenHash linkDigests firstToken) = some found →
          found.revokedAt.isSome := by
  have hfresh : FreshIds (revokeThenShare 1700000001) := by
    unfold FreshIds
    decide
  have hdistinct : DistinctSubjects (revokeThenShare 1700000001) := by
    unfold DistinctSubjects
    decide
  have hstored : ((shareFile linkDigests ((revokeThenShare 1700000001).take 2)).shareLinks.lookup
      "share-link-1").map (fun link => (link.tokenHash, link.revokedAt)) =
        some (cameraShareTokenHash linkDigests firstToken, some "1700000000") := by
    decide +kernel
  obtain ⟨link, hlink, hfields⟩ := Option.map_eq_some_iff.mp hstored
  obtain ⟨hhash, hrevoked⟩ := Prod.mk.injEq .. ▸ hfields
  obtain ⟨hunshared, hkept⟩ := revocation_effective linkDigests_collisionFree hfresh hdistinct
    (List.take_append_drop 2 _).symm
  refine ⟨hunshared, ?_⟩
  intro links hlinks found hfound
  rw [← hhash] at hfound
  exact hkept _ link hlink (by rw [hrevoked]; rfl) links hlinks found hfound

/-- In the same second the new link brings the revoked token back. -/
theorem share_same_second_unrevoked :
    linkDigests.CollisionFree ∧ FreshIds (revokeThenShare 1700000000) ∧
    ((shareFile linkDigests (revokeThenShare 1700000000)).shareLinks.lookup "share-link-1").map
      (fun link => (link.tokenHash, link.revokedAt)) =
        some (cameraShareTokenHash linkDigests firstToken, some "1700000000") ∧
    ((findShareLinkByTokenHash (cameraShareTokenHash linkDigests firstToken) :
      Store Empty _).run.exec
        (shareFile linkDigests (revokeThenShare 1700000000))).result.toOption.map
          (fun link => link.map fun link => (link.shareLinkId, link.revokedAt)) =
            some (some ("share-link-2", none)) ∧
    ¬ NoSharedHash (shareFile linkDigests (revokeThenShare 1700000000)) := by
  have hfresh : FreshIds (revokeThenShare 1700000000) := by
    unfold FreshIds
    decide
  have hshared : ¬ DistinctSubjects (revokeThenShare 1700000000) := by
    unfold DistinctSubjects
    decide
  refine ⟨linkDigests_collisionFree, hfresh, by decide +kernel, by decide +kernel, fun h => ?_⟩
  exact hshared ((noSharedHash_iff linkDigests_collisionFree hfresh).mp h)

end HarborBeacon.ShareLinks
