import HarborBeacon.Results
import HarborBeacon.Text
import HarborBeacon.TextEncoding

/-!
Signed share links for camera live view pages. A token holds its claims and a keyed
signature of them, and nothing else: the same secret, camera and expiry second give the
same token.
-/

namespace HarborBeacon.RemoteView

open Text TextEncoding

/-- The two digests that the tokens rest on. -/
structure Digests where
  hmacSha256 : List UInt8 → List UInt8 → List UInt8
  sha256 : List UInt8 → List UInt8

/-- No two inputs share a digest. -/
structure Digests.CollisionFree (digests : Digests) : Prop where
  hmacSha256 : Function.Injective fun input : List UInt8 × List UInt8 =>
    digests.hmacSha256 input.1 input.2
  sha256 : Function.Injective digests.sha256

structure CameraShareClaims where
  v : UInt8
  kind : String
  deviceId : String
  exp : UInt64
deriving DecidableEq

def CameraShareClaims.toVec (claims : CameraShareClaims) : List UInt8 :=
  utf8 (String.ofList
    ("\x7b".toList ++
      (jsonString "v" ++ ':' :: (toString claims.v.toNat).toList) ++ ',' ::
      (jsonString "kind" ++ ':' :: jsonString claims.kind) ++ ',' ::
      (jsonString "device_id" ++ ':' :: jsonString claims.deviceId) ++ ',' ::
      (jsonString "exp" ++ ':' :: (toString claims.exp.toNat).toList) ++ "\x7d".toList))

structure IssuedCameraShareToken where
  token : String
  expiresAtUnixSecs : UInt64
  ttlMinutes : Nat
deriving DecidableEq

def checkedAdd (a : UInt64) (n : Nat) : Option UInt64 :=
  if a.toNat + n < 2 ^ 64 then some (UInt64.ofNat (a.toNat + n)) else none

def signPayload (digests : Digests) (secret : String) (payloadB64 : List Char) : List Char :=
  base64Url (digests.hmacSha256 (utf8 secret) (utf8 (String.ofList payloadB64)))

def cameraLiveClaims (deviceId : String) (exp : UInt64) : CameraShareClaims where
  v := 1
  kind := "camera_live"
  deviceId := deviceId
  exp := exp

def shareToken (digests : Digests) (secret deviceId : String) (exp : UInt64) : String :=
  let payloadB64 := base64Url (cameraLiveClaims deviceId exp).toVec
  String.ofList (payloadB64 ++ '.' :: signPayload digests secret payloadB64)

def clampTtlMinutes (ttlMinutes : UInt32) : Nat :=
  min (max ttlMinutes.toNat 1) (24 * 60)

def issueCameraShareToken (digests : Digests) (secret deviceId : String) (ttlMinutes : UInt32)
    (now : UInt64) : Except String IssuedCameraShareToken :=
  if isBlank secret then .error "share secret is empty"
  else if isBlank deviceId then .error "device_id is empty"
  else
    match checkedAdd now (clampTtlMinutes ttlMinutes * 60) with
    | none => .error "share token expiration overflowed"
    | some expiresAtUnixSecs =>
        .ok
          { token := shareToken digests secret deviceId expiresAtUnixSecs
            expiresAtUnixSecs := expiresAtUnixSecs
            ttlMinutes := clampTtlMinutes ttlMinutes }

/-- What reads the claims of a token, and the words for a text that does not decode. -/
structure TokenReaders where
  fromSlice : List UInt8 → Except String CameraShareClaims
  decodeError : List Char → String

def TokenReaders.decode (readers : TokenReaders) (label : String) (chars : List Char) :
    Except String (List UInt8) :=
  (decodeBase64Url chars).elim (.error (label ++ readers.decodeError chars)) .ok

def verifyCameraShareToken (digests : Digests) (readers : TokenReaders) (secret token : String)
    (now : UInt64) : Except String CameraShareClaims :=
  if isBlank secret then .error "share secret is empty"
  else
    match token.toList.span (· ≠ '.') with
    | (_, []) => .error "share token format is invalid"
    | (payloadB64, _ :: signatureB64) => do
        if payloadB64 = [] ∨ signatureB64 = [] then throw "share token format is invalid"
        let provided ← readers.decode "share token signature is invalid: " signatureB64
        let expected ← readers.decode "expected share signature is invalid: "
          (signPayload digests secret payloadB64)
        if expected.length ≠ provided.length then throw "share token signature mismatch"
        if digests.hmacSha256 (utf8 secret) (utf8 (String.ofList payloadB64)) ≠ provided then
          throw "share token signature mismatch"
        let payload ← readers.decode "share token payload is invalid: " payloadB64
        let claims ← (readers.fromSlice payload).mapError
          ("share token payload parse failed: " ++ ·)
        if claims.v ≠ 1 ∨ claims.kind ≠ "camera_live" then throw "share token scope is invalid"
        if isBlank claims.deviceId then throw "share token missing device_id"
        if claims.exp < now then throw "share token expired"
        return claims

def cameraShareTokenHash (digests : Digests) (token : String) : String :=
  String.ofList (hex (digests.sha256 (utf8 token)))

section Tokens

variable {digests : Digests} {secret secret' deviceId deviceId' : String} {exp exp' : UInt64}

theorem cameraLiveClaims_toVec_inj
    (h : (cameraLiveClaims deviceId exp).toVec = (cameraLiveClaims deviceId' exp').toVec) :
    deviceId = deviceId' ∧ exp = exp' := by
  have htext := String.ofList_injective (utf8_injective h)
  simp only [cameraLiveClaims, List.append_assoc, List.cons_append, List.append_cancel_left_eq,
    List.cons.injEq, true_and] at htext
  obtain ⟨hdevice, hrest⟩ := jsonString_append_inj htext
  simp only [List.cons.injEq, true_and, List.append_cancel_left_eq,
    List.append_cancel_right_eq] at hrest
  refine ⟨hdevice, UInt64.toNat_inj.mp ?_⟩
  exact eq_of_toString_eq (String.toList_inj.mp hrest)

theorem dot_not_mem_base64Url (bytes : List UInt8) : '.' ∉ base64Url bytes := by
  intro hmem
  exact absurd (mem_base64Alphabet hmem) (by decide)

theorem signPayload_inj (hdigests : digests.CollisionFree) {payloadB64 payloadB64' : List Char}
    (h : signPayload digests secret payloadB64 = signPayload digests secret' payloadB64') :
    secret = secret' := by
  have hdigest : digests.hmacSha256 (utf8 secret) (utf8 (String.ofList payloadB64)) =
      digests.hmacSha256 (utf8 secret') (utf8 (String.ofList payloadB64')) :=
    base64Url_injective h
  have hinput : (utf8 secret, utf8 (String.ofList payloadB64)) =
      (utf8 secret', utf8 (String.ofList payloadB64')) := by
    apply hdigests.hmacSha256
    exact hdigest
  exact utf8_injective (congrArg Prod.fst hinput)

theorem shareToken_inj (hdigests : digests.CollisionFree)
    (h : shareToken digests secret deviceId exp = shareToken digests secret' deviceId' exp') :
    secret = secret' ∧ deviceId = deviceId' ∧ exp = exp' := by
  have htext := String.ofList_injective h
  rw [List.append_cons_inj_of_notMem (dot_not_mem_base64Url _)
    (by rw [signPayload]; exact dot_not_mem_base64Url _)] at htext
  obtain ⟨hpayload, -, hsignature⟩ := htext
  exact ⟨signPayload_inj hdigests hsignature,
    cameraLiveClaims_toVec_inj (base64Url_injective hpayload)⟩

theorem cameraShareTokenHash_injective (hdigests : digests.CollisionFree) :
    Function.Injective (cameraShareTokenHash digests) := by
  intro token token' h
  apply utf8_injective
  apply hdigests.sha256
  apply hex_injective
  exact String.ofList_injective h

theorem span_shareToken : (shareToken digests secret deviceId exp).toList.span (· ≠ '.') =
    (base64Url (cameraLiveClaims deviceId exp).toVec,
      '.' :: signPayload digests secret (base64Url (cameraLiveClaims deviceId exp).toVec)) := by
  have hdot : ∀ c ∈ base64Url (cameraLiveClaims deviceId exp).toVec, decide (c ≠ '.') = true :=
    fun c hc => decide_eq_true fun h => dot_not_mem_base64Url _ (h ▸ hc)
  rw [shareToken, String.toList_ofList, List.span_eq_takeWhile_dropWhile,
    List.takeWhile_append_of_pos hdot, List.dropWhile_append_of_pos hdot]
  simp

theorem toNat_checkedAdd {a : UInt64} {n : Nat} (h : checkedAdd a n = some exp) :
    exp.toNat = a.toNat + n := by
  unfold checkedAdd at h
  split_ifs at h with hfit
  rw [← Option.some.inj h, UInt64.toNat_ofNat_of_lt' hfit]

theorem toVec_ne_nil (claims : CameraShareClaims) : claims.toVec ≠ [] := by
  intro h
  have htext := @utf8_injective _ "" h
  simpa using congrArg String.toList htext

theorem base64Url_ne_nil {bytes : List UInt8} (h : bytes ≠ []) : base64Url bytes ≠ [] :=
  fun hempty => h (base64Url_injective hempty)

/-- An issued token passes until its last second, and gives back its claims. -/
theorem verify_issued_iff {readers : TokenReaders} {ttlMinutes : UInt32} {issuedAt now : UInt64}
    {issued : IssuedCameraShareToken} {claims : CameraShareClaims}
    (hfilled : ∀ key message, digests.hmacSha256 key message ≠ [])
    (hissued : issueCameraShareToken digests secret deviceId ttlMinutes issuedAt = .ok issued)
    (hread : readers.fromSlice (cameraLiveClaims deviceId issued.expiresAtUnixSecs).toVec =
      .ok (cameraLiveClaims deviceId issued.expiresAtUnixSecs)) :
    verifyCameraShareToken digests readers secret issued.token now = .ok claims ↔
      now.toNat ≤ issuedAt.toNat + clampTtlMinutes ttlMinutes * 60 ∧
        claims = cameraLiveClaims deviceId issued.expiresAtUnixSecs := by
  unfold issueCameraShareToken at hissued
  split_ifs at hissued with hsecret hdevice
  cases hadd : checkedAdd issuedAt (clampTtlMinutes ttlMinutes * 60) with
  | none => rw [hadd] at hissued; cases hissued
  | some exp =>
      rw [hadd] at hissued
      obtain rfl := Except.ok.inj hissued
      simp only [verifyCameraShareToken, hsecret, span_shareToken, signPayload,
        base64Url_ne_nil (toVec_ne_nil _), base64Url_ne_nil (hfilled _ _), TokenReaders.decode,
        decodeBase64Url_base64Url, Option.elim, Results.ok_bind, hread, Except.mapError,
        ← toNat_checkedAdd hadd, ← UInt64.le_iff_toNat_le]
      by_cases hlive : now ≤ exp
      · simp [cameraLiveClaims, hdevice, hlive, UInt64.not_lt.mpr hlive, pure, Except.pure, eq_comm]
      · simp [cameraLiveClaims, hdevice, hlive, UInt64.not_le.mp hlive, throw, throwThe,
          MonadExceptOf.throw]

def sampleDigests : Digests where
  hmacSha256 _ _ :=
    [188, 179, 200, 185, 62, 49, 173, 117, 244, 16, 78, 40, 6, 134, 164, 77, 241, 196, 73, 184,
      202, 4, 173, 208, 148, 108, 19, 201, 62, 142, 222, 39]
  sha256 := id

def sampleReaders : TokenReaders where
  fromSlice bytes :=
    if bytes = (cameraLiveClaims "cam-1" 1700000900).toVec then
      .ok (cameraLiveClaims "cam-1" 1700000900)
    else .error "missing field"
  decodeError _ := "Invalid padding"

theorem verify_issued_iff_camera :
    verifyCameraShareToken sampleDigests sampleReaders "test-secret"
      (shareToken sampleDigests "test-secret" "cam-1" 1700000900) 1700000900 =
        .ok (cameraLiveClaims "cam-1" 1700000900) := by
  have hissued : issueCameraShareToken sampleDigests "test-secret" "cam-1" 15 1700000000 =
      .ok ⟨shareToken sampleDigests "test-secret" "cam-1" 1700000900, 1700000900, 15⟩ := by
    decide +kernel
  exact (verify_issued_iff (fun _ _ => List.cons_ne_nil _ _) hissued (by simp [sampleReaders])).mpr
    ⟨by decide, rfl⟩

end Tokens

end HarborBeacon.RemoteView
