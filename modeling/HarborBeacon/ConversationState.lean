import HarborBeacon.Json
import HarborBeacon.Text

/-!
The conversation state of multi-step flows: its records, their JSON form, and the
migration of the older pending fields.
-/

namespace HarborBeacon.ConversationState

open Json Json.Value Text

def defaultRtspPort : UInt16 := 554

structure PendingTaskCandidate where
  candidateId : String
  name : String
  ip : String
  room : Option String
  port : UInt16
  rtspPaths : List String
  requiresAuth : Bool
  vendor : Option String
  model : Option String
deriving DecidableEq

structure PendingTaskConnect where
  resumeToken : String
  name : String
  ip : String
  room : Option String
  port : UInt16
  snapshotUrl : Option String
  rtspPaths : List String
  requiresAuth : Bool
  vendor : Option String
  model : Option String
deriving DecidableEq

structure RecentClipPlaybackState where
  clipMediaAssetId : String
  clipPath : String
  clipMimeType : String
  coverPath : String
  displayName : String
  /-- a `u128` -/
  capturedAtEpochMs : Nat
deriving DecidableEq

structure RecentFamilyMemoryEventState where
  eventId : String
  cameraId : String
  eventType : String
  summary : String
  /-- a `u128` -/
  referencedAtEpochMs : Nat
deriving DecidableEq

structure RecentCatActivityQueryState where
  cameraHint : Option String
  timeScope : String
  issuedArtifactIds : List String
  lastBatchArtifactIds : List String
  /-- a `u128` -/
  updatedAtEpochMs : Nat
deriving DecidableEq

structure PendingTaskSelectionItem where
  itemId : String
  payload : Value
deriving DecidableEq

structure PendingTaskSelectionState where
  operation : String
  items : List PendingTaskSelectionItem
deriving DecidableEq

structure PendingTaskResumeState where
  operation : String
  resumeToken : String
  payload : Value
deriving DecidableEq

structure TaskConversationState where
  key : String := ""
  pendingSelection : Option PendingTaskSelectionState := none
  pendingResume : Option PendingTaskResumeState := none
  pendingCandidates : List PendingTaskCandidate := []
  pendingConnect : Option PendingTaskConnect := none
  recentClipPlayback : Option RecentClipPlaybackState := none
  recentFamilyMemoryEvent : Option RecentFamilyMemoryEventState := none
  recentCatActivityQuery : Option RecentCatActivityQueryState := none
  lastScanCidr : String := ""
deriving DecidableEq

def PendingTaskCandidate.encode (candidate : PendingTaskCandidate) : Value :=
  obj
    [("candidate_id", string candidate.candidateId),
     ("name", string candidate.name),
     ("ip", string candidate.ip),
     ("room", ofOption candidate.room),
     ("port", encodeU16 candidate.port),
     ("rtsp_paths", ofStrings candidate.rtspPaths),
     ("requires_auth", bool candidate.requiresAuth),
     ("vendor", ofOption candidate.vendor),
     ("model", ofOption candidate.model)]

def PendingTaskConnect.encode (pending : PendingTaskConnect) : Value :=
  obj
    [("resume_token", string pending.resumeToken),
     ("name", string pending.name),
     ("ip", string pending.ip),
     ("room", ofOption pending.room),
     ("port", encodeU16 pending.port),
     ("snapshot_url", ofOption pending.snapshotUrl),
     ("rtsp_paths", ofStrings pending.rtspPaths),
     ("requires_auth", bool pending.requiresAuth),
     ("vendor", ofOption pending.vendor),
     ("model", ofOption pending.model)]

def RecentClipPlaybackState.encode (clip : RecentClipPlaybackState) : Except String Value := do
  let capturedAt ← encodeU128 clip.capturedAtEpochMs
  return obj
    [("clip_media_asset_id", string clip.clipMediaAssetId),
     ("clip_path", string clip.clipPath),
     ("clip_mime_type", string clip.clipMimeType),
     ("cover_path", string clip.coverPath),
     ("display_name", string clip.displayName),
     ("captured_at_epoch_ms", capturedAt)]

def RecentFamilyMemoryEventState.encode (event : RecentFamilyMemoryEventState) :
    Except String Value := do
  let referencedAt ← encodeU128 event.referencedAtEpochMs
  return obj
    [("event_id", string event.eventId),
     ("camera_id", string event.cameraId),
     ("event_type", string event.eventType),
     ("summary", string event.summary),
     ("referenced_at_epoch_ms", referencedAt)]

def RecentCatActivityQueryState.encode (query : RecentCatActivityQueryState) :
    Except String Value := do
  let updatedAt ← encodeU128 query.updatedAtEpochMs
  return obj
    [("camera_hint", ofOption query.cameraHint),
     ("time_scope", string query.timeScope),
     ("issued_artifact_ids", ofStrings query.issuedArtifactIds),
     ("last_batch_artifact_ids", ofStrings query.lastBatchArtifactIds),
     ("updated_at_epoch_ms", updatedAt)]

def PendingTaskSelectionItem.encode (item : PendingTaskSelectionItem) : Value :=
  obj [("item_id", string item.itemId), ("payload", item.payload)]

def PendingTaskSelectionState.encode (selection : PendingTaskSelectionState) : Value :=
  obj
    [("operation", string selection.operation),
     ("items", array (selection.items.map PendingTaskSelectionItem.encode))]

def PendingTaskResumeState.encode (resume : PendingTaskResumeState) : Value :=
  obj
    [("operation", string resume.operation),
     ("resume_token", string resume.resumeToken),
     ("payload", resume.payload)]

def encodePart {α : Type} (encode : α → Except String Value) :
    Option α → Except String (Option Value)
  | some a => (encode a).map some
  | none => .ok none

/-- `serde_json::to_value` of a conversation state; it fails on a time beyond `u64`. -/
def TaskConversationState.encode (state : TaskConversationState) : Except String Value := do
  let clip ← encodePart RecentClipPlaybackState.encode state.recentClipPlayback
  let event ← encodePart RecentFamilyMemoryEventState.encode state.recentFamilyMemoryEvent
  let query ← encodePart RecentCatActivityQueryState.encode state.recentCatActivityQuery
  return structObj
    [("key", some (string state.key)),
     ("pending_selection", state.pendingSelection.map PendingTaskSelectionState.encode),
     ("pending_resume", state.pendingResume.map PendingTaskResumeState.encode),
     ("pending_candidates",
        if state.pendingCandidates.isEmpty then none
        else some (array (state.pendingCandidates.map PendingTaskCandidate.encode))),
     ("pending_connect", state.pendingConnect.map PendingTaskConnect.encode),
     ("recent_clip_playback", clip),
     ("recent_family_memory_event", event),
     ("recent_cat_activity_query", query),
     ("last_scan_cidr", some (string state.lastScanCidr))]

def PendingTaskCandidate.decode (v : Value) : Option PendingTaskCandidate := do
  let field ← structFields 9 v
  let candidateId ← (field 0 "candidate_id").bind decodeString
  let name ← (field 1 "name").bind decodeString
  let ip ← (field 2 "ip").bind decodeString
  let room ← orDefault (field 3 "room") (decodeOption decodeString) none
  let port ← orDefault (field 4 "port") decodeU16 defaultRtspPort
  let rtspPaths ← orDefault (field 5 "rtsp_paths") (decodeList decodeString) []
  let requiresAuth ← orDefault (field 6 "requires_auth") asBool false
  let vendor ← orDefault (field 7 "vendor") (decodeOption decodeString) none
  let model ← orDefault (field 8 "model") (decodeOption decodeString) none
  return { candidateId, name, ip, room, port, rtspPaths, requiresAuth, vendor, model }

def PendingTaskConnect.decode (v : Value) : Option PendingTaskConnect := do
  let field ← structFields 10 v
  let resumeToken ← orDefault (field 0 "resume_token") decodeString ""
  let name ← (field 1 "name").bind decodeString
  let ip ← (field 2 "ip").bind decodeString
  let room ← orDefault (field 3 "room") (decodeOption decodeString) none
  let port ← orDefault (field 4 "port") decodeU16 defaultRtspPort
  let snapshotUrl ← orDefault (field 5 "snapshot_url") (decodeOption decodeString) none
  let rtspPaths ← orDefault (field 6 "rtsp_paths") (decodeList decodeString) []
  let requiresAuth ← orDefault (field 7 "requires_auth") asBool false
  let vendor ← orDefault (field 8 "vendor") (decodeOption decodeString) none
  let model ← orDefault (field 9 "model") (decodeOption decodeString) none
  return { resumeToken, name, ip, room, port, snapshotUrl, rtspPaths, requiresAuth, vendor,
           model }

def RecentClipPlaybackState.decode (v : Value) : Option RecentClipPlaybackState := do
  let field ← structFields 6 v
  let clipMediaAssetId ← orDefault (field 0 "clip_media_asset_id") decodeString ""
  let clipPath ← orDefault (field 1 "clip_path") decodeString ""
  let clipMimeType ← orDefault (field 2 "clip_mime_type") decodeString ""
  let coverPath ← orDefault (field 3 "cover_path") decodeString ""
  let displayName ← orDefault (field 4 "display_name") decodeString ""
  let capturedAtEpochMs ← orDefault (field 5 "captured_at_epoch_ms") (decodeUnsigned 128) 0
  return { clipMediaAssetId, clipPath, clipMimeType, coverPath, displayName,
           capturedAtEpochMs }

def RecentFamilyMemoryEventState.decode (v : Value) : Option RecentFamilyMemoryEventState := do
  let field ← structFields 5 v
  let eventId ← orDefault (field 0 "event_id") decodeString ""
  let cameraId ← orDefault (field 1 "camera_id") decodeString ""
  let eventType ← orDefault (field 2 "event_type") decodeString ""
  let summary ← orDefault (field 3 "summary") decodeString ""
  let referencedAtEpochMs ←
    orDefault (field 4 "referenced_at_epoch_ms") (decodeUnsigned 128) 0
  return { eventId, cameraId, eventType, summary, referencedAtEpochMs }

def aliasField (field other : Option Value) : Option (Option Value) :=
  match field, other with
  | some _, some _ => none
  | some v, none => some (some v)
  | none, v => some v

def RecentCatActivityQueryState.decode (v : Value) : Option RecentCatActivityQueryState := do
  let field ← structFields 5 v
  let cameraHint ← orDefault (field 0 "camera_hint") (decodeOption decodeString) none
  let timeScope ← orDefault (field 1 "time_scope") decodeString ""
  let issued ← aliasField (field 2 "issued_artifact_ids") (v.get "delivered_artifact_ids")
  let issuedArtifactIds ← orDefault issued (decodeList decodeString) []
  let lastBatchArtifactIds ←
    orDefault (field 3 "last_batch_artifact_ids") (decodeList decodeString) []
  let updatedAtEpochMs ← orDefault (field 4 "updated_at_epoch_ms") (decodeUnsigned 128) 0
  return { cameraHint, timeScope, issuedArtifactIds, lastBatchArtifactIds, updatedAtEpochMs }

def PendingTaskSelectionItem.decode (v : Value) : Option PendingTaskSelectionItem := do
  let field ← structFields 2 v
  let itemId ← orDefault (field 0 "item_id") decodeString ""
  let payload ← orDefault (field 1 "payload") some .null
  return { itemId, payload }

def PendingTaskSelectionState.decode (v : Value) : Option PendingTaskSelectionState := do
  let field ← structFields 2 v
  let operation ← orDefault (field 0 "operation") decodeString ""
  let items ← orDefault (field 1 "items") (decodeList PendingTaskSelectionItem.decode) []
  return { operation, items }

def PendingTaskResumeState.decode (v : Value) : Option PendingTaskResumeState := do
  let field ← structFields 3 v
  let operation ← orDefault (field 0 "operation") decodeString ""
  let resumeToken ← orDefault (field 1 "resume_token") decodeString ""
  let payload ← orDefault (field 2 "payload") some .null
  return { operation, resumeToken, payload }

def TaskConversationState.decode (v : Value) : Option TaskConversationState := do
  let field ← structFields 9 v
  let key ← orDefault (field 0 "key") decodeString ""
  let pendingSelection ←
    orDefault (field 1 "pending_selection") (decodeOption PendingTaskSelectionState.decode) none
  let pendingResume ←
    orDefault (field 2 "pending_resume") (decodeOption PendingTaskResumeState.decode) none
  let pendingCandidates ←
    orDefault (field 3 "pending_candidates") (decodeList PendingTaskCandidate.decode) []
  let pendingConnect ←
    orDefault (field 4 "pending_connect") (decodeOption PendingTaskConnect.decode) none
  let recentClipPlayback ←
    orDefault (field 5 "recent_clip_playback") (decodeOption RecentClipPlaybackState.decode) none
  let recentFamilyMemoryEvent ←
    orDefault (field 6 "recent_family_memory_event")
      (decodeOption RecentFamilyMemoryEventState.decode) none
  let recentCatActivityQuery ←
    orDefault (field 7 "recent_cat_activity_query")
      (decodeOption RecentCatActivityQueryState.decode) none
  let lastScanCidr ← orDefault (field 8 "last_scan_cidr") decodeString ""
  return { key, pendingSelection, pendingResume, pendingCandidates, pendingConnect,
           recentClipPlayback, recentFamilyMemoryEvent, recentCatActivityQuery,
           lastScanCidr }

@[simp] theorem PendingTaskCandidate.decode_encode (candidate : PendingTaskCandidate) :
    decode candidate.encode = some candidate := by
  simp [decode, encode, structFields, obj]

@[simp] theorem PendingTaskConnect.decode_encode (pending : PendingTaskConnect) :
    decode pending.encode = some pending := by
  simp [decode, encode, structFields, obj]

@[simp] theorem PendingTaskSelectionItem.decode_encode (item : PendingTaskSelectionItem) :
    decode item.encode = some item := by
  simp [decode, encode, structFields, obj]

@[simp] theorem PendingTaskSelectionState.decode_encode (selection : PendingTaskSelectionState) :
    decode selection.encode = some selection := by
  have hitems := decodeList_map PendingTaskSelectionItem.encode
    PendingTaskSelectionItem.decode PendingTaskSelectionItem.decode_encode selection.items
  simp [decode, encode, structFields, obj, hitems]

@[simp] theorem PendingTaskResumeState.decode_encode (resume : PendingTaskResumeState) :
    decode resume.encode = some resume := by
  simp [decode, encode, structFields, obj]

variable {state : TaskConversationState} {v : Value} {value : Option String} {s : String} {α : Type}

theorem RecentClipPlaybackState.decode_of_encode {clip : RecentClipPlaybackState}
    (h : clip.encode = .ok v) : decode v = some clip ∧ v ≠ .null := by
  simp only [encode, bind, Except.bind] at h
  split at h
  · cases h
  · rename_i n hn
    cases h
    simp [decode, structFields, obj, decodeUnsigned_of_encodeU128 hn]

theorem RecentFamilyMemoryEventState.decode_of_encode {event : RecentFamilyMemoryEventState}
    (h : event.encode = .ok v) : decode v = some event ∧ v ≠ .null := by
  simp only [encode, bind, Except.bind] at h
  split at h
  · cases h
  · rename_i n hn
    cases h
    simp [decode, structFields, obj, decodeUnsigned_of_encodeU128 hn]

theorem aliasField_none (field : Option Value) : aliasField field none = some field := by
  cases field <;> rfl

theorem RecentCatActivityQueryState.decode_of_encode {query : RecentCatActivityQueryState}
    (h : query.encode = .ok v) : decode v = some query ∧ v ≠ .null := by
  simp only [encode, bind, Except.bind] at h
  split at h
  · cases h
  · rename_i n hn
    cases h
    simp [decode, structFields, obj, Value.get, lookupField, aliasField_none,
      decodeUnsigned_of_encodeU128 hn]

theorem decodeOption_of_ne_null {decode : Value → Option α} (h : v ≠ .null) :
    decodeOption decode v = (decode v).map some := by
  cases v with
  | null => exact absurd rfl h
  | _ => rfl

theorem orDefault_map_encode (encode : α → Value) (decode : Value → Option α)
    (h : ∀ a, decode (encode a) = some a ∧ encode a ≠ .null) (part : Option α) :
    orDefault (part.map encode) (decodeOption decode) none = some part := by
  cases part with
  | none => rfl
  | some a => simp [decodeOption_of_ne_null (h a).2, (h a).1]

theorem orDefault_of_encodePart {encode : α → Except String Value} {decode : Value → Option α}
    (h : ∀ {a v}, encode a = .ok v → decode v = some a ∧ v ≠ .null) {part : Option α}
    {v : Option Value} (hpart : encodePart encode part = .ok v) :
    orDefault v (decodeOption decode) none = some part := by
  cases part with
  | none =>
      cases hpart
      rfl
  | some a =>
      simp only [encodePart, Except.map] at hpart
      split at hpart
      · cases hpart
      · rename_i w hw
        cases hpart
        simp [decodeOption_of_ne_null (h hw).2, (h hw).1]

theorem orDefault_candidates (candidates : List PendingTaskCandidate) :
    orDefault
      (if candidates.isEmpty then none
       else some (array (candidates.map PendingTaskCandidate.encode)))
      (decodeList PendingTaskCandidate.decode) [] = some candidates := by
  cases candidates with
  | nil => rfl
  | cons candidate rest =>
      exact decodeList_map _ _ PendingTaskCandidate.decode_encode (candidate :: rest)

theorem TaskConversationState.decode_of_encode (h : state.encode = .ok v) :
    ∃ fields, v = .object fields ∧ decode (.object fields) = some state := by
  simp only [encode, bind, Except.bind] at h
  split at h
  · cases h
  rename_i clip hclip
  split at h
  · cases h
  rename_i event hevent
  split at h
  · cases h
  rename_i query hquery
  cases h
  refine ⟨_, rfl, ?_⟩
  have hselection := orDefault_map_encode _ PendingTaskSelectionState.decode
    (fun a => ⟨PendingTaskSelectionState.decode_encode a, nofun⟩) state.pendingSelection
  have hresume := orDefault_map_encode _ PendingTaskResumeState.decode
    (fun a => ⟨PendingTaskResumeState.decode_encode a, nofun⟩) state.pendingResume
  have hconnect := orDefault_map_encode _ PendingTaskConnect.decode
    (fun a => ⟨PendingTaskConnect.decode_encode a, nofun⟩) state.pendingConnect
  have hclip' := orDefault_of_encodePart RecentClipPlaybackState.decode_of_encode hclip
  have hevent' := orDefault_of_encodePart RecentFamilyMemoryEventState.decode_of_encode hevent
  have hquery' := orDefault_of_encodePart RecentCatActivityQueryState.decode_of_encode hquery
  have hcandidates := orDefault_candidates state.pendingCandidates
  simp [decode, structFields, lookupField, hselection, hresume, hconnect, hclip', hevent',
    hquery', -List.isEmpty_iff, hcandidates]

theorem TaskConversationState.decode_removeField_key {fields : Fields}
    (h : decode (.object fields) = some state) :
    decode (.object (removeField "key" fields)) = some { state with key := "" } := by
  simp only [decode, structFields, Option.bind_eq_bind, Option.bind_some] at h ⊢
  simp only [Option.bind_eq_some_iff] at h
  obtain ⟨key, -, selection, hselection, resume, hresume, candidates, hcandidates, connect,
    hconnect, clip, hclip, event, hevent, query, hquery, cidr, hcidr, heq⟩ := h
  cases heq
  simp [hselection, hresume, hcandidates, hconnect, hclip, hevent, hquery, hcidr]

def cameraConnectOperation : String := "camera.connect"

def pendingSelectionFromCameraCandidates (candidates : List PendingTaskCandidate) :
    PendingTaskSelectionState where
  operation := cameraConnectOperation
  items := candidates.map fun candidate =>
    { itemId := candidate.candidateId, payload := candidate.encode }

def pendingResumeFromCameraConnect (pending : PendingTaskConnect) : PendingTaskResumeState where
  operation := cameraConnectOperation
  resumeToken := pending.resumeToken
  payload := pending.encode

/-- `normalize_task_conversation_state`: the older pending fields move to the newer ones. -/
def TaskConversationState.normalize (state : TaskConversationState) : TaskConversationState :=
  { state with
    pendingSelection :=
      if state.pendingSelection.isNone && !state.pendingCandidates.isEmpty then
        some (pendingSelectionFromCameraCandidates state.pendingCandidates)
      else state.pendingSelection
    pendingResume :=
      match state.pendingResume with
      | some resume => some resume
      | none => state.pendingConnect.map pendingResumeFromCameraConnect
    pendingCandidates := []
    pendingConnect := none }

def TaskConversationState.persisted (state : TaskConversationState) : TaskConversationState :=
  state.normalize

@[simp] theorem TaskConversationState.normalize_normalize (state : TaskConversationState) :
    state.normalize.normalize = state.normalize := by
  cases hresume : state.pendingResume <;> cases hconnect : state.pendingConnect <;>
    simp [normalize, hresume, hconnect]

@[simp] theorem TaskConversationState.normalize_key (state : TaskConversationState) :
    state.normalize.key = state.key := rfl

theorem TaskConversationState.normalize_withKey (state : TaskConversationState)
    (key : String) : { state with key := key }.normalize = { state.normalize with key := key } :=
  rfl

def nonEmptyString (value : Option String) : Option String :=
  (value.map trim).filter (· ≠ "")

@[simp] theorem nonEmptyString_none : nonEmptyString none = none := rfl

theorem nonEmptyString_eq_some_iff :
    nonEmptyString value = some s ↔ s ≠ "" ∧ ∃ t, value = some t ∧ trim t = s := by
  cases value <;> simp [nonEmptyString, Option.filter_eq_some_iff, and_comm]

theorem trim_of_nonEmptyString (h : nonEmptyString value = some s) : trim s = s := by
  obtain ⟨-, t, -, rfl⟩ := nonEmptyString_eq_some_iff.mp h
  exact trim_trim t

theorem nonEmptyString_of_not_isBlank (h : isBlank s = false) :
    nonEmptyString (some s) = some (trim s) :=
  nonEmptyString_eq_some_iff.mpr ⟨isBlank_eq_false_iff.mp h, s, rfl, rfl⟩

end HarborBeacon.ConversationState
