import HarborBeacon.JsonText
import HarborBeacon.ObjectFields
import HarborBeacon.TailScan
import HarborBeacon.Text

/-!
The store of local vision events: a file with one JSON line for each event. An event is
checked and appended together with its audit record and its MQTT payload; the newest events
are read from the end of the file, chunk by chunk.
-/

namespace HarborBeacon.VisionEvents

open Json Json.Value JsonText TailScan Text TextEncoding

abbrev Bytes := List UInt8

def maxLocalVisionEventJsonBytes : Nat := 256 * 1024

def maxStoredVisionEventLineBytes : Nat := 512 * 1024

def maxLocalVisionTextChars : Nat := 2000

def maxLocalVisionModelTextChars : Nat := 4000

def maxLocalVisionLabels : Nat := 32

def maxLocalVisionArtifacts : Nat := 8

def maxLocalVisionMetricsBytes : Nat := 64 * 1024

def maxLocalVisionRecentLimit : Nat := 500

def maxLocalVisionReverseScanBytes : Nat := 32 * 1024 * 1024

def localVisionReverseReadChunkBytes : Nat := 64 * 1024

structure SnapshotArtifact where
  artifactId : Option String := none
  path : Option String := none
  mimeType : Option String := none
  byteSize : Option UInt64 := none
  sha256 : Option String := none
  source : Option String := none
deriving DecidableEq

structure LocalVisionEventArtifact where
  artifactId : Option String := none
  role : String
  mimeType : Option String := none
  byteSize : Option UInt64 := none
  sha256 : Option String := none
  source : Option String := none
deriving DecidableEq

structure LocalVisionEventVlmSummary where
  status : String
  summary : String
  tags : List String := []
  labels : List String := []
  derivedText : String := ""
  artifacts : List LocalVisionEventArtifact := []
  ingestMetadata : Value := .null
  vlmMetrics : Value := .null
  error : Option String := none
deriving DecidableEq

/-- The confidence is an `f32`, given by its bits. -/
structure LocalVisionEvent where
  eventId : String
  cameraId : String
  eventType : String
  confidence : UInt32
  labels : List String := []
  summary : String
  snapshotArtifact : SnapshotArtifact
  startedAt : String
  analyzer : String
  latencyMs : UInt64
  metrics : Value := .null
  vlm : Option LocalVisionEventVlmSummary := none
deriving DecidableEq

structure StoredLocalVisionEvent where
  receivedAt : String
  event : LocalVisionEvent
  auditRecord : Value
  haMqttPayload : Value
deriving DecidableEq

/-- What the store calls outside this repository: the texts that `serde_json` writes for
floating-point numbers, the conversion of an `f32` to an `f64`, and the reader of records. -/
structure Platform where
  renderF32 : UInt32 → List Char
  renderF64 : UInt64 → List Char
  toF64 : UInt32 → UInt64
  fromStr : String → Option StoredLocalVisionEvent

section Texts

variable (platform : Platform)

def renderOptionU64 (n : Option UInt64) : List Char :=
  renderOption (fun n => renderNat n.toNat) n

def SnapshotArtifact.render (artifact : SnapshotArtifact) : List Char :=
  renderFields
    [("artifact_id", renderOptionText artifact.artifactId),
     ("path", renderOptionText artifact.path),
     ("mime_type", renderOptionText artifact.mimeType),
     ("byte_size", renderOptionU64 artifact.byteSize),
     ("sha256", renderOptionText artifact.sha256),
     ("source", renderOptionText artifact.source)]

def LocalVisionEventArtifact.render (artifact : LocalVisionEventArtifact) : List Char :=
  renderFields
    [("artifact_id", renderOptionText artifact.artifactId),
     ("role", jsonString artifact.role),
     ("mime_type", renderOptionText artifact.mimeType),
     ("byte_size", renderOptionU64 artifact.byteSize),
     ("sha256", renderOptionText artifact.sha256),
     ("source", renderOptionText artifact.source)]

def renderValue (value : Value) : List Char :=
  JsonText.render platform.renderF64 value

def LocalVisionEventVlmSummary.render (vlm : LocalVisionEventVlmSummary) : List Char :=
  renderFields
    ([("status", jsonString vlm.status),
      ("summary", jsonString vlm.summary),
      ("tags", renderTexts vlm.tags),
      ("labels", renderTexts vlm.labels),
      ("derived_text", jsonString vlm.derivedText),
      ("artifacts", renderList (vlm.artifacts.map LocalVisionEventArtifact.render)),
      ("ingest_metadata", renderValue platform vlm.ingestMetadata),
      ("vlm_metrics", renderValue platform vlm.vlmMetrics)] ++
      vlm.error.toList.map fun error => ("error", jsonString error))

def LocalVisionEvent.render (event : LocalVisionEvent) : List Char :=
  renderFields
    ([("event_id", jsonString event.eventId),
      ("camera_id", jsonString event.cameraId),
      ("event_type", jsonString event.eventType),
      ("confidence", platform.renderF32 event.confidence),
      ("labels", renderTexts event.labels),
      ("summary", jsonString event.summary),
      ("snapshot_artifact", event.snapshotArtifact.render),
      ("started_at", jsonString event.startedAt),
      ("analyzer", jsonString event.analyzer),
      ("latency_ms", renderNat event.latencyMs.toNat),
      ("metrics", renderValue platform event.metrics)] ++
      event.vlm.toList.map fun vlm => ("vlm", vlm.render platform))

def StoredLocalVisionEvent.render (stored : StoredLocalVisionEvent) : List Char :=
  renderFields
    [("received_at", jsonString stored.receivedAt),
     ("event", stored.event.render platform),
     ("audit_record", renderValue platform stored.auditRecord),
     ("ha_mqtt_payload", renderValue platform stored.haMqttPayload)]

/-- The bytes that `serde_json` writes. -/
def jsonBytes (text : List Char) : Bytes :=
  utf8 (String.ofList text)

theorem jsonBytes_append (a b : List Char) : jsonBytes (a ++ b) = jsonBytes a ++ jsonBytes b := by
  simp only [jsonBytes, utf8_ofList, List.flatMap_append]

theorem length_le_jsonBytes (text : List Char) : text.length ≤ (jsonBytes text).length := by
  rw [jsonBytes, utf8_ofList]
  induction text with
  | nil => exact Nat.le_refl 0
  | cons c rest ih =>
      rw [List.flatMap_cons, List.length_append, List.length_cons, String.length_utf8EncodeChar]
      have := c.utf8Size_pos
      omega

theorem length_jsonBytes_le (text : List Char) : (jsonBytes text).length ≤ 4 * text.length := by
  rw [jsonBytes, utf8_ofList]
  induction text with
  | nil => exact Nat.le_refl 0
  | cons c rest ih =>
      rw [List.flatMap_cons, List.length_append, List.length_cons, String.length_utf8EncodeChar]
      have := c.utf8Size_le_four
      omega

theorem jsonBytes_openBrace : jsonBytes [openBrace] = [123] := by decide

theorem jsonBytes_closeBrace : jsonBytes [closeBrace] = [125] := by decide

theorem exists_jsonBytes_renderFields (fields : List (String × List Char)) :
    ∃ body, jsonBytes (renderFields fields) = 123 :: (body ++ [125]) := by
  rw [renderFields, ← List.singleton_append, jsonBytes_append, jsonBytes_append,
    jsonBytes_openBrace, jsonBytes_closeBrace]
  exact ⟨_, List.singleton_append⟩

def newline : UInt8 := 10

theorem newline_not_mem_jsonBytes {text : List Char} (h : SingleLine text) :
    newline ∉ jsonBytes text := by
  intro hmem
  obtain ⟨c, hc, hcode⟩ := mem_of_mem_utf8 hmem (by decide)
  have hbreak : c = lineBreak := Char.toNat_inj.mp hcode
  exact h (hbreak ▸ hc)

end Texts

section Values

variable (platform : Platform)

def confidenceValue (event : LocalVisionEvent) : Value :=
  .number (.float (platform.toF64 event.confidence))

def SnapshotArtifact.toValue (artifact : SnapshotArtifact) : Value :=
  obj
    [("artifact_id", ofOption artifact.artifactId),
     ("path", ofOption artifact.path),
     ("mime_type", ofOption artifact.mimeType),
     ("byte_size", ofOptionU64 artifact.byteSize),
     ("sha256", ofOption artifact.sha256),
     ("source", ofOption artifact.source)]

def LocalVisionEventArtifact.toValue (artifact : LocalVisionEventArtifact) : Value :=
  obj
    [("artifact_id", ofOption artifact.artifactId),
     ("role", string artifact.role),
     ("mime_type", ofOption artifact.mimeType),
     ("byte_size", ofOptionU64 artifact.byteSize),
     ("sha256", ofOption artifact.sha256),
     ("source", ofOption artifact.source)]

def LocalVisionEventVlmSummary.toValue (vlm : LocalVisionEventVlmSummary) : Value :=
  obj
    ([("status", string vlm.status),
      ("summary", string vlm.summary),
      ("tags", ofStrings vlm.tags),
      ("labels", ofStrings vlm.labels),
      ("derived_text", string vlm.derivedText),
      ("artifacts", array (vlm.artifacts.map LocalVisionEventArtifact.toValue)),
      ("ingest_metadata", vlm.ingestMetadata),
      ("vlm_metrics", vlm.vlmMetrics)] ++
      vlm.error.toList.map fun error => ("error", string error))

def LocalVisionEvent.toValue (event : LocalVisionEvent) : Value :=
  obj
    ([("event_id", string event.eventId),
      ("camera_id", string event.cameraId),
      ("event_type", string event.eventType),
      ("confidence", confidenceValue platform event),
      ("labels", ofStrings event.labels),
      ("summary", string event.summary),
      ("snapshot_artifact", event.snapshotArtifact.toValue),
      ("started_at", string event.startedAt),
      ("analyzer", string event.analyzer),
      ("latency_ms", .number (.unsigned event.latencyMs)),
      ("metrics", event.metrics)] ++
      event.vlm.toList.map fun vlm => ("vlm", vlm.toValue))

end Values

section Checks

def failIf (condition : Bool) (message : String) : Except String Unit :=
  if condition then .error message else .ok ()

/-- The first blocked text that a text contains decides the error. -/
def blockedMaterial : List (String × String) :=
  [("rtsp_url", "rtsp://"),
   ("ha_token", "ha_token"),
   ("ha_token", "home_assistant_token"),
   ("camera_credential", "camera_credential"),
   ("camera_credential", "rtsp_username"),
   ("camera_credential", "rtsp_password"),
   ("camera_credential", "password="),
   ("api_key", "api_key"),
   ("api_key", "authorization: bearer"),
   ("api_key", "bearer "),
   ("api_key", "sk-"),
   ("private_key", "private key"),
   ("upload_url", "x-amz-signature="),
   ("upload_url", "presigned"),
   ("raw_image", "data:image"),
   ("raw_image", ";base64,")]

def looksLikeUrlWithCredentials (text : String) : Bool :=
  ["http://", "https://", "rtsp://"].any fun scheme =>
    match afterText scheme.toList text.toList with
    | none => false
    | some tail =>
        match tail.findIdx? (· = '@'), tail.findIdx? (· = '/') with
        | some place, some slash => decide (place < slash)
        | some _, none => true
        | none, _ => false

def rejectSensitiveText (text : String) : Except String Unit :=
  let lower := toAsciiLowercase text
  match blockedMaterial.find? fun blocked => containsText lower blocked.2 with
  | some blocked => .error ("local vision event contains sensitive material: " ++ blocked.1)
  | none =>
      failIf (looksLikeUrlWithCredentials lower) "local vision event contains URL credentials"

def blockedPaths : List String :=
  [".harborbeacon/", "/tmp/", "/var/tmp/", "/var/lib/", "/home/", "/run/", "c:/users/"]

def rejectLocalPathText (text : String) : Except String Unit :=
  let lower := replaceChar '\\' '/' (toAsciiLowercase text)
  failIf (blockedPaths.any fun needle => containsText lower needle)
    "local vision notification contains local path material"

mutual

def rejectValue (check : String → Except String Unit) : Value → Except String Unit
  | .string text => check text
  | .array items => rejectItems check items
  | .object fields => rejectFields check fields
  | .null => .ok ()
  | .bool _ => .ok ()
  | .number _ => .ok ()

def rejectItems (check : String → Except String Unit) : List Value → Except String Unit
  | [] => .ok ()
  | item :: rest => do
      rejectValue check item
      rejectItems check rest

def rejectFields (check : String → Except String Unit) :
    List (String × Value) → Except String Unit
  | [] => .ok ()
  | (name, value) :: rest => do
      check name
      rejectValue check value
      rejectFields check rest

end

def rejectSensitiveValue (value : Value) : Except String Unit :=
  rejectValue rejectSensitiveText value

def rejectLocalPathValue (value : Value) : Except String Unit :=
  rejectValue rejectLocalPathText value

def validateTextLen (name value : String) (maxChars : Nat) : Except String Unit :=
  failIf (maxChars < value.toList.length)
    ("local vision event " ++ name ++ " exceeds " ++ toString maxChars ++ " chars")

def validateStringVecLen (name : String) (values : List String) (maxItems maxChars : Nat) :
    Except String Unit := do
  failIf (maxItems < values.length)
    ("local vision event " ++ name ++ " exceeds " ++ toString maxItems ++ " entries")
  values.forM fun value => validateTextLen name value maxChars

def validateJsonLen (text : List Char) (maxBytes : Nat) (subject : String) :
    Except String Unit :=
  failIf (maxBytes < (jsonBytes text).length)
    ("local vision event " ++ subject ++ " " ++ toString maxBytes ++ " bytes")

def validateVlmSize (platform : Platform) (vlm : LocalVisionEventVlmSummary) :
    Except String Unit := do
  validateTextLen "vlm.status" vlm.status 128
  validateTextLen "vlm.summary" vlm.summary maxLocalVisionModelTextChars
  validateTextLen "vlm.derived_text" vlm.derivedText maxLocalVisionModelTextChars
  vlm.error.toList.forM fun error => validateTextLen "vlm.error" error maxLocalVisionTextChars
  validateStringVecLen "vlm.tags" vlm.tags maxLocalVisionLabels 128
  validateStringVecLen "vlm.labels" vlm.labels maxLocalVisionLabels 128
  failIf (maxLocalVisionArtifacts < vlm.artifacts.length)
    ("local vision event VLM artifacts exceed " ++ toString maxLocalVisionArtifacts ++ " entries")
  validateJsonLen (renderValue platform vlm.ingestMetadata) maxLocalVisionMetricsBytes
    "VLM ingest metadata exceeds"
  validateJsonLen (renderValue platform vlm.vlmMetrics) maxLocalVisionMetricsBytes
    "VLM metrics exceed"

def validateLocalVisionEventSize (platform : Platform) (event : LocalVisionEvent) :
    Except String Unit := do
  validateJsonLen (event.render platform) maxLocalVisionEventJsonBytes "JSON exceeds"
  validateTextLen "summary" event.summary maxLocalVisionTextChars
  validateTextLen "event_type" event.eventType 128
  validateTextLen "camera_id" event.cameraId 128
  validateTextLen "analyzer" event.analyzer 256
  validateStringVecLen "labels" event.labels maxLocalVisionLabels 128
  validateJsonLen (renderValue platform event.metrics) maxLocalVisionMetricsBytes
    "metrics exceed"
  event.vlm.toList.forM (validateVlmSize platform)

/-- `(0.0..=1.0).contains` on the bits of an `f32`: those from zero up to one are in order,
and the negative zero equals zero. -/
def withinUnit (confidence : UInt32) : Bool :=
  confidence ≤ 0x3F800000 || confidence = 0x80000000

def validateLocalVisionEvent (platform : Platform) (event : LocalVisionEvent) :
    Except String Unit := do
  failIf (isBlank event.eventId) "local vision event requires event_id"
  failIf (isBlank event.cameraId) "local vision event requires camera_id"
  failIf (isBlank event.eventType) "local vision event requires event_type"
  failIf (!withinUnit event.confidence) "local vision event confidence must be between 0 and 1"
  validateLocalVisionEventSize platform event
  rejectSensitiveValue (event.toValue platform)
  rejectLocalPathValue (event.toValue platform)

variable {check : String → Except String Unit} {fields : Fields}

theorem rejectFields_ok
    (h : ∀ field ∈ fields, check field.1 = .ok () ∧ rejectValue check field.2 = .ok ()) :
    rejectFields check fields = .ok () := by
  induction fields with
  | nil => rw [rejectFields]
  | cons field rest ih =>
      obtain ⟨hname, hvalue⟩ := h field List.mem_cons_self
      rw [rejectFields, hname, hvalue]
      exact ih fun other hother => h other (List.mem_cons_of_mem _ hother)

theorem rejectValue_obj
    (h : ∀ field ∈ fields, check field.1 = .ok () ∧ rejectValue check field.2 = .ok ()) :
    rejectValue check (obj fields) = .ok () := by
  have hmem : ∀ (given : Fields) (acc : Fields),
      (∀ field ∈ given, check field.1 = .ok () ∧ rejectValue check field.2 = .ok ()) →
      (∀ field ∈ acc, check field.1 = .ok () ∧ rejectValue check field.2 = .ok ()) →
      ∀ field ∈ given.foldl (fun acc field => insertField field.1 field.2 acc) acc,
        check field.1 = .ok () ∧ rejectValue check field.2 = .ok () := by
    intro given
    induction given with
    | nil => exact fun acc _ hacc => hacc
    | cons first rest ih =>
        intro acc hgiven hacc
        apply ih _ fun field hfield => hgiven field (List.mem_cons_of_mem _ hfield)
        intro field hfield
        rcases mem_of_mem_insertField hfield with rfl | hold
        · exact hgiven first List.mem_cons_self
        · exact hacc field hold
  rw [obj, rejectValue]
  exact rejectFields_ok (hmem fields [] h (by simp))

theorem structObj_eq_obj (fields : List (String × Option Value)) :
    structObj fields =
      obj (fields.filterMap fun field => field.2.map fun value => (field.1, value)) := by
  have hfold : ∀ acc, fields.foldl (fun acc field => insertSome field.1 field.2 acc) acc =
      (fields.filterMap fun field => field.2.map fun value => (field.1, value)).foldl
        (fun acc field => insertField field.1 field.2 acc) acc := by
    induction fields with
    | nil => exact fun acc => rfl
    | cons field rest ih =>
        intro acc
        obtain ⟨name, _ | value⟩ := field
        · exact ih acc
        · exact ih (insertField name value acc)
  rw [structObj, obj, hfold]

theorem afterText_eq_none {pattern text : List Char} (hne : pattern ≠ [])
    (h : ¬ pattern <:+: text) : afterText pattern text = none := by
  induction text with
  | nil => rw [afterText, if_neg hne]
  | cons c rest ih =>
      rw [List.infix_cons_iff, not_or] at h
      rw [afterText, if_neg h.1, ih h.2]

variable {alphabet : List Char} {text : String}

theorem mem_toAsciiLowercase (hlower : alphabet.all (fun c => alphabet.contains c.toLower) = true)
    (htext : ∀ c ∈ text.toList, c ∈ alphabet) : ∀ c ∈ (toAsciiLowercase text).toList,
      c ∈ alphabet := by
  intro c hc
  rw [toAsciiLowercase, String.toList_ofList, List.mem_map] at hc
  obtain ⟨d, hd, rfl⟩ := hc
  simpa using List.all_eq_true.mp hlower d (htext d hd)

theorem not_infix_of_alphabet {letters pattern : List Char} (h : ∀ c ∈ letters, c ∈ alphabet)
    (hpattern : pattern.all alphabet.contains = false) : ¬ pattern <:+: letters := by
  intro hwithin
  rw [List.all_eq_false] at hpattern
  obtain ⟨c, hc, hout⟩ := hpattern
  exact hout (by simpa using h c (hwithin.subset hc))

theorem rejectSensitiveText_of_alphabet
    (hlower : alphabet.all (fun c => alphabet.contains c.toLower) = true)
    (hblocked : (blockedMaterial.map Prod.snd ++ ["http://", "https://", "rtsp://"]).all
      (fun pattern => pattern ≠ "" && !pattern.toList.all alphabet.contains) = true)
    (htext : ∀ c ∈ text.toList, c ∈ alphabet) : rejectSensitiveText text = .ok () := by
  have hchars := mem_toAsciiLowercase hlower htext
  have hpattern : ∀ pattern ∈ blockedMaterial.map Prod.snd ++ ["http://", "https://", "rtsp://"],
      pattern.toList ≠ [] ∧ ¬ pattern.toList <:+: (toAsciiLowercase text).toList := by
    intro pattern hmem
    have hspelled := List.all_eq_true.mp hblocked pattern hmem
    rw [Bool.and_eq_true, Bool.not_eq_true', decide_eq_true_eq] at hspelled
    exact ⟨fun hnil => hspelled.1 (String.toList_eq_nil_iff.mp hnil),
      not_infix_of_alphabet hchars hspelled.2⟩
  have hfind : blockedMaterial.find?
      (fun blocked => containsText (toAsciiLowercase text) blocked.2) = none := by
    rw [List.find?_eq_none]
    intro blocked hmem
    have hnot := (hpattern blocked.2 (List.mem_append_left _ (List.mem_map_of_mem hmem))).2
    simpa [containsText] using hnot
  have hurl : looksLikeUrlWithCredentials (toAsciiLowercase text) = false := by
    rw [looksLikeUrlWithCredentials, List.any_eq_false]
    intro scheme hmem
    obtain ⟨hne, hnot⟩ := hpattern scheme (List.mem_append_right _ hmem)
    rw [afterText_eq_none hne hnot]
    simp
  simp only [rejectSensitiveText, hfind, hurl, failIf]
  rfl

theorem rejectLocalPathText_of_alphabet
    (hlower : alphabet.all (fun c => alphabet.contains c.toLower) = true)
    (hslash : '\\' ∉ alphabet)
    (hblocked : blockedPaths.all (fun needle => !needle.toList.all alphabet.contains) = true)
    (htext : ∀ c ∈ text.toList, c ∈ alphabet) : rejectLocalPathText text = .ok () := by
  have hchars := mem_toAsciiLowercase hlower htext
  have hreplaced : ∀ c ∈ (replaceChar '\\' '/' (toAsciiLowercase text)).toList,
      c ∈ alphabet := by
    intro c hc
    rw [replaceChar, String.toList_ofList, List.mem_map] at hc
    obtain ⟨d, hd, rfl⟩ := hc
    have hmem := hchars d hd
    have hne : d ≠ '\\' := by
      rintro rfl
      exact hslash hmem
    rwa [if_neg hne]
  have hnone : (blockedPaths.any fun needle =>
      containsText (replaceChar '\\' '/' (toAsciiLowercase text)) needle) = false := by
    rw [List.any_eq_false]
    intro needle hmem
    have hspelled := List.all_eq_true.mp hblocked needle hmem
    rw [Bool.not_eq_true'] at hspelled
    simpa [containsText] using not_infix_of_alphabet hreplaced hspelled
  simp only [rejectLocalPathText, hnone, failIf]
  rfl

end Checks

section Ingestion

def sanitizedNeedles : List String :=
  ["rtsp://", "ha_token", "home_assistant_token", "camera_credential", "rtsp_username",
    "rtsp_password", "api_key", "authorization: bearer", "bearer ", "sk-", "private key",
    "x-amz-signature=", "presigned"]

def sanitizeModelText (text : String) : String :=
  takeChars 500
    (sanitizedNeedles.foldl
      (fun sanitized needle =>
        replaceText (toAsciiUppercase needle) "[redacted]"
          (replaceText needle "[redacted]" sanitized))
      text)

def localVisionAutomationSummary (event : LocalVisionEvent) : String :=
  match event.vlm with
  | some vlm =>
      if vlm.status = "active" ∧ isBlank vlm.summary = false then
        sanitizeModelText (trim vlm.summary)
      else if isBlank vlm.derivedText = false then sanitizeModelText (trim vlm.derivedText)
      else sanitizeModelText (trim event.summary)
  | none => sanitizeModelText (trim event.summary)

def localVisionVlmStatus (event : LocalVisionEvent) : String :=
  match event.vlm with
  | some vlm => if isBlank vlm.status then "degraded" else trim vlm.status
  | none => "not_sampled"

variable (platform : Platform)

def buildHaMqttPayload (event : LocalVisionEvent) : Value :=
  obj
    [("event_id", string event.eventId),
     ("camera_id", string event.cameraId),
     ("event_type", string event.eventType),
     ("confidence", confidenceValue platform event),
     ("labels", ofStrings event.labels),
     ("summary", string (localVisionAutomationSummary event)),
     ("started_at", string event.startedAt),
     ("latency_ms", .number (.unsigned event.latencyMs)),
     ("analyzer", string event.analyzer),
     ("vlm_status", string (localVisionVlmStatus event))]

def vlmAudit (vlm : LocalVisionEventVlmSummary) : Value :=
  obj
    [("status", string vlm.status),
     ("summary", string vlm.summary),
     ("model_endpoint_id", (vlm.vlmMetrics.get "model_endpoint_id").getD .null),
     ("provider_key", (vlm.vlmMetrics.get "provider_key").getD .null),
     ("elapsed_ms", (vlm.vlmMetrics.get "elapsed_ms").getD .null),
     ("frame_path_redacted", .bool true)]

def buildAuditRecord (event : LocalVisionEvent) : Value :=
  obj
    ([("audit_kind", string "local_vision_event.ingested"),
      ("event_id", string event.eventId),
      ("camera_id", string event.cameraId),
      ("event_type", string event.eventType),
      ("confidence", confidenceValue platform event),
      ("labels", ofStrings event.labels),
      ("analyzer", string event.analyzer),
      ("latency_ms", .number (.unsigned event.latencyMs)),
      ("snapshot_artifact_id", ofOption event.snapshotArtifact.artifactId),
      ("snapshot_sha256", ofOption event.snapshotArtifact.sha256)] ++
      event.vlm.toList.map fun vlm => ("vlm", vlmAudit vlm))

def storedAs (now : UInt64) (event : LocalVisionEvent) : StoredLocalVisionEvent where
  receivedAt := "epoch_ms:" ++ toString now.toNat
  event := event
  auditRecord := buildAuditRecord platform event
  haMqttPayload := buildHaMqttPayload platform event

/-- Append an event to the store file, which is created if it is missing. -/
def ingestLocalVisionEvent (now : UInt64) (event : LocalVisionEvent) (store : Option Bytes) :
    Except String (StoredLocalVisionEvent × Bytes) := do
  validateLocalVisionEvent platform event
  let stored := storedAs platform now event
  return (stored, store.getD [] ++ (jsonBytes (stored.render platform) ++ [newline]))

end Ingestion

section Reading

variable (platform : Platform)

def isAsciiWhitespace (byte : UInt8) : Bool :=
  byte = 32 || byte = 9 || byte = 10 || byte = 12 || byte = 13

def trimAsciiWhitespace (value : Bytes) : Bytes :=
  (value.dropWhile isAsciiWhitespace).rdropWhile isAsciiWhitespace

/-- The event of a line, unless the line is blank, oversized, not UTF-8 or unreadable. -/
def readLine (rawLine : Bytes) : Option StoredLocalVisionEvent :=
  let trimmed := trimAsciiWhitespace rawLine
  if trimmed = [] then none
  else if maxStoredVisionEventLineBytes < trimmed.length then none
  else (decodeUtf8 trimmed).bind platform.fromStr

def eventIdOf (stored : StoredLocalVisionEvent) : String :=
  stored.event.eventId

def parseRecentEventsFromTail (tail : Bytes) (startsMidLine : Bool) (targetLimit : Nat) :
    List StoredLocalVisionEvent :=
  let slice := if startsMidLine then afterFirst newline tail else tail
  collect (readLine platform) eventIdOf targetLimit (slice.splitOn newline).reverse [] []

/-- The loop of the reader: the events of the bytes read so far, with more bytes in front of
them as long as these are not enough. -/
def scanBackwards (file : Bytes) (targetLimit position scanned : Nat) (tail : Bytes)
    (events : List StoredLocalVisionEvent) : List StoredLocalVisionEvent :=
  if _h : 0 < position ∧ events.length < targetLimit ∧
      scanned < maxLocalVisionReverseScanBytes then
    let readSize := min (min position localVisionReverseReadChunkBytes)
      (maxLocalVisionReverseScanBytes - scanned)
    let start := position - readSize
    let longer := (file.drop start).take readSize ++ tail
    scanBackwards file targetLimit start (scanned + readSize) longer
      (parseRecentEventsFromTail platform longer (decide (0 < start)) targetLimit)
  else events
termination_by position
decreasing_by
  have hchunk : 0 < localVisionReverseReadChunkBytes := by decide
  omega

def targetLimitFor (limit : Nat) : Nat :=
  min (max limit 1) maxLocalVisionRecentLimit

def listRecentLocalVisionEvents (store : Option Bytes) (limit : Nat) :
    List StoredLocalVisionEvent :=
  match store with
  | none => []
  | some file => scanBackwards platform file (targetLimitFor limit) file.length 0 [] []

end Reading

end HarborBeacon.VisionEvents
