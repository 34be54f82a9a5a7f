import HarborBeacon.LogReplay
import HarborBeacon.VisionEvents

/-!
The feedback of a family on its vision events: a file with one JSON line for each piece of
feedback, from which the overlays of the events are built. Feedback is checked and appended;
the reader keeps the newest records of the file.
-/

namespace HarborBeacon.FamilyMemory

open Json Json.Value JsonText LineLog LogReplay Text TextEncoding VisionEvents

def defaultFamilyMemoryFeedbackLimit : Nat := 5000

def familyMemoryCompactAfterRecords : Nat := defaultFamilyMemoryFeedbackLimit + 500

def maxFamilyMemoryLineBytes : Nat := 32 * 1024

def maxCorrectedSummaryChars : Nat := 500

def maxCorrectedLabels : Nat := 16

def maxCorrectedLabelChars : Nat := 64

def maxFeedbackNoteChars : Nat := 500

inductive FamilyMemoryFeedbackAction where
  | confirmUseful
  | favorite
  | hide
  | restore
  | correctSummary
  | correctLabels
deriving DecidableEq

def FamilyMemoryFeedbackAction.asStr : FamilyMemoryFeedbackAction → String
  | confirmUseful => "confirm_useful"
  | favorite => "favorite"
  | hide => "hide"
  | restore => "restore"
  | correctSummary => "correct_summary"
  | correctLabels => "correct_labels"

structure FamilyMemoryFeedbackRequest where
  action : String
  correctedSummary : Option String := none
  correctedLabels : Option (List String) := none
  note : Option String := none

structure FamilyMemoryFeedbackRecord where
  feedbackId : String
  eventId : String
  action : FamilyMemoryFeedbackAction
  createdAt : String
  source : String
  correctedSummary : Option String := none
  correctedLabels : Option (List String) := none
  note : Option String := none
  metadataOnly : Bool
  secretScan : String
deriving DecidableEq

structure FamilyMemoryOverlay where
  eventId : String
  confirmedUseful : Bool := false
  favorite : Bool := false
  hidden : Bool := false
  correctedSummary : Option String := none
  correctedLabels : Option (List String) := none
  correctedAt : Option String := none
  updatedAt : Option String := none
  feedbackCount : Nat := 0
deriving DecidableEq

/-- The sixteen bytes of a drawn identifier. -/
structure Uuid where
  bytes : List UInt8
  length_eq : bytes.length = 16

def Uuid.simple (uuid : Uuid) : String :=
  String.ofList (hex uuid.bytes)

structure FeedbackCall where
  eventId : String
  request : FamilyMemoryFeedbackRequest
  source : String
  uuid : Uuid
  now : UInt64

def FamilyMemoryFeedbackRecord.render (record : FamilyMemoryFeedbackRecord) : List Char :=
  renderFields
    ([("feedback_id", jsonString record.feedbackId),
      ("event_id", jsonString record.eventId),
      ("action", jsonString record.action.asStr),
      ("created_at", jsonString record.createdAt),
      ("source", jsonString record.source)] ++
      (record.correctedSummary.toList.map fun summary =>
        ("corrected_summary", jsonString summary)) ++
      (record.correctedLabels.toList.map fun labels => ("corrected_labels", renderTexts labels)) ++
      (record.note.toList.map fun note => ("note", jsonString note)) ++
      [("metadata_only", renderBool record.metadataOnly),
       ("secret_scan", jsonString record.secretScan)])

def FamilyMemoryFeedbackRecord.toValue (record : FamilyMemoryFeedbackRecord) : Value :=
  structObj
    [("feedback_id", some (string record.feedbackId)),
     ("event_id", some (string record.eventId)),
     ("action", some (string record.action.asStr)),
     ("created_at", some (string record.createdAt)),
     ("source", some (string record.source)),
     ("corrected_summary", record.correctedSummary.map string),
     ("corrected_labels", record.correctedLabels.map ofStrings),
     ("note", record.note.map string),
     ("metadata_only", some (.bool record.metadataOnly)),
     ("secret_scan", some (string record.secretScan))]

def inspect (payload : Value) : Except String Unit := do
  rejectSensitiveValue payload
  rejectLocalPathValue payload

def parseFamilyMemoryFeedbackAction (value : String) :
    Except String FamilyMemoryFeedbackAction :=
  let name := toAsciiLowercase (trim value)
  if name ∈ ["confirm_useful", "confirm", "useful"] then .ok .confirmUseful
  else if name ∈ ["favorite", "favourite"] then .ok .favorite
  else if name = "hide" then .ok .hide
  else if name ∈ ["restore", "unhide"] then .ok .restore
  else if name ∈ ["correct_summary", "summary"] then .ok .correctSummary
  else if name ∈ ["correct_labels", "labels"] then .ok .correctLabels
  else .error "unsupported family memory feedback action"

def sanitizeCorrectedSummary (value : String) : Except String String := do
  let summary := trim value
  failIf (summary = "") "corrected summary cannot be empty"
  let clipped := takeChars maxCorrectedSummaryChars summary
  inspect (obj [("corrected_summary", string clipped)])
  return clipped

def collectLabels : List String → List String → Except String (List String)
  | [], labels => .ok labels
  | value :: rest, labels =>
      let label := takeChars maxCorrectedLabelChars (toAsciiLowercase (trim value))
      if label = "" ∨ label ∈ labels then collectLabels rest labels
      else do
        inspect (obj [("label", string label)])
        collectLabels rest (labels ++ [label])

def sanitizeCorrectedLabels (values : List String) : Except String (List String) := do
  let labels ← collectLabels (values.take maxCorrectedLabels) []
  failIf (labels = []) "corrected labels cannot be empty"
  return labels

def sanitizeFeedbackNote (value : String) : Except String String := do
  let note := takeChars maxFeedbackNoteChars (trim value)
  inspect (obj [("note", string note)])
  return note

/-- `Option::transpose` after a fallible map. -/
def transposeMap {α β : Type} (f : α → Except String β) : Option α → Except String (Option β)
  | none => .ok none
  | some a => do return some (← f a)

def correctedSummaryFor (action : FamilyMemoryFeedbackAction)
    (request : FamilyMemoryFeedbackRequest) : Except String (Option String) :=
  match action with
  | .correctSummary => do
      return some (← sanitizeCorrectedSummary ((request.correctedSummary.or request.note).getD ""))
  | _ =>
      transposeMap sanitizeCorrectedSummary
        (request.correctedSummary.filter fun value => !isBlank value)

def correctedLabelsFor (action : FamilyMemoryFeedbackAction)
    (request : FamilyMemoryFeedbackRequest) : Except String (Option (List String)) :=
  match action with
  | .correctLabels => do
      return some (← sanitizeCorrectedLabels (request.correctedLabels.getD []))
  | _ => transposeMap sanitizeCorrectedLabels request.correctedLabels

def sanitizeFamilyMemoryFeedback (call : FeedbackCall) :
    Except String FamilyMemoryFeedbackRecord := do
  let eventId := trim call.eventId
  failIf (eventId = "" || 128 < (utf8 eventId).length)
    "family memory feedback requires a valid event_id"
  let source := trim call.source
  let action ← parseFamilyMemoryFeedbackAction call.request.action
  let correctedSummary ← correctedSummaryFor action call.request
  let correctedLabels ← correctedLabelsFor action call.request
  let note ← transposeMap sanitizeFeedbackNote (call.request.note.filter fun value => !isBlank value)
  let record : FamilyMemoryFeedbackRecord :=
    { feedbackId := "fmfb_" ++ call.uuid.simple
      eventId := eventId
      action := action
      createdAt := "epoch_ms:" ++ toString call.now.toNat
      source := if source = "" then "unknown" else takeChars 64 source
      correctedSummary := correctedSummary
      correctedLabels := correctedLabels
      note := note
      metadataOnly := true
      secretScan := "clean" }
  inspect record.toValue
  return record

section Store

/-- The reader of `serde_json`. -/
abbrev RecordReader := String → Option FamilyMemoryFeedbackRecord

variable (fromStr : RecordReader)

/-- `BufRead::lines` ends a line before a carriage return as well. -/
def stripCarriageReturn (line : Bytes) : Bytes :=
  if line.getLast? = some 13 then line.dropLast else line

def readRecord (line : String) : Option FamilyMemoryFeedbackRecord :=
  let trimmed := trim line
  if trimmed = "" ∨ maxFamilyMemoryLineBytes < (utf8 trimmed).length then none
  else fromStr trimmed

def collectRecords (targetLimit : Nat) : List Bytes → List FamilyMemoryFeedbackRecord →
    Except String (List FamilyMemoryFeedbackRecord)
  | [], records => .ok records
  | rawLine :: rest, records =>
      match decodeUtf8 (stripCarriageReturn rawLine) with
      | none => .error "failed to read family memory overlay: stream did not contain valid UTF-8"
      | some line =>
          match readRecord fromStr line with
          | none => collectRecords targetLimit rest records
          | some record => collectRecords targetLimit rest (push targetLimit records record)

def listFamilyMemoryFeedback (store : Option Bytes) (limit : Nat) :
    Except String (List FamilyMemoryFeedbackRecord) :=
  match store with
  | none => .ok []
  | some file =>
      collectRecords fromStr (min (max limit 1) defaultFamilyMemoryFeedbackLimit)
        (readLines newline file) []

def recordLine (record : FamilyMemoryFeedbackRecord) : Bytes :=
  jsonBytes record.render

/-- The file afterwards stands beside the result, as a failure may come after a change. -/
def compactFamilyMemoryFeedbackIfNeeded (file : Bytes) : Except String Unit × Bytes :=
  match listFamilyMemoryFeedback fromStr (some file) familyMemoryCompactAfterRecords with
  | .error error => (.error error, file)
  | .ok records =>
      if records.length < familyMemoryCompactAfterRecords then (.ok (), file)
      else
        let keep := (records.reverse.take defaultFamilyMemoryFeedbackLimit).reverse
        (.ok (), logOf newline (keep.map recordLine))

def appendFamilyMemoryFeedback (call : FeedbackCall) (store : Option Bytes) :
    Except String FamilyMemoryFeedbackRecord × Option Bytes :=
  match sanitizeFamilyMemoryFeedback call with
  | .error error => (.error error, store)
  | .ok record =>
      match compactFamilyMemoryFeedbackIfNeeded fromStr
        (store.getD [] ++ (recordLine record ++ [newline])) with
      | (.error error, file) => (.error error, some file)
      | (.ok (), file) => (.ok record, some file)

/-- A sequence of accepted calls, with the records that they return. -/
inductive AcceptedRun : Option Bytes → List FamilyMemoryFeedbackRecord → Option Bytes → Prop
  | nil (store : Option Bytes) : AcceptedRun store [] store
  | concat {store store' store'' : Option Bytes} {records : List FamilyMemoryFeedbackRecord}
      {record : FamilyMemoryFeedbackRecord} (call : FeedbackCall)
      (run : AcceptedRun store records store')
      (accepted : appendFamilyMemoryFeedback fromStr call store' = (.ok record, store'')) :
      AcceptedRun store (records ++ [record]) store''

end Store

def newOverlay (eventId : String) : FamilyMemoryOverlay where
  eventId := eventId

/-- The count saturates at the largest `usize`. -/
def applyFeedback (overlay : FamilyMemoryOverlay) (record : FamilyMemoryFeedbackRecord) :
    FamilyMemoryOverlay :=
  let overlay :=
    { overlay with
      feedbackCount := min (overlay.feedbackCount + 1) (2 ^ 64 - 1)
      updatedAt := some record.createdAt }
  match record.action with
  | .confirmUseful => { overlay with confirmedUseful := true }
  | .favorite => { overlay with favorite := true }
  | .hide => { overlay with hidden := true }
  | .restore => { overlay with hidden := false }
  | .correctSummary =>
      match record.correctedSummary with
      | some summary =>
          { overlay with correctedSummary := some summary, correctedAt := some record.createdAt }
      | none => overlay
  | .correctLabels =>
      match record.correctedLabels with
      | some labels =>
          { overlay with correctedLabels := some labels, correctedAt := some record.createdAt }
      | none => overlay

def buildFamilyMemoryOverlays (records : List FamilyMemoryFeedbackRecord) :
    Table FamilyMemoryOverlay :=
  replay FamilyMemoryFeedbackRecord.eventId newOverlay applyFeedback records

def applyFamilyMemoryOverlayToEvent (stored : StoredLocalVisionEvent)
    (overlay : Option FamilyMemoryOverlay) : StoredLocalVisionEvent :=
  match overlay with
  | none => stored
  | some overlay =>
      let withSummary : StoredLocalVisionEvent :=
        match overlay.correctedSummary with
        | none => stored
        | some summary =>
            { stored with
              event :=
                { stored.event with
                  summary := summary
                  vlm := stored.event.vlm.map fun vlm =>
                    { vlm with summary := summary, derivedText := summary } } }
      match overlay.correctedLabels with
      | none => withSummary
      | some labels => { withSummary with event := { withSummary.event with labels := labels } }

def applyFamilyMemoryOverlaysToEvents (events : List StoredLocalVisionEvent)
    (overlays : Table FamilyMemoryOverlay) (includeHidden : Bool) : List StoredLocalVisionEvent :=
  events.filterMap fun stored =>
    let overlay := overlays.lookup stored.event.eventId
    if !includeHidden && overlay.any (fun overlay => overlay.hidden) then none
    else some (applyFamilyMemoryOverlayToEvent stored overlay)

end HarborBeacon.FamilyMemory
