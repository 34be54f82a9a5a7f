import HarborBeacon.FamilyMemory
import HarborBeacon.Results

/-!
What the overlays show after a sequence of accepted calls. Every accepted record is short
enough for the reader, which finds the newest records of the file; the compaction reads
through the same window and never takes place.
-/

namespace HarborBeacon.FamilyMemory

open Json Json.Value JsonText LineLog LogReplay Results Text TextEncoding VisionEvents

theorem jsonBytes_cons (c : Char) (text : List Char) :
    jsonBytes (c :: text) = jsonBytes [c] ++ jsonBytes text := by
  rw [← jsonBytes_append, List.singleton_append]

theorem length_jsonBytes_escapeChar (c : Char) : (jsonBytes (escapeChar c)).length ≤ 6 := by
  unfold escapeChar
  split
  · rename_i hspecial
    rcases hspecial with rfl | rfl
    · decide
    · decide
  · split
    · rename_i hcontrol
      generalize c.toNat = n at hcontrol
      interval_cases n <;> decide
    · have := length_jsonBytes_le [c]
      rw [List.length_singleton] at this
      omega

theorem length_jsonBytes_jsonString (s : String) :
    (jsonBytes (jsonString s)).length ≤ 6 * s.toList.length + 2 := by
  have hquote : (jsonBytes [quote]).length = 1 := by decide
  have hbody : ∀ chars : List Char,
      (jsonBytes (chars.flatMap escapeChar)).length ≤ 6 * chars.length := by
    intro chars
    induction chars with
    | nil => decide
    | cons c rest ih =>
        have hc := length_jsonBytes_escapeChar c
        rw [List.flatMap_cons, jsonBytes_append, List.length_append, List.length_cons]
        omega
  have := hbody s.toList
  rw [jsonString, List.cons_append, jsonBytes_cons, jsonBytes_append, List.length_append,
    List.length_append]
  omega

theorem length_jsonBytes_intercalate (parts : List (List Char)) :
    (jsonBytes ([','].intercalate parts)).length ≤
      (parts.map fun part => (jsonBytes part).length + 1).sum := by
  have hcomma : (jsonBytes [',']).length = 1 := by decide
  induction parts with
  | nil => decide
  | cons first rest ih =>
      rw [List.map_cons, List.sum_cons]
      rcases eq_or_ne rest [] with rfl | hrest
      · rw [List.intercalate_singleton]
        omega
      · rw [List.intercalate_cons_of_ne_nil hrest, jsonBytes_append, jsonBytes_append,
          List.length_append, List.length_append]
        omega

def fieldSize (field : String × List Char) : Nat :=
  6 * field.1.toList.length + (jsonBytes field.2).length + 4

theorem length_jsonBytes_renderFields (fields : List (String × List Char)) :
    (jsonBytes (renderFields fields)).length ≤ (fields.map fieldSize).sum + 2 := by
  have hcolon : (jsonBytes [':']).length = 1 := by decide
  have hopen : (jsonBytes [openBrace]).length = 1 := by decide
  have hclose : (jsonBytes [closeBrace]).length = 1 := by decide
  have hparts := length_jsonBytes_intercalate
    (fields.map fun field => jsonString field.1 ++ ':' :: field.2)
  have hfields : ((fields.map fun field => jsonString field.1 ++ ':' :: field.2).map
      fun part => (jsonBytes part).length + 1).sum ≤ (fields.map fieldSize).sum := by
    rw [List.map_map]
    apply List.sum_le_sum
    intro field _
    have hname := length_jsonBytes_jsonString field.1
    rw [Function.comp_apply, jsonBytes_append, jsonBytes_cons ':', List.length_append,
      List.length_append, fieldSize]
    omega
  rw [renderFields, jsonBytes_cons, jsonBytes_append, List.length_append, List.length_append]
  omega

theorem length_jsonBytes_renderTexts {texts : List String} {n k : Nat} (hn : texts.length ≤ n)
    (hk : ∀ text ∈ texts, text.toList.length ≤ k) :
    (jsonBytes (renderTexts texts)).length ≤ n * (6 * k + 3) + 2 := by
  have hopen : (jsonBytes ['[']).length = 1 := by decide
  have hclose : (jsonBytes [']']).length = 1 := by decide
  have hparts := length_jsonBytes_intercalate (texts.map jsonString)
  have htexts : ((texts.map jsonString).map fun part => (jsonBytes part).length + 1).sum ≤
      texts.length * (6 * k + 3) := by
    rw [List.map_map]
    refine (List.sum_le_card_nsmul _ (6 * k + 3) ?_).trans (by simp)
    intro size hsize
    obtain ⟨text, htext, rfl⟩ := List.mem_map.mp hsize
    have hone := length_jsonBytes_jsonString text
    have hshort := hk text htext
    rw [Function.comp_apply]
    omega
  have hcount : texts.length * (6 * k + 3) ≤ n * (6 * k + 3) := Nat.mul_le_mul_right _ hn
  rw [renderTexts, renderList, jsonBytes_cons, jsonBytes_append, List.length_append,
    List.length_append]
  omega

/-- What is known of every record that is accepted. -/
structure Sanitized (record : FamilyMemoryFeedbackRecord) : Prop where
  feedbackId : record.feedbackId.toList.length ≤ 37
  eventId : record.eventId.toList.length ≤ 128
  createdAt : record.createdAt.toList.length ≤ 29
  source : record.source.toList.length ≤ 64
  summary : ∀ summary ∈ record.correctedSummary, summary.toList.length ≤ maxCorrectedSummaryChars
  labels : ∀ labels ∈ record.correctedLabels, labels.length ≤ maxCorrectedLabels ∧
    ∀ label ∈ labels, label.toList.length ≤ maxCorrectedLabelChars
  note : ∀ note ∈ record.note, note.toList.length ≤ maxFeedbackNoteChars
  secretScan : record.secretScan = "clean"
  has_summary : record.action = .correctSummary → record.correctedSummary.isSome = true
  has_labels : record.action = .correctLabels → record.correctedLabels.isSome = true

theorem length_takeChars (n : Nat) (s : String) : (takeChars n s).toList.length ≤ n := by
  rw [takeChars, String.toList_ofList, List.length_take]
  exact Nat.min_le_left _ _

theorem length_hex (bytes : List UInt8) : (hex bytes).length = 2 * bytes.length := by
  induction bytes with
  | nil => rfl
  | cons byte rest ih =>
      rw [hex, List.flatMap_cons, List.length_append, ← hex, ih, List.length_cons]
      simp only [List.length_cons, List.length_nil]
      omega

theorem length_toString_uint64 (n : UInt64) : (toString n.toNat).toList.length ≤ 20 := by
  have hbound : n.toNat < 10 ^ 20 := by
    have := n.toNat_lt
    omega
  rw [Nat.toString_eq_repr, String.length_toList]
  exact (Nat.length_repr_le_iff (by decide)).mpr hbound

theorem length_le_utf8 (s : String) : s.toList.length ≤ (utf8 s).length := by
  have := length_le_jsonBytes s.toList
  rwa [jsonBytes, String.ofList_toList] at this

theorem sanitizeCorrectedSummary_ok {value summary : String}
    (h : sanitizeCorrectedSummary value = .ok summary) :
    summary.toList.length ≤ maxCorrectedSummaryChars := by
  obtain ⟨-, -, h⟩ := bind_eq_ok h
  obtain ⟨-, -, h⟩ := bind_eq_ok h
  rw [← eq_of_return_eq_ok h]
  exact length_takeChars _ _

theorem sanitizeFeedbackNote_ok {value note : String}
    (h : sanitizeFeedbackNote value = .ok note) : note.toList.length ≤ maxFeedbackNoteChars := by
  obtain ⟨-, -, h⟩ := bind_eq_ok h
  rw [← eq_of_return_eq_ok h]
  exact length_takeChars _ _

theorem collectLabels_ok {values labels found : List String}
    (h : collectLabels values labels = .ok found)
    (hlabels : ∀ label ∈ labels, label.toList.length ≤ maxCorrectedLabelChars) :
    found.length ≤ values.length + labels.length ∧
      ∀ label ∈ found, label.toList.length ≤ maxCorrectedLabelChars := by
  induction values generalizing labels with
  | nil =>
      obtain rfl : labels = found := Except.ok.inj h
      exact ⟨by simp, hlabels⟩
  | cons value rest ih =>
      rw [collectLabels] at h
      split at h
      · obtain ⟨hlength, hfound⟩ := ih h hlabels
        exact ⟨by rw [List.length_cons]; omega, hfound⟩
      · obtain ⟨-, -, h⟩ := bind_eq_ok h
        obtain ⟨hlength, hfound⟩ := ih h (by
          intro label hlabel
          rcases List.mem_append.mp hlabel with hold | hnew
          · exact hlabels label hold
          · rw [List.mem_singleton.mp hnew]
            exact length_takeChars _ _)
        refine ⟨?_, hfound⟩
        rw [List.length_append, List.length_singleton] at hlength
        rw [List.length_cons]
        omega

theorem sanitizeCorrectedLabels_ok {values labels : List String}
    (h : sanitizeCorrectedLabels values = .ok labels) :
    labels.length ≤ maxCorrectedLabels ∧
      ∀ label ∈ labels, label.toList.length ≤ maxCorrectedLabelChars := by
  obtain ⟨found, hfound, h⟩ := bind_eq_ok h
  obtain ⟨-, -, h⟩ := bind_eq_ok h
  rw [← eq_of_return_eq_ok h]
  obtain ⟨hlength, hshort⟩ := collectLabels_ok hfound (by simp)
  refine ⟨hlength.trans ?_, hshort⟩
  rw [List.length_take, List.length_nil]
  omega

theorem transposeMap_ok {α β : Type} {f : α → Except String β} {option : Option α}
    {found : Option β} (h : transposeMap f option = .ok found) {b : β} (hb : b ∈ found) :
    ∃ a, f a = .ok b := by
  cases option with
  | none =>
      obtain rfl : none = found := Except.ok.inj h
      cases hb
  | some a =>
      obtain ⟨b', hb', h⟩ := bind_eq_ok h
      rw [← eq_of_return_eq_ok h, Option.mem_some_iff] at hb
      exact ⟨a, hb ▸ hb'⟩

variable {request : FamilyMemoryFeedbackRequest} {action : FamilyMemoryFeedbackAction}

theorem correctedSummaryFor_ok {found : Option String}
    (h : correctedSummaryFor action request = .ok found) :
    (∀ summary ∈ found, summary.toList.length ≤ maxCorrectedSummaryChars) ∧
      (action = .correctSummary → found.isSome = true) := by
  unfold correctedSummaryFor at h
  split at h
  · obtain ⟨summary, hsummary, h⟩ := bind_eq_ok h
    rw [← eq_of_return_eq_ok h]
    refine ⟨?_, fun _ => rfl⟩
    intro other hother
    rw [← Option.mem_some_iff.mp hother]
    exact sanitizeCorrectedSummary_ok hsummary
  · rename_i hother
    refine ⟨?_, fun haction => absurd haction hother⟩
    intro summary hsummary
    obtain ⟨value, hvalue⟩ := transposeMap_ok h hsummary
    exact sanitizeCorrectedSummary_ok hvalue

theorem correctedLabelsFor_ok {found : Option (List String)}
    (h : correctedLabelsFor action request = .ok found) :
    (∀ labels ∈ found, labels.length ≤ maxCorrectedLabels ∧
        ∀ label ∈ labels, label.toList.length ≤ maxCorrectedLabelChars) ∧
      (action = .correctLabels → found.isSome = true) := by
  unfold correctedLabelsFor at h
  split at h
  · obtain ⟨labels, hlabels, h⟩ := bind_eq_ok h
    rw [← eq_of_return_eq_ok h]
    refine ⟨?_, fun _ => rfl⟩
    intro other hother
    rw [← Option.mem_some_iff.mp hother]
    exact sanitizeCorrectedLabels_ok hlabels
  · rename_i hother
    refine ⟨?_, fun haction => absurd haction hother⟩
    intro labels hlabels
    obtain ⟨value, hvalue⟩ := transposeMap_ok h hlabels
    exact sanitizeCorrectedLabels_ok hvalue

theorem sanitized_of_ok {call : FeedbackCall} {record : FamilyMemoryFeedbackRecord}
    (h : sanitizeFamilyMemoryFeedback call = .ok record) : Sanitized record := by
  obtain ⟨_, hid, h⟩ := bind_eq_ok h
  obtain ⟨action, -, h⟩ := bind_eq_ok h
  obtain ⟨summary, hsummary, h⟩ := bind_eq_ok h
  obtain ⟨labels, hlabels, h⟩ := bind_eq_ok h
  obtain ⟨note, hnote, h⟩ := bind_eq_ok h
  obtain ⟨-, -, h⟩ := bind_eq_ok h
  rw [← eq_of_return_eq_ok h]
  obtain ⟨hsummaryShort, hsummarySome⟩ := correctedSummaryFor_ok hsummary
  obtain ⟨hlabelsShort, hlabelsSome⟩ := correctedLabelsFor_ok hlabels
  refine ⟨?_, ?_, ?_, ?_, hsummaryShort, hlabelsShort, ?_, rfl, hsummarySome, hlabelsSome⟩
  · have hbytes := length_hex call.uuid.bytes
    rw [call.uuid.length_eq] at hbytes
    simp only [String.toList_append, List.length_append, Uuid.simple, String.toList_ofList, hbytes]
    decide
  · have hlength := length_le_utf8 (trim call.eventId)
    unfold failIf at hid
    split at hid
    · cases hid
    · rename_i hfits
      simp only [Bool.or_eq_true, decide_eq_true_eq, not_or, Nat.not_lt] at hfits
      exact hlength.trans hfits.2
  · have hdigits := length_toString_uint64 call.now
    have hname : "epoch_ms:".toList.length = 9 := by decide
    simp only [String.toList_append, List.length_append, hname]
    omega
  · simp only
    split
    · decide
    · exact length_takeChars _ _
  · intro text htext
    obtain ⟨value, hvalue⟩ := transposeMap_ok hnote htext
    exact sanitizeFeedbackNote_ok hvalue

/-- A record that is accepted fits into a line that the reader does not pass over. -/
theorem Sanitized.length_recordLine {record : FamilyMemoryFeedbackRecord}
    (h : Sanitized record) : (recordLine record).length ≤ maxFamilyMemoryLineBytes := by
  have hoption : ∀ {α : Type} (option : Option α) (field : α → String × List Char) (n : Nat),
      (∀ a ∈ option, fieldSize (field a) ≤ n) → ((option.toList.map field).map fieldSize).sum ≤ n := by
    intro α option field n hsize
    cases option with
    | none => exact Nat.zero_le n
    | some a => simpa using hsize a rfl
  have htext : ∀ (name text : String) (n : Nat), text.toList.length ≤ n →
      fieldSize (name, jsonString text) ≤ 6 * name.toList.length + (6 * n + 2) + 4 := by
    intro name text n hlength
    have := length_jsonBytes_jsonString text
    dsimp only [fieldSize]
    omega
  have hsummary := hoption record.correctedSummary
    (fun summary => ("corrected_summary", jsonString summary)) 3200 (fun summary hmem =>
      (htext _ _ _ (h.summary summary hmem)).trans (by decide))
  have hlabels := hoption record.correctedLabels
    (fun labels => ("corrected_labels", renderTexts labels)) 6400 (fun labels hmem => by
      have hsize := length_jsonBytes_renderTexts (h.labels labels hmem).1 (h.labels labels hmem).2
      have hname : 6 * "corrected_labels".toList.length +
          (maxCorrectedLabels * (6 * maxCorrectedLabelChars + 3) + 2) + 4 ≤ 6400 := by decide
      dsimp only [fieldSize]
      omega)
  have hnote := hoption record.note (fun note => ("note", jsonString note)) 3200
    (fun note hmem => (htext _ _ _ (h.note note hmem)).trans (by decide))
  have hfeedback := htext "feedback_id" _ _ h.feedbackId
  have hevent := htext "event_id" _ _ h.eventId
  have haction := htext "action" record.action.asStr 15 (by cases record.action <;> decide)
  have hcreated := htext "created_at" _ _ h.createdAt
  have hsource := htext "source" _ _ h.source
  have hmetadata : fieldSize ("metadata_only", renderBool record.metadataOnly) ≤ 100 := by
    cases record.metadataOnly <;> decide
  have hscan : fieldSize ("secret_scan", jsonString record.secretScan) ≤ 100 := by
    rw [h.secretScan]
    decide
  have hfields := length_jsonBytes_renderFields
    ([("feedback_id", jsonString record.feedbackId),
      ("event_id", jsonString record.eventId),
      ("action", jsonString record.action.asStr),
      ("created_at", jsonString record.createdAt),
      ("source", jsonString record.source)] ++
      (record.correctedSummary.toList.map fun summary =>
        ("corrected_summary", jsonString summary)) ++
      (record.correctedLabels.toList.map fun labels => ("corrected_labels", renderTexts labels)) ++
      (record.note.toList.map fun note => ("note", jsonString note)) ++
      [("metadata_only", renderBool record.metadataOnly),
       ("secret_scan", jsonString record.secretScan)])
  have hnames : "feedback_id".toList.length = 11 ∧ "event_id".toList.length = 8 ∧
      "action".toList.length = 6 ∧ "created_at".toList.length = 10 ∧
      "source".toList.length = 6 := by decide
  have hmax : maxFamilyMemoryLineBytes = 32768 := by decide
  simp only [List.map_append, List.map_cons, List.map_nil, List.sum_append, List.sum_cons,
    List.sum_nil] at hfields
  change (jsonBytes record.render).length ≤ _ at hfields
  rw [recordLine]
  omega

section Reading

variable {fromStr : RecordReader}

/-- The reader of `serde_json` takes the text of a record back to the record. -/
def ReadsBack (fromStr : RecordReader) (record : FamilyMemoryFeedbackRecord) : Prop :=
  fromStr (String.ofList record.render) = some record

theorem trim_of_ends {first last : Char} {body : List Char}
    (hfirst : isWhitespace first = false) (hlast : isWhitespace last = false) :
    trim (String.ofList (first :: (body ++ [last]))) =
      String.ofList (first :: (body ++ [last])) := by
  rw [trim, trimChars, String.toList_ofList, List.dropWhile_cons_of_neg (by simp [hfirst]),
    ← List.cons_append, List.rdropWhile_concat_neg _ _ _ (by simp [hlast])]

theorem readRecord_render {record : FamilyMemoryFeedbackRecord} (hsanitized : Sanitized record)
    (hround : ReadsBack fromStr record) :
    readRecord fromStr (String.ofList record.render) = some record := by
  have htrim : trim (String.ofList record.render) = String.ofList record.render := by
    rw [FamilyMemoryFeedbackRecord.render, renderFields]
    exact trim_of_ends (by decide) (by decide)
  have hne : String.ofList record.render ≠ "" := by
    intro hempty
    have hnil : record.render = [] := by
      rw [← String.toList_ofList (l := record.render), hempty]
      rfl
    rw [FamilyMemoryFeedbackRecord.render, renderFields] at hnil
    exact List.cons_ne_nil _ _ hnil
  rw [readRecord]
  simp only [htrim]
  rw [if_neg, hround]
  rw [not_or, Nat.not_lt]
  exact ⟨hne, hsanitized.length_recordLine⟩

theorem stripCarriageReturn_recordLine (record : FamilyMemoryFeedbackRecord) :
    stripCarriageReturn (recordLine record) = recordLine record := by
  obtain ⟨body, hbody⟩ : ∃ body, recordLine record = 123 :: (body ++ [125]) :=
    exists_jsonBytes_renderFields _
  rw [stripCarriageReturn, if_neg]
  rw [hbody, ← List.cons_append, List.getLast?_concat]
  decide

theorem newline_not_mem_recordLine (record : FamilyMemoryFeedbackRecord) :
    newline ∉ recordLine record := by
  apply newline_not_mem_jsonBytes
  apply singleLine_renderFields
  intro field hfield
  have hbool : SingleLine (renderBool record.metadataOnly) := by
    cases record.metadataOnly <;> decide
  simp only [List.mem_append, List.mem_cons, List.not_mem_nil, or_false, List.mem_map,
    Option.mem_toList] at hfield
  rcases hfield with (((hfixed | ⟨text, -, rfl⟩) | ⟨texts, -, rfl⟩) | ⟨text, -, rfl⟩) | hlast
  · rcases hfixed with rfl | rfl | rfl | rfl | rfl <;> exact singleLine_jsonString _
  · exact singleLine_jsonString text
  · exact singleLine_renderTexts texts
  · exact singleLine_jsonString text
  · rcases hlast with rfl | rfl
    · exact hbool
    · exact singleLine_jsonString _

def readRawLine (fromStr : RecordReader) (rawLine : Bytes) : Option FamilyMemoryFeedbackRecord :=
  (decodeUtf8 (stripCarriageReturn rawLine)).bind (readRecord fromStr)

def storedRecords (fromStr : RecordReader) (file : Bytes) : List FamilyMemoryFeedbackRecord :=
  (readLines newline file).filterMap (readRawLine fromStr)

theorem decodeUtf8_recordLine (record : FamilyMemoryFeedbackRecord) :
    decodeUtf8 (stripCarriageReturn (recordLine record)) =
      some (String.ofList record.render) := by
  rw [stripCarriageReturn_recordLine, recordLine, jsonBytes, decodeUtf8_utf8]

theorem readLines_records (records : List FamilyMemoryFeedbackRecord) :
    readLines newline (logOf newline (records.map recordLine)) = records.map recordLine := by
  apply readLines_logOf
  intro line hline
  obtain ⟨record, -, rfl⟩ := List.mem_map.mp hline
  exact newline_not_mem_recordLine record

theorem storedRecords_log {records : List FamilyMemoryFeedbackRecord}
    (hsanitized : ∀ record ∈ records, Sanitized record)
    (hround : ∀ record ∈ records, ReadsBack fromStr record) :
    storedRecords fromStr (logOf newline (records.map recordLine)) = records := by
  rw [storedRecords, readLines_records, List.filterMap_map]
  calc
    records.filterMap (readRawLine fromStr ∘ recordLine) = records.filterMap some := by
      apply List.filterMap_congr
      intro record hrecord
      rw [Function.comp_apply, readRawLine, decodeUtf8_recordLine, Option.bind_some,
        readRecord_render (hsanitized record hrecord) (hround record hrecord)]
    _ = records := List.filterMap_some

theorem collectRecords_eq {limit : Nat} {lines : List Bytes}
    (hlines : ∀ line ∈ lines, (decodeUtf8 (stripCarriageReturn line)).isSome = true)
    (window : List FamilyMemoryFeedbackRecord) :
    collectRecords fromStr limit lines window =
      .ok ((lines.filterMap (readRawLine fromStr)).foldl (push limit) window) := by
  induction lines generalizing window with
  | nil => rfl
  | cons line rest ih =>
      have hrest := ih fun other hother => hlines other (List.mem_cons_of_mem _ hother)
      obtain ⟨text, htext⟩ := Option.isSome_iff_exists.mp (hlines line List.mem_cons_self)
      have hread : readRawLine fromStr line = readRecord fromStr text := by
        rw [readRawLine, htext, Option.bind_some]
      rw [collectRecords, htext]
      simp only
      cases hrecord : readRecord fromStr text with
      | none => rw [List.filterMap_cons_none (hread.trans hrecord), hrest]
      | some record =>
          rw [List.filterMap_cons_some (hread.trans hrecord), List.foldl_cons]
          exact hrest (push limit window record)

theorem list_log {records : List FamilyMemoryFeedbackRecord}
    (hsanitized : ∀ record ∈ records, Sanitized record)
    (hround : ∀ record ∈ records, ReadsBack fromStr record) (limit : Nat) :
    listFamilyMemoryFeedback fromStr (some (logOf newline (records.map recordLine))) limit =
      .ok (records.rtake (min (max limit 1) defaultFamilyMemoryFeedbackLimit)) := by
  have hdefault : 0 < defaultFamilyMemoryFeedbackLimit := by decide
  have hlines : ∀ line ∈ records.map recordLine,
      (decodeUtf8 (stripCarriageReturn line)).isSome = true := by
    intro line hline
    obtain ⟨record, -, rfl⟩ := List.mem_map.mp hline
    rw [decodeUtf8_recordLine, Option.isSome_some]
  have hstored := storedRecords_log hsanitized hround
  rw [storedRecords, readLines_records] at hstored
  rw [listFamilyMemoryFeedback, readLines_records, collectRecords_eq hlines, hstored, foldl_push_eq_rtake (by omega)]

end Reading

section Compaction

variable {fromStr : RecordReader} {found : List FamilyMemoryFeedbackRecord} {limit : Nat}

theorem length_push_le (hlimit : 0 < limit) {window : List FamilyMemoryFeedbackRecord}
    (h : window.length ≤ limit) (record : FamilyMemoryFeedbackRecord) :
    (push limit window record).length ≤ limit := by
  unfold push
  split
  · rw [List.length_append, List.length_tail, List.length_singleton]
    omega
  · rw [List.length_append, List.length_singleton]
    omega

theorem length_collectRecords_le (hlimit : 0 < limit) {lines : List Bytes}
    {window found : List FamilyMemoryFeedbackRecord} (hwindow : window.length ≤ limit)
    (h : collectRecords fromStr limit lines window = .ok found) : found.length ≤ limit := by
  induction lines generalizing window with
  | nil =>
      obtain rfl : window = found := Except.ok.inj h
      exact hwindow
  | cons line rest ih =>
      rw [collectRecords] at h
      split at h
      · cases h
      · split at h
        · exact ih hwindow h
        · exact ih (length_push_le hlimit hwindow _) h

theorem length_list_le {store : Option Bytes}
    (h : listFamilyMemoryFeedback fromStr store limit = .ok found) :
    found.length ≤ defaultFamilyMemoryFeedbackLimit := by
  have hdefault : 0 < defaultFamilyMemoryFeedbackLimit := by decide
  unfold listFamilyMemoryFeedback at h
  split at h
  · obtain rfl : [] = found := Except.ok.inj h
    exact Nat.zero_le _
  · exact (length_collectRecords_le (by omega) (Nat.zero_le _) h).trans (Nat.min_le_right _ _)

theorem compact_of_list {file : Bytes}
    (h : listFamilyMemoryFeedback fromStr (some file) familyMemoryCompactAfterRecords =
      .ok found) : compactFamilyMemoryFeedbackIfNeeded fromStr file = (.ok (), file) := by
  have hfew : found.length < familyMemoryCompactAfterRecords :=
    Nat.lt_of_le_of_lt (length_list_le h) (by decide)
  rw [compactFamilyMemoryFeedbackIfNeeded, h]
  exact if_pos hfew

theorem compact_file (file : Bytes) :
    (compactFamilyMemoryFeedbackIfNeeded fromStr file).2 = file := by
  cases hlist : listFamilyMemoryFeedback fromStr (some file) familyMemoryCompactAfterRecords with
  | error error => rw [compactFamilyMemoryFeedbackIfNeeded, hlist]
  | ok found => rw [compact_of_list hlist]

end Compaction

section Runs

variable {fromStr : RecordReader} {store store' : Option Bytes}
  {records : List FamilyMemoryFeedbackRecord} {record : FamilyMemoryFeedbackRecord}
  {call : FeedbackCall}

theorem append_accepted (h : appendFamilyMemoryFeedback fromStr call store = (.ok record, store')) :
    sanitizeFamilyMemoryFeedback call = .ok record ∧
      store' = some (store.getD [] ++ (recordLine record ++ [newline])) := by
  unfold appendFamilyMemoryFeedback at h
  split at h
  · cases h
  · rename_i sanitized hsanitized
    have hfile : (compactFamilyMemoryFeedbackIfNeeded fromStr
        (store.getD [] ++ (recordLine sanitized ++ [newline]))).2 =
          store.getD [] ++ (recordLine sanitized ++ [newline]) := compact_file _
    split at h
    · cases h
    · rename_i file hcompact
      rw [hcompact] at hfile
      obtain ⟨hrecord, rfl⟩ := Prod.mk.inj h
      obtain rfl := Except.ok.inj hrecord
      exact ⟨hsanitized, congrArg some hfile⟩

theorem AcceptedRun.log (h : AcceptedRun fromStr none records store) :
    (∀ record ∈ records, Sanitized record) ∧
      store.getD [] = logOf newline (records.map recordLine) ∧ (store = none → records = []) := by
  induction h with
  | nil => exact ⟨by simp, rfl, fun _ => rfl⟩
  | concat call run accepted ih =>
      obtain ⟨hsanitized, hfile, -⟩ := ih
      obtain ⟨hrecord, rfl⟩ := append_accepted accepted
      refine ⟨?_, ?_, fun hnone => nomatch hnone⟩
      · intro other hother
        rcases List.mem_append.mp hother with hold | hnew
        · exact hsanitized other hold
        · rw [List.mem_singleton.mp hnew]
          exact sanitized_of_ok hrecord
      · rw [Option.getD_some, hfile, List.map_append, List.map_singleton, logOf_concat]

theorem AcceptedRun.list (h : AcceptedRun fromStr none records store)
    (hround : ∀ record ∈ records, ReadsBack fromStr record) (limit : Nat) :
    listFamilyMemoryFeedback fromStr store limit =
      .ok (records.rtake (min (max limit 1) defaultFamilyMemoryFeedbackLimit)) := by
  obtain ⟨hsanitized, hfile, hnone⟩ := h.log
  cases store with
  | none => rw [hnone rfl, List.rtake_nil]; rfl
  | some file =>
      rw [Option.getD_some] at hfile
      rw [hfile, list_log hsanitized hround]

theorem AcceptedRun.append (h : AcceptedRun fromStr none records store)
    (hcall : sanitizeFamilyMemoryFeedback call = .ok record)
    (hround : ∀ other ∈ records ++ [record], ReadsBack fromStr other) :
    ∃ store', AcceptedRun fromStr none (records ++ [record]) store' := by
  obtain ⟨hsanitized, hfile, -⟩ := h.log
  have hall : ∀ other ∈ records ++ [record], Sanitized other := by
    intro other hother
    rcases List.mem_append.mp hother with hold | hnew
    · exact hsanitized other hold
    · rw [List.mem_singleton.mp hnew]
      exact sanitized_of_ok hcall
  have hlist := list_log hall hround familyMemoryCompactAfterRecords
  rw [List.map_append, List.map_singleton, logOf_concat, ← hfile] at hlist
  have haccepted : appendFamilyMemoryFeedback fromStr call store =
      (.ok record, some (store.getD [] ++ (recordLine record ++ [newline]))) := by
    rw [appendFamilyMemoryFeedback, hcall]
    simp only [compact_of_list hlist]
  exact ⟨_, AcceptedRun.concat call h haccepted⟩

end Runs

section Overlays

variable {older newer : List FamilyMemoryFeedbackRecord} {record : FamilyMemoryFeedbackRecord}

def hiddenWrite (record : FamilyMemoryFeedbackRecord) : Option Bool :=
  match record.action with
  | .hide => some true
  | .restore => some false
  | _ => none

def favoriteWrite (record : FamilyMemoryFeedbackRecord) : Option Bool :=
  if record.action = .favorite then some true else none

def summaryWrite (record : FamilyMemoryFeedbackRecord) : Option (Option String) :=
  if record.action = .correctSummary then record.correctedSummary.map some else none

def labelsWrite (record : FamilyMemoryFeedbackRecord) : Option (Option (List String)) :=
  if record.action = .correctLabels then record.correctedLabels.map some else none

/-- What a record leaves of an overlay in the fields that it writes. -/
theorem applyFeedback_writes (overlay : FamilyMemoryOverlay)
    (record : FamilyMemoryFeedbackRecord) :
    (applyFeedback overlay record).hidden = (hiddenWrite record).getD overlay.hidden ∧
      (applyFeedback overlay record).favorite = (favoriteWrite record).getD overlay.favorite ∧
      (applyFeedback overlay record).correctedSummary =
        (summaryWrite record).getD overlay.correctedSummary ∧
      (applyFeedback overlay record).correctedLabels =
        (labelsWrite record).getD overlay.correctedLabels := by
  unfold applyFeedback hiddenWrite favoriteWrite summaryWrite labelsWrite
  cases record.action with
  | correctSummary => cases record.correctedSummary <;> exact ⟨rfl, rfl, rfl, rfl⟩
  | correctLabels => cases record.correctedLabels <;> exact ⟨rfl, rfl, rfl, rfl⟩
  | _ => exact ⟨rfl, rfl, rfl, rfl⟩

def overlayFrom (older newer : List FamilyMemoryFeedbackRecord)
    (record : FamilyMemoryFeedbackRecord) : FamilyMemoryOverlay :=
  ((older ++ record :: newer).filter fun other => other.eventId = record.eventId).foldl
    applyFeedback (newOverlay record.eventId)

theorem lookup_buildFamilyMemoryOverlays (older newer : List FamilyMemoryFeedbackRecord)
    (record : FamilyMemoryFeedbackRecord) :
    (buildFamilyMemoryOverlays (older ++ record :: newer)).lookup record.eventId =
      some (overlayFrom older newer record) := by
  rw [buildFamilyMemoryOverlays, lookup_replay, if_pos (by simp), overlayFrom]

theorem field_overlayFrom {β : Type} {field : FamilyMemoryOverlay → β}
    {write : FamilyMemoryFeedbackRecord → Option β} {value : β}
    (hstep : ∀ overlay other, field (applyFeedback overlay other) =
      (write other).getD (field overlay))
    (hrecord : write record = some value)
    (hnewer : ∀ later ∈ newer, later.eventId = record.eventId →
      write later = none ∨ write later = some value) :
    field (overlayFrom older newer record) = value := by
  have hfilter : ((older ++ record :: newer).filter fun other => other.eventId = record.eventId) =
      (older.filter fun other => other.eventId = record.eventId) ++
        record :: newer.filter fun other => other.eventId = record.eventId := by
    simp
  rw [overlayFrom, hfilter, field_foldl write hstep, lastWrite_of_agree write hrecord]
  · rfl
  · intro later hlater
    obtain ⟨hmem, hevent⟩ := List.mem_filter.mp hlater
    exact hnewer later hmem (of_decide_eq_true hevent)

theorem eventId_applyFamilyMemoryOverlayToEvent (stored : StoredLocalVisionEvent)
    (overlay : Option FamilyMemoryOverlay) :
    (applyFamilyMemoryOverlayToEvent stored overlay).event.eventId = stored.event.eventId := by
  unfold applyFamilyMemoryOverlayToEvent
  rcases overlay with _ | overlay
  · rfl
  · dsimp only
    split
    · split
      · rfl
      · rfl
    · split
      · rfl
      · rfl

theorem not_shown_of_hidden {overlays : Table FamilyMemoryOverlay} {overlay : FamilyMemoryOverlay}
    {eventId : String} (hlookup : overlays.lookup eventId = some overlay)
    (hhidden : overlay.hidden = true) (events : List StoredLocalVisionEvent) :
    ∀ shown ∈ applyFamilyMemoryOverlaysToEvents events overlays false,
      shown.event.eventId ≠ eventId := by
  intro shown hshown hevent
  obtain ⟨stored, -, happly⟩ := List.mem_filterMap.mp hshown
  simp only at happly
  split at happly
  · cases happly
  · rename_i hvisible
    rw [← Option.some.inj happly, eventId_applyFamilyMemoryOverlayToEvent] at hevent
    rw [hevent, hlookup] at hvisible
    simp [hhidden] at hvisible

end Overlays

def uuidAt (n : Nat) : Uuid where
  bytes := [0, 0, 0, 0, 0, 0, 0x40, 0, 0x80, 0, 0, 0, 0, 0, UInt8.ofNat (n / 256), UInt8.ofNat n]
  length_eq := rfl

def sampleEvent (n : Nat) : String :=
  if n = 0 then "event-1" else "event-2"

def sampleAction (n : Nat) : FamilyMemoryFeedbackAction :=
  if n = 0 then .hide else .favorite

def sampleCall (n : Nat) : FeedbackCall where
  eventId := sampleEvent n
  request := { action := (sampleAction n).asStr }
  source := "admin"
  uuid := uuidAt n
  now := 1

def sampleRecord (n : Nat) : FamilyMemoryFeedbackRecord where
  feedbackId := "fmfb_" ++ (uuidAt n).simple
  eventId := sampleEvent n
  action := sampleAction n
  createdAt := "epoch_ms:1"
  source := "admin"
  metadataOnly := true
  secretScan := "clean"

def sampleRecords (n : Nat) : List FamilyMemoryFeedbackRecord :=
  (List.range n).map sampleRecord

def readerOf (known : List FamilyMemoryFeedbackRecord) : RecordReader :=
  fun text => known.find? fun record => decide (String.ofList record.render = text)

theorem exists_render_eq (record : FamilyMemoryFeedbackRecord) :
    ∃ rest, record.render =
      (openBrace :: jsonString "feedback_id" ++ [':']) ++ (jsonString record.feedbackId ++ rest) := by
  rw [FamilyMemoryFeedbackRecord.render]
  simp only [List.cons_append]
  rw [renderFields_cons_cons]
  exact ⟨_, rfl⟩

theorem feedbackId_eq_of_render {record other : FamilyMemoryFeedbackRecord}
    (h : record.render = other.render) : record.feedbackId = other.feedbackId := by
  obtain ⟨rest, hrecord⟩ := exists_render_eq record
  obtain ⟨rest', hother⟩ := exists_render_eq other
  rw [hrecord, hother] at h
  exact (jsonString_append_inj (List.append_cancel_left h)).1

theorem sampleRecord_injOn {m n : Nat} (hm : m < 65536) (hn : n < 65536)
    (h : (sampleRecord m).feedbackId = (sampleRecord n).feedbackId) : m = n := by
  have hhex : hex (uuidAt m).bytes = hex (uuidAt n).bytes := by
    have hlist := congrArg String.toList h
    simp only [sampleRecord, String.toList_append, Uuid.simple, String.toList_ofList] at hlist
    exact List.append_cancel_left hlist
  have hbytes := hex_injective hhex
  simp only [uuidAt, List.cons.injEq, true_and, and_true] at hbytes
  have hhigh := congrArg UInt8.toNat hbytes.1
  have hlow := congrArg UInt8.toNat hbytes.2
  simp only [UInt8.toNat_ofNat'] at hhigh hlow
  omega

theorem readerOf_readsBack {k n : Nat} (hk : k ≤ 65536) (hn : n < k) :
    ReadsBack (readerOf (sampleRecords k)) (sampleRecord n) := by
  rw [ReadsBack, readerOf]
  cases hfind : (sampleRecords k).find? fun record =>
      decide (String.ofList record.render = String.ofList (sampleRecord n).render) with
  | none =>
      rw [List.find?_eq_none] at hfind
      have hmem : sampleRecord n ∈ sampleRecords k :=
        List.mem_map_of_mem (List.mem_range.mpr hn)
      exact absurd (by simp) (hfind _ hmem)
  | some other =>
      have hsame := List.find?_some hfind
      rw [decide_eq_true_eq] at hsame
      obtain ⟨m, hm, rfl⟩ := List.mem_map.mp (List.mem_of_find?_eq_some hfind)
      have hid := feedbackId_eq_of_render (String.ofList_injective hsame)
      have hlt := List.mem_range.mp hm
      rw [sampleRecord_injOn (by omega) (by omega) hid]

theorem mem_simple_uuid (n : Nat) : ∀ c ∈ ("fmfb_" ++ (uuidAt n).simple).toList,
    c ∈ "fmb_".toList ++ hexAlphabet := by
  intro c hc
  simp only [String.toList_append, List.mem_append, Uuid.simple, String.toList_ofList, hex,
    List.mem_flatMap] at hc
  rcases hc with hname | ⟨byte, -, hdigit⟩
  · have hsubset : "fmfb_".toList ⊆ "fmb_".toList ++ hexAlphabet := by decide
    exact hsubset hname
  · have hbyte := byte.toNat_lt
    apply List.mem_append_right
    simp only [List.mem_cons, List.not_mem_nil, or_false] at hdigit
    rcases hdigit with rfl | rfl
    · exact digit_mem (by change _ < 16; omega)
    · exact digit_mem (by change _ < 16; omega)

theorem inspect_sampleRecord (n : Nat) : inspect (sampleRecord n).toValue = .ok () := by
  have hfields : ∀ check : String → Except String Unit,
      check ("fmfb_" ++ (uuidAt n).simple) = .ok () →
      (∀ text ∈ ["feedback_id", "event_id", "action", "created_at", "source", "metadata_only",
        "secret_scan", "event-1", "event-2", "hide", "favorite", "epoch_ms:1", "admin", "clean"],
        check text = .ok ()) → rejectValue check (sampleRecord n).toValue = .ok () := by
    intro check hid htexts
    have hevent : check (sampleEvent n) = .ok () := by
      unfold sampleEvent
      split
      · exact htexts _ (by decide)
      · exact htexts _ (by decide)
    have haction : check (sampleAction n).asStr = .ok () := by
      unfold sampleAction
      split
      · exact htexts _ (by decide)
      · exact htexts _ (by decide)
    rw [FamilyMemoryFeedbackRecord.toValue, structObj_eq_obj]
    apply rejectValue_obj
    simp [sampleRecord, htexts, hid, hevent, haction, rejectValue]
  have hsensitive := hfields rejectSensitiveText
    (rejectSensitiveText_of_alphabet (by decide) (by decide) (mem_simple_uuid n))
    (by decide)
  have hpath := hfields rejectLocalPathText
    (rejectLocalPathText_of_alphabet (by decide) (by decide) (by decide)
      (mem_simple_uuid n)) (by decide)
  rw [inspect, rejectSensitiveValue, hsensitive, rejectLocalPathValue, hpath]
  rfl

theorem sanitize_sampleCall (n : Nat) :
    sanitizeFamilyMemoryFeedback (sampleCall n) = .ok (sampleRecord n) := by
  have hevent : trim (sampleEvent n) = sampleEvent n ∧
      (sampleEvent n = "" || 128 < (utf8 (sampleEvent n)).length : Bool) = false := by
    unfold sampleEvent
    split
    · decide
    · decide
  have haction : parseFamilyMemoryFeedbackAction (sampleAction n).asStr = .ok (sampleAction n) := by
    unfold sampleAction
    split
    · decide
    · decide
  have hsummary : correctedSummaryFor (sampleAction n) { action := (sampleAction n).asStr } =
      .ok none := by
    unfold sampleAction
    split
    · rfl
    · rfl
  have hlabels : correctedLabelsFor (sampleAction n) { action := (sampleAction n).asStr } =
      .ok none := by
    unfold sampleAction
    split
    · rfl
    · rfl
  have hsource : trim "admin" = "admin" := by decide
  have hclipped : takeChars 64 "admin" = "admin" := by decide
  have hnow : "epoch_ms:" ++ toString (1 : UInt64).toNat = "epoch_ms:1" := by decide
  have hname : ¬ "admin" = "" := by decide
  have hinspect := inspect_sampleRecord n
  rw [sampleRecord] at hinspect
  rw [sanitizeFamilyMemoryFeedback]
  simp only [sampleCall, hevent.1, hevent.2, failIf, haction, hsource, hclipped, hnow,
    Option.filter_none, transposeMap, Bool.false_eq_true, if_false, Bind.bind, Except.bind,
    hsummary, hlabels, hname, hinspect]
  rfl

theorem sampleRecords_succ (n : Nat) :
    sampleRecords (n + 1) = sampleRecords n ++ [sampleRecord n] := by
  rw [sampleRecords, List.range_succ, List.map_append, List.map_singleton, sampleRecords]

theorem sample_readsBack {k n : Nat} (hk : k ≤ 65536) (hn : n ≤ k) :
    ∀ record ∈ sampleRecords n, ReadsBack (readerOf (sampleRecords k)) record := by
  intro record hrecord
  obtain ⟨m, hm, rfl⟩ := List.mem_map.mp hrecord
  exact readerOf_readsBack hk (Nat.lt_of_lt_of_le (List.mem_range.mp hm) hn)

theorem sample_accepted {k : Nat} (hk : k ≤ 65536) : ∀ n ≤ k,
    ∃ store, AcceptedRun (readerOf (sampleRecords k)) none (sampleRecords n) store := by
  intro n
  induction n with
  | zero => exact fun _ => ⟨none, AcceptedRun.nil none⟩
  | succ n ih =>
      intro hn
      obtain ⟨store, hrun⟩ := ih (by omega)
      rw [sampleRecords_succ]
      refine hrun.append (sanitize_sampleCall n) ?_
      rw [← sampleRecords_succ]
      exact sample_readsBack hk hn

section Bounds

variable {fromStr : RecordReader} {store : Option Bytes}

/-- Feedback is reported for as long as fewer than the default number of records were accepted
after it: a hidden event until it is restored, a favourite, and a correction until the next
one. -/
theorem feedback_reported_while_recent {older newer : List FamilyMemoryFeedbackRecord}
    {record : FamilyMemoryFeedbackRecord}
    (hround : ∀ other ∈ older ++ record :: newer, ReadsBack fromStr other)
    (hrun : AcceptedRun fromStr none (older ++ record :: newer) store)
    (hrecent : newer.length < defaultFamilyMemoryFeedbackLimit) :
    ∃ listed overlay,
      listFamilyMemoryFeedback fromStr store defaultFamilyMemoryFeedbackLimit = .ok listed ∧
      (buildFamilyMemoryOverlays listed).lookup record.eventId = some overlay ∧
      (record.action = .hide →
        (∀ later ∈ newer, later.eventId = record.eventId → later.action ≠ .restore) →
        overlay.hidden = true ∧ ∀ events, ∀ shown ∈
          applyFamilyMemoryOverlaysToEvents events (buildFamilyMemoryOverlays listed) false,
          shown.event.eventId ≠ record.eventId) ∧
      (record.action = .favorite → overlay.favorite = true) ∧
      (record.action = .correctSummary →
        (∀ later ∈ newer, later.eventId = record.eventId → later.action ≠ .correctSummary) →
        overlay.correctedSummary = record.correctedSummary ∧
          record.correctedSummary.isSome = true) ∧
      (record.action = .correctLabels →
        (∀ later ∈ newer, later.eventId = record.eventId → later.action ≠ .correctLabels) →
        overlay.correctedLabels = record.correctedLabels ∧
          record.correctedLabels.isSome = true) := by
  obtain ⟨kept, hkept⟩ := exists_rtake_eq older record hrecent
  have hlimit : min (max defaultFamilyMemoryFeedbackLimit 1) defaultFamilyMemoryFeedbackLimit =
      defaultFamilyMemoryFeedbackLimit := by decide
  have hlist := hrun.list hround defaultFamilyMemoryFeedbackLimit
  rw [hlimit, hkept] at hlist
  have hlookup := lookup_buildFamilyMemoryOverlays kept newer record
  have hsanitized := hrun.log.1 record (by simp)
  refine ⟨_, _, hlist, hlookup, ?_, ?_, ?_, ?_⟩
  · intro haction hrestored
    have hhidden : (overlayFrom kept newer record).hidden = true := by
      refine field_overlayFrom (fun _ _ => (applyFeedback_writes _ _).1)
        (by rw [hiddenWrite, haction]) ?_
      intro later hlater hevent
      have hkeeps := hrestored later hlater hevent
      unfold hiddenWrite
      split
      · exact Or.inr rfl
      · rename_i hrestore
        exact absurd hrestore hkeeps
      · exact Or.inl rfl
    exact ⟨hhidden, not_shown_of_hidden hlookup hhidden⟩
  · intro haction
    refine field_overlayFrom (fun _ _ => (applyFeedback_writes _ _).2.1)
      (by rw [favoriteWrite, if_pos haction]) ?_
    intro later _ _
    unfold favoriteWrite
    split
    · exact Or.inr rfl
    · exact Or.inl rfl
  · intro haction hlast
    obtain ⟨summary, hsummary⟩ := Option.isSome_iff_exists.mp (hsanitized.has_summary haction)
    rw [hsummary]
    refine ⟨field_overlayFrom (fun _ _ => (applyFeedback_writes _ _).2.2.1)
      (by rw [summaryWrite, if_pos haction, hsummary]; rfl) ?_, rfl⟩
    intro later hlater hevent
    exact Or.inl (if_neg (hlast later hlater hevent))
  · intro haction hlast
    obtain ⟨labels, hlabels⟩ := Option.isSome_iff_exists.mp (hsanitized.has_labels haction)
    rw [hlabels]
    refine ⟨field_overlayFrom (fun _ _ => (applyFeedback_writes _ _).2.2.2)
      (by rw [labelsWrite, if_pos haction, hlabels]; rfl) ?_, rfl⟩
    intro later hlater hevent
    exact Or.inl (if_neg (hlast later hlater hevent))

theorem sampleRecords_eq_cons (n : Nat) :
    sampleRecords (n + 1) =
      sampleRecord 0 :: (List.range n).map fun i => sampleRecord (i + 1) := by
  rw [sampleRecords, List.range_succ_eq_map, List.map_cons, List.map_map]
  rfl

/-- An event that is hidden stays hidden while another one gets feedback. -/
theorem hidden_sample_reported :
    ∃ store listed overlay,
      AcceptedRun (readerOf (sampleRecords 3)) none (sampleRecords 3) store ∧
      listFamilyMemoryFeedback (readerOf (sampleRecords 3)) store
        defaultFamilyMemoryFeedbackLimit = .ok listed ∧
      (buildFamilyMemoryOverlays listed).lookup "event-1" = some overlay ∧
      overlay.hidden = true := by
  obtain ⟨store, hrun⟩ := sample_accepted (k := 3) (by decide) 3 (by decide)
  have hround := sample_readsBack (k := 3) (n := 3) (by decide) (by decide)
  have hsplit : sampleRecords 3 =
      [] ++ sampleRecord 0 :: [sampleRecord 1, sampleRecord 2] := rfl
  obtain ⟨listed, overlay, hlist, hlookup, hhide, -⟩ :=
    feedback_reported_while_recent (hsplit ▸ hround) (hsplit ▸ hrun) (by decide)
  refine ⟨store, listed, overlay, hrun, hlist, hlookup, (hhide rfl ?_).1⟩
  decide

/-- An event that is hidden is reported as visible once there are 5,000 records on another. -/
theorem hidden_event_forgotten :
    ∃ store, AcceptedRun (readerOf (sampleRecords 5001)) none (sampleRecords 5001) store ∧
      (∀ record ∈ sampleRecords 5001, ReadsBack (readerOf (sampleRecords 5001)) record) ∧
      (sampleRecord 0).eventId = "event-1" ∧ (sampleRecord 0).action = .hide ∧
      (∀ n < 5000, (sampleRecord (n + 1)).eventId = "event-2") ∧
      ∃ listed, listFamilyMemoryFeedback (readerOf (sampleRecords 5001)) store
          defaultFamilyMemoryFeedbackLimit = .ok listed ∧
        (buildFamilyMemoryOverlays listed).lookup "event-1" = none := by
  obtain ⟨store, hrun⟩ := sample_accepted (k := 5001) (by decide) 5001 (by decide)
  have hround := sample_readsBack (k := 5001) (n := 5001) (by decide) (by decide)
  have hother : ∀ n, (sampleRecord (n + 1)).eventId = "event-2" := by
    intro n
    rw [sampleRecord]
    dsimp only
    rw [sampleEvent, if_neg (by omega)]
  refine ⟨store, hrun, hround, rfl, rfl, fun n _ => hother n, _, hrun.list hround _, ?_⟩
  have hlimit : min (max defaultFamilyMemoryFeedbackLimit 1) defaultFamilyMemoryFeedbackLimit =
      5000 := by decide
  rw [hlimit, sampleRecords_eq_cons, List.rtake, List.length_cons, List.length_map,
    List.length_range, Nat.add_sub_cancel_left, List.drop_one, List.tail_cons,
    buildFamilyMemoryOverlays, lookup_replay, if_neg]
  rw [List.map_map]
  intro hmem
  obtain ⟨n, -, hn⟩ := List.mem_map.mp hmem
  rw [Function.comp_apply, hother] at hn
  exact absurd hn (by decide)

/-- The number of records stays within the bound exactly as long as no more were appended:
nothing is ever compacted. -/
theorem feedback_store_bounded_iff {records : List FamilyMemoryFeedbackRecord}
    (hround : ∀ record ∈ records, ReadsBack fromStr record)
    (hrun : AcceptedRun fromStr none records store) :
    ((storedRecords fromStr (store.getD [])).length ≤ familyMemoryCompactAfterRecords ∧
      ∀ file, (compactFamilyMemoryFeedbackIfNeeded fromStr file).2 ≠ file →
        storedRecords fromStr (compactFamilyMemoryFeedbackIfNeeded fromStr file).2 =
          (storedRecords fromStr file).rtake defaultFamilyMemoryFeedbackLimit) ↔
      records.length ≤ familyMemoryCompactAfterRecords := by
  obtain ⟨hsanitized, hfile, -⟩ := hrun.log
  rw [hfile, storedRecords_log hsanitized hround]
  constructor
  · exact fun h => h.1
  · intro hfew
    exact ⟨hfew, fun file hcompacted => absurd (compact_file file) hcompacted⟩

theorem sample_store_bounded :
    ∃ store, AcceptedRun (readerOf (sampleRecords 3)) none (sampleRecords 3) store ∧
      (storedRecords (readerOf (sampleRecords 3)) (store.getD [])).length ≤
        familyMemoryCompactAfterRecords := by
  obtain ⟨store, hrun⟩ := sample_accepted (k := 3) (by decide) 3 (by decide)
  have hround := sample_readsBack (k := 3) (n := 3) (by decide) (by decide)
  exact ⟨store, hrun, ((feedback_store_bounded_iff hround hrun).mpr (by decide)).1⟩

/-- After 5,501 accepted calls the store holds 5,501 records. -/
theorem feedback_store_outgrows_bound :
    ∃ store, AcceptedRun (readerOf (sampleRecords 5501)) none (sampleRecords 5501) store ∧
      (∀ record ∈ sampleRecords 5501, ReadsBack (readerOf (sampleRecords 5501)) record) ∧
      familyMemoryCompactAfterRecords <
        (storedRecords (readerOf (sampleRecords 5501)) (store.getD [])).length := by
  obtain ⟨store, hrun⟩ := sample_accepted (k := 5501) (by decide) 5501 (by decide)
  have hround := sample_readsBack (k := 5501) (n := 5501) (by decide) (by decide)
  obtain ⟨hsanitized, hfile, -⟩ := hrun.log
  refine ⟨store, hrun, hround, ?_⟩
  rw [hfile, storedRecords_log hsanitized hround, sampleRecords, List.length_map,
    List.length_range]
  decide

end Bounds

end HarborBeacon.FamilyMemory
