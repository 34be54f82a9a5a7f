import HarborBeacon.AuditPaging
import HarborBeacon.ObjectFields
import HarborBeacon.TrimmedTexts

/-!
What the redaction of the audit stream leaves. The snapshots are redacted at every depth, a record
that was sanitized stays as it is, and so the stream is made of its last records whatever was
appended in which order.
-/

namespace HarborBeacon.AuditRedaction

open AdminConsole (nonEmptyOpt)
open AuditPaging AuditTrail Json Json.Value Text TrimmedTexts

/-- The texts that `redactAuditString` looks for. -/
def auditMarkers : List String :=
  ["rtsp://", "token=", "secret=", "api_key", "bearer ", "\\\\", "c:\\", "/mnt/", ".harborbeacon/"]

/-- A part of the text is one of the markers but for the case of its ASCII letters. -/
def ShowsMarker (text : String) : Prop :=
  ∃ marker ∈ auditMarkers, ∃ part, part <:+: text.toList ∧ part.map Char.toLower = marker.toList

theorem showsMarker_iff {text : String} : ShowsMarker text ↔
    ∃ marker ∈ auditMarkers, containsText (toAsciiLowercase text) marker = true := by
  have hpart : ∀ marker : String, containsText (toAsciiLowercase text) marker = true ↔
      ∃ part, part <:+: text.toList ∧ part.map Char.toLower = marker.toList := by
    intro marker
    rw [containsText, toAsciiLowercase, String.toList_ofList, decide_eq_true_eq,
      List.infix_map_iff]
    simp only [eq_comm]
  simp only [ShowsMarker, hpart]

theorem redactAuditString_eq (text : String) [Decidable (ShowsMarker text)] :
    redactAuditString text = if ShowsMarker text then "[redacted]" else text := by
  rw [redactAuditString]
  apply if_congr _ rfl rfl
  rw [showsMarker_iff]
  simp [auditMarkers, or_assoc]

theorem not_showsMarker_redacted : ¬ ShowsMarker "[redacted]" := by
  rw [showsMarker_iff]
  decide

theorem redactAuditString_redacted (text : String) : ¬ ShowsMarker (redactAuditString text) := by
  classical
  rw [redactAuditString_eq]
  split
  · exact not_showsMarker_redacted
  · rename_i hclean
    exact hclean

theorem redactAuditString_of_clean {text : String} (h : ¬ ShowsMarker text) :
    redactAuditString text = text := by
  classical
  rw [redactAuditString_eq, if_neg h]

section Values

def auditKey (key : String) : String :=
  toAsciiLowercase (trim key)

mutual

/-- At every depth no text shows a marker, no field is a route key, and what stands under a
sensitive key is the redaction marker. -/
def Redacted : Value → Prop
  | object fields => RedactedFields fields
  | array items => RedactedItems items
  | string text => ¬ ShowsMarker text
  | _ => True

def RedactedItems : List Value → Prop
  | [] => True
  | value :: rest => Redacted value ∧ RedactedItems rest

def RedactedFields : List (String × Value) → Prop
  | [] => True
  | (key, value) :: rest =>
      (auditKey key ≠ "route_key" ∧
        (sensitiveAuditKey (auditKey key) = true → value = string "[redacted]") ∧
        Redacted value) ∧ RedactedFields rest

end

def redactContent (key : String) (value : Value) : Value :=
  if sensitiveAuditKey (auditKey key) then string "[redacted]" else redactAuditValue value

def redactField (field : String × Value) : String × Value :=
  (field.1, redactContent field.1 field.2)

theorem redactContent_cases (key : String) (value : Value) :
    redactContent key value = string "[redacted]" ∨
      redactContent key value = redactAuditValue value := by
  rw [redactContent]
  split
  · exact Or.inl rfl
  · exact Or.inr rfl

theorem redactField_of_plain {key : String} (h : sensitiveAuditKey (auditKey key) = false)
    (value : Value) : redactField (key, value) = (key, redactAuditValue value) := by
  have hnot : ¬ sensitiveAuditKey (auditKey key) = true := by simp [h]
  have hcontent : redactContent key value = redactAuditValue value := by
    rw [redactContent, if_neg hnot]
  simp only [redactField, hcontent]

theorem redactField_fst (field : String × Value) : (redactField field).1 = field.1 := by
  rw [redactField]

structure Kept (field : String × Value) : Prop where
  noRoute : auditKey field.1 ≠ "route_key"
  settled : redactField field = field
  redacted : Redacted field.2

variable {fields redacted : Fields} {field : String × Value}

theorem redactedFields_of_kept (h : ∀ field ∈ fields, Kept field) : RedactedFields fields := by
  induction fields with
  | nil => rw [RedactedFields]; trivial
  | cons field rest ih =>
      obtain ⟨key, value⟩ := field
      rw [List.forall_mem_cons] at h
      rw [RedactedFields]
      refine ⟨⟨h.1.noRoute, fun hsensitive => ?_, h.1.redacted⟩, ih h.2⟩
      have hsettled := congrArg Prod.snd h.1.settled
      rw [redactField, redactContent, if_pos hsensitive] at hsettled
      exact hsettled.symm

theorem redactAuditFields_cons (key : String) (value : Value) (rest : Fields) :
    redactAuditFields ((key, value) :: rest) redacted =
      redactAuditFields rest (if auditKey key = "route_key" then
        insertField "opaque_delivery_route_present" (bool true) redacted
      else insertField key (redactContent key value) redacted) := by
  rw [redactAuditFields, redactContent, auditKey]
  split_ifs <;> rfl

theorem mem_redactAuditFields (h : field ∈ redactAuditFields fields redacted) :
    field ∈ redacted ∨ field = ("opaque_delivery_route_present", bool true) ∨
      ∃ given ∈ fields, auditKey given.1 ≠ "route_key" ∧ field = redactField given := by
  induction fields generalizing redacted with
  | nil => exact Or.inl (by rwa [redactAuditFields] at h)
  | cons given rest ih =>
      obtain ⟨key, value⟩ := given
      rw [redactAuditFields_cons] at h
      rcases ih h with hbefore | hroute | ⟨other, hother, hlater⟩
      · split_ifs at hbefore with hkey
        · rcases mem_of_mem_insertField hbefore with heq | hold
          · exact Or.inr (Or.inl heq)
          · exact Or.inl hold
        · rcases mem_of_mem_insertField hbefore with heq | hold
          · exact Or.inr (Or.inr ⟨_, List.mem_cons_self, hkey, heq⟩)
          · exact Or.inl hold
      · exact Or.inr (Or.inl hroute)
      · exact Or.inr (Or.inr ⟨other, List.mem_cons_of_mem _ hother, hlater⟩)

theorem ordered_redactAuditFields (h : Ordered redacted) :
    Ordered (redactAuditFields fields redacted) := by
  induction fields generalizing redacted with
  | nil => rwa [redactAuditFields]
  | cons given rest ih =>
      obtain ⟨key, value⟩ := given
      rw [redactAuditFields_cons]
      apply ih
      split_ifs
      · exact h.insertField
      · exact h.insertField

theorem redactAuditFields_of_ordered (redacted : Fields) (h : Ordered (redacted ++ fields))
    (hroute : ∀ field ∈ fields, auditKey field.1 ≠ "route_key") :
    redactAuditFields fields redacted = redacted ++ fields.map redactField := by
  induction fields generalizing redacted with
  | nil => rw [redactAuditFields, List.map_nil, List.append_nil]
  | cons given rest ih =>
      obtain ⟨key, value⟩ := given
      rw [List.forall_mem_cons] at hroute
      have hlast : insertField key (redactContent key value) redacted =
          redacted ++ [(key, redactContent key value)] := by
        refine insertField_last fun field hfield => ?_
        rw [Ordered, List.map_append, List.pairwise_append] at h
        exact h.2.2 _ (List.mem_map_of_mem hfield) _ List.mem_cons_self
      rw [redactAuditFields_cons, if_neg hroute.1, hlast, ih _ ?_ hroute.2, List.append_assoc]
      · rfl
      · rw [Ordered] at h ⊢
        simpa using h

def Settles (value : Value) : Prop :=
  Redacted (redactAuditValue value) ∧
    redactAuditValue (redactAuditValue value) = redactAuditValue value

theorem kept_redactField {given : String × Value} (hroute : auditKey given.1 ≠ "route_key")
    (h : Settles given.2) : Kept (redactField given) := by
  have hcontent : redactContent given.1 (redactContent given.1 given.2) =
      redactContent given.1 given.2 := by
    rw [redactContent, redactContent]
    split
    · rfl
    · exact h.2
  refine ⟨?_, ?_, ?_⟩
  · rw [redactField_fst]
    exact hroute
  · simp only [redactField, hcontent]
  · have hcases := redactContent_cases given.1 given.2
    simp only [redactField]
    generalize redactContent given.1 given.2 = content at hcases ⊢
    rcases hcases with rfl | rfl
    · rw [Redacted]
      exact not_showsMarker_redacted
    · exact h.1

theorem kept_of_mem (hfields : ∀ given ∈ fields, Settles given.2)
    (h : field ∈ redactAuditFields fields []) : Kept field := by
  rcases mem_redactAuditFields h with hnone | rfl | ⟨given, hgiven, hroute, rfl⟩
  · exact absurd hnone List.not_mem_nil
  · refine ⟨by decide, ?_, trivial⟩
    rw [redactField_of_plain (by decide)]
    rfl
  · exact kept_redactField hroute (hfields given hgiven)

theorem redactAuditFields_of_kept (hordered : Ordered fields) (h : ∀ field ∈ fields, Kept field) :
    redactAuditFields fields [] = fields := by
  rw [redactAuditFields_of_ordered [] hordered fun field hfield => (h field hfield).noRoute,
    List.nil_append, List.map_congr_left fun field hfield => (h field hfield).settled, List.map_id']

mutual

theorem settles : (value : Value) → Settles value
  | object fields => by
      have hkept : ∀ field ∈ redactAuditFields fields [], Kept field :=
        fun field => kept_of_mem (settles_fields fields)
      refine ⟨?_, ?_⟩
      · rw [redactAuditValue, Redacted]
        exact redactedFields_of_kept hkept
      · rw [redactAuditValue, redactAuditValue,
          redactAuditFields_of_kept (ordered_redactAuditFields ordered_nil) hkept]
  | array items => by
      obtain ⟨hredacted, hagain⟩ := settles_items items
      refine ⟨?_, ?_⟩
      · rw [redactAuditValue, Redacted]
        exact hredacted
      · rw [redactAuditValue, redactAuditValue, hagain]
  | string text => by
      refine ⟨?_, ?_⟩
      · rw [redactAuditValue, Redacted]
        exact redactAuditString_redacted text
      · rw [redactAuditValue, redactAuditValue,
          redactAuditString_of_clean (redactAuditString_redacted text)]
  | .null => ⟨trivial, rfl⟩
  | .bool _ => ⟨trivial, rfl⟩
  | .number _ => ⟨trivial, rfl⟩

theorem settles_items : (items : List Value) → RedactedItems (redactAuditItems items) ∧
    redactAuditItems (redactAuditItems items) = redactAuditItems items
  | [] => ⟨trivial, rfl⟩
  | value :: rest => by
      obtain ⟨hvalue, hagain⟩ := settles value
      obtain ⟨hrest, hrestAgain⟩ := settles_items rest
      refine ⟨?_, ?_⟩
      · rw [redactAuditItems, RedactedItems]
        exact ⟨hvalue, hrest⟩
      · rw [redactAuditItems, redactAuditItems, hagain, hrestAgain]

theorem settles_fields : (fields : List (String × Value)) → ∀ field ∈ fields, Settles field.2
  | [] => fun _ h => absurd h List.not_mem_nil
  | (_, value) :: rest => List.forall_mem_cons.mpr ⟨settles value, settles_fields rest⟩

end

end Values

/-- The keys that `markMetadataOnly` writes. -/
def metadataMarkers : List String := ["metadata_only", "redacted", "secret_scan"]

def RedactedSnapshot (snapshot : Value) : Prop :=
  ∃ fields, snapshot = object fields ∧
    RedactedFields (fields.filter fun field => field.1 ∉ metadataMarkers)

def snapshotFields (value : Value) : Fields :=
  match redactAuditValue value with
  | object fields => fields
  | other => [("value", other)]

def markedFields (fields : Fields) : Fields :=
  insertField "secret_scan" (string "clean")
    (insertField "redacted" (bool true) (insertField "metadata_only" (bool true) fields))

theorem markMetadataOnly_eq (value : Value) :
    markMetadataOnly (redactAuditValue value) = object (markedFields (snapshotFields value)) := rfl

theorem kept_snapshotFields (value : Value) :
    Ordered (snapshotFields value) ∧ ∀ field ∈ snapshotFields value, Kept field := by
  have hother : ∀ other, Settles other →
      Ordered [("value", redactAuditValue other)] ∧
        ∀ field ∈ [("value", redactAuditValue other)], Kept field := by
    intro other hsettles
    refine ⟨List.pairwise_singleton _ _, List.forall_mem_singleton.mpr ?_⟩
    have hkey : auditKey ("value", other).1 ≠ "route_key" := by
      show auditKey "value" ≠ "route_key"
      decide
    rw [← redactField_of_plain (by decide)]
    exact kept_redactField hkey hsettles
  rw [snapshotFields]
  split
  · rename_i fields hfields
    cases value with
    | object given =>
        rw [redactAuditValue] at hfields
        rw [← Value.object.inj hfields]
        exact ⟨ordered_redactAuditFields ordered_nil,
          fun field => kept_of_mem (settles_fields given)⟩
    | _ => simp [redactAuditValue] at hfields
  · exact hother value (settles value)

theorem redactedSnapshot_mark (value : Value) :
    RedactedSnapshot (markMetadataOnly (redactAuditValue value)) := by
  refine ⟨_, markMetadataOnly_eq value, redactedFields_of_kept fun field hfield => ?_⟩
  obtain ⟨hmem, hmarker⟩ := List.mem_filter.mp hfield
  have hnot : field.1 ∉ metadataMarkers := of_decide_eq_true hmarker
  rcases mem_of_mem_insertField hmem with rfl | hmem
  · exact absurd hnot (by decide)
  rcases mem_of_mem_insertField hmem with rfl | hmem
  · exact absurd hnot (by decide)
  rcases mem_of_mem_insertField hmem with rfl | hmem
  · exact absurd hnot (by decide)
  exact (kept_snapshotFields value).2 field hmem

theorem mark_again (value : Value) :
    markMetadataOnly (redactAuditValue (markMetadataOnly (redactAuditValue value))) =
      markMetadataOnly (redactAuditValue value) := by
  obtain ⟨hordered, hkept⟩ := kept_snapshotFields value
  have hmarked : Ordered (markedFields (snapshotFields value)) :=
    hordered.insertField.insertField.insertField
  have hmetadata : Json.Settled "metadata_only" (bool true) (markedFields (snapshotFields value)) :=
    ((settled_insertField _ _ _).insertField (by decide) _).insertField (by decide) _
  have hredacted : Json.Settled "redacted" (bool true) (markedFields (snapshotFields value)) :=
    (settled_insertField _ _ _).insertField (by decide) _
  have hfield : ∀ field ∈ markedFields (snapshotFields value),
      auditKey field.1 ≠ "route_key" ∧ (field.1 ≠ "secret_scan" → redactField field = field) := by
    intro field hmem
    rcases mem_of_mem_insertField hmem with rfl | hmem
    · exact ⟨by decide, fun h => absurd rfl h⟩
    rcases mem_of_mem_insertField hmem with rfl | hmem
    · exact ⟨by decide, fun _ => redactField_of_plain (by decide) _⟩
    rcases mem_of_mem_insertField hmem with rfl | hmem
    · exact ⟨by decide, fun _ => redactField_of_plain (by decide) _⟩
    exact ⟨(hkept field hmem).noRoute, fun _ => (hkept field hmem).settled⟩
  have hagain : redactAuditFields (markedFields (snapshotFields value)) [] =
      (markedFields (snapshotFields value)).map redactField :=
    redactAuditFields_of_ordered [] hmarked fun field hmem => (hfield field hmem).1
  have hwrite : markedFields ((markedFields (snapshotFields value)).map redactField) =
      markedFields (snapshotFields value) := by
    have h1 : Json.Settled "metadata_only" (bool true)
        ((markedFields (snapshotFields value)).map redactField) :=
      hmetadata.map redactField_fst (by decide)
    have h2 : Json.Settled "redacted" (bool true)
        ((markedFields (snapshotFields value)).map redactField) :=
      hredacted.map redactField_fst (by decide)
    have h3 : insertField "secret_scan" (string "clean")
        ((markedFields (snapshotFields value)).map redactField) =
          markedFields (snapshotFields value) :=
      (settled_insertField _ _ _).insertField_map hmarked redactField_fst
        fun field hmem => (hfield field hmem).2
    nth_rewrite 1 [markedFields]
    rw [h1, h2, h3]
  rw [markMetadataOnly_eq value, redactAuditValue, hagain]
  exact congrArg object hwrite

section Streams

/-- An identifier as `Uuid::simple` prints it, and the seconds of a clock. -/
structure Drawn (uuid now : String) : Prop where
  digits : uuid.length = 32 ∧ ∀ c ∈ uuid.toList, c ∈ "0123456789abcdef".toList
  seconds : ∃ seconds : Nat, now = toString seconds

/-- What the draws of a call look like. -/
def DrawnAll (env : AuditEnvironment) : Prop :=
  ∀ i, Drawn (env.newUuid i) (env.nowUnix i)

variable {uuid now : String}

theorem Drawn.trimmed_id (h : Drawn uuid now) : Trimmed ("audit" ++ "-" ++ uuid) := by
  have hdigits : ∀ c ∈ "0123456789abcdef".toList, isWhitespace c = false :=
    forall_mem_of_all (by decide)
  refine Trimmed.append (by decide) (trimmed_of_no_whitespace ?_ ?_) "-"
  · intro hempty
    have hlength := h.digits.1
    rw [hempty] at hlength
    exact absurd hlength (by decide)
  · exact fun c hc => hdigits c (h.digits.2 c hc)

theorem nonEmpty_eq : nonEmpty = nonEmptyOpt := rfl

theorem trimOrDefault_again {fallback : String} (h : Trimmed fallback) (value other : String) :
    trimOrDefault (trimOrDefault value fallback) other = trimOrDefault value fallback := by
  have htrimmed : Trimmed (trimOrDefault value fallback) := trimmed_trimOr h (trim value)
  exact (congrArg (trimOr other) htrimmed.1).trans (trimOr_of_trimmed htrimmed other)

theorem sanitizeAuditRecord_again (h : Drawn uuid now) (record : AuditRecord) (other later : String) :
    sanitizeAuditRecord other later (sanitizeAuditRecord uuid now record) =
      sanitizeAuditRecord uuid now record := by
  have hunknown : Trimmed "unknown" := by decide
  have hid : trimOrGenerated other (trimOrGenerated uuid record.auditId "audit") "audit" =
      trimOrGenerated uuid record.auditId "audit" :=
    trimOrDefault_again h.trimmed_id record.auditId ("audit" ++ "-" ++ other)
  have hnow : Trimmed now := by
    obtain ⟨seconds, rfl⟩ := h.seconds
    exact trimmed_toString seconds
  have hcreated : ∀ created : Option String,
      ((((created.bind fun value => nonEmpty (trim value)).or (some now)).bind fun value =>
        nonEmpty (trim value)).or (some later)) =
          (created.bind fun value => nonEmpty (trim value)).or (some now) := by
    intro created
    simp only [nonEmpty_eq]
    cases hvalue : created.bind fun value => nonEmptyOpt (trim value) with
    | none => rw [Option.none_or, Option.bind_some, hnow.1, nonEmptyOpt_of_trimmed hnow, Option.some_or]
    | some kept =>
        obtain ⟨value, -, hkept⟩ := Option.bind_eq_some_iff.mp hvalue
        have htrimmed := trimmed_of_nonEmptyOpt hkept
        rw [Option.some_or, Option.bind_some, htrimmed.1, nonEmptyOpt_of_trimmed htrimmed,
          Option.some_or]
  simp only [sanitizeAuditRecord, hid, hcreated, mark_again, trimOrDefault_again hunknown,
    trimOrDefault_again (show Trimmed "home-1" by decide),
    trimOrDefault_again (show Trimmed "system" by decide)]

def Sanitized (record : AuditRecord) : Prop :=
  ∀ uuid now, sanitizeAuditRecord uuid now record = record

variable {env : AuditEnvironment} {records : List AuditRecord}

theorem sanitizeAuditStream_of_sanitized (h : ∀ record ∈ records, Sanitized record) :
    sanitizeAuditStream env records = records.drop (records.length - maxAdminAuditRecords) := by
  rw [sanitizeAuditStream]
  refine List.ext_getElem (List.length_mapIdx) fun i hi hj => ?_
  rw [List.getElem_mapIdx]
  exact h _ (List.mem_of_mem_drop (List.getElem_mem _)) _ _

theorem sanitized_sanitizeAuditStream (h : DrawnAll env) :
    ∀ record ∈ sanitizeAuditStream env records, Sanitized record := by
  intro record hrecord
  rw [sanitizeAuditStream, List.mem_mapIdx] at hrecord
  obtain ⟨i, hi, rfl⟩ := hrecord
  exact sanitizeAuditRecord_again (h i) _

def appendEach (records : List AuditRecord) (appends : List Append) : List AuditRecord :=
  appends.foldl (fun records append => appendBoundedAuditRecord append.env records append.record)
    records

theorem appendEach_eq {appends : List Append} (hdrawn : ∀ append ∈ appends, DrawnAll append.env)
    (hrecords : ∀ record ∈ records, Sanitized record)
    (hlength : records.length ≤ maxAdminAuditRecords) :
    appendEach records appends = (records ++ appends.map Append.sanitized).drop
      (records.length + appends.length - maxAdminAuditRecords) := by
  induction appends generalizing records with
  | nil => simp [appendEach, Nat.sub_eq_zero_of_le hlength]
  | cons append rest ih =>
      rw [List.forall_mem_cons] at hdrawn
      have hall : ∀ record ∈ records ++ [append.sanitized], Sanitized record := by
        intro record hrecord
        rcases List.mem_append.mp hrecord with hold | hnew
        · exact hrecords record hold
        · rw [List.mem_singleton.mp hnew]
          exact sanitizeAuditRecord_again (hdrawn.1 0) append.record
      have hstep : appendBoundedAuditRecord append.env records append.record =
          (records ++ [append.sanitized]).drop (records.length + 1 - maxAdminAuditRecords) := by
        have hcount : (records ++ [append.sanitized]).length = records.length + 1 := by simp
        rw [← hcount]
        exact sanitizeAuditStream_of_sanitized hall
      rw [appendEach, List.foldl_cons, hstep, ← appendEach]
      have hcount : records.length + 1 - maxAdminAuditRecords +
          (((records ++ [append.sanitized]).drop (records.length + 1 - maxAdminAuditRecords)).length +
            rest.length - maxAdminAuditRecords) =
          records.length + (append :: rest).length - maxAdminAuditRecords := by
        simp only [List.length_drop, List.length_append, List.length_cons, List.length_nil]
        omega
      rw [ih hdrawn.2 fun record hrecord => hall record (List.mem_of_mem_drop hrecord)]
      · rw [← List.drop_append_of_le_length (by simp), List.drop_drop, hcount, List.map_cons,
          List.append_assoc, List.singleton_append]
      · rw [List.length_drop, List.length_append, List.length_singleton]
        omega

/-- Whatever came in, the snapshots are redacted, a sanitized record stays as it is, and the
stream is made of the last records that came in, each sanitized once. -/
theorem stored_redacted_once (henv : DrawnAll env) (stored : List AuditRecord) {appends : List Append}
    (hdrawn : ∀ append ∈ appends, DrawnAll append.env) :
    (∀ (uuid now : String) (record : AuditRecord),
      RedactedSnapshot (sanitizeAuditRecord uuid now record).requestSnapshot ∧
        RedactedSnapshot (sanitizeAuditRecord uuid now record).resultSnapshot) ∧
      (∀ i record uuid now,
        sanitizeAuditRecord uuid now (sanitizeAuditRecord (env.newUuid i) (env.nowUnix i) record) =
          sanitizeAuditRecord (env.newUuid i) (env.nowUnix i) record) ∧
      appendEach (sanitizeAuditStream env stored) appends =
        (sanitizeAuditStream env stored ++ appends.map Append.sanitized).drop
          ((sanitizeAuditStream env stored).length + appends.length - maxAdminAuditRecords) := by
  have hbounded : (sanitizeAuditStream env stored).length ≤ maxAdminAuditRecords := by
    rw [sanitizeAuditStream, List.length_mapIdx, List.length_drop]
    omega
  refine ⟨fun uuid now record => ⟨?_, ?_⟩, fun i record => ?_, ?_⟩
  · exact redactedSnapshot_mark record.requestSnapshot
  · exact redactedSnapshot_mark record.resultSnapshot
  · exact sanitizeAuditRecord_again (henv i) record
  · exact appendEach_eq hdrawn (sanitized_sanitizeAuditStream henv) hbounded

def drawnId : String := "0123456789abcdef0123456789abcdef"

theorem drawnId_digits :
    drawnId.length = 32 ∧ ∀ c ∈ drawnId.toList, c ∈ "0123456789abcdef".toList :=
  ⟨by decide, forall_mem_of_all (by decide)⟩

def drawnEnvironment : AuditEnvironment where
  newUuid := fun _ => drawnId
  nowUnix := fun i => toString (1750000000 + i)

theorem drawnAll_drawnEnvironment : DrawnAll drawnEnvironment :=
  fun i => ⟨drawnId_digits, 1750000000 + i, rfl⟩

/-- A record with a secret in its request, appended to an empty stream. -/
theorem stored_redacted_once_one_record :
    appendEach [] [⟨drawnEnvironment, { sampleRecord "pair" with
        requestSnapshot := object [("note", string "see RTSP://porch"), ("route_key", string "r")] }⟩] =
      [{ sampleRecord "pair" with
        auditId := "audit-0123456789abcdef0123456789abcdef"
        requestSnapshot := object [("metadata_only", bool true), ("note", string "[redacted]"),
          ("opaque_delivery_route_present", bool true), ("redacted", bool true),
          ("secret_scan", string "clean")]
        resultSnapshot := object [("metadata_only", bool true), ("redacted", bool true),
          ("secret_scan", string "clean")]
        createdAt := some "1750000000" }] := by
  refine (stored_redacted_once drawnAll_drawnEnvironment [] ?_).2.2.trans ?_
  · exact List.forall_mem_singleton.mpr drawnAll_drawnEnvironment
  · decide

end Streams

end HarborBeacon.AuditRedaction
