import HarborBeacon.EvidenceScan
import HarborBeacon.KeyedValues
import HarborBeacon.Slugs

/-!
What the redaction of evidence makes of texts, JSON values and records, and when it panics: only
the look back for a scheme can leave the boundaries of characters.
-/

namespace HarborBeacon.DeviceEvidence

open AdminConsole ByteSlices Json KeyedValues Results Text

section Values

def secretReading : Reading Char :=
  { norm := Char.toLower, ends := endsValue, marker := valueMarker }

theorem utf8Size_toLower (c : Char) : c.toLower.utf8Size = c.utf8Size := by
  by_cases hascii : c.toNat < 128
  · exact forall_ascii (P := fun c => c.toLower.utf8Size = c.utf8Size) (by decide) hascii
  · have hsame : c.toLower = c := by
      refine toLower_of_not_upper ?_
      rintro ⟨-, hle⟩
      have hnat : c.toNat ≤ 'Z'.toNat := hle
      exact hascii (lt_of_le_of_lt hnat (by decide))
    rw [hsame]

theorem byteLen_map_toLower (text : List Char) :
    byteLen (text.map Char.toLower) = byteLen text := by
  induction text with
  | nil => rfl
  | cons c rest ih => rw [List.map_cons, byteLen_cons, byteLen_cons, utf8Size_toLower, ih]

variable {value done rest gap after output needle : List Char} {rounds : Nat}

theorem values_none (hvalue : value = done ++ rest)
    (h : splitAtText needle (rest.map Char.toLower) = none) :
    redactValuesFrom value (value.map Char.toLower) needle (rounds + 1) (byteLen done) output =
      .ok (output ++ rest) := by
  have hlower : value.map Char.toLower = done.map Char.toLower ++ rest.map Char.toLower := by
    rw [hvalue, List.map_append]
  have hrest := sliceFrom_eq hlower
  rw [byteLen_map_toLower] at hrest
  have hfind : findText needle (rest.map Char.toLower) = none := by
    rw [findText, h, Option.map_none]
  rw [redactValuesFrom, hrest, ok_bind]
  simp only [hfind, sliceFrom_eq hvalue, ok_bind]
  rfl

theorem values_some {shown word hidden : List Char} (hvalue : value = done ++ rest)
    (hrest : rest = shown ++ word ++ hidden) (hword : word.map Char.toLower = needle)
    (h : splitAtText needle (rest.map Char.toLower) = some (shown.map Char.toLower, after)) :
    redactValuesFrom value (value.map Char.toLower) needle (rounds + 1) (byteLen done) output =
      redactValuesFrom value (value.map Char.toLower) needle rounds
        (byteLen (done ++ shown ++ word ++ hidden.takeWhile fun ch => !endsValue ch))
        (output ++ (shown ++ word) ++ valueMarker) := by
  have hlower : value.map Char.toLower = done.map Char.toLower ++ rest.map Char.toLower := by
    rw [hvalue, List.map_append]
  have hslice := sliceFrom_eq hlower
  rw [byteLen_map_toLower] at hslice
  have hfind : findText needle (rest.map Char.toLower) = some (byteLen shown) := by
    rw [findText, h, Option.map_some, byteLen_map_toLower]
  have hstart : byteLen done + byteLen shown + byteLen needle = byteLen (done ++ shown ++ word) := by
    rw [byteLen_append, byteLen_append, ← hword, byteLen_map_toLower]
  have hwhole : value = done ++ shown ++ word ++ hidden := by
    rw [hvalue, hrest]
    simp only [List.append_assoc]
  have hlength : byteLen value = byteLen (done ++ shown ++ word) + byteLen hidden := by
    rw [hwhole, byteLen_append]
  have hend : ((findChar endsValue hidden).map (byteLen (done ++ shown ++ word) + ·)).getD
      (byteLen value) = byteLen (done ++ shown ++ word ++
        hidden.takeWhile fun ch => !endsValue ch) := by
    rw [findChar_getD hlength, byteLen_append (done ++ shown ++ word)]
  have hkept : slice value (byteLen done) (byteLen (done ++ shown ++ word)) =
      .ok (shown ++ word) := by
    have hcut : value = done ++ (shown ++ word) ++ hidden := by
      simpa only [List.append_assoc] using hwhole
    rw [List.append_assoc, byteLen_append]
    exact slice_eq hcut
  rw [redactValuesFrom, hslice, ok_bind]
  simp only [hfind, hstart, sliceFrom_eq hwhole, ok_bind, hend, hkept]

theorem not_infix_before {shown word : List Char} {last : Char}
    (h : splitAtText ((word ++ [last]).map Char.toLower) (rest.map Char.toLower) =
      some (shown.map Char.toLower, after)) :
    ¬ (word ++ [last]).map Char.toLower <:+: (shown ++ word).map Char.toLower := by
  rintro ⟨front, back, hinfix⟩
  have hlength := congrArg List.length hinfix
  simp only [List.length_append, List.length_map, List.length_singleton] at hlength
  have hwhole : front ++ ((word ++ [last]).map Char.toLower ++ back ++ [last.toLower] ++ after) =
      shown.map Char.toLower ++ (word ++ [last]).map Char.toLower ++ after := by
    rw [← List.append_assoc, ← List.append_assoc, ← List.append_assoc, hinfix]
    simp
  refine not_prefix_of_splitAtText h hwhole ?_ ?_
  · rw [List.length_map]
    omega
  · rw [List.append_assoc, List.append_assoc]
    exact List.prefix_append _ _

theorem redactValuesFrom_eq (hvalue : value = done ++ rest)
    (hseparate : Separate secretReading [needle]) (hrounds : rest.length < rounds) :
    redactValuesFrom value (value.map Char.toLower) needle rounds (byteLen done) output =
      .ok (output ++ hideValues secretReading [needle] rest) := by
  induction rounds generalizing done rest output with
  | zero => exact absurd hrounds (Nat.not_lt_zero _)
  | succ rounds ih =>
      cases h : splitAtText needle (rest.map Char.toLower) with
      | none =>
          have hnone : ∀ other ∈ [needle], ¬ other <:+: rest.map secretReading.norm := by
            intro other hother
            rw [List.mem_singleton.mp hother]
            exact splitAtText_eq_none h
          rw [values_none hvalue h, hideValues_of_not_within hnone]
      | some cut =>
          obtain ⟨gap, after⟩ := cut
          obtain ⟨front, hidden, hrest, hfront, -⟩ := List.map_eq_append_iff.mp (splitAtText_eq h)
          obtain ⟨shown, word, rfl, rfl, hword⟩ := List.map_eq_append_iff.mp hfront
          have hwordne : word ≠ [] := by
            rintro rfl
            exact (hseparate.words needle (List.mem_singleton_self _)).1 hword.symm
          obtain ⟨body, last, rfl⟩ := (List.eq_nil_or_concat word).resolve_left hwordne
          rw [List.concat_eq_append] at hrest hword
          subst hword
          have hfirst : hideValues secretReading [(body ++ [last]).map Char.toLower] rest =
              shown ++ body ++ last :: (valueMarker ++
                hideValues secretReading [(body ++ [last]).map Char.toLower]
                  (hidden.dropWhile fun ch => !endsValue ch)) := by
            have hsplit : rest = shown ++ body ++ last :: hidden := by
              rw [hrest]
              simp
            have hnone := not_infix_before h
            rw [hsplit, hideValues_first hseparate ?_ (List.mem_singleton_self _) ?_,
              hideFrom_none]
            · rfl
            · intro other hother
              rw [List.mem_singleton.mp hother]
              exact hnone
            · exact ⟨shown.map Char.toLower, by simp [secretReading]⟩
          have hvalue' : value = done ++ shown ++ (body ++ [last]) ++
              hidden.takeWhile (fun ch => !endsValue ch) ++
                hidden.dropWhile fun ch => !endsValue ch := by
            rw [List.append_assoc _ (hidden.takeWhile _), List.takeWhile_append_dropWhile, hvalue,
              hrest]
            simp only [List.append_assoc]
          have hshorter : (hidden.dropWhile fun ch => !endsValue ch).length < rounds := by
            have hle := (List.dropWhile_suffix (l := hidden) fun ch => !endsValue ch).length_le
            have hlength := congrArg List.length hrest
            simp only [List.length_append, List.length_singleton] at hlength
            omega
          rw [values_some hvalue hrest rfl h, ih hvalue' hshorter, hfirst]
          simp

end Values

def secretNeedles : List (List Char) :=
  secretKeys.map fun key => key ++ ['=']

theorem separate_secretNeedles : Separate secretReading secretNeedles := by
  refine ⟨?_, forall_mem_of_all (by decide), forall_mem_of_all (by decide)⟩
  intro needle hneedle
  have hne : ∀ needle ∈ secretNeedles, needle ≠ [] := by decide
  have hends : ∀ needle ∈ secretNeedles,
      ∀ c ∈ ['&', ' ', '\n', '\r', '\t', '"', '\'', '<', '>'], c.toLower ∉ needle := by
    intro needle hneedle
    exact forall_mem_of_all (by decide +revert +kernel)
  refine ⟨hne needle hneedle, ?_⟩
  intro c hc
  by_contra htrue
  exact hends needle hneedle c (of_decide_eq_true (Bool.eq_true_of_not_eq_false htrue)) hc

theorem redactQueryLikeSecret_eq {key : List Char} (hkey : key ++ ['='] ∈ secretNeedles)
    (value : List Char) : redactQueryLikeSecret value key =
      .ok (hideValues secretReading [key ++ ['=']] value) := by
  have hseparate : Separate secretReading [key ++ ['=']] :=
    separate_secretNeedles.of_subset (by simpa using hkey)
  have hrun : redactValuesFrom value (value.map Char.toLower) (key ++ ['=']) (value.length + 1)
      (byteLen []) [] = .ok ([] ++ hideValues secretReading [key ++ ['=']] value) :=
    redactValuesFrom_eq rfl hseparate (Nat.lt_succ_self _)
  exact hrun

theorem foldlM_redactQueryLikeSecret {keys : List (List Char)}
    (hkeys : ∀ key ∈ keys, key ++ ['='] ∈ secretNeedles) (value : List Char) :
    keys.foldlM redactQueryLikeSecret value =
      .ok ((keys.map fun key => key ++ ['=']).foldl
        (fun shown needle => hideValues secretReading [needle] shown) value) := by
  induction keys generalizing value with
  | nil => rfl
  | cons key rest ih =>
      rw [List.forall_mem_cons] at hkeys
      rw [List.foldlM_cons, redactQueryLikeSecret_eq hkeys.1, ok_bind, ih hkeys.2]
      rfl

def hideSecrets (text : List Char) : List Char :=
  hideValues secretReading secretNeedles (hideUserinfo text)

theorem redactDeviceEvidenceText_eq (value : String) :
    redactDeviceEvidenceText value =
      if (schemeFronts value.toList).all clearFront = true then
        .ok (String.ofList (hideSecrets value.toList))
      else .error .panicked := by
  have hkeys : ∀ key ∈ secretKeys, key ++ ['='] ∈ secretNeedles :=
    fun key hkey => List.mem_map_of_mem hkey
  rw [redactDeviceEvidenceText, redactDeviceEvidenceUrlUserinfo_eq]
  split_ifs
  · rw [ok_bind, foldlM_redactQueryLikeSecret hkeys, ok_bind]
    change Except.ok (String.ofList (secretNeedles.foldl _ _)) = _
    rw [foldl_hideValues separate_secretNeedles]
    rfl
  · rfl

theorem text_ok {value : String} (h : SchemesClear value.toList) :
    redactDeviceEvidenceText value = .ok (String.ofList (hideSecrets value.toList)) := by
  rw [redactDeviceEvidenceText_eq, if_pos (List.all_eq_true.mpr h)]

theorem text_panics {value : String} (h : ¬ SchemesClear value.toList) :
    redactDeviceEvidenceText value = .error .panicked := by
  rw [redactDeviceEvidenceText_eq, if_neg fun hall => h (List.all_eq_true.mp hall)]

mutual

def AllTexts (p : String → Prop) : Value → Prop
  | .object fields => AllTextsFields p fields
  | .array items => AllTextsItems p items
  | .string text => p text
  | _ => True

def AllTextsItems (p : String → Prop) : List Value → Prop
  | [] => True
  | item :: rest => AllTexts p item ∧ AllTextsItems p rest

def AllTextsFields (p : String → Prop) : Fields → Prop
  | [] => True
  | (key, value) :: rest =>
      (isSecretLikeKey key = false → AllTexts p value) ∧ AllTextsFields p rest

end

mutual

def hideTexts (change : String → String) : Value → Value
  | .object fields => .object (hideTextsFields change fields)
  | .array items => .array (hideTextsItems change items)
  | .string text => .string (change text)
  | other => other

def hideTextsItems (change : String → String) : List Value → List Value
  | [] => []
  | item :: rest => hideTexts change item :: hideTextsItems change rest

def hideTextsFields (change : String → String) : Fields → Fields
  | [] => []
  | (key, value) :: rest =>
      (key, if isSecretLikeKey key then .string "redacted" else hideTexts change value) ::
        hideTextsFields change rest

end

def hideText (text : String) : String :=
  String.ofList (hideSecrets text.toList)

def ValueClear (value : Value) : Prop :=
  AllTexts (fun text => SchemesClear text.toList) value

mutual

theorem value_ok : ∀ value : Value, ValueClear value →
    redactDeviceEvidenceValue value = .ok (hideTexts hideText value)
  | .object fields, h => by
      rw [redactDeviceEvidenceValue, fields_ok fields h, ok_bind, hideTexts]
      rfl
  | .array items, h => by
      rw [redactDeviceEvidenceValue, items_ok items h, ok_bind, hideTexts]
      rfl
  | .string text, h => by
      rw [redactDeviceEvidenceValue, text_ok h, ok_bind, hideTexts]
      rfl
  | .null, _ => rfl
  | .bool _, _ => rfl
  | .number _, _ => rfl

theorem items_ok : ∀ items : List Value,
    AllTextsItems (fun text => SchemesClear text.toList) items →
      redactDeviceEvidenceItems items = .ok (hideTextsItems hideText items)
  | [], _ => rfl
  | item :: rest, h => by
      rw [AllTextsItems] at h
      rw [redactDeviceEvidenceItems, value_ok item h.1, ok_bind, items_ok rest h.2, ok_bind,
        hideTextsItems]
      rfl

theorem fields_ok : ∀ fields : Fields,
    AllTextsFields (fun text => SchemesClear text.toList) fields →
      redactDeviceEvidenceFields fields = .ok (hideTextsFields hideText fields)
  | [], _ => rfl
  | (key, value) :: rest, h => by
      rw [AllTextsFields] at h
      rw [redactDeviceEvidenceFields, hideTextsFields, fields_ok rest h.2]
      by_cases hkey : isSecretLikeKey key = true
      · simp only [if_pos hkey, ok_bind]
        rfl
      · simp only [if_neg hkey, value_ok value (h.1 (Bool.eq_false_iff.mpr hkey)), ok_bind]
        rfl

end

mutual

theorem value_panics : ∀ value : Value, ¬ ValueClear value →
    redactDeviceEvidenceValue value = .error .panicked
  | .object fields, h => by
      rw [redactDeviceEvidenceValue, fields_panic fields h, error_bind]
  | .array items, h => by
      rw [redactDeviceEvidenceValue, items_panic items h, error_bind]
  | .string text, h => by
      rw [redactDeviceEvidenceValue, text_panics h, error_bind]
  | .null, h => absurd trivial h
  | .bool _, h => absurd trivial h
  | .number _, h => absurd trivial h

theorem items_panic : ∀ items : List Value,
    ¬ AllTextsItems (fun text => SchemesClear text.toList) items →
      redactDeviceEvidenceItems items = .error .panicked
  | [], h => absurd trivial h
  | item :: rest, h => by
      rw [AllTextsItems] at h
      rw [redactDeviceEvidenceItems]
      by_cases hitem : ValueClear item
      · rw [value_ok item hitem, ok_bind, items_panic rest fun hrest => h ⟨hitem, hrest⟩,
          error_bind]
      · rw [value_panics item hitem, error_bind]

theorem fields_panic : ∀ fields : Fields,
    ¬ AllTextsFields (fun text => SchemesClear text.toList) fields →
      redactDeviceEvidenceFields fields = .error .panicked
  | [], h => absurd trivial h
  | (key, value) :: rest, h => by
      rw [AllTextsFields] at h
      rw [redactDeviceEvidenceFields]
      by_cases hkey : isSecretLikeKey key = true
      · have hrest := fields_panic rest fun hrest =>
          h ⟨fun hfalse => absurd hkey (Bool.eq_false_iff.mp hfalse), hrest⟩
        simp only [if_pos hkey, ok_bind, hrest, error_bind]
      · by_cases hvalue : ValueClear value
        · have hrest := fields_panic rest fun hrest => h ⟨fun _ => hvalue, hrest⟩
          simp only [if_neg hkey, value_ok value hvalue, ok_bind, hrest, error_bind]
        · simp only [if_neg hkey, value_panics value hvalue, error_bind]

end

/-- A record whose redaction does not panic. -/
def RecordClear (record : DeviceEvidenceRecord) : Prop :=
  SchemesClear (trim record.summary).toList ∧ ValueClear record.details

variable {records : List DeviceEvidenceRecord} {record : DeviceEvidenceRecord}

theorem record_ok (h : RecordClear record) :
    ∃ kept, sanitizeDeviceEvidenceRecord record = .ok kept := by
  rw [sanitizeDeviceEvidenceRecord, text_ok h.1, ok_bind, value_ok _ h.2, ok_bind]
  dsimp only
  split_ifs
  · exact ⟨_, rfl⟩
  · exact ⟨_, rfl⟩

theorem record_panics (h : ¬ RecordClear record) :
    sanitizeDeviceEvidenceRecord record = .error .panicked := by
  rw [sanitizeDeviceEvidenceRecord]
  by_cases hsummary : SchemesClear (trim record.summary).toList
  · rw [text_ok hsummary, ok_bind, value_panics _ fun hdetails => h ⟨hsummary, hdetails⟩,
      error_bind]
  · rw [text_panics hsummary, error_bind]

theorem records_ok (h : ∀ record ∈ records, RecordClear record) :
    ∃ kept, sanitizeDeviceEvidenceRecords records = .ok kept := by
  induction records with
  | nil => exact ⟨[], rfl⟩
  | cons record rest ih =>
      rw [List.forall_mem_cons] at h
      obtain ⟨first, hfirst⟩ := record_ok h.1
      obtain ⟨others, hothers⟩ := ih h.2
      rw [sanitizeDeviceEvidenceRecords, hfirst, ok_bind, hothers, ok_bind]
      exact ⟨_, rfl⟩

theorem records_panic (h : ¬ ∀ record ∈ records, RecordClear record) :
    sanitizeDeviceEvidenceRecords records = .error .panicked := by
  induction records with
  | nil => exact absurd (List.forall_mem_nil _) h
  | cons record rest ih =>
      rw [sanitizeDeviceEvidenceRecords]
      by_cases hrecord : RecordClear record
      · obtain ⟨first, hfirst⟩ := record_ok hrecord
        rw [hfirst, ok_bind, ih fun hrest => h (List.forall_mem_cons.mpr ⟨hrecord, hrest⟩),
          error_bind]
      · rw [record_panics hrecord, error_bind]

/-- A computation that ends, with a result exactly under a condition and with a panic
otherwise. -/
def EndsUnless {α : Type} (run : Except Stop α) (clear : Prop) : Prop :=
  run ≠ .error .unfinished ∧ ((∃ result, run = .ok result) ↔ clear)

theorem endsUnless {α : Type} {run : Except Stop α} {clear : Prop}
    (hok : clear → ∃ result, run = .ok result) (hpanic : ¬ clear → run = .error .panicked) :
    EndsUnless run clear := by
  by_cases h : clear
  · obtain ⟨result, hresult⟩ := hok h
    rw [EndsUnless, hresult]
    exact ⟨by simp, iff_of_true ⟨result, rfl⟩ h⟩
  · rw [EndsUnless, hpanic h]
    refine ⟨by simp, iff_of_false ?_ h⟩
    rintro ⟨result, hresult⟩
    cases hresult

/-- The redaction always ends. All of its slices exist, in a text and in the records that are
sanitized when the state is loaded, exactly if no scheme that the scan looks at stands behind a
character of more than one byte. -/
theorem redaction_returns_iff (value : String) (records : List DeviceEvidenceRecord) :
    EndsUnless (redactDeviceEvidenceText value) (SchemesClear value.toList) ∧
      EndsUnless (sanitizeDeviceEvidenceRecords records)
        (∀ record ∈ records, RecordClear record) := by
  refine ⟨?_, ?_⟩
  · exact endsUnless (fun h => ⟨_, text_ok h⟩) text_panics
  · exact endsUnless records_ok records_panic

theorem chinese_address_panics :
    redactDeviceEvidenceText "地址rtsp://camera/stream" = .error .panicked := by
  decide

end HarborBeacon.DeviceEvidence
