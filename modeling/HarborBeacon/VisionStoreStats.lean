import HarborBeacon.VisionEventReads

/-!
The statistics of the vision event store. A store that is not longer than the scan is read as text,
line by line; of a longer one the raw lines of the end are looked at.
-/

namespace HarborBeacon.VisionEvents

open TailScan Text TextEncoding

section Statistics

structure LocalVisionEventStoreStats where
  storeExists : Bool
  fileBytes : Nat
  lineCount : Nat
  lineCountExact : Bool
  bounded : Bool
  scannedBytes : Nat
  largestLineBytes : Nat
  skippedMalformedCount : Nat
  skippedOversizedCount : Nat
  maxLineBytes : Nat
  metadataOnly : Bool
deriving DecidableEq

def emptyStats (storeExists : Bool) (fileBytes : Nat) : LocalVisionEventStoreStats where
  storeExists
  fileBytes
  lineCount := 0
  lineCountExact := decide (fileBytes ≤ maxLocalVisionReverseScanBytes)
  bounded := decide (maxLocalVisionReverseScanBytes < fileBytes)
  scannedBytes := 0
  largestLineBytes := 0
  skippedMalformedCount := 0
  skippedOversizedCount := 0
  maxLineBytes := maxStoredVisionEventLineBytes
  metadataOnly := true

-- whether `serde_json` reads a text as a JSON value
variable (isJson : String → Bool)

def observeTrimmed (stats : LocalVisionEventStoreStats) (trimmed : Bytes) :
    LocalVisionEventStoreStats :=
  if trimmed = [] then stats
  else
    let stats :=
      { stats with
        lineCount := stats.lineCount + 1
        largestLineBytes := max stats.largestLineBytes trimmed.length }
    if maxStoredVisionEventLineBytes < trimmed.length then
      { stats with skippedOversizedCount := stats.skippedOversizedCount + 1 }
    else
      match decodeUtf8 trimmed with
      | none => { stats with skippedMalformedCount := stats.skippedMalformedCount + 1 }
      | some line =>
          if isJson line then stats
          else { stats with skippedMalformedCount := stats.skippedMalformedCount + 1 }

def observeVisionEventStoreStatsLine (stats : LocalVisionEventStoreStats) (rawLine : Bytes) :
    LocalVisionEventStoreStats :=
  observeTrimmed isJson stats (trimAsciiWhitespace rawLine)

def stripCarriageReturn (text : String) : String :=
  String.ofList (stripSuffixChar '\r' text.toList)

/-- What `BufReader::lines` yields, with `none` for a line that is not UTF-8. Line ends are left
out, and so is an empty line at the end. -/
def bufferedLines (file : Bytes) : List (Option String) :=
  let pieces := file.splitOn newline
  let ended := pieces.dropLast.map fun line => (decodeUtf8 line).map stripCarriageReturn
  let last := pieces.getLast?.getD []
  ended ++ if last = [] then [] else [decodeUtf8 last]

def readTextLine (stats : LocalVisionEventStoreStats) :
    Option String → Except String LocalVisionEventStoreStats
  | none => .error "failed to read vision event store: stream did not contain valid UTF-8"
  | some line => .ok (observeVisionEventStoreStatsLine isJson stats (utf8 (trim line)))

def localVisionEventStoreStats (store : Option Bytes) :
    Except String LocalVisionEventStoreStats :=
  match store with
  | none => .ok { emptyStats false 0 with lineCountExact := true, bounded := false }
  | some file =>
      let stats := emptyStats true file.length
      if !stats.bounded then
        (bufferedLines file).foldlM (readTextLine isJson)
          { stats with scannedBytes := file.length }
      else
        let readSize := min file.length maxLocalVisionReverseScanBytes
        let start := file.length - readSize
        let chunk := (file.drop start).take readSize
        let slice := if 0 < start then afterFirst newline chunk else chunk
        .ok ((slice.splitOn newline).foldl (observeVisionEventStoreStatsLine isJson)
          { stats with scannedBytes := readSize })

def rawStats (lines : List Bytes) : LocalVisionEventStoreStats :=
  lines.foldl (observeVisionEventStoreStatsLine isJson) (emptyStats true 0)

structure SameCounts (first second : LocalVisionEventStoreStats) : Prop where
  lines : first.lineCount = second.lineCount
  largest : first.largestLineBytes = second.largestLineBytes
  oversized : first.skippedOversizedCount = second.skippedOversizedCount
  malformed : first.skippedMalformedCount = second.skippedMalformedCount

end Statistics

def isAsciiSpace (c : Char) : Bool :=
  c = ' ' || c = '\t' || c = '\n' || c.toNat = 12 || c = '\r'

def trimCharsBy (p : Char → Bool) (chars : List Char) : List Char :=
  (chars.dropWhile p).rdropWhile p

def trimBy (p : Char → Bool) (text : String) : String :=
  String.ofList (trimCharsBy p text.toList)

def trimAscii (text : String) : String :=
  trimBy isAsciiSpace text

def isJsonSpace (c : Char) : Bool :=
  c = ' ' || c = '\t' || c = '\n' || c = '\r'

def JsonSpaced (isJson : String → Bool) : Prop :=
  ∀ text, isJson text = true → trim text = trimBy isJsonSpace text

theorem isAsciiSpace_iff {c : Char} : isAsciiSpace c = true ↔
    c.toNat = 32 ∨ c.toNat = 9 ∨ c.toNat = 10 ∨ c.toNat = 12 ∨ c.toNat = 13 := by
  simp only [isAsciiSpace, Bool.or_eq_true, decide_eq_true_eq, ← Char.toNat_inj]
  have hcodes : ' '.toNat = 32 ∧ '\t'.toNat = 9 ∧ '\n'.toNat = 10 ∧ '\r'.toNat = 13 := by decide
  rw [hcodes.1, hcodes.2.1, hcodes.2.2.1, hcodes.2.2.2]
  tauto

theorem isAsciiWhitespace_iff {byte : UInt8} : isAsciiWhitespace byte = true ↔
    byte.toNat = 32 ∨ byte.toNat = 9 ∨ byte.toNat = 10 ∨ byte.toNat = 12 ∨ byte.toNat = 13 := by
  simp only [isAsciiWhitespace, Bool.or_eq_true, decide_eq_true_eq, ← UInt8.toNat_inj]
  have hcodes : (32 : UInt8).toNat = 32 ∧ (9 : UInt8).toNat = 9 ∧ (10 : UInt8).toNat = 10 ∧
      (12 : UInt8).toNat = 12 ∧ (13 : UInt8).toNat = 13 := by decide
  rw [hcodes.1, hcodes.2.1, hcodes.2.2.1, hcodes.2.2.2.1, hcodes.2.2.2.2]
  tauto

theorem isAsciiWhitespace_of_mem {c : Char} {byte : UInt8} (h : byte ∈ String.utf8EncodeChar c) :
    isAsciiWhitespace byte = isAsciiSpace c := by
  rw [Bool.eq_iff_iff, isAsciiWhitespace_iff, isAsciiSpace_iff]
  rcases Nat.lt_or_ge byte.toNat 128 with hbyte | hbyte
  · rw [toNat_of_mem_utf8EncodeChar h hbyte]
  · refine iff_of_false (by omega) ?_
    intro hspace
    -- a character below 128 is encoded as itself
    have hval : c.toNat ≤ 127 := by omega
    simp only [String.utf8EncodeChar, Char.toNat_val, hval, if_true, List.mem_singleton] at h
    rw [h, UInt8.toNat_ofNat'] at hbyte
    omega

theorem trimAsciiWhitespace_utf8 (text : String) :
    trimAsciiWhitespace (utf8 text) = utf8 (trimAscii text) := by
  have hne : ∀ c, String.utf8EncodeChar c ≠ [] := by
    intro c hnil
    have hlength : (String.utf8EncodeChar c).length = 0 := by rw [hnil, List.length_nil]
    rw [String.length_utf8EncodeChar] at hlength
    exact c.utf8Size_pos.ne' hlength
  have htext : utf8 text = text.toList.flatMap String.utf8EncodeChar := by
    rw [← utf8_ofList, String.ofList_toList]
  have hspace : ∀ c, ∀ byte ∈ String.utf8EncodeChar c, isAsciiWhitespace byte = isAsciiSpace c :=
    fun c byte hbyte => isAsciiWhitespace_of_mem hbyte
  rw [trimAsciiWhitespace, htext, dropWhile_flatMap hne hspace, rdropWhile_flatMap hne hspace,
    trimAscii, trimBy, trimCharsBy, utf8_ofList]

section Trims

variable {p q : Char → Bool} {chars core left right : List Char} {isJson : String → Bool}

/-- The characters at the ends are none that would be trimmed. -/
def Edges (p : Char → Bool) (chars : List Char) : Prop :=
  ∀ c, chars.head? = some c ∨ chars.getLast? = some c → p c = false

theorem Edges.mono (h : Edges q chars) (hpq : ∀ c, p c = true → q c = true) : Edges p chars := by
  intro c hc
  by_contra hp
  rw [Bool.not_eq_false] at hp
  exact Bool.false_ne_true ((h c hc).symm.trans (hpq c hp))

theorem trimCharsBy_append (hleft : ∀ c ∈ left, p c = true) (hright : ∀ c ∈ right, p c = true)
    (hcore : Edges p core) : trimCharsBy p (left ++ core ++ right) = core := by
  rw [trimCharsBy, List.append_assoc, List.dropWhile_append_of_pos hleft]
  cases core with
  | nil =>
      rw [List.nil_append, List.dropWhile_eq_nil_iff.mpr hright]
      rfl
  | cons c rest =>
      have hc : ¬ p c = true := by
        rw [hcore c (Or.inl rfl)]
        exact Bool.false_ne_true
      rw [List.cons_append, List.dropWhile_cons_of_neg hc, ← List.cons_append, List.rdropWhile,
        List.reverse_append, List.dropWhile_append_of_pos
          fun c hc => hright c (List.mem_reverse.mp hc), ← List.rdropWhile,
        List.rdropWhile_eq_self_iff]
      intro hne
      rw [hcore _ (Or.inr (List.getLast?_eq_some_getLast hne))]
      exact Bool.false_ne_true

theorem trimCharsBy_of_edges (h : Edges p core) : trimCharsBy p core = core := by
  have hkept : trimCharsBy p ([] ++ core ++ []) = core :=
    trimCharsBy_append (List.forall_mem_nil _) (List.forall_mem_nil _) h
  rwa [List.nil_append, List.append_nil] at hkept

theorem exists_trimmed (p : Char → Bool) (chars : List Char) :
    ∃ left right, chars = left ++ trimCharsBy p chars ++ right ∧ (∀ c ∈ left, p c = true) ∧
      (∀ c ∈ right, p c = true) ∧ Edges p (trimCharsBy p chars) := by
  have hsplit : trimCharsBy p chars ++ (chars.dropWhile p).rtakeWhile p = chars.dropWhile p :=
    List.rdropWhile_append_rtakeWhile
  refine ⟨chars.takeWhile p, (chars.dropWhile p).rtakeWhile p, ?_, ?_, ?_, ?_⟩
  · rw [List.append_assoc, hsplit, List.takeWhile_append_dropWhile]
  · exact fun c hc => List.mem_takeWhile_imp hc
  · exact fun c hc => List.mem_rtakeWhile_imp hc
  · rintro c (hhead | hlast)
    · have hdropped : (chars.dropWhile p).head? = some c := by
        rw [← hsplit, List.head?_append, hhead, Option.some_or]
      have hnot := List.head?_dropWhile_not p chars
      rw [hdropped] at hnot
      exact hnot
    · have hne : trimCharsBy p chars ≠ [] := by
        intro hnil
        rw [hnil] at hlast
        cases hlast
      have hnot := List.rdropWhile_last_not p (chars.dropWhile p) hne
      rw [List.getLast?_eq_some_getLast hne, Option.some.injEq] at hlast
      rw [← hlast]
      exact Bool.eq_false_iff.mpr hnot

theorem trimCharsBy_trimCharsBy (hpq : ∀ c, p c = true → q c = true) :
    trimCharsBy q (trimCharsBy p chars) = trimCharsBy q chars := by
  obtain ⟨left, right, hchars, hleft, hright, -⟩ := exists_trimmed p chars
  generalize trimCharsBy p chars = middle at hchars ⊢
  obtain ⟨left', right', hmiddle, hleft', hright', hedges⟩ := exists_trimmed q middle
  generalize trimCharsBy q middle = core at hmiddle hedges ⊢
  have hwhole : chars = (left ++ left') ++ core ++ (right' ++ right) := by
    rw [hchars, hmiddle]
    simp only [List.append_assoc]
  rw [hwhole, trimCharsBy_append ?_ ?_ hedges]
  · intro c hc
    rcases List.mem_append.mp hc with h | h
    · exact hpq c (hleft c h)
    · exact hleft' c h
  · intro c hc
    rcases List.mem_append.mp hc with h | h
    · exact hright' c h
    · exact hpq c (hright c h)

theorem trim_eq_trimBy (text : String) : trim text = trimBy isWhitespace text := rfl

theorem isWhitespace_of_isAsciiSpace {c : Char} (h : isAsciiSpace c = true) :
    isWhitespace c = true := by
  rw [isAsciiSpace_iff] at h
  simp only [isWhitespace, Bool.or_eq_true, Bool.and_eq_true, decide_eq_true_eq, beq_iff_eq]
  omega

theorem trim_trimAscii (text : String) : trim (trimAscii text) = trim text := by
  rw [trim_eq_trimBy, trim_eq_trimBy, trimBy, trimAscii, trimBy, String.toList_ofList,
    trimCharsBy_trimCharsBy fun c => isWhitespace_of_isAsciiSpace, trimBy]

theorem trimAscii_trim (text : String) : trimAscii (trim text) = trim text := by
  obtain ⟨left, right, -, -, -, hedges⟩ := exists_trimmed isWhitespace text.toList
  rw [trimAscii, trimBy, trim_eq_trimBy, trimBy, String.toList_ofList,
    trimCharsBy_of_edges (hedges.mono fun c => isWhitespace_of_isAsciiSpace)]

theorem trimCharsBy_concat {c : Char} (hc : p c = true) :
    trimCharsBy p (chars ++ [c]) = trimCharsBy p chars := by
  obtain ⟨left, right, hchars, hleft, hright, hedges⟩ := exists_trimmed p chars
  generalize trimCharsBy p chars = core at hchars hedges ⊢
  rw [hchars, List.append_assoc (left ++ core), trimCharsBy_append hleft ?_ hedges]
  intro d hd
  rcases List.mem_append.mp hd with h | h
  · exact hright d h
  · rwa [List.mem_singleton.mp h]

theorem trim_stripCarriageReturn (text : String) : trim (stripCarriageReturn text) = trim text := by
  rw [stripCarriageReturn, stripSuffixChar]
  split
  · rename_i hlast
    obtain ⟨front, hfront⟩ := List.getLast?_eq_some_iff.mp hlast
    rw [trim_eq_trimBy, trim_eq_trimBy, trimBy, trimBy, String.toList_ofList, hfront,
      List.dropLast_concat, trimCharsBy_concat (by decide)]
  · rw [String.ofList_toList]

theorem trim_eq_trimAscii_of_isJson (hspaced : JsonSpaced isJson) {text : String}
    (h : isJson (trimAscii text) = true) : trim text = trimAscii text := by
  obtain ⟨left, right, -, -, -, hedges⟩ := exists_trimmed isAsciiSpace text.toList
  have hjson : ∀ c, isJsonSpace c = true → isAsciiSpace c = true := by
    intro c hc
    simp only [isJsonSpace, isAsciiSpace, Bool.or_eq_true, decide_eq_true_eq] at hc ⊢
    tauto
  rw [← trim_trimAscii, hspaced _ h, trimBy, trimAscii, trimBy, String.toList_ofList,
    trimCharsBy_of_edges (hedges.mono hjson)]

theorem length_trim_le (text : String) :
    (utf8 (trim text)).length ≤ (utf8 (trimAscii text)).length := by
  obtain ⟨left, right, hchars, -, -, -⟩ := exists_trimmed isWhitespace (trimAscii text).toList
  rw [← trim_trimAscii, trim_eq_trimBy, trimBy]
  generalize trimCharsBy isWhitespace (trimAscii text).toList = core at hchars ⊢
  have htext : trimAscii text = String.ofList (left ++ core ++ right) := by
    rw [← hchars, String.ofList_toList]
  rw [htext, utf8_ofList, utf8_ofList, List.flatMap_append, List.flatMap_append,
    List.length_append, List.length_append]
  omega

end Trims

section Counts

variable {isJson : String → Bool} {stats : LocalVisionEventStoreStats}

def isMalformed (isJson : String → Bool) (trimmed : Bytes) : Bool :=
  trimmed ≠ [] && decide (trimmed.length ≤ maxStoredVisionEventLineBytes) &&
    !(decodeUtf8 trimmed).any isJson

theorem observeTrimmed_counts (trimmed : Bytes) :
    (observeTrimmed isJson stats trimmed).lineCount =
        stats.lineCount + (if trimmed ≠ [] then 1 else 0) ∧
      (observeTrimmed isJson stats trimmed).largestLineBytes =
        max stats.largestLineBytes trimmed.length ∧
      (observeTrimmed isJson stats trimmed).skippedOversizedCount =
        stats.skippedOversizedCount +
          (if maxStoredVisionEventLineBytes < trimmed.length then 1 else 0) ∧
      (observeTrimmed isJson stats trimmed).skippedMalformedCount =
        stats.skippedMalformedCount + (if isMalformed isJson trimmed then 1 else 0) := by
  rw [observeTrimmed, isMalformed]
  by_cases hblank : trimmed = []
  · subst hblank
    simp
  · by_cases hlong : maxStoredVisionEventLineBytes < trimmed.length
    · simp [hblank, hlong, Nat.not_le.mpr hlong]
    · cases hline : decodeUtf8 trimmed with
      | none => simp [hblank, hlong, Nat.not_lt.mp hlong]
      | some line => cases hjson : isJson line <;> simp [hblank, hlong, hjson, Nat.not_lt.mp hlong]

theorem foldl_observeTrimmed_counts (lines : List Bytes) :
    (lines.foldl (observeTrimmed isJson) stats).lineCount =
        stats.lineCount + lines.countP (· ≠ []) ∧
      (lines.foldl (observeTrimmed isJson) stats).largestLineBytes =
        lines.foldl (fun longest line => max longest line.length) stats.largestLineBytes ∧
      (lines.foldl (observeTrimmed isJson) stats).skippedOversizedCount =
        stats.skippedOversizedCount +
          lines.countP (fun line => maxStoredVisionEventLineBytes < line.length) ∧
      (lines.foldl (observeTrimmed isJson) stats).skippedMalformedCount =
        stats.skippedMalformedCount + lines.countP (isMalformed isJson) := by
  induction lines generalizing stats with
  | nil => exact ⟨rfl, rfl, rfl, rfl⟩
  | cons line rest ih =>
      obtain ⟨hlines, hlargest, hoversized, hmalformed⟩ :=
        @observeTrimmed_counts isJson stats line
      simp only [List.foldl_cons, List.countP_cons]
      obtain ⟨ihlines, ihlargest, ihoversized, ihmalformed⟩ :=
        @ih (observeTrimmed isJson stats line)
      refine ⟨?_, ?_, ?_, ?_⟩
      · rw [ihlines, hlines]
        simp only [decide_eq_true_eq]
        omega
      · rw [ihlargest, hlargest]
      · rw [ihoversized, hoversized]
        simp only [decide_eq_true_eq]
        omega
      · rw [ihmalformed, hmalformed]
        omega

theorem le_foldl_max_iff {lines : List Bytes} {longest n : Nat} :
    n ≤ lines.foldl (fun longest line => max longest line.length) longest ↔
      n ≤ longest ∨ ∃ line ∈ lines, n ≤ line.length := by
  induction lines generalizing longest with
  | nil => simp
  | cons line rest ih =>
      rw [List.foldl_cons, ih, le_max_iff, List.exists_mem_cons_iff, or_assoc]

theorem countP_eq_countP_iff {α : Type} {p q : α → Bool} {items : List α}
    (h : ∀ a ∈ items, p a = true → q a = true) :
    items.countP p = items.countP q ↔ ∀ a ∈ items, q a = true → p a = true := by
  induction items with
  | nil => simp
  | cons first rest ih =>
      rw [List.forall_mem_cons] at h
      have hle : rest.countP p ≤ rest.countP q := List.countP_mono_left h.2
      rw [List.forall_mem_cons, ← ih h.2, List.countP_cons, List.countP_cons]
      cases hp : p first <;> cases hq : q first
      · simp
      · simp
        omega
      · exact absurd (h.1 hp) (by rw [hq]; exact Bool.false_ne_true)
      · simp

theorem SameCounts.foldl {other : LocalVisionEventStoreStats} (h : SameCounts stats other)
    (lines : List Bytes) : SameCounts (lines.foldl (observeTrimmed isJson) stats)
      (lines.foldl (observeTrimmed isJson) other) := by
  obtain ⟨hlines, hlargest, hoversized, hmalformed⟩ :=
    @foldl_observeTrimmed_counts isJson stats lines
  obtain ⟨hlines', hlargest', hoversized', hmalformed'⟩ :=
    @foldl_observeTrimmed_counts isJson other lines
  refine ⟨?_, ?_, ?_, ?_⟩
  · rw [hlines, hlines', h.lines]
  · rw [hlargest, hlargest', h.largest]
  · rw [hoversized, hoversized', h.oversized]
  · rw [hmalformed, hmalformed', h.malformed]

end Counts

section Agreement

variable {isJson : String → Bool} {stats other : LocalVisionEventStoreStats} {texts : List String}

def countedText (text : String) : Bytes :=
  utf8 (trim text)

def countedRaw (text : String) : Bytes :=
  utf8 (trimAscii text)

/-- A line counts the same with and without the white space that only the text is trimmed of:
there is none, or what it surrounds is oversized, or neither is readable. -/
def LineAgrees (isJson : String → Bool) (text : String) : Prop :=
  countedText text = countedRaw text ∨ (countedText text ≠ [] ∧
    (maxStoredVisionEventLineBytes < (countedText text).length ∨
      ((countedRaw text).length ≤ maxStoredVisionEventLineBytes ∧ isJson (trim text) = false)))

theorem isMalformed_utf8 (text : String) : isMalformed isJson (utf8 text) = true ↔
    utf8 text ≠ [] ∧ (utf8 text).length ≤ maxStoredVisionEventLineBytes ∧
      isJson text = false := by
  rw [isMalformed, decodeUtf8_utf8]
  simp [and_assoc]

theorem raw_of_ne (hspaced : JsonSpaced isJson) {text : String}
    (h : countedText text ≠ countedRaw text) :
    countedRaw text ≠ [] ∧ isJson (trimAscii text) = false := by
  constructor
  · intro hnil
    have hle := length_trim_le text
    rw [show utf8 (trimAscii text) = [] from hnil] at hle
    exact h ((List.length_eq_zero_iff.mp (Nat.le_zero.mp hle)).trans hnil.symm)
  · by_contra hjson
    rw [Bool.not_eq_false] at hjson
    exact h (congrArg utf8 (trim_eq_trimAscii_of_isJson hspaced hjson))

theorem raw_counts (hspaced : JsonSpaced isJson) (text : String) :
    (countedText text ≠ [] → countedRaw text ≠ []) ∧
      (maxStoredVisionEventLineBytes < (countedText text).length →
        maxStoredVisionEventLineBytes < (countedRaw text).length) ∧
      ((maxStoredVisionEventLineBytes < (countedRaw text).length →
          maxStoredVisionEventLineBytes < (countedText text).length) →
        isMalformed isJson (countedText text) = true →
          isMalformed isJson (countedRaw text) = true) := by
  have hle : (countedText text).length ≤ (countedRaw text).length := length_trim_le text
  by_cases hsame : countedText text = countedRaw text
  · rw [hsame]
    exact ⟨id, id, fun _ => id⟩
  · obtain ⟨hraw, hjson⟩ := raw_of_ne hspaced hsame
    refine ⟨fun _ => hraw, fun hlong => hlong.trans_le hle, ?_⟩
    intro hsizes hmalformed
    rw [countedText, isMalformed_utf8] at hmalformed
    rw [countedRaw, isMalformed_utf8]
    refine ⟨hraw, ?_, hjson⟩
    by_contra hlong
    exact absurd hmalformed.2.1 (Nat.not_le.mpr (hsizes (Nat.not_le.mp hlong)))

theorem lineAgrees_iff (hspaced : JsonSpaced isJson) (text : String) : LineAgrees isJson text ↔
    (countedRaw text ≠ [] → countedText text ≠ []) ∧
      (maxStoredVisionEventLineBytes < (countedRaw text).length →
        maxStoredVisionEventLineBytes < (countedText text).length) ∧
      (isMalformed isJson (countedRaw text) = true →
        isMalformed isJson (countedText text) = true) := by
  have hle : (countedText text).length ≤ (countedRaw text).length := length_trim_le text
  rw [LineAgrees]
  by_cases hsame : countedText text = countedRaw text
  · rw [hsame]
    exact iff_of_true (Or.inl rfl) ⟨id, id, id⟩
  · obtain ⟨hraw, hjson⟩ := raw_of_ne hspaced hsame
    rw [or_iff_right hsame]
    constructor
    · rintro ⟨hkept, hlong | ⟨hshort, hunread⟩⟩
      · refine ⟨fun _ => hkept, fun _ => hlong, ?_⟩
        intro hmalformed
        rw [countedRaw, isMalformed_utf8] at hmalformed
        exact absurd hmalformed.2.1 (Nat.not_le.mpr (hlong.trans_le hle))
      · refine ⟨fun _ => hkept, fun hlong => absurd hlong (Nat.not_lt.mpr hshort), ?_⟩
        intro _
        rw [countedText, isMalformed_utf8]
        exact ⟨hkept, hle.trans hshort, hunread⟩
    · rintro ⟨hkept, hlong, hunread⟩
      refine ⟨hkept hraw, ?_⟩
      rcases Nat.lt_or_ge maxStoredVisionEventLineBytes (countedRaw text).length with h | h
      · exact Or.inl (hlong h)
      · have hmalformed : isMalformed isJson (countedRaw text) = true := by
          rw [countedRaw, isMalformed_utf8]
          exact ⟨hraw, h, hjson⟩
        have htext := hunread hmalformed
        rw [countedText, isMalformed_utf8] at htext
        exact Or.inr ⟨h, htext.2.2⟩

theorem countP_counted_iff {p : Bytes → Bool}
    (h : ∀ text ∈ texts, p (countedText text) = true → p (countedRaw text) = true) :
    (texts.map countedText).countP p = (texts.map countedRaw).countP p ↔
      ∀ text ∈ texts, p (countedRaw text) = true → p (countedText text) = true := by
  rw [List.countP_map, List.countP_map]
  exact countP_eq_countP_iff h

theorem largest_counted_iff :
    (texts.map countedText).foldl (fun longest line => max longest line.length) 0 =
        (texts.map countedRaw).foldl (fun longest line => max longest line.length) 0 ↔
      ∀ text ∈ texts, ∃ longer ∈ texts,
        (countedRaw text).length ≤ (countedText longer).length := by
  constructor
  · intro hequal text htext
    have hle : (countedRaw text).length ≤
        (texts.map countedRaw).foldl (fun longest line => max longest line.length) 0 :=
      le_foldl_max_iff.mpr (Or.inr ⟨_, List.mem_map_of_mem htext, Nat.le_refl _⟩)
    rw [← hequal] at hle
    rcases le_foldl_max_iff.mp hle with hzero | ⟨line, hline, hlonger⟩
    · exact ⟨text, htext, hzero.trans (Nat.zero_le _)⟩
    · obtain ⟨longer, hmem, rfl⟩ := List.mem_map.mp hline
      exact ⟨longer, hmem, hlonger⟩
  · intro hlonger
    apply Nat.le_antisymm
    · rcases le_foldl_max_iff.mp (Nat.le_refl ((texts.map countedText).foldl
        (fun longest line => max longest line.length) 0)) with hzero | ⟨line, hline, hle⟩
      · exact hzero.trans (Nat.zero_le _)
      · obtain ⟨text, htext, rfl⟩ := List.mem_map.mp hline
        exact le_foldl_max_iff.mpr (Or.inr ⟨_, List.mem_map_of_mem htext,
          hle.trans (length_trim_le text)⟩)
    · rcases le_foldl_max_iff.mp (Nat.le_refl ((texts.map countedRaw).foldl
        (fun longest line => max longest line.length) 0)) with hzero | ⟨line, hline, hle⟩
      · exact hzero.trans (Nat.zero_le _)
      · obtain ⟨text, htext, rfl⟩ := List.mem_map.mp hline
        obtain ⟨longer, hmem, hlength⟩ := hlonger text htext
        exact le_foldl_max_iff.mpr (Or.inr ⟨_, List.mem_map_of_mem hmem, hle.trans hlength⟩)

/-- The two ways of trimming give the same counts exactly if every line counts the same and the
longest line is as long. -/
theorem sameCounts_iff (hspaced : JsonSpaced isJson) (hstart : SameCounts stats other)
    (hzero : other.largestLineBytes = 0) (texts : List String) :
    SameCounts ((texts.map countedText).foldl (observeTrimmed isJson) stats)
        ((texts.map countedRaw).foldl (observeTrimmed isJson) other) ↔
      (∀ text ∈ texts, LineAgrees isJson text) ∧ ∀ text ∈ texts, ∃ longer ∈ texts,
        (countedRaw text).length ≤ (countedText longer).length := by
  obtain ⟨hlines, hlargest, hoversized, hmalformed⟩ :=
    @foldl_observeTrimmed_counts isJson stats (texts.map countedText)
  obtain ⟨hlines', hlargest', hoversized', hmalformed'⟩ :=
    @foldl_observeTrimmed_counts isJson other (texts.map countedRaw)
  rw [hstart.lines] at hlines
  rw [hstart.largest, hzero] at hlargest
  rw [hzero] at hlargest'
  rw [hstart.oversized] at hoversized
  rw [hstart.malformed] at hmalformed
  have hlinesIff : (texts.map countedText).countP (· ≠ []) = (texts.map countedRaw).countP (· ≠ []) ↔
      ∀ text ∈ texts, countedRaw text ≠ [] → countedText text ≠ [] := by
    rw [countP_counted_iff]
    · simp only [decide_eq_true_eq]
    · exact fun text _ h => decide_eq_true ((raw_counts hspaced text).1 (of_decide_eq_true h))
  have hoversizedIff : (texts.map countedText).countP
        (fun line => maxStoredVisionEventLineBytes < line.length) =
      (texts.map countedRaw).countP (fun line => maxStoredVisionEventLineBytes < line.length) ↔
      ∀ text ∈ texts, maxStoredVisionEventLineBytes < (countedRaw text).length →
        maxStoredVisionEventLineBytes < (countedText text).length := by
    rw [countP_counted_iff]
    · simp only [decide_eq_true_eq]
    · exact fun text _ h => decide_eq_true ((raw_counts hspaced text).2.1 (of_decide_eq_true h))
  have hmalformedIff (hsizes : ∀ text ∈ texts,
      maxStoredVisionEventLineBytes < (countedRaw text).length →
        maxStoredVisionEventLineBytes < (countedText text).length) :
      (texts.map countedText).countP (isMalformed isJson) =
        (texts.map countedRaw).countP (isMalformed isJson) ↔
      ∀ text ∈ texts, isMalformed isJson (countedRaw text) = true →
        isMalformed isJson (countedText text) = true :=
    countP_counted_iff fun text htext => (raw_counts hspaced text).2.2 (hsizes text htext)
  constructor
  · intro h
    have hkept := hlinesIff.mp (by
      have := h.lines
      omega)
    have hsizes := hoversizedIff.mp (by
      have := h.oversized
      omega)
    have hunread := (hmalformedIff hsizes).mp (by
      have := h.malformed
      omega)
    refine ⟨?_, ?_⟩
    · exact fun text htext => (lineAgrees_iff hspaced text).mpr
        ⟨hkept text htext, hsizes text htext, hunread text htext⟩
    · rw [← largest_counted_iff, ← hlargest, ← hlargest']
      exact h.largest
  · rintro ⟨hagrees, hlonger⟩
    have hparts := fun text htext => (lineAgrees_iff hspaced text).mp (hagrees text htext)
    have hsizes := fun text htext => (hparts text htext).2.1
    refine ⟨?_, ?_, ?_, ?_⟩
    · rw [hlines, hlines', hlinesIff.mpr fun text htext => (hparts text htext).1]
    · rw [hlargest, hlargest', largest_counted_iff.mpr hlonger]
    · rw [hoversized, hoversized', hoversizedIff.mpr hsizes]
    · rw [hmalformed, hmalformed',
        (hmalformedIff hsizes).mpr fun text htext => (hparts text htext).2.2]

end Agreement

section Reading

variable {isJson : String → Bool} {stats : LocalVisionEventStoreStats} {file : Bytes}
  {lines : List (Option String)}

theorem utf8_of_decodeUtf8 {bytes : Bytes} {text : String} (h : decodeUtf8 bytes = some text) :
    utf8 text = bytes := by
  rw [decodeUtf8, String.fromUTF8?] at h
  split at h
  · rw [← Option.some.inj h]
    rfl
  · cases h

def ReadsAlike (isJson : String → Bool) (file : Bytes) : Prop :=
  ∃ texts : List String, (file.splitOn newline).map decodeUtf8 = texts.map some ∧
    (∀ text ∈ texts, LineAgrees isJson text) ∧
    ∀ text ∈ texts, ∃ longer ∈ texts, (countedRaw text).length ≤ (countedText longer).length

/-- The scan of a longer store does not begin with a whole line that counts. -/
def StartsInsideLine (file : Bytes) : Prop :=
  file[file.length - maxLocalVisionReverseScanBytes - 1]? ≠ some newline ∨
    trimAsciiWhitespace (((file.drop (file.length - maxLocalVisionReverseScanBytes)).splitOn
      newline).head?.getD []) = []

theorem foldlM_texts (texts : List String) :
    (texts.map some).foldlM (readTextLine isJson) stats =
      .ok ((texts.map countedText).foldl (observeTrimmed isJson) stats) := by
  induction texts generalizing stats with
  | nil => rfl
  | cons text rest ih =>
      have hstep : readTextLine isJson stats (some text) =
          .ok (observeTrimmed isJson stats (countedText text)) := by
        rw [readTextLine, observeVisionEventStoreStatsLine, trimAsciiWhitespace_utf8,
          trimAscii_trim]
        rfl
      rw [List.map_cons, List.foldlM_cons, hstep, List.map_cons, List.foldl_cons, ← ih]
      rfl

theorem foldlM_of_none_mem (h : none ∈ lines) :
    ∃ message, lines.foldlM (readTextLine isJson) stats = .error message := by
  induction lines generalizing stats with
  | nil => cases h
  | cons line rest ih =>
      rw [List.foldlM_cons]
      cases line with
      | none => exact ⟨_, rfl⟩
      | some text => exact ih ((List.mem_cons.mp h).resolve_left nofun)

theorem exists_pieces (file : Bytes) :
    ∃ ended last, file.splitOn newline = ended ++ [last] :=
  ⟨_, _, (List.dropLast_append_getLast (List.splitOn_ne_nil newline file)).symm⟩

theorem bufferedLines_eq {ended : List Bytes} {last : Bytes}
    (hpieces : file.splitOn newline = ended ++ [last]) : bufferedLines file =
      (ended.map fun line => (decodeUtf8 line).map stripCarriageReturn) ++
        if last = [] then [] else [decodeUtf8 last] := by
  rw [bufferedLines, hpieces]
  simp only [List.dropLast_concat, List.getLast?_concat, Option.getD_some]

theorem decodeUtf8_nil : decodeUtf8 [] = some "" :=
  decodeUtf8_utf8 ""

theorem foldlM_bufferedLines {texts : List String}
    (htexts : (file.splitOn newline).map decodeUtf8 = texts.map some) :
    (bufferedLines file).foldlM (readTextLine isJson) stats =
      .ok ((texts.map countedText).foldl (observeTrimmed isJson) stats) := by
  obtain ⟨ended, last, hpieces⟩ := exists_pieces file
  rw [hpieces, List.map_append, List.map_singleton] at htexts
  obtain ⟨front, back, rfl, hfront, hback⟩ := List.map_eq_append_iff.mp htexts.symm
  obtain ⟨lastText, rfl, hlast⟩ := List.map_eq_singleton_iff.mp hback
  have hended : (ended.map fun line => (decodeUtf8 line).map stripCarriageReturn) =
      (front.map stripCarriageReturn).map some := by
    calc
      (ended.map fun line => (decodeUtf8 line).map stripCarriageReturn) =
          (ended.map decodeUtf8).map (Option.map stripCarriageReturn) := by
        rw [List.map_map]
        rfl
      _ = (front.map some).map (Option.map stripCarriageReturn) := by rw [hfront]
      _ = (front.map stripCarriageReturn).map some := by
          rw [List.map_map, List.map_map]
          rfl
  have hcounted : (front.map stripCarriageReturn).map countedText = front.map countedText := by
    rw [List.map_map]
    exact List.map_congr_left fun text _ => congrArg utf8 (trim_stripCarriageReturn text)
  rw [bufferedLines_eq hpieces, hended, ← hlast]
  by_cases hempty : last = []
  · -- an empty line at the end is left out, and it would not count
    rw [hempty, decodeUtf8_nil] at hlast
    rw [if_pos hempty, List.append_nil, foldlM_texts, hcounted, Option.some.inj hlast,
      List.map_append, List.foldl_append]
    rfl
  · have hlines : (front.map stripCarriageReturn).map some ++ [some lastText] =
        (front.map stripCarriageReturn ++ [lastText]).map some := by
      rw [List.map_append, List.map_singleton]
    rw [if_neg hempty, hlines, foldlM_texts, List.map_append, hcounted, ← List.map_append]

theorem none_mem_bufferedLines (h : none ∈ (file.splitOn newline).map decodeUtf8) :
    none ∈ bufferedLines file := by
  obtain ⟨ended, last, hpieces⟩ := exists_pieces file
  rw [bufferedLines_eq hpieces, List.mem_append]
  rw [hpieces, List.map_append, List.map_singleton, List.mem_append, List.mem_singleton] at h
  rcases h with hended | hlast
  · left
    obtain ⟨line, hline, hnone⟩ := List.mem_map.mp hended
    refine List.mem_map.mpr ⟨line, hline, ?_⟩
    rw [hnone]
    rfl
  · right
    have hne : last ≠ [] := by
      rintro rfl
      rw [decodeUtf8_nil] at hlast
      cases hlast
    rw [if_neg hne, hlast]
    exact List.mem_singleton_self _

theorem foldl_observe (lines : List Bytes) :
    lines.foldl (observeVisionEventStoreStatsLine isJson) stats =
      (lines.map trimAsciiWhitespace).foldl (observeTrimmed isJson) stats := by
  rw [List.foldl_map]
  rfl

theorem rawStats_of_texts {texts : List String}
    (htexts : (file.splitOn newline).map decodeUtf8 = texts.map some) :
    rawStats isJson (file.splitOn newline) =
      (texts.map countedRaw).foldl (observeTrimmed isJson) (emptyStats true 0) := by
  have hpieces : file.splitOn newline = texts.map utf8 := by
    generalize file.splitOn newline = pieces at htexts
    induction pieces generalizing texts with
    | nil =>
        rw [List.map_nil] at htexts
        rw [List.map_eq_nil_iff.mp htexts.symm, List.map_nil]
    | cons piece rest ih =>
        obtain ⟨text, others, rfl, htext, hothers⟩ := List.map_eq_cons_iff.mp htexts.symm
        rw [List.map_cons, utf8_of_decodeUtf8 htext.symm, ← ih hothers.symm]
  have hcounted : (texts.map utf8).map trimAsciiWhitespace = texts.map countedRaw := by
    rw [List.map_map]
    exact List.map_congr_left fun text _ => trimAsciiWhitespace_utf8 text
  rw [rawStats, hpieces, foldl_observe, hcounted]

theorem exists_map_some (h : none ∉ lines) :
    ∃ texts : List String, lines = texts.map some := by
  induction lines with
  | nil => exact ⟨[], rfl⟩
  | cons line rest ih =>
      rw [List.mem_cons, not_or] at h
      obtain ⟨text, rfl⟩ := Option.ne_none_iff_exists'.mp (Ne.symm h.1)
      obtain ⟨texts, rfl⟩ := ih h.2
      exact ⟨text :: texts, rfl⟩

theorem stats_of_short (hspaced : JsonSpaced isJson)
    (hshort : file.length ≤ maxLocalVisionReverseScanBytes) :
    (∃ stats, localVisionEventStoreStats isJson (some file) = .ok stats ∧
      SameCounts stats (rawStats isJson (file.splitOn newline))) ↔ ReadsAlike isJson file := by
  have hread : localVisionEventStoreStats isJson (some file) =
      (bufferedLines file).foldlM (readTextLine isJson)
        { emptyStats true file.length with scannedBytes := file.length } := by
    have hbounded : (emptyStats true file.length).bounded = false :=
      decide_eq_false (Nat.not_lt.mpr hshort)
    exact if_pos (by rw [hbounded, Bool.not_false])
  by_cases hnone : none ∈ (file.splitOn newline).map decodeUtf8
  · refine iff_of_false ?_ ?_
    · rintro ⟨stats, hstats, -⟩
      obtain ⟨message, herror⟩ := @foldlM_of_none_mem isJson
        { emptyStats true file.length with scannedBytes := file.length } _
        (none_mem_bufferedLines hnone)
      rw [hread, herror] at hstats
      cases hstats
    · rintro ⟨texts, htexts, -⟩
      rw [htexts] at hnone
      obtain ⟨text, -, hsome⟩ := List.mem_map.mp hnone
      cases hsome
  · obtain ⟨texts, htexts⟩ : ∃ texts : List String,
        (file.splitOn newline).map decodeUtf8 = texts.map some := exists_map_some hnone
    have hstart : SameCounts { emptyStats true file.length with scannedBytes := file.length }
        (emptyStats true 0) := ⟨rfl, rfl, rfl, rfl⟩
    rw [hread, foldlM_bufferedLines htexts, rawStats_of_texts htexts]
    constructor
    · rintro ⟨stats, hstats, hsame⟩
      rw [← Except.ok.inj hstats] at hsame
      exact ⟨texts, htexts, (sameCounts_iff hspaced hstart rfl texts).mp hsame⟩
    · rintro ⟨others, hothers, hagree⟩
      have hequal : texts = others :=
        List.map_injective_iff.mpr (Option.some_injective _) (htexts.symm.trans hothers)
      refine ⟨_, rfl, (sameCounts_iff hspaced hstart rfl texts).mpr ?_⟩
      rw [hequal]
      exact hagree

theorem foldl_observe_afterFirst (data : Bytes) :
    ((afterFirst newline data).splitOn newline).foldl (observeVisionEventStoreStatsLine isJson)
        stats =
      (data.splitOn newline).tail.foldl (observeVisionEventStoreStatsLine isJson) stats := by
  have hcounted : ∀ lines : List Bytes,
      lines.foldl (observeVisionEventStoreStatsLine isJson) stats =
        (lines.filterMap fun line =>
          if trimAsciiWhitespace line = [] then none else some (trimAsciiWhitespace line)).foldl
          (observeTrimmed isJson) stats := by
    intro lines
    rw [List.foldl_filterMap]
    congr 1
    funext stats line
    by_cases hblank : trimAsciiWhitespace line = []
    · rw [observeVisionEventStoreStatsLine, hblank, if_pos rfl]
      rfl
    · rw [if_neg hblank]
      rfl
  rw [hcounted, hcounted, filterMap_splitOn_afterFirst rfl]

theorem localVisionEventStoreStats_of_long
    (hlong : maxLocalVisionReverseScanBytes < file.length) :
    localVisionEventStoreStats isJson (some file) =
      .ok ((scannedLines file).foldl (observeVisionEventStoreStatsLine isJson)
        { emptyStats true file.length with scannedBytes := maxLocalVisionReverseScanBytes }) := by
  have hbounded : (emptyStats true file.length).bounded = true := decide_eq_true hlong
  have hread : localVisionEventStoreStats isJson (some file) =
      let readSize := min file.length maxLocalVisionReverseScanBytes
      let start := file.length - readSize
      let chunk := (file.drop start).take readSize
      let slice := if 0 < start then afterFirst newline chunk else chunk
      .ok ((slice.splitOn newline).foldl (observeVisionEventStoreStatsLine isJson)
        { emptyStats true file.length with scannedBytes := readSize }) :=
    if_neg (by rw [hbounded]; decide)
  have hstart : 0 < file.length - maxLocalVisionReverseScanBytes := Nat.sub_pos_of_lt hlong
  have hchunk : (file.drop (file.length - maxLocalVisionReverseScanBytes)).take
      maxLocalVisionReverseScanBytes = file.drop (file.length - maxLocalVisionReverseScanBytes) :=
    List.take_of_length_le (by rw [List.length_drop]; omega)
  rw [hread, Nat.min_eq_right hlong.le]
  dsimp only
  rw [hchunk, if_pos hstart, foldl_observe_afterFirst, scannedLines, linesFrom, tailLines,
    if_pos (decide_eq_true hstart)]

theorem sameCounts_foldl_observe (lines : List Bytes) (file : Bytes) (scannedBytes : Nat) :
    SameCounts (lines.foldl (observeVisionEventStoreStatsLine isJson)
      { emptyStats true file.length with scannedBytes }) (rawStats isJson lines) := by
  have hstart : SameCounts { emptyStats true file.length with scannedBytes }
      (emptyStats true 0) := ⟨rfl, rfl, rfl, rfl⟩
  rw [rawStats, foldl_observe, foldl_observe]
  exact hstart.foldl _

theorem sameCounts_completeLines_iff (hlong : maxLocalVisionReverseScanBytes < file.length)
    (hsame : SameCounts stats (rawStats isJson (scannedLines file))) :
    SameCounts stats (rawStats isJson (completeLines file)) ↔ StartsInsideLine file := by
  have hstart : 0 < file.length - maxLocalVisionReverseScanBytes := Nat.sub_pos_of_lt hlong
  have hscanned : scannedLines file =
      ((file.drop (file.length - maxLocalVisionReverseScanBytes)).splitOn newline).tail := by
    rw [scannedLines, linesFrom, tailLines, if_pos (decide_eq_true hstart)]
  rw [StartsInsideLine]
  by_cases hbreak : file[file.length - maxLocalVisionReverseScanBytes - 1]? = some newline
  · rw [or_iff_right (not_not_intro hbreak)]
    have hcomplete : completeLines file =
        (file.drop (file.length - maxLocalVisionReverseScanBytes)).splitOn newline := by
      rw [completeLines]
      exact if_neg (by simp [hbreak])
    obtain ⟨first, rest, hlines⟩ := List.exists_cons_of_ne_nil (List.splitOn_ne_nil newline
      (file.drop (file.length - maxLocalVisionReverseScanBytes)))
    rw [hscanned, hlines, List.tail_cons] at hsame
    rw [hcomplete, hlines, List.head?_cons, Option.getD_some]
    by_cases hblank : trimAsciiWhitespace first = []
    · refine iff_of_true ?_ hblank
      have hskip : rawStats isJson (first :: rest) = rawStats isJson rest := by
        rw [rawStats, List.foldl_cons, observeVisionEventStoreStatsLine, hblank]
        rfl
      rwa [hskip]
    · refine iff_of_false ?_ hblank
      intro hall
      have hcount := hsame.lines.symm.trans hall.lines
      rw [rawStats, rawStats, foldl_observe, foldl_observe,
        (foldl_observeTrimmed_counts _).1, (foldl_observeTrimmed_counts _).1, List.map_cons,
        List.countP_cons_of_pos (by simpa using hblank)] at hcount
      omega
  · rw [or_iff_left_of_imp fun _ => hbreak]
    refine iff_of_true ?_ hbreak
    have hcomplete : completeLines file = scannedLines file := by
      rw [completeLines, scannedLines, linesFrom]
      simp [hbreak, hstart]
    rwa [hcomplete]

/-- The statistics of a store that is read as text are those of its raw lines exactly if it reads
alike both ways. Those of a longer store are the ones of the scanned lines; the line that begins
with the scan is not one of them. -/
theorem stats_agree (hspaced : JsonSpaced isJson) (file : Bytes) :
    (file.length ≤ maxLocalVisionReverseScanBytes →
      ((∃ stats, localVisionEventStoreStats isJson (some file) = .ok stats ∧
        SameCounts stats (rawStats isJson (file.splitOn newline))) ↔ ReadsAlike isJson file)) ∧
    (maxLocalVisionReverseScanBytes < file.length →
      ∃ stats, localVisionEventStoreStats isJson (some file) = .ok stats ∧
        SameCounts stats (rawStats isJson (scannedLines file)) ∧
        (SameCounts stats (rawStats isJson (completeLines file)) ↔ StartsInsideLine file)) := by
  refine ⟨stats_of_short hspaced, ?_⟩
  intro hlong
  have hsame : SameCounts ((scannedLines file).foldl (observeVisionEventStoreStatsLine isJson)
      { emptyStats true file.length with scannedBytes := maxLocalVisionReverseScanBytes })
      (rawStats isJson (scannedLines file)) := sameCounts_foldl_observe _ _ _
  exact ⟨_, localVisionEventStoreStats_of_long hlong, hsame,
    sameCounts_completeLines_iff hlong hsame⟩

def objectStore : Bytes :=
  utf8 "{}" ++ [newline]

def readsObject (text : String) : Bool :=
  trimBy isJsonSpace text = "{}"

theorem jsonSpaced_readsObject : JsonSpaced readsObject := by
  intro text htext
  have hobject : trimBy isJsonSpace text = "{}" := of_decide_eq_true htext
  have hspace : ∀ c, isJsonSpace c = true → isWhitespace c = true := by
    intro c hc
    refine isWhitespace_of_isAsciiSpace ?_
    rw [isAsciiSpace]
    rw [isJsonSpace] at hc
    simp only [Bool.or_eq_true] at hc ⊢
    exact hc.imp_left Or.inl
  have hchars : trimCharsBy isJsonSpace text.toList = "{}".toList := by
    rw [← hobject, trimBy, String.toList_ofList]
  have htwice : trimCharsBy isWhitespace (trimCharsBy isJsonSpace text.toList) =
      trimCharsBy isWhitespace text.toList := trimCharsBy_trimCharsBy hspace
  rw [trim_eq_trimBy, hobject, trimBy, ← htwice, hchars]
  decide

theorem objectStore_counted : (objectStore.length ≤ maxLocalVisionReverseScanBytes →
      ((∃ stats, localVisionEventStoreStats readsObject (some objectStore) = .ok stats ∧
        SameCounts stats (rawStats readsObject (objectStore.splitOn newline))) ↔
          ReadsAlike readsObject objectStore)) ∧
    (maxLocalVisionReverseScanBytes < objectStore.length →
      ∃ stats, localVisionEventStoreStats readsObject (some objectStore) = .ok stats ∧
        SameCounts stats (rawStats readsObject (scannedLines objectStore)) ∧
        (SameCounts stats (rawStats readsObject (completeLines objectStore)) ↔
          StartsInsideLine objectStore)) :=
  stats_agree jsonSpaced_readsObject objectStore

/-- A byte that begins no character stops the text reader. -/
theorem invalid_utf8_fails : ¬ ∀ (isJson : String → Bool) (file : Bytes), JsonSpaced isJson →
    file.length ≤ maxLocalVisionReverseScanBytes →
      ∃ stats, localVisionEventStoreStats isJson (some file) = .ok stats ∧
        SameCounts stats (rawStats isJson (file.splitOn newline)) := by
  intro hall
  obtain ⟨stats, hstats, -⟩ := hall readsObject [255] jsonSpaced_readsObject (by decide)
  have hfails : localVisionEventStoreStats readsObject (some [255]) =
      .error "failed to read vision event store: stream did not contain valid UTF-8" := by
    decide
  rw [hfails] at hstats
  cases hstats

end Reading

end HarborBeacon.VisionEvents
