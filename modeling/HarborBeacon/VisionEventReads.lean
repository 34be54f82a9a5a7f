import HarborBeacon.VisionEvents

/-!
What the reader of the store of vision events finds: the newest events of the lines near the
end of the file, wherever the chunks in which it reads them begin, and the event that was
ingested last, provided that its line is not too long for the reader.
-/

namespace HarborBeacon.VisionEvents

open Json Json.Value JsonText LineLog TailScan Text TextEncoding

variable (platform : Platform) {targetLimit : Nat} {eventId : String}

def tailLines (startsMidLine : Bool) (tail : Bytes) : List Bytes :=
  if startsMidLine then (tail.splitOn newline).tail else tail.splitOn newline

def linesFrom (file : Bytes) (position : Nat) : List Bytes :=
  tailLines (decide (0 < position)) (file.drop position)

/-- The lines after the first line break of the last bytes that are scanned, or all lines of a
file that is not longer. -/
def scannedLines (file : Bytes) : List Bytes :=
  linesFrom file (file.length - maxLocalVisionReverseScanBytes)

def recentEvents (limit : Nat) (lines : List Bytes) : List StoredLocalVisionEvent :=
  newest eventIdOf limit (lines.filterMap (readLine platform))

theorem readLine_nil : readLine platform [] = none := rfl

theorem parseRecentEventsFromTail_eq (hlimit : 0 < targetLimit) (tail : Bytes)
    (startsMidLine : Bool) :
    parseRecentEventsFromTail platform tail startsMidLine targetLimit =
      recentEvents platform targetLimit (tailLines startsMidLine tail) := by
  unfold parseRecentEventsFromTail recentEvents tailLines
  rw [collect_reverse _ _ hlimit]
  cases startsMidLine with
  | true =>
      simp only [if_true]
      rw [filterMap_splitOn_afterFirst (readLine_nil platform)]
  | false => rfl

theorem linesFrom_suffix (file : Bytes) {start position : Nat} (h : start ≤ position) :
    linesFrom file position <:+ linesFrom file start := by
  rcases Nat.eq_zero_or_pos position with rfl | hposition
  · rw [Nat.le_zero.mp h]
  · obtain ⟨front, hfront⟩ : ∃ front, file.drop start = front ++ file.drop position := by
      refine ⟨(file.drop start).take (position - start), ?_⟩
      rw [← Nat.add_sub_cancel' h, ← List.drop_drop, Nat.add_sub_cancel_left,
        List.take_append_drop]
    have hsuffix : linesFrom file position <:+ ((file.drop start).splitOn newline).tail := by
      rw [linesFrom, tailLines, if_pos (by simpa using hposition), hfront]
      exact tail_splitOn_suffix front _
    change _ <:+ tailLines _ _
    unfold tailLines
    split
    · exact hsuffix
    · exact hsuffix.trans (List.tail_suffix _)

theorem recentEvents_of_suffix {limit : Nat} {lines others : List Bytes}
    (hsuffix : others <:+ lines) (hfull : limit ≤ (recentEvents platform limit others).length) :
    recentEvents platform limit lines = recentEvents platform limit others := by
  obtain ⟨older, rfl⟩ := hsuffix
  unfold recentEvents at hfull ⊢
  rw [List.filterMap_append]
  exact newest_append_of_full eventIdOf hfull

theorem scanBackwards_eq {file : Bytes} (hlimit : 0 < targetLimit) (position scanned : Nat)
    (hlength : position + scanned = file.length)
    (hscanned : scanned ≤ maxLocalVisionReverseScanBytes) :
    scanBackwards platform file targetLimit position scanned (file.drop position)
        (recentEvents platform targetLimit (linesFrom file position)) =
      recentEvents platform targetLimit (scannedLines file) := by
  induction position using Nat.strongRecOn generalizing scanned with
  | ind position ih =>
      rw [scanBackwards]
      split
      · rename_i hmore
        simp only
        have hchunk : 0 < localVisionReverseReadChunkBytes := by decide
        generalize hsize : min (min position localVisionReverseReadChunkBytes)
          (maxLocalVisionReverseScanBytes - scanned) = readSize
        have htail : (file.drop (position - readSize)).take readSize ++ file.drop position =
            file.drop (position - readSize) := by
          have hplace : position = position - readSize + readSize := by omega
          conv_lhs => rw [hplace]
          rw [Nat.add_sub_cancel, ← List.drop_drop, List.take_append_drop]
        rw [htail, parseRecentEventsFromTail_eq platform hlimit]
        exact ih (position - readSize) (by omega) (scanned + readSize) (by omega) (by omega)
      · rename_i hdone
        by_cases hfull : targetLimit ≤
            (recentEvents platform targetLimit (linesFrom file position)).length
        · refine (recentEvents_of_suffix platform ?_ hfull).symm
          exact linesFrom_suffix file (by omega)
        · have hplace : file.length - maxLocalVisionReverseScanBytes = position := by omega
          rw [scannedLines, hplace]

theorem recentEvents_at_end (file : Bytes) (limit : Nat) :
    recentEvents platform limit (linesFrom file file.length) = [] := by
  have hlines : (linesFrom file file.length).filterMap (readLine platform) = [] := by
    rw [linesFrom, List.drop_length, tailLines, List.splitOn_nil]
    split
    · rfl
    · rfl
  rw [recentEvents, hlines, newest, lastOccurrences, List.reverse_nil, List.take_nil]

theorem targetLimitFor_pos (limit : Nat) : 0 < targetLimitFor limit := by
  have hmax : 0 < maxLocalVisionRecentLimit := by decide
  unfold targetLimitFor
  omega

theorem listRecent_eq (store : Option Bytes) (limit : Nat) :
    listRecentLocalVisionEvents platform store limit =
      recentEvents platform (targetLimitFor limit) (scannedLines (store.getD [])) := by
  cases store with
  | none => exact (recentEvents_at_end platform [] (targetLimitFor limit)).symm
  | some file =>
      have hscan := scanBackwards_eq platform (targetLimitFor_pos limit) file.length 0
        (Nat.add_zero file.length) (Nat.zero_le _)
      rw [List.drop_length, recentEvents_at_end] at hscan
      exact hscan

section StoredLines

variable {platform}

theorem singleLine_renderOptionU64 (n : Option UInt64) : SingleLine (renderOptionU64 n) := by
  rw [renderOptionU64]
  apply singleLine_renderOption
  intro n
  exact singleLine_renderNat n.toNat

theorem SnapshotArtifact.singleLine_render (artifact : SnapshotArtifact) :
    SingleLine artifact.render := by
  apply singleLine_renderFields
  simp [singleLine_renderOptionText, singleLine_renderOptionU64]

theorem LocalVisionEventArtifact.singleLine_render (artifact : LocalVisionEventArtifact) :
    SingleLine artifact.render := by
  apply singleLine_renderFields
  simp [singleLine_renderOptionText, singleLine_renderOptionU64, singleLine_jsonString]

/-- The texts of floating-point numbers have no line breaks. -/
structure Platform.WritesLines (platform : Platform) : Prop where
  renderF32 : ∀ bits, SingleLine (platform.renderF32 bits)
  renderF64 : ∀ bits, SingleLine (platform.renderF64 bits)

theorem Platform.WritesLines.renderValue (h : platform.WritesLines) (value : Value) :
    SingleLine (renderValue platform value) :=
  JsonText.singleLine_render h.renderF64 value

theorem LocalVisionEventVlmSummary.singleLine_render (h : platform.WritesLines)
    (vlm : LocalVisionEventVlmSummary) : SingleLine (vlm.render platform) := by
  have hartifacts : SingleLine
      (renderList (vlm.artifacts.map LocalVisionEventArtifact.render)) := by
    apply singleLine_renderList
    intro item hitem
    obtain ⟨artifact, -, rfl⟩ := List.mem_map.mp hitem
    exact artifact.singleLine_render
  apply singleLine_renderFields
  intro field hfield
  rcases List.mem_append.mp hfield with hfixed | herror
  · revert field
    simp [singleLine_jsonString, singleLine_renderTexts, hartifacts, h.renderValue]
  · obtain ⟨error, -, rfl⟩ := List.mem_map.mp herror
    exact singleLine_jsonString error

theorem LocalVisionEvent.singleLine_render (h : platform.WritesLines)
    (event : LocalVisionEvent) : SingleLine (event.render platform) := by
  apply singleLine_renderFields
  intro field hfield
  rcases List.mem_append.mp hfield with hfixed | hvlm
  · revert field
    simp [singleLine_jsonString, singleLine_renderTexts, h.renderF32, h.renderValue,
      singleLine_renderNat, SnapshotArtifact.singleLine_render]
  · obtain ⟨vlm, -, rfl⟩ := List.mem_map.mp hvlm
    exact vlm.singleLine_render h

theorem StoredLocalVisionEvent.singleLine_render (h : platform.WritesLines)
    (stored : StoredLocalVisionEvent) : SingleLine (stored.render platform) := by
  apply singleLine_renderFields
  simp [singleLine_jsonString, LocalVisionEvent.singleLine_render h, h.renderValue]

def storedLine (platform : Platform) (stored : StoredLocalVisionEvent) : Bytes :=
  jsonBytes (stored.render platform)

theorem newline_not_mem_storedLine (h : platform.WritesLines) (stored : StoredLocalVisionEvent) :
    newline ∉ storedLine platform stored :=
  newline_not_mem_jsonBytes (stored.singleLine_render h)

theorem trimAsciiWhitespace_storedLine (stored : StoredLocalVisionEvent) :
    trimAsciiWhitespace (storedLine platform stored) = storedLine platform stored := by
  obtain ⟨body, hbody⟩ : ∃ body, storedLine platform stored = 123 :: (body ++ [125]) :=
    exists_jsonBytes_renderFields _
  have hfront : (storedLine platform stored).dropWhile isAsciiWhitespace =
      storedLine platform stored := by
    rw [hbody, List.dropWhile_cons_of_neg (by decide)]
  rw [trimAsciiWhitespace, hfront, hbody, ← List.cons_append,
    List.rdropWhile_concat_neg _ _ _ (by decide)]

/-- The reader of `serde_json` takes the text of a record back to the record. -/
def Platform.ReadsBack (platform : Platform) (stored : StoredLocalVisionEvent) : Prop :=
  platform.fromStr (String.ofList (stored.render platform)) = some stored

theorem readLine_storedLine {stored : StoredLocalVisionEvent}
    (hround : platform.ReadsBack stored) :
    readLine platform (storedLine platform stored) =
      if maxStoredVisionEventLineBytes < (storedLine platform stored).length then none
      else some stored := by
  have hne : storedLine platform stored ≠ [] := by
    obtain ⟨body, hbody⟩ : ∃ body, storedLine platform stored = 123 :: (body ++ [125]) :=
      exists_jsonBytes_renderFields _
    rw [hbody]
    exact List.cons_ne_nil _ _
  rw [readLine, trimAsciiWhitespace_storedLine, if_neg hne, storedLine, jsonBytes, decodeUtf8_utf8,
    Option.bind_some, hround]

end StoredLines

/-- The numbers as `serde_json` writes a half. -/
def halves : Platform where
  renderF32 := fun _ => "0.5".toList
  renderF64 := fun _ => "0.5".toList
  toF64 := fun _ => 0x3FE0000000000000
  fromStr := fun _ => none

def platformFor (stored : StoredLocalVisionEvent) : Platform :=
  { halves with
    fromStr := fun text =>
      if text = String.ofList (stored.render halves) then some stored else none }

theorem platformFor_writesLines (stored : StoredLocalVisionEvent) :
    (platformFor stored).WritesLines where
  renderF32 bits := by
    change SingleLine "0.5".toList
    decide
  renderF64 bits := by
    change SingleLine "0.5".toList
    decide

theorem renderValue_platformFor (other : StoredLocalVisionEvent) :
    renderValue (platformFor other) = renderValue halves := by
  funext value
  simp only [renderValue, platformFor]

theorem event_render_platformFor (event : LocalVisionEvent) (other : StoredLocalVisionEvent) :
    event.render (platformFor other) = event.render halves := by
  simp only [LocalVisionEvent.render, LocalVisionEventVlmSummary.render,
    renderValue_platformFor]
  rfl

theorem render_platformFor (stored other : StoredLocalVisionEvent) :
    stored.render (platformFor other) = stored.render halves := by
  simp only [StoredLocalVisionEvent.render, event_render_platformFor, renderValue_platformFor]

theorem storedAs_platformFor (other : StoredLocalVisionEvent) (now : UInt64)
    (event : LocalVisionEvent) :
    storedAs (platformFor other) now event = storedAs halves now event := by
  simp only [storedAs, buildAuditRecord, buildHaMqttPayload, confidenceValue, platformFor]

theorem platformFor_readsBack (stored : StoredLocalVisionEvent) :
    (platformFor stored).ReadsBack stored := by
  rw [Platform.ReadsBack, render_platformFor]
  simp only [platformFor, if_true]

def visitorEvent (eventId : String) : LocalVisionEvent where
  eventId := eventId
  cameraId := "cam-1"
  eventType := "person_detected"
  confidence := 0x3F000000
  summary := "visitor"
  snapshotArtifact := {}
  startedAt := "epoch_ms:1"
  analyzer := "cpu"
  latencyMs := 5

theorem rejectValue_visitorEvent {check : String → Except String Unit} (eventId : String)
    (hid : check eventId = .ok ())
    (hothers : ∀ text ∈ ["event_id", "camera_id", "event_type", "confidence", "labels",
      "summary", "snapshot_artifact", "started_at", "analyzer", "latency_ms", "metrics",
      "cam-1", "person_detected", "visitor", "epoch_ms:1", "cpu", "artifact_id", "path",
      "mime_type", "byte_size", "sha256", "source"], check text = .ok ()) :
    rejectValue check ((visitorEvent eventId).toValue halves) = .ok () := by
  have hartifact : rejectValue check (SnapshotArtifact.toValue {}) = .ok () := by
    apply rejectValue_obj
    simp [ofOption, ofOptionU64, rejectValue, hothers]
  apply rejectValue_obj
  simp [visitorEvent, hothers, hid, hartifact, rejectValue, ofStrings, rejectItems,
    confidenceValue]

def visitorFields : List (String × List Char) :=
  [("event_type", jsonString "person_detected"), ("confidence", "0.5".toList),
    ("labels", renderTexts []), ("summary", jsonString "visitor"),
    ("snapshot_artifact", SnapshotArtifact.render {}), ("started_at", jsonString "epoch_ms:1"),
    ("analyzer", jsonString "cpu"), ("latency_ms", renderNat 5), ("metrics", renderNull)]

theorem render_visitorEvent (eventId : String) :
    (visitorEvent eventId).render halves =
      renderFields (("event_id", jsonString eventId) :: ("camera_id", jsonString "cam-1") ::
        visitorFields) := by
  simp only [LocalVisionEvent.render, visitorEvent, visitorFields, halves, renderValue,
    JsonText.render, Option.toList_none, List.map_nil, List.append_nil]
  rfl

theorem length_render_visitorEvent (eventId : String) :
    (jsonBytes ((visitorEvent eventId).render halves)).length ≤
      (jsonBytes (jsonString eventId)).length + 1600 := by
  have hfixed : (openBrace :: jsonString "event_id" ++ [':']).length +
      (',' :: (renderFields (("camera_id", jsonString "cam-1") :: visitorFields)).tail).length ≤
        400 := by
    decide +kernel
  have hfront := length_jsonBytes_le (openBrace :: jsonString "event_id" ++ [':'])
  have hback := length_jsonBytes_le
    (',' :: (renderFields (("camera_id", jsonString "cam-1") :: visitorFields)).tail)
  rw [render_visitorEvent, renderFields_cons_cons,
    jsonBytes_append (openBrace :: jsonString "event_id" ++ [':']),
    jsonBytes_append (jsonString eventId), List.length_append, List.length_append]
  omega

theorem validate_visitorEvent (hid : isBlank eventId = false)
    (hlength : (jsonBytes (jsonString eventId)).length ≤ 250000)
    (hsensitive : rejectSensitiveText eventId = .ok ())
    (hpath : rejectLocalPathText eventId = .ok ()) :
    validateLocalVisionEvent halves (visitorEvent eventId) = .ok () := by
  have hjson : validateJsonLen ((visitorEvent eventId).render halves)
      maxLocalVisionEventJsonBytes "JSON exceeds" = .ok () := by
    have hrender := length_render_visitorEvent eventId
    have hmax : 251600 ≤ maxLocalVisionEventJsonBytes := by decide
    rw [validateJsonLen, failIf, if_neg]
    simp only [decide_eq_true_eq]
    omega
  have hsize : validateLocalVisionEventSize halves (visitorEvent eventId) = .ok () := by
    have hothers : (do
        validateTextLen "summary" "visitor" maxLocalVisionTextChars
        validateTextLen "event_type" "person_detected" 128
        validateTextLen "camera_id" "cam-1" 128
        validateTextLen "analyzer" "cpu" 256
        validateStringVecLen "labels" [] maxLocalVisionLabels 128
        validateJsonLen (renderValue halves .null) maxLocalVisionMetricsBytes "metrics exceed"
        ([] : List LocalVisionEventVlmSummary).forM (validateVlmSize halves)) = .ok () := by
      decide
    rw [validateLocalVisionEventSize, hjson]
    simp only [visitorEvent, Option.toList_none]
    exact hothers
  have hsensitiveValue := rejectValue_visitorEvent eventId hsensitive (by decide)
  have hpathValue := rejectValue_visitorEvent eventId hpath (by decide)
  have hcamera : isBlank "cam-1" = false := by decide
  have htype : isBlank "person_detected" = false := by decide
  have hconfidence : withinUnit 0x3F000000 = true := by decide
  rw [validateLocalVisionEvent, hsize, rejectSensitiveValue, hsensitiveValue,
    rejectLocalPathValue, hpathValue]
  simp only [visitorEvent, hid, hcamera, htype, hconfidence]
  rfl

theorem validate_platformFor (other : StoredLocalVisionEvent) (event : LocalVisionEvent) :
    validateLocalVisionEvent (platformFor other) event =
      validateLocalVisionEvent halves event := by
  have hvlm : validateVlmSize (platformFor other) = validateVlmSize halves := by
    funext vlm
    simp only [validateVlmSize, renderValue_platformFor]
  have hvalue : event.toValue (platformFor other) = event.toValue halves := by
    simp only [LocalVisionEvent.toValue, confidenceValue, platformFor]
  simp only [validateLocalVisionEvent, validateLocalVisionEventSize, hvlm, hvalue,
    renderValue_platformFor, event_render_platformFor]

def visitorPlatform (eventId : String) : Platform :=
  platformFor (storedAs halves 1 (visitorEvent eventId))

theorem length_visitorLine :
    (storedLine halves (storedAs halves 1 (visitorEvent "lve_1"))).length ≤
      maxStoredVisionEventLineBytes := by
  have hchars : ((storedAs halves 1 (visitorEvent "lve_1")).render halves).length ≤ 5000 := by
    decide +kernel
  have hbytes := length_jsonBytes_le ((storedAs halves 1 (visitorEvent "lve_1")).render halves)
  have hmax : 20000 ≤ maxStoredVisionEventLineBytes := by decide
  rw [storedLine]
  omega

/-- The reader returns the last occurrences of the readable events of the scanned lines, the
newest first, up to the limit: all lines of a file that is not longer than the scan, and else
those that follow a line break within the scanned end of it. -/
theorem reverse_scan_eq_plain_reader (file : Bytes) (limit : Nat) :
    listRecentLocalVisionEvents platform (some file) limit =
        ((lastOccurrences eventIdOf ((scannedLines file).filterMap (readLine platform))).reverse).take
          (min (max limit 1) maxLocalVisionRecentLimit) ∧
      (file.length ≤ maxLocalVisionReverseScanBytes →
        scannedLines file = file.splitOn newline) ∧
      (maxLocalVisionReverseScanBytes < file.length →
        scannedLines file =
          ((file.drop (file.length - maxLocalVisionReverseScanBytes)).splitOn newline).tail) := by
  refine ⟨listRecent_eq platform (some file) limit, ?_, ?_⟩
  · intro hshort
    rw [scannedLines, Nat.sub_eq_zero_of_le hshort]
    rfl
  · intro hlong
    have hstart : decide (0 < file.length - maxLocalVisionReverseScanBytes) = true := by
      rw [decide_eq_true_eq]
      omega
    rw [scannedLines, linesFrom, tailLines, if_pos hstart]

/-- The complete lines in the scanned end of a file: the first one counts where a line break
stands before it. -/
def completeLines (file : Bytes) : List Bytes :=
  let start := file.length - maxLocalVisionReverseScanBytes
  tailLines (decide (0 < start ∧ file[start - 1]? ≠ some newline)) (file.drop start)

def visitorLine : Bytes :=
  storedLine (visitorPlatform "lve_1") (storedAs halves 1 (visitorEvent "lve_1"))

def fullStore : Bytes :=
  newline :: (visitorLine ++
    List.replicate (maxLocalVisionReverseScanBytes - visitorLine.length) newline)

/-- The reader drops a complete line at the very start of what it scans. -/
theorem line_at_scan_start_dropped :
    listRecentLocalVisionEvents (visitorPlatform "lve_1") (some fullStore) 1 = [] ∧
      recentEvents (visitorPlatform "lve_1") 1 (completeLines fullStore) =
        [storedAs halves 1 (visitorEvent "lve_1")] := by
  have hfits : visitorLine.length ≤ maxStoredVisionEventLineBytes := by
    rw [visitorLine, storedLine, visitorPlatform, render_platformFor]
    exact length_visitorLine
  have hmax : maxStoredVisionEventLineBytes < maxLocalVisionReverseScanBytes := by decide
  have hbreak : newline ∉ visitorLine :=
    newline_not_mem_storedLine (platformFor_writesLines _) _
  have hread : readLine (visitorPlatform "lve_1") visitorLine =
      some (storedAs halves 1 (visitorEvent "lve_1")) := by
    rw [visitorLine, visitorPlatform, readLine_storedLine (platformFor_readsBack _)]
    exact if_neg (Nat.not_lt.mpr hfits)
  obtain ⟨k, hk⟩ : ∃ k, maxLocalVisionReverseScanBytes - visitorLine.length = k + 1 :=
    Nat.exists_eq_succ_of_ne_zero (by omega)
  have hstart : fullStore.length - maxLocalVisionReverseScanBytes = 1 := by
    rw [fullStore, List.length_cons, List.length_append, List.length_replicate]
    omega
  have hsplit : (fullStore.drop 1).splitOn newline =
      visitorLine :: List.replicate (k + 1) [] := by
    rw [fullStore, List.drop_one, List.tail_cons, hk, List.replicate_succ,
      List.splitOn_append_cons_self_of_not_mem hbreak, splitOn_replicate]
  have hblank : (List.replicate (k + 1) []).filterMap (readLine (visitorPlatform "lve_1")) =
      [] := by
    rw [List.filterMap_eq_nil_iff]
    intro line hline
    rw [List.eq_of_mem_replicate hline, readLine_nil]
  constructor
  · rw [listRecent_eq, Option.getD_some, scannedLines, hstart, linesFrom, tailLines,
      if_pos (by decide), hsplit, List.tail_cons, recentEvents, hblank]
    rfl
  · have hfirst : fullStore[1 - 1]? = some newline := rfl
    rw [completeLines]
    simp only [hstart, hfirst]
    rw [tailLines, if_neg (by decide), hsplit, recentEvents, List.filterMap_cons_some hread,
      hblank]
    rfl

section ReadBack

variable {platform} {event : LocalVisionEvent} {lines : List Bytes} {now : UInt64} {line : Bytes}

def EndsInNewline (store : Option Bytes) : Prop :=
  store.getD [] = [] ∨ (store.getD []).getLast? = some newline

theorem ingest_of_valid (store : Option Bytes)
    (hvalid : validateLocalVisionEvent platform event = .ok ()) :
    ingestLocalVisionEvent platform now event store =
      .ok (storedAs platform now event,
        store.getD [] ++ (storedLine platform (storedAs platform now event) ++ [newline])) := by
  rw [ingestLocalVisionEvent, hvalid]
  rfl

theorem scannedLines_last {content line : Bytes}
    (hends : content = [] ∨ content.getLast? = some newline) (hline : newline ∉ line)
    (hshort : line.length + 2 ≤ maxLocalVisionReverseScanBytes) :
    [line, []] <:+ scannedLines (content ++ (line ++ [newline])) := by
  have hlast : (line ++ [newline]).splitOn newline = [line, []] := by
    rw [List.splitOn_append_cons_self_of_not_mem hline, List.splitOn_nil]
  -- the line break before the line is scanned as well
  have hfrom : [line, []] <:+ linesFrom (content ++ (line ++ [newline])) (content.length - 1) := by
    rcases hends with rfl | hends
    · rw [List.nil_append, List.length_nil, Nat.zero_sub, linesFrom, tailLines]
      simp only [Nat.lt_irrefl, decide_false, Bool.false_eq_true, if_false, List.drop_zero]
      rw [hlast]
    · obtain ⟨start, rfl⟩ := List.getLast?_eq_some_iff.mp hends
      have hdrop : (start ++ [newline] ++ (line ++ [newline])).drop
          ((start ++ [newline]).length - 1) = [] ++ newline :: (line ++ [newline]) := by
        rw [List.length_append, List.length_singleton, Nat.add_sub_cancel, List.append_assoc,
          List.drop_left]
        rfl
      rw [linesFrom, tailLines, hdrop, List.splitOn_append_cons_self_of_not_mem (by simp), hlast]
      split
      · exact List.suffix_rfl
      · exact List.suffix_cons _ _
  refine hfrom.trans (linesFrom_suffix _ ?_)
  simp only [List.length_append, List.length_singleton]
  omega

theorem recentEvents_of_unreadable {limit : Nat} (h : ∀ line ∈ lines, readLine platform line = none)
    :
    recentEvents platform limit lines = [] := by
  rw [recentEvents, List.filterMap_eq_nil_iff.mpr h, newest, lastOccurrences, List.reverse_nil,
    List.take_nil]

theorem listRecent_of_unreadable (hbreak : newline ∉ line) (hread : readLine platform line = none)
    (limit : Nat) :
    listRecentLocalVisionEvents platform (some (line ++ [newline])) limit = [] := by
  rw [listRecent_eq, Option.getD_some]
  apply recentEvents_of_unreadable
  intro other hother
  have hmem : other ∈ linesFrom (line ++ [newline]) 0 :=
    (linesFrom_suffix _ (Nat.zero_le _)).subset hother
  rw [linesFrom, List.drop_zero, tailLines, if_neg (by simp),
    List.splitOn_append_cons_self_of_not_mem hbreak, List.splitOn_nil] at hmem
  simp only [List.mem_cons, List.not_mem_nil, or_false] at hmem
  rcases hmem with rfl | rfl
  · exact hread
  · exact readLine_nil platform

theorem recentEvents_last {stored : StoredLocalVisionEvent} (hlast : [line, []] <:+ lines)
    (hread : readLine platform line = some stored) :
    recentEvents platform 1 lines = [stored] := by
  have htwo : recentEvents platform 1 [line, []] = [stored] := by
    rw [recentEvents, List.filterMap_cons_some hread, List.filterMap_cons_none (readLine_nil _),
      List.filterMap_nil]
    rfl
  rw [recentEvents_of_suffix platform hlast (by rw [htwo]; exact Nat.le_refl 1), htwo]

theorem oversized_not_read_back (hlines : platform.WritesLines)
    (hround : platform.ReadsBack (storedAs platform now event))
    (haccepted : validateLocalVisionEvent platform event = .ok ())
    (hlong : maxStoredVisionEventLineBytes <
      (storedLine platform (storedAs platform now event)).length) :
    ∃ stored file, ingestLocalVisionEvent platform now event none = .ok (stored, file) ∧
      listRecentLocalVisionEvents platform (some file) 1 = [] := by
  have hread := readLine_storedLine hround
  rw [if_pos hlong] at hread
  refine ⟨_, _, ingest_of_valid none haccepted, ?_⟩
  rw [Option.getD_none, List.nil_append]
  exact listRecent_of_unreadable (newline_not_mem_storedLine hlines _) hread 1

/-- An event that is accepted can be read back from every complete store exactly when its line
is not too long for the reader. -/
theorem ingested_event_read_back_iff (platform : Platform) (now : UInt64)
    (event : LocalVisionEvent) (hlines : platform.WritesLines)
    (hround : platform.ReadsBack (storedAs platform now event))
    (haccepted : validateLocalVisionEvent platform event = .ok ()) :
    (∀ store, EndsInNewline store → ∀ stored file,
        ingestLocalVisionEvent platform now event store = .ok (stored, file) →
        listRecentLocalVisionEvents platform (some file) 1 = [stored]) ↔
      (storedLine platform (storedAs platform now event)).length ≤
        maxStoredVisionEventLineBytes := by
  constructor
  · intro hreadBack
    by_contra hlong
    obtain ⟨stored, file, hingest, hempty⟩ :=
      oversized_not_read_back hlines hround haccepted (by omega)
    have hone := hreadBack none (Or.inl rfl) stored file hingest
    rw [hempty] at hone
    cases hone
  · intro hfits store hends stored file hingest
    rw [ingest_of_valid store haccepted, Except.ok.injEq, Prod.mk.injEq] at hingest
    obtain ⟨rfl, rfl⟩ := hingest
    have hbreak := newline_not_mem_storedLine hlines (storedAs platform now event)
    have hread := readLine_storedLine hround
    rw [if_neg (by omega)] at hread
    rw [listRecent_eq, Option.getD_some]
    refine recentEvents_last (scannedLines_last hends hbreak ?_) hread
    have hscan : maxStoredVisionEventLineBytes + 2 ≤ maxLocalVisionReverseScanBytes := by decide
    omega

theorem visitor_read_back :
    validateLocalVisionEvent (visitorPlatform "lve_1") (visitorEvent "lve_1") = .ok () ∧
      ∀ store, EndsInNewline store → ∀ stored file,
        ingestLocalVisionEvent (visitorPlatform "lve_1") 1 (visitorEvent "lve_1") store =
          .ok (stored, file) →
        listRecentLocalVisionEvents (visitorPlatform "lve_1") (some file) 1 = [stored] := by
  have haccepted : validateLocalVisionEvent (visitorPlatform "lve_1") (visitorEvent "lve_1") =
      .ok () := by
    rw [visitorPlatform, validate_platformFor]
    exact validate_visitorEvent (by decide) (by decide) (by decide)
      (by decide)
  refine ⟨haccepted, ?_⟩
  refine (ingested_event_read_back_iff (visitorPlatform "lve_1") 1 (visitorEvent "lve_1")
    (platformFor_writesLines _) ?_ haccepted).mpr ?_
  · rw [visitorPlatform, storedAs_platformFor]
    exact platformFor_readsBack _
  · rw [visitorPlatform, storedAs_platformFor, storedLine, render_platformFor]
    exact length_visitorLine

end ReadBack

def idOfLength (n : Nat) : String :=
  String.ofList (List.replicate n 'a')

theorem toList_idOfLength (n : Nat) : (idOfLength n).toList = List.replicate n 'a' := by
  rw [idOfLength, String.toList_ofList]

theorem jsonString_idOfLength (n : Nat) :
    jsonString (idOfLength n) = quote :: (List.replicate n 'a' ++ [quote]) := by
  have hplain : (List.replicate n 'a').flatMap escapeChar = List.replicate n 'a' := by
    induction n with
    | zero => rfl
    | succ n ih =>
        rw [List.replicate_succ, List.flatMap_cons, ih]
        rfl
  rw [jsonString, toList_idOfLength, hplain]
  rfl

theorem length_jsonBytes_replicate (n : Nat) :
    (jsonBytes (List.replicate n 'a')).length = n := by
  rw [jsonBytes, utf8_ofList]
  induction n with
  | zero => rfl
  | succ n ih =>
      rw [List.replicate_succ, List.flatMap_cons, List.length_append, ih, Nat.add_comm]
      rfl

theorem mem_idOfLength (n : Nat) : ∀ c ∈ (idOfLength n).toList, c ∈ ['a'] := by
  intro c hc
  rw [toList_idOfLength] at hc
  exact List.mem_singleton.mpr (List.eq_of_mem_replicate hc)

theorem length_jsonBytes_idOfLength (n : Nat) :
    (jsonBytes (jsonString (idOfLength n))).length = n + 2 := by
  rw [jsonString_idOfLength, ← List.singleton_append, jsonBytes_append, jsonBytes_append,
    List.length_append, List.length_append, length_jsonBytes_replicate, Nat.add_left_comm]
  rfl

theorem validate_idOfLength {n : Nat} (hpos : 0 < n) (hn : n ≤ 200000) :
    validateLocalVisionEvent halves (visitorEvent (idOfLength n)) = .ok () := by
  have hid : isBlank (idOfLength n) = false := by
    apply isBlank_eq_false_of_mem (c := 'a')
    · rw [toList_idOfLength, List.mem_replicate]
      exact ⟨Nat.pos_iff_ne_zero.mp hpos, rfl⟩
    · decide
  have hlength := length_jsonBytes_idOfLength n
  exact validate_visitorEvent hid (by omega)
    (rejectSensitiveText_of_alphabet (by decide) (by decide) (mem_idOfLength n))
    (rejectLocalPathText_of_alphabet (by decide) (by decide) (by decide)
      (mem_idOfLength n))

theorem length_jsonString_idOfLength (n : Nat) : (jsonString (idOfLength n)).length = n + 2 := by
  rw [jsonString_idOfLength, List.length_cons, List.length_append, List.length_replicate]
  rfl

theorem length_le_render_obj {fields : Fields}
    (h : lookupField "event_id" (fields.foldl (fun acc field => insertField field.1 field.2 acc) [])
      = some (string eventId)) :
    (jsonString eventId).length ≤ (renderValue halves (obj fields)).length := by
  have hstring : JsonText.render halves.renderF64 (string eventId) = jsonString eventId := by
    rw [JsonText.render]
  rw [← hstring]
  exact length_render_le halves.renderF64 h

theorem length_storedLine (n : Nat) (now : UInt64) :
    3 * n ≤ (storedLine halves (storedAs halves now (visitorEvent (idOfLength n)))).length := by
  have haudit : (jsonString (idOfLength n)).length ≤
      (renderValue halves (buildAuditRecord halves (visitorEvent (idOfLength n)))).length := by
    apply length_le_render_obj
    simp [visitorEvent]
  have hpayload : (jsonString (idOfLength n)).length ≤
      (renderValue halves (buildHaMqttPayload halves (visitorEvent (idOfLength n)))).length := by
    apply length_le_render_obj
    simp [visitorEvent]
  have hevent : (jsonString (idOfLength n)).length ≤
      ((visitorEvent (idOfLength n)).render halves).length := by
    rw [render_visitorEvent]
    refine Nat.le_trans ?_ (sum_length_le_renderFields _)
    simp only [List.map_cons, List.sum_cons]
    omega
  have hline := sum_length_le_renderFields
    [("received_at", jsonString (storedAs halves now (visitorEvent (idOfLength n))).receivedAt),
     ("event", (visitorEvent (idOfLength n)).render halves),
     ("audit_record", renderValue halves (buildAuditRecord halves (visitorEvent (idOfLength n)))),
     ("ha_mqtt_payload",
      renderValue halves (buildHaMqttPayload halves (visitorEvent (idOfLength n))))]
  have hbytes := length_le_jsonBytes
    ((storedAs halves now (visitorEvent (idOfLength n))).render halves)
  rw [length_jsonString_idOfLength] at haudit hpayload hevent
  simp only [List.map_cons, List.map_nil, List.sum_cons, List.sum_nil] at hline
  rw [storedLine]
  change _ ≤ ((storedAs halves now (visitorEvent (idOfLength n))).render halves).length at hline
  omega

/-- An event with an id of 200,000 characters is accepted and not found again. -/
theorem long_id_not_read_back :
    (visitorPlatform (idOfLength 200000)).ReadsBack
        (storedAs (visitorPlatform (idOfLength 200000)) 1 (visitorEvent (idOfLength 200000))) ∧
      ∃ stored file,
        ingestLocalVisionEvent (visitorPlatform (idOfLength 200000)) 1
          (visitorEvent (idOfLength 200000)) none = .ok (stored, file) ∧
        listRecentLocalVisionEvents (visitorPlatform (idOfLength 200000)) (some file) 1 = [] := by
  have hround : (visitorPlatform (idOfLength 200000)).ReadsBack
      (storedAs (visitorPlatform (idOfLength 200000)) 1 (visitorEvent (idOfLength 200000))) := by
    rw [visitorPlatform, storedAs_platformFor]
    exact platformFor_readsBack _
  have hvalid : validateLocalVisionEvent (visitorPlatform (idOfLength 200000))
      (visitorEvent (idOfLength 200000)) = .ok () := by
    rw [visitorPlatform, validate_platformFor]
    exact validate_idOfLength (by decide) (by decide)
  have hlong : maxStoredVisionEventLineBytes < (storedLine (visitorPlatform (idOfLength 200000))
      (storedAs (visitorPlatform (idOfLength 200000)) 1
        (visitorEvent (idOfLength 200000)))).length := by
    have hlength := length_storedLine 200000 1
    have hmax : maxStoredVisionEventLineBytes < 3 * 200000 := by decide
    rw [visitorPlatform, storedAs_platformFor, storedLine, render_platformFor]
    exact Nat.lt_of_lt_of_le hmax hlength
  exact ⟨hround, oversized_not_read_back (platformFor_writesLines _) hround hvalid hlong⟩

end HarborBeacon.VisionEvents
