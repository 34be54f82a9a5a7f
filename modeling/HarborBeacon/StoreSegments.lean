import HarborBeacon.ValidationStore

/-!
What a directory of the store holds: the records of each archive, those of the main file, and
the generation. The readers of the store find exactly these.
-/

namespace HarborBeacon.CatRecordingValidation

open DecimalText LineLog

def Latest.view (latest : Latest) : String → Option CatRecordingValidationRecord :=
  fun artifactId => latest.lookup artifactId

def overlay (records : List CatRecordingValidationRecord)
    (view : String → Option CatRecordingValidationRecord) :
    String → Option CatRecordingValidationRecord :=
  fun artifactId => (records.reverse.find? fun record => record.artifactId = artifactId).or
    (view artifactId)

@[simp] theorem overlay_nil (view : String → Option CatRecordingValidationRecord) :
    overlay [] view = view := by
  funext artifactId
  simp [overlay]

theorem overlay_append (records records' : List CatRecordingValidationRecord)
    (view : String → Option CatRecordingValidationRecord) :
    overlay (records ++ records') view = overlay records' (overlay records view) := by
  funext artifactId
  simp [overlay, List.find?_append, Option.or_assoc]

theorem overlay_overlay_self (records : List CatRecordingValidationRecord)
    (view : String → Option CatRecordingValidationRecord) :
    overlay records (overlay records view) = overlay records view := by
  funext artifactId
  simp [overlay, ← Option.or_assoc]

theorem Latest.view_store (latest : Latest) (record : CatRecordingValidationRecord) :
    (latest.store record).view = overlay [record] latest.view := by
  funext artifactId
  simp only [view, store, Table.lookup_insert_eq_ite, overlay, List.reverse_singleton,
    List.find?_singleton, decide_eq_true_eq]
  rcases eq_or_ne record.artifactId artifactId with h | h
  · rw [if_pos h.symm, if_pos h]
    rfl
  · rw [if_neg h.symm, if_neg h]
    rfl

theorem Latest.view_storeAll (latest : Latest) (records : List CatRecordingValidationRecord) :
    (latest.storeAll records).view = overlay records latest.view := by
  induction records generalizing latest with
  | nil => simp [storeAll]
  | cons record records ih =>
      calc
        (latest.storeAll (record :: records)).view =
            ((latest.store record).storeAll records).view := rfl
        _ = overlay records (overlay [record] latest.view) := by rw [ih, view_store]
        _ = overlay (record :: records) latest.view := by rw [← overlay_append]; rfl

variable {generation : Nat}

theorem parseU64_zeroPadded (h : generation < 2 ^ 64) :
    parseU64 (zeroPadded 20 generation) = some generation := by
  rw [parseU64, value_zeroPadded, if_pos h]

theorem length_generationText (h : generation < 2 ^ 64) :
    (zeroPadded 20 generation).length = 20 :=
  length_zeroPadded (by decide) (h.trans (by decide))

theorem isAsciiDigit_toUInt8 {c : Char} (h : c.isDigit = true) :
    isAsciiDigit c.toNat.toUInt8 = true ∧ Char.ofNat c.toNat.toUInt8.toNat = c := by
  simp only [Char.isDigit, Bool.and_eq_true, decide_eq_true_eq] at h
  have hlower : 48 ≤ c.toNat := h.1
  have hupper : c.toNat ≤ 57 := h.2
  have hbyte : c.toNat.toUInt8.toNat = c.toNat := by
    rw [Nat.toUInt8, UInt8.toNat_ofNat']
    omega
  refine ⟨?_, by rw [hbyte, Char.ofNat_toNat]⟩
  simp only [isAsciiDigit, Bool.and_eq_true, decide_eq_true_eq, UInt8.le_iff_toNat_le, hbyte]
  exact ⟨hlower, hupper⟩

theorem readGenerationSidecar_line {files : StoreFiles} (h : generation < 2 ^ 64)
    (hfile : files.generation = some (generationLine generation)) :
    readGenerationSidecar files = .ok (some generation) := by
  have hlength : ((zeroPadded 20 generation).map fun c => c.toNat.toUInt8).length = 20 := by
    rw [List.length_map, length_generationText h]
  have htake : (generationLine generation).take 20 =
      (zeroPadded 20 generation).map fun c => c.toNat.toUInt8 := by
    rw [generationLine, List.take_left' hlength]
  have hlast : (generationLine generation)[20]? = some newline := by
    rw [generationLine, List.getElem?_append_right (by omega), hlength]
    rfl
  have hdigits : ((generationLine generation).take 20).all isAsciiDigit = true := by
    rw [htake, List.all_map, List.all_eq_true]
    exact fun c hc => (isAsciiDigit_toUInt8 (isDigit_of_mem_zeroPadded hc)).1
  have hchars : ((generationLine generation).take 20).map (fun byte => Char.ofNat byte.toNat) =
      zeroPadded 20 generation := by
    rw [htake, List.map_map]
    refine (List.map_congr_left fun c hc => ?_).trans (List.map_id _)
    exact (isAsciiDigit_toUInt8 (isDigit_of_mem_zeroPadded hc)).2
  have htotal : (generationLine generation).length = 21 := by
    rw [generationLine, List.length_append, hlength]
    rfl
  simp only [readGenerationSidecar, hfile, htotal, hlast, hdigits, hchars,
    parseU64_zeroPadded h]
  simp

theorem archiveGeneration_archiveName (fileName : String) (h : generation < 2 ^ 64) :
    archiveGeneration fileName (validationStoreArchiveName fileName generation) =
      .ok (some generation) := by
  have hname : (validationStoreArchiveName fileName generation).toList =
      (archiveStart fileName).toList ++ (zeroPadded 20 generation ++ ".jsonl".toList) := by
    simp [validationStoreArchiveName]
  have hstart : (validationStoreArchiveName fileName generation).toList.dropPrefix?
      (archiveStart fileName).toList = some (zeroPadded 20 generation ++ ".jsonl".toList) := by
    rw [List.dropPrefix?_eq_some_iff]
    exact ⟨_, hname, by simp⟩
  have hend : (zeroPadded 20 generation ++ ".jsonl".toList).dropSuffix? ".jsonl".toList =
      some (zeroPadded 20 generation) := by
    rw [List.dropSuffix?_eq_some_iff]
    exact ⟨_, rfl, by simp⟩
  have hdigits : (zeroPadded 20 generation).all Char.isDigit = true :=
    List.all_eq_true.mpr fun _ => isDigit_of_mem_zeroPadded
  simp only [archiveGeneration, hstart, hend, length_generationText h, hdigits,
    parseU64_zeroPadded h]
  simp

theorem archiveName_lt_archiveName (fileName : String) {generation generation' : Nat}
    (h' : generation' < 2 ^ 64) (hlt : generation < generation') :
    validationStoreArchiveName fileName generation <
      validationStoreArchiveName fileName generation' := by
  have h : generation < 2 ^ 64 := hlt.trans h'
  have hdigits : zeroPadded 20 generation < zeroPadded 20 generation' :=
    (zeroPadded_lt_iff (by decide) (h.trans (by decide)) (h'.trans (by decide))).2 hlt
  have hlength : (zeroPadded 20 generation).length = (zeroPadded 20 generation').length := by
    rw [length_generationText h, length_generationText h']
  rw [String.lt_iff_toList_lt]
  simpa only [validationStoreArchiveName, String.toList_append, String.toList_ofList,
    List.append_assoc] using append_lt_append hlength _ _ hdigits

theorem archiveName_lt_iff (fileName : String) {generation generation' : Nat}
    (h : generation < 2 ^ 64) (h' : generation' < 2 ^ 64) :
    validationStoreArchiveName fileName generation <
      validationStoreArchiveName fileName generation' ↔ generation < generation' := by
  rcases lt_trichotomy generation generation' with hlt | rfl | hgt
  · exact iff_of_true (archiveName_lt_archiveName fileName h' hlt) hlt
  · exact iff_of_false (lt_irrefl _) (lt_irrefl _)
  · exact iff_of_false (lt_asymm (archiveName_lt_archiveName fileName h hgt)) (lt_asymm hgt)

section Lines

def closingBrace : UInt8 := 125

/-- What the store relies on of `serde_json`: a record is written as one line of UTF-8 that is
a JSON object, and read back as it was. -/
structure Platform.RoundTrips (platform : Platform) : Prop where
  fromSlice_toVec : ∀ record, platform.fromSlice (platform.toVec record) = .ok record
  newline_not_mem : ∀ record, newline ∉ platform.toVec record
  isUtf8_toVec : ∀ record, isUtf8 (platform.toVec record) = true
  getLast?_toVec : ∀ record, (platform.toVec record).getLast? = some closingBrace

variable {platform : Platform} {records : List CatRecordingValidationRecord}
  {record : CatRecordingValidationRecord}

def Platform.Fits (platform : Platform) (record : CatRecordingValidationRecord) : Prop :=
  (platform.toVec record).length ≤ maxRecordBytes

def recordLog (platform : Platform) (records : List CatRecordingValidationRecord) : Bytes :=
  logOf newline (records.map platform.toVec)

theorem recordLog_concat (records : List CatRecordingValidationRecord)
    (record : CatRecordingValidationRecord) :
    recordLog platform (records ++ [record]) =
      recordLog platform records ++ (platform.toVec record ++ [newline]) := by
  rw [recordLog, List.map_append]
  exact logOf_concat _ _

theorem Platform.RoundTrips.newline_not_mem_map (hplatform : platform.RoundTrips)
    (records : List CatRecordingValidationRecord) :
    ∀ line ∈ records.map platform.toVec, newline ∉ line := by
  intro line hline
  obtain ⟨record, -, rfl⟩ := List.mem_map.mp hline
  exact hplatform.newline_not_mem record

theorem scanLine_toVec (hplatform : platform.RoundTrips) (hfits : platform.Fits record) :
    scanLine platform (platform.toVec record) = some record := by
  have hstrip : stripCarriageReturn (platform.toVec record) = platform.toVec record := by
    rw [stripCarriageReturn, hplatform.getLast?_toVec, if_neg (by decide)]
  rw [scanLine, hstrip, if_neg, hplatform.fromSlice_toVec]
  · rfl
  · rw [hplatform.isUtf8_toVec]
    simpa [Platform.Fits] using hfits

theorem applyStrictLine_toVec (hplatform : platform.RoundTrips) (hfits : platform.Fits record)
    (path : String) (latest : Latest) :
    applyStrictLine platform path latest (platform.toVec record) = .ok (latest.store record) := by
  have hne : platform.toVec record ≠ [] := by
    intro hnil
    have hlast := hplatform.getLast?_toVec record
    rw [hnil] at hlast
    cases hlast
  rw [applyStrictLine, if_neg, hplatform.fromSlice_toVec]
  exact not_or.mpr ⟨hne, Nat.not_lt.mpr hfits⟩

theorem applyStrictArchiveRecords_recordLog (hplatform : platform.RoundTrips) (hne : records ≠ [])
    (hfits : ∀ record ∈ records, platform.Fits record) (path : String) (latest : Latest) :
    applyStrictArchiveRecords platform path (recordLog platform records) latest =
      .ok (latest.storeAll records) := by
  have hlast : (recordLog platform records).getLast? = some newline :=
    getLast?_logOf (by simpa using hne)
  have hsplit : (recordLog platform records).dropLast.splitOn newline =
      records.map platform.toVec := by
    rw [← readLines_eq_splitOn_dropLast hlast]
    exact readLines_logOf (hplatform.newline_not_mem_map records)
  have hcomplete : ¬(recordLog platform records = [] ∨
      (recordLog platform records).getLast? ≠ some newline) := by
    rw [hlast]
    simpa [recordLog, logOf_eq_nil_iff] using hne
  rw [applyStrictArchiveRecords, if_neg hcomplete, hsplit, List.foldlM_map]
  clear hlast hsplit hcomplete hne
  induction records generalizing latest with
  | nil => rfl
  | cons record records ih =>
      rw [List.foldlM_cons, applyStrictLine_toVec hplatform (hfits record (by simp))]
      exact ih (fun other hother => hfits other (by simp [hother])) (latest.store record)

theorem readLines_recordLog (hplatform : platform.RoundTrips)
    (hfits : ∀ record ∈ records, platform.Fits record) :
    (readLines newline (recordLog platform records)).filterMap (scanLine platform) = records := by
  rw [recordLog, readLines_logOf (hplatform.newline_not_mem_map records), List.filterMap_map]
  refine (List.filterMap_congr fun record hrecord => ?_).trans List.filterMap_some
  exact scanLine_toVec hplatform (hfits record hrecord)

end Lines

section Contents

/-- The records of the archives with their generations, oldest first, those of the main file,
and the generation. -/
structure StoreContents where
  archives : List (Nat × List CatRecordingValidationRecord) := []
  main : List CatRecordingValidationRecord := []
  generation : Nat := 0

def StoreContents.view (contents : StoreContents) :
    String → Option CatRecordingValidationRecord :=
  overlay contents.main (overlay (contents.archives.flatMap (·.2)) fun _ => none)

def StoreFiles.mainBytes (files : StoreFiles) : Bytes :=
  files.main.elim [] (·.bytes)

theorem StoreFiles.exists_opened {files : StoreFiles} (h : files.mainBytes ≠ []) :
    ∃ opened, files.main = some opened ∧ files.mainBytes = opened.bytes := by
  unfold mainBytes at h ⊢
  rcases hmain : files.main with _ | opened
  · rw [hmain] at h
    exact absurd rfl h
  · exact ⟨opened, rfl, rfl⟩

variable {store : CatRecordingValidationStore} {contents : StoreContents} {files : StoreFiles}

def CatRecordingValidationStore.archiveEntry (store : CatRecordingValidationStore)
    (archive : Nat × List CatRecordingValidationRecord) : String × Bytes :=
  (validationStoreArchiveName store.fileName archive.1, recordLog store.platform archive.2)

/-- The directory holds the contents, with `torn` behind the last complete line of the main
file. -/
structure Holds (store : CatRecordingValidationStore) (contents : StoreContents) (torn : Bytes)
    (files : StoreFiles) : Prop where
  archives : files.siblings.Perm (contents.archives.map store.archiveEntry)
  ascending : (contents.archives.map (·.1)).Pairwise (· < ·)
  archives_le : ∀ archive ∈ contents.archives, archive.1 ≤ contents.generation
  generation_lt : contents.generation < 2 ^ 64
  sidecar : files.generation = some (generationLine contents.generation) ∨
    files.generation = none ∧ contents.generation = 0 ∧ contents.archives = []
  main : files.mainBytes = recordLog store.platform contents.main ++ torn
  torn : newline ∉ torn
  main_length : files.mainBytes.length ≤ store.compactionThresholdBytes
  main_fits : ∀ record ∈ contents.main, store.platform.Fits record
  archive_ne_nil : ∀ archive ∈ contents.archives, archive.2 ≠ []
  archive_length : ∀ archive ∈ contents.archives,
    (recordLog store.platform archive.2).length ≤ store.compactionThresholdBytes
  archive_fits : ∀ archive ∈ contents.archives, ∀ record ∈ archive.2,
    store.platform.Fits record

theorem holds_empty : Holds store {} [] {} where
  archives := .nil
  ascending := .nil
  archives_le := by simp
  generation_lt := by decide
  sidecar := .inr ⟨rfl, rfl, rfl⟩
  main := rfl
  torn := by simp
  main_length := Nat.zero_le _
  main_fits := by simp
  archive_ne_nil := by simp
  archive_length := by simp
  archive_fits := by simp

variable {torn : Bytes} {archives : List (Nat × List CatRecordingValidationRecord)}
  {archive : Nat × List CatRecordingValidationRecord}

theorem Holds.archive_lt (h : Holds store contents torn files)
    (harchive : archive ∈ contents.archives) :
    archive.1 < 2 ^ 64 :=
  (h.archives_le archive harchive).trans_lt h.generation_lt

theorem Holds.readGenerationSidecar (h : Holds store contents torn files) :
    ∃ generation, readGenerationSidecar files = .ok generation ∧
      generation.getD 0 = contents.generation ∧
      (contents.archives ≠ [] → generation = some contents.generation) := by
  rcases h.sidecar with hfile | ⟨hfile, hzero, harchives⟩
  · exact ⟨_, readGenerationSidecar_line h.generation_lt hfile, rfl, fun _ => rfl⟩
  · refine ⟨none, ?_, hzero.symm, fun hne => absurd harchives hne⟩
    rw [CatRecordingValidation.readGenerationSidecar, hfile]

theorem Holds.storeFingerprint (h : Holds store contents torn files) :
    ∃ fingerprint, storeFingerprint files = .ok fingerprint ∧
      fingerprint.generation = contents.generation := by
  obtain ⟨generation, hread, hgeneration, -⟩ := h.readGenerationSidecar
  rw [CatRecordingValidation.storeFingerprint, hread]
  exact ⟨_, rfl, hgeneration⟩

def CatRecordingValidationStore.segmentOf (store : CatRecordingValidationStore)
    (archive : Nat × List CatRecordingValidationRecord) : ValidationArchiveSegment :=
  { generation := archive.1, name := validationStoreArchiveName store.fileName archive.1 }

theorem filterMapM_archiveEntry (h : ∀ archive ∈ archives, archive.1 < 2 ^ 64) :
    ((archives.map store.archiveEntry).filterMapM fun entry => do
      let generation ← archiveGeneration store.fileName entry.1
      return generation.map fun generation =>
        ({ generation := generation, name := entry.1 } : ValidationArchiveSegment)) =
      .ok (archives.map store.segmentOf) := by
  induction archives with
  | nil => rfl
  | cons archive archives ih =>
      have hhead := archiveGeneration_archiveName store.fileName (h archive (by simp))
      rw [List.map_cons, List.filterMapM_cons,
        ih fun other hother => h other (by simp [hother])]
      simp only [CatRecordingValidationStore.archiveEntry, hhead]
      rfl

theorem exists_perm_of_perm_map {α β : Type} {f : α → β} {images : List β} {items : List α}
    (h : images.Perm (items.map f)) : ∃ listed : List α, images = listed.map f ∧
      listed.Perm items := by
  generalize hmapped : items.map f = mapped at h
  induction h generalizing items with
  | nil => exact ⟨[], rfl, by rw [List.map_eq_nil_iff.mp hmapped]⟩
  | cons image h ih =>
      obtain ⟨item, rest, rfl, rfl, hrest⟩ := List.map_eq_cons_iff.mp hmapped
      obtain ⟨listed, rfl, hperm⟩ := ih hrest
      exact ⟨item :: listed, rfl, hperm.cons item⟩
  | swap image image' rest =>
      obtain ⟨item, tail, rfl, rfl, htail⟩ := List.map_eq_cons_iff.mp hmapped
      obtain ⟨item', tail, rfl, rfl, rfl⟩ := List.map_eq_cons_iff.mp htail
      exact ⟨item' :: item :: tail, rfl, .swap _ _ _⟩
  | trans _ _ ih ih' =>
      obtain ⟨listed, rfl, hperm⟩ := ih' hmapped
      obtain ⟨listed', rfl, hperm'⟩ := ih rfl
      exact ⟨listed', rfl, hperm'.trans hperm⟩

theorem pairwise_mergeSort_generation (archives : List ValidationArchiveSegment) :
    (archives.mergeSort fun a b => a.generation ≤ b.generation).Pairwise
      fun a b => a.generation ≤ b.generation := by
  refine (List.pairwise_mergeSort ?_ ?_ archives).imp fun hle => of_decide_eq_true hle
  · intro a b c hab hbc
    exact decide_eq_true ((of_decide_eq_true hab).trans (of_decide_eq_true hbc))
  · intro a b
    simpa using Nat.le_total a.generation b.generation

theorem Holds.archiveSegments (h : Holds store contents torn files) :
    archiveSegments store.fileName files = .ok (contents.archives.map store.segmentOf) := by
  obtain ⟨listed, hsiblings, hlisted⟩ := exists_perm_of_perm_map h.archives
  have hbound : ∀ archive ∈ listed, archive.1 < 2 ^ 64 := fun archive harchive =>
    h.archive_lt (hlisted.mem_iff.mp harchive)
  rw [CatRecordingValidation.archiveSegments, hsiblings, filterMapM_archiveEntry hbound]
  refine congrArg Except.ok ?_
  -- Both sides are in order of generation, and the generation determines the segment.
  have hperm := (List.mergeSort_perm (listed.map store.segmentOf) fun a b =>
    decide (a.generation ≤ b.generation)).trans (hlisted.map store.segmentOf)
  have hright : (contents.archives.map store.segmentOf).Pairwise
      fun a b => a.generation ≤ b.generation := by
    rw [List.pairwise_map]
    exact (List.pairwise_map.mp h.ascending).imp fun hlt => Nat.le_of_lt hlt
  refine List.Perm.eq_of_pairwise ?_ (pairwise_mergeSort_generation _) hright hperm
  intro a b ha hb hab hba
  obtain ⟨archive, -, rfl⟩ := List.mem_map.mp (hperm.mem_iff.mp ha)
  obtain ⟨archive', -, rfl⟩ := List.mem_map.mp hb
  have hsame : archive.1 = archive'.1 := Nat.le_antisymm hab hba
  rw [CatRecordingValidationStore.segmentOf, CatRecordingValidationStore.segmentOf, hsame]

theorem Holds.readGeneration (h : Holds store contents torn files) :
    readGeneration (contents.archives.map store.segmentOf) files = .ok contents.generation := by
  obtain ⟨generation, hread, hgeneration, hsome⟩ := h.readGenerationSidecar
  have hlast : ¬((contents.archives.map store.segmentOf).getLast?.map (·.generation)).any
      (fun archive => contents.generation < archive) = true := by
    rw [Option.any_map, Option.any_eq_true]
    rintro ⟨segment, hsegment, hlt⟩
    obtain ⟨archive, harchive, rfl⟩ := List.mem_map.mp (List.mem_of_getLast? hsegment)
    exact absurd (of_decide_eq_true hlt) (Nat.not_lt.mpr (h.archives_le archive harchive))
  rw [CatRecordingValidation.readGeneration, hread]
  rcases generation with _ | generation
  · have harchives : contents.archives = [] := by
      by_contra hne
      cases hsome hne
    rw [harchives, ← hgeneration]
    rfl
  · obtain rfl : generation = contents.generation := hgeneration
    exact if_neg hlast

theorem lookup_of_unique {entries : List (String × Bytes)} {name : String} {bytes : Bytes}
    (hmem : (name, bytes) ∈ entries)
    (hunique : ∀ entry ∈ entries, entry.1 = name → entry.2 = bytes) :
    entries.lookup name = some bytes := by
  induction entries with
  | nil => simp at hmem
  | cons entry entries ih =>
      rw [List.lookup_cons]
      rcases eq_or_ne name entry.1 with heq | hne
      · rw [← heq, beq_self_eq_true]
        exact congrArg some (hunique entry (by simp) heq.symm)
      · rw [beq_false_of_ne hne]
        refine ih ?_ fun other hother => hunique other (by simp [hother])
        rcases List.mem_cons.mp hmem with rfl | htail
        · exact absurd rfl hne
        · exact htail

theorem archiveName_injective (fileName : String) {generation generation' : Nat}
    (h : generation < 2 ^ 64) (h' : generation' < 2 ^ 64)
    (hname : validationStoreArchiveName fileName generation =
      validationStoreArchiveName fileName generation') : generation = generation' := by
  have hread := archiveGeneration_archiveName fileName h
  rw [hname, archiveGeneration_archiveName fileName h'] at hread
  exact (Option.some.inj (Except.ok.inj hread)).symm

theorem Holds.lookup_archive (h : Holds store contents torn files)
    (harchive : archive ∈ contents.archives) :
    files.siblings.lookup (validationStoreArchiveName store.fileName archive.1) =
      some (recordLog store.platform archive.2) := by
  apply lookup_of_unique
  · exact h.archives.mem_iff.mpr (List.mem_map_of_mem harchive)
  · intro entry hentry hname
    obtain ⟨archive', harchive', rfl⟩ := List.mem_map.mp (h.archives.mem_iff.mp hentry)
    have hsame : archive'.1 = archive.1 :=
      archiveName_injective store.fileName (h.archive_lt harchive') (h.archive_lt harchive) hname
    have hnodup : (contents.archives.map (·.1)).Nodup := h.ascending.imp Nat.ne_of_lt
    rw [List.inj_on_of_nodup_map hnodup harchive' harchive hsame]
    rfl

theorem Holds.scanArchive (hplatform : store.platform.RoundTrips)
    (h : Holds store contents torn files) {archive : Nat × List CatRecordingValidationRecord}
    (harchive : archive ∈ contents.archives) (latest : Latest) :
    scanArchive store.platform store.parent files latest (store.segmentOf archive) =
      .ok (latest.storeAll archive.2) := by
  have hlength : ¬maxStoreBytes < (recordLog store.platform archive.2).length :=
    Nat.not_lt.mpr ((h.archive_length archive harchive).trans store.threshold_le)
  rw [CatRecordingValidation.scanArchive, CatRecordingValidationStore.segmentOf,
    h.lookup_archive harchive]
  simp only [if_neg hlength]
  exact applyStrictArchiveRecords_recordLog hplatform (h.archive_ne_nil archive harchive)
    (h.archive_fits archive harchive) _ _

theorem Holds.foldlM_scanArchive (hplatform : store.platform.RoundTrips)
    (h : Holds store contents torn files)
    (harchives : ∀ archive ∈ archives, archive ∈ contents.archives) (latest : Latest) :
    (archives.map store.segmentOf).foldlM
      (CatRecordingValidation.scanArchive store.platform store.parent files) latest =
      .ok (latest.storeAll (archives.flatMap (·.2))) := by
  induction archives generalizing latest with
  | nil => rfl
  | cons archive archives ih =>
      rw [List.map_cons, List.foldlM_cons, h.scanArchive hplatform (harchives archive (by simp))]
      refine (ih (fun other hother => harchives other (by simp [hother]))
        (latest.storeAll archive.2)).trans ?_
      rw [List.flatMap_cons, Latest.storeAll, Latest.storeAll, Latest.storeAll,
        List.foldl_append]

theorem Holds.scanLatestUnlocked (hplatform : store.platform.RoundTrips)
    (h : Holds store contents [] files) :
    ∃ latest, scanLatestUnlocked store files = .ok latest ∧ latest.view = contents.view := by
  have harchives := h.foldlM_scanArchive hplatform (fun _ hmem => hmem) ∅
  have hview : ∀ latest : Latest, latest = Latest.storeAll ∅ (contents.archives.flatMap (·.2)) →
      (latest.storeAll contents.main).view = contents.view := by
    rintro latest rfl
    rw [Latest.view_storeAll, Latest.view_storeAll]
    rfl
  have hmain := h.main
  have hlength := h.main_length
  rw [List.append_nil] at hmain
  rw [StoreFiles.mainBytes] at hmain hlength
  rw [CatRecordingValidation.scanLatestUnlocked, h.archiveSegments]
  simp only [bind, Except.bind, h.readGeneration, harchives]
  rcases hopened : files.main with _ | opened <;> rw [hopened] at hmain hlength
  · have hnone : contents.main = [] := by
      simpa [recordLog, logOf_eq_nil_iff] using hmain.symm
    refine ⟨_, rfl, ?_⟩
    rw [← hview _ rfl, hnone]
    rfl
  · have hlimit : ¬maxStoreBytes < opened.bytes.length :=
      Nat.not_lt.mpr (hlength.trans store.threshold_le)
    have hbytes : opened.bytes = recordLog store.platform contents.main := hmain
    refine ⟨_, if_neg hlimit, ?_⟩
    rw [hbytes, readLines_recordLog hplatform h.main_fits]
    exact hview _ rfl

end Contents

end HarborBeacon.CatRecordingValidation
