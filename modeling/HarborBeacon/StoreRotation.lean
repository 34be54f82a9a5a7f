import HarborBeacon.Results
import HarborBeacon.StoreRefinement

/-!
A main file that the scan can read but the rotation cannot. The scan passes over lines that are
no records; the archive that the main file is to become must have none.
-/

namespace HarborBeacon.CatRecordingValidation

open LineLog FileProgram Results

variable {store : CatRecordingValidationStore} {platform : Platform} {files files' : StoreFiles}
  {w : StoreWorld} {record : CatRecordingValidationRecord} {latest : Latest} {path : String}
  {generation : Nat} {process : Nat} {line : Bytes} {n : Nat}

def StrictLine (platform : Platform) (line : Bytes) : Prop :=
  line ≠ [] ∧ line.length ≤ maxRecordBytes ∧ ∃ record, platform.fromSlice line = .ok record

theorem applyStrictLine_of_not_strict (h : ¬StrictLine platform line) :
    ∃ message, applyStrictLine platform path latest line = .error message := by
  unfold applyStrictLine
  split
  · exact ⟨_, rfl⟩
  · rename_i hline
    rw [not_or, Nat.not_lt] at hline
    rcases hparsed : platform.fromSlice line with message | record
    · exact ⟨_, rfl⟩
    · exact absurd ⟨hline.1, hline.2, record, hparsed⟩ h

theorem applyStrictLine_of_strict (h : StrictLine platform line) :
    ∃ latest', applyStrictLine platform path latest line = .ok latest' := by
  obtain ⟨hne, hlength, record, hparsed⟩ := h
  rw [applyStrictLine, if_neg (not_or.mpr ⟨hne, Nat.not_lt.mpr hlength⟩), hparsed]
  exact ⟨_, rfl⟩

theorem foldlM_applyStrictLine_ok_iff {lines : List Bytes} :
    (∃ latest', lines.foldlM (applyStrictLine platform path) latest = .ok latest') ↔
      ∀ line ∈ lines, StrictLine platform line := by
  induction lines generalizing latest with
  | nil => exact iff_of_true ⟨latest, rfl⟩ (by simp)
  | cons line lines ih =>
      rw [List.foldlM_cons, List.forall_mem_cons]
      by_cases hstrict : StrictLine platform line
      · obtain ⟨latest', happly⟩ := applyStrictLine_of_strict hstrict
        rw [happly]
        exact ih.trans (and_iff_right hstrict).symm
      · obtain ⟨message, happly⟩ := applyStrictLine_of_not_strict hstrict
        rw [happly]
        constructor
        · rintro ⟨latest', hresult⟩
          cases hresult
        · exact fun h => absurd h.1 hstrict

theorem applyStrictArchiveRecords_ok_iff {bytes : Bytes} (hlast : bytes.getLast? = some newline) :
    (∃ latest', applyStrictArchiveRecords platform path bytes latest = .ok latest') ↔
      ∀ line ∈ readLines newline bytes, StrictLine platform line := by
  have hcomplete : ¬(bytes = [] ∨ bytes.getLast? ≠ some newline) := by
    rw [hlast]
    rintro (rfl | hne)
    · cases hlast
    · exact hne rfl
  rw [applyStrictArchiveRecords, if_neg hcomplete, readLines_eq_splitOn_dropLast hlast]
  exact foldlM_applyStrictLine_ok_iff

/-- The scan can read the directory. -/
def Accepted (store : CatRecordingValidationStore) (files : StoreFiles) : Prop :=
  ∃ latest, scanLatestUnlocked store files = .ok latest

def StoreFiles.lastGeneration (files : StoreFiles) : Nat :=
  ((readGenerationSidecar files).toOption.bind id).getD 0

theorem Accepted.checks (h : Accepted store files) :
    ∃ segments sidecar latest, archiveSegments store.fileName files = .ok segments ∧
      readGenerationSidecar files = .ok sidecar ∧
      readGeneration segments files = .ok (sidecar.getD 0) ∧
      segments.foldlM (scanArchive store.platform store.parent files) ∅ = .ok latest ∧
      files.mainBytes.length ≤ maxStoreBytes := by
  obtain ⟨latest, hscan⟩ := h
  obtain ⟨segments, hsegments, hscan⟩ := bind_eq_ok hscan
  obtain ⟨generation, hgeneration, hscan⟩ := bind_eq_ok hscan
  obtain ⟨archived, harchived, hscan⟩ := bind_eq_ok hscan
  obtain ⟨sidecar, hsidecar, hnumber⟩ := bind_eq_ok hgeneration
  have hvalue : generation = sidecar.getD 0 := by
    rcases sidecar with _ | number
    · dsimp only at hnumber
      split at hnumber
      · cases hnumber
      · exact (Except.ok.inj hnumber).symm
    · dsimp only at hnumber
      split at hnumber
      · cases hnumber
      · exact (Except.ok.inj hnumber).symm
  have hlength : files.mainBytes.length ≤ maxStoreBytes := by
    rw [StoreFiles.mainBytes]
    rcases hmain : files.main with _ | opened
    · exact Nat.zero_le _
    · rw [hmain] at hscan
      dsimp only at hscan
      split at hscan
      · cases hscan
      · rename_i hlimit
        exact Nat.not_lt.mp hlimit
  exact ⟨segments, sidecar, archived, hsegments, hsidecar, hvalue ▸ hgeneration, harchived,
    hlength⟩

theorem Accepted.congr (h : Accepted store files) (hsiblings : files'.siblings = files.siblings)
    (hgeneration : files'.generation = files.generation)
    (hlength : files'.mainBytes.length ≤ files.mainBytes.length) : Accepted store files' := by
  obtain ⟨segments, sidecar, latest, hsegments, -, hnumber, harchived, hlimit⟩ := h.checks
  have hsegments' : archiveSegments store.fileName files' = .ok segments := by
    rw [← hsegments, archiveSegments, archiveSegments, hsiblings]
  have hnumber' : readGeneration segments files' = .ok (sidecar.getD 0) := by
    rw [← hnumber, readGeneration, readGeneration, readGenerationSidecar, readGenerationSidecar,
      hgeneration]
  have hscan : scanArchive store.platform store.parent files' =
      scanArchive store.platform store.parent files := by
    funext latest archive
    rw [scanArchive, scanArchive, hsiblings]
  have hlimit' := hlength.trans hlimit
  rw [StoreFiles.mainBytes] at hlimit'
  unfold Accepted scanLatestUnlocked
  rw [hsegments']
  simp only [Bind.bind, Except.bind, hnumber', hscan, harchived]
  rcases hmain : files'.main with _ | opened
  · exact ⟨_, rfl⟩
  · rw [hmain] at hlimit'
    exact ⟨_, if_neg (Nat.not_lt.mpr hlimit')⟩

theorem le_of_readGeneration {segments : List ValidationArchiveSegment} {sidecar : Option Nat}
    (hsorted : segments.Pairwise fun a b => a.generation ≤ b.generation)
    (hsidecar : readGenerationSidecar files = .ok sidecar)
    (h : readGeneration segments files = .ok (sidecar.getD 0)) :
    ∀ segment ∈ segments, segment.generation ≤ sidecar.getD 0 := by
  rcases List.eq_nil_or_concat' segments with rfl | ⟨start, last, rfl⟩
  · simp
  have hmax : ∀ segment ∈ start ++ [last], segment.generation ≤ last.generation := by
    intro segment hsegment
    rcases List.mem_append.mp hsegment with hstart | hlast
    · exact (List.pairwise_append.mp hsorted).2.2 segment hstart last (by simp)
    · rw [List.mem_singleton.mp hlast]
  rw [readGeneration, hsidecar, List.getLast?_concat] at h
  rcases sidecar with _ | generation
  · cases h
  · have hlast : last.generation ≤ generation := by
      by_contra hlt
      rw [Nat.not_le] at hlt
      simp [Bind.bind, Except.bind, hlt] at h
    exact fun segment hsegment => (hmax segment hsegment).trans hlast

theorem Accepted.archiveName_new (h : Accepted store files)
    (hlt : files.lastGeneration + 1 < 2 ^ 64) :
    ∀ entry ∈ files.siblings,
      entry.1 ≠ validationStoreArchiveName store.fileName (files.lastGeneration + 1) := by
  obtain ⟨segments, sidecar, -, hsegments, hsidecar, hnumber, -⟩ := h.checks
  intro entry hentry hname
  have hread := archiveGeneration_archiveName store.fileName hlt
  rw [← hname] at hread
  have hvalue : files.lastGeneration = sidecar.getD 0 := by
    rw [StoreFiles.lastGeneration, hsidecar]
    rfl
  obtain ⟨listed, hlisted, hsorted⟩ := bind_eq_ok hsegments
  have hfound : ({ generation := files.lastGeneration + 1, name := entry.1 } :
      ValidationArchiveSegment) ∈ listed := by
    refine mem_of_filterMapM hlisted hentry ?_
    simp only [hread]
    rfl
  have hsegment := (List.mergeSort_perm listed fun a b =>
    decide (a.generation ≤ b.generation)).mem_iff.mpr hfound
  rw [← Except.ok.inj hsorted] at hnumber
  have hle := le_of_readGeneration (pairwise_mergeSort_generation listed) hsidecar hnumber _
    hsegment
  dsimp only at hle
  omega

theorem safely_readFiles_bind_error {α β : Type} {f : StoreFiles → Except String α}
    {g : α → StoreProgram β} {message : String} {C : StoreWorld → Prop}
    {Q : Except String β → StoreWorld → Prop} (hf : f w.files = .error message) (hC : C w)
    (hQ : Q (.error message) w) : Safely (readFiles f >>= g).run w C Q := by
  refine safely_run_bind (safely_readFiles hC (Q := fun r w' => r = .error message ∧ w' = w)
    ⟨hf, rfl⟩) ?_ ?_
  · rintro a w' ⟨hr, -⟩
    cases hr
  · rintro message' w' ⟨hr, rfl⟩
    rw [Except.error.inj hr]
    exact hQ

theorem appendLine_ends (line : Bytes) :
    Safely (appendLine store line).run w (fun _ => True)
      fun r w' => r = .ok () ∧ w'.files.generation = w.files.generation := by
  refine safely_run_bind (openDataAppendCreate_safely store.platform (fun _ _ => trivial) trivial)
    ?_ ?_
  · rintro - w₁ ⟨-, hcreated⟩
    refine (writeAll_safely _ hcreated).mono (fun _ _ => trivial) ?_
    rintro r w₂ ⟨hr, hgrown⟩
    exact ⟨hr, hgrown.generation⟩
  · rintro message w₁ ⟨hr, -⟩
    cases hr

theorem rotateUnlocked_ends (line : Bytes) (hlast : w.files.mainBytes.getLast? = some newline)
    (hlimit : w.files.mainBytes.length ≤ maxStoreBytes) (hnew : ∀ entry ∈ w.files.siblings,
      entry.1 ≠ validationStoreArchiveName store.fileName generation) :
    Safely (rotateUnlocked store line generation).run w (fun _ => True)
      fun r w' => w'.files.generation = w.files.generation ∧
        (r = .ok () ↔
          ∀ line ∈ readLines newline w.files.mainBytes, StrictLine store.platform line) := by
  have hne : w.files.mainBytes ≠ [] := by
    intro hnil
    rw [hnil] at hlast
    cases hlast
  obtain ⟨opened, hopened, hbytes⟩ := StoreFiles.exists_opened hne
  rw [hbytes] at hlast hlimit ⊢
  refine safely_readFiles_bind (congrArg Except.ok hopened) trivial ?_
  simp only [if_neg (Nat.not_lt.mpr hlimit)]
  rcases hstrict : applyStrictArchiveRecords store.platform
      (store.parent ++ "/" ++ validationStoreArchiveName store.fileName generation) opened.bytes ∅
    with message | latest
  · refine safely_readFiles_bind_error rfl trivial ⟨rfl, ?_⟩
    rw [← applyStrictArchiveRecords_ok_iff hlast, hstrict]
    simp
  · refine safely_readFiles_bind rfl trivial ?_
    refine safely_run_bind_ok (safely_run_adapt_ok
      (createSiblingAtomically_safely hnew trivial trivial)) ?_
    refine safely_modifyFiles trivial trivial ⟨rfl, ?_⟩
    rw [← applyStrictArchiveRecords_ok_iff hlast]
    exact iff_of_true rfl ⟨latest, hstrict⟩

/-- Nothing stands in the way of an append: there is a next generation, and if the main file has
to be rotated all its complete lines are strict. -/
def CanAppend (store : CatRecordingValidationStore) (files : StoreFiles)
    (record : CatRecordingValidationRecord) : Prop :=
  files.lastGeneration + 1 < 2 ^ 64 ∧
    (compacted store (complete newline files.mainBytes).length
        ((store.platform.toVec record).length + 1) = true →
      ∀ line ∈ readLines newline (complete newline files.mainBytes),
        StrictLine store.platform line)

theorem Accepted.readGenerationSidecar (h : Accepted store files) :
    ∃ sidecar, readGenerationSidecar files = .ok sidecar ∧
      sidecar.getD 0 = files.lastGeneration := by
  obtain ⟨-, sidecar, -, -, hsidecar, -⟩ := h.checks
  refine ⟨sidecar, hsidecar, ?_⟩
  rw [StoreFiles.lastGeneration, hsidecar]
  rfl

theorem writeLine_ends (line : Bytes) {compacted : Bool}
    (hends : w.files.mainBytes = [] ∨ w.files.mainBytes.getLast? = some newline)
    (hlimit : w.files.mainBytes.length ≤ maxStoreBytes) (hnew : ∀ entry ∈ w.files.siblings,
      entry.1 ≠ validationStoreArchiveName store.fileName generation)
    (hcompacted : compacted = true → w.files.mainBytes ≠ []) :
    Safely (writeLine store line generation compacted).run w (fun _ => True)
      fun r w' => w'.files.generation = w.files.generation ∧
        (r = .ok () ↔ (compacted = true →
          ∀ line ∈ readLines newline w.files.mainBytes, StrictLine store.platform line)) := by
  rcases compacted with _ | _
  · refine (appendLine_ends line).mono (fun _ _ => trivial) ?_
    rintro r w' ⟨hr, hgeneration⟩
    exact ⟨hgeneration, iff_of_true hr fun hfalse => by cases hfalse⟩
  · have hlast := hends.resolve_left (hcompacted rfl)
    refine (rotateUnlocked_ends line hlast hlimit hnew).mono (fun _ _ => trivial) ?_
    rintro r w' ⟨hgeneration, hresult⟩
    exact ⟨hgeneration, hresult.trans ⟨fun h _ => h, fun h => h rfl⟩⟩

theorem appendUnlocked_ends (h : Accepted store w.files)
    (hends : w.files.mainBytes = [] ∨ w.files.mainBytes.getLast? = some newline)
    (hfits : store.platform.Fits record)
    (hlength : (store.platform.toVec record).length + 1 ≤ store.compactionThresholdBytes) :
    Safely (appendUnlocked store record).run w (fun _ => True)
      fun r _ => (∃ persisted, r = .ok persisted) ↔ CanAppend store w.files record := by
  obtain ⟨sidecar, hsidecar, hvalue⟩ := h.readGenerationSidecar
  obtain ⟨-, -, -, -, -, -, -, hlimit⟩ := h.checks
  have hlimits : ¬(store.compactionThresholdBytes < (store.platform.toVec record).length + 1 ∨
      maxStoreBytes < (store.platform.toVec record).length + 1) := by
    have hthreshold := store.threshold_le
    omega
  unfold CanAppend
  rw [complete_eq_self hends]
  unfold appendUnlocked
  simp only [StoreFiles.elim_length, if_neg (Nat.not_lt.mpr hfits), if_neg hlimits]
  refine safely_readFiles_bind rfl trivial ?_
  by_cases hlt : w.files.lastGeneration + 1 < 2 ^ 64
  · refine safely_run_bind_ok (advanceGeneration_safely hsidecar hvalue hlt trivial trivial) ?_
    refine safely_run_bind (writeLine_ends (store.platform.toVec record) hends hlimit
      (h.archiveName_new hlt) ?_) ?_ ?_
    · intro hcompacted hnil
      rw [show w.files.mainBytes = [] from hnil] at hcompacted
      cases hcompacted
    · rintro ⟨⟩ w' ⟨hgeneration, hresult⟩
      have hread : ∃ fingerprint, storeFingerprint w'.files = .ok fingerprint := by
        rw [storeFingerprint, readGenerationSidecar_line hlt hgeneration]
        exact ⟨_, rfl⟩
      obtain ⟨fingerprint, hread⟩ := hread
      refine safely_readFiles_bind hread trivial (safely_run_pure trivial ?_)
      exact iff_of_true ⟨_, rfl⟩ ⟨hlt, hresult.mp rfl⟩
    · rintro message w' ⟨-, hresult⟩
      refine iff_of_false ?_ fun hcan => ?_
      · rintro ⟨persisted, hr⟩
        cases hr
      · cases hresult.mpr hcan.2
  · refine safely_run_bind (advanceGeneration_exhausted hsidecar hvalue hlt trivial) ?_ ?_
    · rintro generation w' ⟨⟨message, hr⟩, -⟩
      cases hr
    · rintro message w' -
      refine iff_of_false ?_ fun hcan => hlt hcan.1
      rintro ⟨persisted, hr⟩
      cases hr

theorem Repaired.accepted (h : Repaired files files') (haccepted : Accepted store files) :
    Accepted store files' := by
  refine haccepted.congr h.siblings h.generation ?_
  rw [h.main]
  exact length_complete_le _

theorem Repaired.canAppend_iff (h : Repaired files files') :
    CanAppend store files' record ↔ CanAppend store files record := by
  have hgeneration : files'.lastGeneration = files.lastGeneration := by
    rw [StoreFiles.lastGeneration, StoreFiles.lastGeneration, readGenerationSidecar,
      readGenerationSidecar, h.generation]
  unfold CanAppend
  rw [hgeneration, h.main, complete_eq_self (complete_ends _)]

theorem refreshIndexIfNeeded_ends (h : Accepted store w.files) :
    Safely (refreshIndexIfNeeded store process).run w (fun _ => True)
      fun r w' => r = .ok () ∧ w'.files = w.files := by
  obtain ⟨latest, hscan⟩ := h
  obtain ⟨sidecar, hsidecar, -⟩ := Accepted.readGenerationSidecar ⟨latest, hscan⟩
  have hread : ∃ fingerprint, storeFingerprint w.files = .ok fingerprint := by
    rw [storeFingerprint, hsidecar]
    exact ⟨_, rfl⟩
  obtain ⟨fingerprint, hread⟩ := hread
  refine safely_readFiles_bind hread trivial (safely_readIndex_bind trivial ?_)
  split
  · exact safely_run_pure trivial ⟨rfl, rfl⟩
  · exact safely_readFiles_bind hscan trivial (safely_modifyIndex_bind trivial trivial
      (safely_readFiles_bind hread trivial (safely_modifyIndex trivial trivial ⟨rfl, rfl⟩)))

theorem withLockedIndex_ends {α : Type} {operation : StoreProgram α}
    {Q : Except String α → StoreWorld → Prop} (haccepted : Accepted store w.files)
    (hoperation : ∀ w', Repaired w.files w'.files →
      Safely operation.run w' (fun _ => True) Q) :
    Safely (withLockedIndex store process operation).run w (fun _ => True) Q := by
  have hrefresh : ∀ w', Repaired w.files w'.files →
      Safely (refreshIndexIfNeeded store process >>= fun _ => operation).run w' (fun _ => True)
        Q := by
    intro w' hrepaired
    refine safely_run_bind (refreshIndexIfNeeded_ends (hrepaired.accepted haccepted)) ?_ ?_
    · rintro - w₁ ⟨-, hfiles⟩
      exact hoperation w₁ (by rwa [hfiles])
    · rintro message w₁ ⟨hr, -⟩
      cases hr
  refine safely_run_bind (repair_safely trivial fun _ _ => trivial) ?_ ?_
  · rintro repaired w' ⟨-, hrepaired, -⟩
    dsimp only
    split
    · exact safely_modifyIndex_bind trivial trivial (hrefresh _ hrepaired)
    · exact hrefresh w' hrepaired
  · rintro message w' ⟨⟨_, hr⟩, -⟩
    cases hr

theorem persist_ends (process : Nat) (h : Accepted store w.files)
    (hfits : store.platform.Fits record)
    (hlength : (store.platform.toVec record).length + 1 ≤ store.compactionThresholdBytes) :
    Safely (withLockedIndex store process (persistIndexRecord store process record)).run w
      (fun _ => True)
      fun r _ => (∃ stored, r = .ok stored) ↔ CanAppend store w.files record := by
  refine withLockedIndex_ends h fun w' hrepaired => ?_
  have hends : w'.files.mainBytes = [] ∨ w'.files.mainBytes.getLast? = some newline := by
    rw [hrepaired.main]
    exact complete_ends _
  rw [← hrepaired.canAppend_iff]
  refine safely_run_bind (appendUnlocked_ends (hrepaired.accepted h) hends hfits hlength) ?_ ?_
  · rintro persisted w₁ hresult
    have hcan := hresult.mp ⟨persisted, rfl⟩
    exact safely_modifyIndex_bind trivial trivial
      (safely_run_pure trivial (iff_of_true ⟨_, rfl⟩ hcan))
  · rintro message w₁ hresult
    refine iff_of_false ?_ fun hcan => ?_
    · rintro ⟨stored, hr⟩
      cases hr
    · obtain ⟨persisted, hr⟩ := hresult.mpr hcan
      cases hr

def blankLines (n : Nat) : StoreFiles :=
  { main := some
      { bytes := List.replicate n newline
        modifiedEpochNanos := none
        identity := { device := 1, inode := 1 } } }

theorem blankLines_accepted (hn : n ≤ maxStoreBytes) :
    Accepted store (blankLines n) := by
  have hsegments : archiveSegments store.fileName (blankLines n) = .ok [] := by
    unfold archiveSegments
    rw [show (blankLines n).siblings = [] from rfl, List.filterMapM_nil]
    simp [Bind.bind, Except.bind, pure, Except.pure]
  have hgeneration : readGeneration [] (blankLines n) = .ok 0 := rfl
  have hlimit : ¬maxStoreBytes < (List.replicate n newline).length := by
    rw [List.length_replicate]
    exact Nat.not_lt.mpr hn
  unfold Accepted scanLatestUnlocked
  rw [hsegments]
  simp only [Bind.bind, Except.bind, hgeneration]
  exact ⟨_, if_neg hlimit⟩

theorem blankLines_compacted (hpos : 0 < n) (hthreshold : store.compactionThresholdBytes ≤ n)
    (recordBytes : Nat) (hrecord : 0 < recordBytes) : compacted store n recordBytes = true := by
  have hmax := store.threshold_le
  unfold maxStoreBytes at hmax
  unfold compacted saturatingAdd
  simp only [Bool.and_eq_true, decide_eq_true_eq]
  omega

theorem blankLines_not_canAppend (hpos : 0 < n) (hthreshold : store.compactionThresholdBytes ≤ n) :
    ¬CanAppend store (blankLines n) record := by
  have hlast : (List.replicate n newline).getLast? = some newline := by
    rw [List.getLast?_replicate, if_neg (Nat.ne_of_gt hpos)]
  have hmain : complete newline (blankLines n).mainBytes = List.replicate n newline :=
    complete_eq_self (.inr hlast)
  rintro ⟨-, hstrict⟩
  rw [hmain, List.length_replicate] at hstrict
  refine (hstrict (blankLines_compacted hpos hthreshold _ (Nat.succ_pos _)) [] ?_).1 rfl
  rw [readLines_eq_splitOn_dropLast hlast, List.dropLast_replicate]
  exact nil_mem_splitOn_replicate (n - 1)

end HarborBeacon.CatRecordingValidation
