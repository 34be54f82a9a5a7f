import HarborBeacon.StoreSegments

/-!
Whatever happens to an operation on the store, the directory afterwards holds the records from
before it with the first few of those that the operation appends.
-/

namespace HarborBeacon.CatRecordingValidation

open DecimalText LineLog FileProgram

theorem lastNewline?_eq_none {chunk : Bytes} (h : lastNewline? chunk = none) :
    newline ∉ chunk := by
  rw [lastNewline?, Option.map_eq_none_iff, List.findIdx?_eq_none_iff] at h
  intro hmem
  simpa using h newline (List.mem_reverse.mpr hmem)

theorem lastNewline?_eq_some {chunk : Bytes} {i : Nat} (h : lastNewline? chunk = some i) :
    chunk[i]? = some newline ∧ newline ∉ chunk.drop (i + 1) := by
  rw [lastNewline?, Option.map_eq_some_iff] at h
  obtain ⟨j, hj, rfl⟩ := h
  obtain ⟨hlength, hnewline, hbefore⟩ := List.findIdx?_eq_some_iff_getElem.mp hj
  rw [List.length_reverse] at hlength
  constructor
  · rw [List.getElem_reverse] at hnewline
    rw [List.getElem?_eq_getElem (by omega)]
    exact congrArg some (eq_of_beq hnewline)
  · intro hmem
    rw [show chunk.length - 1 - j + 1 = chunk.length - j by omega, ← List.mem_reverse,
      ← List.take_reverse] at hmem
    obtain ⟨k, hk, hlast⟩ := List.mem_take_iff_getElem.mp hmem
    refine hbefore k (by omega) ?_
    rw [hlast]
    exact beq_self_eq_true newline

theorem drop_eq_chunk_append (bytes : Bytes) {position chunkLen : Nat}
    (h : chunkLen ≤ position) :
    bytes.drop (position - chunkLen) =
      (bytes.drop (position - chunkLen)).take chunkLen ++ bytes.drop position := by
  have hdrop : (bytes.drop (position - chunkLen)).drop chunkLen = bytes.drop position := by
    rw [List.drop_drop, Nat.sub_add_cancel h]
  rw [← hdrop, List.take_append_drop]

theorem truncateTo_spec (bytes : Bytes) (position : Nat) (hposition : position ≤ bytes.length)
    (hrest : newline ∉ bytes.drop position) :
    (truncateTo bytes position = 0 ∨ bytes[truncateTo bytes position - 1]? = some newline) ∧
      newline ∉ bytes.drop (truncateTo bytes position) := by
  fun_induction truncateTo bytes position with
  | case1 position chunkLen start newlineIndex hfound =>
      obtain ⟨hnewline, hafter⟩ := lastNewline?_eq_some hfound
      have hsplit := drop_eq_chunk_append bytes (Nat.min_le_left position scanChunkBytes)
      have hindex : newlineIndex < ((bytes.drop start).take chunkLen).length :=
        (List.getElem?_eq_some_iff.mp hnewline).1
      constructor
      · right
        rw [Nat.add_sub_cancel, ← List.getElem?_drop, hsplit, List.getElem?_append_left hindex]
        exact hnewline
      · rw [Nat.add_assoc, ← List.drop_drop, hsplit, List.drop_append_of_le_length hindex]
        simpa [hafter] using hrest
  | case2 position chunkLen start hfound hstart =>
      have hsplit := drop_eq_chunk_append bytes (Nat.min_le_left position scanChunkBytes)
      refine ⟨.inl rfl, ?_⟩
      rw [← hstart, hsplit]
      exact fun hmem => (List.mem_append.mp hmem).elim (lastNewline?_eq_none hfound) hrest
  | case3 position chunkLen start hfound hstart ih =>
      have hsplit := drop_eq_chunk_append bytes (Nat.min_le_left position scanChunkBytes)
      refine ih (by omega) ?_
      rw [hsplit]
      exact fun hmem => (List.mem_append.mp hmem).elim (lastNewline?_eq_none hfound) hrest

theorem take_truncateTo (bytes : Bytes) :
    bytes.take (truncateTo bytes bytes.length) = complete newline bytes := by
  obtain ⟨hend, hrest⟩ := truncateTo_spec bytes bytes.length (Nat.le_refl _) (by simp)
  exact take_eq_complete hend hrest

section Rules

variable {α β : Type} {w : StoreWorld} {C : StoreWorld → Prop}
  {f : ValidationStoreIndex → ValidationStoreIndex} {g : Unit → StoreProgram β}

theorem safely_readFiles {f : StoreFiles → Except String α}
    {Q : Except String α → StoreWorld → Prop} (hC : C w) (hQ : Q (f w.files) w) :
    Safely (readFiles f).run w C Q :=
  safely_read hC hQ

theorem safely_modifyFiles {f : StoreFiles → StoreFiles}
    {Q : Except String Unit → StoreWorld → Prop} (hC : C w)
    (hC' : C { w with files := f w.files }) (hQ : Q (.ok ()) { w with files := f w.files }) :
    Safely (modifyFiles f).run w C Q :=
  safely_run_lift (safely_modify hC hC' hQ)

theorem safely_modifyIndex {process : Nat} {Q : Except String Unit → StoreWorld → Prop} (hC : C w)
    (hC' : C (w.setIndex process (f (w.index process))))
    (hQ : Q (.ok ()) (w.setIndex process (f (w.index process)))) :
    Safely (modifyIndex process f).run w C Q :=
  safely_run_lift (safely_modify hC hC' hQ)

variable {Q : Except String β → StoreWorld → Prop}

theorem safely_readFiles_bind {f : StoreFiles → Except String α} {g : α → StoreProgram β} {a : α}
    (hf : f w.files = .ok a) (hC : C w) (hg : Safely (g a).run w C Q) :
    Safely (readFiles f >>= g).run w C Q :=
  safely_run_bind_ok (safely_readFiles hC ⟨hf, rfl⟩) hg

theorem safely_readIndex_bind {process : Nat} {g : ValidationStoreIndex → StoreProgram β}
    (hC : C w) (hg : Safely (g (w.index process)).run w C Q) :
    Safely (readIndex process >>= g).run w C Q :=
  safely_run_bind_ok (safely_run_lift (safely_read hC ⟨rfl, rfl⟩)) hg

theorem safely_modifyFiles_bind {f : StoreFiles → StoreFiles} (hC : C w)
    (hC' : C { w with files := f w.files })
    (hg : Safely (g ()).run { w with files := f w.files } C Q) :
    Safely (modifyFiles f >>= g).run w C Q :=
  safely_run_bind_ok (safely_modifyFiles hC hC' ⟨rfl, rfl⟩) hg

theorem safely_modifyIndex_bind {process : Nat} (hC : C w)
    (hC' : C (w.setIndex process (f (w.index process))))
    (hg : Safely (g ()).run (w.setIndex process (f (w.index process))) C Q) :
    Safely (modifyIndex process f >>= g).run w C Q :=
  safely_run_bind_ok (safely_modifyIndex hC hC' ⟨rfl, rfl⟩) hg

end Rules

section Writes

variable {store : CatRecordingValidationStore} {contents : StoreContents} {torn : Bytes}
  {files files' : StoreFiles} {record : CatRecordingValidationRecord}

theorem Holds.congr (h : Holds store contents torn files)
    (hsiblings : files'.siblings.Perm files.siblings)
    (hgeneration : files'.generation = files.generation)
    (hmain : files'.mainBytes = files.mainBytes) : Holds store contents torn files' :=
  { h with
    archives := hsiblings.trans h.archives
    sidecar := by rw [hgeneration]; exact h.sidecar
    main := by rw [hmain]; exact h.main
    main_length := by rw [hmain]; exact h.main_length }

theorem Holds.advance (h : Holds store contents torn files)
    (hgeneration : contents.generation + 1 < 2 ^ 64) :
    Holds store { contents with generation := contents.generation + 1 } torn
      { files with generation := some (generationLine (contents.generation + 1)) } :=
  { h with
    archives_le := fun archive harchive => (h.archives_le archive harchive).trans (by simp)
    generation_lt := hgeneration
    sidecar := .inl rfl }

theorem Holds.appendTorn (h : Holds store contents [] files) {part : Bytes}
    (hpart : newline ∉ part) (hsiblings : files'.siblings = files.siblings)
    (hgeneration : files'.generation = files.generation)
    (hmain : files'.mainBytes = files.mainBytes ++ part)
    (hlength : files'.mainBytes.length ≤ store.compactionThresholdBytes) :
    Holds store contents part files' :=
  { h with
    archives := hsiblings ▸ h.archives
    sidecar := hgeneration ▸ h.sidecar
    main := by rw [hmain, h.main, List.append_nil]
    torn := hpart
    main_length := hlength }

theorem Holds.appendRecord (h : Holds store contents [] files)
    (hfits : store.platform.Fits record) (hsiblings : files'.siblings = files.siblings)
    (hgeneration : files'.generation = files.generation)
    (hmain : files'.mainBytes =
      files.mainBytes ++ (store.platform.toVec record ++ [newline]))
    (hlength : files'.mainBytes.length ≤ store.compactionThresholdBytes) :
    Holds store { contents with main := contents.main ++ [record] } [] files' :=
  { h with
    archives := hsiblings ▸ h.archives
    sidecar := hgeneration ▸ h.sidecar
    main := by rw [hmain, h.main, List.append_nil, List.append_nil, recordLog_concat]
    main_length := hlength
    main_fits := by
      intro other hother
      rcases List.mem_append.mp hother with hold | hnew
      · exact h.main_fits other hold
      · rw [List.mem_singleton.mp hnew]
        exact hfits }

theorem Holds.publish (h : Holds store contents [] files) (hne : contents.main ≠ [])
    (hnew : ∀ archive ∈ contents.archives, archive.1 < contents.generation)
    (hsidecar : files.generation = some (generationLine contents.generation)) :
    Holds store
      { contents with
        archives := contents.archives ++ [(contents.generation, contents.main)] } []
      { files with
        siblings := files.siblings ++
          [(validationStoreArchiveName store.fileName contents.generation, files.mainBytes)] } where
  archives := by
    rw [List.map_append]
    refine h.archives.append (.of_eq ?_)
    rw [h.main, List.append_nil]
    rfl
  ascending := by
    rw [List.map_append, List.pairwise_append]
    refine ⟨h.ascending, List.pairwise_singleton _ _, ?_⟩
    intro generation hgeneration last hlast
    obtain ⟨archive, harchive, rfl⟩ := List.mem_map.mp hgeneration
    rw [List.mem_singleton.mp hlast]
    exact hnew archive harchive
  archives_le :=
    List.forall_mem_append.mpr ⟨h.archives_le, List.forall_mem_singleton.mpr (Nat.le_refl _)⟩
  generation_lt := h.generation_lt
  sidecar := .inl hsidecar
  main := h.main
  torn := h.torn
  main_length := h.main_length
  main_fits := h.main_fits
  archive_ne_nil :=
    List.forall_mem_append.mpr ⟨h.archive_ne_nil, List.forall_mem_singleton.mpr hne⟩
  archive_length := by
    have hlength := h.main_length
    rw [h.main, List.append_nil] at hlength
    exact List.forall_mem_append.mpr ⟨h.archive_length, List.forall_mem_singleton.mpr hlength⟩
  archive_fits :=
    List.forall_mem_append.mpr ⟨h.archive_fits, List.forall_mem_singleton.mpr h.main_fits⟩

theorem Holds.replaceMain (h : Holds store contents torn files)
    (hfits : store.platform.Fits record)
    (hlength : (store.platform.toVec record).length + 1 ≤ store.compactionThresholdBytes) :
    Holds store { contents with main := [record] } []
      (files.replaceMain store.platform (store.platform.toVec record ++ [newline])) :=
  { h with
    main := by
      change store.platform.toVec record ++ [newline] = _
      simp [recordLog, logOf_cons]
    torn := by simp
    main_length := by
      change (store.platform.toVec record ++ [newline]).length ≤ _
      rw [List.length_append]
      exact hlength
    main_fits := by
      intro other hother
      rw [List.mem_singleton.mp hother]
      exact hfits }

theorem StoreContents.view_appendRecord :
    ({ contents with main := contents.main ++ [record] } : StoreContents).view =
      overlay [record] contents.view := by
  rw [view, overlay_append]
  rfl

theorem StoreContents.view_publish (generation : Nat) :
    ({ contents with
        archives := contents.archives ++ [(generation, contents.main)] } : StoreContents).view =
      contents.view := by
  rw [view, List.flatMap_append, overlay_append, List.flatMap_singleton, overlay_overlay_self]
  rfl

theorem StoreContents.view_rotate (generation : Nat) :
    ({ contents with
        archives := contents.archives ++ [(generation, contents.main)]
        main := [record] } : StoreContents).view = overlay [record] contents.view := by
  rw [view, List.flatMap_append, overlay_append, List.flatMap_singleton]
  rfl

end Writes

section Appending

variable {store : CatRecordingValidationStore} {contents : StoreContents}
  {record : CatRecordingValidationRecord} {w w' : StoreWorld} {sidecar : Option Nat}
  {generation : Nat} {bytes : Bytes}

/-- The world with `bytes` written behind the main file. -/
structure Grown (w : StoreWorld) (bytes : Bytes) (w' : StoreWorld) : Prop where
  index : w'.index = w.index
  siblings : w'.files.siblings = w.files.siblings
  generation : w'.files.generation = w.files.generation
  isSome : w'.files.main.isSome = true
  main : w'.files.mainBytes = w.files.mainBytes ++ bytes

theorem Grown.rewriteMain (h : Grown w bytes w') (platform : Platform) (byte : UInt8) :
    Grown w (bytes ++ [byte])
      { w' with files := w'.files.rewriteMain platform (· ++ [byte]) } where
  index := h.index
  siblings := h.siblings
  generation := h.generation
  isSome := by simpa [StoreFiles.rewriteMain] using h.isSome
  main := by
    obtain ⟨opened, hopened⟩ := Option.isSome_iff_exists.mp h.isSome
    have hmain := h.main
    simp only [StoreFiles.mainBytes, StoreFiles.rewriteMain, hopened, Option.map_some,
      Option.elim_some] at hmain ⊢
    rw [hmain, List.append_assoc]

theorem writeAll_safely {platform : Platform} {written : Bytes} (bytes : Bytes)
    (h : Grown w written w') :
    Safely (writeAll platform bytes).run w'
      (fun w₁ => ∃ k ≤ bytes.length, Grown w (written ++ bytes.take k) w₁)
      fun r w₁ => r = .ok () ∧ Grown w (written ++ bytes) w₁ := by
  induction bytes generalizing written w' with
  | nil => exact safely_run_pure ⟨0, Nat.le_refl 0, by simpa using h⟩ ⟨rfl, by simpa using h⟩
  | cons byte bytes ih =>
      have hnext := h.rewriteMain platform byte
      have hrest := ih hnext
      simp only [List.append_assoc, List.singleton_append] at hrest
      refine safely_modifyFiles_bind ⟨0, by simp, by simpa using h⟩
        ⟨1, by simp, by simpa using hnext⟩ (hrest.mono ?_ fun _ _ h => h)
      rintro w₁ ⟨k, hk, hgrown⟩
      exact ⟨k + 1, by simpa using hk, hgrown⟩

/-- What an append leaves when it is cut short after the generation has advanced: the record is
there or not. -/
structure Midway (store : CatRecordingValidationStore) (contents : StoreContents)
    (record : CatRecordingValidationRecord) (w w' : StoreWorld) : Prop where
  index : w'.index = w.index
  holds : ∃ contents' torn, Holds store contents' torn w'.files ∧
    contents'.generation = contents.generation ∧
    (contents'.view = contents.view ∨ contents'.view = overlay [record] contents.view)

/-- What an append leaves that was carried out. -/
structure Appended (store : CatRecordingValidationStore) (contents : StoreContents)
    (record : CatRecordingValidationRecord) (w w' : StoreWorld) : Prop where
  index : w'.index = w.index
  holds : ∃ contents', Holds store contents' [] w'.files ∧
    contents'.generation = contents.generation ∧
    contents'.view = overlay [record] contents.view

theorem Appended.midway (h : Appended store contents record w w') :
    Midway store contents record w w' := by
  obtain ⟨contents', hholds, hgeneration, hview⟩ := h.holds
  exact ⟨h.index, contents', [], hholds, hgeneration, .inr hview⟩

theorem Holds.midway {torn : Bytes} (h : Holds store contents torn w'.files)
    (hindex : w'.index = w.index) : Midway store contents record w w' :=
  ⟨hindex, contents, torn, h, rfl, .inl rfl⟩

theorem Grown.midway (hplatform : store.platform.RoundTrips)
    (h : Holds store contents [] w.files) (hfits : store.platform.Fits record)
    (hlength : w.files.mainBytes.length + ((store.platform.toVec record).length + 1) ≤
      store.compactionThresholdBytes) {k : Nat}
    (hgrown : Grown w ((store.platform.toVec record ++ [newline]).take k) w') :
    Midway store contents record w w' ∧
      ((store.platform.toVec record).length < k → Appended store contents record w w') := by
  have hbound : w'.files.mainBytes.length ≤ store.compactionThresholdBytes := by
    rw [hgrown.main, List.length_append, List.length_take, List.length_append]
    have hmin := Nat.min_le_right k ((store.platform.toVec record).length + 1)
    exact (Nat.add_le_add_left hmin _).trans hlength
  rcases Nat.lt_or_ge (store.platform.toVec record).length k with hlt | hge
  · -- The whole line is there.
    have hmain := hgrown.main
    rw [List.take_of_length_le (by rw [List.length_append]; exact hlt)] at hmain
    have happended : Appended store contents record w w' :=
      ⟨hgrown.index, _, h.appendRecord hfits hgrown.siblings hgrown.generation hmain hbound, rfl,
        StoreContents.view_appendRecord⟩
    exact ⟨happended.midway, fun _ => happended⟩
  · have hpart := hgrown.main
    rw [List.take_append_of_le_length hge] at hpart
    have htorn : newline ∉ (store.platform.toVec record).take k := fun hmem =>
      hplatform.newline_not_mem record (List.mem_of_mem_take hmem)
    exact ⟨⟨hgrown.index, contents, _, h.appendTorn htorn hgrown.siblings hgrown.generation hpart
      hbound, rfl, .inl rfl⟩, fun hlt => absurd hlt (Nat.not_lt.mpr hge)⟩

theorem openDataAppendCreate_safely (platform : Platform) {C : StoreWorld → Prop}
    (hC : ∀ w', Grown w [] w' → C w') (hw : C w) :
    Safely (openDataAppendCreate platform).run w C fun r w' => r = .ok () ∧ Grown w [] w' := by
  have hcreated : Grown w []
      { w with files :=
          if w.files.main.isSome then w.files else (w.files.replaceMain platform []) } := by
    rcases hmain : w.files.main with _ | opened
    · exact ⟨rfl, rfl, rfl, rfl, by simp [StoreFiles.mainBytes, StoreFiles.replaceMain, hmain]⟩
    · exact ⟨rfl, rfl, rfl, by simp [hmain], by simp⟩
  exact safely_modifyFiles hw (hC _ hcreated) ⟨rfl, hcreated⟩

theorem appendLine_safely (hplatform : store.platform.RoundTrips)
    (h : Holds store contents [] w.files) (hfits : store.platform.Fits record)
    (hlength : w.files.mainBytes.length + ((store.platform.toVec record).length + 1) ≤
      store.compactionThresholdBytes) :
    Safely (appendLine store (store.platform.toVec record)).run w (Midway store contents record w)
      fun r w' => r = .ok () ∧ Appended store contents record w w' := by
  have hgrown : ∀ k w', Grown w ((store.platform.toVec record ++ [newline]).take k) w' → _ :=
    fun k w' => Grown.midway hplatform h hfits hlength
  refine safely_run_bind (openDataAppendCreate_safely store.platform
    (fun w' hw' => (hgrown 0 w' hw').1) (h.midway rfl)) ?_ ?_
  · rintro - w₁ ⟨-, hcreated⟩
    refine (writeAll_safely _ hcreated).mono ?_ ?_
    · rintro w₂ ⟨k, -, hw₂⟩
      exact (hgrown k w₂ hw₂).1
    · rintro r w₂ ⟨hr, hw₂⟩
      refine ⟨hr, (hgrown ((store.platform.toVec record).length + 1) w₂ ?_).2 (Nat.lt_succ_self _)⟩
      rwa [List.take_of_length_le (by simp)]
  · rintro message w₁ ⟨hr, -⟩
    cases hr

theorem createSiblingAtomically_safely {name : String} {C : StoreWorld → Prop}
    (hnew : ∀ entry ∈ w.files.siblings, entry.1 ≠ name) (hC : C w) (hC' : C { w with
      files := { w.files with siblings := w.files.siblings ++ [(name, bytes)] } }) :
    Safely (createSiblingAtomically name bytes).run w C fun r w' => r = .ok () ∧ w' =
      { w with files := { w.files with siblings := w.files.siblings ++ [(name, bytes)] } } := by
  refine safely_readFiles_bind (a := ()) (if_neg ?_) hC
    (safely_modifyFiles hC hC' ⟨rfl, rfl⟩)
  rw [List.any_eq_true]
  rintro ⟨entry, hentry, hname⟩
  exact hnew entry hentry (of_decide_eq_true hname)

theorem Holds.archiveName_new {torn : Bytes} (h : Holds store contents torn w.files)
    (hnew : ∀ archive ∈ contents.archives, archive.1 < contents.generation) :
    ∀ entry ∈ w.files.siblings,
      entry.1 ≠ validationStoreArchiveName store.fileName contents.generation := by
  intro entry hentry hname
  obtain ⟨archive, harchive, rfl⟩ := List.mem_map.mp (h.archives.mem_iff.mp hentry)
  have hsame := archiveName_injective store.fileName (h.archive_lt harchive) h.generation_lt hname
  exact absurd hsame (Nat.ne_of_lt (hnew archive harchive))

theorem rotateUnlocked_safely (hplatform : store.platform.RoundTrips)
    (h : Holds store contents [] w.files) (hne : w.files.mainBytes ≠ [])
    (hnew : ∀ archive ∈ contents.archives, archive.1 < contents.generation)
    (hsidecar : w.files.generation = some (generationLine contents.generation))
    (hfits : store.platform.Fits record)
    (hlength : (store.platform.toVec record).length + 1 ≤ store.compactionThresholdBytes) :
    Safely (rotateUnlocked store (store.platform.toVec record) contents.generation).run w
      (Midway store contents record w)
      fun r w' => r = .ok () ∧ Appended store contents record w w' := by
  have hmain : contents.main ≠ [] := by
    intro hnil
    refine hne ?_
    rw [h.main, hnil]
    rfl
  obtain ⟨opened, hopened, hbytes⟩ := StoreFiles.exists_opened hne
  have hlog : opened.bytes = recordLog store.platform contents.main := by
    rw [← hbytes, h.main, List.append_nil]
  have hlimit : ¬maxStoreBytes < opened.bytes.length := by
    rw [← hbytes]
    exact Nat.not_lt.mpr (h.main_length.trans store.threshold_le)
  have hstrict := applyStrictArchiveRecords_recordLog hplatform hmain h.main_fits
    (store.parent ++ "/" ++ validationStoreArchiveName store.fileName contents.generation) ∅
  rw [← hlog] at hstrict
  have hpublished := h.publish hmain hnew hsidecar
  rw [hbytes] at hpublished
  have hmidway : Midway store contents record w
      { w with files := { w.files with siblings := w.files.siblings ++
          [(validationStoreArchiveName store.fileName contents.generation, opened.bytes)] } } :=
    ⟨rfl, _, [], hpublished, rfl, .inl (StoreContents.view_publish _)⟩
  have hrotated := hpublished.replaceMain hfits hlength
  refine safely_readFiles_bind (congrArg Except.ok hopened) (h.midway rfl) ?_
  simp only [if_neg hlimit]
  refine safely_readFiles_bind hstrict (h.midway rfl) ?_
  refine safely_run_bind_ok (safely_run_adapt_ok (createSiblingAtomically_safely
    (h.archiveName_new hnew) (h.midway rfl) hmidway)) ?_
  refine safely_modifyFiles hmidway (Appended.midway ⟨rfl, _, hrotated, rfl, ?_⟩)
    ⟨rfl, rfl, _, hrotated, rfl, ?_⟩
  all_goals exact StoreContents.view_rotate _

def StoreContents.next (contents : StoreContents) : StoreContents :=
  { contents with generation := contents.generation + 1 }

def AppendEnd (store : CatRecordingValidationStore) (contents : StoreContents)
    (record : CatRecordingValidationRecord) (w : StoreWorld)
    (r : Except String ValidationStorePersistResult) (w' : StoreWorld) : Prop :=
  (∃ message, r = .error message) ∧ w' = w ∨
    (∃ persisted, r = .ok persisted ∧
      persisted.fingerprint.generation = contents.generation + 1) ∧
      Appended store contents.next record w w'

theorem advanceGeneration_safely {C : StoreWorld → Prop}
    (hread : readGenerationSidecar w.files = .ok sidecar) (hvalue : sidecar.getD 0 = generation)
    (hgeneration : generation + 1 < 2 ^ 64) (hC : C w) (hC' : C { w with files := { w.files with
      generation := some (generationLine (generation + 1)) } }) :
    Safely advanceGeneration.run w C fun r w' => r = .ok (generation + 1) ∧
      w' = { w with files := { w.files with
        generation := some (generationLine (generation + 1)) } } := by
  refine safely_readFiles_bind hread hC ?_
  simp only [hvalue, if_pos hgeneration]
  exact safely_modifyFiles_bind hC hC' (safely_run_pure hC' ⟨rfl, rfl⟩)

theorem advanceGeneration_exhausted {C : StoreWorld → Prop}
    (hread : readGenerationSidecar w.files = .ok sidecar) (hvalue : sidecar.getD 0 = generation)
    (hgeneration : ¬generation + 1 < 2 ^ 64) (hC : C w) :
    Safely advanceGeneration.run w C fun r w' => (∃ message, r = .error message) ∧ w' = w := by
  refine safely_readFiles_bind hread hC ?_
  simp only [hvalue, if_neg hgeneration]
  exact safely_run_throw hC ⟨⟨_, rfl⟩, rfl⟩

theorem StoreFiles.elim_length (files : StoreFiles) :
    (files.main.elim 0 fun opened => opened.bytes.length) = files.mainBytes.length := by
  rw [mainBytes]
  cases files.main <;> rfl

theorem length_of_not_compacted {currentBytes recordBytes : Nat}
    (hrecord : recordBytes ≤ store.compactionThresholdBytes)
    (h : compacted store currentBytes recordBytes = false) :
    currentBytes + recordBytes ≤ store.compactionThresholdBytes := by
  have hthreshold := store.threshold_le
  unfold compacted saturatingAdd at h
  unfold maxStoreBytes at hthreshold
  simp only [Bool.and_eq_false_iff, decide_eq_false_iff_not] at h
  omega

theorem writeLine_safely (hplatform : store.platform.RoundTrips)
    (h : Holds store contents [] w.files)
    (hnew : ∀ archive ∈ contents.archives, archive.1 < contents.generation)
    (hsidecar : w.files.generation = some (generationLine contents.generation))
    (hfits : store.platform.Fits record)
    (hlength : (store.platform.toVec record).length + 1 ≤ store.compactionThresholdBytes) :
    Safely (writeLine store (store.platform.toVec record) contents.generation
        (compacted store w.files.mainBytes.length
          ((store.platform.toVec record).length + 1))).run w
      (Midway store contents record w)
      fun r w' => r = .ok () ∧ Appended store contents record w w' := by
  unfold writeLine
  split
  · rename_i hcompacted
    refine rotateUnlocked_safely hplatform h ?_ hnew hsidecar hfits hlength
    intro hnil
    rw [hnil] at hcompacted
    cases hcompacted
  · rename_i hcompacted
    exact appendLine_safely hplatform h hfits
      (length_of_not_compacted hlength (by simpa using hcompacted))

theorem appendUnlocked_safely (hplatform : store.platform.RoundTrips)
    (h : Holds store contents [] w.files) :
    Safely (appendUnlocked store record).run w
      (fun w' => w' = w ∨ Midway store contents.next record w w')
      (AppendEnd store contents record w) := by
  obtain ⟨sidecar, hread, hvalue, -⟩ := h.readGenerationSidecar
  unfold appendUnlocked
  simp only [StoreFiles.elim_length]
  split
  · exact safely_run_throw (.inl rfl) (.inl ⟨⟨_, rfl⟩, rfl⟩)
  rename_i hsize
  split
  · exact safely_run_throw (.inl rfl) (.inl ⟨⟨_, rfl⟩, rfl⟩)
  rename_i hlimits
  refine safely_readFiles_bind rfl (.inl rfl) ?_
  rcases Nat.lt_or_ge (contents.generation + 1) (2 ^ 64) with hgeneration | hexhausted
  · have hnext : Holds store contents.next [] _ := h.advance hgeneration
    refine safely_run_bind_ok (advanceGeneration_safely hread hvalue hgeneration (.inl rfl)
      (.inr (hnext.midway rfl))) ?_
    have hwrite := writeLine_safely (w := { w with files := _ }) hplatform hnext
      (fun archive harchive => Nat.lt_succ_of_le (h.archives_le archive harchive)) rfl
      (Nat.not_lt.mp hsize) (Nat.not_lt.mp (not_or.mp hlimits).1)
    refine safely_run_bind (hwrite.mono (fun w' hw' => .inr ⟨hw'.index, hw'.holds⟩)
      fun _ _ hend => hend) ?_ ?_
    · rintro - w' ⟨-, happended⟩
      obtain ⟨contents', hholds, hnumber, -⟩ := happended.holds
      obtain ⟨fingerprint, hread, hfingerprint⟩ := hholds.storeFingerprint
      have happended' : Appended store contents.next record w w' :=
        ⟨happended.index, happended.holds⟩
      refine safely_readFiles_bind hread (.inr happended'.midway)
        (safely_run_pure (.inr happended'.midway) (.inr ⟨⟨_, rfl, ?_⟩, happended'⟩))
      exact hfingerprint.trans hnumber
    · rintro message w' ⟨hr, -⟩
      cases hr
  · refine safely_run_bind (advanceGeneration_exhausted hread hvalue
      (Nat.not_lt.mpr hexhausted) (.inl rfl)) ?_ ?_
    · rintro generation w' ⟨⟨message, hr⟩, -⟩
      cases hr
    · rintro message w' ⟨-, rfl⟩
      exact .inl ⟨⟨_, rfl⟩, rfl⟩

end Appending

section Indexes

variable {store : CatRecordingValidationStore} {contents contents' : StoreContents}
  {record : CatRecordingValidationRecord} {process : Nat} {w w' : StoreWorld}
  {index : ValidationStoreIndex} {fingerprint : ValidationStoreFingerprint}

/-- An index that was made at the present generation agrees with the directory. -/
def IndexSound (contents : StoreContents) (index : ValidationStoreIndex) : Prop :=
  ∀ fingerprint, index.fingerprint = some fingerprint →
    fingerprint.generation ≤ contents.generation ∧
    (index.initialized = true → fingerprint.generation = contents.generation →
      index.latest.view = contents.view)

theorem IndexSound.advance (h : IndexSound contents index)
    (hlt : contents.generation < contents'.generation) : IndexSound contents' index := by
  intro fingerprint hfingerprint
  have hle := (h fingerprint hfingerprint).1
  exact ⟨by omega, fun _ heq => by omega⟩

theorem indexSound_of_view (hfingerprint : index.fingerprint = some fingerprint)
    (hgeneration : fingerprint.generation ≤ contents.generation)
    (hview : index.latest.view = contents.view) : IndexSound contents index := by
  intro fingerprint' hfingerprint'
  obtain rfl := Option.some.inj (hfingerprint.symm.trans hfingerprint')
  exact ⟨hgeneration, fun _ _ => hview⟩

/-- The directory holds the contents, and no index is wrong without knowing it. -/
structure Consistent (store : CatRecordingValidationStore) (contents : StoreContents)
    (w : StoreWorld) : Prop where
  holds : ∃ torn, Holds store contents torn w.files
  index : ∀ process, IndexSound contents (w.index process)

structure Ready (store : CatRecordingValidationStore) (contents : StoreContents) (process : Nat)
    (w : StoreWorld) : Prop where
  holds : Holds store contents [] w.files
  index : ∀ process, IndexSound contents (w.index process)
  latest : (w.index process).latest.view = contents.view

theorem Ready.consistent (h : Ready store contents process w) : Consistent store contents w :=
  ⟨⟨[], h.holds⟩, h.index⟩

theorem indexSound_setIndex (hindex : ∀ other, IndexSound contents (w.index other))
    (hnew : IndexSound contents index) :
    ∀ other, IndexSound contents ((w.setIndex process index).index other) := by
  intro other
  rcases eq_or_ne other process with rfl | hne
  · rwa [StoreWorld.setIndex_self]
  · rw [StoreWorld.setIndex_of_ne w hne]
    exact hindex other

theorem ready_setIndex (w : StoreWorld) (process : Nat) (hholds : Holds store contents [] w.files)
    (hindex : ∀ other, IndexSound contents (w.index other))
    (hgeneration : fingerprint.generation ≤ contents.generation)
    (hfingerprint : index.fingerprint = some fingerprint)
    (hlatest : index.latest.view = contents.view) :
    Ready store contents process (w.setIndex process index) where
  holds := hholds
  index := indexSound_setIndex hindex (indexSound_of_view hfingerprint hgeneration hlatest)
  latest := by rw [StoreWorld.setIndex_self, hlatest]

theorem Midway.consistent (h : Midway store contents.next record w w')
    (hindex : ∀ process, IndexSound contents (w.index process)) :
    ∃ contents', Consistent store contents' w' ∧
      (contents'.view = contents.view ∨ contents'.view = overlay [record] contents.view) := by
  obtain ⟨contents', torn, hholds, hgeneration, hview⟩ := h.holds
  refine ⟨contents', ⟨⟨torn, hholds⟩, fun other => ?_⟩, hview⟩
  rw [h.index]
  exact (hindex other).advance (by rw [hgeneration]; exact Nat.lt_succ_self _)

theorem persistIndexRecord_safely (hplatform : store.platform.RoundTrips)
    (h : Ready store contents process w) :
    Safely (persistIndexRecord store process record).run w
      (fun w' => ∃ contents', Consistent store contents' w' ∧
        (contents'.view = contents.view ∨ contents'.view = overlay [record] contents.view))
      fun r w' => (∃ message, r = .error message) ∧ w' = w ∨
        r = .ok record ∧ ∃ contents', Ready store contents' process w' ∧
          contents'.view = overlay [record] contents.view := by
  refine safely_run_bind ((appendUnlocked_safely hplatform h.holds).mono ?_
    fun _ _ hend => hend) ?_ ?_
  · rintro w' (rfl | hmidway)
    · exact ⟨contents, h.consistent, .inl rfl⟩
    · exact hmidway.consistent h.index
  · rintro persisted w' (⟨⟨message, hr⟩, -⟩ | ⟨⟨_, hr, hfingerprint⟩, happended⟩)
    · cases hr
    obtain rfl := Except.ok.inj hr
    obtain ⟨contents', hholds, hgeneration, hview⟩ := happended.holds
    have hindex : ∀ other, IndexSound contents' (w'.index other) := by
      intro other
      rw [happended.index]
      exact (h.index other).advance (by rw [hgeneration]; exact Nat.lt_succ_self _)
    have hlatest : ((w'.index process).latest.store record).view = contents'.view := by
      rw [Latest.view_store, happended.index, h.latest, hview]
      rfl
    have hbefore : ∃ contents', Consistent store contents' w' ∧ _ :=
      happended.midway.consistent h.index
    have hafter : ∀ index : ValidationStoreIndex, index.fingerprint = some persisted.fingerprint →
        index.latest.view = contents'.view →
        Ready store contents' process (w'.setIndex process index) := fun index =>
      ready_setIndex w' process hholds hindex
        (Nat.le_of_eq (hfingerprint.trans hgeneration.symm))
    exact safely_modifyIndex_bind hbefore ⟨contents', (hafter _ rfl hlatest).consistent, .inr hview⟩
      (safely_run_pure ⟨contents', (hafter _ rfl hlatest).consistent, .inr hview⟩
        (.inr ⟨rfl, contents', hafter _ rfl hlatest, hview⟩))
  · rintro message w' (⟨-, rfl⟩ | ⟨⟨_, hr, -⟩, -⟩)
    · exact .inl ⟨⟨_, rfl⟩, rfl⟩
    · cases hr

theorem persistAll_safely (hplatform : store.platform.RoundTrips)
    (records : List CatRecordingValidationRecord) (h : Ready store contents process w) :
    Safely (persistAll store process records).run w
      (fun w' => ∃ contents' stored, Consistent store contents' w' ∧
        contents'.view = overlay (records.take stored) contents.view)
      fun r w' => ∃ contents' stored, Ready store contents' process w' ∧
        contents'.view = overlay (records.take stored) contents.view ∧
        (r = .ok () → records.length ≤ stored) := by
  induction records generalizing contents w with
  | nil =>
      exact safely_run_pure ⟨contents, 0, h.consistent, (overlay_nil _).symm⟩
        ⟨contents, 0, h, (overlay_nil _).symm, fun _ => Nat.le_refl 0⟩
  | cons record records ih =>
      have htail : ∀ (contents' : StoreContents) stored,
          contents'.view = overlay (records.take stored) (overlay [record] contents.view) →
          contents'.view = overlay ((record :: records).take (stored + 1)) contents.view := by
        intro contents' stored hview
        rw [hview, ← overlay_append]
        rfl
      refine safely_run_bind ((persistIndexRecord_safely hplatform h).mono ?_
        fun _ _ hend => hend) ?_ ?_
      · rintro w' ⟨contents', hconsistent, hview | hview⟩
        · exact ⟨contents', 0, hconsistent, hview.trans (overlay_nil _).symm⟩
        · exact ⟨contents', 1, hconsistent, hview⟩
      · rintro _ w' (⟨⟨message, hr⟩, -⟩ | ⟨-, contents₁, hready, hview⟩)
        · cases hr
        refine (ih hready).mono ?_ ?_
        · rintro w₁ ⟨contents', stored, hconsistent, hview'⟩
          exact ⟨contents', stored + 1, hconsistent, htail _ _ (by rw [hview', hview])⟩
        · rintro r w₁ ⟨contents', stored, hready', hview', hall⟩
          exact ⟨contents', stored + 1, hready', htail _ _ (by rw [hview', hview]),
            fun hr => Nat.succ_le_succ (hall hr)⟩
      · rintro message w' (⟨-, rfl⟩ | ⟨hr, -⟩)
        · exact ⟨contents, 0, h, (overlay_nil _).symm, fun hr => by cases hr⟩
        · cases hr

theorem StoreFiles.mainBytes_repair (files : StoreFiles) (platform : Platform) :
    (files.rewriteMain platform fun bytes =>
      bytes.take (truncateTo bytes bytes.length)).mainBytes =
      complete newline files.mainBytes := by
  rcases hmain : files.main with _ | opened
  · simp [mainBytes, rewriteMain, hmain, complete]
  · simp only [mainBytes, rewriteMain, hmain, Option.map_some, Option.elim_some,
      take_truncateTo]

theorem Holds.complete_mainBytes {torn : Bytes} {files : StoreFiles}
    (h : Holds store contents torn files) :
    complete newline files.mainBytes = recordLog store.platform contents.main := by
  rw [h.main, complete_append_of_not_mem h.torn]
  exact complete_logOf _

/-- The directory with a torn line cut off. -/
structure Repaired (files files' : StoreFiles) : Prop where
  siblings : files'.siblings = files.siblings
  generation : files'.generation = files.generation
  main : files'.mainBytes = complete newline files.mainBytes

theorem Holds.repair {torn : Bytes} {files files' : StoreFiles}
    (h : Holds store contents torn files) (hrepaired : Repaired files files') :
    Holds store contents [] files' :=
  { h with
    archives := hrepaired.siblings ▸ h.archives
    sidecar := hrepaired.generation ▸ h.sidecar
    main := by rw [hrepaired.main, h.complete_mainBytes, List.append_nil]
    torn := by simp
    main_length := by
      rw [hrepaired.main]
      exact (length_complete_le _).trans h.main_length }

theorem repair_safely {platform : Platform} {C : StoreWorld → Prop} (hC : C w)
    (hC' : ∀ files, Repaired w.files files → C { w with files := files }) :
    Safely (repairValidationStoreTruncatedTail platform).run w C
      fun r w' => (∃ repaired, r = .ok repaired) ∧ Repaired w.files w'.files ∧
        w'.index = w.index := by
  refine safely_readFiles_bind rfl hC ?_
  rcases hopened : w.files.main with _ | opened
  · refine safely_run_pure hC ⟨⟨_, rfl⟩, ⟨rfl, rfl, ?_⟩, rfl⟩
    rw [StoreFiles.mainBytes, hopened]
    rfl
  · dsimp only
    split
    · rename_i hends
      refine safely_run_pure hC ⟨⟨_, rfl⟩, ⟨rfl, rfl, ?_⟩, rfl⟩
      rw [StoreFiles.mainBytes, hopened]
      exact (complete_eq_self hends).symm
    · have hrepaired : Repaired w.files (w.files.rewriteMain platform fun bytes =>
          bytes.take (truncateTo bytes bytes.length)) :=
        ⟨rfl, rfl, w.files.mainBytes_repair platform⟩
      exact safely_modifyFiles_bind hC (hC' _ hrepaired)
        (safely_run_pure (hC' _ hrepaired) ⟨⟨_, rfl⟩, hrepaired, rfl⟩)

theorem refreshIndexIfNeeded_safely (hplatform : store.platform.RoundTrips)
    (hholds : Holds store contents [] w.files)
    (hindex : ∀ other, IndexSound contents (w.index other)) :
    Safely (refreshIndexIfNeeded store process).run w (Consistent store contents)
      fun r w' => r = .ok () ∧ Ready store contents process w' := by
  obtain ⟨fingerprint, hread, hgeneration⟩ := hholds.storeFingerprint
  obtain ⟨latest, hscan, hlatest⟩ := hholds.scanLatestUnlocked hplatform
  have hbefore : Consistent store contents w := ⟨⟨[], hholds⟩, hindex⟩
  refine safely_readFiles_bind hread hbefore (safely_readIndex_bind hbefore ?_)
  split
  · rename_i hcurrent
    refine safely_run_pure hbefore ⟨rfl, hholds, hindex, ?_⟩
    exact (hindex process fingerprint hcurrent.2).2 hcurrent.1 hgeneration
  · -- Between the scan and the new fingerprint the old fingerprint vouches for the new records.
    obtain ⟨w₁, hw₁⟩ : ∃ w₁, w₁ = w.setIndex process { w.index process with latest := latest } :=
      ⟨_, rfl⟩
    have hfiles : w₁.files = w.files := by rw [hw₁]; rfl
    have hscanned : ∀ other, IndexSound contents (w₁.index other) := by
      rw [hw₁]
      refine indexSound_setIndex hindex fun fingerprint' hfingerprint' => ?_
      exact ⟨(hindex process fingerprint' hfingerprint').1, fun _ _ => hlatest⟩
    have hmiddle : Consistent store contents w₁ := ⟨⟨[], by rwa [hfiles]⟩, hscanned⟩
    have hlatest₁ : (w₁.index process).latest.view = contents.view := by
      rw [hw₁, StoreWorld.setIndex_self]
      exact hlatest
    refine safely_readFiles_bind hscan hbefore ?_
    refine safely_modifyIndex_bind hbefore (hw₁ ▸ hmiddle) ?_
    rw [← hw₁]
    refine safely_readFiles_bind (by rwa [hfiles]) hmiddle ?_
    have hafter : ∀ index : ValidationStoreIndex, index.fingerprint = some fingerprint →
        index.latest.view = contents.view →
        Ready store contents process (w₁.setIndex process index) := fun index =>
      ready_setIndex w₁ process (by rwa [hfiles]) hscanned (Nat.le_of_eq hgeneration)
    have hready := hafter
      { w₁.index process with
        fingerprint := some fingerprint
        initialized := true
        diskScanCount := saturatingAdd 64 (w₁.index process).diskScanCount 1 } rfl hlatest₁
    exact safely_modifyIndex hmiddle hready.consistent ⟨rfl, hready⟩

theorem withLockedIndex_safely {α : Type} {operation : StoreProgram α} {C : StoreWorld → Prop}
    {Q : Except String α → StoreWorld → Prop} (hplatform : store.platform.RoundTrips)
    (h : Consistent store contents w) (hC : ∀ w', Consistent store contents w' → C w')
    (hoperation : ∀ w', Ready store contents process w' → Safely operation.run w' C Q) :
    Safely (withLockedIndex store process operation).run w C Q := by
  have hrefresh : ∀ w', Holds store contents [] w'.files →
      (∀ other, IndexSound contents (w'.index other)) →
      Safely (refreshIndexIfNeeded store process >>= fun _ => operation).run w' C Q := by
    intro w' hholds hindex
    refine safely_run_bind ((refreshIndexIfNeeded_safely hplatform hholds hindex).mono hC
      fun _ _ hend => hend) ?_ ?_
    · rintro - w₁ ⟨-, hready⟩
      exact hoperation w₁ hready
    · rintro message w₁ ⟨hr, -⟩
      cases hr
  obtain ⟨torn, hholds⟩ := h.holds
  refine safely_run_bind (repair_safely (hC w h) fun files hrepaired =>
    hC _ ⟨⟨[], hholds.repair hrepaired⟩, h.index⟩) ?_ ?_
  · rintro repaired w' ⟨-, hrepaired, hindex⟩
    have hholds := hholds.repair hrepaired
    have hsound : ∀ other, IndexSound contents (w'.index other) := by
      rw [hindex]
      exact h.index
    have hforgotten : ∀ other, IndexSound contents ((w'.setIndex process
        { w'.index process with initialized := false }).index other) := by
      refine indexSound_setIndex hsound fun fingerprint hfingerprint => ?_
      exact ⟨(hsound process fingerprint hfingerprint).1, fun hinitialized => by cases hinitialized⟩
    dsimp only
    split
    · exact safely_modifyIndex_bind (hC _ ⟨⟨[], hholds⟩, hsound⟩) (hC _ ⟨⟨[], hholds⟩, hforgotten⟩)
        (hrefresh _ hholds hforgotten)
    · exact hrefresh w' hholds hsound
  · rintro message w' ⟨⟨_, hr⟩, -⟩
    cases hr

end Indexes

section Runs

variable {store : CatRecordingValidationStore} {contents : StoreContents} {process : Nat}
  {w w' : StoreWorld}

/-- The second contents are the first with the first `stored` records appended that the
operation plans from a table of the first. -/
structure StoreOp.Appends (store : CatRecordingValidationStore) (op : StoreOp) (latest : Latest)
    (stored : Nat) (contents contents' : StoreContents) : Prop where
  before : latest.view = contents.view
  after : contents'.view =
    overlay ((op.plan store.platform.sha256 latest).writes.take stored) contents.view

theorem StoreContents.exists_latest (contents : StoreContents) :
    ∃ latest : Latest, latest.view = contents.view := by
  refine ⟨(Latest.storeAll ∅ (contents.archives.flatMap (·.2))).storeAll contents.main, ?_⟩
  rw [Latest.view_storeAll, Latest.view_storeAll]
  rfl

theorem perform_safely (hplatform : store.platform.RoundTrips) (h : Consistent store contents w)
    (op : StoreOp) :
    Safely (perform store process op).run w
      (fun w' => ∃ contents' latest stored, Consistent store contents' w' ∧
        op.Appends store latest stored contents contents')
      fun r w' => ∃ contents' latest stored, Ready store contents' process w' ∧
        op.Appends store latest stored contents contents' ∧
        ∀ answer, r = .ok answer → (op.plan store.platform.sha256 latest).answer = .ok answer ∧
          (op.plan store.platform.sha256 latest).writes.length ≤ stored := by
  have hnone : ∀ w', Consistent store contents w' → ∃ contents' latest stored,
      Consistent store contents' w' ∧ op.Appends store latest stored contents contents' := by
    intro w' hw'
    obtain ⟨latest, hlatest⟩ := contents.exists_latest
    exact ⟨contents, latest, 0, hw', hlatest, (overlay_nil _).symm⟩
  refine withLockedIndex_safely hplatform h hnone ?_
  intro w' hready
  refine safely_readIndex_bind (hnone w' hready.consistent) ?_
  refine safely_run_bind ((persistAll_safely hplatform _ hready).mono ?_ fun _ _ hend => hend)
    ?_ ?_
  · rintro w₁ ⟨contents', stored, hconsistent, hview⟩
    exact ⟨contents', _, stored, hconsistent, hready.latest, hview⟩
  · rintro ⟨⟩ w₁ ⟨contents', stored, hready', hview, hall⟩
    refine safely_readFiles ⟨contents', _, stored, hready'.consistent, hready.latest, hview⟩
      ⟨contents', _, stored, hready', ⟨hready.latest, hview⟩, ?_⟩
    intro answer hanswer
    exact ⟨hanswer, hall rfl⟩
  · rintro message w₁ ⟨contents', stored, hready', hview, -⟩
    exact ⟨contents', _, stored, hready', ⟨hready.latest, hview⟩, fun _ hr => by cases hr⟩

inductive StoreStep (store : CatRecordingValidationStore) (w : StoreWorld) : StoreWorld → Prop
  | complete (process : Nat) (op : StoreOp) :
      StoreStep store w ((perform store process op).run.exec w).file
  | fail (process : Nat) (op : StoreOp) (w' : StoreWorld)
      (hvisited : w' ∈ (perform store process op).run.visits w) : StoreStep store w w'
  | die (process : Nat) (op : StoreOp) (w' : StoreWorld)
      (hvisited : w' ∈ (perform store process op).run.visits w) :
      StoreStep store w (w'.setIndex process {})
  | relist (siblings : List (String × Bytes)) (hperm : siblings.Perm w.files.siblings) :
      StoreStep store w { w with files := { w.files with siblings := siblings } }

abbrev StoreRun (store : CatRecordingValidationStore) : StoreWorld → StoreWorld → Prop :=
  Relation.ReflTransGen (StoreStep store)

theorem consistent_empty : Consistent store {} {} :=
  ⟨⟨[], holds_empty⟩, fun _ _ hfingerprint => by cases hfingerprint⟩

theorem Consistent.setIndex_empty (h : Consistent store contents w) :
    Consistent store contents (w.setIndex process {}) :=
  ⟨h.holds, indexSound_setIndex h.index fun _ hfingerprint => by cases hfingerprint⟩

theorem StoreStep.consistent (hplatform : store.platform.RoundTrips)
    (hstep : StoreStep store w w') (h : Consistent store contents w) :
    ∃ contents', Consistent store contents' w' ∧
      (contents' = contents ∨
        ∃ op latest stored, StoreOp.Appends store op latest stored contents contents') := by
  rcases hstep with ⟨process, op⟩ | ⟨process, op, w', hvisited⟩ | ⟨process, op, w', hvisited⟩ |
    ⟨siblings, hperm⟩
  · obtain ⟨contents', latest, stored, hready, happends, -⟩ :=
      (perform_safely hplatform h op).2
    exact ⟨contents', hready.consistent, .inr ⟨op, latest, stored, happends⟩⟩
  · obtain ⟨contents', latest, stored, hconsistent, happends⟩ :=
      (perform_safely hplatform h op).1 w' hvisited
    exact ⟨contents', hconsistent, .inr ⟨op, latest, stored, happends⟩⟩
  · obtain ⟨contents', latest, stored, hconsistent, happends⟩ :=
      (perform_safely hplatform h op).1 w' hvisited
    exact ⟨contents', hconsistent.setIndex_empty, .inr ⟨op, latest, stored, happends⟩⟩
  · obtain ⟨torn, hholds⟩ := h.holds
    exact ⟨contents, ⟨⟨torn, hholds.congr hperm rfl rfl⟩, h.index⟩, .inl rfl⟩

theorem StoreRun.consistent (hplatform : store.platform.RoundTrips)
    (hrun : StoreRun store {} w) : ∃ contents, Consistent store contents w := by
  induction hrun with
  | refl => exact ⟨{}, consistent_empty⟩
  | tail _ hstep ih =>
      obtain ⟨contents, hconsistent⟩ := ih
      obtain ⟨contents', hconsistent', -⟩ := hstep.consistent hplatform hconsistent
      exact ⟨contents', hconsistent'⟩

theorem Holds.load {torn : Bytes} {files : StoreFiles} (hplatform : store.platform.RoundTrips)
    (h : Holds store contents torn files) :
    ∃ latest, load store files = .ok latest ∧ latest.view = contents.view := by
  have hconsistent : Consistent store contents { files := files } :=
    ⟨⟨torn, h⟩, fun _ _ hfingerprint => by cases hfingerprint⟩
  have hfresh : Safely (withLockedIndex store 0 (do
        let index ← readIndex 0
        return index.latest)).run { files := files } (fun _ => True)
      fun r _ => ∃ latest : Latest, r = .ok latest ∧ latest.view = contents.view := by
    refine withLockedIndex_safely hplatform hconsistent (fun _ _ => trivial) ?_
    intro w' hready
    exact safely_readIndex_bind trivial (safely_run_pure trivial ⟨_, rfl, hready.latest⟩)
  exact hfresh.2

end Runs

/-- The longest part at the front that is empty or ends with a line break. -/
structure LongestComplete (kept bytes : Bytes) : Prop where
  front : kept <+: bytes
  ends : kept = [] ∨ kept.getLast? = some newline
  longest : ∀ other, other <+: bytes → (other = [] ∨ other.getLast? = some newline) →
    other.length ≤ kept.length

theorem longestComplete_complete (bytes : Bytes) :
    LongestComplete (complete newline bytes) bytes := by
  refine ⟨List.rdropWhile_prefix _ _, complete_ends bytes, fun other hother hends => ?_⟩
  rcases hends with rfl | hlast
  · exact Nat.zero_le _
  · by_contra hlong
    have hsplit : complete newline bytes ++ bytes.rtakeWhile (· ≠ newline) = bytes :=
      List.rdropWhile_append_rtakeWhile
    have hbyte : bytes[other.length - 1]? = some newline := by
      obtain ⟨rest, rfl⟩ := hother
      rw [List.getElem?_append_left (by omega), ← List.getLast?_eq_getElem?]
      exact hlast
    rw [← hsplit, List.getElem?_append_right (by omega)] at hbyte
    have hnot := List.mem_rtakeWhile_imp (List.mem_of_getElem? hbyte)
    exact absurd rfl (of_decide_eq_true hnot)

theorem exec_repair_of_ends {w : StoreWorld} (platform : Platform)
    (h : w.files.mainBytes = [] ∨ w.files.mainBytes.getLast? = some newline) :
    (repairValidationStoreTruncatedTail platform).run.exec w = ⟨w, [], .ok false⟩ := by
  have hread : (readFiles fun files => .ok files.main).run.exec w = ⟨w, [], .ok w.files.main⟩ := rfl
  rw [repairValidationStoreTruncatedTail, exec_run_bind_of_ok hread]
  rcases hmain : w.files.main with _ | opened
  · rfl
  · rw [StoreFiles.mainBytes, hmain, Option.elim_some] at h
    dsimp only
    rw [if_pos h]
    rfl

theorem exec_repair_of_torn {w : StoreWorld} (platform : Platform)
    (h : ¬ (w.files.mainBytes = [] ∨ w.files.mainBytes.getLast? = some newline)) :
    (repairValidationStoreTruncatedTail platform).run.exec w =
      ⟨{ w with files := w.files.rewriteMain platform (fun bytes =>
        bytes.take (truncateTo bytes bytes.length)) }, [], .ok true⟩ := by
  have hread : (readFiles fun files => .ok files.main).run.exec w = ⟨w, [], .ok w.files.main⟩ := rfl
  rw [repairValidationStoreTruncatedTail, exec_run_bind_of_ok hread]
  rcases hmain : w.files.main with _ | opened
  · rw [StoreFiles.mainBytes, hmain] at h
    exact absurd (Or.inl rfl) h
  · rw [StoreFiles.mainBytes, hmain, Option.elim_some] at h
    dsimp only
    rw [if_neg h]
    rfl

/-- Whatever the main file holds, the repair leaves its complete lines. -/
theorem repair_keeps_longest (platform : Platform) (w : StoreWorld) :
    ∃ removed w', (repairValidationStoreTruncatedTail platform).run.exec w = ⟨w', [], .ok removed⟩ ∧
      LongestComplete w'.files.mainBytes w.files.mainBytes ∧
      (removed = true ↔ w'.files.mainBytes ≠ w.files.mainBytes) ∧
      w'.files.main.isSome = w.files.main.isSome ∧ w'.files.siblings = w.files.siblings ∧
      (repairValidationStoreTruncatedTail platform).run.exec w' = ⟨w', [], .ok false⟩ := by
  have hlongest := longestComplete_complete w.files.mainBytes
  rcases em (w.files.mainBytes = [] ∨ w.files.mainBytes.getLast? = some newline) with hends | htorn
  · have hexec := exec_repair_of_ends platform hends
    rw [complete_eq_self hends] at hlongest
    exact ⟨false, w, hexec, hlongest, by simp, rfl, rfl, hexec⟩
  · have hmain := w.files.mainBytes_repair platform
    refine ⟨true, _, exec_repair_of_torn platform htorn, ?_, ?_, Option.isSome_map, rfl, ?_⟩
    · rwa [hmain]
    · refine iff_of_true rfl fun hsame => htorn ?_
      rw [← hsame, hmain]
      exact complete_ends _
    · refine exec_repair_of_ends platform ?_
      rw [hmain]
      exact complete_ends _
end HarborBeacon.CatRecordingValidation
