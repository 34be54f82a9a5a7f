import HarborBeacon.EmbeddingSaves

/-!
Saves that append. The rows that the metadata knows of stay where they are, the new ones come
behind them, and then the metadata is replaced. A compaction reads all rows and saves them anew.
-/

namespace HarborBeacon.EmbeddingAppends

open Binary32 EmbeddingFiles EmbeddingSaves EmbeddingShelves FileProgram KnowledgeFiles NamedFiles
open TextEncoding VectorRows WarmupPlans

variable {ι : Type} {tools : EmbeddingTools ι} {files files' : Directory ι}
  {C : Directory ι → Prop} {G : String → String → List F32 → Prop}
  {disk store : KnowledgeEmbeddingStore} {path : FilePath} {nonces : Nonces}
  {vectors : List (List F32)} {Q : KnowledgeEmbeddingStore → Directory ι → Prop}
  {originalSchemaVersion : Nat} {dimensions first : Nat} {currentName : String} {name : String}

theorem firstAppended_eq (h : Appending disk store) :
    firstAppended store.entries = disk.entries.length := by
  obtain ⟨appended, hcontents, happended⟩ := h.contents
  have hfirst : firstAppended store.entries =
      (store.entries.map contentOf).findIdx fun content => !content.2.2.isEmpty := by
    rw [List.findIdx_map]
    rfl
  have hdisk : (disk.entries.map fun entry => (entry.key, entry.textHash, ([] : List F32))).findIdx
      (fun content => !content.2.2.isEmpty) = disk.entries.length := by
    rw [List.findIdx_eq_length_of_false, List.length_map]
    intro content hcontent
    obtain ⟨entry, -, rfl⟩ := List.mem_map.mp hcontent
    rfl
  rw [hfirst, hcontents, List.findIdx_append, hdisk, List.length_map, if_neg (Nat.lt_irrefl _)]
  have hnew : appended.findIdx (fun content => !content.2.2.isEmpty) = 0 := by
    cases appended with
    | nil => rfl
    | cons content rest =>
        have hcontent := happended content List.mem_cons_self
        rw [List.findIdx_cons, List.isEmpty_eq_false_iff.mpr hcontent]
        rfl
  rw [hnew, Nat.zero_add]

theorem pairs_of_appending (h : Appending disk store) :
    (store.entries.take disk.entries.length).map pairOf = disk.entries.map pairOf := by
  obtain ⟨appended, hcontents, -⟩ := h.contents
  have hpairs : store.entries.map pairOf =
      (store.entries.map contentOf).map fun content => (content.1, content.2.1) := by
    rw [List.map_map]
    rfl
  rw [List.map_take, hpairs, hcontents, List.map_append, List.map_map]
  exact List.take_left' (by rw [List.length_map])

theorem committedRows_spec (h : committedRows store = .ok (dimensions, first)) :
    0 < dimensions ∧ store.vectorDimensions = some dimensions ∧
      first = firstAppended store.entries ∧
      ∀ entry ∈ store.entries.drop first, entry.vector.length = dimensions := by
  rw [committedRows] at h
  cases hstore : store.vectorDimensions.filter (0 < ·) with
  | none =>
      rw [hstore] at h
      cases h
  | some size =>
      rw [hstore] at h
      change (if _ then _ else _) = Except.ok (dimensions, first) at h
      rw [Option.filter_eq_some_iff] at hstore
      split at h
      · exact absurd h (by simp)
      · rename_i hall
        have hsame : (size, firstAppended store.entries) = (dimensions, first) := Except.ok.inj h
        have hsize : size = dimensions := congrArg Prod.fst hsame
        have hfirst : firstAppended store.entries = first := congrArg Prod.snd hsame
        rw [hsize, hfirst] at hall
        rw [hsize] at hstore
        refine ⟨by simpa using hstore.2, hstore.1, hfirst.symm, fun entry hentry => ?_⟩
        by_contra hother
        refine hall (Bool.or_eq_true_iff.mpr (Or.inr (List.any_eq_true.mpr ⟨entry, hentry, ?_⟩)))
        simpa using hother

theorem rowsFor_appended (h : Appending disk store)
    (hcommitted : committedRows store = .ok (dimensions, first))
    (hgenuine : Genuine G store.entries)
    (hrows : RowsFor G dimensions (disk.entries.map pairOf) vectors) :
    RowsFor G dimensions (store.entries.map pairOf)
      (vectors ++ (store.entries.drop first).map (·.vector)) := by
  obtain ⟨hpos, -, hfirst, hlength⟩ := committedRows_spec hcommitted
  rw [firstAppended_eq h] at hfirst
  rw [hfirst] at hlength ⊢
  have hnew : RowsFor G dimensions ((store.entries.drop disk.entries.length).map pairOf)
      ((store.entries.drop disk.entries.length).map (·.vector)) := by
    refine rowsFor_of_genuine hpos ?_ hlength
    exact fun content hcontent =>
      hgenuine content (((List.drop_sublist _ _).map contentOf).subset hcontent)
  rw [← pairs_of_appending h] at hrows
  have hall : RowsFor G dimensions ((store.entries.take disk.entries.length).map pairOf ++
      (store.entries.drop disk.entries.length).map pairOf)
      (vectors ++ (store.entries.drop disk.entries.length).map (·.vector)) :=
    List.rel_append hrows hnew
  rwa [← List.map_append, List.take_append_drop] at hall

theorem committedBytesOf_spec {dimensions first bytes : Nat}
    (h : committedBytesOf dimensions first = .ok bytes) : bytes = first * (dimensions * 4) := by
  rw [committedBytesOf] at h
  cases hrow : checkedMul dimensions 4 with
  | none =>
      rw [hrow] at h
      cases h
  | some rowBytes =>
      rw [hrow] at h
      change orError (checkedMul first rowBytes) _ = _ at h
      cases hall : checkedMul first rowBytes with
      | none =>
          rw [hall] at h
          cases h
      | some all =>
          rw [hall] at h
          rw [checkedMul] at hrow hall
          split at hrow
          · split at hall
            · rw [← Except.ok.inj h, ← Option.some.inj hall, ← Option.some.inj hrow]
            · cases hall
          · cases hrow

def BeginsWith (vectors : List (List F32)) (name : String) (files : Directory ι) : Prop :=
  ∃ extra, files name = some (.bytes (rowsBytes vectors ++ extra))

theorem BeginsWith.of_eq (h : BeginsWith vectors name files) (hsame : files' name = files name) :
    BeginsWith vectors name files' := by
  obtain ⟨extra, hfile⟩ := h
  exact ⟨extra, hsame.trans hfile⟩

/-- The rows that stay are never cut, and the new ones come behind them. -/
theorem runs_appendVectors {vectorPath : FilePath} {dimensions : Nat}
    (hlength : ∀ vector ∈ vectors, vector.length = dimensions)
    (hfile : BeginsWith vectors vectorPath.fileName files) {entries : List KnowledgeEmbeddingEntry}
    {Q : Unit → Directory ι → Prop} (hC : ∀ files', Beside [vectorPath.fileName] files files' →
      BeginsWith vectors vectorPath.fileName files' → C files')
    (hdone : ∀ files', Beside [vectorPath.fileName] files files' →
      files' vectorPath.fileName =
        some (.bytes (rowsBytes (vectors ++ entries.map (·.vector)))) → Q () files') :
    Runs (appendVectors vectorPath (vectors.length * (dimensions * 4)) entries) files C Q := by
  obtain ⟨extra, hcontent⟩ := hfile
  have hstart := beside_refl [vectorPath.fileName] files
  have hupdated : ∀ content, Beside [vectorPath.fileName] files
      (Function.update files vectorPath.fileName content) := fun content =>
    hstart.update (Or.inl List.mem_cons_self) content
  have hparts : ∀ part, C (Function.update files vectorPath.fileName
      (some (.bytes (rowsBytes vectors ++ part)))) := fun part =>
    hC _ (hupdated _) ⟨part, Function.update_self ..⟩
  have hbegin : C files := hC files hstart ⟨extra, hcontent⟩
  rw [appendVectors]
  refine runs_seq (runs_orFail (runs_readStep hbegin fun _ _ => ?_))
  refine runs_seq (runs_orFail (runs_writeStep hbegin fun files' hset => ?_))
  rw [hcontent] at hset
  have hcut : (rowsBytes vectors ++ extra).take (vectors.length * (dimensions * 4)) ++
      List.replicate (vectors.length * (dimensions * 4) - (rowsBytes vectors ++ extra).length) 0 =
        rowsBytes vectors := by
    have hshort : vectors.length * (dimensions * 4) - (rowsBytes vectors ++ extra).length = 0 := by
      rw [List.length_append, length_rowsBytes hlength]
      omega
    rw [take_rowsBytes hlength, hshort, List.replicate_zero, List.append_nil]
  have hfiles' : Function.update files vectorPath.fileName (some (.bytes (rowsBytes vectors))) =
      files' := by
    rw [← hcut]
    exact Except.ok.inj hset
  have hnone := hparts []
  rw [List.append_nil] at hnone
  rw [← hfiles']
  refine ⟨hnone, runs_orFail (runs_appendBytes (Function.update_self ..) ?_ ?_)⟩
  · intro part _
    rw [Function.update_idem]
    exact hparts part
  · intro _
    rw [Function.update_idem, ← rowsBytes_append]
    exact hdone _ (hupdated _) (Function.update_self ..)

/-- A vector file that can be appended to, with the same content. -/
theorem runs_mutableVectorPath (hslash : '/' ∉ path.fileName.toList)
    (hname : store.vectorFileName = some currentName)
    (hsafe : embeddingVectorFileNameIsSafe currentName = true) {content : List UInt8}
    (hcontent : files currentName = some (.bytes content))
    {Q : FilePath × Option String → Directory ι → Prop}
    (hC : ∀ files', Beside [embeddingVectorFileName tools.sha256 nonces.vectors path store] files
      files' → files' currentName = some (.bytes content) → C files')
    (hdone : ∀ files' name, (name = currentName ∨
        name = embeddingVectorFileName tools.sha256 nonces.vectors path store) →
      embeddingVectorFileNameIsSafe name = true →
      Beside [embeddingVectorFileName tools.sha256 nonces.vectors path store] files files' →
      files' currentName = some (.bytes content) → files' name = some (.bytes content) →
      Q (path.sibling name, some name) files') :
    Runs (mutableVectorPath tools nonces path store originalSchemaVersion
      (path.sibling currentName)) files C Q := by
  have hmigrated := endsIn_embeddingVectorFileName tools.sha256 nonces.vectors path store
  have hsafe' : embeddingVectorFileNameIsSafe
      (embeddingVectorFileName tools.sha256 nonces.vectors path store) = true :=
    fileNameIsSafe_generationFileName (c := '2') tools.sha256 hslash (by decide) (by decide)
      (by decide) (by decide)
  have hcurrent : endsIn currentName '2' := endsIn_of_fileNameIsSafe hsafe (by rfl)
  rw [mutableVectorPath]
  generalize embeddingVectorFileName tools.sha256 nonces.vectors path store = migrated at *
  have hstart := beside_refl [migrated] files
  split
  · rw [hname]
    exact runs_pure (hC files hstart hcontent)
      (hdone files currentName (Or.inl rfl) hsafe hstart hcontent hcontent)
  · have hscratch : endsIn ((path.sibling migrated).withExtension "f32.tmp").fileName 'p' :=
      getLast?_withExtension _ (by decide)
    dsimp only
    generalize ((path.sibling migrated).withExtension "f32.tmp") = temporaryPath at hscratch ⊢
    have hne : currentName ≠ temporaryPath.fileName := ne_of_endsIn hcurrent hscratch (by decide)
    have hstaged : ∀ value, Beside [migrated] files
        (Function.update files temporaryPath.fileName value) := fun value =>
      hstart.update (Or.inr (Or.inl hscratch)) value
    have hkept : ∀ value, Function.update files temporaryPath.fileName value currentName =
        some (.bytes content) := fun value => by rw [Function.update_of_ne hne, hcontent]
    have hbegin := hC files hstart hcontent
    refine runs_seq (runs_orFail (runs_seq (runs_readStep hbegin fun read hread => ?_)))
    have hfound := bytesOf_eq_ok hread
    change files currentName = _ at hfound
    rw [hcontent, Option.some.injEq] at hfound
    obtain rfl := Content.bytes.inj hfound
    refine runs_writeFile hbegin (fun part _ => hC _ (hstaged _) (hkept _)) fun _ => ?_
    refine runs_seq (runs_renameScratch (Or.inl hscratch) (Function.update_self ..)
      (hC _ (hstaged _) (hkept _)) fun files' hnext hmoved => ?_)
    have hbeside := (hstaged (some (.bytes content))).trans hnext
    have hstays : files' currentName = some (.bytes content) := by
      by_cases hsame : currentName = migrated
      · rw [hsame]
        exact hmoved
      · rw [hbeside currentName (by simpa using hsame)
          (not_isScratch hcurrent (by decide) (by decide)), hcontent]
    exact ⟨hC files' hbeside hstays, runs_pure (hC files' hbeside hstays)
      (hdone files' migrated (Or.inr rfl) hsafe' hbeside hstays hmoved)⟩

theorem inFiles_incrementalStore (happending : Appending disk store)
    (hcommitted : committedRows store = .ok (dimensions, first))
    (hgenuine : Genuine G store.entries)
    (hrows : RowsFor G dimensions (disk.entries.map pairOf) vectors)
    (hsafe : embeddingVectorFileNameIsSafe name = true)
    (hfile : files name = some (.bytes (rowsBytes
      (vectors ++ (store.entries.drop first).map (·.vector))))) :
    InFiles G files (incrementalStore store (some name)) := by
  obtain ⟨hpos, hsize, -, -⟩ := committedRows_spec hcommitted
  constructor
  · intro entry hentry
    obtain ⟨other, -, rfl⟩ := List.mem_map.mp hentry
    rfl
  · intro _
    refine ⟨name, dimensions, vectors ++ (store.entries.drop first).map (·.vector), [], rfl, hsafe,
      ?_, hpos, hsize, ?_⟩
    · rw [List.append_nil]
      exact hfile
    · have hpairs : (incrementalStore store (some name)).entries.map pairOf =
          store.entries.map pairOf := by
        change (store.entries.map fun entry => { entry with vector := [] }).map pairOf = _
        rw [List.map_map]
        rfl
      rw [hpairs]
      exact rowsFor_appended happending hcommitted hgenuine hrows

theorem runs_publishAppended (hpath : endsIn path.fileName 'n') {currentName name : String}
    {content : Option (Content ι)} (hstoreName : store.vectorFileName = some currentName)
    (hcurrent : endsIn currentName '2') (hname : endsIn name '2') (hcontent : files name = content)
    {saved : KnowledgeEmbeddingStore} (hC : ∀ files', Beside [path.fileName] files files' →
      (files' path.fileName = files path.fileName ∨ files' path.fileName = none) → C files')
    (hend : ∀ files' payload, tools.toStringPretty saved = .ok payload →
      files' path.fileName = some (.bytes (utf8 payload)) → files' name = content →
        C files' ∧ Q saved files') :
    Runs (do
      writeCompactEmbeddingStore tools path saved
      if originalSchemaVersion ≠ embeddingStoreSchemaVersion then
        removePreviousGeneration ".f32" store.vectorFileName (some name)
      pure saved) files C Q := by
  refine runs_seq (runs_writeCompactEmbeddingStore hpath hC ?_)
  intro files₁ payload hpayload hbeside hmetadata
  have hkept : files₁ name = content := by
    rw [hbeside name ?_ (not_isScratch hname (by decide) (by decide)), hcontent]
    rw [List.mem_singleton]
    exact ne_of_endsIn hname hpath (by decide)
  have hfinal := hend files₁ payload hpayload hmetadata hkept
  refine ⟨hfinal.1, ?_⟩
  split
  · refine runs_seq (runs_removePreviousGeneration hfinal.1 (runs_pure hfinal.1 hfinal.2) ?_)
    intro other hother hdiffers _
    rw [hstoreName, Option.some.injEq] at hother
    subst hother
    have hne : name ≠ currentName := fun h => hdiffers (congrArg some h.symm)
    have hgone := hend (Function.update files₁ currentName none) payload hpayload
      (by rw [Function.update_of_ne (ne_of_endsIn hpath hcurrent (by decide)), hmetadata])
      (by rw [Function.update_of_ne hne, hkept])
    exact ⟨hgone.1, runs_pure hgone.1 hgone.2⟩
  · exact runs_pure hfinal.1 hfinal.2

/-- An incremental save ends with metadata of all entries and with their rows. -/
theorem runs_saveEmbeddingStoreIncremental (hcodec : RoundTrips tools)
    (hpath : endsIn path.fileName 'n') (hslash : '/' ∉ path.fileName.toList)
    (happending : Appending disk store) (hname : store.vectorFileName = disk.vectorFileName)
    (hgenuine : Genuine G store.entries) {dimensions : Nat}
    (hcurrent : disk.vectorFileName = some currentName)
    (hsafe : embeddingVectorFileNameIsSafe currentName = true)
    (hfile : BeginsWith vectors currentName files)
    (hdimensions : disk.vectorDimensions = some dimensions)
    (hrows : RowsFor G dimensions (disk.entries.map pairOf) vectors)
    (hC : ∀ files', Beside [path.fileName, currentName,
        embeddingVectorFileName tools.sha256 nonces.vectors path store] files files' →
      (files' path.fileName = files path.fileName ∨ files' path.fileName = none) →
      BeginsWith vectors currentName files' → C files')
    (hdone : ∀ files' saved, Reads tools path files' saved → InFiles G files' saved →
      saved.entries = store.entries.map (fun entry => { entry with vector := [] }) →
        C files' ∧ Q saved files') :
    Runs (saveEmbeddingStoreIncremental tools nonces path store originalSchemaVersion) files C Q := by
  have hmigrated := endsIn_embeddingVectorFileName tools.sha256 nonces.vectors path store
  have hcurrentEnds : endsIn currentName '2' := endsIn_of_fileNameIsSafe hsafe (by rfl)
  have hstoreName : store.vectorFileName = some currentName := hname.trans hcurrent
  have hvectorPath : embeddingVectorPath path store = .ok (path.sibling currentName) := by
    rw [embeddingVectorPath, hstoreName, Option.filter_some, if_pos hsafe]
    rfl
  have hmutable := fun (C : Directory ι → Prop) Q content =>
    @runs_mutableVectorPath ι tools files C store path nonces originalSchemaVersion currentName
      hslash hstoreName hsafe content (Q := Q)
  rw [saveEmbeddingStoreIncremental]
  generalize embeddingVectorFileName tools.sha256 nonces.vectors path store = migrated at *
  have hstart : C files := hC files (beside_refl _ files) (Or.inl rfl) hfile
  refine runs_seq (runs_fromExcept hstart fun committed hcommitted => ?_)
  obtain ⟨size, first⟩ := committed
  obtain ⟨hpos, hsize, hfirst, -⟩ := committedRows_spec hcommitted
  have hdisk : size = dimensions := by
    obtain ⟨-, other, -, hother, hother'⟩ := happending
    rw [hsize] at hother'
    rw [hdimensions] at hother
    exact (Option.some.inj hother').trans (Option.some.inj hother).symm
  subst hdisk
  have hcount : first = vectors.length := by
    rw [hfirst, firstAppended_eq happending, ← hrows.length_eq, List.length_map]
  obtain ⟨extra, hcontent⟩ := hfile
  refine runs_seq (runs_fromExcept hstart fun currentPath hcurrentPath => ?_)
  obtain rfl : path.sibling currentName = currentPath :=
    Except.ok.inj (hvectorPath.symm.trans hcurrentPath)
  refine runs_seq (runs_fromExcept hstart fun committedBytes hbytes => ?_)
  obtain rfl : committedBytes = vectors.length * (size * 4) :=
    hcount ▸ committedBytesOf_spec hbytes
  refine runs_seq (runs_orFail (runs_readStep hstart fun actualBytes _ => ?_))
  split
  · exact runs_throw hstart
  · -- the rows come to the current file or to a copy of it
    have hpathKept : ∀ {names : List String} {files₁ files₂ : Directory ι},
        (∀ name ∈ names, endsIn name '2') → Beside names files₁ files₂ →
          files₂ path.fileName = files₁ path.fileName := by
      intro names files₁ files₂ hnames hbeside
      refine hbeside path.fileName (fun hmem => ?_)
        (not_isScratch hpath (by decide) (by decide))
      exact ne_of_endsIn hpath (hnames _ hmem) (by decide) rfl
    refine runs_seq (hmutable _ _ _ hcontent ?_ ?_)
    · intro files' hbeside hkept
      refine hC files' (hbeside.mono (by simp)) (Or.inl (hpathKept ?_ hbeside)) ⟨_, hkept⟩
      simpa using hmigrated
    · intro files₁ name hplace hnameSafe hbeside hkeptFile hmovedFile
      have hkept : BeginsWith vectors currentName files₁ := ⟨_, hkeptFile⟩
      have hmoved : BeginsWith vectors name files₁ := ⟨_, hmovedFile⟩
      have hnameEnds : endsIn name '2' := endsIn_of_fileNameIsSafe hnameSafe (by rfl)
      have hsub : [migrated] ⊆ [path.fileName, currentName, migrated] := by simp
      have hsub' : [name] ⊆ [path.fileName, currentName, migrated] := by
        rcases hplace with rfl | rfl <;> simp
      have hmetadata : files₁ path.fileName = files path.fileName :=
        hpathKept (by simpa using hmigrated) hbeside
      have hbegins : ∀ files', Beside [name] files₁ files' →
          BeginsWith vectors name files' → BeginsWith vectors currentName files' := by
        intro files' hnext hmoved'
        by_cases hsame : currentName = name
        · rw [hsame]
          exact hmoved'
        · refine hkept.of_eq (hnext currentName (by simpa using hsame) ?_)
          exact not_isScratch hcurrentEnds (by decide) (by decide)
      refine runs_seq (runs_appendVectors hrows.lengths hmoved ?_ ?_)
      · intro files' (hnext : Beside [name] files₁ files')
          (hmoved' : BeginsWith vectors name files')
        refine hC files' ((hbeside.mono hsub).trans (hnext.mono hsub')) (Or.inl ?_)
          (hbegins files' hnext hmoved')
        rw [hpathKept (by simpa using hnameEnds) hnext, hmetadata]
      · intro files₂ (hnext : Beside [name] files₁ files₂) (hfile : files₂ name = _)
        have hlast : files₂ path.fileName = files path.fileName :=
          (hpathKept (by simpa using hnameEnds) hnext).trans hmetadata
        have hcommittedRows : BeginsWith vectors currentName files₂ := by
          refine hbegins files₂ hnext ⟨rowsBytes ((store.entries.drop first).map (·.vector)), ?_⟩
          rw [hfile, rowsBytes_append]
        refine runs_publishAppended hpath hstoreName hcurrentEnds hnameEnds hfile ?_ ?_
        · intro files' hwritten hmetadata'
          rw [hlast] at hmetadata'
          refine hC files' (((hbeside.mono hsub).trans (hnext.mono hsub')).trans
            (hwritten.mono (by simp))) hmetadata' (hcommittedRows.of_eq ?_)
          refine hwritten currentName ?_ (not_isScratch hcurrentEnds (by decide) (by decide))
          rw [List.mem_singleton]
          exact ne_of_endsIn hcurrentEnds hpath (by decide)
        · intro files' payload hpayload hmetadata' hrowsFile
          have hin := inFiles_incrementalStore happending hcommitted hgenuine hrows hnameSafe
            hrowsFile
          exact hdone files' _ (reads_of_payload hcodec hin.bare rfl hpayload hmetadata') hin rfl

section Loads

variable {α : Type} {entries : List KnowledgeEmbeddingEntry}

theorem safely_of_readOnly {x : Files ι α} (h : Runs x files (· = files) fun _ _ => True)
    (hC : C files) : Safely x.run files C fun result files' =>
      files' = files ∧ result = (x.run.exec files).result := by
  refine ⟨fun visited hvisited => ?_, h.1 _ (exec_file_mem_visits x.run files), rfl⟩
  rw [h.1 visited hvisited]
  exact hC

theorem readOnly_loadEmbeddingStore :
    Runs (loadEmbeddingStore tools path) files (· = files) fun _ _ => True := by
  rw [loadEmbeddingStore]
  refine runs_seq (runs_isFile rfl ?_)
  split
  · refine runs_seq (runs_orFail (runs_readStep rfl fun text _ => ?_))
    refine runs_seq (runs_orFail (runs_fromExcept rfl fun store _ => ?_))
    split <;> exact runs_pure rfl trivial
  · exact runs_pure rfl trivial

theorem runs_loadEmbeddingStore {Q : KnowledgeEmbeddingStore → Directory ι → Prop} (hC : C files)
    (hQ : ∀ store, Reads tools path files store → Q store files) :
    Runs (loadEmbeddingStore tools path) files C Q := by
  refine Safely.mono (safely_of_readOnly readOnly_loadEmbeddingStore hC) (fun _ h => h) ?_
  rintro result _ ⟨rfl, hresult⟩ store hstore
  exact hQ store (hresult.symm.trans hstore)

def bareEntry (entry : KnowledgeEmbeddingEntry) : KnowledgeEmbeddingEntry :=
  { entry with vector := [] }

structure Loaded (G : String → String → List F32 → Prop) (store loaded : KnowledgeEmbeddingStore) :
    Prop where
  same : loaded = { store with entries := loaded.entries }
  bare : loaded.entries.map bareEntry = store.entries.map bareEntry
  genuine : Genuine G loaded.entries
  vectors : hasVectorFile store.schemaVersion = true → ∀ entry ∈ loaded.entries, entry.vector ≠ []
  inline : hasVectorFile store.schemaVersion = false → loaded = store

/-- What the saves see to: keys of their own for the active entries, a dimension, and rows in the
vector file or vectors in the metadata of an old schema. -/
structure Sound (G : String → String → List F32 → Prop) (files : Directory ι)
    (store : KnowledgeEmbeddingStore) : Prop where
  nodup : ((activeEntries store.entries).map (·.key)).Nodup
  dimensions : store.entries ≠ [] → store.vectorDimensions ≠ none
  inFiles : hasVectorFile store.schemaVersion = true → InFiles G files store
  inline : hasVectorFile store.schemaVersion = false → Genuine G store.entries

theorem withVectors_eq {vectors : List (List F32)} {dimensions : Nat}
    (hlength : entries.length = vectors.length)
    (hlengths : ∀ vector ∈ vectors, vector.length = dimensions) (extra : List UInt8) :
    withVectors dimensions (rowsBytes vectors ++ extra) entries =
      List.zipWith (fun entry vector => { entry with vector := vector }) entries vectors := by
  refine List.ext_getElem? fun index => ?_
  rw [withVectors, List.getElem?_mapIdx, List.getElem?_zipWith]
  cases hentry : entries[index]? with
  | none => rfl
  | some entry =>
      have hlt := (List.getElem?_eq_some_iff.mp hentry).1
      rw [hlength] at hlt
      have hvector : vectors[index]? = some vectors[index] := List.getElem?_eq_getElem hlt
      rw [hvector]
      change some { entry with vector := readVector _ } = some { entry with vector := _ }
      rw [rowAt_rowsBytes hlengths extra hvector, readVector_vectorBytes]

theorem loaded_zipWith {dimensions : Nat} (hpos : 0 < dimensions) {vectors : List (List F32)}
    (hrows : RowsFor G dimensions (entries.map pairOf) vectors) :
    (List.zipWith (fun entry vector => { entry with vector := vector }) entries vectors).map
        bareEntry = entries.map bareEntry ∧
      ∀ entry ∈ List.zipWith (fun entry vector => ({ entry with vector := vector } :
        KnowledgeEmbeddingEntry)) entries vectors,
        entry.vector ≠ [] ∧ G entry.key entry.textHash entry.vector := by
  rw [RowsFor, List.forall₂_map_left_iff] at hrows
  induction hrows with
  | nil => exact ⟨rfl, fun _ hmem => absurd hmem List.not_mem_nil⟩
  | @cons entry vector entries vectors hfirst _ ih =>
      rw [List.zipWith_cons_cons, List.map_cons, List.map_cons, ih.1]
      refine ⟨rfl, List.forall_mem_cons.mpr ⟨⟨?_, hfirst.2⟩, ih.2⟩⟩
      change vector ≠ []
      rintro rfl
      have hzero := hfirst.1
      rw [List.length_nil] at hzero
      omega

theorem runs_loadEmbeddingStoreWithVectors (hreads : Reads tools path files store)
    (hsound : Sound G files store) {Q : KnowledgeEmbeddingStore → Directory ι → Prop}
    (hC : C files) (hQ : ∀ loaded, Loaded G store loaded → Q loaded files) :
    Runs (loadEmbeddingStoreWithVectors tools path) files C Q := by
  rw [loadEmbeddingStoreWithVectors]
  refine runs_seq (runs_loadEmbeddingStore hC fun read hread => ?_)
  obtain rfl := reads_unique hreads hread
  split
  · rename_i hinline
    refine runs_pure hC (hQ store ⟨rfl, rfl, ?_, ?_, fun _ => rfl⟩)
    · cases hvectors : hasVectorFile store.schemaVersion with
      | false => exact hsound.inline hvectors
      | true =>
          have hempty : store.entries = [] := by simpa [hvectors] using hinline
          rw [hempty]
          exact fun content hcontent => absurd hcontent List.not_mem_nil
    · intro hvectors
      have hempty : store.entries = [] := by simpa [hvectors] using hinline
      rw [hempty]
      exact fun _ hmem => absurd hmem List.not_mem_nil
  · rename_i houtside
    rw [Bool.or_eq_true, not_or] at houtside
    have hsome : store.entries ≠ [] := by simpa using houtside.2
    obtain ⟨name, dimensions, vectors, extra, hname, hsafe, hfile, hpos, hdimensions, hrows⟩ :=
      (hsound.inFiles (by simpa using houtside.1)).rows hsome
    refine runs_seq (runs_fromExcept hC fun size hsize => ?_)
    rw [hdimensions, Option.filter_some, if_pos (by simpa using hpos)] at hsize
    obtain rfl : dimensions = size := Except.ok.inj hsize
    refine runs_seq (runs_fromExcept hC fun vectorPath hvectorPath => ?_)
    rw [embeddingVectorPath, hname, Option.filter_some, if_pos hsafe] at hvectorPath
    obtain rfl : path.sibling name = vectorPath := Except.ok.inj hvectorPath
    refine runs_seq (runs_orFail (runs_readStep hC fun bytes hbytes => ?_))
    obtain rfl : bytes = rowsBytes vectors ++ extra :=
      Content.bytes.inj (Option.some.inj ((bytesOf_eq_ok hbytes).symm.trans hfile))
    refine runs_seq (runs_fromExcept hC fun _ _ => ?_)
    have hlength : store.entries.length = vectors.length := by
      rw [← hrows.length_eq, List.length_map]
    have hloaded := loaded_zipWith hpos hrows
    rw [withVectors_eq hlength hrows.lengths]
    refine runs_pure hC (hQ _ ⟨rfl, hloaded.1, ?_,
      fun _ entry hentry => (hloaded.2 entry hentry).1, fun hinline => ?_⟩)
    · intro content hcontent _
      obtain ⟨entry, hentry, rfl⟩ := List.mem_map.mp hcontent
      exact (hloaded.2 entry hentry).2
    · exact absurd hinline (by simpa using houtside.1)

end Loads

end HarborBeacon.EmbeddingAppends
