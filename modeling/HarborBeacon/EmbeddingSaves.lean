import HarborBeacon.WarmupPlans

/-!
What the saves of an embedding store leave in the files. While a save is on its way, only files
under names of their own change and the metadata is the old one or missing; once the metadata is the
new one, the files that it names are complete.
-/

namespace HarborBeacon.EmbeddingSaves

open Binary32 EmbeddingFiles EmbeddingShelves FileProgram KnowledgeFiles NamedFiles TextEncoding
open VectorRows WarmupPlans

variable {ι α : Type} {tools : EmbeddingTools ι} {files files' : Directory ι}
  {C : Directory ι → Prop} {name : String} {letter : Char}

def endsIn (name : String) (letter : Char) : Prop :=
  name.toList.getLast? = some letter

/-- Temporary files and backups. -/
def IsScratch (name : String) : Prop :=
  endsIn name 'p' ∨ endsIn name 's'

theorem not_isScratch (h : endsIn name letter) (hp : letter ≠ 'p') (hs : letter ≠ 's') :
    ¬ IsScratch name := by
  rintro (hp' | hs')
  · exact hp (Option.some.inj (h.symm.trans hp'))
  · exact hs (Option.some.inj (h.symm.trans hs'))

theorem ne_of_endsIn {a b : String} {c d : Char} (ha : endsIn a c) (hb : endsIn b d) (h : c ≠ d) :
    a ≠ b := by
  rintro rfl
  exact h (Option.some.inj (ha.symm.trans hb))

theorem endsIn_embeddingVectorFileName (sha256 : List UInt8 → List UInt8) (nonce : Nat)
    (path : FilePath) (store : KnowledgeEmbeddingStore) :
    endsIn (embeddingVectorFileName sha256 nonce path store) '2' :=
  getLast?_generationFileName sha256 path _ _ (by decide)

theorem endsIn_embeddingHnswFileName (sha256 : List UInt8 → List UInt8) (nonce : Nat)
    (path : FilePath) (store : KnowledgeEmbeddingStore) :
    endsIn (embeddingHnswFileName sha256 nonce path store) 'w' :=
  getLast?_generationFileName sha256 path _ _ (by decide)

theorem endsIn_of_fileNameIsSafe {extension name : String}
    (h : fileNameIsSafe extension name = true) (hletter : endsIn extension letter) :
    endsIn name letter :=
  getLast?_of_endsWithText (Bool.and_eq_true_iff.mp h).2 hletter

/-- Scratch files and the named ones may change, and no others. -/
def Beside (names : List String) (files files' : Directory ι) : Prop :=
  ∀ name, name ∉ names → ¬ IsScratch name → files' name = files name

theorem beside_refl (names : List String) (files : Directory ι) : Beside names files files :=
  fun _ _ _ => rfl

theorem Beside.trans {names : List String} {files₁ files₂ files₃ : Directory ι}
    (h : Beside names files₁ files₂) (h' : Beside names files₂ files₃) :
    Beside names files₁ files₃ :=
  fun name hname hscratch => (h' name hname hscratch).trans (h name hname hscratch)

theorem Beside.mono {names names' : List String} (h : Beside names files files')
    (hsub : names ⊆ names') : Beside names' files files' :=
  fun name hname hscratch => h name (fun hmem => hname (hsub hmem)) hscratch

theorem Beside.update {names : List String} (h : Beside names files files')
    (hname : name ∈ names ∨ IsScratch name) (value : Option (Content ι)) :
    Beside names files (Function.update files' name value) := by
  intro other hother hscratch
  rw [Function.update_of_ne]
  · exact h other hother hscratch
  · rintro rfl
    exact hname.elim hother hscratch

section Staging

variable {Q : Unit → Directory ι → Prop}

theorem runs_renameScratch {temporary name : String} {content : Content ι} {message : String}
    (hscratch : IsScratch temporary) (hsource : files temporary = some content)
    (hC : C files)
    (hdone : ∀ files', Beside [name] files files' → files' name = some content →
      C files' ∧ Q () files') :
    Runs (orFail (renameFile temporary name) message) files C Q := by
  refine runs_orFail (runs_renameFile hC ?_)
  intro content' hcontent'
  rw [hsource, Option.some.injEq] at hcontent'
  subst hcontent'
  refine hdone _ ?_ (Function.update_self ..)
  exact (((beside_refl [name] files).update (Or.inr hscratch) none).update
    (Or.inl List.mem_cons_self) _)

theorem runs_writeVectorFile {vectorPath : FilePath} {entries : List KnowledgeEmbeddingEntry}
    (hC : ∀ files', Beside [] files files' → C files')
    (hdone : ∀ files', Beside [vectorPath.fileName] files files' →
      files' vectorPath.fileName = some (.bytes (rowsBytes (entries.map (·.vector)))) →
        C files' ∧ Q () files') :
    Runs (writeVectorFile vectorPath entries) files C Q := by
  have hscratch : IsScratch (vectorPath.withExtension "f32.tmp").fileName :=
    Or.inl (getLast?_withExtension vectorPath (by decide))
  rw [writeVectorFile]
  generalize (vectorPath.withExtension "f32.tmp") = temporaryPath at hscratch ⊢
  have hstart := beside_refl [] files
  have hstaged := hstart.update (Or.inr hscratch)
  refine runs_seq (runs_orFail (runs_createFile (hC _ hstart) (hC _ (hstaged _)) ?_))
  refine runs_seq (runs_orFail (runs_appendBytes (Function.update_self ..) ?_ ?_))
  · intro part _
    rw [Function.update_idem]
    exact hC _ (hstaged _)
  · intro _
    rw [Function.update_idem, List.nil_append]
    refine runs_renameScratch hscratch (Function.update_self ..) (hC _ (hstaged _)) ?_
    intro files' hbeside hcontent
    exact hdone files' (((hstaged _).mono (List.nil_subset _)).trans hbeside) hcontent

theorem runs_writeHnswFile {hnswPath : FilePath} {entries : List KnowledgeEmbeddingEntry}
    (hC : ∀ files', Beside [] files files' → C files')
    (hdone : ∀ files', Beside [hnswPath.fileName] files files' →
      files' hnswPath.fileName = some (.kept (tools.build (entries.map (·.vector)))) →
        C files' ∧ Q () files') :
    Runs (writeHnswFile tools hnswPath entries) files C Q := by
  have hscratch : IsScratch (hnswPath.withExtension "hnsw.tmp").fileName :=
    Or.inl (getLast?_withExtension hnswPath (by decide))
  rw [writeHnswFile]
  generalize (hnswPath.withExtension "hnsw.tmp") = temporaryPath at hscratch ⊢
  have hstaged := (beside_refl [] files).update (Or.inr hscratch)
    (some (.kept (tools.build (entries.map (·.vector)))))
  refine runs_seq (runs_writeStep (hC _ (beside_refl [] files)) fun files' hkept => ?_)
  rw [← Except.ok.inj hkept]
  refine ⟨hC _ hstaged, runs_renameScratch hscratch (Function.update_self ..) (hC _ hstaged) ?_⟩
  intro files' hbeside hcontent
  exact hdone files' ((hstaged.mono (List.nil_subset _)).trans hbeside) hcontent

/-- The metadata is replaced as a whole. -/
theorem runs_writeCompactEmbeddingStore {path : FilePath} {store : KnowledgeEmbeddingStore}
    (hpath : endsIn path.fileName 'n')
    (hC : ∀ files', Beside [path.fileName] files files' →
      (files' path.fileName = files path.fileName ∨ files' path.fileName = none) → C files')
    (hdone : ∀ files' payload, tools.toStringPretty store = .ok payload →
      Beside [path.fileName] files files' →
      files' path.fileName = some (.bytes (utf8 payload)) → C files' ∧ Q () files') :
    Runs (writeCompactEmbeddingStore tools path store) files C Q := by
  have htemporary : endsIn (path.withExtension "json.tmp").fileName 'p' :=
    getLast?_withExtension path (by decide)
  have hbackup : endsIn (path.withExtension "json.previous").fileName 's' :=
    getLast?_withExtension path (by decide)
  have hstart : C files := hC files (beside_refl _ files) (Or.inl rfl)
  rw [writeCompactEmbeddingStore]
  refine runs_seq (runs_orFail (runs_fromExcept hstart fun payload hpayload => ?_))
  generalize (path.withExtension "json.tmp") = temporaryPath at htemporary ⊢
  have hstaged : ∀ content, Beside [path.fileName] files
      (Function.update files temporaryPath.fileName content) := fun content =>
    (beside_refl _ files).update (Or.inr (Or.inl htemporary)) content
  have hne : path.fileName ≠ temporaryPath.fileName := ne_of_endsIn hpath htemporary (by decide)
  refine runs_seq (runs_orFail (runs_writeFile hstart (fun part _ => ?_) fun _ => ?_))
  · exact hC _ (hstaged _) (Or.inl (Function.update_of_ne hne ..))
  · have hreplaced : ∀ files', Replacing (Function.update files temporaryPath.fileName
        (some (.bytes (utf8 payload)))) temporaryPath.fileName path.fileName
          (path.withExtension "json.previous").fileName (.bytes (utf8 payload)) files' →
        Beside [path.fileName] files files' := by
      intro files' hreplacing
      refine (hstaged (some (.bytes (utf8 payload)))).trans fun name hname hscratch => ?_
      refine hreplacing.others name ?_ (fun h => hname (h ▸ List.mem_cons_self)) ?_
      · rintro rfl
        exact hscratch (Or.inl htemporary)
      · rintro rfl
        exact hscratch (Or.inr hbackup)
    refine runs_replaceFileWithRollback (Function.update_self ..) hne.symm
      (ne_of_endsIn htemporary hbackup (by decide)) (ne_of_endsIn hpath hbackup (by decide)) ?_ ?_
    · intro files' hreplacing
      rcases hreplacing.target with hold | hnone | hnew
      · rw [Function.update_of_ne hne] at hold
        exact hC files' (hreplaced files' hreplacing) (Or.inl hold)
      · exact hC files' (hreplaced files' hreplacing) (Or.inr hnone)
      · exact (hdone files' payload hpayload (hreplaced files' hreplacing) hnew).1
    · intro files' hreplacing hnew
      exact (hdone files' payload hpayload (hreplaced files' hreplacing) hnew).2

theorem runs_removePreviousGeneration {extension : String} {previous current : Option String}
    (hC : C files) (hQ : Q () files)
    (hgone : ∀ name, previous = some name → some name ≠ current →
      fileNameIsSafe extension name = true →
        C (Function.update files name none) ∧ Q () (Function.update files name none)) :
    Runs (removePreviousGeneration extension previous current) files C Q := by
  cases previous with
  | none => exact runs_pure hC hQ
  | some name =>
      rw [removePreviousGeneration]
      split
      · rename_i hother
        obtain ⟨hCgone, hQgone⟩ := hgone name rfl hother.1 hother.2
        refine runs_seq (runs_isFile hC ?_)
        split
        · exact runs_attempt_removeFile hC hCgone hQgone
        · exact runs_pure hC hQ
      · exact runs_pure hC hQ

end Staging

section Rows

variable {G : String → String → List F32 → Prop} {dimensions : Nat}

def pairOf (entry : KnowledgeEmbeddingEntry) : String × String :=
  (entry.key, entry.textHash)

def RowsFor (G : String → String → List F32 → Prop) (dimensions : Nat)
    (pairs : List (String × String)) (vectors : List (List F32)) : Prop :=
  List.Forall₂ (fun pair vector => vector.length = dimensions ∧ G pair.1 pair.2 vector) pairs vectors

/-- The rows of a store lie in its vector file, whatever comes behind them. -/
structure InFiles (G : String → String → List F32 → Prop) (files : Directory ι)
    (store : KnowledgeEmbeddingStore) : Prop where
  bare : ∀ entry ∈ store.entries, entry.vector = []
  rows : store.entries ≠ [] → ∃ name dimensions vectors extra,
    store.vectorFileName = some name ∧ embeddingVectorFileNameIsSafe name = true ∧
      files name = some (.bytes (rowsBytes vectors ++ extra)) ∧
      0 < dimensions ∧ store.vectorDimensions = some dimensions ∧
      RowsFor G dimensions (store.entries.map pairOf) vectors

theorem RowsFor.lengths {pairs : List (String × String)} {vectors : List (List F32)}
    (h : RowsFor G dimensions pairs vectors) :
    ∀ vector ∈ vectors, vector.length = dimensions := by
  induction h with
  | nil => exact fun _ hmem => absurd hmem List.not_mem_nil
  | cons hfirst _ ih => exact List.forall_mem_cons.mpr ⟨hfirst.1, ih⟩

theorem rowsFor_of_genuine {entries : List KnowledgeEmbeddingEntry} (hpos : 0 < dimensions)
    (hgenuine : Genuine G entries) (hlength : ∀ entry ∈ entries, entry.vector.length = dimensions) :
    RowsFor G dimensions (entries.map pairOf) (entries.map (·.vector)) := by
  rw [RowsFor, List.forall₂_map_left_iff, List.forall₂_map_right_iff, List.forall₂_same]
  intro entry hentry
  refine ⟨hlength entry hentry, hgenuine (contentOf entry) (List.mem_map_of_mem hentry) ?_⟩
  change entry.vector ≠ []
  rintro hnil
  have hzero := hlength entry hentry
  rw [hnil, List.length_nil] at hzero
  omega

/-- The metadata in the files is read as this store. -/
def Reads (tools : EmbeddingTools ι) (path : FilePath) (files : Directory ι)
    (store : KnowledgeEmbeddingStore) : Prop :=
  ((loadEmbeddingStore tools path).run.exec files).result = .ok store

/-- Metadata without vectors is read back as it was written. -/
def RoundTrips (tools : EmbeddingTools ι) : Prop :=
  ∀ store text, (∀ entry ∈ store.entries, entry.vector = []) →
    tools.toStringPretty store = .ok text → tools.fromStr text = .ok store

theorem reads_of_payload (hcodec : RoundTrips tools) {path : FilePath}
    {store : KnowledgeEmbeddingStore} (hbare : ∀ entry ∈ store.entries, entry.vector = [])
    (hschema : store.schemaVersion = embeddingStoreSchemaVersion) {payload : String}
    (hpayload : tools.toStringPretty store = .ok payload)
    (hfile : files path.fileName = some (.bytes (utf8 payload))) : Reads tools path files store := by
  have hfound : (isFile path.fileName : Files ι Bool).run.exec files = ⟨files, [], .ok true⟩ := by
    rw [exec_isFile, hfile]
    rfl
  have hread := exec_orFail (exec_readText hfile)
    ("failed to read knowledge embedding store " ++ path.display)
  have hparsed := exec_orFail (exec_fromExcept (tools.fromStr payload) files)
    ("failed to parse knowledge embedding store " ++ path.display)
  have hcoded := hcodec store payload hbare hpayload
  rw [hcoded] at hparsed
  have hknown : knownSchemaVersion store.schemaVersion = true := by
    rw [hschema]
    rfl
  rw [Reads, loadEmbeddingStore, exec_run_bind_of_ok hfound, if_pos rfl, exec_run_bind_of_ok hread,
    hcoded, exec_run_bind_of_ok hparsed, if_pos hknown]
  rfl

theorem reads_unique {path : FilePath} {store store' : KnowledgeEmbeddingStore}
    (h : Reads tools path files store) (h' : Reads tools path files store') : store = store' :=
  Except.ok.inj (h.symm.trans h')

end Rows

section FullSaves

variable {G : String → String → List F32 → Prop} {path : FilePath}
  {store : KnowledgeEmbeddingStore} {nonces : Nonces}

theorem savedDimensions_spec {entries : List KnowledgeEmbeddingEntry} {dimensions : Nat}
    (h : savedDimensions store entries = .ok dimensions) :
    0 < dimensions ∧ store.vectorDimensions = some dimensions ∧
      ∀ entry ∈ entries, entry.vector.length = dimensions := by
  rw [savedDimensions] at h
  cases hstore : store.vectorDimensions.filter (0 < ·) with
  | none =>
      rw [hstore] at h
      cases h
  | some size =>
      rw [hstore] at h
      change (if _ then _ else _) = Except.ok dimensions at h
      rw [Option.filter_eq_some_iff] at hstore
      split at h
      · exact absurd h (by simp)
      · rename_i hall
        have hsize : size = dimensions := Except.ok.inj h
        rw [hsize] at hstore hall
        refine ⟨by simpa using hstore.2, hstore.1, fun entry hentry => ?_⟩
        by_contra hother
        exact hall (List.any_eq_true.mpr ⟨entry, hentry, by simpa using hother⟩)

/-- The files of a new generation are written, if there is something to write. -/
theorem runs_writeGeneration {entries : List KnowledgeEmbeddingEntry}
    {Q : Option String × Option String → Directory ι → Prop}
    (hC : ∀ files', Beside [embeddingVectorFileName tools.sha256 nonces.vectors path store,
      embeddingHnswFileName tools.sha256 nonces.hnsw path store] files files' → C files')
    (hnone : entries = [] → Q (none, none) files)
    (hdone : ∀ files' dimensions, savedDimensions store entries = .ok dimensions →
      Beside [embeddingVectorFileName tools.sha256 nonces.vectors path store,
        embeddingHnswFileName tools.sha256 nonces.hnsw path store] files files' →
      files' (embeddingVectorFileName tools.sha256 nonces.vectors path store) =
        some (.bytes (rowsBytes (entries.map (·.vector)))) →
      files' (embeddingHnswFileName tools.sha256 nonces.hnsw path store) =
        some (.kept (tools.build (entries.map (·.vector)))) →
      Q (some (embeddingVectorFileName tools.sha256 nonces.vectors path store),
        some (embeddingHnswFileName tools.sha256 nonces.hnsw path store)) files') :
    Runs (writeGeneration tools nonces path store entries) files C Q := by
  have hvectorName := endsIn_embeddingVectorFileName tools.sha256 nonces.vectors path store
  have hhnswName := endsIn_embeddingHnswFileName tools.sha256 nonces.hnsw path store
  rw [writeGeneration]
  generalize embeddingVectorFileName tools.sha256 nonces.vectors path store = vectorName at *
  generalize embeddingHnswFileName tools.sha256 nonces.hnsw path store = hnswName at *
  have hstart := beside_refl [vectorName, hnswName] files
  split
  · rename_i hempty
    exact runs_pure (hC files hstart) (hnone (by simpa using hempty))
  · refine runs_seq (runs_fromExcept (hC files hstart) fun dimensions hdimensions => ?_)
    refine runs_seq (runs_writeVectorFile ?_ ?_)
    · exact fun files' hbeside => hC files' (hbeside.mono (List.nil_subset _))
    · intro files₁ hvectors hrows
      have hbeside := hvectors.mono (show [vectorName] ⊆ [vectorName, hnswName] by simp)
      refine ⟨hC files₁ hbeside, runs_seq (runs_writeHnswFile ?_ ?_)⟩
      · intro files' hnext
        exact hC files' (hbeside.trans (hnext.mono (List.nil_subset _)))
      · intro files₂ hnext hkept
        have hall := hbeside.trans
          (hnext.mono (show [hnswName] ⊆ [vectorName, hnswName] by simp))
        refine ⟨hC files₂ hall, runs_pure (hC files₂ hall)
          (hdone files₂ dimensions hdimensions hall ?_ hkept)⟩
        refine (hnext vectorName ?_ (not_isScratch hvectorName (by decide) (by decide))).trans hrows
        rw [List.mem_singleton]
        exact ne_of_endsIn hvectorName hhnswName (by decide)

def Generated (vectorName hnswName : String) (store : KnowledgeEmbeddingStore)
    (entries : List KnowledgeEmbeddingEntry) (names : Option String × Option String)
    (files : Directory ι) : Prop :=
  (entries = [] ∧ names = (none, none)) ∨
    (∃ dimensions, savedDimensions store entries = .ok dimensions) ∧
      names = (some vectorName, some hnswName) ∧
      files vectorName = some (.bytes (rowsBytes (entries.map (·.vector))))

variable {vectorName hnswName : String} {entries : List KnowledgeEmbeddingEntry}
  {names : Option String × Option String}

theorem Generated.of_eq (h : Generated vectorName hnswName store entries names files)
    (hsame : files' vectorName = files vectorName) :
    Generated vectorName hnswName store entries names files' := by
  rw [Generated, hsame]
  exact h

theorem Generated.remove (h : Generated vectorName hnswName store entries names files)
    {name : String} (hdiffers : some name ≠ names.1) :
    Generated vectorName hnswName store entries names (Function.update files name none) := by
  rcases h with hnone | ⟨hdimensions, rfl, hfile⟩
  · exact Or.inl hnone
  · refine Or.inr ⟨hdimensions, rfl, ?_⟩
    have hne : vectorName ≠ name := by
      rintro rfl
      exact hdiffers rfl
    rw [Function.update_of_ne hne, hfile]

theorem inFiles_compactStore (hgenerated : Generated vectorName hnswName store entries names files)
    (hsafe : embeddingVectorFileNameIsSafe vectorName = true) (hgenuine : Genuine G entries) :
    InFiles G files (compactStore store entries names.1 names.2) := by
  constructor
  · intro entry hentry
    obtain ⟨other, -, rfl⟩ := List.mem_map.mp hentry
    rfl
  · intro hsome
    rcases hgenerated with ⟨rfl, -⟩ | ⟨⟨dimensions, hdimensions⟩, rfl, hfile⟩
    · exact absurd rfl hsome
    · obtain ⟨hpos, hstore, hlength⟩ := savedDimensions_spec hdimensions
      refine ⟨vectorName, dimensions, entries.map (·.vector), [], rfl, hsafe, ?_, hpos, hstore, ?_⟩
      · rw [List.append_nil]
        exact hfile
      · have hpairs : (compactStore store entries (some vectorName) (some hnswName)).entries.map
            pairOf = entries.map pairOf := by
          change (entries.map compactEntry).map pairOf = _
          rw [List.map_map]
          rfl
        rw [hpairs]
        exact rowsFor_of_genuine hpos hgenuine hlength

theorem genuine_activeEntries {entries : List KnowledgeEmbeddingEntry} (h : Genuine G entries) :
    Genuine G (activeEntries entries) :=
  fun content hcontent => h content ((List.filter_sublist.map contentOf).subset hcontent)

/-- A full save ends with metadata of the active entries and with their rows. -/
theorem runs_saveEmbeddingStoreOwned (hcodec : RoundTrips tools)
    (hpath : endsIn path.fileName 'n') (hslash : '/' ∉ path.fileName.toList)
    (hgenuine : Genuine G store.entries) {Q : Unit → Directory ι → Prop}
    (hC : ∀ files', Beside [path.fileName,
        embeddingVectorFileName tools.sha256 nonces.vectors path store,
        embeddingHnswFileName tools.sha256 nonces.hnsw path store] files files' →
      (files' path.fileName = files path.fileName ∨ files' path.fileName = none) → C files')
    (hdone : ∀ files' saved, Reads tools path files' saved → InFiles G files' saved →
      saved.entries = (activeEntries store.entries).map compactEntry → C files' ∧ Q () files') :
    Runs (saveEmbeddingStoreOwned tools nonces path store) files C Q := by
  have hvectorName := endsIn_embeddingVectorFileName tools.sha256 nonces.vectors path store
  have hhnswName := endsIn_embeddingHnswFileName tools.sha256 nonces.hnsw path store
  have hsafe : embeddingVectorFileNameIsSafe
      (embeddingVectorFileName tools.sha256 nonces.vectors path store) = true :=
    fileNameIsSafe_generationFileName (c := '2') tools.sha256 hslash (by decide) (by decide)
      (by decide) (by decide)
  have hgeneration := fun (C : Directory ι → Prop) Q =>
    @runs_writeGeneration ι tools files C path store nonces (activeEntries store.entries) Q
  rw [saveEmbeddingStoreOwned]
  generalize embeddingVectorFileName tools.sha256 nonces.vectors path store = vectorName at *
  generalize embeddingHnswFileName tools.sha256 nonces.hnsw path store = hnswName at *
  have hsub : [vectorName, hnswName] ⊆ [path.fileName, vectorName, hnswName] :=
    List.subset_cons_self _ _
  have hother : ∀ {files₁ files₂ : Directory ι}, Beside [vectorName, hnswName] files₁ files₂ →
      files₂ path.fileName = files₁ path.fileName := by
    intro files₁ files₂ hbeside
    refine hbeside path.fileName ?_ (not_isScratch hpath (by decide) (by decide))
    simp [ne_of_endsIn hpath hvectorName (by decide), ne_of_endsIn hpath hhnswName (by decide)]
  refine runs_bind (R := fun names files' => Beside [vectorName, hnswName] files files' ∧
    Generated vectorName hnswName store (activeEntries store.entries) names files') ?_ ?_
  · refine hgeneration _ _ ?_ ?_ ?_
    · exact fun files' hbeside => hC files' (hbeside.mono hsub) (Or.inl (hother hbeside))
    · exact fun hempty => ⟨beside_refl _ files, Or.inl ⟨hempty, rfl⟩⟩
    · exact fun files' dimensions hdimensions hbeside hrows _ =>
        ⟨hbeside, Or.inr ⟨⟨dimensions, hdimensions⟩, rfl, hrows⟩⟩
  · rintro ⟨vectorFile, hnswFile⟩ files₁ ⟨hbeside, hgenerated⟩
    dsimp only
    -- from here on the metadata is the new one and its vector file stays
    have hend : ∀ files' payload,
        tools.toStringPretty (compactStore store (activeEntries store.entries) vectorFile hnswFile) =
          .ok payload → files' path.fileName = some (.bytes (utf8 payload)) →
        Generated vectorName hnswName store (activeEntries store.entries) (vectorFile, hnswFile)
          files' → C files' ∧ Q () files' := by
      intro files' payload hpayload hmetadata hkept
      have hin := inFiles_compactStore hkept hsafe (genuine_activeEntries hgenuine)
      exact hdone files' _ (reads_of_payload hcodec hin.bare rfl hpayload hmetadata) hin rfl
    refine runs_seq (runs_writeCompactEmbeddingStore hpath ?_ ?_)
    · intro files' hnext hmetadata
      rw [hother hbeside] at hmetadata
      refine hC files' ((hbeside.mono hsub).trans (hnext.mono ?_)) hmetadata
      exact List.cons_subset_cons _ (List.nil_subset _)
    · intro files₂ payload hpayload hnext hmetadata
      have hsame : files₂ vectorName = files₁ vectorName := by
        refine hnext vectorName ?_ (not_isScratch hvectorName (by decide) (by decide))
        rw [List.mem_singleton]
        exact ne_of_endsIn hvectorName hpath (by decide)
      have hkept := hgenerated.of_eq hsame
      refine ⟨(hend files₂ payload hpayload hmetadata hkept).1, runs_bind (R := fun _ files' =>
        files' path.fileName = some (.bytes (utf8 payload)) ∧ Generated vectorName hnswName store
          (activeEntries store.entries) (vectorFile, hnswFile) files') ?_ ?_⟩
      · refine runs_removePreviousGeneration (hend files₂ payload hpayload hmetadata hkept).1
          ⟨hmetadata, hkept⟩ ?_
        intro name _ hdiffers hnameSafe
        have hname : endsIn name '2' := endsIn_of_fileNameIsSafe hnameSafe (by rfl)
        have hmetadata' : Function.update files₂ name none path.fileName =
            some (.bytes (utf8 payload)) := by
          rw [Function.update_of_ne (ne_of_endsIn hpath hname (by decide)), hmetadata]
        have hgone := hkept.remove hdiffers
        exact ⟨(hend _ payload hpayload hmetadata' hgone).1, hmetadata', hgone⟩
      · rintro _ files₃ ⟨hmetadata', hkept'⟩
        have hfinal := hend files₃ payload hpayload hmetadata' hkept'
        refine runs_removePreviousGeneration hfinal.1 hfinal.2 ?_
        intro name _ _ hnameSafe
        have hname : endsIn name 'w' := endsIn_of_fileNameIsSafe hnameSafe (by rfl)
        refine hend _ payload hpayload ?_ (hkept'.of_eq ?_)
        · rw [Function.update_of_ne (ne_of_endsIn hpath hname (by decide)), hmetadata']
        · rw [Function.update_of_ne (ne_of_endsIn hvectorName hname (by decide))]

end FullSaves

section Successes

variable {path : FilePath} {store : KnowledgeEmbeddingStore} {nonces : Nonces}
  {entries : List KnowledgeEmbeddingEntry} {payload : String}

theorem returns_writeVectorFile {vectorPath : FilePath}
    (hlength : (rowsBytes (entries.map (·.vector))).length ≤ maxFileLength) :
    Returns (writeVectorFile vectorPath entries : Files ι Unit) files fun _ _ => True := by
  rw [writeVectorFile]
  generalize (vectorPath.withExtension "f32.tmp") = temporaryPath
  refine returns_seq (returns_orFail (returns_writeStep rfl ?_))
  refine returns_seq (returns_orFail (returns_appendBytes (Function.update_self ..) hlength ?_))
  exact returns_orFail (returns_renameFile (Function.update_self ..) trivial)

theorem returns_writeHnswFile {hnswPath : FilePath} :
    Returns (writeHnswFile tools hnswPath entries) files fun _ _ => True := by
  rw [writeHnswFile]
  generalize (hnswPath.withExtension "hnsw.tmp") = temporaryPath
  refine returns_seq (returns_writeStep rfl ?_)
  exact returns_orFail (returns_renameFile (Function.update_self ..) trivial)

theorem returns_writeCompactEmbeddingStore (hpath : endsIn path.fileName 'n')
    (hpayload : tools.toStringPretty store = .ok payload)
    (hlength : (utf8 payload).length ≤ maxFileLength) :
    Returns (writeCompactEmbeddingStore tools path store) files fun _ _ => True := by
  have htemporary : endsIn (path.withExtension "json.tmp").fileName 'p' :=
    getLast?_withExtension path (by decide)
  have hbackup : endsIn (path.withExtension "json.previous").fileName 's' :=
    getLast?_withExtension path (by decide)
  rw [writeCompactEmbeddingStore]
  refine returns_seq (returns_orFail (returns_fromExcept hpayload ?_))
  generalize (path.withExtension "json.tmp") = temporaryPath at htemporary ⊢
  refine returns_seq (returns_orFail (returns_writeFile hlength ?_))
  exact returns_replaceFileWithRollback (Function.update_self ..)
    (ne_of_endsIn htemporary hpath (by decide)) (ne_of_endsIn htemporary hbackup (by decide))
    (ne_of_endsIn hpath hbackup (by decide))

theorem returns_saveEmbeddingStoreOwned (hpath : endsIn path.fileName 'n')
    (hfirst : store.vectorFileName = none ∧ store.hnswIndexFileName = none)
    (hsome : activeEntries store.entries ≠ []) {dimensions : Nat}
    (hdimensions : savedDimensions store (activeEntries store.entries) = .ok dimensions)
    (hrows : (rowsBytes ((activeEntries store.entries).map (·.vector))).length ≤ maxFileLength)
    (hpayload : tools.toStringPretty (compactStore store (activeEntries store.entries)
      (some (embeddingVectorFileName tools.sha256 nonces.vectors path store))
      (some (embeddingHnswFileName tools.sha256 nonces.hnsw path store))) = .ok payload)
    (hlength : (utf8 payload).length ≤ maxFileLength) :
    Returns (saveEmbeddingStoreOwned tools nonces path store) files fun _ _ => True := by
  rw [saveEmbeddingStoreOwned]
  refine returns_bind (R := fun names _ => names =
    (some (embeddingVectorFileName tools.sha256 nonces.vectors path store),
      some (embeddingHnswFileName tools.sha256 nonces.hnsw path store))) ?_ ?_
  · rw [writeGeneration, if_neg (by simpa using hsome)]
    refine returns_seq (returns_fromExcept hdimensions ?_)
    refine returns_bind (returns_writeVectorFile hrows) fun _ _ _ => ?_
    exact returns_bind returns_writeHnswFile fun _ _ _ => returns_pure rfl
  · rintro _ files₁ rfl
    refine returns_bind (returns_writeCompactEmbeddingStore hpath hpayload hlength) fun _ _ _ => ?_
    rw [hfirst.1, hfirst.2]
    exact returns_seq (returns_pure (returns_pure trivial))

end Successes

end HarborBeacon.EmbeddingSaves
