import HarborBeacon.WarmupCompleteness

/-!
The files of an embedding store after saves, appends and compactions that may have been cut short.
Wherever that happened, the metadata is missing or describes rows that are all there.
-/

namespace HarborBeacon.EmbeddingRecovery

open Binary32 EmbeddingAppends EmbeddingFiles EmbeddingSaves EmbeddingShelves FileProgram
open KnowledgeFiles NamedFiles WarmupCompleteness WarmupPlans

variable {ι : Type} {tools : EmbeddingTools ι} {path : FilePath} {files files' : Directory ι}
  {G : String → String → List F32 → Prop} {nonces : Nonces} {store : KnowledgeEmbeddingStore}

/-- The store that is read has its rows in the files and keys of its own; without metadata it is
empty. -/
def Recoverable (tools : EmbeddingTools ι) (path : FilePath) (G : String → String → List F32 → Prop)
    (files : Directory ι) : Prop :=
  ∃ store, Reads tools path files store ∧ InFiles G files store ∧
    ((activePairs store.entries).map Prod.fst).Nodup

structure Saveable (G : String → String → List F32 → Prop) (store : KnowledgeEmbeddingStore) :
    Prop where
  genuine : Genuine G store.entries
  nodup : ((activePairs store.entries).map Prod.fst).Nodup

/-- No vector file that the metadata names was named at this reading of the clock. -/
def FreshNonce (tools : EmbeddingTools ι) (path : FilePath) (nonce : Nat) (files : Directory ι) :
    Prop :=
  ∀ store other, Reads tools path files store →
    store.vectorFileName ≠ some (embeddingVectorFileName tools.sha256 nonce path other)

/-- The directories after saves, appends and compactions, each of which may be cut short. -/
inductive StoreRun (tools : EmbeddingTools ι) (path : FilePath)
    (G : String → String → List F32 → Prop) : Directory ι → Prop where
  | start {files : Directory ι} (h : files path.fileName = none) : StoreRun tools path G files
  | save {files files' : Directory ι} (h : StoreRun tools path G files) {nonces : Nonces}
      (hfresh : FreshNonce tools path nonces.vectors files) {store : KnowledgeEmbeddingStore}
      (hstore : Saveable G store)
      (hcut : files' ∈ (saveEmbeddingStoreOwned tools nonces path store).run.visits files) :
      StoreRun tools path G files'
  | append {files files' : Directory ι} (h : StoreRun tools path G files) {nonces : Nonces}
      {disk store : KnowledgeEmbeddingStore} (hreads : Reads tools path files disk)
      (hsome : disk.entries ≠ []) (happending : Appending disk store)
      (hname : store.vectorFileName = disk.vectorFileName) (hstore : Saveable G store)
      {originalSchemaVersion : Nat}
      (hcut : files' ∈ (saveEmbeddingStoreIncremental tools nonces path store
        originalSchemaVersion).run.visits files) : StoreRun tools path G files'
  | compact {files files' : Directory ι} (h : StoreRun tools path G files) {nonces : Nonces}
      (hfresh : FreshNonce tools path nonces.vectors files)
      (hcut : files' ∈ (compactEmbeddingStore tools nonces path).run.visits files) :
      StoreRun tools path G files'

theorem recoverable_of_none (h : files path.fileName = none) : Recoverable tools path G files :=
  ⟨_, reads_of_none h, (sound_emptyEmbeddingStore files).inFiles rfl, List.nodup_nil⟩

theorem reads_of_eq (h : Reads tools path files store)
    (hsame : files' path.fileName = files path.fileName) : Reads tools path files' store := by
  refine Eq.trans ?_ h
  rw [loadEmbeddingStore, exec_run_bind_of_ok (exec_isFile files' _),
    exec_run_bind_of_ok (exec_isFile files _), hsame]
  split
  · rw [exec_run_bind, exec_run_bind, readText, exec_orFail (exec_readStep _ files'),
      exec_orFail (exec_readStep _ files), hsame]
    generalize Except.mapError _ _ = text
    rcases text with error | text
    · rfl
    · dsimp only [Outcome.andThenOk]
      rw [exec_run_bind, exec_run_bind, exec_orFail (exec_fromExcept _ files'),
        exec_orFail (exec_fromExcept _ files)]
      generalize Except.mapError _ _ = read
      rcases read with error | read
      · rfl
      · dsimp only [Outcome.andThenOk]
        split <;> rfl
  · rfl

theorem inFiles_of_eq (hin : InFiles G files store)
    (hsame : ∀ name, store.vectorFileName = some name → embeddingVectorFileNameIsSafe name = true →
      files' name = files name) : InFiles G files' store := by
  refine ⟨hin.bare, fun hsome => ?_⟩
  obtain ⟨name, dimensions, vectors, extra, hname, hsafe, hfile, hrows⟩ := hin.rows hsome
  exact ⟨name, dimensions, vectors, extra, hname, hsafe, (hsame name hname hsafe).trans hfile, hrows⟩

section Cuts

variable (hcodec : RoundTrips tools) (hpath : endsIn path.fileName 'n')
  (hslash : '/' ∉ path.fileName.toList) (h : Recoverable tools path G files)

include hcodec hpath hslash h

theorem runs_save_recoverable (hfresh : FreshNonce tools path nonces.vectors files)
    (hstore : Saveable G store) :
    Runs (saveEmbeddingStoreOwned tools nonces path store) files (Recoverable tools path G)
      fun _ _ => True := by
  refine runs_saveEmbeddingStoreOwned hcodec hpath hslash hstore.genuine ?_ ?_
  · rintro files' hbeside (hsame | hnone)
    · obtain ⟨disk, hreads, hin, hnodup⟩ := h
      refine ⟨disk, reads_of_eq hreads hsame, inFiles_of_eq hin fun name hname hsafe => ?_, hnodup⟩
      have hletter : endsIn name '2' := endsIn_of_fileNameIsSafe hsafe (by rfl)
      refine hbeside name ?_ (not_isScratch hletter (by decide) (by decide))
      simp only [List.mem_cons, List.not_mem_nil, or_false, not_or]
      refine ⟨ne_of_endsIn hletter hpath (by decide), ?_,
        ne_of_endsIn hletter (endsIn_embeddingHnswFileName ..) (by decide)⟩
      rintro rfl
      exact hfresh disk store hreads hname
    · exact recoverable_of_none hnone
  · intro files' saved hreads hin hentries
    refine ⟨⟨saved, hreads, hin, ?_⟩, trivial⟩
    rw [hentries, activePairs_compact]
    exact hstore.nodup

theorem runs_append_recoverable {disk : KnowledgeEmbeddingStore} (hreads : Reads tools path files disk)
    (hsome : disk.entries ≠ []) (happending : Appending disk store)
    (hname : store.vectorFileName = disk.vectorFileName) (hstore : Saveable G store)
    (originalSchemaVersion : Nat) :
    Runs (saveEmbeddingStoreIncremental tools nonces path store originalSchemaVersion) files
      (Recoverable tools path G) fun _ _ => True := by
  obtain ⟨found, hfound, hin, hnodup⟩ := h
  obtain rfl := reads_unique hreads hfound
  obtain ⟨name, dimensions, vectors, extra, hcurrent, hsafe, hfile, hpos, hdimensions, hrows⟩ :=
    hin.rows hsome
  refine runs_saveEmbeddingStoreIncremental hcodec hpath hslash happending hname hstore.genuine
    hcurrent hsafe ⟨extra, hfile⟩ hdimensions hrows ?_ ?_
  · rintro files' - (hsame | hnone) ⟨longer, hlonger⟩
    · exact ⟨disk, reads_of_eq hreads hsame, ⟨hin.bare, fun _ => ⟨name, dimensions, vectors, longer,
        hcurrent, hsafe, hlonger, hpos, hdimensions, hrows⟩⟩, hnodup⟩
    · exact recoverable_of_none hnone
  · intro files' saved hreads' hin' hentries
    refine ⟨⟨saved, hreads', hin', ?_⟩, trivial⟩
    rw [hentries]
    exact (congrArg (fun pairs => (pairs.map Prod.fst).Nodup)
      (activePairs_bare store.entries)).mpr hstore.nodup

theorem runs_compact_recoverable (hfresh : FreshNonce tools path nonces.vectors files) :
    Runs (compactEmbeddingStore tools nonces path) files (Recoverable tools path G)
      fun _ _ => True := by
  obtain ⟨disk, hreads, hin, hnodup⟩ := id h
  rw [compactEmbeddingStore]
  refine runs_seq (runs_loadEmbeddingStoreWithVectors hreads (sound_of_inFiles hin hnodup) h
    fun loaded hloaded => ?_)
  refine runs_save_recoverable hcodec hpath hslash h hfresh
    ⟨genuine_activeEntries hloaded.genuine, ?_⟩
  rw [activePairs_activeEntries, activePairs_eq_of_bare hloaded.bare]
  exact hnodup

end Cuts

/-- However the store was saved, appended to and compacted, and wherever that was cut short, what is
read of the files is a store with its rows. -/
theorem recoverable_of_run (hcodec : RoundTrips tools) {sha256 : List UInt8 → List UInt8}
    {indexRoot root : String}
    (hrun : StoreRun tools (embeddingStorePathForRoot sha256 indexRoot root) G files) :
    Recoverable tools (embeddingStorePathForRoot sha256 indexRoot root) G files := by
  have hpath := endsIn_embeddingStorePath sha256 indexRoot root
  have hslash := slash_not_mem_embeddingStorePath sha256 indexRoot root
  induction hrun with
  | start h => exact recoverable_of_none h
  | save _ hfresh hstore hcut ih =>
      exact (runs_save_recoverable hcodec hpath hslash ih hfresh hstore).1 _ hcut
  | append _ hreads hsome happending hname hstore hcut ih =>
      exact (runs_append_recoverable hcodec hpath hslash ih hreads hsome happending hname hstore
        _).1 _ hcut
  | compact _ hfresh hcut ih =>
      exact (runs_compact_recoverable hcodec hpath hslash ih hfresh).1 _ hcut

/-- The first save of two notes. -/
theorem recoverable_of_run_alikeNotes :
    Recoverable (sampleTools alikeStore alikeText) samplePath (fun _ _ vector => vector.length = 2)
      ((saveEmbeddingStoreOwned (sampleTools alikeStore alikeText) sampleNonces samplePath
        alikeStore).run.exec emptyDirectory).file := by
  have hfresh : FreshNonce (sampleTools alikeStore alikeText) samplePath sampleNonces.vectors
      emptyDirectory := by
    intro found _ hfound
    rw [← reads_unique (reads_of_none rfl) hfound]
    exact Option.some_ne_none _ ∘ Eq.symm
  have hgenuine : ∀ content ∈ alikeStore.entries.map contentOf, content.2.2 ≠ [] →
      content.2.2.length = 2 := by decide
  exact recoverable_of_run (roundTrips_sampleTools _ _) ((StoreRun.start rfl).save hfresh
    ⟨hgenuine, by decide⟩ (exec_file_mem_visits _ emptyDirectory))

end HarborBeacon.EmbeddingRecovery
