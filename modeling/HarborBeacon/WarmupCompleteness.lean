import HarborBeacon.EmbeddingAppends
import HarborBeacon.ManifestRoundTrip

/-!
The whole warm-up. A warm-up that reports success leaves the entries that it planned, in metadata
that is read back and with rows of the store's dimension, and it planned one entry for every chunk
if and only if no vector was of another dimension than the ones before it.
-/

namespace HarborBeacon.WarmupCompleteness

open Binary32 Chunking EmbeddingAppends EmbeddingFiles EmbeddingSaves EmbeddingShelves
open EmbeddingWarmup FileProgram KnowledgeFiles KnowledgeManifest
open ManifestRoundTrip (lookupText lookupValue lookupValue_eq lookupText_cons_self
  sampleEntry sampleManifest)
open NamedFiles TextEncoding WarmupPlans

variable {ι : Type} {tools : EmbeddingTools ι} {files : Directory ι}
  {G : String → String → List F32 → Prop} {path : FilePath}

section Pairs

variable {entries : List KnowledgeEmbeddingEntry}

theorem activeEntries_bare (entries : List KnowledgeEmbeddingEntry) :
    activeEntries (entries.map bareEntry) = (activeEntries entries).map bareEntry :=
  List.filter_map

theorem activePairs_bare (entries : List KnowledgeEmbeddingEntry) :
    activePairs (entries.map bareEntry) = activePairs entries := by
  rw [activePairs, activeEntries_bare, List.map_map]
  rfl

theorem activePairs_compact (entries : List KnowledgeEmbeddingEntry) :
    activePairs ((activeEntries entries).map compactEntry) = activePairs entries := by
  have hall : activeEntries ((activeEntries entries).map compactEntry) =
      (activeEntries entries).map compactEntry := by
    rw [activeEntries, List.filter_eq_self]
    intro entry hentry
    obtain ⟨other, -, rfl⟩ := List.mem_map.mp hentry
    rfl
  rw [activePairs, hall, List.map_map]
  rfl

theorem activePairs_activeEntries (entries : List KnowledgeEmbeddingEntry) :
    activePairs (activeEntries entries) = activePairs entries := by
  rw [activePairs, activeEntries, activeEntries, List.filter_filter]
  simp only [Bool.and_self]
  rfl

theorem activePairs_eq_of_bare {entries' : List KnowledgeEmbeddingEntry}
    (h : entries.map bareEntry = entries'.map bareEntry) :
    activePairs entries = activePairs entries' := by
  rw [← activePairs_bare entries, h, activePairs_bare]

end Pairs

section Saves

def Leaves (tools : EmbeddingTools ι) (path : FilePath) (G : String → String → List F32 → Prop)
    (pairs : List (String × String)) (files : Directory ι) : Prop :=
  ∃ store, Reads tools path files store ∧ InFiles G files store ∧ activePairs store.entries = pairs

variable {nonces now later : Nonces} {store disk : KnowledgeEmbeddingStore}

theorem runs_save (hcodec : RoundTrips tools) (hpath : endsIn path.fileName 'n')
    (hslash : '/' ∉ path.fileName.toList) (hgenuine : Genuine G store.entries) :
    Runs (saveEmbeddingStoreOwned tools nonces path store) files (fun _ => True)
      fun _ files' => Leaves tools path G (activePairs store.entries) files' := by
  refine runs_saveEmbeddingStoreOwned hcodec hpath hslash hgenuine (fun _ _ _ => trivial) ?_
  intro files' saved hreads hin hentries
  refine ⟨trivial, saved, hreads, hin, ?_⟩
  rw [hentries, activePairs_compact]

theorem runs_compactEmbeddingStore (hcodec : RoundTrips tools) (hpath : endsIn path.fileName 'n')
    (hslash : '/' ∉ path.fileName.toList) (hreads : Reads tools path files store)
    (hsound : Sound G files store) :
    Runs (compactEmbeddingStore tools nonces path) files (fun _ => True)
      fun _ files' => Leaves tools path G (activePairs store.entries) files' := by
  rw [compactEmbeddingStore]
  refine runs_seq (runs_loadEmbeddingStoreWithVectors hreads hsound trivial fun _ hloaded => ?_)
  refine (runs_save hcodec hpath hslash (genuine_activeEntries hloaded.genuine)).mono
    (fun _ h => h) fun _ files' hleaves => ?_
  rw [activePairs_activeEntries, activePairs_eq_of_bare hloaded.bare] at hleaves
  exact hleaves

theorem sound_of_inFiles (hin : InFiles G files store)
    (hnodup : ((activePairs store.entries).map Prod.fst).Nodup) : Sound G files store := by
  refine ⟨?_, fun hsome => ?_, fun _ => hin, fun _ content hcontent hvector => ?_⟩
  · rw [← map_fst_activePairs]
    exact hnodup
  · obtain ⟨_, dimensions, _, _, _, _, _, _, hdimensions, _⟩ := hin.rows hsome
    rw [hdimensions]
    exact Option.some_ne_none dimensions
  · obtain ⟨entry, hentry, rfl⟩ := List.mem_map.mp hcontent
    exact absurd (hin.bare entry hentry) hvector

theorem runs_persistWarmup (hcodec : RoundTrips tools) (hpath : endsIn path.fileName 'n')
    (hslash : '/' ∉ path.fileName.toList) {state planned : WarmupState}
    (hplanned : Planned G disk state planned)
    (hdisk : planned.incrementalReady = true → InFiles G files disk ∧ disk.entries ≠ [])
    (originalSchemaVersion : Nat) :
    Runs (persistWarmup tools now later path originalSchemaVersion planned) files (fun _ => True)
      fun _ files' => Leaves tools path G (activePairs planned.store.entries) files' := by
  have hnodup : ((activePairs planned.store.entries).map Prod.fst).Nodup := by
    rw [map_fst_activePairs]
    exact hplanned.nodup
  rw [persistWarmup]
  split
  · rename_i hready
    obtain ⟨hin, hsome⟩ := hdisk hready
    obtain ⟨name, dimensions, vectors, extra, hname, hsafe, hfile, -, hdimensions, hrows⟩ :=
      hin.rows hsome
    refine runs_seq (runs_saveEmbeddingStoreIncremental hcodec hpath hslash
      (hplanned.appending hready) hplanned.files.1 hplanned.genuine hname hsafe ⟨extra, hfile⟩
      hdimensions hrows (fun _ _ _ _ => trivial) fun files' saved hreads hin' hentries => ?_)
    have hpairs : activePairs saved.entries = activePairs planned.store.entries := by
      rw [hentries]
      exact activePairs_bare planned.store.entries
    refine ⟨trivial, ?_⟩
    split
    · rw [← hpairs] at hnodup ⊢
      exact runs_compactEmbeddingStore hcodec hpath hslash hreads (sound_of_inFiles hin' hnodup)
    · exact runs_pure trivial ⟨saved, hreads, hin', hpairs⟩
  · exact runs_save hcodec hpath hslash hplanned.genuine

end Saves

section Starts

variable {earlier loaded : KnowledgeEmbeddingStore} {root : String} {hnswReady : Bool}
  {stats : KnowledgeEmbeddingWarmupStats} {state : WarmupState}

def Available (inFiles : Bool) (entries : List KnowledgeEmbeddingEntry) (key textHash : String) :
    Prop :=
  ∃ entry ∈ activeEntries entries, entry.key = key ∧ entry.textHash = textHash ∧
    hasVector inFiles entry = true

structure Started (G : String → String → List F32 → Prop) (earlier : KnowledgeEmbeddingStore)
    (state : WarmupState) : Prop where
  start : WarmupStart G earlier state
  pairs : activePairs state.store.entries = activePairs earlier.entries
  ready : state.incrementalReady = true →
    hasVectorFile earlier.schemaVersion = true ∧ earlier.entries ≠ []
  clean : state.dirty = false → earlier.schemaVersion = embeddingStoreSchemaVersion
  provider : state.store.providerKey = earlier.providerKey ∧
    state.store.modelEndpointId = earlier.modelEndpointId ∧
    state.store.modelName = earlier.modelName ∧
    state.store.vectorDimensions = earlier.vectorDimensions
  some : state.store.entries ≠ [] → earlier.entries ≠ []
  available : ∀ key textHash,
    Available state.incrementalReady state.store.entries key textHash ↔
      Available (hasVectorFile earlier.schemaVersion) earlier.entries key textHash

theorem available_of_bare {entries entries' : List KnowledgeEmbeddingEntry}
    (h : entries.map bareEntry = entries'.map bareEntry) {inFiles inFiles' : Bool}
    (hvector : ∀ entry ∈ entries', hasVector inFiles' entry = true) {key textHash : String}
    (havailable : Available inFiles entries key textHash) :
    Available inFiles' entries' key textHash := by
  obtain ⟨entry, hentry, hkey, hhash, -⟩ := havailable
  have hmem : bareEntry entry ∈ activeEntries (entries'.map bareEntry) := by
    rw [← h, activeEntries_bare]
    exact List.mem_map_of_mem hentry
  rw [activeEntries_bare] at hmem
  obtain ⟨other, hother, hsame⟩ := List.mem_map.mp hmem
  have hkey' : other.key = entry.key := congrArg (·.key) hsame
  have hhash' : other.textHash = entry.textHash := congrArg (·.textHash) hsame
  exact ⟨other, hother, hkey'.trans hkey, hhash'.trans hhash,
    hvector other (List.mem_filter.mp hother).1⟩

theorem nodup_of_pairs {entries entries' : List KnowledgeEmbeddingEntry}
    (h : activePairs entries = activePairs entries')
    (hnodup : ((activeEntries entries').map (·.key)).Nodup) :
    ((activeEntries entries).map (·.key)).Nodup := by
  rw [← map_fst_activePairs, h, map_fst_activePairs]
  exact hnodup

theorem started_of_loaded (hsound : Sound G files earlier) (hloaded : Loaded G earlier loaded) :
    Started G earlier (startOf root loaded false hnswReady stats) := by
  have hpairs := activePairs_eq_of_bare hloaded.bare
  have hsame := hloaded.same
  have hnot : ¬ (startOf root loaded false hnswReady stats).incrementalReady = true := by
    simp [startOf]
  have hsome : loaded.entries ≠ [] → earlier.entries ≠ [] := by
    intro hloadedSome hempty
    have hbare := hloaded.bare
    rw [hempty, List.map_nil, List.map_eq_nil_iff] at hbare
    exact hloadedSome hbare
  refine ⟨⟨nodup_of_pairs hpairs hsound.nodup, hloaded.genuine, fun hready => absurd hready hnot,
    ⟨?_, ?_, fun hready => absurd hready hnot⟩, rfl⟩, hpairs, fun hready => absurd hready hnot,
    fun hclean => ?_, ⟨?_, ?_, ?_, ?_⟩, hsome, fun key textHash => ?_⟩
  · exact congrArg (·.vectorFileName) hsame
  · exact congrArg (·.hnswIndexFileName) hsame
  · have hschema : loaded.schemaVersion = earlier.schemaVersion := congrArg (·.schemaVersion) hsame
    rw [← hschema]
    have hversion := (Bool.or_eq_false_iff.mp hclean).1
    simpa using hversion
  · exact congrArg (·.providerKey) hsame
  · exact congrArg (·.modelEndpointId) hsame
  · exact congrArg (·.modelName) hsame
  · exact congrArg (·.vectorDimensions) hsame
  · change Available false loaded.entries key textHash ↔ _
    cases hvectors : hasVectorFile earlier.schemaVersion with
    | true =>
        constructor
        · exact available_of_bare hloaded.bare fun _ _ => rfl
        · refine available_of_bare hloaded.bare.symm fun entry hentry => ?_
          simpa [hasVector] using hloaded.vectors hvectors entry hentry
    | false => rw [hloaded.inline hvectors]

theorem started_incremental {vectorFileReady : Bool} (hsound : Sound G files earlier)
    (hready : incrementalReady earlier vectorFileReady hnswReady = true) :
    Started G earlier (startOf root { earlier with
      hnswEntryCount := some (min (earlier.hnswEntryCount.getD earlier.entries.length)
        earlier.entries.length) } true hnswReady stats) := by
  rw [incrementalReady, Bool.and_eq_true, Bool.and_eq_true, Bool.and_eq_true] at hready
  obtain ⟨⟨⟨hentries, -⟩, -⟩, hschema⟩ := hready
  have hsome : earlier.entries ≠ [] := by simpa using hentries
  have hvectors : hasVectorFile earlier.schemaVersion = true := by
    rw [hasVectorFile, hschema]
    rfl
  obtain ⟨hbare, hrows⟩ := hsound.inFiles hvectors
  obtain ⟨_, dimensions, _, _, _, _, _, hpos, hdimensions, _⟩ := hrows hsome
  have hcontents : earlier.entries.map contentOf =
      earlier.entries.map fun entry => (entry.key, entry.textHash, []) := by
    refine List.map_congr_left fun entry hentry => ?_
    rw [contentOf, hbare entry hentry]
  refine ⟨⟨hsound.nodup, ?_, fun _ => ⟨⟨[], ?_, ?_⟩, dimensions, hpos, hdimensions, hdimensions⟩,
    ⟨rfl, rfl, fun _ => rfl⟩, rfl⟩, rfl, fun _ => ⟨hvectors, hsome⟩, fun hclean => ?_,
    ⟨rfl, rfl, rfl, rfl⟩, fun _ => hsome, fun key textHash => ?_⟩
  · intro content hcontent hvector
    obtain ⟨entry, hentry, rfl⟩ := List.mem_map.mp hcontent
    exact absurd (hbare entry hentry) hvector
  · rw [List.append_nil]
    exact hcontents
  · exact fun content hcontent => absurd hcontent List.not_mem_nil
  · have hversion := (Bool.or_eq_false_iff.mp hclean).1
    simpa using hversion
  · rw [hvectors]
    exact Iff.rfl

theorem runs_loadWarmupState (hreads : Reads tools path files earlier)
    (hsound : Sound G files earlier) {Q : WarmupState → Directory ι → Prop}
    (hdegraded : ∀ state, state.stats.degraded = true → Q state files)
    (hstarted : ∀ state, Started G earlier state → Q state files) :
    Runs (loadWarmupState tools path root earlier stats) files (fun _ => True) Q := by
  have hready : ∀ result : Except String FilePath,
      Runs (fileReady result : Files ι Bool) files (fun _ => True) fun _ files' =>
        files' = files := by
    rintro (_ | found)
    · exact runs_pure trivial rfl
    · exact runs_isFile trivial rfl
  rw [loadWarmupState]
  refine runs_bind (hready (embeddingVectorPath path earlier)) fun vectorFileReady files₁ hfiles₁ => ?_
  rw [hfiles₁]
  refine runs_bind (hready (embeddingHnswPath path earlier)) fun hnswReady files₂ hfiles₂ => ?_
  rw [hfiles₂]
  dsimp only
  split
  · rename_i hincremental
    exact runs_pure trivial (hstarted _ (started_incremental hsound hincremental))
  · split
    · rename_i hempty
      have hnone : earlier.entries = [] := by simpa using hempty
      refine runs_pure trivial (hstarted _ (started_of_loaded hsound ⟨rfl, rfl, ?_, ?_, fun _ => rfl⟩))
      · rw [hnone]
        exact fun content hcontent => absurd hcontent List.not_mem_nil
      · rw [hnone]
        exact fun _ _ hmem => absurd hmem List.not_mem_nil
    · have hload : Safely (loadEmbeddingStoreWithVectors tools path).run files (· = files)
          fun result _ => ∀ loaded, result = .ok loaded → Loaded G earlier loaded :=
        runs_loadEmbeddingStoreWithVectors hreads hsound rfl fun _ hloaded => hloaded
      refine runs_bind (runs_lift (hload.last.mono (fun _ _ => trivial) fun _ _ h => h)) ?_
      rintro (error | loaded) files₃ ⟨hloaded, hfiles₃⟩
      · rw [hfiles₃]
        exact runs_pure trivial (hdegraded _ rfl)
      · rw [hfiles₃]
        exact runs_pure trivial (hstarted _ (started_of_loaded hsound (hloaded loaded rfl)))

end Starts

section Descents

variable {sha256 : List UInt8 → List UInt8} {service : EmbeddingService}
  {state state' planned : WarmupState} {chunk : String × KnowledgeIndexChunk}
  {manifest : KnowledgeIndexManifest}

structure Descends (state state' : WarmupState) : Prop where
  degraded : state.stats.degraded = true → state'.stats.degraded = true
  ready : state'.incrementalReady = true → state.incrementalReady = true

theorem Descends.trans {first second third : WarmupState} (h : Descends first second)
    (h' : Descends second third) : Descends first third :=
  ⟨fun hdegraded => h'.degraded (h.degraded hdegraded), fun hready => h.ready (h'.ready hready)⟩

theorem descends_of_eq (hstats : state'.stats = state.stats)
    (hready : state'.incrementalReady = state.incrementalReady) : Descends state state' :=
  ⟨fun hdegraded => by rw [hstats, hdegraded], fun hok => hready.symm.trans hok⟩

theorem descends_takeExecution (state : WarmupState) (key path chunkId textHash : String)
    (execution : EmbeddingExecution) :
    Descends state (state.takeExecution key path chunkId textHash execution) := by
  by_cases hsucceeded : execution.succeeded = true
  · obtain ⟨-, hstats, -, -, hready⟩ := rest_withDimensions state execution
    have hrest := rest_putEntry (state.withDimensions execution)
      (answeredEntry key path chunkId textHash execution)
    rw [takeExecution_of_succeeded hsucceeded]
    constructor
    · intro hdegraded
      change ((state.withDimensions execution).putEntry
        (answeredEntry key path chunkId textHash execution)).stats.degraded = true
      rw [hrest]
      exact (congrArg (·.degraded) hstats).trans hdegraded
    · intro hok
      exact (hready ((incrementalReady_putEntry _ _).symm.trans hok)).1
  · refine ⟨fun _ => degraded_takeExecution_of_failed hsucceeded state, ?_⟩
    rw [WarmupState.takeExecution, if_neg hsucceeded]
    exact fun hok => hok

theorem descends_warmChunk (h : warmChunk sha256 service state chunk = some state') :
    Descends state state' := by
  by_cases htext : embeddedText chunk.2 = ""
  · rw [warmChunk, if_pos htext, Option.some.injEq] at h
    exact descends_of_eq (h ▸ rfl) (h ▸ rfl)
  · rcases warmChunk_cases h htext with ⟨-, stats, hstats, rfl⟩ | ⟨-, looks, rfl⟩
    · exact ⟨fun hdegraded => hstats.trans hdegraded, fun hok => hok⟩
    · obtain ⟨hdegraded, hready⟩ := descends_takeExecution
        { WarmupState.countChunk state (keyOf chunk) with looks := looks } (keyOf chunk) chunk.1
        chunk.2.chunkId (hashOf sha256 chunk) (answerTo service chunk)
      exact ⟨hdegraded, hready⟩

theorem descends_foldlM {chunks : List (String × KnowledgeIndexChunk)}
    (h : chunks.foldlM (warmChunk sha256 service) state = some state') :
    Descends state state' := by
  induction chunks generalizing state with
  | nil =>
      have hsame := Option.some.inj h
      exact descends_of_eq (hsame ▸ rfl) (hsame ▸ rfl)
  | cons chunk rest ih =>
      rw [List.foldlM_cons, Option.bind_eq_bind, Option.bind_eq_some_iff] at h
      obtain ⟨next, hstep, hrest⟩ := h
      exact (descends_warmChunk hstep).trans (ih hrest)

theorem descends_applyProbe (execution : EmbeddingExecution) (state : WarmupState) :
    Descends state (applyProbe execution state) := by
  have hstats := (rest_applyProbe execution state).2.1
  refine ⟨fun hdegraded => by rw [hstats, hdegraded], fun hok => ?_⟩
  rcases applyProbe_cases execution state with
    ⟨-, hsame⟩ | ⟨-, -, ⟨-, -, -, hready, -⟩ | ⟨-, -, hready, -⟩⟩
  · rw [hsame] at hok
    exact hok
  · exact hready.symm.trans hok
  · exact absurd (hready.symm.trans hok) (by decide)

theorem descends_planWarmup (h : planWarmup sha256 service manifest state = some planned) :
    Descends state planned := by
  obtain ⟨probed, warmed, hprobe, hwarm, rfl⟩ := planWarmup_cases h
  have hnamed : Descends state (takeIdentity service state) := by
    rcases takeIdentity_cases service state with hsame | ⟨-, _, _, _, hsame⟩ <;>
      exact descends_of_eq (by rw [hsame]) (by rw [hsame])
  have hprobed : Descends (takeIdentity service state) probed := by
    rcases probeService_cases hprobe with ⟨-, rfl⟩ | ⟨-, first, -, looks, rfl⟩
    · exact descends_of_eq rfl rfl
    · obtain ⟨hdegraded, hready⟩ := descends_applyProbe (answerTo service first)
        { takeIdentity service state with looks := looks }
      exact ⟨hdegraded, hready⟩
  have hindexed : Descends probed (indexedState probed) := descends_of_eq rfl rfl
  obtain ⟨hready, hstats, -⟩ := rest_dropInactive warmed
  exact ((hnamed.trans hprobed).trans (hindexed.trans (descends_foldlM hwarm))).trans
    (descends_of_eq hstats hready)

end Descents

section Conditions

variable {sha256 : List UInt8 → List UInt8} {service : EmbeddingService} {state : WarmupState}
  {earlier : KnowledgeEmbeddingStore} {chunks : List (String × KnowledgeIndexChunk)}

theorem Started.storeKept_iff (h : Started G earlier state) :
    StoreKept service state.store chunks ↔ StoreKept service earlier chunks := by
  obtain ⟨hprovider, hendpoint, hmodel, hdimensions⟩ := h.provider
  have hmatches : ∀ execution, executionMatchesStore state.store execution =
      executionMatchesStore earlier execution := by
    intro execution
    rw [executionMatchesStore, hprovider, hendpoint, hmodel, hdimensions, executionMatchesStore]
  rw [StoreKept, StoreKept]
  simp only [hmatches]

theorem Started.oneDimension_iff (h : Started G earlier state) :
    OneDimension sha256 service state.incrementalReady state.store chunks ↔
      OneDimension sha256 service (hasVectorFile earlier.schemaVersion) earlier chunks := by
  have hreusable : ∀ chunk,
      (Reusable sha256 service state.incrementalReady state.store chunks chunk ↔
        Reusable sha256 service (hasVectorFile earlier.schemaVersion) earlier chunks chunk) :=
    fun chunk => and_congr h.storeKept_iff (h.available (keyOf chunk) (hashOf sha256 chunk))
  have hdimension : firstDimension service state.store chunks =
      firstDimension service earlier chunks := by
    rw [firstDimension, firstDimension, h.provider.2.2.2]
  constructor
  · rintro ⟨hkeys, hsizes⟩
    refine ⟨hkeys, fun chunk hchunk hlacks => ?_⟩
    rw [← hdimension]
    exact hsizes chunk hchunk (mt (hreusable chunk).mp hlacks)
  · rintro ⟨hkeys, hsizes⟩
    refine ⟨hkeys, fun chunk hchunk hlacks => ?_⟩
    rw [hdimension]
    exact hsizes chunk hchunk (mt (hreusable chunk).mpr hlacks)

end Conditions

section Warmups

variable {service : EmbeddingService} {manifest : KnowledgeIndexManifest} {now later : Nonces}
  {earlier : KnowledgeEmbeddingStore} {root : String}

theorem runs_finishWarmup_of_degraded {planned : WarmupState}
    (hdegraded : planned.stats.degraded = true) (originalSchemaVersion : Nat) :
    Runs (finishWarmup tools now later path originalSchemaVersion planned) files (fun _ => True)
      fun stats _ => stats.degraded = true := by
  rw [finishWarmup]
  split
  · have hpersist : Safely (persistWarmup tools now later path originalSchemaVersion planned).run
        files (fun _ => True) fun _ _ => True :=
      ⟨fun _ _ => trivial, trivial⟩
    refine runs_bind (runs_lift hpersist) ?_
    rintro (error | _) files₁ -
    · exact runs_pure trivial rfl
    · exact runs_pure trivial hdegraded
  · exact runs_pure trivial hdegraded

theorem runs_finishWarmup (hcodec : RoundTrips tools) (hpath : endsIn path.fileName 'n')
    (hslash : '/' ∉ path.fileName.toList) (hreads : Reads tools path files earlier)
    (hsound : Sound G files earlier) {state planned : WarmupState} (hstarted : Started G earlier state)
    (hplanned : Planned G earlier state planned)
    (hready : planned.incrementalReady = true → state.incrementalReady = true) :
    Runs (finishWarmup tools now later path earlier.schemaVersion planned) files (fun _ => True)
      fun stats files' => stats.degraded = false →
        planned.stats.degraded = false ∧
          Leaves tools path G (activePairs planned.store.entries) files' := by
  rw [finishWarmup]
  split
  · have hdisk : planned.incrementalReady = true →
        InFiles G files earlier ∧ earlier.entries ≠ [] := by
      intro hok
      obtain ⟨hvectors, hsome⟩ := hstarted.ready (hready hok)
      exact ⟨hsound.inFiles hvectors, hsome⟩
    have hpersist := @runs_persistWarmup ι tools files G path now later earlier hcodec hpath hslash
      state planned hplanned hdisk earlier.schemaVersion
    refine runs_bind (runs_lift hpersist) ?_
    rintro (error | _) files₁ hleaves
    · exact runs_pure trivial fun hok => absurd (show true = false from hok) (by decide)
    · exact runs_pure trivial fun hok => ⟨hok, hleaves () rfl⟩
  · rename_i hclean
    obtain ⟨hstartClean, hentries, -⟩ := hplanned.unsaved (by simpa using hclean)
    have hschema := hstarted.clean hstartClean
    refine runs_pure trivial fun hok => ⟨hok, earlier, hreads, hsound.inFiles ?_, ?_⟩
    · rw [hschema]
      rfl
    · rw [hentries, hstarted.pairs]

/-- The active entries of the store in the files are those of the chunks, one for each: they have
its key and the hash of its text, and vectors of the store's dimension. -/
def Complete (tools : EmbeddingTools ι) (path : FilePath)
    (chunks : List (String × KnowledgeIndexChunk)) (files : Directory ι) : Prop :=
  ∃ pairs, Leaves tools path (fun _ _ _ => True) pairs files ∧
    pairs.Perm (chunkPairs tools.sha256 chunks)

theorem complete_iff_of_leaves {pairs : List (String × String)}
    {chunks : List (String × KnowledgeIndexChunk)}
    (h : Leaves tools path (fun _ _ _ => True) pairs files) :
    Complete tools path chunks files ↔ pairs.Perm (chunkPairs tools.sha256 chunks) := by
  constructor
  · rintro ⟨pairs', ⟨store', hreads', -, rfl⟩, hperm⟩
    obtain ⟨store, hreads, -, rfl⟩ := h
    rw [reads_unique hreads hreads']
    exact hperm
  · exact fun hperm => ⟨pairs, h, hperm⟩

/-- A warm-up that reports success. -/
theorem runs_warmEmbeddingCacheInner (hcodec : RoundTrips tools) (hpath : endsIn path.fileName 'n')
    (hslash : '/' ∉ path.fileName.toList) (hreads : Reads tools path files earlier)
    (hsound : Sound (fun _ _ _ => True) files earlier) :
    Runs (warmEmbeddingCacheInner tools service now later path root manifest) files (fun _ => True)
      fun stats files' => stats.degraded = false →
        (Complete tools path (embeddedChunks (manifestChunks manifest)) files' ↔
          OneDimension tools.sha256 service (hasVectorFile earlier.schemaVersion) earlier
            (embeddedChunks (manifestChunks manifest))) := by
  rw [warmEmbeddingCacheInner]
  dsimp only
  split
  · exact runs_pure trivial fun hok => absurd (show true = false from hok) (by decide)
  · have hload := safely_of_readOnly (C := fun _ => True)
      (@readOnly_loadEmbeddingStore ι tools files path) trivial
    refine runs_seq (runs_bind (runs_lift hload) ?_)
    rintro result files₁ ⟨hfiles₁, hresult⟩
    rw [hfiles₁, hresult.trans hreads]
    refine runs_pure trivial (runs_bind (runs_loadWarmupState (Q := fun state files' =>
      files' = files ∧ (state.stats.degraded = true ∨ Started (fun _ _ _ => True) earlier state))
        hreads hsound (fun state hdegraded => ⟨rfl, Or.inl hdegraded⟩)
        (fun state hstarted => ⟨rfl, Or.inr hstarted⟩)) ?_)
    rintro state files₂ ⟨hfiles₂, hstate⟩
    rw [hfiles₂]
    split
    · exact runs_pure trivial fun hok => absurd (show true = false from hok) (by decide)
    · rename_i planned hplan
      obtain ⟨hdegraded, hready⟩ := descends_planWarmup hplan
      rcases hstate with hfailed | hstarted
      · refine (runs_finishWarmup_of_degraded (hdegraded hfailed) _).mono (fun _ h => h) ?_
        exact fun stats _ hstats hok => absurd (hok.symm.trans hstats) (by decide)
      · have hanswers : Answers tools.sha256 service fun _ _ _ => True := fun _ _ => trivial
        have hplanned := planned_of_planWarmup hstarted.start hanswers hplan
        have hdimensions : state.store.entries ≠ [] → state.store.vectorDimensions ≠ none := by
          intro hsome
          rw [hstarted.provider.2.2.2]
          exact hsound.dimensions (hstarted.some hsome)
        refine (runs_finishWarmup hcodec hpath hslash hreads hsound hstarted hplanned
          hready).mono (fun _ h => h) ?_
        intro stats files' hdone hok
        obtain ⟨hsuccess, hleaves⟩ := hdone hok
        rw [complete_iff_of_leaves hleaves,
          perm_planWarmup_iff hstarted.start hanswers hdimensions hplan hsuccess,
          hstarted.oneDimension_iff]

end Warmups

section FirstWarmups

variable {service : EmbeddingService} {manifest : KnowledgeIndexManifest} {now later : Nonces}
  {root : String}

theorem exec_loadEmbeddingStore_of_none (h : files path.fileName = none) :
    (loadEmbeddingStore tools path).run.exec files =
      ⟨files, [], .ok (emptyEmbeddingStore "")⟩ := by
  have hmissing : (isFile path.fileName : Files ι Bool).run.exec files = ⟨files, [], .ok false⟩ := by
    rw [exec_isFile, h]
    rfl
  rw [loadEmbeddingStore, exec_run_bind_of_ok hmissing, if_neg (by decide)]
  rfl

theorem reads_of_none (h : files path.fileName = none) :
    Reads tools path files (emptyEmbeddingStore "") := by
  rw [Reads, exec_loadEmbeddingStore_of_none h]

theorem sound_emptyEmbeddingStore (files : Directory ι) :
    Sound G files (emptyEmbeddingStore "") :=
  ⟨List.nodup_nil, fun h => absurd rfl h,
    fun _ => ⟨fun _ h => absurd h List.not_mem_nil, fun h => absurd rfl h⟩,
    fun _ _ h => absurd h List.not_mem_nil⟩

/-- The first warm-up, whose plan is saved. -/
theorem returns_warmEmbeddingCacheInner (hnone : files path.fileName = none)
    (hexpired : service.expired 0 = false) {planned : WarmupState}
    (hplan : planWarmup tools.sha256 service manifest
      (startOf root (emptyEmbeddingStore "") false false {}) = some planned)
    (hdirty : planned.dirty = true) (hready : planned.incrementalReady = false)
    (hsave : Returns (saveEmbeddingStoreOwned tools now path planned.store) files
      fun _ _ => True) :
    Returns (warmEmbeddingCacheInner tools service now later path root manifest) files
      fun stats _ => stats = planned.stats := by
  have hlift : ∀ {α : Type} {p : FileProgram (Directory ι) Empty α} {a : α}
      {files₁ files₂ : Directory ι}, p.exec files₁ = ⟨files₂, [], a⟩ →
        Returns (ExceptT.lift p) files₁ fun b files' => b = a ∧ files' = files₂ :=
    fun hexec => ⟨_, _, exec_run_lift hexec, rfl, rfl⟩
  rw [warmEmbeddingCacheInner]
  dsimp only
  rw [if_neg (by simp [hexpired])]
  refine returns_seq (returns_bind (hlift (exec_loadEmbeddingStore_of_none hnone)) ?_)
  rintro _ files₀ ⟨rfl, hfiles₀⟩
  rw [hfiles₀]
  have hstart : Returns (loadWarmupState tools path root (emptyEmbeddingStore "") {}) files
      fun state files' => state = startOf root (emptyEmbeddingStore "") false false {} ∧
        files' = files :=
    returns_seq (returns_pure (returns_seq (returns_pure (returns_pure ⟨rfl, rfl⟩))))
  refine returns_pure (returns_bind hstart ?_)
  rintro _ files₁ ⟨rfl, hfiles₁⟩
  rw [hfiles₁, hplan]
  dsimp only
  obtain ⟨_, files₂, hexec, -⟩ := hsave
  have hpersist : (persistWarmup tools now later path (emptyEmbeddingStore "").schemaVersion
      planned).run.exec files = ⟨files₂, [], .ok ()⟩ := by
    rw [persistWarmup, if_neg (by simp [hready])]
    exact hexec
  rw [finishWarmup, if_pos hdirty]
  refine returns_bind (hlift hpersist) ?_
  rintro _ files₃ ⟨rfl, -⟩
  exact returns_pure rfl

end FirstWarmups

def sampleDigests : List (String × List UInt8) :=
  [("/srv/knowledge",
      [122, 112, 18, 34, 176, 101, 17, 184, 175, 168, 195, 16, 189, 21, 146, 31,
        14, 33, 184, 14, 80, 89, 117, 9, 127, 50, 117, 211, 136, 239, 54, 39]),
    ("Alpha notes.",
      [84, 150, 191, 233, 161, 66, 251, 113, 144, 104, 149, 59, 124, 17, 162, 147,
        234, 85, 22, 147, 247, 198, 118, 197, 114, 114, 221, 225, 60, 240, 177, 141]),
    ("Beta notes.",
      [162, 28, 91, 200, 156, 232, 131, 121, 158, 178, 247, 25, 200, 223, 125, 87,
        141, 147, 67, 24, 80, 114, 104, 96, 109, 250, 82, 169, 231, 74, 113, 203]),
    ("/srv/knowledge::1750000000123456789",
      [34, 213, 14, 142, 90, 194, 181, 144, 225, 103, 146, 125, 188, 202, 45, 8,
        188, 224, 181, 167, 232, 87, 83, 210, 118, 228, 96, 11, 47, 234, 9, 171]),
    ("/srv/knowledge::hnsw::1750000000123456890",
      [96, 251, 74, 146, 176, 79, 202, 223, 90, 242, 17, 193, 37, 203, 16, 97,
        234, 123, 201, 48, 173, 130, 42, 172, 155, 41, 136, 3, 21, 24, 204, 116])]

def sampleSha256 (bytes : List UInt8) : List UInt8 :=
  ((sampleDigests.find? fun digest => utf8 digest.1 = bytes).map (·.2)).getD []

def sampleNonces : Nonces where
  vectors := 1750000000123456789
  hnsw := 1750000000123456890

def sampleService (dimensions : String → Nat) : EmbeddingService where
  runEmbedding text :=
    { available := true
      summary := "Embedding request completed."
      providerKey := "openai_compatible"
      modelEndpointId := some "embed-local-openai-compatible"
      modelName := some "bge-small"
      vector := List.replicate (dimensions text) { bits := 0x3f800000 } }
  identity := none
  timeoutMillis := 0
  expired _ := false
  stays_expired _ h := h

def sampleNotes : KnowledgeIndexManifest :=
  { sampleManifest with
    supportedFileCount := some 2
    entries :=
      [sampleEntry,
        { sampleEntry with
          path := "/srv/knowledge/beta.md"
          title := "beta"
          searchableText := "Beta notes." }] }

def samplePath : FilePath :=
  embeddingStorePathForRoot sampleSha256 "/var/lib/harborbeacon/knowledge-index" "/srv/knowledge"

def noteEntry (name textHash : String) (dimensions : Nat) : KnowledgeEmbeddingEntry where
  key := "/srv/knowledge/" ++ name ++ ".md::chunk-0001"
  path := "/srv/knowledge/" ++ name ++ ".md"
  chunkId := some "chunk-0001"
  textHash := textHash
  superseded := false
  vector := List.replicate dimensions { bits := 0x3f800000 }

def alphaHash : String := "5496bfe9a142fb719068953b7c11a293ea551693f7c676c57272dde13cf0b18d"

def betaHash : String := "a21c5bc89ce883799eb2f719c8df7d578d934318507268606dfa52a9e74a71cb"

def plannedStore (dimensions : Nat) (entries : List KnowledgeEmbeddingEntry) :
    KnowledgeEmbeddingStore :=
  { emptyEmbeddingStore "/srv/knowledge" with
    providerKey := some "openai_compatible"
    modelEndpointId := some "embed-local-openai-compatible"
    modelName := some "bge-small"
    vectorDimensions := some dimensions
    entries := entries }

def noteEntryText (name textHash : String) : String :=
  "    \x7b\n      \"key\": \"/srv/knowledge/" ++ name ++ ".md::chunk-0001\",\n" ++
  "      \"path\": \"/srv/knowledge/" ++ name ++ ".md\",\n" ++
  "      \"chunk_id\": \"chunk-0001\",\n      \"text_hash\": \"" ++ textHash ++ "\",\n" ++
  "      \"superseded\": false,\n      \"vector\": []\n    \x7d"

def savedStoreText (dimensions count entries : String) : String :=
  "\x7b\n  \"schema_version\": 6,\n  \"root\": \"/srv/knowledge\",\n" ++
  "  \"provider_key\": \"openai_compatible\",\n" ++
  "  \"model_endpoint_id\": \"embed-local-openai-compatible\",\n" ++
  "  \"model_name\": \"bge-small\",\n  \"vector_dimensions\": " ++ dimensions ++ ",\n" ++
  "  \"vector_file_name\": " ++
  "\"7a701222b06511b8afa8c310bd15921f0e21b80e505975097f3275d388ef3627" ++
  ".embeddings.vectors-v4-22d50e8e5ac2b590.f32\",\n  \"hnsw_index_file_name\": " ++
  "\"7a701222b06511b8afa8c310bd15921f0e21b80e505975097f3275d388ef3627" ++
  ".embeddings.vectors-v5-60fb4a92b04fcadf.hnsw\",\n  \"hnsw_entry_count\": " ++ count ++ ",\n" ++
  "  \"entries\": [\n" ++ entries ++ "\n  ]\n\x7d"

def savedStore (store : KnowledgeEmbeddingStore) : KnowledgeEmbeddingStore :=
  compactStore store (activeEntries store.entries)
    (some (embeddingVectorFileName sampleSha256 sampleNonces.vectors samplePath store))
    (some (embeddingHnswFileName sampleSha256 sampleNonces.hnsw samplePath store))

def sampleTools (store : KnowledgeEmbeddingStore) (text : String) :
    EmbeddingTools (List (List F32)) where
  toStringPretty := lookupText [(savedStore store, text)]
  fromStr := lookupValue [(savedStore store, text)]
  sha256 := sampleSha256
  build vectors := vectors

theorem roundTrips_sampleTools (store : KnowledgeEmbeddingStore) (text : String) :
    RoundTrips (sampleTools store text) := by
  have hnodup : ([(savedStore store, text)].map Prod.snd).Nodup := List.nodup_singleton text
  exact fun _ _ _ h => lookupValue_eq hnodup h

def emptyDirectory : Directory (List (List F32)) := fun _ => none

def warmUp (dimensions : String → Nat) (store : KnowledgeEmbeddingStore) (text : String) :
    Files (List (List F32)) KnowledgeEmbeddingWarmupStats :=
  warmEmbeddingCache (sampleTools store text) (sampleService dimensions) sampleNonces sampleNonces
    "/var/lib/harborbeacon/knowledge-index" "/srv/knowledge" sampleNotes

theorem result_warmUp {dimensions : String → Nat} {store : KnowledgeEmbeddingStore} {text : String}
    (hplan : (planWarmup sampleSha256 (sampleService dimensions) sampleNotes
      (startOf "/srv/knowledge" (emptyEmbeddingStore "") false false {})).map
        (fun planned => (planned.store, planned.dirty, planned.incrementalReady, planned.stats)) =
          some (store, true, false, { total := 2, completed := 2 }))
    (hfirst : store.vectorFileName = none ∧ store.hnswIndexFileName = none)
    (hsome : activeEntries store.entries ≠ []) {size : Nat}
    (hsize : savedDimensions store (activeEntries store.entries) = .ok size)
    (hrows : (VectorRows.rowsBytes ((activeEntries store.entries).map (·.vector))).length ≤
      maxFileLength) (hlength : (utf8 text).length ≤ maxFileLength) :
    ((warmUp dimensions store text).run.exec emptyDirectory).result =
      .ok { total := 2, completed := 2 } := by
  obtain ⟨planned, hplanned, hsame⟩ := Option.map_eq_some_iff.mp hplan
  simp only [Prod.mk.injEq] at hsame
  obtain ⟨hstore, hdirty, hready, hstats⟩ := hsame
  have hpath : endsIn samplePath.fileName 'n' := getLast?_append _ (by decide)
  have hsave : Returns (saveEmbeddingStoreOwned (sampleTools store text) sampleNonces samplePath
      planned.store) emptyDirectory fun _ _ => True := by
    rw [hstore]
    exact returns_saveEmbeddingStoreOwned hpath hfirst hsome hsize hrows
      (lookupText_cons_self [] (savedStore store) text) hlength
  have hreturns : Returns (warmEmbeddingCacheInner (sampleTools store text)
      (sampleService dimensions) sampleNonces sampleNonces samplePath "/srv/knowledge" sampleNotes)
      emptyDirectory fun stats _ => stats = planned.stats :=
    returns_warmEmbeddingCacheInner rfl rfl hplanned hdirty hready hsave
  obtain ⟨stats, files, hexec, hsame⟩ := hreturns
  rw [hstats] at hsame
  subst hsame
  exact congrArg Outcome.result hexec

section Completeness

variable {earlier : KnowledgeEmbeddingStore}

theorem endsIn_embeddingStorePath (sha256 : List UInt8 → List UInt8) (indexRoot root : String) :
    endsIn (embeddingStorePathForRoot sha256 indexRoot root).fileName 'n' :=
  getLast?_append _ (by decide)

theorem slash_not_mem_embeddingStorePath (sha256 : List UInt8 → List UInt8)
    (indexRoot root : String) :
    '/' ∉ (embeddingStorePathForRoot sha256 indexRoot root).fileName.toList := by
  change '/' ∉ (rootStorageKey sha256 root ++ ".embeddings.json").toList
  rw [String.toList_append, rootStorageKey, String.toList_ofList, List.mem_append, not_or]
  exact ⟨slash_not_mem_hex _, by decide⟩

/-- Where a warm-up reports success, the store is complete if and only if the chunks have keys of
their own and the service gives vectors of one dimension for those that nothing can be reused
for. -/
theorem warmEmbeddingCache_complete_iff (hcodec : RoundTrips tools) (service : EmbeddingService)
    (now later : Nonces) (indexRoot root : String) (manifest : KnowledgeIndexManifest)
    (files : Directory ι) (earlier : KnowledgeEmbeddingStore)
    (hreads : Reads tools (embeddingStorePathForRoot tools.sha256 indexRoot root) files earlier)
    (hsound : Sound (fun _ _ _ => True) files earlier) (stats : KnowledgeEmbeddingWarmupStats)
    (hrun : ((warmEmbeddingCache tools service now later indexRoot root manifest).run.exec
      files).result = .ok stats) (hok : stats.degraded = false) :
    Complete tools (embeddingStorePathForRoot tools.sha256 indexRoot root)
        (embeddedChunks (manifestChunks manifest))
        ((warmEmbeddingCache tools service now later indexRoot root manifest).run.exec files).file ↔
      OneDimension tools.sha256 service (hasVectorFile earlier.schemaVersion) earlier
        (embeddedChunks (manifestChunks manifest)) := by
  have hruns : Runs (warmEmbeddingCache tools service now later indexRoot root manifest) files _ _ :=
    runs_warmEmbeddingCacheInner hcodec (endsIn_embeddingStorePath _ _ _)
      (slash_not_mem_embeddingStorePath _ _ _) hreads hsound
  exact hruns.2 stats hrun hok

def alikeStore : KnowledgeEmbeddingStore :=
  plannedStore 2 [noteEntry "alpha" alphaHash 2, noteEntry "beta" betaHash 2]

def alikeText : String :=
  savedStoreText "2" "2" (noteEntryText "alpha" alphaHash ++ ",\n" ++ noteEntryText "beta" betaHash)

/-- Two notes with vectors of one dimension. -/
theorem complete_alikeNotes :
    Complete (sampleTools alikeStore alikeText) samplePath
      (embeddedChunks (manifestChunks sampleNotes))
      ((warmUp (fun _ => 2) alikeStore alikeText).run.exec emptyDirectory).file := by
  have hresult : ((warmUp (fun _ => 2) alikeStore alikeText).run.exec emptyDirectory).result =
      .ok { total := 2, completed := 2 } :=
    result_warmUp (by decide) ⟨rfl, rfl⟩ (by decide) rfl (by decide) (by decide +kernel)
  refine (warmEmbeddingCache_complete_iff (roundTrips_sampleTools _ _) (sampleService fun _ => 2)
    sampleNonces sampleNonces "/var/lib/harborbeacon/knowledge-index" "/srv/knowledge" sampleNotes
    emptyDirectory (emptyEmbeddingStore "") (reads_of_none rfl) (sound_emptyEmbeddingStore _) _
    hresult rfl).mpr ⟨by decide, ?_⟩
  have hsizes : ∀ chunk ∈ embeddedChunks (manifestChunks sampleNotes),
      firstDimension (sampleService fun _ => 2) (emptyEmbeddingStore "")
        (embeddedChunks (manifestChunks sampleNotes)) =
          some (answerTo (sampleService fun _ => 2) chunk).vector.length := by
    decide
  exact fun chunk hchunk _ => hsizes chunk hchunk

def mixedDimensions (text : String) : Nat :=
  if text = "Beta notes." then 3 else 2

def mixedStore : KnowledgeEmbeddingStore :=
  plannedStore 3 [noteEntry "beta" betaHash 3]

def mixedText : String :=
  savedStoreText "3" "1" (noteEntryText "beta" betaHash)

/-- The warm-up reports success, but the first note has lost its entry. -/
theorem first_note_lost :
    ((warmUp mixedDimensions mixedStore mixedText).run.exec emptyDirectory).result =
        .ok { total := 2, completed := 2 } ∧
      ¬ Complete (sampleTools mixedStore mixedText) samplePath
        (embeddedChunks (manifestChunks sampleNotes))
        ((warmUp mixedDimensions mixedStore mixedText).run.exec emptyDirectory).file := by
  have hresult : ((warmUp mixedDimensions mixedStore mixedText).run.exec emptyDirectory).result =
      .ok { total := 2, completed := 2 } :=
    result_warmUp (by decide) ⟨rfl, rfl⟩ (by decide) rfl (by decide) (by decide +kernel)
  refine ⟨hresult, ?_⟩
  have hruns : Runs (warmEmbeddingCacheInner (sampleTools mixedStore mixedText)
      (sampleService mixedDimensions) sampleNonces sampleNonces samplePath "/srv/knowledge"
      sampleNotes) emptyDirectory (fun _ => True) _ :=
    runs_warmEmbeddingCacheInner (roundTrips_sampleTools _ _) (endsIn_embeddingStorePath _ _ _)
      (slash_not_mem_embeddingStorePath _ _ _) (reads_of_none rfl) (sound_emptyEmbeddingStore _)
  intro hcomplete
  obtain ⟨-, hsizes⟩ := (hruns.2 _ hresult rfl).mp hcomplete
  obtain ⟨chunk, hchunk, hdimension⟩ : ∃ chunk ∈ embeddedChunks (manifestChunks sampleNotes),
      firstDimension (sampleService mixedDimensions) (emptyEmbeddingStore "")
        (embeddedChunks (manifestChunks sampleNotes)) ≠
          some (answerTo (sampleService mixedDimensions) chunk).vector.length := by
    decide
  apply hdimension
  refine hsizes chunk hchunk ?_
  rintro ⟨-, entry, hentry, -⟩
  exact List.not_mem_nil hentry

end Completeness

end HarborBeacon.WarmupCompleteness
