import HarborBeacon.EmbeddingShelves

/-!
What a warm-up plans. The loop over the chunks puts them on the shelf one after another, and what
the plan leaves depends on the shelf alone: the entries are those of the chunks if and only if every
chunk is on the shelf in the end.
-/

namespace HarborBeacon.WarmupPlans

open Binary32 Chunking EmbeddingFiles EmbeddingShelves EmbeddingWarmup KnowledgeManifest
open SizedShelves

section Loop

def embeddedChunks (chunks : List (String × KnowledgeIndexChunk)) :
    List (String × KnowledgeIndexChunk) :=
  chunks.filter fun chunk => embeddedText chunk.2 ≠ ""

def contentOf (entry : KnowledgeEmbeddingEntry) : String × String × List F32 :=
  (entry.key, entry.textHash, entry.vector)

/-- The entries on disk come first and have their vectors there, and only entries behind them have
vectors at hand. -/
structure Appending (disk store : KnowledgeEmbeddingStore) : Prop where
  contents : ∃ appended, store.entries.map contentOf =
    (disk.entries.map fun entry => (entry.key, entry.textHash, [])) ++ appended ∧
      ∀ content ∈ appended, content.2.2 ≠ []
  dimensions : ∃ dimensions, 0 < dimensions ∧ disk.vectorDimensions = some dimensions ∧
    store.vectorDimensions = some dimensions

/-- Every vector at hand may stand for its text. -/
def Genuine (G : String → String → List F32 → Prop) (entries : List KnowledgeEmbeddingEntry) :
    Prop :=
  ∀ content ∈ entries.map contentOf, content.2.2 ≠ [] → G content.1 content.2.1 content.2.2

variable {sha256 : List UInt8 → List UInt8} {service : EmbeddingService}
  {state state' : WarmupState} {chunk : String × KnowledgeIndexChunk}

def WarmupState.countChunk (state : WarmupState) (key : String) : WarmupState :=
  { state with
    stats := { state.stats with total := state.stats.total + 1 }
    activeKeys := key :: state.activeKeys }

theorem warmChunk_cases (h : warmChunk sha256 service state chunk = some state')
    (htext : embeddedText chunk.2 ≠ "") :
    ((shelfOf state).Holds (chunkLabels sha256 service) chunk ∧ ∃ stats,
        stats.degraded = state.stats.degraded ∧
        state' = { WarmupState.countChunk state (keyOf chunk) with stats := stats }) ∨
      (¬ (shelfOf state).Holds (chunkLabels sha256 service) chunk ∧ ∃ looks,
        state' = { WarmupState.countChunk state (keyOf chunk) with looks := looks }.takeExecution
          (keyOf chunk) chunk.1 chunk.2.chunkId (hashOf sha256 chunk) (answerTo service chunk)) := by
  rw [warmChunk, if_neg htext] at h
  dsimp only at h
  split at h
  · rename_i hskips
    refine Or.inl ⟨skips_iff.mp hskips, _, ?_, (Option.some.inj h).symm⟩
    rfl
  · rename_i hasks
    split at h
    · exact absurd h (by simp)
    · split at h
      · exact absurd h (by simp)
      · rename_i hintime
        have hanswer := run_eq_answer (by simpa using hintime)
        rw [hanswer] at h
        exact Or.inr ⟨fun hholds => hasks (skips_iff.mpr hholds), _, (Option.some.inj h).symm⟩

theorem map_contentOf_modify (entries : List KnowledgeEmbeddingEntry) (index : Nat) :
    (entries.modify index fun existing => { existing with superseded := true }).map contentOf =
      entries.map contentOf := by
  refine List.ext_getElem? fun place => ?_
  rw [List.getElem?_map, List.getElem?_map, List.getElem?_modify]
  cases entries[place]? with
  | none => rfl
  | some entry =>
      change some (contentOf (if index = place then _ else entry)) = some (contentOf entry)
      split <;> rfl

theorem map_contentOf_putEntry (state : WarmupState) (entry : KnowledgeEmbeddingEntry) :
    (state.putEntry entry).store.entries.map contentOf =
        state.store.entries.map contentOf ++ [contentOf entry] ∨
      (state.incrementalReady = false ∧ ∃ index,
        (state.putEntry entry).store.entries.map contentOf =
          (state.store.entries.map contentOf).set index (contentOf entry)) := by
  rcases putEntry_cases state entry with
    ⟨-, hentries, -⟩ | ⟨index, -, -, hentries, -⟩ | ⟨index, -, hready, hentries, -⟩
  · rw [hentries, List.map_append]
    exact Or.inl rfl
  · rw [hentries, List.map_append, map_contentOf_modify]
    exact Or.inl rfl
  · rw [hentries, List.map_set]
    exact Or.inr ⟨hready, index, rfl⟩

/-- What the loop over the chunks keeps, with the chunks that it has done. The shelf counts as long
as no answer failed. -/
structure PlanLoop (sha256 : List UInt8 → List UInt8) (service : EmbeddingService)
    (G : String → String → List F32 → Prop) (disk : KnowledgeEmbeddingStore)
    (start : Shelf String String) (done : List (String × KnowledgeIndexChunk))
    (state : WarmupState) : Prop where
  indexed : Indexed state.entriesByKey state.store.entries
  genuine : Genuine G state.store.entries
  appending : state.incrementalReady = true → Appending disk state.store
  files : state.store.vectorFileName = disk.vectorFileName ∧
    state.store.hnswIndexFileName = disk.hnswIndexFileName ∧
    (state.incrementalReady = true → state.store.hnswEntryCount =
      some (min (disk.hnswEntryCount.getD disk.entries.length) disk.entries.length))
  active : ∀ key, key ∈ state.activeKeys ↔ key ∈ (embeddedChunks done).map keyOf
  usable : state.stats.degraded = false → ∀ key ∈ state.activeKeys, ∀ entry,
    state.existing key = some entry → hasVector state.incrementalReady entry = true
  shelf : state.stats.degraded = false →
    shelfOf state = (embeddedChunks done).foldl (Shelf.add (chunkLabels sha256 service)) start
  answered : state.stats.degraded = false → ∀ first ∈ (embeddedChunks done).head?,
    ¬ start.Holds (chunkLabels sha256 service) first → (answerTo service first).succeeded = true

variable {G : String → String → List F32 → Prop} {disk : KnowledgeEmbeddingStore}
  {start : Shelf String String} {done : List (String × KnowledgeIndexChunk)}
  {entry : KnowledgeEmbeddingEntry} {execution : EmbeddingExecution}

theorem embeddedChunks_concat_of_text (done : List (String × KnowledgeIndexChunk))
    (htext : embeddedText chunk.2 ≠ "") :
    embeddedChunks (done ++ [chunk]) = embeddedChunks done ++ [chunk] := by
  rw [embeddedChunks, List.filter_append, List.filter_cons_of_pos (by simpa using htext)]
  rfl

theorem embeddedChunks_concat_of_blank (done : List (String × KnowledgeIndexChunk))
    (htext : embeddedText chunk.2 = "") :
    embeddedChunks (done ++ [chunk]) = embeddedChunks done := by
  rw [embeddedChunks, List.filter_append, List.filter_cons_of_neg (by simpa using htext)]
  exact List.append_nil _

/-- A chunk that is on the shelf changes only the counts. -/
theorem PlanLoop.skip (h : PlanLoop sha256 service G disk start done state)
    (htext : embeddedText chunk.2 ≠ "")
    (hholds : (shelfOf state).Holds (chunkLabels sha256 service) chunk)
    {stats : KnowledgeEmbeddingWarmupStats} (hstats : stats.degraded = state.stats.degraded) :
    PlanLoop sha256 service G disk start (done ++ [chunk])
      { WarmupState.countChunk state (keyOf chunk) with stats := stats } := by
  have hdone := embeddedChunks_concat_of_text done htext
  refine ⟨h.indexed, h.genuine, h.appending, h.files, ?_, ?_, ?_, ?_⟩
  · intro key
    rw [hdone, List.map_append, List.mem_append, ← h.active]
    change key ∈ keyOf chunk :: state.activeKeys ↔ _
    simp [or_comm]
  · intro hok key hkey entry hentry
    have hnot : state.stats.degraded = false := hstats ▸ hok
    rcases List.mem_cons.mp hkey with rfl | hold
    · have hheld : (shelfOf state).held (keyOf chunk) = some (hashOf sha256 chunk) := hholds
      change ((state.existing (keyOf chunk)).bind _) = _ at hheld
      have hentry' : state.existing (keyOf chunk) = some entry := hentry
      rw [hentry', Option.bind_some] at hheld
      split at hheld
      · rename_i hvector
        exact (Bool.and_eq_true_iff.mp hvector).2
      · exact absurd hheld (by simp)
    · exact h.usable hnot key hold entry hentry
  · intro hok
    have hnot : state.stats.degraded = false := hstats ▸ hok
    have hadd : (shelfOf state).add (chunkLabels sha256 service) chunk = shelfOf state :=
      if_pos hholds
    rw [hdone, List.foldl_append, ← h.shelf hnot]
    exact hadd.symm
  · intro hok first hfirst hlacks
    have hnot : state.stats.degraded = false := hstats ▸ hok
    rw [hdone] at hfirst
    cases hchunks : embeddedChunks done with
    | nil =>
        rw [hchunks] at hfirst
        have hsame : chunk = first := by simpa using hfirst
        have hshelf := h.shelf hnot
        rw [hchunks] at hshelf
        rw [hshelf, hsame] at hholds
        exact absurd hholds hlacks
    | cons other rest =>
        rw [hchunks] at hfirst
        refine h.answered hnot first ?_ hlacks
        rw [hchunks]
        exact hfirst

theorem embeddedChunks_head {first : String × KnowledgeIndexChunk}
    (htext : embeddedText chunk.2 ≠ "") (h : first ∈ (embeddedChunks (done ++ [chunk])).head?) :
    (embeddedChunks done = [] ∧ first = chunk) ∨ first ∈ (embeddedChunks done).head? := by
  rw [embeddedChunks_concat_of_text done htext] at h
  cases hchunks : embeddedChunks done with
  | nil =>
      rw [hchunks] at h
      exact Or.inl ⟨rfl, (by simpa using h : chunk = first).symm⟩
  | cons other rest =>
      rw [hchunks] at h
      exact Or.inr h

theorem Genuine.putEntry (h : Genuine G state.store.entries)
    (hentry : G entry.key entry.textHash entry.vector) :
    Genuine G (state.putEntry entry).store.entries := by
  intro content hcontent hvector
  rcases map_contentOf_putEntry state entry with hmap | ⟨-, index, hmap⟩
  · rw [hmap] at hcontent
    rcases List.mem_append.mp hcontent with hold | hnew
    · exact h content hold hvector
    · rw [List.mem_singleton.mp hnew]
      exact hentry
  · rw [hmap] at hcontent
    rcases List.mem_or_eq_of_mem_set hcontent with hold | hnew
    · exact h content hold hvector
    · rw [hnew]
      exact hentry

theorem Genuine.withDimensions (h : Genuine G state.store.entries)
    (execution : EmbeddingExecution) :
    Genuine G (state.withDimensions execution).store.entries := by
  rcases withDimensions_cases state execution with ⟨-, hentries, -⟩ | ⟨-, hentries, -⟩
  · rw [hentries]
    exact fun content hcontent => absurd hcontent List.not_mem_nil
  · rw [hentries]
    exact h

theorem Appending.putEntry (h : Appending disk state.store) (hvector : entry.vector ≠ [])
    (hready : (state.withDimensions execution).incrementalReady = true) :
    Appending disk ((state.withDimensions execution).putEntry entry).store := by
  rcases withDimensions_cases state execution with ⟨-, -, -, hnot⟩ | ⟨hkept, hentries, -, -⟩
  · rw [hnot] at hready
    exact absurd hready (by decide)
  · rcases map_contentOf_putEntry (state.withDimensions execution) entry with hmap | ⟨hnot, -⟩
    · obtain ⟨appended, hcontents, happended⟩ := h.contents
      obtain ⟨dimensions, hpos, hdisk, hstore⟩ := h.dimensions
      refine ⟨⟨appended ++ [contentOf entry], ?_, ?_⟩, dimensions, hpos, hdisk, ?_⟩
      · rw [hmap, hentries, hcontents, List.append_assoc]
      · intro content hcontent
        rcases List.mem_append.mp hcontent with hold | hnew
        · exact happended content hold
        · rw [List.mem_singleton.mp hnew]
          exact hvector
      · rw [vectorDimensions_putEntry, ← hstore]
        rw [hstore] at hkept ⊢
        have hsame : execution.vector.length = dimensions := by
          by_contra hne
          exact hkept (by simpa using fun h => hne h.symm)
        exact congrArg some hsame
    · rw [hnot] at hready
      exact absurd hready (by decide)

structure SamePlan (state counted : WarmupState) : Prop where
  store : counted.store = state.store
  table : counted.entriesByKey = state.entriesByKey
  ready : counted.incrementalReady = state.incrementalReady
  degraded : counted.stats.degraded = state.stats.degraded

theorem SamePlan.existing {counted : WarmupState} (h : SamePlan state counted) (key : String) :
    counted.existing key = state.existing key := by
  rw [WarmupState.existing, WarmupState.existing, h.table, h.store]

theorem SamePlan.shelfOf {counted : WarmupState} (h : SamePlan state counted) :
    shelfOf counted = shelfOf state := by
  rw [EmbeddingShelves.shelfOf, EmbeddingShelves.shelfOf, h.ready, h.store]
  congr 1
  funext key
  rw [h.existing]

structure Answered (execution : EmbeddingExecution) (entry : KnowledgeEmbeddingEntry)
    (state after : WarmupState) : Prop where
  indexed : Indexed after.entriesByKey after.store.entries
  existing : ∀ key, after.existing key =
    if key = entry.key then some entry else (state.withDimensions execution).existing key
  shelf : shelfOf after =
    { held := Function.update
        (if state.store.vectorDimensions.any (· ≠ execution.vector.length) then fun _ => none
          else (shelfOf state).held) entry.key (some entry.textHash)
      size := some execution.vector.length }
  ready : after.incrementalReady = (state.withDimensions execution).incrementalReady
  active : after.activeKeys = state.activeKeys
  degraded : after.stats.degraded = state.stats.degraded
  vectorFile : after.store.vectorFileName = state.store.vectorFileName
  hnswFile : after.store.hnswIndexFileName = state.store.hnswIndexFileName
  hnswCount : after.incrementalReady = true → state.incrementalReady = true ∧
    after.store.hnswEntryCount = state.store.hnswEntryCount
  genuine : ∀ G, Genuine G state.store.entries → G entry.key entry.textHash entry.vector →
    Genuine G after.store.entries
  appending : ∀ disk, Appending disk state.store → after.incrementalReady = true →
    Appending disk after.store

theorem answered_takeExecution (hindexed : Indexed state.entriesByKey state.store.entries)
    (h : execution.succeeded = true) (key path chunkId textHash : String) :
    Answered execution (answeredEntry key path chunkId textHash execution) state
      (state.takeExecution key path chunkId textHash execution) := by
  have hvector : execution.vector ≠ [] := by simpa using (Bool.and_eq_true_iff.mp h).2
  have hactive : (answeredEntry key path chunkId textHash execution).superseded = false := rfl
  have hwith := indexed_withDimensions hindexed execution
  obtain ⟨hkeys, hstats, hvectorFile, hhnswFile, hkept⟩ := rest_withDimensions state execution
  have hshelf := @shelfOf_takeExecution state key path chunkId textHash execution hindexed h
  have hindexed' := indexed_putEntry hwith hactive
  have hexisting := existing_putEntry hwith hactive
  have hready := incrementalReady_putEntry (state.withDimensions execution)
    (answeredEntry key path chunkId textHash execution)
  have hrest := rest_putEntry (state.withDimensions execution)
    (answeredEntry key path chunkId textHash execution)
  have hstore := store_putEntry (state.withDimensions execution)
    (answeredEntry key path chunkId textHash execution)
  rw [takeExecution_of_succeeded h] at hshelf ⊢
  refine ⟨hindexed', hexisting, hshelf, hready, ?_, ?_, ?_, ?_, ?_, ?_, ?_⟩
  · exact (congrArg WarmupState.activeKeys hrest).trans hkeys
  · exact (congrArg (·.stats.degraded) hrest).trans (congrArg (·.degraded) hstats)
  · exact (congrArg (·.vectorFileName) hstore).trans hvectorFile
  · exact (congrArg (·.hnswIndexFileName) hstore).trans hhnswFile
  · intro hok
    have hok' := hkept (hready.symm.trans hok)
    exact ⟨hok'.1, (congrArg (·.hnswEntryCount) hstore).trans hok'.2⟩
  · exact fun G hgenuine hentry => (hgenuine.withDimensions execution).putEntry hentry
  · exact fun disk happending hok => happending.putEntry hvector (hready.symm.trans hok)

/-- A chunk that the service gives a vector for. -/
theorem PlanLoop.answer (h : PlanLoop sha256 service G disk start done state)
    (htext : embeddedText chunk.2 ≠ "")
    (hlacks : ¬ (shelfOf state).Holds (chunkLabels sha256 service) chunk)
    (hsucceeded : (answerTo service chunk).succeeded = true)
    (hgenuine : G (keyOf chunk) (hashOf sha256 chunk) (answerTo service chunk).vector)
    {counted after : WarmupState} (hcounted : SamePlan state counted)
    (hactive : counted.activeKeys = keyOf chunk :: state.activeKeys)
    (hkey : entry.key = keyOf chunk) (hhash : entry.textHash = hashOf sha256 chunk)
    (hvector : entry.vector = (answerTo service chunk).vector)
    (hafter : Answered (answerTo service chunk) entry counted after) :
    PlanLoop sha256 service G disk start (done ++ [chunk]) after := by
  have hdone := embeddedChunks_concat_of_text done htext
  have hnonempty : entry.vector ≠ [] := by
    rw [hvector]
    simpa using (Bool.and_eq_true_iff.mp hsucceeded).2
  have hdegraded : after.stats.degraded = state.stats.degraded :=
    hafter.degraded.trans hcounted.degraded
  refine ⟨hafter.indexed, ?_, ?_, ?_, ?_, ?_, ?_, ?_⟩
  · refine hafter.genuine G ?_ ?_
    · rw [hcounted.store]
      exact h.genuine
    · rw [hkey, hhash, hvector]
      exact hgenuine
  · intro hready
    have hcountedReady := (hafter.hnswCount hready).1
    refine hafter.appending disk ?_ hready
    rw [hcounted.store]
    exact h.appending (hcounted.ready.symm.trans hcountedReady)
  · obtain ⟨hvectorFile, hhnswFile, hcount⟩ := h.files
    refine ⟨?_, ?_, ?_⟩
    · rw [hafter.vectorFile, hcounted.store, hvectorFile]
    · rw [hafter.hnswFile, hcounted.store, hhnswFile]
    · intro hready
      obtain ⟨hcountedReady, hsame⟩ := hafter.hnswCount hready
      rw [hsame, hcounted.store]
      exact hcount (hcounted.ready.symm.trans hcountedReady)
  · intro key
    rw [hdone, List.map_append, List.mem_append, ← h.active, hafter.active, hactive]
    simp [or_comm]
  · intro hok key hmem found hfound
    rw [hafter.active, hactive, List.mem_cons] at hmem
    rw [hafter.existing] at hfound
    split at hfound
    · rw [← Option.some.inj hfound, hasVector]
      simp [hnonempty]
    · rename_i hother
      rcases withDimensions_cases counted (answerTo service chunk) with
        ⟨-, hentries, htable, -⟩ | ⟨-, hentries, htable, hready⟩
      · rw [WarmupState.existing, htable, AList.lookup_empty] at hfound
        exact absurd hfound (by simp)
      · rw [WarmupState.existing, htable, hentries, ← WarmupState.existing, hcounted.existing]
          at hfound
        rw [hafter.ready, hready, hcounted.ready]
        refine h.usable (hdegraded.symm.trans hok) key ?_ found hfound
        exact hmem.resolve_left fun hsame => hother (hsame.trans hkey.symm)
  · intro hok
    have hadd : (shelfOf state).add (chunkLabels sha256 service) chunk =
        (shelfOf state).put (chunkLabels sha256 service) chunk := if_neg hlacks
    rw [hdone, List.foldl_append, ← h.shelf (hdegraded.symm.trans hok), hafter.shelf, hkey, hhash,
      hcounted.store, hcounted.shelfOf]
    exact hadd.symm
  · intro hok first hfirst hlacksFirst
    rcases embeddedChunks_head htext hfirst with ⟨-, rfl⟩ | hold
    · exact hsucceeded
    · exact h.answered (hdegraded.symm.trans hok) first hold hlacksFirst

theorem PlanLoop.fail (h : PlanLoop sha256 service G disk start done state)
    (htext : embeddedText chunk.2 ≠ "") {after : WarmupState} (hafter : SamePlan state
      { after with stats := { after.stats with degraded := state.stats.degraded } })
    (hactive : after.activeKeys = keyOf chunk :: state.activeKeys)
    (hdegraded : after.stats.degraded = true) :
    PlanLoop sha256 service G disk start (done ++ [chunk]) after := by
  have hdone := embeddedChunks_concat_of_text done htext
  have hstore : after.store = state.store := hafter.store
  have htable : after.entriesByKey = state.entriesByKey := hafter.table
  have hready : after.incrementalReady = state.incrementalReady := hafter.ready
  have hnot : ¬ after.stats.degraded = false := by simp [hdegraded]
  refine ⟨?_, ?_, ?_, ?_, ?_, fun hok => absurd hok hnot, fun hok => absurd hok hnot,
    fun hok => absurd hok hnot⟩
  · rw [hstore, htable]
    exact h.indexed
  · rw [hstore]
    exact h.genuine
  · rw [hstore, hready]
    exact h.appending
  · rw [hstore, hready]
    exact h.files
  · intro key
    rw [hdone, List.map_append, List.mem_append, ← h.active, hactive]
    simp [or_comm]

theorem PlanLoop.blank (h : PlanLoop sha256 service G disk start done state)
    (htext : embeddedText chunk.2 = "") :
    PlanLoop sha256 service G disk start (done ++ [chunk]) state := by
  have hdone := embeddedChunks_concat_of_blank done htext
  refine ⟨h.indexed, h.genuine, h.appending, h.files, ?_, h.usable, ?_, ?_⟩
  · rw [hdone]
    exact h.active
  · rw [hdone]
    exact h.shelf
  · rw [hdone]
    exact h.answered

def Answers (sha256 : List UInt8 → List UInt8) (service : EmbeddingService)
    (G : String → String → List F32 → Prop) : Prop :=
  ∀ chunk, (answerTo service chunk).succeeded = true →
    G (keyOf chunk) (hashOf sha256 chunk) (answerTo service chunk).vector

theorem PlanLoop.step (h : PlanLoop sha256 service G disk start done state)
    (hanswers : Answers sha256 service G)
    (hstep : warmChunk sha256 service state chunk = some state') :
    PlanLoop sha256 service G disk start (done ++ [chunk]) state' := by
  by_cases htext : embeddedText chunk.2 = ""
  · rw [warmChunk, if_pos htext, Option.some.injEq] at hstep
    rw [← hstep]
    exact h.blank htext
  · rcases warmChunk_cases hstep htext with
      ⟨hholds, stats, hstats, rfl⟩ | ⟨hlacks, looks, rfl⟩
    · exact h.skip htext hholds hstats
    · by_cases hsucceeded : (answerTo service chunk).succeeded = true
      · generalize hcounted : { WarmupState.countChunk state (keyOf chunk) with looks := looks } =
          counted
        have hsame : SamePlan state counted := hcounted ▸ ⟨rfl, rfl, rfl, rfl⟩
        have hactive : counted.activeKeys = keyOf chunk :: state.activeKeys := hcounted ▸ rfl
        have hindexed : Indexed counted.entriesByKey counted.store.entries := by
          rw [hsame.table, hsame.store]
          exact h.indexed
        have hanswered := answered_takeExecution hindexed hsucceeded (keyOf chunk) chunk.1
          chunk.2.chunkId (hashOf sha256 chunk)
        exact h.answer htext hlacks hsucceeded (hanswers chunk hsucceeded) hsame hactive rfl rfl rfl
          hanswered
      · refine h.fail htext ?_ ?_ (degraded_takeExecution_of_failed hsucceeded _)
        · rw [WarmupState.takeExecution, if_neg hsucceeded]
          exact ⟨rfl, rfl, rfl, rfl⟩
        · rw [WarmupState.takeExecution, if_neg hsucceeded]
          rfl

theorem PlanLoop.run (h : PlanLoop sha256 service G disk start done state)
    (hanswers : Answers sha256 service G) {chunks : List (String × KnowledgeIndexChunk)}
    (hrun : chunks.foldlM (warmChunk sha256 service) state = some state') :
    PlanLoop sha256 service G disk start (done ++ chunks) state' := by
  induction chunks generalizing state done with
  | nil =>
      rw [List.append_nil, ← Option.some.inj hrun]
      exact h
  | cons chunk rest ih =>
      rw [List.foldlM_cons, Option.bind_eq_bind, Option.bind_eq_some_iff] at hrun
      obtain ⟨next, hstep, hrest⟩ := hrun
      have hnext := ih (h.step hanswers hstep) hrest
      rwa [List.append_assoc] at hnext

end Loop

section Starts

variable {sha256 : List UInt8 → List UInt8} {service : EmbeddingService}
  {state state' : WarmupState} {chunk : String × KnowledgeIndexChunk}
  {manifest : KnowledgeIndexManifest} {G : String → String → List F32 → Prop}
  {disk : KnowledgeEmbeddingStore}

theorem holds_shelfOf_iff (h : Indexed state.entriesByKey state.store.entries) :
    (shelfOf state).Holds (chunkLabels sha256 service) chunk ↔
      ∃ entry ∈ activeEntries state.store.entries, entry.key = keyOf chunk ∧
        entry.textHash = hashOf sha256 chunk ∧ hasVector state.incrementalReady entry = true := by
  change ((state.existing (keyOf chunk)).bind fun entry =>
    if !entry.superseded && hasVector state.incrementalReady entry then some entry.textHash
      else none) = some (hashOf sha256 chunk) ↔ _
  rw [Option.bind_eq_some_iff]
  constructor
  · rintro ⟨entry, hfound, hhash⟩
    obtain ⟨index, hplace, hkey, hactive⟩ := (existing_eq_some_iff h).mp hfound
    split at hhash
    · rename_i hvector
      refine ⟨entry, List.mem_filter.mpr ⟨List.mem_of_getElem? hplace, by simp [hactive]⟩, hkey,
        Option.some.inj hhash, (Bool.and_eq_true_iff.mp hvector).2⟩
    · exact absurd hhash (by simp)
  · rintro ⟨entry, hmem, hkey, hhash, hvector⟩
    obtain ⟨hentry, hactive⟩ := List.mem_filter.mp hmem
    obtain ⟨index, hplace⟩ := List.mem_iff_getElem?.mp hentry
    refine ⟨entry, (existing_eq_some_iff h).mpr ⟨index, hplace, hkey, by simpa using hactive⟩, ?_⟩
    rw [if_pos (Bool.and_eq_true_iff.mpr ⟨hactive, hvector⟩), hhash]

structure WarmupStart (G : String → String → List F32 → Prop) (disk : KnowledgeEmbeddingStore)
    (state : WarmupState) : Prop where
  nodup : ((activeEntries state.store.entries).map (·.key)).Nodup
  genuine : Genuine G state.store.entries
  appending : state.incrementalReady = true → Appending disk state.store
  files : state.store.vectorFileName = disk.vectorFileName ∧
    state.store.hnswIndexFileName = disk.hnswIndexFileName ∧
    (state.incrementalReady = true → state.store.hnswEntryCount =
      some (min (disk.hnswEntryCount.getD disk.entries.length) disk.entries.length))
  active : state.activeKeys = []

def Unsaved (start state : WarmupState) : Prop :=
  state.dirty = false → start.dirty = false ∧ state.store.entries = start.store.entries ∧
    state.incrementalReady = start.incrementalReady

theorem Unsaved.trans {first second third : WarmupState} (h : Unsaved first second)
    (h' : Unsaved second third) : Unsaved first third := by
  intro hclean
  obtain ⟨hsecond, hentries, hready⟩ := h' hclean
  obtain ⟨hfirst, hentries', hready'⟩ := h hsecond
  exact ⟨hfirst, hentries.trans hentries', hready.trans hready'⟩

theorem takeIdentity_cases (service : EmbeddingService) (state : WarmupState) :
    takeIdentity service state = state ∨
      (state.store.entries = [] ∧ ∃ providerKey modelEndpointId modelName,
        takeIdentity service state = { state with
          store := { state.store with
            providerKey := providerKey
            modelEndpointId := modelEndpointId
            modelName := modelName }
          dirty := true }) := by
  rw [takeIdentity]
  split
  · split
    · rename_i hempty
      exact Or.inr ⟨by simpa using (Bool.and_eq_true_iff.mp hempty).1, _, _, _, rfl⟩
    · exact Or.inl rfl
  · exact Or.inl rfl

theorem head?_embeddedChunks (chunks : List (String × KnowledgeIndexChunk)) :
    (chunks.map fun chunk => embeddedText chunk.2).find? (fun text => text ≠ "") =
      (embeddedChunks chunks).head?.map fun chunk => embeddedText chunk.2 := by
  rw [List.find?_map, embeddedChunks, List.head?_filter]
  rfl

theorem probeService_cases (h : probeService service manifest state = some state') :
    ((state.store.entries = [] ∨ embeddedChunks (manifestChunks manifest) = []) ∧ state' = state) ∨
      (state.store.entries ≠ [] ∧ ∃ first ∈ (embeddedChunks (manifestChunks manifest)).head?,
        ∃ looks, state' = applyProbe (answerTo service first) { state with looks := looks }) := by
  rw [probeService] at h
  split at h
  · rename_i hempty
    exact Or.inl ⟨Or.inl (by simpa using hempty), (Option.some.inj h).symm⟩
  · rename_i hentries
    rw [probeText, head?_embeddedChunks] at h
    cases hfirst : (embeddedChunks (manifestChunks manifest)).head? with
    | none =>
        rw [hfirst] at h
        exact Or.inl ⟨Or.inr (List.head?_eq_none_iff.mp hfirst), (Option.some.inj h).symm⟩
    | some first =>
        rw [hfirst, Option.map_some] at h
        dsimp only at h
        split at h
        · exact absurd h (by simp)
        · split at h
          · exact absurd h (by simp)
          · rename_i hintime
            rw [run_eq_answer (by simpa using hintime)] at h
            exact Or.inr ⟨by simpa using hentries, first, rfl, _, (Option.some.inj h).symm⟩

theorem applyProbe_cases (execution : EmbeddingExecution) (state : WarmupState) :
    (execution.succeeded = false ∧ applyProbe execution state = state) ∨
      (execution.succeeded = true ∧
        (applyProbe execution state).store.vectorDimensions = some execution.vector.length ∧
        ((executionMatchesStore state.store execution = true ∧
            (applyProbe execution state).store.entries = state.store.entries ∧
            state.store.vectorDimensions = some execution.vector.length ∧
            (applyProbe execution state).incrementalReady = state.incrementalReady ∧
            (applyProbe execution state).dirty = state.dirty ∧
            (applyProbe execution state).store.hnswEntryCount = state.store.hnswEntryCount) ∨
          (executionMatchesStore state.store execution = false ∧
            (applyProbe execution state).store.entries = [] ∧
            (applyProbe execution state).incrementalReady = false ∧
            (applyProbe execution state).dirty = true))) := by
  rw [applyProbe]
  cases hsucceeded : execution.succeeded with
  | false => exact Or.inl ⟨rfl, rfl⟩
  | true =>
      rw [if_pos rfl]
      refine Or.inr ⟨rfl, rfl, ?_⟩
      cases hmatches : executionMatchesStore state.store execution with
      | true =>
          rw [if_pos rfl]
          have hdimensions := (Bool.and_eq_true_iff.mp hmatches).2
          exact Or.inl ⟨rfl, rfl, by simpa using hdimensions, rfl, rfl, rfl⟩
      | false => exact Or.inr ⟨rfl, rfl, rfl, rfl⟩

theorem rest_applyProbe (execution : EmbeddingExecution) (state : WarmupState) :
    (applyProbe execution state).activeKeys = state.activeKeys ∧
      (applyProbe execution state).stats = state.stats ∧
      (applyProbe execution state).store.vectorFileName = state.store.vectorFileName ∧
      (applyProbe execution state).store.hnswIndexFileName = state.store.hnswIndexFileName := by
  rw [applyProbe]
  split
  · split <;> exact ⟨rfl, rfl, rfl, rfl⟩
  · exact ⟨rfl, rfl, rfl, rfl⟩

theorem unsaved_refl (state : WarmupState) : Unsaved state state :=
  fun hclean => ⟨hclean, rfl, rfl⟩

theorem unsaved_of_dirty (h : state'.dirty = true) : Unsaved state state' :=
  fun hclean => absurd (hclean.symm.trans h) (by decide)

theorem WarmupStart.takeIdentity (h : WarmupStart G disk state) :
    WarmupStart G disk (takeIdentity service state) ∧
      Unsaved state (EmbeddingWarmup.takeIdentity service state) := by
  rcases takeIdentity_cases service state with hsame | ⟨-, _, _, _, hsame⟩
  · rw [hsame]
    exact ⟨h, unsaved_refl state⟩
  · rw [hsame]
    refine ⟨⟨h.nodup, h.genuine, fun hready => ?_, h.files, h.active⟩, unsaved_of_dirty rfl⟩
    obtain ⟨hcontents, hdimensions⟩ := h.appending hready
    exact ⟨hcontents, hdimensions⟩

theorem WarmupStart.applyProbe (h : WarmupStart G disk state) (execution : EmbeddingExecution) :
    WarmupStart G disk (applyProbe execution state) ∧
      Unsaved state (EmbeddingWarmup.applyProbe execution state) := by
  obtain ⟨hactive, -, hvectorFile, hhnswFile⟩ := rest_applyProbe execution state
  rcases applyProbe_cases execution state with
    ⟨-, hsame⟩ | ⟨-, hsize, ⟨-, hentries, hdimensions, hready, hdirty, hcount⟩ |
      ⟨-, hentries, hready, hdirty⟩⟩
  · rw [hsame]
    exact ⟨h, unsaved_refl state⟩
  · refine ⟨⟨?_, ?_, ?_, ?_, hactive.trans h.active⟩, fun hclean => ?_⟩
    · rw [hentries]
      exact h.nodup
    · rw [hentries]
      exact h.genuine
    · intro hok
      obtain ⟨hcontents, dimensions, hpos, hdisk, hstore⟩ := h.appending (hready.symm.trans hok)
      refine ⟨?_, dimensions, hpos, hdisk, hsize.trans (hdimensions.symm.trans hstore)⟩
      rw [hentries]
      exact hcontents
    · rw [hvectorFile, hhnswFile, hready, hcount]
      exact h.files
    · exact ⟨hdirty.symm.trans hclean, hentries, hready⟩
  · have hnot : ¬ (EmbeddingWarmup.applyProbe execution state).incrementalReady = true := by
      simp [hready]
    refine ⟨⟨?_, ?_, fun hok => absurd hok hnot, ?_, hactive.trans h.active⟩,
      unsaved_of_dirty hdirty⟩
    · rw [hentries]
      exact List.nodup_nil
    · rw [hentries]
      exact fun content hcontent => absurd hcontent List.not_mem_nil
    · rw [hvectorFile, hhnswFile]
      exact ⟨h.files.1, h.files.2.1, fun hok => absurd hok hnot⟩

theorem WarmupStart.probeService (h : WarmupStart G disk state)
    (hprobe : probeService service manifest state = some state') :
    WarmupStart G disk state' ∧ Unsaved state state' := by
  rcases probeService_cases hprobe with ⟨-, rfl⟩ | ⟨-, first, -, looks, rfl⟩
  · exact ⟨h, unsaved_refl _⟩
  · have hlooked : WarmupStart G disk { state with looks := looks } :=
      ⟨h.nodup, h.genuine, h.appending, h.files, h.active⟩
    obtain ⟨hstart, hunsaved⟩ := hlooked.applyProbe (answerTo service first)
    exact ⟨hstart, hunsaved⟩

def indexedState (state : WarmupState) : WarmupState :=
  { state with entriesByKey := indexEntries state.store.entries }

theorem WarmupStart.planLoop (h : WarmupStart G disk state) :
    PlanLoop sha256 service G disk (shelfOf (indexedState state)) [] (indexedState state) := by
  have hnone : ∀ key, key ∉ (indexedState state).activeKeys := by
    change ∀ key, key ∉ state.activeKeys
    rw [h.active]
    exact fun key => List.not_mem_nil
  refine ⟨indexed_indexEntries h.nodup, h.genuine, h.appending, h.files, ?_, ?_, fun _ => rfl, ?_⟩
  · intro key
    exact ⟨fun hkey => absurd hkey (hnone key), fun hkey => absurd hkey List.not_mem_nil⟩
  · exact fun _ key hkey => absurd hkey (hnone key)
  · intro _ first hfirst
    exact absurd hfirst (by simp [embeddedChunks])

theorem unsaved_warmChunk (h : warmChunk sha256 service state chunk = some state') :
    Unsaved state state' := by
  by_cases htext : embeddedText chunk.2 = ""
  · rw [warmChunk, if_pos htext, Option.some.injEq] at h
    rw [← h]
    exact unsaved_refl state
  · rcases warmChunk_cases h htext with ⟨-, stats, -, rfl⟩ | ⟨-, looks, rfl⟩
    · exact fun hclean => ⟨hclean, rfl, rfl⟩
    · rw [WarmupState.takeExecution]
      split
      · exact unsaved_of_dirty rfl
      · exact fun hclean => ⟨hclean, rfl, rfl⟩

theorem unsaved_foldlM {chunks : List (String × KnowledgeIndexChunk)}
    (h : chunks.foldlM (warmChunk sha256 service) state = some state') :
    Unsaved state state' := by
  induction chunks generalizing state with
  | nil =>
      rw [← Option.some.inj h]
      exact unsaved_refl state
  | cons chunk rest ih =>
      rw [List.foldlM_cons, Option.bind_eq_bind, Option.bind_eq_some_iff] at h
      obtain ⟨next, hstep, hrest⟩ := h
      exact (unsaved_warmChunk hstep).trans (ih hrest)

end Starts

section Drops

variable {state : WarmupState} {G : String → String → List F32 → Prop}
  {disk : KnowledgeEmbeddingStore}

theorem activeEntries_dropInactive (state : WarmupState) :
    activeEntries state.dropInactive.store.entries =
      (activeEntries state.store.entries).filter
        fun entry => state.activeKeys.contains entry.key := by
  rw [WarmupState.dropInactive]
  dsimp only
  split
  · change activeEntries (state.store.entries.map _) = _
    induction state.store.entries with
    | nil => rfl
    | cons entry rest ih =>
        rw [List.map_cons, activeEntries, List.filter_cons, ← activeEntries, ih]
        rcases Bool.eq_false_or_eq_true entry.superseded with hsuperseded | hsuperseded <;>
          rcases Bool.eq_false_or_eq_true (state.activeKeys.contains entry.key) with hkey | hkey <;>
          simp [activeEntries, hsuperseded, hkey, -List.contains_eq_mem]
  · change activeEntries (state.store.entries.filter _) = _
    simp only [activeEntries, List.filter_filter]
    refine List.filter_congr fun entry _ => ?_
    cases entry.superseded <;> simp

theorem map_contentOf_dropInactive (h : state.incrementalReady = true) :
    state.dropInactive.store.entries.map contentOf = state.store.entries.map contentOf := by
  rw [WarmupState.dropInactive]
  dsimp only
  rw [if_pos h]
  change (state.store.entries.map _).map contentOf = _
  rw [List.map_map]
  refine List.map_congr_left fun entry _ => ?_
  rw [Function.comp_apply]
  split <;> rfl

theorem rest_dropInactive (state : WarmupState) :
    state.dropInactive.incrementalReady = state.incrementalReady ∧
      state.dropInactive.stats = state.stats ∧
      state.dropInactive.store = { state.store with
        entries := state.dropInactive.store.entries } := by
  rw [WarmupState.dropInactive]
  dsimp only
  split <;> exact ⟨rfl, rfl, rfl⟩

theorem genuine_dropInactive (h : Genuine G state.store.entries) :
    Genuine G state.dropInactive.store.entries := by
  intro content hcontent
  refine h content ?_
  cases hready : state.incrementalReady with
  | true =>
      rw [← map_contentOf_dropInactive hready]
      exact hcontent
  | false =>
      rw [WarmupState.dropInactive] at hcontent
      dsimp only at hcontent
      rw [if_neg (by simp [hready])] at hcontent
      exact (List.filter_sublist.map contentOf).subset hcontent

theorem unsaved_dropInactive (state : WarmupState) : Unsaved state state.dropInactive := by
  rw [WarmupState.dropInactive]
  dsimp only
  split
  · intro hclean
    rw [Bool.or_eq_false_iff] at hclean
    refine ⟨hclean.1, ?_, rfl⟩
    change state.store.entries.map _ = _
    rw [List.any_eq_false] at hclean
    conv_rhs => rw [← List.map_id state.store.entries]
    exact List.map_congr_left fun entry hentry => if_neg (hclean.2 entry hentry)
  · intro hclean
    rw [Bool.or_eq_false_iff] at hclean
    refine ⟨hclean.1, ?_, rfl⟩
    exact List.filter_sublist.eq_of_length (by simpa using hclean.2)

end Drops

section Plans

variable {sha256 : List UInt8 → List UInt8} {service : EmbeddingService}
  {state planned : WarmupState} {manifest : KnowledgeIndexManifest}
  {G : String → String → List F32 → Prop} {disk : KnowledgeEmbeddingStore}
  {start : Shelf String String} {chunks : List (String × KnowledgeIndexChunk)}
  {first : String × KnowledgeIndexChunk} {probed : WarmupState}

def activePairs (entries : List KnowledgeEmbeddingEntry) : List (String × String) :=
  (activeEntries entries).map fun entry => (entry.key, entry.textHash)

def chunkPairs (sha256 : List UInt8 → List UInt8)
    (chunks : List (String × KnowledgeIndexChunk)) : List (String × String) :=
  chunks.map fun chunk => (keyOf chunk, hashOf sha256 chunk)

theorem map_fst_chunkPairs (chunks : List (String × KnowledgeIndexChunk)) :
    (chunkPairs sha256 chunks).map Prod.fst = chunks.map keyOf := by
  rw [chunkPairs, List.map_map]
  rfl

theorem map_fst_activePairs (entries : List KnowledgeEmbeddingEntry) :
    (activePairs entries).map Prod.fst = (activeEntries entries).map (·.key) := by
  rw [activePairs, List.map_map]
  rfl

/-- The entries are those of the chunks if and only if the chunks have keys of their own and are all
on the shelf. -/
theorem perm_activePairs_iff (h : PlanLoop sha256 service G disk start chunks state)
    (hok : state.stats.degraded = false) :
    (activePairs state.dropInactive.store.entries).Perm
        (chunkPairs sha256 (embeddedChunks chunks)) ↔
      ((embeddedChunks chunks).map keyOf).Nodup ∧ ∀ chunk ∈ embeddedChunks chunks,
        (shelfOf state).Holds (chunkLabels sha256 service) chunk := by
  have hactive : activeEntries state.dropInactive.store.entries = _ :=
    activeEntries_dropInactive state
  have hkeys : ((activePairs state.dropInactive.store.entries).map Prod.fst).Nodup := by
    rw [map_fst_activePairs, hactive]
    exact h.indexed.nodup_keys.sublist (List.filter_sublist.map _)
  constructor
  · intro hperm
    refine ⟨?_, fun chunk hchunk => ?_⟩
    · rw [← map_fst_chunkPairs]
      exact (hperm.map Prod.fst).nodup_iff.mp hkeys
    · have hpair : (keyOf chunk, hashOf sha256 chunk) ∈
          activePairs state.dropInactive.store.entries :=
        hperm.mem_iff.mpr (List.mem_map.mpr ⟨chunk, hchunk, rfl⟩)
      obtain ⟨entry, hentry, hsame⟩ := List.mem_map.mp hpair
      rw [hactive, List.mem_filter, List.contains_eq_mem, decide_eq_true_iff] at hentry
      have hkey : entry.key = keyOf chunk := congrArg Prod.fst hsame
      obtain ⟨hmem, hnot⟩ := List.mem_filter.mp hentry.1
      obtain ⟨index, hplace⟩ := List.mem_iff_getElem?.mp hmem
      have hfound : state.existing entry.key = some entry :=
        (existing_eq_some_iff h.indexed).mpr ⟨index, hplace, rfl, by simpa using hnot⟩
      refine (holds_shelfOf_iff h.indexed).mpr
        ⟨entry, hentry.1, hkey, congrArg Prod.snd hsame, ?_⟩
      exact h.usable hok entry.key hentry.2 entry hfound
  · rintro ⟨hdistinct, hall⟩
    have hheld : ∀ chunk ∈ embeddedChunks chunks, (keyOf chunk, hashOf sha256 chunk) ∈
        activePairs state.dropInactive.store.entries := by
      intro chunk hchunk
      obtain ⟨entry, hentry, hkey, hhash, -⟩ := (holds_shelfOf_iff h.indexed).mp (hall chunk hchunk)
      refine List.mem_map.mpr ⟨entry, ?_, Prod.ext hkey hhash⟩
      rw [hactive, List.mem_filter, List.contains_eq_mem, decide_eq_true_iff, h.active, hkey]
      exact ⟨hentry, List.mem_map_of_mem hchunk⟩
    have hpairs : (chunkPairs sha256 (embeddedChunks chunks)).Nodup := by
      refine List.Nodup.of_map Prod.fst ?_
      rw [map_fst_chunkPairs]
      exact hdistinct
    refine (List.perm_ext_iff_of_nodup (List.Nodup.of_map Prod.fst hkeys) hpairs).mpr ?_
    intro pair
    constructor
    · intro hpair
      -- the chunk of the entry's key has the same pair, as keys are not shared
      have hkey : pair.1 ∈ (embeddedChunks chunks).map keyOf := by
        obtain ⟨entry, hentry, hsame⟩ := List.mem_map.mp hpair
        rw [hactive, List.mem_filter, List.contains_eq_mem, decide_eq_true_iff, h.active] at hentry
        exact hsame ▸ hentry.2
      obtain ⟨chunk, hchunk, hsame⟩ := List.mem_map.mp hkey
      have hother : (keyOf chunk, hashOf sha256 chunk) = pair :=
        List.inj_on_of_nodup_map hkeys (hheld chunk hchunk) hpair hsame
      exact List.mem_map.mpr ⟨chunk, hchunk, hother⟩
    · intro hpair
      obtain ⟨chunk, hchunk, rfl⟩ := List.mem_map.mp hpair
      exact hheld chunk hchunk

def StoreKept (service : EmbeddingService) (store : KnowledgeEmbeddingStore)
    (chunks : List (String × KnowledgeIndexChunk)) : Prop :=
  ∀ first ∈ chunks.head?, (answerTo service first).succeeded = true →
    executionMatchesStore store (answerTo service first) = true

def Reusable (sha256 : List UInt8 → List UInt8) (service : EmbeddingService) (inFiles : Bool)
    (store : KnowledgeEmbeddingStore) (chunks : List (String × KnowledgeIndexChunk))
    (chunk : String × KnowledgeIndexChunk) : Prop :=
  StoreKept service store chunks ∧ ∃ entry ∈ activeEntries store.entries,
    entry.key = keyOf chunk ∧ entry.textHash = hashOf sha256 chunk ∧
      hasVector inFiles entry = true

def firstDimension (service : EmbeddingService) (store : KnowledgeEmbeddingStore)
    (chunks : List (String × KnowledgeIndexChunk)) : Option Nat :=
  match chunks.head? with
  | some first =>
      if (answerTo service first).succeeded then some (answerTo service first).vector.length
      else store.vectorDimensions
  | none => none

/-- The chunks have keys of their own, and the service gives vectors of one dimension for those
that nothing can be reused for. -/
structure OneDimension (sha256 : List UInt8 → List UInt8) (service : EmbeddingService)
    (inFiles : Bool) (store : KnowledgeEmbeddingStore)
    (chunks : List (String × KnowledgeIndexChunk)) : Prop where
  keys : (chunks.map keyOf).Nodup
  sizes : ∀ chunk ∈ chunks, ¬ Reusable sha256 service inFiles store chunks chunk →
    firstDimension service store chunks = some (answerTo service chunk).vector.length

theorem indexed_indexedState (h : WarmupStart G disk state) :
    Indexed (indexedState state).entriesByKey (indexedState state).store.entries :=
  indexed_indexEntries h.nodup

theorem held_indexedState_of_empty (h : state.store.entries = []) (key : String) :
    (shelfOf (indexedState state)).held key = none := by
  have hindex : indexEntries state.store.entries = ∅ := by rw [h]; rfl
  change ((indexedState state).existing key).bind _ = none
  rw [WarmupState.existing, indexedState]
  dsimp only
  rw [hindex, AList.lookup_empty]
  rfl

/-- What the trial makes of the shelf. -/
structure StartsWith (sha256 : List UInt8 → List UInt8) (service : EmbeddingService)
    (state : WarmupState) (chunks : List (String × KnowledgeIndexChunk))
    (first : String × KnowledgeIndexChunk) (start : Shelf String String) : Prop where
  holds : ∀ chunk, start.Holds (chunkLabels sha256 service) chunk ↔
    Reusable sha256 service state.incrementalReady state.store chunks chunk
  fits : start.Holds (chunkLabels sha256 service) first ∨
    start.size = some (answerTo service first).vector.length ∨ ∀ key, start.held key = none
  size : (start.add (chunkLabels sha256 service) first).size =
    firstDimension service state.store chunks

theorem size_add_of_succeeded (hhead : chunks.head? = some first)
    (hsucceeded : (answerTo service first).succeeded = true)
    (hsize : start.Holds (chunkLabels sha256 service) first →
      start.size = some (answerTo service first).vector.length) (store : KnowledgeEmbeddingStore) :
    (start.add (chunkLabels sha256 service) first).size = firstDimension service store chunks := by
  rw [firstDimension, hhead]
  dsimp only
  rw [if_pos hsucceeded, Shelf.add]
  split
  · rename_i hholds
    exact hsize hholds
  · rfl

theorem startsWith_of_empty (hhead : chunks.head? = some first) (hempty : state.store.entries = [])
    (hprobed : probed.store.entries = [])
    (hanswered : ¬ (shelfOf (indexedState probed)).Holds (chunkLabels sha256 service) first →
      (answerTo service first).succeeded = true) :
    StartsWith sha256 service state chunks first (shelfOf (indexedState probed)) := by
  have hnone := held_indexedState_of_empty hprobed
  have hlacks : ∀ chunk,
      ¬ (shelfOf (indexedState probed)).Holds (chunkLabels sha256 service) chunk := by
    intro chunk hholds
    rw [Shelf.Holds, hnone] at hholds
    exact absurd hholds (by simp)
  refine ⟨fun chunk => ⟨fun hholds => absurd hholds (hlacks chunk), ?_⟩,
    Or.inr (Or.inr hnone), ?_⟩
  · rintro ⟨-, entry, hentry, -⟩
    rw [hempty] at hentry
    exact absurd hentry List.not_mem_nil
  · exact size_add_of_succeeded hhead (hanswered (hlacks first))
      (fun hholds => absurd hholds (hlacks first)) state.store

theorem startsWith_of_probe (hstart : WarmupStart G disk state) (hhead : chunks.head? = some first)
    (looks : Nat) (hanswered : ¬ (shelfOf (indexedState
        (applyProbe (answerTo service first) { state with looks := looks }))).Holds
          (chunkLabels sha256 service) first → (answerTo service first).succeeded = true) :
    StartsWith sha256 service state chunks first (shelfOf (indexedState
      (applyProbe (answerTo service first) { state with looks := looks }))) := by
  have hlooked : WarmupStart G disk { state with looks := looks } :=
    ⟨hstart.nodup, hstart.genuine, hstart.appending, hstart.files, hstart.active⟩
  have hindexed := indexed_indexedState (hlooked.applyProbe (answerTo service first)).1
  have hholds := fun chunk => @holds_shelfOf_iff sha256 service _ chunk hindexed
  rcases applyProbe_cases (answerTo service first) { state with looks := looks } with
    ⟨hfailed, hsame⟩ | ⟨hsucceeded, hsize, ⟨hmatches, hentries, -, hready, -⟩ |
      ⟨hdiffers, hentries, -⟩⟩
  · -- the first chunk is on the shelf, as otherwise it fails in the loop too
    rw [hsame] at hholds hanswered ⊢
    have hfirst : (shelfOf (indexedState { state with looks := looks })).Holds
        (chunkLabels sha256 service) first := by
      by_contra hlacks
      exact absurd (hfailed.symm.trans (hanswered hlacks)) (by decide)
    refine ⟨fun chunk => ?_, Or.inl hfirst, ?_⟩
    · rw [hholds]
      refine ⟨fun hfound => ⟨?_, hfound⟩, And.right⟩
      intro other hother hsucceeded
      rw [hhead, Option.mem_some] at hother
      rw [← hother, hfailed] at hsucceeded
      exact absurd hsucceeded (by decide)
    · have hadd : (shelfOf (indexedState { state with looks := looks })).add
          (chunkLabels sha256 service) first = shelfOf (indexedState { state with looks := looks }) :=
        if_pos hfirst
      rw [hadd, firstDimension, hhead]
      dsimp only
      rw [if_neg (by simp [hfailed])]
      rfl
  · refine ⟨fun chunk => ?_, Or.inr (Or.inl hsize),
      size_add_of_succeeded hhead hsucceeded (fun _ => hsize) state.store⟩
    rw [hholds]
    change (∃ entry ∈ activeEntries (applyProbe _ _).store.entries, _ ∧ _ ∧
      hasVector (applyProbe _ _).incrementalReady entry = true) ↔ _
    rw [hentries, hready]
    refine ⟨fun hfound => ⟨?_, hfound⟩, And.right⟩
    intro other hother _
    rw [hhead, Option.mem_some] at hother
    rw [← hother]
    exact hmatches
  · have hnone := held_indexedState_of_empty hentries
    refine ⟨fun chunk => ⟨fun hheld => ?_, ?_⟩, Or.inr (Or.inl hsize),
      size_add_of_succeeded hhead hsucceeded (fun _ => hsize) state.store⟩
    · rw [Shelf.Holds, hnone] at hheld
      exact absurd hheld (by simp)
    · rintro ⟨hkept, -⟩
      have hmatches := hkept first (by rw [hhead]; rfl) hsucceeded
      exact absurd (hdiffers.symm.trans hmatches) (by decide)

structure Planned (G : String → String → List F32 → Prop) (disk : KnowledgeEmbeddingStore)
    (state planned : WarmupState) : Prop where
  nodup : ((activeEntries planned.store.entries).map (·.key)).Nodup
  genuine : Genuine G planned.store.entries
  appending : planned.incrementalReady = true → Appending disk planned.store
  files : planned.store.vectorFileName = disk.vectorFileName ∧
    planned.store.hnswIndexFileName = disk.hnswIndexFileName ∧
    (planned.incrementalReady = true → planned.store.hnswEntryCount =
      some (min (disk.hnswEntryCount.getD disk.entries.length) disk.entries.length))
  unsaved : Unsaved state planned

theorem planned_dropInactive (h : PlanLoop sha256 service G disk start chunks planned)
    (hunsaved : Unsaved state planned) : Planned G disk state planned.dropInactive := by
  obtain ⟨hready, -, hstore⟩ := rest_dropInactive planned
  refine ⟨?_, genuine_dropInactive h.genuine, ?_, ?_,
    hunsaved.trans (unsaved_dropInactive planned)⟩
  · rw [activeEntries_dropInactive]
    exact h.indexed.nodup_keys.sublist (List.filter_sublist.map _)
  · intro hok
    rw [hready] at hok
    obtain ⟨⟨appended, hcontents, happended⟩, hdimensions⟩ := h.appending hok
    refine ⟨⟨appended, ?_, happended⟩, ?_⟩
    · rw [map_contentOf_dropInactive hok]
      exact hcontents
    · rw [hstore]
      exact hdimensions
  · rw [hready, hstore]
    exact h.files

theorem planWarmup_cases (h : planWarmup sha256 service manifest state = some planned) :
    ∃ probed warmed, probeService service manifest (takeIdentity service state) = some probed ∧
      (manifestChunks manifest).foldlM (warmChunk sha256 service) (indexedState probed) =
        some warmed ∧ planned = warmed.dropInactive := by
  rw [planWarmup] at h
  rw [Option.bind_eq_bind, Option.bind_eq_some_iff] at h
  obtain ⟨probed, hprobed, h⟩ := h
  dsimp only at h
  rw [Option.bind_eq_some_iff] at h
  obtain ⟨warmed, hwarmed, h⟩ := h
  split at h
  · exact absurd h (by simp)
  · exact ⟨probed, warmed, hprobed, hwarmed, (Option.some.inj h).symm⟩

theorem planned_of_planWarmup (hstart : WarmupStart G disk state)
    (hanswers : Answers sha256 service G)
    (hplan : planWarmup sha256 service manifest state = some planned) :
    Planned G disk state planned := by
  obtain ⟨probed, warmed, hprobe, hwarm, rfl⟩ := planWarmup_cases hplan
  obtain ⟨hnamed, hunsaved⟩ := @WarmupStart.takeIdentity service state G disk hstart
  obtain ⟨hprobed, hunsaved'⟩ := hnamed.probeService hprobe
  have hbegin : PlanLoop sha256 service G disk (shelfOf (indexedState probed)) []
      (indexedState probed) := hprobed.planLoop
  have hindexed : Unsaved probed (indexedState probed) := fun hclean => ⟨hclean, rfl, rfl⟩
  refine planned_dropInactive (hbegin.run hanswers hwarm) ?_
  exact (hunsaved.trans hunsaved').trans (hindexed.trans (unsaved_foldlM hwarm))

theorem startsWith_of_probeService (hstart : WarmupStart G disk state)
    (hprobe : probeService service manifest (takeIdentity service state) = some probed)
    (hhead : (embeddedChunks (manifestChunks manifest)).head? = some first)
    (hanswered : ¬ (shelfOf (indexedState probed)).Holds (chunkLabels sha256 service) first →
      (answerTo service first).succeeded = true) :
    StartsWith sha256 service state (embeddedChunks (manifestChunks manifest)) first
      (shelfOf (indexedState probed)) := by
  have hnamed : (takeIdentity service state).store.entries = state.store.entries := by
    rcases takeIdentity_cases service state with hsame | ⟨-, _, _, _, hsame⟩ <;> rw [hsame]
  rcases probeService_cases hprobe with ⟨hnone | hnone, hsame⟩ | ⟨hentries, other, hother, looks, rfl⟩
  · rw [hnamed] at hnone
    refine startsWith_of_empty hhead hnone ?_ hanswered
    rw [hsame, hnamed, hnone]
  · rw [hnone] at hhead
    exact absurd hhead (by simp)
  · rw [hhead, Option.mem_some] at hother
    subst hother
    rcases takeIdentity_cases service state with hsame | ⟨hempty, -⟩
    · rw [hsame] at hanswered ⊢
      exact startsWith_of_probe hstart hhead looks hanswered
    · rw [hnamed] at hentries
      exact absurd hempty hentries

theorem StartsWith.exists_dimension {rest : List (String × KnowledgeIndexChunk)}
    (h : StartsWith sha256 service state (first :: rest) first start)
    (hdimensions : state.store.entries ≠ [] → state.store.vectorDimensions ≠ none)
    (hanswered : ¬ start.Holds (chunkLabels sha256 service) first →
      (answerTo service first).succeeded = true) :
    ∃ n, firstDimension service state.store (first :: rest) = some n := by
  rw [firstDimension, List.head?_cons]
  dsimp only
  split
  · exact ⟨_, rfl⟩
  · rename_i hfailed
    have hholds : start.Holds (chunkLabels sha256 service) first := by
      by_contra hlacks
      exact hfailed (hanswered hlacks)
    obtain ⟨-, entry, hentry, -⟩ := (h.holds first).mp hholds
    refine Option.ne_none_iff_exists'.mp (hdimensions ?_)
    intro hempty
    rw [hempty] at hentry
    exact List.not_mem_nil hentry

/-- A plan without a failure leaves the entries of the chunks and no others if and only if the
chunks have keys of their own and one dimension. -/
theorem perm_planWarmup_iff (hstart : WarmupStart G disk state)
    (hanswers : Answers sha256 service G)
    (hdimensions : state.store.entries ≠ [] → state.store.vectorDimensions ≠ none)
    (hplan : planWarmup sha256 service manifest state = some planned)
    (hok : planned.stats.degraded = false) :
    (activePairs planned.store.entries).Perm
        (chunkPairs sha256 (embeddedChunks (manifestChunks manifest))) ↔
      OneDimension sha256 service state.incrementalReady state.store
        (embeddedChunks (manifestChunks manifest)) := by
  obtain ⟨probed, warmed, hprobe, hwarm, rfl⟩ := planWarmup_cases hplan
  obtain ⟨hnamed, -⟩ := @WarmupStart.takeIdentity service state G disk hstart
  have hprobed := (hnamed.probeService hprobe).1
  have hfirst : PlanLoop sha256 service G disk (shelfOf (indexedState probed)) []
      (indexedState probed) := hprobed.planLoop
  have hloop := hfirst.run hanswers hwarm
  rw [List.nil_append] at hloop
  have hok' : warmed.stats.degraded = false := by
    rw [← hok, (rest_dropInactive warmed).2.1]
  rw [perm_activePairs_iff hloop hok', hloop.shelf hok']
  have hanswered := hloop.answered hok'
  have hbegin := fun first => @startsWith_of_probeService sha256 service state manifest G disk
    first probed hstart hprobe
  generalize embeddedChunks (manifestChunks manifest) = chunks at hanswered hbegin ⊢
  cases chunks with
  | nil =>
      exact ⟨fun _ => ⟨List.nodup_nil, fun _ h => absurd h List.not_mem_nil⟩,
        fun _ => ⟨List.nodup_nil, fun _ h => absurd h List.not_mem_nil⟩⟩
  | cons first rest =>
      have hbegin := hbegin first rfl (hanswered first rfl)
      obtain ⟨n, hn⟩ := hbegin.exists_dimension hdimensions (hanswered first rfl)
      have hiff := fun hkeys : ((first :: rest).map keyOf).Nodup =>
        holds_foldl_iff_of_fits hkeys (hbegin.size.trans hn) hbegin.fits
      constructor
      · rintro ⟨hkeys, hall⟩
        refine ⟨hkeys, fun chunk hchunk hlacks => ?_⟩
        have hsame := (hiff hkeys).mp hall chunk hchunk (mt (hbegin.holds chunk).mp hlacks)
        rw [hn, ← hsame]
        rfl
      · rintro ⟨hkeys, hsizes⟩
        refine ⟨hkeys, (hiff hkeys).mpr fun chunk hchunk hlacks => ?_⟩
        have hsame := hsizes chunk hchunk (mt (hbegin.holds chunk).mpr hlacks)
        exact Option.some.inj (hsame.symm.trans hn)

end Plans

end HarborBeacon.WarmupPlans
