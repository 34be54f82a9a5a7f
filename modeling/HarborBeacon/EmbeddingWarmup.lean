import HarborBeacon.EmbeddingFiles
import HarborBeacon.KnowledgeManifest

/-!
The warm-up of the embeddings of an index. Every chunk of the manifest gets a vector, of the store
before where its text is the same and of the embedding service otherwise, and the store is saved,
by an incremental save where the files of the store before allow it.
-/

namespace HarborBeacon.EmbeddingWarmup

open Binary32 Chunking EmbeddingFiles KnowledgeFiles KnowledgeManifest NamedFiles Text TextEncoding

def modalityText : KnowledgeModality → String
  | .document => "document"
  | .image => "image"
  | .audio => "audio"
  | .video => "video"

def embeddingChunksForEntry (entry : KnowledgeIndexEntry) : List KnowledgeIndexChunk :=
  if entry.chunks = [] then
    [{ chunkId := "chunk-0001"
       parentId := none
       previousId := none
       nextId := none
       sectionPath := []
       lineStart := 1
       lineEnd := max (lines entry.searchableText).length 1
       text := entry.searchableText
       indexedText := entry.searchableText
       sourceKind := modalityText entry.modality
       sourcePath := entry.sidecarPath }]
  else entry.chunks

def embeddingKeyForChunk (path : String) (chunkId : Option String) : String :=
  path ++ "::" ++ chunkId.getD "chunk-0001"

def embeddingTextHash (sha256 : List UInt8 → List UInt8) (text : String) : String :=
  String.ofList (hex (sha256 (utf8 text)))

def embeddedText (chunk : KnowledgeIndexChunk) : String :=
  if isBlank chunk.indexedText then trim chunk.text else trim chunk.indexedText

def manifestChunks (manifest : KnowledgeIndexManifest) : List (String × KnowledgeIndexChunk) :=
  manifest.entries.flatMap fun entry =>
    (embeddingChunksForEntry entry).map fun chunk => (entry.path, chunk)

def embeddingWarmupCandidateCount (manifest : KnowledgeIndexManifest) : Nat :=
  ((manifestChunks manifest).filter fun chunk => !isBlank chunk.2.text).length

def probeText (manifest : KnowledgeIndexManifest) : Option String :=
  ((manifestChunks manifest).map fun chunk => embeddedText chunk.2).find? fun text => text ≠ ""

section Service

structure EmbeddingExecution where
  available : Bool
  summary : String
  providerKey : String
  modelEndpointId : Option String
  modelName : Option String
  vector : List F32

structure EmbeddingEndpointIdentity where
  providerKey : String
  modelEndpointId : String
  modelName : String

/-- The service and the clock. `expired` tells of each look at the clock whether the deadline has
passed; without a deadline it never has. -/
structure EmbeddingService where
  runEmbedding : String → EmbeddingExecution
  identity : Option EmbeddingEndpointIdentity
  timeoutMillis : Nat
  expired : Nat → Bool
  stays_expired : ∀ look, expired look = true → expired (look + 1) = true

def embeddingContextRetryLimit : Nat := 4

def embeddingContextRetryMinChars : Nat := 128

def embeddingContextLimitError (summary : String) : Bool :=
  let normalized := toAsciiLowercase summary
  containsText normalized "exceed_context_size" ||
    containsText normalized "exceeds the available context size" ||
    containsText normalized "maximum context length"

def truncateEmbeddingRetryInput (input : String) : String :=
  takeChars (max (input.toList.length / 2) embeddingContextRetryMinChars) input

def embeddingDeadlineExecution : EmbeddingExecution where
  available := false
  summary := "Embedding warmup deadline exceeded before the next request."
  providerKey := ""
  modelEndpointId := none
  modelName := none
  vector := []

variable (service : EmbeddingService)

def runEmbeddingBeforeDeadline (text : String) (looks : Nat) : EmbeddingExecution × Nat :=
  if service.expired looks then (embeddingDeadlineExecution, looks + 1)
  else (service.runEmbedding text, looks + 1)

def contextRetryLoop : Nat → String → EmbeddingExecution → Nat → EmbeddingExecution × Nat
  | 0, _, execution, looks => (execution, looks)
  | retries + 1, input, execution, looks =>
      if execution.available || !embeddingContextLimitError execution.summary ||
          input.toList.length ≤ embeddingContextRetryMinChars then (execution, looks)
      else if service.expired looks then (execution, looks + 1)
      else
        let input := truncateEmbeddingRetryInput input
        let (execution, looks) := runEmbeddingBeforeDeadline service input (looks + 1)
        contextRetryLoop retries input execution looks

def runEmbeddingWithContextRetryUntil (text : String) (looks : Nat) : EmbeddingExecution × Nat :=
  let input := trim text
  let (execution, looks) := runEmbeddingBeforeDeadline service input looks
  contextRetryLoop service embeddingContextRetryLimit input execution looks

def EmbeddingService.untimed : EmbeddingService where
  runEmbedding := service.runEmbedding
  identity := service.identity
  timeoutMillis := service.timeoutMillis
  expired := fun _ => false
  stays_expired := fun _ h => h

end Service

structure KnowledgeEmbeddingWarmupStats where
  total : Nat := 0
  completed : Nat := 0
  skipped : Nat := 0
  failed : Nat := 0
  degraded : Bool := false
  persistError : Option String := none
  lastError : Option String := none
deriving DecidableEq

def embeddingDeadlineStats (service : EmbeddingService) (total : Nat) :
    KnowledgeEmbeddingWarmupStats where
  total := total
  completed := 0
  skipped := 0
  failed := total
  degraded := true
  persistError := none
  lastError := some ("Embedding warmup exceeded " ++ toString service.timeoutMillis ++
    " ms; pending results were discarded and the previous embedding store was preserved.")

/-- The warm-up as it stands between two chunks. -/
structure WarmupState where
  store : KnowledgeEmbeddingStore
  entriesByKey : Table Nat
  activeKeys : List String
  incrementalReady : Bool
  dirty : Bool
  stats : KnowledgeEmbeddingWarmupStats
  looks : Nat

def embeddingStoreMatchesIdentity (store : KnowledgeEmbeddingStore)
    (identity : EmbeddingEndpointIdentity) : Bool :=
  store.providerKey = some identity.providerKey &&
    store.modelEndpointId = some identity.modelEndpointId &&
    store.modelName = some identity.modelName

def takeIdentity (service : EmbeddingService) (state : WarmupState) : WarmupState :=
  match service.identity with
  | some identity =>
      if state.store.entries.isEmpty && !embeddingStoreMatchesIdentity state.store identity then
        { state with
          store := { state.store with
            providerKey := some identity.providerKey
            modelEndpointId := some identity.modelEndpointId
            modelName := some identity.modelName }
          dirty := true }
      else state
  | none => state

def executionMatchesStore (store : KnowledgeEmbeddingStore) (execution : EmbeddingExecution) :
    Bool :=
  store.providerKey = some execution.providerKey &&
    store.modelEndpointId = execution.modelEndpointId &&
    store.modelName = (execution.modelName.map trim).filter (· ≠ "") &&
    store.vectorDimensions = some execution.vector.length

def EmbeddingExecution.succeeded (execution : EmbeddingExecution) : Bool :=
  execution.available && !execution.vector.isEmpty

def applyProbe (execution : EmbeddingExecution) (state : WarmupState) : WarmupState :=
  if execution.succeeded then
    let state :=
      if executionMatchesStore state.store execution then state
      else
        { state with
          store := { state.store with entries := [], hnswEntryCount := none, vectorDimensions := none }
          incrementalReady := false
          dirty := true }
    { state with
      store := { state.store with
        providerKey := some execution.providerKey
        modelEndpointId := execution.modelEndpointId
        modelName := execution.modelName
        vectorDimensions := some execution.vector.length } }
  else state

/-- Nothing is returned where the deadline has passed. -/
def probeService (service : EmbeddingService) (manifest : KnowledgeIndexManifest)
    (state : WarmupState) : Option WarmupState :=
  if state.store.entries.isEmpty then some state
  else
    match probeText manifest with
    | none => some state
    | some text =>
        if service.expired state.looks then none
        else
          let (execution, looks) :=
            runEmbeddingWithContextRetryUntil service text (state.looks + 1)
          if service.expired looks then none
          else some (applyProbe execution { state with looks := looks + 1 })

def indexEntries (entries : List KnowledgeEmbeddingEntry) : Table Nat :=
  (entries.zipIdx.filter fun entry => !entry.1.superseded).foldl
    (fun table entry => table.insert entry.1.key entry.2) ∅

def WarmupState.existing (state : WarmupState) (key : String) : Option KnowledgeEmbeddingEntry :=
  (state.entriesByKey.lookup key).bind fun index => state.store.entries[index]?

def hasVector (incrementalReady : Bool) (entry : KnowledgeEmbeddingEntry) : Bool :=
  incrementalReady || !entry.vector.isEmpty

def WarmupState.skips (state : WarmupState) (key textHash : String) : Bool :=
  match state.existing key with
  | some existing =>
      existing.textHash = textHash && !existing.superseded &&
        hasVector state.incrementalReady existing
  | none => false

def WarmupState.withDimensions (state : WarmupState) (execution : EmbeddingExecution) :
    WarmupState :=
  let dimensions := execution.vector.length
  let state :=
    if state.store.vectorDimensions.any (· ≠ dimensions) then
      { state with
        store := { state.store with entries := [], hnswEntryCount := none }
        entriesByKey := ∅
        incrementalReady := false }
    else state
  { state with
    store := { state.store with
      providerKey := if isBlank execution.providerKey then none else some execution.providerKey
      modelEndpointId := execution.modelEndpointId
      modelName := execution.modelName
      vectorDimensions := some dimensions } }

def WarmupState.putEntry (state : WarmupState) (entry : KnowledgeEmbeddingEntry) : WarmupState :=
  let push (entries : List KnowledgeEmbeddingEntry) : WarmupState :=
    { state with
      store := { state.store with entries := entries ++ [entry] }
      entriesByKey := state.entriesByKey.insert entry.key entries.length }
  match state.entriesByKey.lookup entry.key with
  | some index =>
      if state.incrementalReady then
        push (state.store.entries.modify index fun existing => { existing with superseded := true })
      else { state with store := { state.store with entries := state.store.entries.set index entry } }
  | none => push state.store.entries

def WarmupState.takeExecution (state : WarmupState) (key path chunkId textHash : String)
    (execution : EmbeddingExecution) : WarmupState :=
  if execution.succeeded then
    let state := (state.withDimensions execution).putEntry
      { key := key
        path := path
        chunkId := some chunkId
        textHash := textHash
        superseded := false
        vector := execution.vector }
    { state with
      stats := { state.stats with completed := state.stats.completed + 1 }
      dirty := true }
  else
    { state with
      stats := { state.stats with
        failed := state.stats.failed + 1
        degraded := true
        lastError := some execution.summary } }

def warmChunk (sha256 : List UInt8 → List UInt8) (service : EmbeddingService) (state : WarmupState)
    (chunk : String × KnowledgeIndexChunk) : Option WarmupState :=
  let text := embeddedText chunk.2
  if text = "" then some state
  else
    let key := embeddingKeyForChunk chunk.1 (some chunk.2.chunkId)
    let textHash := embeddingTextHash sha256 text
    let state :=
      { state with
        stats := { state.stats with total := state.stats.total + 1 }
        activeKeys := key :: state.activeKeys }
    if state.skips key textHash then
      some { state with stats := { state.stats with skipped := state.stats.skipped + 1 } }
    else if service.expired state.looks then none
    else
      let (execution, looks) := runEmbeddingWithContextRetryUntil service text (state.looks + 1)
      if service.expired looks then none
      else
        some ({ state with looks := looks + 1 }.takeExecution key chunk.1 chunk.2.chunkId textHash
          execution)

def WarmupState.dropInactive (state : WarmupState) : WarmupState :=
  let isDropped (entry : KnowledgeEmbeddingEntry) : Bool :=
    !entry.superseded && !state.activeKeys.contains entry.key
  if state.incrementalReady then
    { state with
      store := { state.store with
        entries := state.store.entries.map fun entry =>
          if isDropped entry then { entry with superseded := true } else entry }
      dirty := state.dirty || state.store.entries.any isDropped }
  else
    let kept := state.store.entries.filter fun entry =>
      !entry.superseded && state.activeKeys.contains entry.key
    { state with
      store := { state.store with entries := kept }
      dirty := state.dirty || kept.length ≠ state.store.entries.length }

def planWarmup (sha256 : List UInt8 → List UInt8) (service : EmbeddingService)
    (manifest : KnowledgeIndexManifest) (state : WarmupState) : Option WarmupState := do
  let probed ← probeService service manifest (takeIdentity service state)
  let indexed := { probed with entriesByKey := indexEntries probed.store.entries }
  let warmed ← (manifestChunks manifest).foldlM (warmChunk sha256 service) indexed
  let dropped := warmed.dropInactive
  if service.expired dropped.looks then none else some dropped

section Warmup

variable {ι : Type} (tools : EmbeddingTools ι) (service : EmbeddingService)

def fileReady : Except String FilePath → Files ι Bool
  | .ok path => isFile path.fileName
  | .error _ => pure false

def incrementalReady (store : KnowledgeEmbeddingStore) (vectorFileReady hnswReady : Bool) : Bool :=
  !store.entries.isEmpty && vectorFileReady && hnswReady &&
    (store.schemaVersion = embeddingStoreSchemaVersion ||
      store.schemaVersion = hnswSnapshotEmbeddingStoreSchemaVersion)

def startOf (root : String) (store : KnowledgeEmbeddingStore) (incremental hnswReady : Bool)
    (stats : KnowledgeEmbeddingWarmupStats) : WarmupState where
  store := { store with schemaVersion := embeddingStoreSchemaVersion, root := root }
  entriesByKey := ∅
  activeKeys := []
  incrementalReady := incremental
  dirty := store.schemaVersion ≠ embeddingStoreSchemaVersion ||
    (!store.entries.isEmpty && !hnswReady)
  stats := stats
  looks := 1

def loadWarmupState (path : FilePath) (root : String) (store : KnowledgeEmbeddingStore)
    (stats : KnowledgeEmbeddingWarmupStats) : Files ι WarmupState := do
  let vectorFileReady ← fileReady (embeddingVectorPath path store)
  let hnswReady ← fileReady (embeddingHnswPath path store)
  let entryCount := store.entries.length
  if incrementalReady store vectorFileReady hnswReady then
    let hnswEntryCount := min (store.hnswEntryCount.getD entryCount) entryCount
    pure (startOf root { store with hnswEntryCount := some hnswEntryCount } true hnswReady stats)
  else if store.entries.isEmpty then pure (startOf root store false hnswReady stats)
  else
    match ← ExceptT.lift (loadEmbeddingStoreWithVectors tools path).run with
    | .ok loaded => pure (startOf root loaded false hnswReady stats)
    | .error error =>
        let state := startOf root store false hnswReady
          { stats with degraded := true, lastError := some error }
        pure { state with store := { state.store with entries := [], vectorDimensions := none } }

/-- A save by appended rows may call for a compaction. -/
def persistWarmup (now later : Nonces) (path : FilePath) (originalSchemaVersion : Nat)
    (state : WarmupState) : Files ι Unit := do
  if state.incrementalReady then
    let saved ← saveEmbeddingStoreIncremental tools now path state.store originalSchemaVersion
    if embeddingStoreNeedsCompaction saved then compactEmbeddingStore tools later path
  else saveEmbeddingStoreOwned tools now path state.store

def finishWarmup (now later : Nonces) (path : FilePath) (originalSchemaVersion : Nat)
    (planned : WarmupState) : Files ι KnowledgeEmbeddingWarmupStats := do
  if planned.dirty then
    match ← ExceptT.lift (persistWarmup tools now later path originalSchemaVersion planned).run with
    | .ok _ => pure planned.stats
    | .error error =>
        pure { planned.stats with
          degraded := true
          persistError := some error
          lastError := some error }
  else pure planned.stats

def loadOrEmpty (path : FilePath) (root : String) :
    Files ι (KnowledgeEmbeddingStore × KnowledgeEmbeddingWarmupStats) := do
  match ← ExceptT.lift (loadEmbeddingStore tools path).run with
  | .ok store => pure (store, {})
  | .error error =>
      pure (emptyEmbeddingStore root, { degraded := true, lastError := some error })

def warmEmbeddingCacheInner (now later : Nonces) (path : FilePath) (root : String)
    (manifest : KnowledgeIndexManifest) : Files ι KnowledgeEmbeddingWarmupStats := do
  let candidateCount := embeddingWarmupCandidateCount manifest
  if service.expired 0 then pure (embeddingDeadlineStats service candidateCount)
  else
    let (store, stats) ← loadOrEmpty tools path root
    let state ← loadWarmupState tools path root store stats
    match planWarmup tools.sha256 service manifest state with
    | none => pure (embeddingDeadlineStats service candidateCount)
    | some planned => finishWarmup tools now later path store.schemaVersion planned

/-- `warm_embedding_cache` and `warm_embedding_cache_with_deadline`: the service has the deadline
or none. -/
def warmEmbeddingCache (now later : Nonces) (indexRoot root : String)
    (manifest : KnowledgeIndexManifest) : Files ι KnowledgeEmbeddingWarmupStats :=
  warmEmbeddingCacheInner tools service now later
    (embeddingStorePathForRoot tools.sha256 indexRoot root) root manifest

end Warmup

end HarborBeacon.EmbeddingWarmup
