import HarborBeacon.KnowledgeFiles
import HarborBeacon.VectorRows

/-!
The files of an embedding store: the metadata of the entries, the vectors as rows of one file, and
the index over the first of them. A full save writes all three anew, an incremental one appends
rows and replaces the metadata, and a compaction drops the entries that were superseded.
-/

namespace HarborBeacon.EmbeddingFiles

open Binary32 KnowledgeFiles NamedFiles TextEncoding VectorRows

structure KnowledgeEmbeddingEntry where
  key : String
  path : String
  chunkId : Option String
  textHash : String
  superseded : Bool
  vector : List F32
deriving DecidableEq

structure KnowledgeEmbeddingStore where
  schemaVersion : Nat
  root : String
  providerKey : Option String
  modelEndpointId : Option String
  modelName : Option String
  vectorDimensions : Option Nat
  vectorFileName : Option String
  hnswIndexFileName : Option String
  hnswEntryCount : Option Nat
  entries : List KnowledgeEmbeddingEntry
deriving DecidableEq

def embeddingStoreSchemaVersion : Nat := 6

def hnswSnapshotEmbeddingStoreSchemaVersion : Nat := 5

def diskVectorEmbeddingStoreSchemaVersion : Nat := 4

def legacyEmbeddingStoreSchemaVersion : Nat := 3

def embeddingCompactionMinDelta : Nat := 20000

def embeddingCompactionPercent : Nat := 10

def emptyEmbeddingStore (root : String) : KnowledgeEmbeddingStore where
  schemaVersion := embeddingStoreSchemaVersion
  root := root
  providerKey := none
  modelEndpointId := none
  modelName := none
  vectorDimensions := none
  vectorFileName := none
  hnswIndexFileName := none
  hnswEntryCount := none
  entries := []

/-- The metadata as `serde_json` writes and reads it, the digest of the names, and the index that
`fast_hnsw` builds. -/
structure EmbeddingTools (ι : Type) where
  toStringPretty : KnowledgeEmbeddingStore → Except String String
  fromStr : String → Except String KnowledgeEmbeddingStore
  sha256 : List UInt8 → List UInt8
  build : List (List F32) → ι

/-- The clock in nanoseconds, once for each of the two names. -/
structure Nonces where
  vectors : Nat
  hnsw : Nat

def checkedMul (a b : Nat) : Option Nat :=
  if a * b < 18446744073709551616 then some (a * b) else none

def saturatingMul (a b : Nat) : Nat :=
  min (a * b) 18446744073709551615

def orError {α : Type} (value : Option α) (message : String) : Except String α :=
  match value with
  | some a => .ok a
  | none => .error message

def embeddingVectorFileName (sha256 : List UInt8 → List UInt8) (nonce : Nat) (path : FilePath)
    (store : KnowledgeEmbeddingStore) : String :=
  generationFileName sha256 path ".vectors-v4-" (store.root ++ "::" ++ toString nonce) ".f32"

def embeddingHnswFileName (sha256 : List UInt8 → List UInt8) (nonce : Nat) (path : FilePath)
    (store : KnowledgeEmbeddingStore) : String :=
  generationFileName sha256 path ".vectors-v5-" (store.root ++ "::hnsw::" ++ toString nonce) ".hnsw"

def embeddingVectorFileNameIsSafe (fileName : String) : Bool :=
  fileNameIsSafe ".f32" fileName

def embeddingHnswFileNameIsSafe (fileName : String) : Bool :=
  fileNameIsSafe ".hnsw" fileName

def embeddingHnswPath (storePath : FilePath) (store : KnowledgeEmbeddingStore) :
    Except String FilePath :=
  (orError (store.hnswIndexFileName.filter embeddingHnswFileNameIsSafe)
    ("knowledge embedding store " ++ storePath.display ++ " is missing a safe HNSW index file")).map
      storePath.sibling

def embeddingVectorPath (storePath : FilePath) (store : KnowledgeEmbeddingStore) :
    Except String FilePath :=
  (orError (store.vectorFileName.filter embeddingVectorFileNameIsSafe)
    ("knowledge embedding store " ++ storePath.display ++ " is missing a safe vector file")).map
      storePath.sibling

def embeddingStorePathForRoot (sha256 : List UInt8 → List UInt8) (indexRoot root : String) :
    FilePath where
  parent := indexRoot
  fileName := rootStorageKey sha256 root ++ ".embeddings.json"

variable {ι : Type} (tools : EmbeddingTools ι)

def knownSchemaVersion (schemaVersion : Nat) : Bool :=
  schemaVersion = embeddingStoreSchemaVersion ||
    schemaVersion = hnswSnapshotEmbeddingStoreSchemaVersion ||
    schemaVersion = diskVectorEmbeddingStoreSchemaVersion ||
    schemaVersion = legacyEmbeddingStoreSchemaVersion

def hasVectorFile (schemaVersion : Nat) : Bool :=
  schemaVersion = embeddingStoreSchemaVersion ||
    schemaVersion = hnswSnapshotEmbeddingStoreSchemaVersion ||
    schemaVersion = diskVectorEmbeddingStoreSchemaVersion

def loadEmbeddingStore (path : FilePath) : Files ι KnowledgeEmbeddingStore := do
  if ← isFile path.fileName then
    let text ← orFail (readText path.fileName)
      ("failed to read knowledge embedding store " ++ path.display)
    let store ← orFail (fromExcept (tools.fromStr text))
      ("failed to parse knowledge embedding store " ++ path.display)
    if knownSchemaVersion store.schemaVersion then pure store else pure (emptyEmbeddingStore "")
  else pure (emptyEmbeddingStore "")

def validateEmbeddingVectorBytes (storePath : FilePath) (store : KnowledgeEmbeddingStore)
    (actualBytes : Nat) : Except String Unit := do
  let dimensions := store.vectorDimensions.getD 0
  let expectedBytes ← orError
    ((checkedMul store.entries.length dimensions).bind fun values => checkedMul values 4)
    ("knowledge embedding vector size overflow for " ++ storePath.display)
  if actualBytes ≠ expectedBytes then
    .error ("knowledge embedding vector file size mismatch for " ++ storePath.display ++
      ": expected " ++ toString expectedBytes ++ ", found " ++ toString actualBytes)
  else .ok ()

def withVectors (dimensions : Nat) (bytes : List UInt8) (entries : List KnowledgeEmbeddingEntry) :
    List KnowledgeEmbeddingEntry :=
  entries.mapIdx fun index entry => { entry with vector := readVector (rowAt dimensions index bytes) }

def loadEmbeddingStoreWithVectors (path : FilePath) : Files ι KnowledgeEmbeddingStore := do
  let store ← loadEmbeddingStore tools path
  if !hasVectorFile store.schemaVersion || store.entries.isEmpty then pure store
  else
    let dimensions ← fromExcept (orError (store.vectorDimensions.filter (0 < ·))
      ("knowledge embedding store " ++ path.display ++ " is missing vector dimensions"))
    let vectorPath ← fromExcept (embeddingVectorPath path store)
    let bytes ← orFail (readBytes vectorPath.fileName)
      ("failed to read knowledge embedding vector file " ++ vectorPath.display)
    fromExcept (validateEmbeddingVectorBytes path store bytes.length)
    pure { store with entries := withVectors dimensions bytes store.entries }

def writeCompactEmbeddingStore (path : FilePath) (store : KnowledgeEmbeddingStore) :
    Files ι Unit := do
  let payload ← orFail (fromExcept (tools.toStringPretty store))
    ("failed to serialize knowledge embedding store " ++ path.display)
  let temporaryPath := path.withExtension "json.tmp"
  orFail (writeFile temporaryPath.fileName (utf8 payload))
    ("failed to write knowledge embedding store " ++ temporaryPath.display)
  replaceFileWithRollback temporaryPath path

def removePreviousGeneration (extension : String) (previousFile currentFile : Option String) :
    Files ι Unit := do
  match previousFile with
  | some previous =>
      if previousFile ≠ currentFile ∧ fileNameIsSafe extension previous then
        if ← isFile previous then attempt (removeFile previous)
  | none => pure ()

def activeEntries (entries : List KnowledgeEmbeddingEntry) : List KnowledgeEmbeddingEntry :=
  entries.filter fun entry => !entry.superseded

def writeVectorFile (vectorPath : FilePath) (entries : List KnowledgeEmbeddingEntry) :
    Files ι Unit := do
  let temporaryPath := vectorPath.withExtension "f32.tmp"
  orFail (createFile temporaryPath.fileName)
    ("failed to create knowledge embedding vector file " ++ temporaryPath.display)
  orFail (appendBytes temporaryPath.fileName (rowsBytes (entries.map (·.vector))))
    ("failed to write knowledge embedding vector file " ++ temporaryPath.display)
  orFail (renameFile temporaryPath.fileName vectorPath.fileName)
    ("failed to publish knowledge embedding vector file " ++ vectorPath.display)

def writeHnswFile (hnswPath : FilePath) (entries : List KnowledgeEmbeddingEntry) :
    Files ι Unit := do
  let temporaryPath := hnswPath.withExtension "hnsw.tmp"
  keep temporaryPath.fileName (tools.build (entries.map (·.vector)))
  orFail (renameFile temporaryPath.fileName hnswPath.fileName)
    ("failed to publish knowledge HNSW index " ++ hnswPath.display)

def compactEntry (entry : KnowledgeEmbeddingEntry) : KnowledgeEmbeddingEntry :=
  { entry with superseded := false, vector := [] }

def savedDimensions (store : KnowledgeEmbeddingStore) (entries : List KnowledgeEmbeddingEntry) :
    Except String Nat := do
  let dimensions ← orError (store.vectorDimensions.filter (0 < ·))
    "knowledge embedding vectors are missing dimensions"
  if entries.any fun entry => entry.vector.length ≠ dimensions then
    .error ("knowledge embedding vectors do not all have " ++ toString dimensions ++ " dimensions")
  else .ok dimensions

/-- The metadata of a full save. -/
def compactStore (store : KnowledgeEmbeddingStore) (entries : List KnowledgeEmbeddingEntry)
    (vectorFileName hnswIndexFileName : Option String) : KnowledgeEmbeddingStore :=
  { store with
    schemaVersion := embeddingStoreSchemaVersion
    vectorFileName := vectorFileName
    hnswIndexFileName := hnswIndexFileName
    hnswEntryCount := hnswIndexFileName.map fun _ => entries.length
    entries := entries.map compactEntry }

def writeGeneration (nonces : Nonces) (path : FilePath) (store : KnowledgeEmbeddingStore)
    (entries : List KnowledgeEmbeddingEntry) : Files ι (Option String × Option String) := do
  if entries.isEmpty then pure (none, none)
  else
    let _ ← fromExcept (savedDimensions store entries)
    let vectorFileName := embeddingVectorFileName tools.sha256 nonces.vectors path store
    writeVectorFile (path.sibling vectorFileName) entries
    let hnswFileName := embeddingHnswFileName tools.sha256 nonces.hnsw path store
    writeHnswFile tools (path.sibling hnswFileName) entries
    pure (some vectorFileName, some hnswFileName)

def saveEmbeddingStoreOwned (nonces : Nonces) (path : FilePath) (store : KnowledgeEmbeddingStore) :
    Files ι Unit := do
  let entries := activeEntries store.entries
  let (vectorFileName, hnswIndexFileName) ← writeGeneration tools nonces path store entries
  writeCompactEmbeddingStore tools path (compactStore store entries vectorFileName hnswIndexFileName)
  removePreviousGeneration ".f32" store.vectorFileName vectorFileName
  removePreviousGeneration ".hnsw" store.hnswIndexFileName hnswIndexFileName

def saveEmbeddingStore (nonces : Nonces) (path : FilePath) (store : KnowledgeEmbeddingStore) :
    Files ι Unit :=
  saveEmbeddingStoreOwned tools nonces path store

def firstAppended (entries : List KnowledgeEmbeddingEntry) : Nat :=
  entries.findIdx fun entry => !entry.vector.isEmpty

def committedRows (store : KnowledgeEmbeddingStore) : Except String (Nat × Nat) := do
  let dimensions ← orError (store.vectorDimensions.filter (0 < ·))
    "knowledge embedding vectors are missing dimensions"
  let first := firstAppended store.entries
  if ((store.entries.take first).any fun entry => !entry.vector.isEmpty) ||
      (store.entries.drop first).any fun entry => entry.vector.length ≠ dimensions then
    .error ("knowledge incremental embedding vectors are not a contiguous " ++
      toString dimensions ++ "-dimension suffix")
  else .ok (dimensions, first)

def committedBytesOf (dimensions first : Nat) : Except String Nat := do
  let rowBytes ← orError (checkedMul dimensions 4) "knowledge embedding row size overflow"
  orError (checkedMul first rowBytes) "knowledge embedding vector size overflow"

def fileLength (name : String) : Files ι Nat :=
  readStep fun files => (bytesOf (files name)).map List.length

def mutableVectorPath (nonces : Nonces) (path : FilePath) (store : KnowledgeEmbeddingStore)
    (originalSchemaVersion : Nat) (currentVectorPath : FilePath) :
    Files ι (FilePath × Option String) := do
  if originalSchemaVersion = embeddingStoreSchemaVersion then
    pure (currentVectorPath, store.vectorFileName)
  else
    let fileName := embeddingVectorFileName tools.sha256 nonces.vectors path store
    let migratedPath := path.sibling fileName
    let temporaryPath := migratedPath.withExtension "f32.tmp"
    orFail (copyFile currentVectorPath.fileName temporaryPath.fileName)
      ("failed to stage mutable knowledge embedding vectors " ++ temporaryPath.display)
    orFail (renameFile temporaryPath.fileName migratedPath.fileName)
      ("failed to publish mutable knowledge embedding vectors " ++ migratedPath.display)
    pure (migratedPath, some fileName)

def appendVectors (vectorPath : FilePath) (committedBytes : Nat)
    (entries : List KnowledgeEmbeddingEntry) : Files ι Unit := do
  let _ ← orFail (fileLength vectorPath.fileName)
    ("failed to open mutable knowledge embedding vectors " ++ vectorPath.display)
  orFail (setLength vectorPath.fileName committedBytes)
    ("failed to recover mutable knowledge embedding vectors " ++ vectorPath.display)
  orFail (appendBytes vectorPath.fileName (rowsBytes (entries.map (·.vector))))
    ("failed to append knowledge embedding vectors " ++ vectorPath.display)

def incrementalStore (store : KnowledgeEmbeddingStore) (vectorFileName : Option String) :
    KnowledgeEmbeddingStore :=
  let first := firstAppended store.entries
  { store with
    schemaVersion := embeddingStoreSchemaVersion
    vectorFileName := vectorFileName
    hnswEntryCount := some (min (store.hnswEntryCount.getD first) first)
    entries := store.entries.map fun entry => { entry with vector := [] } }

def saveEmbeddingStoreIncremental (nonces : Nonces) (path : FilePath)
    (store : KnowledgeEmbeddingStore) (originalSchemaVersion : Nat) :
    Files ι KnowledgeEmbeddingStore := do
  let (dimensions, first) ← fromExcept (committedRows store)
  let currentVectorPath ← fromExcept (embeddingVectorPath path store)
  let committedBytes ← fromExcept (committedBytesOf dimensions first)
  let actualBytes ← orFail (fileLength currentVectorPath.fileName)
    ("failed to inspect knowledge embedding vector file " ++ currentVectorPath.display)
  if actualBytes < committedBytes then
    throw ("knowledge embedding vector file " ++ currentVectorPath.display ++
      " is shorter than committed metadata: expected at least " ++ toString committedBytes ++
      ", found " ++ toString actualBytes)
  else
    let (vectorPath, vectorFileName) ←
      mutableVectorPath tools nonces path store originalSchemaVersion currentVectorPath
    appendVectors vectorPath committedBytes (store.entries.drop first)
    let saved := incrementalStore store vectorFileName
    writeCompactEmbeddingStore tools path saved
    if originalSchemaVersion ≠ embeddingStoreSchemaVersion then
      removePreviousGeneration ".f32" store.vectorFileName vectorFileName
    pure saved

def embeddingStoreNeedsCompaction (store : KnowledgeEmbeddingStore) : Bool :=
  let entryCount := store.entries.length
  let baseCount := min (store.hnswEntryCount.getD entryCount) entryCount
  let deltaCount := entryCount - baseCount
  let supersededCount := (store.entries.filter (·.superseded)).length
  let activeCount := max (entryCount - supersededCount) 1
  embeddingCompactionMinDelta ≤ deltaCount || embeddingCompactionMinDelta ≤ supersededCount ||
    saturatingMul activeCount embeddingCompactionPercent ≤ saturatingMul deltaCount 100 ||
    saturatingMul activeCount embeddingCompactionPercent ≤ saturatingMul supersededCount 100

def compactEmbeddingStore (nonces : Nonces) (path : FilePath) : Files ι Unit := do
  let store ← loadEmbeddingStoreWithVectors tools path
  saveEmbeddingStoreOwned tools nonces path
    { store with entries := activeEntries store.entries, hnswEntryCount := none }

/-- The index alone is built anew. -/
def publishHnsw (nonces : Nonces) (path : FilePath) (store : KnowledgeEmbeddingStore) :
    Files ι FilePath := do
  let fileName := embeddingHnswFileName tools.sha256 nonces.hnsw path store
  let hnswPath := path.sibling fileName
  writeHnswFile tools hnswPath store.entries
  writeCompactEmbeddingStore tools path
    { store with
      schemaVersion := embeddingStoreSchemaVersion
      hnswIndexFileName := some fileName
      hnswEntryCount := some store.entries.length
      entries := store.entries.map fun entry => { entry with vector := [] } }
  removePreviousGeneration ".hnsw" store.hnswIndexFileName (some fileName)
  pure hnswPath

def rebuildEmbeddingHnsw (nonces : Nonces) (path : FilePath) : Files ι FilePath := do
  let loaded ← loadEmbeddingStoreWithVectors tools path
  let store := { loaded with entries := activeEntries loaded.entries }
  if store.entries.isEmpty then
    throw ("knowledge embedding store " ++ path.display ++ " has no vectors")
  else if loaded.entries.any (·.superseded) then
    saveEmbeddingStoreOwned tools nonces path store
    let saved ← loadEmbeddingStore tools path
    fromExcept (embeddingHnswPath path saved)
  else if (store.vectorFileName.filter embeddingVectorFileNameIsSafe).isSome then
    publishHnsw tools nonces path store
  else
    saveEmbeddingStoreOwned tools nonces path
      { store with schemaVersion := embeddingStoreSchemaVersion }
    let saved ← loadEmbeddingStore tools path
    fromExcept (embeddingHnswPath path saved)

end HarborBeacon.EmbeddingFiles
