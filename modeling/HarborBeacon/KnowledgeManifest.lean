import HarborBeacon.Chunking
import HarborBeacon.KnowledgeFiles
import HarborBeacon.Table

/-!
The manifest of a knowledge index. It is saved in two files: the entries themselves go to a payload
file, one after another, and the manifest keeps a short form of each entry and where its payload
lies.
-/

namespace HarborBeacon.KnowledgeManifest

open Chunking KnowledgeFiles NamedFiles Text TextEncoding

inductive KnowledgeModality where
  | document
  | image
  | audio
  | video
deriving DecidableEq

structure KnowledgeFileSignature where
  modifiedUnixMillis : Nat
  sizeBytes : Nat
deriving DecidableEq

structure KnowledgeIndexEntry where
  modality : KnowledgeModality
  path : String
  title : String
  searchableText : String
  parentChunks : List KnowledgeIndexParentChunk
  chunks : List KnowledgeIndexChunk
  textSources : List KnowledgeIndexTextSource
  sidecarPath : Option String
  fileSignature : KnowledgeFileSignature
  sidecarSignature : Option KnowledgeFileSignature
  processingWarnings : List String
  parserKey : Option String
  requiresAdvancedParser : Bool
deriving DecidableEq

structure KnowledgeIndexDirectory where
  path : String
  signature : KnowledgeFileSignature
deriving DecidableEq

structure KnowledgeIndexEntryPayloadRef where
  path : String
  offset : Nat
  length : Nat
deriving DecidableEq

structure KnowledgeIndexEntryPayloadStore where
  schemaVersion : Nat
  fileName : String
  entries : List KnowledgeIndexEntryPayloadRef
deriving DecidableEq

structure KnowledgeIndexManifest where
  schemaVersion : Nat
  root : String
  rootSignature : KnowledgeFileSignature
  generatedAt : String
  supportedFileCount : Option Nat
  directories : List KnowledgeIndexDirectory
  entries : List KnowledgeIndexEntry
  entryPayloadStore : Option KnowledgeIndexEntryPayloadStore
deriving DecidableEq

structure LoadedManifestState where
  manifest : KnowledgeIndexManifest
  entries : Table KnowledgeIndexEntry

/-- What `load_entry_payloads` reads of a snapshot. -/
structure KnowledgeIndexSnapshot where
  manifestPath : FilePath
  manifest : KnowledgeIndexManifest

def indexSchemaVersion : Nat := 3

def legacyIndexSchemaVersion : Nat := 2

def entryPayloadStoreSchemaVersion : Nat := 1

/-- The records as `serde_json` writes and reads them. -/
structure Serde where
  entryToVec : KnowledgeIndexEntry → Except String (List UInt8)
  entryFromSlice : List UInt8 → Except String KnowledgeIndexEntry
  manifestToStringPretty : KnowledgeIndexManifest → Except String String
  manifestFromStr : String → Except String KnowledgeIndexManifest

/-- What was written is read back as it was. -/
structure Serde.RoundTrips (serde : Serde) : Prop where
  entry : ∀ entry payload, serde.entryToVec entry = .ok payload →
    serde.entryFromSlice payload = .ok entry
  manifest : ∀ manifest text, serde.manifestToStringPretty manifest = .ok text →
    serde.manifestFromStr text = .ok manifest

def defaultManifest (currentTimestamp : String) : KnowledgeIndexManifest where
  schemaVersion := indexSchemaVersion
  root := ""
  rootSignature := { modifiedUnixMillis := 0, sizeBytes := 0 }
  generatedAt := currentTimestamp
  supportedFileCount := none
  directories := []
  entries := []
  entryPayloadStore := none

variable {ι : Type} (serde : Serde)

def normalizePayloadPath (path : String) : String :=
  replaceChar '\\' '/' path

/-- `selected_paths.is_none_or(..)`. -/
def isSelected (selectedPaths : Option (List String)) (path : String) : Bool :=
  selectedPaths.all fun paths => paths.contains (normalizePayloadPath path)

def loadReference (payloadPath : FilePath) (content : List UInt8)
    (reference : KnowledgeIndexEntryPayloadRef) : Except String KnowledgeIndexEntry := do
  let payload ← (readExact content reference.offset reference.length).mapError
    ("failed to read knowledge entry payload " ++ reference.path ++ " from " ++
      payloadPath.display ++ ": " ++ ·)
  (serde.entryFromSlice payload).mapError
    ("failed to parse knowledge entry payload " ++ reference.path ++ " from " ++
      payloadPath.display ++ ": " ++ ·)

def loadEntryPayloadStore (manifestPath : FilePath) (store : KnowledgeIndexEntryPayloadStore)
    (selectedPaths : Option (List String)) : Files ι (List KnowledgeIndexEntry) := do
  if store.schemaVersion ≠ entryPayloadStoreSchemaVersion then
    throw ("knowledge entry payload schema " ++ toString store.schemaVersion ++
      " is unsupported for " ++ manifestPath.display)
  else if !fileNameIsSafe ".jsonl" store.fileName then
    throw ("knowledge entry payload file name is unsafe for " ++ manifestPath.display)
  else
    let payloadPath := manifestPath.sibling store.fileName
    let content ← orFail (readBytes payloadPath.fileName)
      ("failed to open knowledge entry payload store " ++ payloadPath.display)
    fromExcept ((store.entries.filter fun reference => isSelected selectedPaths reference.path).mapM
      (loadReference serde payloadPath content))

def hydrateManifest (path : FilePath) (manifest : KnowledgeIndexManifest)
    (hydratePayloads : Bool) : Files ι KnowledgeIndexManifest := do
  match hydratePayloads, manifest.entryPayloadStore with
  | true, some store =>
      let entries ← loadEntryPayloadStore serde path store none
      pure { manifest with entries := entries }
  | _, _ => pure manifest

def entriesByPath (entries : List KnowledgeIndexEntry) : Table KnowledgeIndexEntry :=
  entries.foldl (fun table entry => table.insert entry.path entry) ∅

def loadManifestState (currentTimestamp : String) (path : FilePath) (hydratePayloads : Bool) :
    Files ι LoadedManifestState := do
  if ← isFile path.fileName then
    let text ← orFail (readText path.fileName)
      ("failed to read knowledge index manifest " ++ path.display)
    let manifest ← orFail (fromExcept (serde.manifestFromStr text))
      ("failed to parse knowledge index manifest " ++ path.display)
    if manifest.schemaVersion = indexSchemaVersion ∨
        manifest.schemaVersion = legacyIndexSchemaVersion then
      let manifest ← hydrateManifest serde path manifest hydratePayloads
      pure { manifest := manifest, entries := entriesByPath manifest.entries }
    else pure { manifest := defaultManifest currentTimestamp, entries := ∅ }
  else pure { manifest := defaultManifest currentTimestamp, entries := ∅ }

def loadEntryPayloads (snapshot : KnowledgeIndexSnapshot) (selectedPaths : Option (List String)) :
    Files ι (List KnowledgeIndexEntry) :=
  match snapshot.manifest.entryPayloadStore with
  | none => pure (snapshot.manifest.entries.filter fun entry => isSelected selectedPaths entry.path)
  | some store => loadEntryPayloadStore serde snapshot.manifestPath store selectedPaths

def indexedMark (text : String) : String :=
  if isBlank text then "" else "indexed"

def compactManifestEntry (entry : KnowledgeIndexEntry) : KnowledgeIndexEntry :=
  { entry with
    searchableText := indexedMark entry.searchableText
    parentChunks := []
    chunks := []
    textSources := entry.textSources.map fun source =>
      { source with text := indexedMark source.text } }

/-- The clock in nanoseconds and the digest that names are made with. -/
structure Generations where
  sha256 : List UInt8 → List UInt8
  nonce : Nat

def entryPayloadFileName (generations : Generations) (path : FilePath)
    (manifest : KnowledgeIndexManifest) : String :=
  generationFileName generations.sha256 path ".entries-v3-"
    (manifest.root ++ "::" ++ manifest.generatedAt ++ "::" ++ toString generations.nonce) ".jsonl"

/-- `saturating_add` on offsets. -/
def advanceOffset (offset length : Nat) : Nat :=
  min (offset + length) (2 ^ 64 - 1)

/-- The loop over the entries, which returns where their payloads lie. -/
def writePayloads (temporaryPath : FilePath) :
    List KnowledgeIndexEntry → Nat → Files ι (List KnowledgeIndexEntryPayloadRef)
  | [], _ => pure []
  | entry :: rest, payloadOffset => do
      let payload ← orFail (fromExcept (serde.entryToVec entry))
        ("failed to serialize knowledge entry payload for " ++ entry.path)
      orFail (appendBytes temporaryPath.fileName payload)
        ("failed to write knowledge entry payload store " ++ temporaryPath.display)
      orFail (appendBytes temporaryPath.fileName [10])
        ("failed to terminate knowledge entry payload in " ++ temporaryPath.display)
      let payloadRefs ← writePayloads temporaryPath rest
        (advanceOffset payloadOffset (payload.length + 1))
      pure ({ path := entry.path, offset := payloadOffset, length := payload.length } ::
        payloadRefs)

def compactManifest (manifest : KnowledgeIndexManifest) (payloadFileName : String)
    (payloadRefs : List KnowledgeIndexEntryPayloadRef) : KnowledgeIndexManifest :=
  { manifest with
    schemaVersion := indexSchemaVersion
    entries := manifest.entries.map compactManifestEntry
    entryPayloadStore := some
      { schemaVersion := entryPayloadStoreSchemaVersion
        fileName := payloadFileName
        entries := payloadRefs } }

def removePreviousPayload (previousPayloadFile : Option String) (payloadFileName : String) :
    Files ι Unit := do
  match previousPayloadFile with
  | some previous =>
      if previous ≠ payloadFileName ∧ fileNameIsSafe ".jsonl" previous then
        if ← isFile previous then attempt (removeFile previous)
  | none => pure ()

def writeManifest (path : FilePath) (manifest : KnowledgeIndexManifest) : Files ι Unit := do
  let payload ← orFail (fromExcept (serde.manifestToStringPretty manifest))
    ("failed to serialize knowledge index manifest " ++ path.display)
  let temporaryPath := path.withExtension "json.tmp"
  orFail (writeFile temporaryPath.fileName (utf8 payload))
    ("failed to write knowledge index manifest " ++ temporaryPath.display)
  replaceFileWithRollback temporaryPath path

def saveManifest (generations : Generations) (path : FilePath) (manifest : KnowledgeIndexManifest)
    (previousPayloadFile : Option String) : Files ι Unit := do
  let payloadFileName := entryPayloadFileName generations path manifest
  let payloadPath := path.sibling payloadFileName
  let payloadTemporaryPath := payloadPath.withExtension "jsonl.tmp"
  orFail (createFile payloadTemporaryPath.fileName)
    ("failed to create knowledge entry payload store " ++ payloadTemporaryPath.display)
  let payloadRefs ← writePayloads serde payloadTemporaryPath manifest.entries 0
  orFail (renameFile payloadTemporaryPath.fileName payloadPath.fileName)
    ("failed to publish knowledge entry payload store " ++ payloadPath.display)
  writeManifest serde path (compactManifest manifest payloadFileName payloadRefs)
  removePreviousPayload previousPayloadFile payloadFileName

def manifestPathForRoot (sha256 : List UInt8 → List UInt8) (indexRoot root : String) : FilePath where
  parent := indexRoot
  fileName := rootStorageKey sha256 root ++ ".json"

end HarborBeacon.KnowledgeManifest
