import HarborBeacon.CatRecordingLedger
import HarborBeacon.CrashSafety
import HarborBeacon.DecimalText

/-!
The ledger of cat recordings on disk. Records are appended to the main file; when that file
has grown to the threshold it is copied into an archive and started anew. A counter in a file
of its own, the generation, grows with every append, numbers the archives, and tells a process
that the records it keeps in memory are out of date.
-/

namespace HarborBeacon.CatRecordingValidation

open DecimalText LineLog

def maxStoreBytes : Nat := 64 * 1024 * 1024

def compactionThresholdBytes : Nat := 48 * 1024 * 1024

def maxRecordBytes : Nat := 64 * 1024

def scanChunkBytes : Nat := 8 * 1024

abbrev Bytes := List UInt8

def newline : UInt8 := 10

def carriageReturn : UInt8 := 13

structure SecureFileIdentity where
  device : Nat
  inode : Nat
deriving DecidableEq

structure FileStamp where
  modifiedEpochNanos : Option Nat
  identity : SecureFileIdentity

/-- What the store calls outside this repository: `serde_json::to_vec` and `from_slice` on
records (a record always serialises), the file system, which stamps the file that its n-th
write leaves, and SHA-256. -/
structure Platform where
  toVec : CatRecordingValidationRecord → Bytes
  fromSlice : Bytes → Except String CatRecordingValidationRecord
  stampOf : Nat → FileStamp
  sha256 : List UInt8 → List UInt8

structure CatRecordingValidationStore where
  platform : Platform
  parent : String
  fileName : String
  compactionThresholdBytes : Nat := CatRecordingValidation.compactionThresholdBytes
  threshold_le : compactionThresholdBytes ≤ maxStoreBytes := by decide

structure SecureOpenedFile where
  bytes : Bytes
  modifiedEpochNanos : Option Nat
  identity : SecureFileIdentity

/-- The directory of a store: its main file, the generation file, and the other entries in the
order of a listing. The main file, the generation file, the lock file and temporary files never
begin like an archive. -/
structure StoreFiles where
  main : Option SecureOpenedFile := none
  generation : Option Bytes := none
  siblings : List (String × Bytes) := []
  written : Nat := 0

structure ValidationMainFingerprint where
  len : Nat
  modifiedEpochNanos : Option Nat
  identity : SecureFileIdentity
deriving DecidableEq

structure ValidationStoreFingerprint where
  generation : Nat
  main : Option ValidationMainFingerprint
deriving DecidableEq

structure ValidationArchiveSegment where
  generation : Nat
  name : String

structure ValidationStoreIndex where
  initialized : Bool := false
  latest : Latest := ∅
  fingerprint : Option ValidationStoreFingerprint := none
  compactionCount : Nat := 0
  diskScanCount : Nat := 0

structure ValidationStorePersistResult where
  fingerprint : ValidationStoreFingerprint
  compacted : Bool

/-- The directory, and the index that each process keeps in memory. -/
structure StoreWorld where
  files : StoreFiles := {}
  index : Nat → ValidationStoreIndex := fun _ => {}

def StoreWorld.setIndex (w : StoreWorld) (process : Nat) (index : ValidationStoreIndex) :
    StoreWorld :=
  { w with index := Function.update w.index process index }

@[simp] theorem StoreWorld.setIndex_self (w : StoreWorld) (process : Nat)
    (index : ValidationStoreIndex) : (w.setIndex process index).index process = index := by
  simp only [setIndex, Function.update_self]

theorem StoreWorld.setIndex_of_ne (w : StoreWorld) {process other : Nat} (h : other ≠ process)
    (index : ValidationStoreIndex) : (w.setIndex process index).index other = w.index other := by
  simp only [setIndex, Function.update_of_ne h]

/-- `parse::<u64>` of a text of decimal digits. -/
def parseU64 (digits : List Char) : Option Nat :=
  if value digits < 2 ^ 64 then some (value digits) else none

def generationLine (generation : Nat) : Bytes :=
  (zeroPadded 20 generation).map (fun c => c.toNat.toUInt8) ++ [newline]

def isAsciiDigit (byte : UInt8) : Bool :=
  48 ≤ byte && byte ≤ 57

def readGenerationSidecar (files : StoreFiles) : Except String (Option Nat) :=
  match files.generation with
  | none => .ok none
  | some bytes =>
      if bytes.length ≠ 21 ∨ bytes[20]? ≠ some newline ∨ ¬(bytes.take 20).all isAsciiDigit then
        .error "cat recording validation generation is invalid"
      else
        match parseU64 ((bytes.take 20).map fun byte => Char.ofNat byte.toNat) with
        | none => .error "cat recording validation generation is invalid"
        | some generation => .ok (some generation)

def archiveStart (fileName : String) : String :=
  fileName ++ ".archive."

def validationStoreArchiveName (fileName : String) (generation : Nat) : String :=
  archiveStart fileName ++ String.ofList (zeroPadded 20 generation) ++ ".jsonl"

/-- The generation in the name of a directory entry, `none` for an entry that is not an
archive. -/
def archiveGeneration (fileName nameText : String) : Except String (Option Nat) :=
  match nameText.toList.dropPrefix? (archiveStart fileName).toList with
  | none => .ok none
  | some remainder =>
      match remainder.dropSuffix? ".jsonl".toList with
      | none => .error ("invalid cat recording validation archive name: " ++ nameText)
      | some generationText =>
          if generationText.length ≠ 20 ∨ ¬generationText.all Char.isDigit then
            .error ("invalid cat recording validation archive generation: " ++ nameText)
          else
            match parseU64 generationText with
            | none => .error ("invalid cat recording validation archive generation: " ++
                "number too large to fit in target type")
            | some generation => .ok (some generation)

def archiveSegments (fileName : String) (files : StoreFiles) :
    Except String (List ValidationArchiveSegment) := do
  let archives ← files.siblings.filterMapM fun entry => do
    let generation ← archiveGeneration fileName entry.1
    return generation.map fun generation => { generation := generation, name := entry.1 }
  return archives.mergeSort fun a b => a.generation ≤ b.generation

def readGeneration (archives : List ValidationArchiveSegment) (files : StoreFiles) :
    Except String Nat := do
  let maxArchiveGeneration := archives.getLast?.map (·.generation)
  match ← readGenerationSidecar files with
  | none =>
      if maxArchiveGeneration.isSome then
        .error "cat recording validation generation is missing while archives exist"
      else .ok 0
  | some generation =>
      if maxArchiveGeneration.any fun archive => generation < archive then
        .error "cat recording validation generation is behind immutable archives"
      else .ok generation

def storeFingerprint (files : StoreFiles) : Except String ValidationStoreFingerprint := do
  let generation ← readGenerationSidecar files
  return {
    generation := generation.getD 0
    main := files.main.map fun opened =>
      { len := opened.bytes.length
        modifiedEpochNanos := opened.modifiedEpochNanos
        identity := opened.identity } }

section Scanning

variable (platform : Platform)

def applyStrictLine (path : String) (latest : Latest) (line : Bytes) : Except String Latest :=
  if line = [] ∨ maxRecordBytes < line.length then
    .error ("cat recording validation archive contains an invalid record: " ++ path)
  else
    match platform.fromSlice line with
    | .error error => .error
        ("cat recording validation archive contains invalid JSON " ++ path ++ ": " ++ error)
    | .ok record => .ok (latest.store record)

def applyStrictArchiveRecords (path : String) (bytes : Bytes) (latest : Latest) :
    Except String Latest :=
  if bytes = [] ∨ bytes.getLast? ≠ some newline then
    .error ("cat recording validation archive is incomplete: " ++ path)
  else (bytes.dropLast.splitOn newline).foldlM (applyStrictLine platform path) latest

def isUtf8 (bytes : Bytes) : Bool :=
  (ByteArray.mk bytes.toArray).validateUTF8

/-- `BufRead::lines` drops a carriage return before the line break. -/
def stripCarriageReturn (line : Bytes) : Bytes :=
  if line.getLast? = some carriageReturn then line.dropLast else line

/-- A line of the main file, if it is a record. On valid UTF-8 `serde_json::from_str` does what
`from_slice` does. -/
def scanLine (line : Bytes) : Option CatRecordingValidationRecord :=
  let line := stripCarriageReturn line
  if ¬isUtf8 line ∨ maxRecordBytes < line.length then none
  else (platform.fromSlice line).toOption

def scanArchive (parent : String) (files : StoreFiles) (latest : Latest)
    (archive : ValidationArchiveSegment) : Except String Latest :=
  let path := parent ++ "/" ++ archive.name
  match files.siblings.lookup archive.name with
  | none => .error ("cat recording validation archive disappeared: " ++ path)
  | some bytes =>
      if maxStoreBytes < bytes.length then
        .error ("cat recording validation archive exceeds " ++ toString maxStoreBytes ++
          " bytes: " ++ path)
      else applyStrictArchiveRecords platform path bytes latest

end Scanning

abbrev StoreProgram := ExceptT String (FileProgram StoreWorld Empty)

def readFiles {α : Type} (f : StoreFiles → Except String α) : StoreProgram α :=
  ExceptT.mk (FileProgram.read fun w => f w.files)

def modifyFiles (f : StoreFiles → StoreFiles) : StoreProgram Unit :=
  ExceptT.lift (FileProgram.modify fun w => { w with files := f w.files })

def readIndex (process : Nat) : StoreProgram ValidationStoreIndex :=
  ExceptT.lift (FileProgram.read fun w => w.index process)

def modifyIndex (process : Nat) (f : ValidationStoreIndex → ValidationStoreIndex) :
    StoreProgram Unit :=
  ExceptT.lift (FileProgram.modify fun w => w.setIndex process (f (w.index process)))

def StoreFiles.replaceMain (platform : Platform) (bytes : Bytes) (files : StoreFiles) :
    StoreFiles :=
  { files with
    main := some
      { bytes := bytes
        modifiedEpochNanos := (platform.stampOf files.written).modifiedEpochNanos
        identity := (platform.stampOf files.written).identity }
    written := files.written + 1 }

def StoreFiles.rewriteMain (platform : Platform) (f : Bytes → Bytes) (files : StoreFiles) :
    StoreFiles :=
  { files with
    main := files.main.map fun opened =>
      { opened with
        bytes := f opened.bytes
        modifiedEpochNanos := (platform.stampOf files.written).modifiedEpochNanos }
    written := files.written + 1 }

def openDataAppendCreate (platform : Platform) : StoreProgram Unit :=
  modifyFiles fun files => if files.main.isSome then files else files.replaceMain platform []

def writeAll (platform : Platform) : Bytes → StoreProgram Unit
  | [] => pure ()
  | byte :: rest => do
      modifyFiles (StoreFiles.rewriteMain platform (· ++ [byte]))
      writeAll platform rest

/-- The file appears under its name at once, and never in the place of another. -/
def createSiblingAtomically (name : String) (bytes : Bytes) : StoreProgram Unit := do
  readFiles fun files =>
    if files.siblings.any fun entry => entry.1 = name then
      .error "durable store data already exists"
    else .ok ()
  modifyFiles fun files => { files with siblings := files.siblings ++ [(name, bytes)] }

def replaceDataAtomically (platform : Platform) (bytes : Bytes) : StoreProgram Unit :=
  modifyFiles (StoreFiles.replaceMain platform bytes)

/-- `rposition` of a line break. -/
def lastNewline? (chunk : Bytes) : Option Nat :=
  (chunk.reverse.findIdx? (· == newline)).map fun i => chunk.length - 1 - i

def truncateTo (bytes : Bytes) (position : Nat) : Nat :=
  let chunkLen := min position scanChunkBytes
  let start := position - chunkLen
  match lastNewline? ((bytes.drop start).take chunkLen) with
  | some newlineIndex => start + newlineIndex + 1
  | none => if start = 0 then 0 else truncateTo bytes start
termination_by position
decreasing_by
  simp only [scanChunkBytes] at *
  omega

/-- Whether a line without its line break was cut off. -/
def repairValidationStoreTruncatedTail (platform : Platform) : StoreProgram Bool := do
  match ← readFiles fun files => .ok files.main with
  | none => return false
  | some opened =>
      if opened.bytes = [] ∨ opened.bytes.getLast? = some newline then return false
      else
        modifyFiles (StoreFiles.rewriteMain platform fun bytes =>
          bytes.take (truncateTo bytes bytes.length))
        return true

section Appending

variable (store : CatRecordingValidationStore)

def scanLatestUnlocked (files : StoreFiles) : Except String Latest := do
  let archives ← archiveSegments store.fileName files
  let _ ← readGeneration archives files
  let latest ← archives.foldlM (scanArchive store.platform store.parent files) ∅
  match files.main with
  | none => .ok latest
  | some opened =>
      if maxStoreBytes < opened.bytes.length then
        .error ("cat recording validation store exceeds " ++ toString maxStoreBytes ++ " bytes")
      else
        .ok (latest.storeAll
          ((readLines newline opened.bytes).filterMap (scanLine store.platform)))

def advanceGeneration : StoreProgram Nat := do
  let generation ← readFiles readGenerationSidecar
  let generation := generation.getD 0 + 1
  if generation < 2 ^ 64 then
    modifyFiles fun files => { files with generation := some (generationLine generation) }
    return generation
  else throw "cat recording validation generation is exhausted"

/-- Copy the main file into an archive and start it anew with one line. -/
def rotateUnlocked (line : Bytes) (generation : Nat) : StoreProgram Unit := do
  match ← readFiles fun files => .ok files.main with
  | none => throw "cat recording validation active segment disappeared"
  | some opened =>
      if maxStoreBytes < opened.bytes.length then
        throw ("cat recording validation store exceeds " ++ toString maxStoreBytes ++ " bytes")
      else
        let archiveName := validationStoreArchiveName store.fileName generation
        let archivePath := store.parent ++ "/" ++ archiveName
        let _ ← readFiles fun _ =>
          applyStrictArchiveRecords store.platform archivePath opened.bytes ∅
        (createSiblingAtomically archiveName opened.bytes).adapt fun error =>
          "failed to publish cat recording validation archive " ++ archivePath ++ ": " ++ error
        replaceDataAtomically store.platform (line ++ [newline])

def compacted (currentBytes recordBytes : Nat) : Bool :=
  let projectedBytes := saturatingAdd 64 currentBytes recordBytes
  decide (0 < currentBytes) && decide (store.compactionThresholdBytes < projectedBytes)

def appendLine (line : Bytes) : StoreProgram Unit := do
  openDataAppendCreate store.platform
  writeAll store.platform (line ++ [newline])

def writeLine (line : Bytes) (generation : Nat) (compacted : Bool) : StoreProgram Unit :=
  if compacted then rotateUnlocked store line generation else appendLine store line

def appendUnlocked (record : CatRecordingValidationRecord) :
    StoreProgram ValidationStorePersistResult := do
  let line := store.platform.toVec record
  if maxRecordBytes < line.length then
    throw "cat recording validation record is too large"
  else
    let recordBytes := line.length + 1
    if store.compactionThresholdBytes < recordBytes ∨ maxStoreBytes < recordBytes then
      throw "cat recording validation record exceeds active segment limit"
    else
      let currentBytes ← readFiles fun files =>
        .ok (files.main.elim 0 fun opened => opened.bytes.length)
      let generation ← advanceGeneration
      let compacted := compacted store currentBytes recordBytes
      writeLine store line generation compacted
      let fingerprint ← readFiles storeFingerprint
      return { fingerprint := fingerprint, compacted := compacted }

variable (process : Nat)

def persistIndexRecord (record : CatRecordingValidationRecord) :
    StoreProgram CatRecordingValidationRecord := do
  let persisted ← appendUnlocked store record
  modifyIndex process fun index =>
    { index with
      latest := index.latest.store record
      fingerprint := some persisted.fingerprint
      compactionCount :=
        if persisted.compacted then saturatingAdd 64 index.compactionCount 1
        else index.compactionCount }
  return record

def refreshIndexIfNeeded : StoreProgram Unit := do
  let fingerprint ← readFiles storeFingerprint
  let index ← readIndex process
  if index.initialized = true ∧ index.fingerprint = some fingerprint then return ()
  else
    let latest ← readFiles (scanLatestUnlocked store)
    modifyIndex process fun index => { index with latest := latest }
    let fingerprint ← readFiles storeFingerprint
    modifyIndex process fun index =>
      { index with
        fingerprint := some fingerprint
        initialized := true
        diskScanCount := saturatingAdd 64 index.diskScanCount 1 }

def withLockedIndex {α : Type} (operation : StoreProgram α) : StoreProgram α := do
  let repaired ← repairValidationStoreTruncatedTail store.platform
  if repaired then
    modifyIndex process fun index => { index with initialized := false }
  refreshIndexIfNeeded store process
  operation

end Appending

section Operations

variable (store : CatRecordingValidationStore) (process : Nat)

inductive StoreOp where
  | query
  | ledger (op : LedgerOp)

def StoreOp.plan (sha256 : List UInt8 → List UInt8) (latest : Latest) :
    StoreOp → Plan (Option LedgerAnswer)
  | .query => .keep none
  | .ledger op => (op.plan sha256 latest).map some

def persistAll : List CatRecordingValidationRecord → StoreProgram Unit
  | [] => pure ()
  | record :: rest => do
      let _ ← persistIndexRecord store process record
      persistAll rest

def perform (op : StoreOp) : StoreProgram (Option LedgerAnswer) :=
  withLockedIndex store process do
    let index ← readIndex process
    let plan := op.plan store.platform.sha256 index.latest
    persistAll store process plan.writes
    readFiles fun _ => plan.answer

/-- What a process that starts anew reads from the directory. -/
def load (files : StoreFiles) : Except String Latest :=
  let fresh : StoreProgram Latest := withLockedIndex store 0 do
    let index ← readIndex 0
    return index.latest
  (fresh.run.exec { files := files }).result

end Operations

end HarborBeacon.CatRecordingValidation
