import HarborBeacon.KnowledgeManifest
import HarborBeacon.Results

/-!
The round trip of a manifest. Every payload lies where its reference says, so that a saved manifest
gives back its entries, all of them or a selection, as a manifest does that holds them itself.
-/

namespace HarborBeacon.ManifestRoundTrip

open FileProgram KnowledgeFiles KnowledgeManifest NamedFiles Text TextEncoding

variable {ι : Type} {serde : Serde} {α κ : Type}

def payloadBytes (payloads : List (List UInt8)) : List UInt8 :=
  payloads.flatMap (· ++ [10])

def refsFrom : Nat → List KnowledgeIndexEntry → List (List UInt8) →
    List KnowledgeIndexEntryPayloadRef
  | offset, entry :: entries, payload :: payloads =>
      { path := entry.path, offset := offset, length := payload.length } ::
        refsFrom (offset + (payload.length + 1)) entries payloads
  | _, _, _ => []

def Serialized (serde : Serde) (entries : List KnowledgeIndexEntry)
    (payloads : List (List UInt8)) : Prop :=
  List.Forall₂ (fun entry payload => serde.entryToVec entry = .ok payload) entries payloads

theorem readExact_payload (before payload after : List UInt8) :
    readExact (before ++ payload ++ after) before.length payload.length = .ok payload := by
  rw [readExact, if_pos (by simp), List.append_assoc, List.drop_left, List.take_left]

theorem loadReference_eq (h : serde.RoundTrips) {payloadPath : FilePath}
    {before payload after : List UInt8} {entry : KnowledgeIndexEntry}
    (hpayload : serde.entryToVec entry = .ok payload) :
    loadReference serde payloadPath (before ++ payload ++ after)
      { path := entry.path, offset := before.length, length := payload.length } = .ok entry := by
  rw [loadReference, readExact_payload]
  change (serde.entryFromSlice payload).mapError _ = .ok entry
  rw [h.entry entry payload hpayload]
  rfl

theorem mapM_loadReference (h : serde.RoundTrips) (payloadPath : FilePath)
    (selectedPaths : Option (List String)) {entries : List KnowledgeIndexEntry}
    {payloads : List (List UInt8)} (hpayloads : Serialized serde entries payloads)
    (before : List UInt8) :
    ((refsFrom before.length entries payloads).filter fun reference =>
        isSelected selectedPaths reference.path).mapM
      (loadReference serde payloadPath (before ++ payloadBytes payloads)) =
        .ok (entries.filter fun entry => isSelected selectedPaths entry.path) := by
  induction hpayloads generalizing before with
  | nil => rfl
  | @cons entry payload entries payloads hpayload _ ih =>
      have hcontent : before ++ payloadBytes (payload :: payloads) =
          (before ++ payload ++ [10]) ++ payloadBytes payloads := by
        simp [payloadBytes]
      have hoffset : before.length + (payload.length + 1) = (before ++ payload ++ [10]).length := by
        simp
      have hfirst : loadReference serde payloadPath (before ++ payloadBytes (payload :: payloads))
          { path := entry.path, offset := before.length, length := payload.length } = .ok entry := by
        rw [hcontent, List.append_assoc (before ++ payload)]
        exact loadReference_eq h hpayload
      have hrest := ih (before ++ payload ++ [10])
      rw [← hoffset, ← hcontent] at hrest
      rw [refsFrom, List.filter_cons, List.filter_cons]
      split
      · rw [List.mapM_cons, hfirst, hrest]
        rfl
      · exact hrest

section Saves

variable {files : Directory ι}

theorem advanceOffset_eq {offset length : Nat} (h : offset + length ≤ maxFileLength) :
    advanceOffset offset length = offset + length := by
  have hmax : maxFileLength = 2 ^ 63 - 1 := rfl
  rw [advanceOffset]
  omega

theorem runs_writePayloads {temporaryPath : FilePath} {entries : List KnowledgeIndexEntry}
    {content : List UInt8}
    (hfile : files temporaryPath.fileName = some (.bytes content))
    (hlength : content.length ≤ maxFileLength) :
    Runs (writePayloads serde temporaryPath entries content.length) files (fun _ => True)
      fun payloadRefs files' => ∃ payloads, Serialized serde entries payloads ∧
        payloadRefs = refsFrom content.length entries payloads ∧
        files' = Function.update files temporaryPath.fileName
          (some (.bytes (content ++ payloadBytes payloads))) := by
  induction entries generalizing files content with
  | nil =>
      refine runs_pure trivial ⟨[], List.Forall₂.nil, rfl, ?_⟩
      rw [payloadBytes, List.flatMap_nil, List.append_nil, ← hfile, Function.update_eq_self]
  | cons entry rest ih =>
      rw [writePayloads]
      refine runs_seq (runs_orFail (runs_fromExcept trivial fun payload hpayload => ?_))
      refine runs_seq (runs_orFail (runs_appendBytes hfile (fun _ _ => trivial) fun hfits => ?_))
      refine runs_seq (runs_orFail (runs_appendBytes (Function.update_self ..)
        (fun _ _ => trivial) fun hline => ?_))
      have hend : (content ++ payload ++ [10]).length = content.length + (payload.length + 1) := by
        simp
      have hlineLength := hline (hfits hlength)
      rw [advanceOffset_eq (hend ▸ hlineLength), ← hend, Function.update_idem]
      refine runs_bind (ih (Function.update_self ..) hlineLength) ?_
      rintro _ files' ⟨payloads, hpayloads, rfl, hfiles'⟩
      refine runs_pure trivial ⟨payload :: payloads, List.Forall₂.cons hpayload hpayloads, ?_, ?_⟩
      · rw [refsFrom, ← hend]
      · rw [hfiles', Function.update_idem]
        simp [payloadBytes]

/-- What a save leaves behind. -/
structure Saved (serde : Serde) (path : FilePath) (manifest : KnowledgeIndexManifest)
    (payloadFileName : String) (files : Directory ι) : Prop where
  safe : fileNameIsSafe ".jsonl" payloadFileName = true
  content : ∃ payloads text, Serialized serde manifest.entries payloads ∧
    serde.manifestToStringPretty (compactManifest manifest payloadFileName
      (refsFrom 0 manifest.entries payloads)) = .ok text ∧
    files payloadFileName = some (.bytes (payloadBytes payloads)) ∧
    files path.fileName = some (.bytes (utf8 text))

structure ManifestPath (path : FilePath) : Prop where
  last : path.fileName.toList.getLast? = some 'n'
  slash : '/' ∉ path.fileName.toList

theorem manifestPath_manifestPathForRoot (sha256 : List UInt8 → List UInt8)
    (indexRoot root : String) : ManifestPath (manifestPathForRoot sha256 indexRoot root) := by
  constructor
  · exact getLast?_append _ (by decide)
  · rw [manifestPathForRoot, rootStorageKey, String.toList_append, String.toList_ofList,
      List.mem_append, not_or]
    exact ⟨slash_not_mem_hex _, by decide⟩

theorem runs_writeManifest {path : FilePath} (hpath : ManifestPath path)
    {manifest : KnowledgeIndexManifest} {other : String} (hother : other ≠ path.fileName)
    (htemporary : other ≠ (path.withExtension "json.tmp").fileName)
    (hbackup : other ≠ (path.withExtension "json.previous").fileName) :
    Runs (writeManifest serde path manifest) files (fun _ => True) fun _ files' =>
      files' other = files other ∧ ∃ text, serde.manifestToStringPretty manifest = .ok text ∧
        files' path.fileName = some (.bytes (utf8 text)) := by
  have hlast := getLast?_withExtension path (show "json.tmp".toList.getLast? = some 'p' by decide)
  have hlast' := getLast?_withExtension path
    (show "json.previous".toList.getLast? = some 's' by decide)
  rw [writeManifest]
  refine runs_seq (runs_orFail (runs_fromExcept trivial fun text htext => ?_))
  refine runs_seq (runs_orFail (runs_writeFile trivial (fun _ _ => trivial) fun _ => ?_))
  refine runs_replaceFileWithRollback (Function.update_self ..) ?_ ?_ ?_ (fun _ _ => trivial) ?_
  · exact ne_of_getLast? (by rw [hlast, hpath.last]; decide)
  · exact ne_of_getLast? (by rw [hlast, hlast']; decide)
  · exact ne_of_getLast? (by rw [hpath.last, hlast']; decide)
  · intro files' hreplacing hpublished
    refine ⟨?_, text, htext, hpublished⟩
    rw [hreplacing.others other htemporary hother hbackup, Function.update_of_ne htemporary]

theorem runs_removePreviousPayload {previousPayloadFile : Option String}
    {payloadFileName other : String} (hother : other.toList.getLast? = some 'n') :
    Runs (removePreviousPayload previousPayloadFile payloadFileName) files (fun _ => True)
      fun _ files' => files' payloadFileName = files payloadFileName ∧
        files' other = files other := by
  cases previousPayloadFile with
  | none => exact runs_pure trivial ⟨rfl, rfl⟩
  | some previous =>
      rw [removePreviousPayload]
      split
      · rename_i hprevious
        have hlast := getLast?_of_endsWithText (Bool.and_eq_true_iff.mp hprevious.2).2
          (show ".jsonl".toList.getLast? = some 'l' by decide)
        have hne : other ≠ previous := ne_of_getLast? (by rw [hother, hlast]; decide)
        refine runs_seq (runs_isFile trivial ?_)
        split
        · refine runs_attempt_removeFile trivial trivial ?_
          exact ⟨Function.update_of_ne hprevious.1.symm _ _, Function.update_of_ne hne _ _⟩
        · exact runs_pure trivial ⟨rfl, rfl⟩
      · exact runs_pure trivial ⟨rfl, rfl⟩

/-- A save that returns leaves the payloads and the manifest behind. -/
theorem runs_saveManifest {path : FilePath} (hpath : ManifestPath path)
    (generations : Generations) (manifest : KnowledgeIndexManifest)
    (previousPayloadFile : Option String) :
    Runs (saveManifest serde generations path manifest previousPayloadFile) files (fun _ => True)
      fun _ files' =>
        Saved serde path manifest (entryPayloadFileName generations path manifest) files' := by
  have hjsonl : ".jsonl".toList.getLast? = some 'l' := by decide
  have hlast : (entryPayloadFileName generations path manifest).toList.getLast? = some 'l' :=
    getLast?_generationFileName _ _ _ _ hjsonl
  have htemporary := getLast?_withExtension (path.sibling (entryPayloadFileName generations path
    manifest)) (show "jsonl.tmp".toList.getLast? = some 'p' by decide)
  have hsafe : fileNameIsSafe ".jsonl" (entryPayloadFileName generations path manifest) = true :=
    fileNameIsSafe_generationFileName _ hpath.slash (by decide) (by decide) hjsonl (by decide)
  have hmanifestTemporary := getLast?_withExtension path
    (show "json.tmp".toList.getLast? = some 'p' by decide)
  have hmanifestBackup := getLast?_withExtension path
    (show "json.previous".toList.getLast? = some 's' by decide)
  rw [saveManifest]
  generalize entryPayloadFileName generations path manifest = payloadFileName at *
  generalize ((path.sibling payloadFileName).withExtension "jsonl.tmp") = temporaryPath at *
  refine runs_seq (runs_orFail (runs_createFile trivial trivial ?_))
  have hempty : Function.update files temporaryPath.fileName (some (.bytes []))
      temporaryPath.fileName = some (.bytes []) := Function.update_self ..
  refine runs_bind (runs_writePayloads hempty (Nat.zero_le _)) ?_
  rintro _ files₁ ⟨payloads, hpayloads, rfl, hfiles₁⟩
  refine runs_seq (runs_orFail (runs_renameFile trivial fun content hcontent => ⟨trivial, ?_⟩))
  rw [hfiles₁, Function.update_self, List.nil_append, Option.some.injEq] at hcontent
  have hpathNe : payloadFileName ≠ path.fileName :=
    ne_of_getLast? (by rw [hlast, hpath.last]; decide)
  refine runs_bind (runs_writeManifest hpath hpathNe ?_ ?_) ?_
  · exact ne_of_getLast? (by rw [hlast, hmanifestTemporary]; decide)
  · exact ne_of_getLast? (by rw [hlast, hmanifestBackup]; decide)
  · rintro _ files₂ ⟨hpayload₂, text, htext, hmanifest₂⟩
    refine (runs_removePreviousPayload hpath.last).mono (fun _ h => h) ?_
    rintro _ files₃ ⟨hpayload₃, hmanifest₃⟩
    refine ⟨hsafe, payloads, text, hpayloads, htext, ?_, hmanifest₃.trans hmanifest₂⟩
    rw [hpayload₃, hpayload₂, ← hcontent]
    exact Function.update_self ..

end Saves

section Successes

variable {files : Directory ι} {manifest : KnowledgeIndexManifest} {payloads : List (List UInt8)}
  {text : String}

theorem returns_writePayloads {temporaryPath : FilePath} {entries : List KnowledgeIndexEntry}
    (hpayloads : Serialized serde entries payloads) {content : List UInt8}
    (hfile : files temporaryPath.fileName = some (.bytes content))
    (hfits : (content ++ payloadBytes payloads).length ≤ maxFileLength) :
    Returns (writePayloads serde temporaryPath entries content.length) files
      fun payloadRefs files' => payloadRefs = refsFrom content.length entries payloads ∧
        files' = Function.update files temporaryPath.fileName
          (some (.bytes (content ++ payloadBytes payloads))) := by
  induction hpayloads generalizing files content with
  | nil =>
      refine returns_pure ⟨rfl, ?_⟩
      rw [payloadBytes, List.flatMap_nil, List.append_nil, ← hfile, Function.update_eq_self]
  | @cons entry payload entries payloads hpayload _ ih =>
      have hcontent : content ++ payloadBytes (payload :: payloads) =
          (content ++ payload ++ [10]) ++ payloadBytes payloads := by
        simp [payloadBytes]
      have hend : (content ++ payload ++ [10]).length = content.length + (payload.length + 1) := by
        simp
      have hline : (content ++ payload ++ [10]).length ≤ maxFileLength := by
        rw [hcontent, List.length_append] at hfits
        omega
      rw [writePayloads]
      have hstart : (content ++ payload).length ≤ maxFileLength := by
        rw [List.length_append] at hline
        omega
      refine returns_seq (returns_orFail (returns_fromExcept hpayload ?_))
      refine returns_seq (returns_orFail (returns_appendBytes hfile hstart ?_))
      refine returns_seq (returns_orFail (returns_appendBytes (Function.update_self ..) hline ?_))
      rw [advanceOffset_eq (hend ▸ hline), ← hend, Function.update_idem]
      refine returns_bind (ih (Function.update_self ..) (hcontent ▸ hfits)) ?_
      rintro _ files' ⟨rfl, hfiles'⟩
      refine returns_pure ⟨?_, ?_⟩
      · rw [refsFrom, ← hend]
      · rw [hfiles', Function.update_idem, hcontent]

theorem returns_writeManifest {path : FilePath} (hpath : ManifestPath path)
    (htext : serde.manifestToStringPretty manifest = .ok text)
    (hfits : (utf8 text).length ≤ maxFileLength) :
    Returns (writeManifest serde path manifest) files fun _ _ => True := by
  have hlast := getLast?_withExtension path (show "json.tmp".toList.getLast? = some 'p' by decide)
  have hlast' := getLast?_withExtension path
    (show "json.previous".toList.getLast? = some 's' by decide)
  rw [writeManifest]
  refine returns_seq (returns_orFail (returns_fromExcept htext ?_))
  refine returns_seq (returns_orFail (returns_writeFile hfits ?_))
  refine returns_replaceFileWithRollback (Function.update_self ..) ?_ ?_ ?_
  · exact ne_of_getLast? (by rw [hlast, hpath.last]; decide)
  · exact ne_of_getLast? (by rw [hlast, hlast']; decide)
  · exact ne_of_getLast? (by rw [hpath.last, hlast']; decide)

theorem returns_removePreviousPayload (previousPayloadFile : Option String)
    (payloadFileName : String) :
    Returns (removePreviousPayload previousPayloadFile payloadFileName) files
      fun _ _ => True := by
  cases previousPayloadFile with
  | none => exact returns_pure trivial
  | some previous =>
      rw [removePreviousPayload]
      split
      · refine returns_seq (returns_isFile ?_)
        split
        · exact returns_attempt_removeFile trivial
        · exact returns_pure trivial
      · exact returns_pure trivial

theorem returns_saveManifest {path : FilePath} (hpath : ManifestPath path)
    (generations : Generations) (hpayloads : Serialized serde manifest.entries payloads)
    (hfits : (payloadBytes payloads).length ≤ maxFileLength)
    (htext : serde.manifestToStringPretty (compactManifest manifest
      (entryPayloadFileName generations path manifest)
        (refsFrom 0 manifest.entries payloads)) = .ok text)
    (hfits' : (utf8 text).length ≤ maxFileLength) (previousPayloadFile : Option String) :
    Returns (saveManifest serde generations path manifest previousPayloadFile) files
      fun _ _ => True := by
  rw [saveManifest]
  generalize entryPayloadFileName generations path manifest = payloadFileName at *
  generalize ((path.sibling payloadFileName).withExtension "jsonl.tmp") = temporaryPath
  refine returns_seq (returns_orFail (returns_writeStep rfl ?_))
  have hempty : Function.update files temporaryPath.fileName (some (.bytes []))
      temporaryPath.fileName = some (.bytes []) := Function.update_self ..
  refine returns_bind (returns_writePayloads hpayloads hempty hfits) ?_
  rintro _ files₁ ⟨rfl, rfl⟩
  refine returns_seq (returns_orFail (returns_renameFile (Function.update_self ..) ?_))
  refine returns_bind (returns_writeManifest hpath htext hfits') fun _ _ _ => ?_
  exact returns_removePreviousPayload previousPayloadFile payloadFileName

end Successes

section Loads

variable {files : Directory ι} {path : FilePath} {manifest : KnowledgeIndexManifest}
  {payloadFileName : String} {text : String}

def payloadStoreOf (payloadFileName : String) (entries : List KnowledgeIndexEntry)
    (payloads : List (List UInt8)) : KnowledgeIndexEntryPayloadStore where
  schemaVersion := entryPayloadStoreSchemaVersion
  fileName := payloadFileName
  entries := refsFrom 0 entries payloads

theorem exec_loadEntryPayloadStore (path : FilePath) (h : serde.RoundTrips)
    (hsafe : fileNameIsSafe ".jsonl" payloadFileName = true) {entries : List KnowledgeIndexEntry}
    {payloads : List (List UInt8)} (hpayloads : Serialized serde entries payloads)
    (hfile : files payloadFileName = some (.bytes (payloadBytes payloads)))
    (selectedPaths : Option (List String)) :
    (loadEntryPayloadStore serde path (payloadStoreOf payloadFileName entries payloads)
      selectedPaths).run.exec files =
        ⟨files, [], .ok (entries.filter fun entry => isSelected selectedPaths entry.path)⟩ := by
  have hload := mapM_loadReference h (path.sibling payloadFileName) selectedPaths hpayloads []
  rw [List.length_nil, List.nil_append] at hload
  rw [loadEntryPayloadStore, payloadStoreOf, if_neg (by simp), if_neg (by simp [hsafe])]
  refine (exec_run_bind_of_ok (exec_orFail (exec_readBytes hfile) _) _).trans ?_
  rw [exec_fromExcept, hload]

theorem exec_loadManifestState (h : serde.RoundTrips)
    (htext : serde.manifestToStringPretty manifest = .ok text)
    (hfile : files path.fileName = some (.bytes (utf8 text)))
    (hversion : manifest.schemaVersion = indexSchemaVersion ∨
      manifest.schemaVersion = legacyIndexSchemaVersion) {hydratePayloads : Bool}
    {hydrated : KnowledgeIndexManifest}
    (hhydrate : (hydrateManifest serde path manifest hydratePayloads).run.exec files =
      ⟨files, [], .ok hydrated⟩) (currentTimestamp : String) :
    (loadManifestState serde currentTimestamp path hydratePayloads).run.exec files =
      ⟨files, [], .ok { manifest := hydrated, entries := entriesByPath hydrated.entries }⟩ := by
  have hfound : (files path.fileName).isSome = true := by
    rw [hfile]
    rfl
  have hisFile := exec_isFile files path.fileName
  rw [hfound] at hisFile
  have hparsed : (fromExcept (serde.manifestFromStr text)).run.exec files =
      ⟨files, [], .ok manifest⟩ := by
    rw [exec_fromExcept, h.manifest manifest text htext]
  rw [loadManifestState]
  refine (exec_run_bind_of_ok hisFile _).trans ?_
  rw [if_pos rfl]
  refine (exec_run_bind_of_ok (exec_orFail (exec_readText hfile) _) _).trans ?_
  refine (exec_run_bind_of_ok (exec_orFail hparsed _) _).trans ?_
  rw [if_pos hversion]
  exact exec_run_bind_of_ok hhydrate _

/-- The entries that a manifest on disk stands for, however it is loaded. -/
structure HydratesTo (serde : Serde) (currentTimestamp : String) (path : FilePath)
    (entries : List KnowledgeIndexEntry) (files : Directory ι) : Prop where
  hydrated : ∃ state,
    (loadManifestState serde currentTimestamp path true).run.exec files =
        ⟨files, [], .ok state⟩ ∧
      state.manifest.entries = entries ∧ state.entries = entriesByPath entries
  payloads : ∀ hydratePayloads, ∃ state,
    (loadManifestState serde currentTimestamp path hydratePayloads).run.exec files =
        ⟨files, [], .ok state⟩ ∧
      (loadEntryPayloads serde ⟨path, state.manifest⟩ none).run.exec files =
          ⟨files, [], .ok entries⟩ ∧
        ∀ selectedPaths, (loadEntryPayloads serde ⟨path, state.manifest⟩ selectedPaths).run.exec
          files = ⟨files, [], .ok (entries.filter fun entry => isSelected selectedPaths entry.path)⟩

theorem filter_isSelected_none (entries : List KnowledgeIndexEntry) :
    (entries.filter fun entry => isSelected none entry.path) = entries :=
  List.filter_eq_self.mpr fun _ _ => rfl

theorem Saved.hydratesTo (h : serde.RoundTrips)
    (hsaved : Saved serde path manifest payloadFileName files) (currentTimestamp : String) :
    HydratesTo serde currentTimestamp path manifest.entries files := by
  obtain ⟨payloads, text, hpayloads, htext, hfile, hmanifest⟩ := hsaved.content
  have hload := exec_loadEntryPayloadStore path h hsaved.safe hpayloads hfile
  have hall := hload none
  rw [filter_isSelected_none] at hall
  have hhydrate : (hydrateManifest serde path (compactManifest manifest payloadFileName
      (refsFrom 0 manifest.entries payloads)) true).run.exec files = ⟨files, [], .ok
        { compactManifest manifest payloadFileName (refsFrom 0 manifest.entries payloads) with
          entries := manifest.entries }⟩ :=
    exec_run_bind_of_ok hall _
  have hstate := exec_loadManifestState h htext hmanifest (Or.inl rfl) hhydrate currentTimestamp
  refine ⟨⟨_, hstate, rfl, rfl⟩, ?_⟩
  intro hydratePayloads
  cases hydratePayloads with
  | true => exact ⟨_, hstate, hall, hload⟩
  | false =>
      have hkept : (hydrateManifest serde path (compactManifest manifest payloadFileName
          (refsFrom 0 manifest.entries payloads)) false).run.exec files = _ :=
        exec_run_pure _ files
      have hcompact := exec_loadManifestState h htext hmanifest (Or.inl rfl) hkept currentTimestamp
      exact ⟨_, hcompact, hall, hload⟩

theorem hydratesTo_inline (h : serde.RoundTrips)
    (htext : serde.manifestToStringPretty manifest = .ok text)
    (hinline : manifest.entryPayloadStore = none)
    (hversion : manifest.schemaVersion = indexSchemaVersion ∨
      manifest.schemaVersion = legacyIndexSchemaVersion)
    (hfile : files path.fileName = some (.bytes (utf8 text))) (currentTimestamp : String) :
    HydratesTo serde currentTimestamp path manifest.entries files := by
  have hhydrate : ∀ hydratePayloads,
      (hydrateManifest serde path manifest hydratePayloads).run.exec files =
        ⟨files, [], .ok manifest⟩ := by
    intro hydratePayloads
    cases hydratePayloads with
    | true =>
        unfold hydrateManifest
        rw [hinline]
        rfl
    | false => rfl
  have hstate := fun hydratePayloads =>
    exec_loadManifestState h htext hfile hversion (hhydrate hydratePayloads) currentTimestamp
  refine ⟨⟨_, hstate true, rfl, rfl⟩, fun hydratePayloads => ⟨_, hstate hydratePayloads, ?_, ?_⟩⟩
  · rw [loadEntryPayloads, hinline, filter_isSelected_none]
    rfl
  · intro selectedPaths
    rw [loadEntryPayloads, hinline]
    rfl

/-- A saved manifest gives back the entries that were saved, whole or by a selection of paths, and
so does a manifest with the entries in it. -/
theorem hydratesTo_saveManifest (h : serde.RoundTrips) {generations : Generations}
    {indexRoot root : String} {manifest : KnowledgeIndexManifest}
    {previousPayloadFile : Option String}
    (hsave : ((saveManifest serde generations (manifestPathForRoot generations.sha256 indexRoot root)
      manifest previousPayloadFile).run.exec files).result = .ok ())
    (currentTimestamp : String) :
    HydratesTo serde currentTimestamp (manifestPathForRoot generations.sha256 indexRoot root)
        manifest.entries ((saveManifest serde generations
          (manifestPathForRoot generations.sha256 indexRoot root) manifest
            previousPayloadFile).run.exec files).file ∧
      ∀ schemaVersion text (older : Directory ι),
        schemaVersion = indexSchemaVersion ∨ schemaVersion = legacyIndexSchemaVersion →
        serde.manifestToStringPretty
            { manifest with schemaVersion := schemaVersion, entryPayloadStore := none } = .ok text →
          older (manifestPathForRoot generations.sha256 indexRoot root).fileName =
              some (.bytes (utf8 text)) →
            HydratesTo serde currentTimestamp
              (manifestPathForRoot generations.sha256 indexRoot root) manifest.entries older := by
  have hpath := manifestPath_manifestPathForRoot generations.sha256 indexRoot root
  refine ⟨?_, ?_⟩
  · have hruns : Runs (saveManifest serde generations (manifestPathForRoot generations.sha256
        indexRoot root) manifest previousPayloadFile) files _ _ :=
      runs_saveManifest hpath generations manifest previousPayloadFile
    exact (hruns.2 () hsave).hydratesTo h currentTimestamp
  · intro schemaVersion text older hversion htext holder
    exact hydratesTo_inline h htext rfl hversion holder currentTimestamp

end Loads

def lookupText {α κ : Type} [DecidableEq α] (table : List (α × κ)) (a : α) : Except String κ :=
  match table.find? (·.1 = a) with
  | some pair => .ok pair.2
  | none => .error "recursion limit exceeded"

def lookupValue {α κ : Type} [DecidableEq κ] (table : List (α × κ)) (text : κ) :
    Except String α :=
  match table.find? (·.2 = text) with
  | some pair => .ok pair.1
  | none => .error "expected value at line 1 column 1"

theorem lookupText_cons_self [DecidableEq α] (table : List (α × κ)) (a : α) (text : κ) :
    lookupText ((a, text) :: table) a = .ok text := by
  simp [lookupText]

theorem lookupText_cons_of_ne [DecidableEq α] (table : List (α × κ)) {a b : α} (h : a ≠ b)
    (text : κ) : lookupText ((a, text) :: table) b = lookupText table b := by
  simp [lookupText, h]

theorem lookupValue_eq [DecidableEq α] [DecidableEq κ] {table : List (α × κ)}
    (h : (table.map Prod.snd).Nodup) {a : α} {text : κ} (htext : lookupText table a = .ok text) :
    lookupValue table text = .ok a := by
  rw [lookupText] at htext
  split at htext
  · rename_i pair hpair
    have hmem := List.mem_of_find?_eq_some hpair
    have ha : pair.1 = a := by simpa using List.find?_some hpair
    have hfound : (table.find? (·.2 = text)).isSome :=
      List.find?_isSome.mpr ⟨pair, hmem, decide_eq_true (Except.ok.inj htext)⟩
    obtain ⟨other, hother⟩ := Option.isSome_iff_exists.mp hfound
    have htext' : other.2 = text := by simpa using List.find?_some hother
    rw [← Except.ok.inj htext] at htext'
    have hsame : other = pair :=
      List.inj_on_of_nodup_map h (List.mem_of_find?_eq_some hother) hmem htext'
    rw [lookupValue, hother, hsame, ← ha]
  · cases htext

def serdeOf (entries : List (KnowledgeIndexEntry × List UInt8))
    (manifests : List (KnowledgeIndexManifest × String)) : Serde where
  entryToVec := lookupText entries
  entryFromSlice := lookupValue entries
  manifestToStringPretty := lookupText manifests
  manifestFromStr := lookupValue manifests

theorem serdeOf_entryToVec (entries : List (KnowledgeIndexEntry × List UInt8))
    (manifests : List (KnowledgeIndexManifest × String)) :
    (serdeOf entries manifests).entryToVec = lookupText entries := rfl

theorem serdeOf_manifestToStringPretty (entries : List (KnowledgeIndexEntry × List UInt8))
    (manifests : List (KnowledgeIndexManifest × String)) :
    (serdeOf entries manifests).manifestToStringPretty = lookupText manifests := rfl

theorem serdeOf_roundTrips {entries : List (KnowledgeIndexEntry × List UInt8)}
    {manifests : List (KnowledgeIndexManifest × String)}
    (hentries : (entries.map Prod.snd).Nodup) (hmanifests : (manifests.map Prod.snd).Nodup) :
    (serdeOf entries manifests).RoundTrips where
  entry _ _ h := lookupValue_eq hentries h
  manifest _ _ h := lookupValue_eq hmanifests h

def sampleEntry : KnowledgeIndexEntry where
  modality := .document
  path := "/srv/knowledge/alpha.md"
  title := "alpha"
  searchableText := "Alpha notes."
  parentChunks := []
  chunks := []
  textSources := []
  sidecarPath := none
  fileSignature := { modifiedUnixMillis := 1750000000000, sizeBytes := 12 }
  sidecarSignature := none
  processingWarnings := []
  parserKey := none
  requiresAdvancedParser := false

def sampleEntryText : String :=
  "\x7b\"modality\":\"document\",\"path\":\"/srv/knowledge/alpha.md\",\"title\":\"alpha\"," ++
  "\"searchable_text\":\"Alpha notes.\",\"parent_chunks\":[],\"chunks\":[]," ++
  "\"text_sources\":[],\"file_signature\":\x7b\"modified_unix_millis\":1750000000000," ++
  "\"size_bytes\":12\x7d,\"requires_advanced_parser\":false\x7d"

def sampleManifest : KnowledgeIndexManifest where
  schemaVersion := legacyIndexSchemaVersion
  root := "/srv/knowledge"
  rootSignature := { modifiedUnixMillis := 1750000000000, sizeBytes := 4096 }
  generatedAt := "1750000000"
  supportedFileCount := some 1
  directories := []
  entries := [sampleEntry]
  entryPayloadStore := none

def sampleManifestText (schemaVersion searchableText rest : String) : String :=
  "\x7b\n  \"schema_version\": " ++ schemaVersion ++ ",\n" ++
  "  \"root\": \"/srv/knowledge\",\n  \"root_signature\": \x7b\n" ++
  "    \"modified_unix_millis\": 1750000000000,\n    \"size_bytes\": 4096\n  \x7d,\n" ++
  "  \"generated_at\": \"1750000000\",\n  \"supported_file_count\": 1,\n" ++
  "  \"directories\": [],\n  \"entries\": [\n    \x7b\n      \"modality\": \"document\",\n" ++
  "      \"path\": \"/srv/knowledge/alpha.md\",\n      \"title\": \"alpha\",\n" ++
  "      \"searchable_text\": \"" ++ searchableText ++ "\",\n" ++
  "      \"parent_chunks\": [],\n      \"chunks\": [],\n      \"text_sources\": [],\n" ++
  "      \"file_signature\": \x7b\n        \"modified_unix_millis\": 1750000000000,\n" ++
  "        \"size_bytes\": 12\n      \x7d,\n      \"requires_advanced_parser\": false\n" ++
  "    \x7d\n  ]" ++ rest ++ "\n\x7d"

def sampleStoreText : String :=
  ",\n  \"entry_payload_store\": \x7b\n    \"schema_version\": 1,\n    \"file_name\": " ++
  "\"7a701222b06511b8afa8c310bd15921f0e21b80e505975097f3275d388ef3627" ++
  ".entries-v3-09482770ca82267a.jsonl\",\n    \"entries\": [\n      \x7b\n" ++
  "        \"path\": \"/srv/knowledge/alpha.md\",\n        \"offset\": 0,\n" ++
  "        \"length\": 259\n      \x7d\n    ]\n  \x7d"

def sampleSha256 (bytes : List UInt8) : List UInt8 :=
  if bytes = utf8 "/srv/knowledge" then
    [122, 112, 18, 34, 176, 101, 17, 184, 175, 168, 195, 16, 189, 21, 146, 31,
      14, 33, 184, 14, 80, 89, 117, 9, 127, 50, 117, 211, 136, 239, 54, 39]
  else
    [9, 72, 39, 112, 202, 130, 38, 122, 222, 87, 199, 46, 95, 208, 205, 175,
      193, 168, 149, 64, 224, 114, 169, 244, 29, 119, 96, 92, 52, 19, 101, 9]

def sampleGenerations : Generations where
  sha256 := sampleSha256
  nonce := 1750000000123456789

def samplePath : FilePath :=
  manifestPathForRoot sampleSha256 "/var/lib/harborbeacon/knowledge-index" "/srv/knowledge"

def sampleCompactManifest : KnowledgeIndexManifest :=
  compactManifest sampleManifest (entryPayloadFileName sampleGenerations samplePath sampleManifest)
    (refsFrom 0 sampleManifest.entries [utf8 sampleEntryText])

def sampleSerde : Serde :=
  serdeOf [(sampleEntry, utf8 sampleEntryText)]
    [(sampleCompactManifest, sampleManifestText "3" "indexed" sampleStoreText),
      (sampleManifest, sampleManifestText "2" "Alpha notes." "")]

theorem sampleSerde_roundTrips : sampleSerde.RoundTrips :=
  serdeOf_roundTrips (List.nodup_singleton _) (by decide)

theorem entryToVec_sampleEntry :
    sampleSerde.entryToVec sampleEntry = .ok (utf8 sampleEntryText) := by
  rw [sampleSerde, serdeOf_entryToVec, lookupText_cons_self]

theorem manifestToStringPretty_sampleCompactManifest :
    sampleSerde.manifestToStringPretty sampleCompactManifest =
      .ok (sampleManifestText "3" "indexed" sampleStoreText) := by
  rw [sampleSerde, serdeOf_manifestToStringPretty, lookupText_cons_self]

theorem manifestToStringPretty_sampleManifest :
    sampleSerde.manifestToStringPretty sampleManifest =
      .ok (sampleManifestText "2" "Alpha notes." "") := by
  have hne : sampleCompactManifest ≠ sampleManifest := fun h =>
    absurd (congrArg (·.schemaVersion) h) (by decide)
  rw [sampleSerde, serdeOf_manifestToStringPretty, lookupText_cons_of_ne _ hne,
    lookupText_cons_self]

theorem serialized_sampleManifest :
    Serialized sampleSerde sampleManifest.entries [utf8 sampleEntryText] :=
  List.Forall₂.cons entryToVec_sampleEntry List.Forall₂.nil

theorem returns_sampleManifest :
    Returns (saveManifest sampleSerde sampleGenerations samplePath sampleManifest none)
      (fun _ => none : Directory Empty) fun _ _ => True :=
  returns_saveManifest (manifestPath_manifestPathForRoot _ _ _) sampleGenerations
    serialized_sampleManifest (by decide +kernel) manifestToStringPretty_sampleCompactManifest
    (by decide +kernel) none

/-- A manifest of an older version is saved, and its entry comes back from both forms. -/
theorem hydratesTo_sampleManifest :
    HydratesTo sampleSerde "1750000001" samplePath [sampleEntry]
        ((saveManifest sampleSerde sampleGenerations samplePath sampleManifest
          none).run.exec (fun _ => none : Directory Empty)).file ∧
      HydratesTo sampleSerde "1750000001" samplePath [sampleEntry]
        (Function.update (fun _ => none : Directory Empty) samplePath.fileName
          (some (.bytes (utf8 (sampleManifestText "2" "Alpha notes." ""))))) := by
  obtain ⟨_, files', hexec, -⟩ := returns_sampleManifest
  have h := hydratesTo_saveManifest sampleSerde_roundTrips
    (congrArg (·.result) hexec) "1750000001"
  exact ⟨h.1, h.2 legacyIndexSchemaVersion _ _ (Or.inr rfl)
    manifestToStringPretty_sampleManifest (Function.update_self ..)⟩

end HarborBeacon.ManifestRoundTrip
