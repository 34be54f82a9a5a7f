import HarborBeacon.LedgerFencing
import HarborBeacon.StoreReplay
import Mathlib.Data.Countable.Basic
import Mathlib.Logic.Equiv.List
import Mathlib.Tactic.DeriveCountable

/-!
The store on disk as a ledger. A replay of the directory gives the records that the processes
have in memory, through rotations, failures and restarts; its runs are runs of the ledger; and
the archives stay in order and within their limits.
-/

namespace HarborBeacon.CatRecordingValidation

open FileProgram

variable {store : CatRecordingValidationStore} {contents contents' : StoreContents}
  {w w' : StoreWorld} {latest : Latest} {op : StoreOp} {stored : Nat}

theorem exists_clock (clock : Nat) (readings : List Nat) :
    ∃ clock', clock ≤ clock' ∧ ∀ t ∈ readings, t ≤ clock' := by
  induction readings with
  | nil => exact ⟨clock, Nat.le_refl _, by simp⟩
  | cons t readings ih =>
      obtain ⟨clock', hclock, hreadings⟩ := ih
      refine ⟨max t clock', hclock.trans (Nat.le_max_right _ _), ?_⟩
      rw [List.forall_mem_cons]
      exact ⟨Nat.le_max_left _ _, fun u hu => (hreadings u hu).trans (Nat.le_max_right _ _)⟩

theorem StoreOp.Appends.ledgerRun (h : op.Appends store latest stored contents contents')
    {s : LedgerState} (hview : s.latest.view = contents.view) :
    ∃ s', LedgerRun store.platform.sha256 s s' ∧ s'.latest.view = contents'.view := by
  rcases op with _ | op
  · refine ⟨s, .refl, ?_⟩
    rw [h.after, hview]
    simp [StoreOp.plan, Plan.keep]
  · obtain ⟨clock, hclock, hreadings⟩ := exists_clock s.clock op.readings
    have hsame : ∀ key, latest.lookup key = s.latest.lookup key :=
      congrFun (h.before.trans hview.symm)
    have hrelist : LedgerStep store.platform.sha256 s { s with latest := latest } :=
      .relist latest hsame
    refine ⟨_, (Relation.ReflTransGen.single hrelist).tail
      (.perform op clock stored hclock hreadings), ?_⟩
    rw [h.after, ← h.before]
    exact Latest.view_storeAll _ _

theorem StoreRun.ledgerRun_from (hplatform : store.platform.RoundTrips)
    (hrun : StoreRun store w w') {s : LedgerState} (hconsistent : Consistent store contents w)
    (hview : s.latest.view = contents.view) :
    ∃ contents' s', Consistent store contents' w' ∧ LedgerRun store.platform.sha256 s s' ∧
      s'.latest.view = contents'.view := by
  induction hrun with
  | refl => exact ⟨contents, s, hconsistent, .refl, hview⟩
  | tail _ hstep ih =>
      obtain ⟨contents, s, hconsistent, hledger, hview⟩ := ih
      obtain ⟨contents', hconsistent', rfl | ⟨op, latest, stored, happends⟩⟩ :=
        hstep.consistent hplatform hconsistent
      · exact ⟨contents', s, hconsistent', hledger, hview⟩
      · obtain ⟨s', hrun', hview'⟩ := happends.ledgerRun hview
        exact ⟨contents', s', hconsistent', hledger.trans hrun', hview'⟩

theorem Consistent.load (hplatform : store.platform.RoundTrips) (h : Consistent store contents w) :
    ∃ latest, load store w.files = .ok latest ∧ latest.view = contents.view := by
  obtain ⟨torn, hholds⟩ := h.holds
  exact hholds.load hplatform

/-- Whatever the processes did to the files, and wherever they were cut short, a replay gives the
records of a ledger that the operations reach. -/
theorem load_ledgerRun (hplatform : store.platform.RoundTrips) (hrun : StoreRun store {} w) :
    ∃ s latest, LedgerRun store.platform.sha256 {} s ∧ load store w.files = .ok latest ∧
      ∀ artifactId, latest.lookup artifactId = s.latest.lookup artifactId := by
  obtain ⟨contents, s, hconsistent, hledger, hview⟩ :=
    hrun.ledgerRun_from hplatform (s := {}) consistent_empty rfl
  obtain ⟨latest, hload, hlatest⟩ := hconsistent.load hplatform
  exact ⟨s, latest, hledger, hload, congrFun (hlatest.trans hview.symm)⟩

section Platforms

open TextEncoding

instance countableChar : Countable Char :=
  Function.Injective.countable (f := Char.toNat) fun _ _ h => Char.toNat_inj.mp h

instance countableString : Countable String :=
  Function.Injective.countable (f := String.toList) fun _ _ h => String.toList_inj.mp h

deriving instance Countable for CatRecordingValidationStatus

deriving instance Countable for CatRecordingPublicationStatus

deriving instance Countable for CatRecordingArtifactDisposition

deriving instance Countable for CatDetectionEvidence

deriving instance Countable for CatRecordingFramePrediction

deriving instance Countable for CatRecordingDiscardTombstone

deriving instance Countable for CatRecordingValidationDecision

deriving instance Countable for CatRecordingValidationRecord

def numbered (n : Nat) : String :=
  String.ofList (Char.ofNat 123 :: (List.replicate n '0' ++ [Char.ofNat 125]))

theorem utf8_numbered (n : Nat) :
    utf8 (numbered n) = 123 :: (List.replicate n 48 ++ [125]) := by
  have hzeros : (List.replicate n '0').flatMap String.utf8EncodeChar = List.replicate n 48 := by
    induction n with
    | zero => rfl
    | succ n ih =>
        rw [List.replicate_succ, List.flatMap_cons, ih]
        rfl
  rw [numbered, utf8_ofList, List.flatMap_cons, List.flatMap_append, hzeros]
  rfl

theorem isUtf8_utf8 (text : String) : isUtf8 (utf8 text) = true := by
  rw [isUtf8, mk_utf8, ByteArray.validateUTF8_eq_true_iff]
  exact text.isValidUTF8

noncomputable def textOf (record : CatRecordingValidationRecord) (text : String)
    (other : CatRecordingValidationRecord) : String :=
  if other = record then text
  else numbered ((exists_injective_nat CatRecordingValidationRecord).choose other)

noncomputable def platformOf (record : CatRecordingValidationRecord) (text : String)
    (sha256 : List UInt8 → List UInt8) : Platform where
  toVec other := utf8 (textOf record text other)
  fromSlice bytes :=
    open Classical in
    if h : ∃ other, utf8 (textOf record text other) = bytes then .ok h.choose
    else .error "expected value at line 1 column 1"
  stampOf n := { modifiedEpochNanos := some n, identity := { device := 1, inode := n } }
  sha256 := sha256

variable {record : CatRecordingValidationRecord}

theorem textOf_injective {text : String} (hquote : 34 ∈ utf8 text) :
    Function.Injective (textOf record text) := by
  have hnumbered : ∀ n, text ≠ numbered n := by
    rintro n rfl
    rw [utf8_numbered] at hquote
    simp at hquote
  intro a b hab
  unfold textOf at hab
  split at hab <;> split at hab
  · rename_i ha hb
    rw [ha, hb]
  · exact absurd hab (hnumbered _)
  · exact absurd hab.symm (hnumbered _)
  · have hlength := congrArg (fun s => (utf8 s).length) hab
    simp only [utf8_numbered, List.length_cons, List.length_append, List.length_replicate] at hlength
    exact (exists_injective_nat CatRecordingValidationRecord).choose_spec (by omega)

theorem platformOf_roundTrips {text : String} (sha256 : List UInt8 → List UInt8)
    (hquote : 34 ∈ utf8 text) (hnewline : newline ∉ utf8 text)
    (hbrace : (utf8 text).getLast? = some closingBrace) :
    (platformOf record text sha256).RoundTrips where
  fromSlice_toVec other := by
    have hexists : ∃ other', utf8 (textOf record text other') = utf8 (textOf record text other) :=
      ⟨other, rfl⟩
    have hchoose := utf8_injective hexists.choose_spec
    exact (dif_pos hexists).trans (congrArg _ (textOf_injective hquote hchoose))
  newline_not_mem other := by
    change newline ∉ utf8 (textOf record text other)
    unfold textOf
    split
    · exact hnewline
    · rw [utf8_numbered]
      simp [newline]
  isUtf8_toVec other := isUtf8_utf8 _
  getLast?_toVec other := by
    change (utf8 (textOf record text other)).getLast? = some closingBrace
    unfold textOf
    split
    · exact hbrace
    · rw [utf8_numbered, ← List.cons_append]
      exact List.getLast?_concat

def sampleArtifact : HarborLinkRecordingArtifact where
  artifactId := "recordings~clip"
  cameraId := "camera"
  kind := "recording"
  mimeType := "video/mp4"
  byteSize := 1
  startedAtEpochMs := 1
  endedAtEpochMs := 2
  durationSeconds := 6
  eventId := some "cat-activity-1"
  source := some "yolo_cat_activity"

def sampleDigest : List UInt8 :=
  [252, 27, 254, 128, 152, 212, 194, 197, 32, 92, 41, 113, 40, 148, 144, 123,
    18, 241, 233, 199, 38, 62, 105, 235, 38, 144, 189, 129, 156, 143, 53, 149]

def sampleText : String :=
  "\x7b\"schema_version\":\"1.5\"," ++
  "\"validation_id\":\"catval_fc1bfe8098d4c2c5205c2971\"," ++
  "\"policy_version\":\"cat-recording-validation-v5\"," ++
  "\"artifact_id\":\"recordings~clip\",\"event_id\":\"cat-activity-1\"," ++
  "\"artifact_source\":\"yolo_cat_activity\",\"camera_id\":\"camera\"," ++
  "\"mime_type\":\"video/mp4\",\"byte_size\":1,\"started_at_epoch_ms\":1," ++
  "\"ended_at_epoch_ms\":2,\"duration_seconds\":6," ++
  "\"validation_status\":\"pending_validation\"," ++
  "\"publication_status\":\"unpublished\",\"attempt_count\":0," ++
  "\"detection_evidence\":[],\"created_at_epoch_ms\":900," ++
  "\"updated_at_epoch_ms\":900,\"artifact_disposition\":\"retained\"," ++
  "\"discard_attempt_count\":0,\"discard_attempt_generation\":0\x7d"

def sampleRecord : CatRecordingValidationRecord :=
  newRecord (fun _ => sampleDigest) sampleArtifact "cat-activity-1" [] 900

noncomputable def sampleStore : CatRecordingValidationStore where
  platform := platformOf sampleRecord sampleText fun _ => sampleDigest
  parent := "/var/lib/harborbeacon"
  fileName := "cat-recording-validations.jsonl"

theorem sampleStore_roundTrips : sampleStore.platform.RoundTrips :=
  platformOf_roundTrips _ (by decide +kernel) (by decide +kernel) (by decide +kernel)

theorem toVec_sampleRecord : sampleStore.platform.toVec sampleRecord = utf8 sampleText :=
  congrArg utf8 (if_pos rfl)

theorem sampleRecord_fits : sampleStore.platform.Fits sampleRecord := by
  rw [Platform.Fits, toVec_sampleRecord]
  decide +kernel

theorem sampleRecord_length :
    (sampleStore.platform.toVec sampleRecord).length + 1 ≤
      sampleStore.compactionThresholdBytes := by
  rw [toVec_sampleRecord]
  decide +kernel

end Platforms

def StoreOp.applied (store : CatRecordingValidationStore) (op : StoreOp) (latest : Latest)
    (stored : Nat) : Latest :=
  latest.storeAll ((op.plan store.platform.sha256 latest).writes.take stored)

theorem StoreOp.Appends.view_applied (h : op.Appends store latest stored contents contents') :
    (op.applied store latest stored).view = contents'.view := by
  rw [applied, Latest.view_storeAll, h.before, h.after]

theorem persist_safely (hplatform : store.platform.RoundTrips) (process : Nat)
    (record : CatRecordingValidationRecord) (h : Consistent store contents w) :
    Safely (withLockedIndex store process (persistIndexRecord store process record)).run w
      (fun w' => ∃ contents', Consistent store contents' w' ∧
        (contents'.view = contents.view ∨ contents'.view = overlay [record] contents.view))
      fun _ _ => True := by
  refine withLockedIndex_safely hplatform h
    (fun w' hconsistent => ⟨contents, hconsistent, .inl rfl⟩) fun w' hready => ?_
  exact (persistIndexRecord_safely hplatform hready).mono (fun _ hw => hw) fun _ _ _ => trivial

theorem replay_refines_index (hplatform : store.platform.RoundTrips)
    (hrun : StoreRun store {} w) :
    ∃ before, load store w.files = .ok before ∧
      (∀ process fingerprint, storeFingerprint w.files = .ok fingerprint →
        (w.index process).initialized = true →
        (w.index process).fingerprint = some fingerprint →
        (w.index process).latest.view = before.view) ∧
      (∀ process op, ∃ after latest stored,
        scanLatestUnlocked store ((perform store process op).run.exec w).file.files = .ok after ∧
        (((perform store process op).run.exec w).file.index process).latest.view = after.view ∧
        latest.view = before.view ∧ after.view = (op.applied store latest stored).view ∧
        ∀ answer, ((perform store process op).run.exec w).result = .ok answer →
          (op.plan store.platform.sha256 latest).answer = .ok answer ∧
          (op.plan store.platform.sha256 latest).writes.length ≤ stored) ∧
      (∀ process op w', w' ∈ (perform store process op).run.visits w →
        ∃ after latest stored, load store w'.files = .ok after ∧ latest.view = before.view ∧
          after.view = (op.applied store latest stored).view) ∧
      ∀ process record w', w' ∈ (withLockedIndex store process
          (persistIndexRecord store process record)).run.visits w →
        ∃ after, load store w'.files = .ok after ∧
          (after.view = before.view ∨ after.view = (before.store record).view) := by
  obtain ⟨contents, hconsistent⟩ := StoreRun.consistent hplatform hrun
  obtain ⟨torn, hholds⟩ := hconsistent.holds
  obtain ⟨before, hload, hbefore⟩ := hholds.load hplatform
  refine ⟨before, hload, ?_, ?_, ?_, ?_⟩
  · intro process fingerprint hread hinitialized hfingerprint
    obtain ⟨fingerprint', hread', hgeneration⟩ := hholds.storeFingerprint
    obtain rfl := Except.ok.inj (hread.symm.trans hread')
    rw [hbefore]
    exact (hconsistent.index process fingerprint hfingerprint).2 hinitialized hgeneration
  · intro process op
    obtain ⟨contents', latest, stored, hready, happends, hanswer⟩ :=
      (perform_safely hplatform hconsistent op).2
    obtain ⟨after, hscan, hafter⟩ := hready.holds.scanLatestUnlocked hplatform
    exact ⟨after, latest, stored, hscan, hready.latest.trans hafter.symm,
      happends.before.trans hbefore.symm, hafter.trans happends.view_applied.symm, hanswer⟩
  · intro process op w' hvisited
    obtain ⟨contents', latest, stored, hconsistent', happends⟩ :=
      (perform_safely hplatform hconsistent op).1 w' hvisited
    obtain ⟨torn', hholds'⟩ := hconsistent'.holds
    obtain ⟨after, hload', hafter⟩ := hholds'.load hplatform
    exact ⟨after, latest, stored, hload', happends.before.trans hbefore.symm,
      hafter.trans happends.view_applied.symm⟩
  · intro process record w' hvisited
    obtain ⟨contents', hconsistent', hview⟩ :=
      (persist_safely hplatform process record hconsistent).1 w' hvisited
    obtain ⟨torn', hholds'⟩ := hconsistent'.holds
    obtain ⟨after, hload', hafter⟩ := hholds'.load hplatform
    refine ⟨after, hload', hview.imp ?_ ?_⟩
    · intro hsame
      rw [hafter, hsame, hbefore]
    · intro hstored
      rw [hafter, hstored, Latest.view_store, hbefore]

/-- A recording is registered; the process has it in memory, and a replay finds it. -/
theorem replay_refines_index_sample :
    ∃ w after, StoreRun sampleStore {} w ∧ scanLatestUnlocked sampleStore w.files = .ok after ∧
      (w.index 0).latest.view = after.view ∧
      (after.view "recordings~clip").isSome = true := by
  let op : StoreOp := .ledger (.register sampleArtifact [] 900)
  let w := ((perform sampleStore 0 op).run.exec {}).file
  obtain ⟨_, -, -, hoperations, -⟩ := replay_refines_index sampleStore_roundTrips .refl
  obtain ⟨after, _, _, hscan, hview, -⟩ := hoperations 0 op
  refine ⟨w, after, .single (.complete 0 op), hscan, hview, ?_⟩
  rw [← hview]
  change ((w.index 0).latest.lookup "recordings~clip").isSome = true
  decide +kernel

theorem load_ledgerRun_registered :
    ∃ w s latest, StoreRun sampleStore {} w ∧ LedgerRun sampleStore.platform.sha256 {} s ∧
      load sampleStore w.files = .ok latest ∧
      ∀ artifactId, latest.lookup artifactId = s.latest.lookup artifactId :=
  have hrun := .single (.complete 0 (.ledger (.register sampleArtifact [] 900)))
  (load_ledgerRun sampleStore_roundTrips hrun).elim fun s ⟨latest, h⟩ => ⟨_, s, latest, hrun, h⟩

end HarborBeacon.CatRecordingValidation
