import HarborBeacon.CatRecordingLedger

/-!
Who holds the claim on a recording, and what a record can become. Each record that an operation
appends follows from the latest record of its artifact by one of a few steps; the invariants of
the ledger are read off these steps.
-/

namespace HarborBeacon.CatRecordingValidation

section Changes

/-- The artifact and the token of an operation that gives a claim back, and the clock reading
that it was called with. -/
def LedgerOp.settles : LedgerOp → Option (String × String × Nat)
  | .complete artifactId claimToken now .. | .retry artifactId claimToken now ..
  | .defer artifactId claimToken now .. => some (artifactId, claimToken, now)
  | _ => none

def LedgerOp.endsDiscard : LedgerOp → Bool
  | .markDiscarded .. | .markDiscardFailed .. => true
  | _ => false

inductive RecordStep :
    LedgerOp → CatRecordingValidationRecord → CatRecordingValidationRecord → Prop
  | claimed {record : CatRecordingValidationRecord} (owner token : String)
      (now leaseDurationMs : Nat) (hready : readyAt now record = true) :
      RecordStep (.claim owner now leaseDurationMs token) record
        (claimed (sanitizeText owner) token now leaseDurationMs record)
  | settled {op : LedgerOp} {record : CatRecordingValidationRecord} (claimToken : String)
      (now updatedAt attemptCount : Nat) (status : CatRecordingValidationStatus)
      (decision : Option CatRecordingValidationDecision) (nextRetryAt : Option Nat)
      (error : Option String) (hop : op.settles = some (record.artifactId, claimToken, now))
      (hvalid : validateProcessingClaim record claimToken now = .ok ()) :
      RecordStep op record
        { clearProcessingClaim { record with
            validationStatus := status
            publicationStatus := if status = .accepted then .published else .unpublished
            attemptCount := attemptCount
            decision := decision
            nextRetryAtEpochMs := nextRetryAt
            lastError := error } with
          updatedAtEpochMs := updatedAt }
  | recovered {record : CatRecordingValidationRecord} (now : Nat)
      (hexpired : claimExpired now record = true) :
      RecordStep (.recover now) record (recovered now record)
  | discardClaimed {record : CatRecordingValidationRecord} (artifactId : String)
      (mode : CatRecordingValidationMode) (leaseDurationMs now : Nat) (drawn : String)
      (generation : Nat) (token : Option String) (deadline : Option Nat)
      (heligible : record.isPhysicalDiscardEligible mode = true)
      (hcount : record.discardAttemptCount < maxArtifactDiscardAttempts) :
      RecordStep (.claimDiscard artifactId mode leaseDurationMs now drawn) record
        { record with
          artifactDisposition := .discardPending
          discardAttemptCount := saturatingAdd 32 record.discardAttemptCount 1
          discardAttemptGeneration := generation
          discardAttemptToken := token
          discardAttemptLeaseDeadlineEpochMs := deadline
          discardError := none
          updatedAtEpochMs := now }
  | discardEnded {op : LedgerOp} {record : CatRecordingValidationRecord}
      (disposition : CatRecordingArtifactDisposition) (discardedAt : Option Nat)
      (error : Option String) (tombstone : Option CatRecordingDiscardTombstone)
      (updatedAt : Nat) (hop : op.endsDiscard = true)
      (hpending : record.artifactDisposition = .discardPending) :
      RecordStep op record
        { record with
          artifactDisposition := disposition
          discardedAtEpochMs := discardedAt
          discardError := error
          discardAttemptToken := none
          discardAttemptLeaseDeadlineEpochMs := none
          discardTombstone := tombstone
          updatedAtEpochMs := updatedAt }

theorem RecordStep.artifactId_eq {op : LedgerOp} {old new : CatRecordingValidationRecord}
    (h : RecordStep op old new) : new.artifactId = old.artifactId := by
  rcases h with _ | _ | _ | _ | _ <;> rfl

inductive Appends (sha256 : List UInt8 → List UInt8) (latest : Latest) :
    LedgerOp → CatRecordingValidationRecord → Prop
  | registered (artifact : HarborLinkRecordingArtifact) (eventId : String)
      (evidence : List CatDetectionEvidence) (now : Nat)
      (hnew : latest.lookup artifact.artifactId = none) :
      Appends sha256 latest (.register artifact evidence now)
        (newRecord sha256 artifact eventId evidence now)
  | follows {op : LedgerOp} {old new : CatRecordingValidationRecord}
      (hold : latest.lookup old.artifactId = some old) (hstep : RecordStep op old new) :
      Appends sha256 latest op new

inductive Chain (sha256 : List UInt8 → List UInt8) (op : LedgerOp) :
    Latest → List CatRecordingValidationRecord → Prop
  | nil {latest : Latest} : Chain sha256 op latest []
  | cons {latest : Latest} {record : CatRecordingValidationRecord}
      {records : List CatRecordingValidationRecord} (happends : Appends sha256 latest op record)
      (hrest : Chain sha256 op (latest.store record) records) :
      Chain sha256 op latest (record :: records)

variable {sha256 : List UInt8 → List UInt8} {op : LedgerOp} {latest : Latest}
  {record : CatRecordingValidationRecord} {now : Nat}

theorem chain_singleton (h : Appends sha256 latest op record) : Chain sha256 op latest [record] :=
  .cons h .nil

theorem Chain.take {records : List CatRecordingValidationRecord}
    (h : Chain sha256 op latest records) (n : Nat) : Chain sha256 op latest (records.take n) := by
  induction h generalizing n with
  | nil => simpa using Chain.nil
  | cons happends _ ih =>
      rcases n with _ | n
      · exact .nil
      · exact .cons happends (ih n)

abbrev Keyed (latest : Latest) : Prop :=
  Table.KeyedBy (·.artifactId) latest

theorem Keyed.store (hkeyed : Keyed latest) (record : CatRecordingValidationRecord) :
    Keyed (latest.store record) :=
  Table.KeyedBy.insert hkeyed _ _ rfl

theorem Keyed.lookup_own (hkeyed : Keyed latest) {key : String}
    (h : latest.lookup key = some record) :
    latest.lookup record.artifactId = some record := by
  have hkey : record.artifactId = key := hkeyed key record h
  rw [hkey]
  exact h

theorem chain_updateRecordChecked (hkeyed : Keyed latest) {artifactId : String}
    {updatedAt : Nat}
    {update : CatRecordingValidationRecord → Except String CatRecordingValidationRecord}
    (hupdate : ∀ old new, latest.lookup artifactId = some old → update old = .ok new →
      RecordStep op old { new with updatedAtEpochMs := updatedAt }) :
    Chain sha256 op latest (updateRecordChecked latest artifactId updatedAt update).writes := by
  unfold updateRecordChecked
  rcases hlookup : latest.lookup artifactId with _ | old
  · exact .nil
  · dsimp only
    rcases hnew : update old with message | new
    · exact .nil
    · exact chain_singleton
        (.follows (hkeyed.lookup_own hlookup) (hupdate old new hlookup hnew))

theorem chain_settle (hkeyed : Keyed latest) {artifactId claimToken : String}
    {now updatedAt : Nat} (attemptCount : CatRecordingValidationRecord → Nat)
    (status : CatRecordingValidationStatus)
    (decision : Option CatRecordingValidationDecision) (nextRetryAt : Option Nat)
    (error : Option String) (hop : op.settles = some (artifactId, claimToken, now)) :
    Chain sha256 op latest (updateRecordChecked latest artifactId updatedAt fun record => do
      validateProcessingClaim record claimToken now
      return clearProcessingClaim { record with
        validationStatus := status
        publicationStatus := if status = .accepted then .published else .unpublished
        attemptCount := attemptCount record
        decision := decision
        nextRetryAtEpochMs := nextRetryAt
        lastError := error }).writes := by
  refine chain_updateRecordChecked hkeyed fun old new hold hnew => ?_
  rcases hvalid : validateProcessingClaim old claimToken now with message | _
  · rw [hvalid] at hnew
    cases hnew
  · rw [hvalid] at hnew
    obtain rfl := Except.ok.inj hnew
    have hid : old.artifactId = artifactId := hkeyed artifactId old hold
    exact .settled claimToken now updatedAt (attemptCount old) status decision nextRetryAt error
      (hid ▸ hop) hvalid

theorem chain_register (artifact : HarborLinkRecordingArtifact)
    (evidence : List CatDetectionEvidence) (now : Nat) :
    Chain sha256 (.register artifact evidence now) latest
      (registerCandidateWithEvidence latest sha256 artifact evidence now).writes := by
  unfold registerCandidateWithEvidence
  split
  · exact .nil
  · split
    · exact .nil
    · split
      · exact .nil
      · rename_i eventId _ _ hnew
        exact chain_singleton (.registered artifact eventId evidence now hnew)

theorem chain_claim (hkeyed : Keyed latest) (owner : String) (now leaseDurationMs : Nat)
    (token : String) :
    Chain sha256 (.claim owner now leaseDurationMs token) latest
      (claimNextPendingAt latest owner now leaseDurationMs token).writes := by
  unfold claimNextPendingAt
  dsimp only
  split
  · exact .nil
  · split
    · exact .nil
    · split
      · exact .nil
      · rename_i record hargmin
        have hmem := List.mem_filter.1 (List.argmin_mem hargmin)
        obtain ⟨key, hkey⟩ := Table.mem_values_iff.1 hmem.1
        exact chain_singleton (.follows (hkeyed.lookup_own hkey)
          (.claimed owner token now leaseDurationMs hmem.2))

theorem chain_recoverLoop {artifactIds : List String} (hkeyed : Keyed latest)
    (hnodup : artifactIds.Nodup)
    (hexpired : ∀ artifactId ∈ artifactIds, ∀ record, latest.lookup artifactId = some record →
      claimExpired now record = true) :
    Chain sha256 (.recover now) latest (recoverLoop now latest artifactIds).writes := by
  induction artifactIds generalizing latest with
  | nil => exact .nil
  | cons artifactId artifactIds ih =>
      obtain ⟨hfresh, hnodup⟩ := List.nodup_cons.1 hnodup
      unfold recoverLoop
      split
      · exact .nil
      · rename_i record hlookup
        have hkey : record.artifactId = artifactId := hkeyed artifactId record hlookup
        refine .cons (.follows (hkeyed.lookup_own hlookup)
          (.recovered now (hexpired artifactId List.mem_cons_self record hlookup))) ?_
        refine ih (hkeyed.store _) hnodup ?_
        intro other hother record' hlookup'
        have hne : other ≠ (recovered now record).artifactId := by
          rintro rfl
          exact hfresh (hkey ▸ hother)
        unfold Latest.store at hlookup'
        rw [Table.lookup_insert_eq_ite, if_neg hne] at hlookup'
        exact hexpired other (List.mem_cons_of_mem _ hother) record' hlookup'

theorem chain_recover (hkeyed : Keyed latest) (now : Nat) :
    Chain sha256 (.recover now) latest (recoverExpiredClaimsAt latest now).writes := by
  have hids := Table.nodup_values_ids hkeyed
  refine chain_recoverLoop hkeyed ?_ ?_
  · refine (List.perm_insertionSort _ _).nodup_iff.2 ?_
    exact hids.sublist (List.filter_sublist.map _)
  · intro artifactId hmem record hlookup
    have hmem' := (List.perm_insertionSort _ _).mem_iff.1 hmem
    obtain ⟨other, hother, hid⟩ := List.mem_map.1 hmem'
    obtain ⟨hvalue, hexpired⟩ := List.mem_filter.1 hother
    obtain ⟨key, hkey⟩ := Table.mem_values_iff.1 hvalue
    have hown := hkeyed.lookup_own hkey
    rw [hid, hlookup] at hown
    rw [Option.some.inj hown]
    exact hexpired

theorem chain_claimDiscard (hkeyed : Keyed latest) (artifactId : String)
    (mode : CatRecordingValidationMode) (leaseDurationMs now : Nat) (token : String) :
    Chain sha256 (.claimDiscard artifactId mode leaseDurationMs now token) latest
      (claimArtifactDiscard latest artifactId mode leaseDurationMs now token).writes := by
  unfold claimArtifactDiscard
  split
  · exact .nil
  · split
    · exact .nil
    · rename_i record hlookup
      split
      · exact .nil
      · rename_i heligible
        split
        · exact .nil
        · split
          · exact .nil
          · rename_i hcount
            refine chain_singleton (.follows (hkeyed.lookup_own hlookup)
              (.discardClaimed artifactId mode leaseDurationMs now token _ _ _ ?_
                (Nat.not_le.1 hcount)))
            simpa using heligible

theorem validateDiscardAttempt_ok {token : String}
    (h : validateDiscardAttempt record token now = .ok ()) :
    record.artifactDisposition = .discardPending := by
  unfold validateDiscardAttempt at h
  dsimp only at h
  split at h
  · rename_i hcurrent
    simp only [Bool.and_eq_true, beq_iff_eq] at hcurrent
    exact hcurrent.1.1.1
  · cases h

theorem chain_markDiscarded (hkeyed : Keyed latest) (artifactId token : String)
    (deleted absent : Bool) (now deletedAt updatedAt : Nat) :
    Chain sha256 (.markDiscarded artifactId token deleted absent now deletedAt updatedAt) latest
      (markArtifactDiscarded latest artifactId token deleted absent now deletedAt
        updatedAt).writes := by
  refine chain_updateRecordChecked hkeyed fun old new _ hnew => ?_
  rcases hvalid : validateDiscardAttempt old token now with message | _
  · rw [hvalid] at hnew
    cases hnew
  · rw [hvalid] at hnew
    simp only [Except.bind, bind, pure, Except.pure] at hnew
    split at hnew
    · cases hnew
    · obtain rfl := Except.ok.inj hnew
      exact .discardEnded .discarded (some deletedAt) none _ updatedAt rfl
        (validateDiscardAttempt_ok hvalid)

theorem chain_markDiscardFailed (hkeyed : Keyed latest) (artifactId token error : String)
    (now updatedAt : Nat) :
    Chain sha256 (.markDiscardFailed artifactId token error now updatedAt) latest
      (markArtifactDiscardFailed latest artifactId token error now updatedAt).writes := by
  refine chain_updateRecordChecked hkeyed fun old new _ hnew => ?_
  rcases hvalid : validateDiscardAttempt old token now with message | _
  · rw [hvalid] at hnew
    cases hnew
  · rw [hvalid] at hnew
    obtain rfl := Except.ok.inj hnew
    exact .discardEnded .discardFailed _ _ _ updatedAt rfl (validateDiscardAttempt_ok hvalid)

theorem LedgerOp.chain (hkeyed : Keyed latest) (op : LedgerOp) :
    Chain sha256 op latest (op.plan sha256 latest).writes := by
  cases op with
  | register artifact evidence now =>
      simp only [LedgerOp.plan, Plan.map_writes]
      exact chain_register artifact evidence now
  | claim owner now leaseDurationMs token =>
      simp only [LedgerOp.plan, Plan.map_writes]
      exact chain_claim hkeyed owner now leaseDurationMs token
  | complete artifactId claimToken now updatedAt status decision error =>
      simp only [LedgerOp.plan, Plan.map_writes]
      exact chain_settle hkeyed (·.attemptCount) status decision none (error.map sanitizeText) rfl
  | retry artifactId claimToken now updatedAt nextRetryAt error =>
      simp only [LedgerOp.plan, Plan.map_writes]
      exact chain_settle hkeyed (·.attemptCount) .pendingValidation none (some nextRetryAt)
        (some (sanitizeText error)) rfl
  | defer artifactId claimToken now updatedAt nextRetryAt error =>
      simp only [LedgerOp.plan, Plan.map_writes]
      exact chain_settle hkeyed (fun record => record.attemptCount - 1) .pendingValidation none
        (some nextRetryAt) (some (sanitizeText error)) rfl
  | recover now =>
      simp only [LedgerOp.plan, Plan.map_writes]
      exact chain_recover hkeyed now
  | claimDiscard artifactId mode leaseDurationMs now token =>
      simp only [LedgerOp.plan, Plan.map_writes]
      exact chain_claimDiscard hkeyed artifactId mode leaseDurationMs now token
  | markDiscarded artifactId token deleted absent now deletedAt updatedAt =>
      simp only [LedgerOp.plan, Plan.map_writes]
      exact chain_markDiscarded hkeyed artifactId token deleted absent now deletedAt updatedAt
  | markDiscardFailed artifactId token error now updatedAt =>
      simp only [LedgerOp.plan, Plan.map_writes]
      exact chain_markDiscardFailed hkeyed artifactId token error now updatedAt

end Changes

section Runs

/-- A claim that a worker was given and has not given back. -/
structure HeldClaim where
  artifactId : String
  token : String
  deadline : Nat
deriving DecidableEq

/-- The ledger, the clock, and the claims in the hands of the workers. -/
structure LedgerState where
  latest : Latest := ∅
  clock : Nat := 0
  held : List HeldClaim := []

def LedgerOp.hold (writes : List CatRecordingValidationRecord) (held : List HeldClaim) :
    LedgerOp → List HeldClaim
  | .claim _ now leaseDurationMs token =>
      (writes.map fun record =>
        { artifactId := record.artifactId, token := token,
          deadline := saturatingAdd 128 now leaseDurationMs }) ++ held
  | .complete artifactId claimToken .. | .retry artifactId claimToken ..
  | .defer artifactId claimToken .. =>
      if writes = [] then held
      else held.filter fun claim => ¬(claim.artifactId = artifactId ∧ claim.token = claimToken)
  | _ => held

/-- An operation of which the first `stored` records reach the ledger; all of them, unless the
disk or the process fails. -/
def LedgerState.perform (sha256 : List UInt8 → List UInt8) (s : LedgerState) (op : LedgerOp)
    (clock stored : Nat) : LedgerState :=
  let writes := (op.plan sha256 s.latest).writes.take stored
  { latest := s.latest.storeAll writes
    clock := clock
    held := op.hold writes s.held }

/-- The operations come in any order, from any worker. An operation may have read the clock
before it got the lock; the table may be listed in another order at any time. -/
inductive LedgerStep (sha256 : List UInt8 → List UInt8) (s : LedgerState) : LedgerState → Prop
  | perform (op : LedgerOp) (clock stored : Nat) (hclock : s.clock ≤ clock)
      (hreadings : ∀ t ∈ op.readings, t ≤ clock) :
      LedgerStep sha256 s (s.perform sha256 op clock stored)
  | relist (latest : Latest) (hsame : ∀ key, latest.lookup key = s.latest.lookup key) :
      LedgerStep sha256 s { s with latest := latest }

abbrev LedgerRun (sha256 : List UInt8 → List UInt8) : LedgerState → LedgerState → Prop :=
  Relation.ReflTransGen (LedgerStep sha256)

variable {sha256 : List UInt8 → List UInt8} {latest : Latest} {s s' : LedgerState}

theorem Chain.keyed {op : LedgerOp} {records : List CatRecordingValidationRecord}
    (h : Chain sha256 op latest records) (hkeyed : Keyed latest) :
    Keyed (latest.storeAll records) := by
  induction h with
  | nil => exact hkeyed
  | cons _ _ ih => exact ih (hkeyed.store _)

theorem keyed_relist {latest' : Latest} (hkeyed : Keyed latest)
    (hsame : ∀ key, latest'.lookup key = latest.lookup key) : Keyed latest' := by
  intro key record hlookup
  rw [hsame key] at hlookup
  exact hkeyed key record hlookup

theorem LedgerStep.keyed (hstep : LedgerStep sha256 s s') (hkeyed : Keyed s.latest) :
    Keyed s'.latest := by
  rcases hstep with ⟨op, clock, stored, -, -⟩ | ⟨latest, hsame⟩
  · exact ((op.chain hkeyed).take stored).keyed hkeyed
  · exact keyed_relist hkeyed hsame

theorem LedgerRun.keyed (hrun : LedgerRun sha256 s s') (hkeyed : Keyed s.latest) :
    Keyed s'.latest := by
  induction hrun with
  | refl => exact hkeyed
  | tail _ hstep ih => exact hstep.keyed ih

end Runs

section Statuses

/-- No operation takes a record out of these. -/
def CatRecordingValidationStatus.terminal : CatRecordingValidationStatus → Bool
  | .pendingValidation | .processing => false
  | .accepted | .reviewRequired | .rejected | .failed => true

/-- The recording was triggered by the detector and its record has the policy under which a
rejected recording may be deleted. -/
def CatRecordingValidationRecord.DiscardSource (record : CatRecordingValidationRecord) : Prop :=
  record.policyVersion = CatRecordingValidation.policyVersion ∧
    record.artifactId.startsWith "recordings~" = true ∧
    record.eventId.startsWith "cat-activity-" = true ∧
    record.artifactSource = some "yolo_cat_activity"

structure WellKept (record : CatRecordingValidationRecord) : Prop where
  published_iff : record.publicationStatus = .published ↔ record.validationStatus = .accepted
  disposed : record.artifactDisposition ≠ .retained →
    record.validationStatus = .rejected ∧ record.publicationStatus = .unpublished ∧
      record.DiscardSource
  attempts : record.discardAttemptCount ≤ maxArtifactDiscardAttempts

/-- How a record relates to an earlier one of the same artifact. -/
structure Evolves (old new : CatRecordingValidationRecord) : Prop where
  terminal : old.validationStatus.terminal = true →
    new.validationStatus = old.validationStatus ∧ new.publicationStatus = old.publicationStatus
  discarded : old.artifactDisposition = .discarded → new = old

theorem Evolves.refl (record : CatRecordingValidationRecord) : Evolves record record :=
  ⟨fun _ => ⟨rfl, rfl⟩, fun _ => rfl⟩

theorem Evolves.trans {a b c : CatRecordingValidationRecord} (hab : Evolves a b)
    (hbc : Evolves b c) : Evolves a c where
  terminal h := by
    obtain ⟨hstatus, hpublication⟩ := hab.terminal h
    obtain ⟨hstatus', hpublication'⟩ := hbc.terminal (hstatus ▸ h)
    exact ⟨hstatus'.trans hstatus, hpublication'.trans hpublication⟩
  discarded h := by
    have heq := hab.discarded h
    exact (hbc.discarded (heq ▸ h)).trans heq

variable {record : CatRecordingValidationRecord} {old new : CatRecordingValidationRecord}
  {now : Nat}

theorem eligible_iff {mode : CatRecordingValidationMode}
    (h : record.isPhysicalDiscardEligible mode = true) :
    record.DiscardSource ∧ record.validationStatus = .rejected ∧
      record.publicationStatus = .unpublished ∧ record.artifactDisposition ≠ .discarded := by
  simp only [CatRecordingValidationRecord.isPhysicalDiscardEligible, Bool.and_eq_true,
    beq_iff_eq, bne_iff_ne] at h
  obtain ⟨⟨⟨⟨⟨⟨⟨-, hpolicy⟩, hid⟩, hevent⟩, hsource⟩, hstatus⟩, hpublication⟩, hdisposition⟩ := h
  exact ⟨⟨hpolicy, hid, hevent, hsource⟩, hstatus, hpublication, hdisposition⟩

theorem validateProcessingClaim_ok {token : String}
    (h : validateProcessingClaim record token now = .ok ()) :
    record.validationStatus = .processing ∧ record.claimToken = some token ∧
      ∃ deadline, record.claimLeaseDeadlineEpochMs = some deadline ∧ now < deadline := by
  unfold validateProcessingClaim at h
  dsimp only at h
  split at h
  · rename_i hcurrent
    simp only [Bool.and_eq_true, beq_iff_eq, Option.any_eq_true, decide_eq_true_eq] at hcurrent
    obtain ⟨⟨⟨⟨hstatus, -⟩, htoken⟩, -⟩, hdeadline⟩ := hcurrent
    exact ⟨hstatus, htoken, hdeadline⟩
  · cases h

theorem readyAt_status (h : readyAt now record = true) :
    record.validationStatus = .pendingValidation := by
  simp only [readyAt, Bool.and_eq_true, beq_iff_eq] at h
  exact h.1

theorem claimExpired_status (h : claimExpired now record = true) :
    record.validationStatus = .processing := by
  simp only [claimExpired, Bool.and_eq_true, beq_iff_eq] at h
  exact h.1

theorem WellKept.retained (h : WellKept record) (hstatus : record.validationStatus ≠ .rejected) :
    record.artifactDisposition = .retained := by
  by_contra hne
  exact hstatus (h.disposed hne).1

theorem RecordStep.wellKept {op : LedgerOp} (hstep : RecordStep op old new) (hold : WellKept old) :
    WellKept new := by
  rcases hstep with ⟨owner, token, now, lease, hready⟩ |
    ⟨token, now, updatedAt, attempts, status, decision, nextRetryAt, error, -, hvalid⟩ |
    ⟨now, hexpired⟩ | ⟨_, _, _, _, _, _, _, _, heligible, hcount⟩ |
    ⟨disposition, discardedAt, error, tombstone, updatedAt, -, hpending⟩
  · have hretained := hold.retained (by rw [readyAt_status hready]; decide)
    exact ⟨by simp [CatRecordingValidation.claimed], fun hne => absurd hretained hne, hold.attempts⟩
  · obtain ⟨hprocessing, -⟩ := validateProcessingClaim_ok hvalid
    have hretained := hold.retained (by rw [hprocessing]; decide)
    refine ⟨?_, fun hne => absurd hretained hne, hold.attempts⟩
    by_cases hstatus : status = .accepted <;> simp [clearProcessingClaim, hstatus]
  · have hretained := hold.retained (by rw [claimExpired_status hexpired]; decide)
    exact ⟨by simp [CatRecordingValidation.recovered, clearProcessingClaim], fun hne => absurd hretained hne,
      hold.attempts⟩
  · obtain ⟨hsource, hstatus, hpublication, -⟩ := eligible_iff heligible
    refine ⟨hold.published_iff, fun _ => ⟨hstatus, hpublication, hsource⟩, ?_⟩
    exact (Nat.min_le_left _ _).trans hcount
  · have hdisposed := hold.disposed (by rw [hpending]; decide)
    exact ⟨hold.published_iff, fun _ => hdisposed, hold.attempts⟩

theorem RecordStep.evolves {op : LedgerOp} (hstep : RecordStep op old new) (hold : WellKept old) :
    Evolves old new := by
  -- a step of the validation finds a status that is not terminal
  have hopen : ∀ {r : CatRecordingValidationRecord}, old.validationStatus.terminal = false →
      Evolves old r := by
    intro r hstatus
    refine ⟨fun h => ?_, fun h => ?_⟩
    · rw [hstatus] at h
      cases h
    · have hrejected := (hold.disposed (by rw [h]; decide)).1
      rw [hrejected] at hstatus
      cases hstatus
  rcases hstep with ⟨owner, token, now, lease, hready⟩ |
    ⟨token, now, updatedAt, attempts, status, decision, nextRetryAt, error, -, hvalid⟩ |
    ⟨now, hexpired⟩ | ⟨_, _, _, _, _, _, _, _, heligible, hcount⟩ |
    ⟨disposition, discardedAt, error, tombstone, updatedAt, -, hpending⟩
  · exact hopen (by rw [readyAt_status hready]; rfl)
  · exact hopen (by rw [(validateProcessingClaim_ok hvalid).1]; rfl)
  · exact hopen (by rw [claimExpired_status hexpired]; rfl)
  · exact ⟨fun _ => ⟨rfl, rfl⟩, fun h => absurd h (eligible_iff heligible).2.2.2⟩
  · refine ⟨fun _ => ⟨rfl, rfl⟩, fun h => ?_⟩
    rw [hpending] at h
    cases h

def AllWellKept (latest : Latest) : Prop :=
  ∀ key record, latest.lookup key = some record → WellKept record

variable {sha256 : List UInt8 → List UInt8} {latest latest' : Latest} {s s' : LedgerState}

theorem wellKept_newRecord (artifact : HarborLinkRecordingArtifact) (eventId : String)
    (evidence : List CatDetectionEvidence) (now : Nat) :
    WellKept (newRecord sha256 artifact eventId evidence now) :=
  ⟨by simp [newRecord], fun h => absurd rfl h, Nat.zero_le _⟩

theorem Appends.wellKept {op : LedgerOp} (happends : Appends sha256 latest op record)
    (hall : AllWellKept latest) :
    WellKept record := by
  rcases happends with ⟨artifact, eventId, evidence, now, -⟩ | ⟨hold, hstep⟩
  · exact wellKept_newRecord artifact eventId evidence now
  · exact hstep.wellKept (hall _ _ hold)

theorem lookup_store (record : CatRecordingValidationRecord) (key : String) :
    (latest.store record).lookup key =
      if key = record.artifactId then some record else latest.lookup key :=
  Table.lookup_insert_eq_ite key record.artifactId record latest

theorem AllWellKept.store (hall : AllWellKept latest) (hrecord : WellKept record) :
    AllWellKept (latest.store record) := by
  intro key other hlookup
  rw [lookup_store] at hlookup
  split at hlookup
  · rw [← Option.some.inj hlookup]
    exact hrecord
  · exact hall key other hlookup

def AllEvolve (latest latest' : Latest) : Prop :=
  ∀ key record, latest.lookup key = some record →
    ∃ record', latest'.lookup key = some record' ∧ Evolves record record'

theorem AllEvolve.refl (latest : Latest) : AllEvolve latest latest :=
  fun _ record hlookup => ⟨record, hlookup, .refl record⟩

theorem AllEvolve.trans {latest'' : Latest} (h : AllEvolve latest latest')
    (h' : AllEvolve latest' latest'') : AllEvolve latest latest'' := by
  intro key record hlookup
  obtain ⟨record', hlookup', hevolves⟩ := h key record hlookup
  obtain ⟨record'', hlookup'', hevolves'⟩ := h' key record' hlookup'
  exact ⟨record'', hlookup'', hevolves.trans hevolves'⟩

theorem Appends.allEvolve {op : LedgerOp} (happends : Appends sha256 latest op record)
    (hall : AllWellKept latest) :
    AllEvolve latest (latest.store record) := by
  intro key old hlookup
  by_cases hkey : key = record.artifactId
  · refine ⟨record, by rw [lookup_store, if_pos hkey], ?_⟩
    rcases happends with ⟨artifact, eventId, evidence, now, hnew⟩ | ⟨hold, hstep⟩
    · -- the artifact was not in the ledger
      have hkey' : key = artifact.artifactId := hkey
      rw [hkey', hnew] at hlookup
      cases hlookup
    · rw [hkey, hstep.artifactId_eq, hold] at hlookup
      rw [← Option.some.inj hlookup]
      exact hstep.evolves (hall _ _ hold)
  · exact ⟨old, by rw [lookup_store, if_neg hkey]; exact hlookup, .refl old⟩

theorem Chain.kept {op : LedgerOp} {records : List CatRecordingValidationRecord}
    (hchain : Chain sha256 op latest records) (hall : AllWellKept latest) :
    AllWellKept (latest.storeAll records) ∧ AllEvolve latest (latest.storeAll records) := by
  induction hchain with
  | nil => exact ⟨hall, .refl _⟩
  | cons happends _ ih =>
      obtain ⟨hall', hevolve⟩ := ih (hall.store (happends.wellKept hall))
      exact ⟨hall', (happends.allEvolve hall).trans hevolve⟩

theorem LedgerStep.kept (hstep : LedgerStep sha256 s s') (hkeyed : Keyed s.latest)
    (hall : AllWellKept s.latest) :
    AllWellKept s'.latest ∧ AllEvolve s.latest s'.latest := by
  rcases hstep with ⟨op, clock, stored, -, -⟩ | ⟨latest, hsame⟩
  · exact ((op.chain hkeyed).take stored).kept hall
  · refine ⟨fun key record hlookup => hall key record (hsame key ▸ hlookup), ?_⟩
    exact fun key record hlookup => ⟨record, (hsame key).trans hlookup, .refl record⟩

theorem LedgerRun.kept (hrun : LedgerRun sha256 s s') (hkeyed : Keyed s.latest)
    (hall : AllWellKept s.latest) :
    AllWellKept s'.latest ∧ AllEvolve s.latest s'.latest := by
  induction hrun with
  | refl => exact ⟨hall, .refl _⟩
  | tail hrun hstep ih =>
      obtain ⟨hall', hevolve⟩ := ih
      obtain ⟨hall'', hevolve'⟩ := hstep.kept (LedgerRun.keyed hrun hkeyed) hall'
      exact ⟨hall'', hevolve.trans hevolve'⟩

/-- A published recording is never discarded: in every ledger that the operations reach the
three statuses of a record fit together, and whatever was decided stays. -/
theorem published_never_discarded (hrun : LedgerRun sha256 {} s) :
    (∀ artifactId record, s.latest.lookup artifactId = some record →
      (record.publicationStatus = .published ↔ record.validationStatus = .accepted) ∧
      (record.artifactDisposition ≠ .retained →
        record.validationStatus = .rejected ∧ record.publicationStatus = .unpublished ∧
          record.DiscardSource) ∧
      record.discardAttemptCount ≤ maxArtifactDiscardAttempts) ∧
    ∀ s', LedgerRun sha256 s s' →
      ∀ artifactId record, s.latest.lookup artifactId = some record →
        ∃ record', s'.latest.lookup artifactId = some record' ∧
          (record.validationStatus.terminal = true →
            record'.validationStatus = record.validationStatus ∧
              record'.publicationStatus = record.publicationStatus) ∧
          (record.artifactDisposition = .discarded → record' = record) := by
  have hempty : Keyed (∅ : Latest) := Table.keyedBy_empty
  have hkeyed := hrun.keyed hempty
  have hall := (hrun.kept hempty (fun key record h => by simp at h)).1
  refine ⟨fun key record h => ?_, fun s' hrun' key record h => ?_⟩
  · obtain ⟨hpublished, hdisposed, hattempts⟩ := hall key record h
    exact ⟨hpublished, hdisposed, hattempts⟩
  · obtain ⟨record', hlookup, hevolves⟩ := (hrun'.kept hkeyed hall).2 key record h
    exact ⟨record', hlookup, hevolves.terminal, hevolves.discarded⟩

/-- A rejected recording of the detector is discarded, and stays so. -/
theorem published_never_discarded_sample :
    ∃ s record, LedgerRun (fun _ => []) {} s ∧
      s.latest.lookup "recordings~clip" = some record ∧
      record.artifactDisposition = .discarded ∧
      (record.publicationStatus = .published ↔ record.validationStatus = .accepted) := by
  let sample : HarborLinkRecordingArtifact :=
    { artifactId := "recordings~clip", cameraId := "camera", kind := "recording",
      mimeType := "video/mp4", byteSize := 1, startedAtEpochMs := 1, endedAtEpochMs := 2,
      durationSeconds := 6, eventId := some "cat-activity-1",
      source := some "yolo_cat_activity" }
  let s := ((((({} : LedgerState).perform (fun _ => []) (.register sample [] 900) 900 1).perform
    (fun _ => []) (.claim "worker" 1000 100 "token") 1000 1).perform
    (fun _ => []) (.complete "recordings~clip" "token" 1001 1001 .rejected none none) 1001
      1).perform
    (fun _ => []) (.claimDiscard "recordings~clip" .enforce 100 1002 "drawn") 1002 1).perform
    (fun _ => []) (.markDiscarded "recordings~clip" "discard-1-drawn" true false 1003 1003 1003)
      1003 1
  have hrun : LedgerRun (fun _ => []) {} s :=
    (((((Relation.ReflTransGen.refl).tail (.perform _ _ _ (by decide) (by decide))).tail
      (.perform _ _ _ (by decide) (by decide))).tail
      (.perform _ _ _ (by decide) (by decide))).tail
      (.perform _ _ _ (by decide) (by decide))).tail
      (.perform _ _ _ (by decide) (by decide))
  have hlookup : s.latest.lookup "recordings~clip" =
      some ((s.latest.lookup "recordings~clip").get (by decide +kernel)) :=
    (Option.some_get _).symm
  refine ⟨s, _, hrun, hlookup, ?_, ((published_never_discarded hrun).1 _ _ hlookup).1⟩
  decide +kernel

end Statuses

section Claims

variable {sha256 : List UInt8 → List UInt8} {latest : Latest} {s s' : LedgerState}
  {record : CatRecordingValidationRecord} {held : List HeldClaim}
  {records : List CatRecordingValidationRecord} {claim : HeldClaim} {artifactId token : String}
  {now : Nat} {clock : Nat}

/-- The token is the claim on the artifact, and its lease runs beyond `now`. -/
def CurrentClaim (latest : Latest) (artifactId token : String) (now : Nat) : Prop :=
  ∃ record, latest.lookup artifactId = some record ∧ record.validationStatus = .processing ∧
    record.claimToken = some token ∧
    ∃ deadline, record.claimLeaseDeadlineEpochMs = some deadline ∧ now < deadline

def HeldClaim.OnRecord (claim : HeldClaim) (latest : Latest) : Prop :=
  ∃ record, latest.lookup claim.artifactId = some record ∧
    record.validationStatus = .processing ∧ record.claimToken = some claim.token ∧
    record.claimLeaseDeadlineEpochMs = some claim.deadline

/-- Who still has time on a claim has the claim. -/
def Fenced (s : LedgerState) : Prop :=
  ∀ claim ∈ s.held, s.clock < claim.deadline → claim.OnRecord s.latest

theorem HeldClaim.OnRecord.store (h : claim.OnRecord latest)
    (hne : claim.artifactId ≠ record.artifactId) :
    claim.OnRecord (latest.store record) := by
  obtain ⟨old, hlookup, hfields⟩ := h
  exact ⟨old, by rw [lookup_store, if_neg hne]; exact hlookup, hfields⟩

theorem HeldClaim.OnRecord.of_lookup (h : claim.OnRecord latest)
    (hlookup : latest.lookup claim.artifactId = some record) :
    record.validationStatus = .processing ∧ record.claimToken = some claim.token ∧
      record.claimLeaseDeadlineEpochMs = some claim.deadline := by
  obtain ⟨old, hold, hfields⟩ := h
  rw [hlookup] at hold
  rw [Option.some.inj hold]
  exact hfields

theorem LedgerOp.mem_hold_cons {op : LedgerOp} (h : claim ∈ op.hold (record :: records) held) :
    claim ∈ op.hold records (op.hold [record] held) := by
  cases op with
  | claim owner now leaseDurationMs token =>
      simp only [LedgerOp.hold, List.map_cons, List.map_nil, List.cons_append,
        List.mem_cons, List.mem_append, List.nil_append] at h ⊢
      tauto
  | complete | retry | defer =>
      simp only [LedgerOp.hold, List.cons_ne_nil, if_false] at h ⊢
      split
      · exact h
      · exact List.mem_filter.2 ⟨h, (List.mem_filter.1 h).2⟩
  | _ => exact h

theorem LedgerOp.hold_nil (op : LedgerOp) (held : List HeldClaim) : op.hold [] held = held := by
  cases op <;> rfl

theorem LedgerOp.hold_settles {op : LedgerOp} {artifactId claimToken : String}
    (hop : op.settles = some (artifactId, claimToken, now)) (h : claim ∈ op.hold [record] held) :
    claim ∈ held ∧ ¬(claim.artifactId = artifactId ∧ claim.token = claimToken) := by
  cases op with
  | complete | retry | defer =>
      obtain ⟨rfl, rfl, rfl⟩ : _ ∧ _ ∧ _ := by simpa [LedgerOp.settles] using hop
      simp only [LedgerOp.hold, List.cons_ne_nil, if_false] at h
      obtain ⟨hmem, hkept⟩ := List.mem_filter.1 h
      exact ⟨hmem, of_decide_eq_true hkept⟩
  | _ => cases hop

theorem LedgerOp.hold_endsDiscard {op : LedgerOp} (hop : op.endsDiscard = true)
    (writes : List CatRecordingValidationRecord) (held : List HeldClaim) :
    op.hold writes held = held := by
  cases op with
  | markDiscarded | markDiscardFailed => rfl
  | _ => cases hop

theorem Appends.fenced {op : LedgerOp} (happends : Appends sha256 latest op record)
    (hreadings : ∀ t ∈ op.readings, t ≤ clock)
    (hheld : ∀ claim ∈ held, clock < claim.deadline → claim.OnRecord latest) :
    ∀ claim ∈ op.hold [record] held, clock < claim.deadline →
      claim.OnRecord (latest.store record) := by
  intro claim hclaim hlive
  rcases happends with ⟨artifact, eventId, evidence, now, hnew⟩ | ⟨hold, hstep⟩
  · have hrecord := hheld claim hclaim hlive
    refine hrecord.store fun heq => ?_
    obtain ⟨old, hlookup, -⟩ := hrecord
    have heq' : claim.artifactId = artifact.artifactId := heq
    rw [heq', hnew] at hlookup
    cases hlookup
  rename_i old
  rcases hstep with ⟨owner, token, now, lease, hready⟩ |
    ⟨token, now, updatedAt, attempts, status, decision, nextRetryAt, error, hop, hvalid⟩ |
    ⟨now, hexpired⟩ | ⟨_, _, _, _, _, _, _, _, heligible, hcount⟩ |
    ⟨disposition, discardedAt, error, tombstone, updatedAt, hop, hpending⟩
  · rcases List.mem_cons.1 hclaim with rfl | hclaim
    · exact ⟨_, by rw [lookup_store, if_pos rfl], rfl, rfl, rfl⟩
    · have hrecord := hheld claim hclaim hlive
      refine hrecord.store fun heq => ?_
      have hprocessing := (hrecord.of_lookup (heq ▸ hold)).1
      rw [readyAt_status hready] at hprocessing
      cases hprocessing
  · obtain ⟨hclaim, hkept⟩ := LedgerOp.hold_settles hop hclaim
    have hrecord := hheld claim hclaim hlive
    refine hrecord.store fun heq => hkept ⟨heq, ?_⟩
    have htoken := (hrecord.of_lookup (heq ▸ hold)).2.1
    rw [(validateProcessingClaim_ok hvalid).2.1] at htoken
    exact (Option.some.inj htoken).symm
  · have hrecord := hheld claim hclaim hlive
    refine hrecord.store fun heq => ?_
    have hdeadline := (hrecord.of_lookup (heq ▸ hold)).2.2
    have hle : claim.deadline ≤ now := by
      simpa [claimExpired, hdeadline, claimExpired_status hexpired] using hexpired
    have hnow := hreadings now (List.mem_singleton_self now)
    omega
  · have hrecord := hheld claim hclaim hlive
    refine hrecord.store fun heq => ?_
    have hprocessing := (hrecord.of_lookup (heq ▸ hold)).1
    rw [(eligible_iff heligible).2.1] at hprocessing
    cases hprocessing
  · rw [LedgerOp.hold_endsDiscard hop] at hclaim
    have hrecord := hheld claim hclaim hlive
    by_cases heq : claim.artifactId = old.artifactId
    · obtain ⟨hstatus, htoken, hdeadline⟩ := hrecord.of_lookup (heq ▸ hold)
      exact ⟨_, (lookup_store _ _).trans (if_pos heq), hstatus, htoken, hdeadline⟩
    · exact hrecord.store heq

theorem Chain.fenced {op : LedgerOp} (hchain : Chain sha256 op latest records)
    (hreadings : ∀ t ∈ op.readings, t ≤ clock)
    (hheld : ∀ claim ∈ held, clock < claim.deadline → claim.OnRecord latest) :
    ∀ claim ∈ op.hold records held, clock < claim.deadline →
      claim.OnRecord (latest.storeAll records) := by
  induction hchain generalizing held with
  | nil =>
      rw [LedgerOp.hold_nil]
      exact hheld
  | cons happends _ ih =>
      intro claim hclaim
      exact ih (happends.fenced hreadings hheld) claim (LedgerOp.mem_hold_cons hclaim)

theorem LedgerStep.fenced (hstep : LedgerStep sha256 s s') (hkeyed : Keyed s.latest)
    (hfenced : Fenced s) : Fenced s' := by
  rcases hstep with ⟨op, clock, stored, hclock, hreadings⟩ | ⟨latest, hsame⟩
  · refine ((op.chain hkeyed).take stored).fenced hreadings fun claim hclaim hlive => ?_
    exact hfenced claim hclaim (Nat.lt_of_le_of_lt hclock hlive)
  · intro claim hclaim hlive
    obtain ⟨record, hlookup, hfields⟩ := hfenced claim hclaim hlive
    exact ⟨record, (hsame _).trans hlookup, hfields⟩

theorem LedgerRun.fenced (hrun : LedgerRun sha256 s s') (hkeyed : Keyed s.latest)
    (hfenced : Fenced s) : Fenced s' := by
  induction hrun with
  | refl => exact hfenced
  | tail hrun hstep ih => exact hstep.fenced (LedgerRun.keyed hrun hkeyed) ih

theorem validateProcessingClaim_error {token : String}
    (h : ¬validateProcessingClaim record token now = .ok ()) :
    ∃ message, validateProcessingClaim record token now = .error message := by
  rcases hresult : validateProcessingClaim record token now with message | _
  · exact ⟨message, rfl⟩
  · exact absurd hresult h

theorem settle_fails (hclaim : ¬CurrentClaim latest artifactId token now) :
    ∃ message, ∀ (updatedAt : Nat)
      (change : CatRecordingValidationRecord → CatRecordingValidationRecord),
      (updateRecordChecked latest artifactId updatedAt fun record => do
        validateProcessingClaim record token now
        return change record) = .fail message := by
  unfold updateRecordChecked
  rcases hlookup : latest.lookup artifactId with _ | record
  · exact ⟨_, fun _ _ => rfl⟩
  · have hinvalid : ¬validateProcessingClaim record token now = .ok () := by
      intro hok
      exact hclaim ⟨record, hlookup, validateProcessingClaim_ok hok⟩
    obtain ⟨message, hmessage⟩ := validateProcessingClaim_error hinvalid
    exact ⟨message, fun _ _ => by simp only [hmessage, bind, Except.bind]⟩

theorem LedgerOp.settle_fails {op : LedgerOp} (hop : op.settles = some (artifactId, token, now))
    (hclaim : ¬CurrentClaim latest artifactId token now) :
    ∃ message, op.plan sha256 latest = .fail message := by
  cases op with
  | complete | retry | defer =>
      obtain ⟨rfl, rfl, rfl⟩ : _ ∧ _ ∧ _ := by simpa [LedgerOp.settles] using hop
      obtain ⟨message, hmessage⟩ := CatRecordingValidation.settle_fails hclaim
      refine ⟨message, ?_⟩
      simp only [LedgerOp.plan, completeAt, scheduleRetryAt, deferResourceContention, hmessage]
      rfl
  | _ => cases hop

/-- At any moment one token at most is the claim on an artifact; whoever was given a claim,
has not given it back and still has time on it, has that token; and without it an operation
that would settle the claim fails and changes nothing. -/
theorem claims_fenced (hrun : LedgerRun sha256 {} s) :
    (∀ artifactId token token' now, s.clock ≤ now →
      CurrentClaim s.latest artifactId token now →
      CurrentClaim s.latest artifactId token' now → token = token') ∧
    (∀ claim ∈ s.held, ∀ now, s.clock ≤ now → now < claim.deadline →
      CurrentClaim s.latest claim.artifactId claim.token now) ∧
    ∀ op artifactId token now, op.settles = some (artifactId, token, now) →
      ¬CurrentClaim s.latest artifactId token now →
      ∃ message, (op.plan sha256 s.latest).answer = .error message ∧
        ∀ clock stored, (s.perform sha256 op clock stored).latest = s.latest := by
  refine ⟨?_, ?_, ?_⟩
  · rintro artifactId token token' now - ⟨record, hlookup, -, htoken, -⟩
      ⟨record', hlookup', -, htoken', -⟩
    rw [hlookup] at hlookup'
    rw [← Option.some.inj hlookup', htoken] at htoken'
    exact Option.some.inj htoken'
  · intro claim hclaim now hnow hlive
    have hfenced := hrun.fenced Table.keyedBy_empty (fun claim h => by cases h)
    obtain ⟨record, hlookup, hstatus, htoken, hdeadline⟩ :=
      hfenced claim hclaim (Nat.lt_of_le_of_lt hnow hlive)
    exact ⟨record, hlookup, hstatus, htoken, claim.deadline, hdeadline, hlive⟩
  · intro op artifactId token now hop hclaim
    obtain ⟨message, hplan⟩ : ∃ message, op.plan sha256 s.latest = .fail message :=
      LedgerOp.settle_fails hop hclaim
    refine ⟨message, by rw [hplan]; rfl, fun clock stored => ?_⟩
    unfold LedgerState.perform
    rw [hplan]
    simp [Plan.fail, Latest.storeAll]

/-- The claim of a worker runs out and another worker takes over. -/
theorem claims_fenced_takeover :
    ∃ s, LedgerRun (fun _ => []) {} s ∧
      s.held.map (·.token) = ["second", "first"] ∧
      CurrentClaim s.latest "recordings~clip" "second" 1200 := by
  let sample : HarborLinkRecordingArtifact :=
    { artifactId := "recordings~clip", cameraId := "camera", kind := "recording",
      mimeType := "video/mp4", byteSize := 1, startedAtEpochMs := 1, endedAtEpochMs := 2,
      durationSeconds := 6, eventId := some "cat-activity-1", source := none }
  let s := (((({} : LedgerState).perform (fun _ => []) (.register sample [] 900) 900 1).perform
    (fun _ => []) (.claim "worker-a" 1000 100 "first") 1000 1).perform
    (fun _ => []) (.recover 1101) 1101 1).perform
    (fun _ => []) (.claim "worker-b" 1101 5000 "second") 1101 1
  have hrun : LedgerRun (fun _ => []) {} s :=
    ((((Relation.ReflTransGen.refl).tail (.perform _ _ _ (by decide) (by decide))).tail
      (.perform _ _ _ (by decide) (by decide))).tail
      (.perform _ _ _ (by decide) (by decide))).tail
      (.perform _ _ _ (by decide) (by decide))
  exact ⟨s, hrun, by decide +kernel,
    (claims_fenced hrun).2.1 ⟨"recordings~clip", "second", 6101⟩ (by decide +kernel) 1200
      (by decide) (by decide)⟩

end Claims

end HarborBeacon.CatRecordingValidation
