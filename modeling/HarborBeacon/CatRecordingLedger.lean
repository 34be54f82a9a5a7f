import HarborBeacon.Table
import HarborBeacon.Text
import HarborBeacon.TextEncoding
import Mathlib.Data.List.MinMax
import Mathlib.Data.Prod.Lex

/-!
The ledger of cat recordings that wait for validation, publication and disposal. An operation
reads the latest record of each artifact and plans the records it will append; what becomes of
the plan on disk is the business of the store.
-/

namespace HarborBeacon.CatRecordingValidation

def policyVersion : String := "cat-recording-validation-v5"

def maxTextChars : Nat := 500

def maxCatDetectionEvidence : Nat := 256

def maxArtifactDiscardAttempts : Nat := 3

def saturatingAdd (bits a b : Nat) : Nat :=
  min (a + b) (2 ^ bits - 1)

inductive CatRecordingValidationMode where
  | off
  | shadow
  | enforce
deriving DecidableEq

inductive CatRecordingValidationStatus where
  | pendingValidation
  | processing
  | accepted
  | reviewRequired
  | rejected
  | failed
deriving DecidableEq

inductive CatRecordingPublicationStatus where
  | unpublished
  | published
  | withdrawn
deriving DecidableEq

inductive CatRecordingArtifactDisposition where
  | retained
  | discardPending
  | discarded
  | discardFailed
deriving DecidableEq

structure CatDetectionEvidence where
  sequence : Nat
  frameEpochMs : Nat
  confidencePpm : Nat
deriving DecidableEq

structure CatRecordingFramePrediction where
  frameIndex : Nat
  catProbabilityPpm : Nat
  inferenceMs : Nat
deriving DecidableEq

structure CatRecordingValidationDecision where
  catPresent : Bool
  catFrameIndices : List Nat
  behaviorTags : List String
  summary : String
  reasonCode : String
  sampledFrameCount : Nat
  samplingStrategy : String
  validationRounds : Nat
  sampledOffsetsMs : List Nat
  framePredictions : List CatRecordingFramePrediction
  modelEndpointId : String
  modelName : String
  elapsedMs : Nat
deriving DecidableEq

structure CatRecordingDiscardTombstone where
  completed : Bool
  deletedAtEpochMs : Nat
  provider : String
  providerDeleted : Bool
  providerAlreadyAbsent : Bool
deriving DecidableEq

structure CatRecordingValidationRecord where
  schemaVersion : String
  validationId : String
  policyVersion : String
  artifactId : String
  eventId : String
  artifactSource : Option String
  cameraId : String
  mimeType : String
  byteSize : Nat
  startedAtEpochMs : Nat
  endedAtEpochMs : Nat
  durationSeconds : Nat
  validationStatus : CatRecordingValidationStatus
  publicationStatus : CatRecordingPublicationStatus
  attemptCount : Nat
  detectionEvidence : List CatDetectionEvidence
  nextRetryAtEpochMs : Option Nat
  claimOwner : Option String
  claimToken : Option String
  claimLeaseDeadlineEpochMs : Option Nat
  createdAtEpochMs : Nat
  updatedAtEpochMs : Nat
  decision : Option CatRecordingValidationDecision
  lastError : Option String
  artifactDisposition : CatRecordingArtifactDisposition
  discardAttemptCount : Nat
  discardAttemptGeneration : Nat
  discardAttemptToken : Option String
  discardAttemptLeaseDeadlineEpochMs : Option Nat
  discardedAtEpochMs : Option Nat
  discardError : Option String
  discardTombstone : Option CatRecordingDiscardTombstone
deriving DecidableEq

/-- What the ledger reads of a recording that the media service offers. -/
structure HarborLinkRecordingArtifact where
  artifactId : String
  cameraId : String
  kind : String
  mimeType : String
  byteSize : Nat
  startedAtEpochMs : Nat
  endedAtEpochMs : Nat
  durationSeconds : Nat
  eventId : Option String
  source : Option String

abbrev Latest := Table CatRecordingValidationRecord

/-- `index.latest.insert`. -/
def Latest.store (latest : Latest) (record : CatRecordingValidationRecord) : Latest :=
  latest.insert record.artifactId record

def Latest.storeAll (latest : Latest) (records : List CatRecordingValidationRecord) : Latest :=
  records.foldl Latest.store latest

def isControl (c : Char) : Bool :=
  c.toNat < 0x20 || (0x7F ≤ c.toNat && c.toNat < 0xA0)

def sanitizeText (value : String) : String :=
  Text.trim (String.ofList
    ((value.toList.filter fun c => !isControl c || c == '\n').take maxTextChars))

def retainUnseen : List Nat → List CatDetectionEvidence → List CatDetectionEvidence
  | _, [] => []
  | seen, item :: rest =>
      if item.sequence ∈ seen then retainUnseen seen rest
      else item :: retainUnseen (item.sequence :: seen) rest

def sanitizeDetectionEvidence (evidence : List CatDetectionEvidence) :
    List CatDetectionEvidence :=
  let evidence := evidence.filter fun item => 0 < item.sequence && 0 < item.frameEpochMs
  let evidence := evidence.insertionSort fun a b =>
    toLex (a.frameEpochMs, a.sequence) ≤ toLex (b.frameEpochMs, b.sequence)
  let evidence := (retainUnseen [] evidence).map fun item =>
    { item with confidencePpm := min item.confidencePpm 1000000 }
  if maxCatDetectionEvidence < evidence.length then
    match evidence.getLast? with
    | some last => evidence.dropLast.take (maxCatDetectionEvidence - 1) ++ [last]
    | none => evidence
  else evidence

/-- The first 24 hexadecimal digits of a SHA-256 digest. -/
def stableValidationId (sha256 : List UInt8 → List UInt8) (artifactId : String) : String :=
  "catval_" ++ String.ofList
    ((TextEncoding.hex (sha256 (TextEncoding.utf8 (policyVersion ++ ":" ++ artifactId)))).take 24)

namespace CatRecordingValidationRecord

def isPhysicalDiscardEligible (record : CatRecordingValidationRecord)
    (mode : CatRecordingValidationMode) : Bool :=
  mode == .enforce &&
    record.policyVersion == CatRecordingValidation.policyVersion &&
    record.artifactId.startsWith "recordings~" &&
    record.eventId.startsWith "cat-activity-" &&
    record.artifactSource == some "yolo_cat_activity" &&
    record.validationStatus == .rejected &&
    record.publicationStatus == .unpublished &&
    record.artifactDisposition != .discarded

end CatRecordingValidationRecord

def validateProcessingClaim (record : CatRecordingValidationRecord) (claimToken : String)
    (now : Nat) : Except String Unit :=
  let claimIsCurrent := record.validationStatus == .processing &&
    !Text.isBlank claimToken &&
    record.claimToken == some claimToken &&
    record.claimOwner.any (fun owner => owner ≠ "") &&
    record.claimLeaseDeadlineEpochMs.any fun deadline => now < deadline
  if claimIsCurrent then .ok ()
  else .error "cat recording validation claim is stale, expired, or invalid"

def validateDiscardAttempt (record : CatRecordingValidationRecord)
    (discardAttemptToken : String) (now : Nat) : Except String Unit :=
  let attemptIsCurrent := record.artifactDisposition == .discardPending &&
    !Text.isBlank discardAttemptToken &&
    record.discardAttemptToken == some discardAttemptToken &&
    record.discardAttemptLeaseDeadlineEpochMs.any fun deadline => now < deadline
  if attemptIsCurrent then .ok ()
  else .error "cat recording discard attempt is stale, expired, or invalid"

def clearProcessingClaim (record : CatRecordingValidationRecord) :
    CatRecordingValidationRecord :=
  { record with
    claimOwner := none
    claimToken := none
    claimLeaseDeadlineEpochMs := none }

section Operations

structure Plan (α : Type) where
  writes : List CatRecordingValidationRecord
  answer : Except String α

def Plan.fail {α : Type} (message : String) : Plan α :=
  { writes := [], answer := .error message }

def Plan.keep {α : Type} (answer : α) : Plan α :=
  { writes := [], answer := .ok answer }

def Plan.write (record : CatRecordingValidationRecord) :
    Plan CatRecordingValidationRecord :=
  { writes := [record], answer := .ok record }

def Plan.map {α β : Type} (f : α → β) (plan : Plan α) : Plan β :=
  { writes := plan.writes, answer := plan.answer.map f }

@[simp] theorem Plan.map_writes {α β : Type} (f : α → β) (plan : Plan α) :
    (plan.map f).writes = plan.writes := rfl

variable (latest : Latest)

def notFound (artifactId : String) : String :=
  "cat recording validation record not found: " ++ artifactId

/-- `updatedAt` is the clock reading after the check. -/
def updateRecordChecked (artifactId : String) (updatedAt : Nat)
    (update : CatRecordingValidationRecord → Except String CatRecordingValidationRecord) :
    Plan CatRecordingValidationRecord :=
  match latest.lookup artifactId with
  | none => .fail (notFound artifactId)
  | some record =>
      match update record with
      | .error message => .fail message
      | .ok record => .write { record with updatedAtEpochMs := updatedAt }

def newRecord (sha256 : List UInt8 → List UInt8) (artifact : HarborLinkRecordingArtifact)
    (eventId : String) (detectionEvidence : List CatDetectionEvidence) (now : Nat) :
    CatRecordingValidationRecord where
  schemaVersion := "1.5"
  validationId := stableValidationId sha256 artifact.artifactId
  policyVersion := policyVersion
  artifactId := artifact.artifactId
  eventId := eventId
  artifactSource := artifact.source
  cameraId := artifact.cameraId
  mimeType := artifact.mimeType
  byteSize := artifact.byteSize
  startedAtEpochMs := artifact.startedAtEpochMs
  endedAtEpochMs := artifact.endedAtEpochMs
  durationSeconds := artifact.durationSeconds
  validationStatus := .pendingValidation
  publicationStatus := .unpublished
  attemptCount := 0
  detectionEvidence := sanitizeDetectionEvidence detectionEvidence
  nextRetryAtEpochMs := none
  claimOwner := none
  claimToken := none
  claimLeaseDeadlineEpochMs := none
  createdAtEpochMs := now
  updatedAtEpochMs := now
  decision := none
  lastError := none
  artifactDisposition := .retained
  discardAttemptCount := 0
  discardAttemptGeneration := 0
  discardAttemptToken := none
  discardAttemptLeaseDeadlineEpochMs := none
  discardedAtEpochMs := none
  discardError := none
  discardTombstone := none

def registerCandidateWithEvidence (sha256 : List UInt8 → List UInt8)
    (artifact : HarborLinkRecordingArtifact) (detectionEvidence : List CatDetectionEvidence)
    (now : Nat) : Plan CatRecordingValidationRecord :=
  if artifact.kind ≠ "recording" ∨ !artifact.mimeType.startsWith "video/" then
    .fail "cat validation accepts recording video artifacts only"
  else
    match (artifact.eventId.map Text.trim).filter fun value => value ≠ "" with
    | none => .fail "cat recording artifact is missing event_id"
    | some eventId =>
        match latest.lookup artifact.artifactId with
        | some existing => .keep existing
        | none => .write (newRecord sha256 artifact eventId detectionEvidence now)

def readyAt (now : Nat) (record : CatRecordingValidationRecord) : Bool :=
  record.validationStatus == .pendingValidation &&
    record.nextRetryAtEpochMs.all fun retryAt => retryAt ≤ now

def claimed (owner token : String) (now leaseDurationMs : Nat)
    (record : CatRecordingValidationRecord) : CatRecordingValidationRecord :=
  { record with
    validationStatus := .processing
    publicationStatus := .unpublished
    attemptCount := saturatingAdd 32 record.attemptCount 1
    nextRetryAtEpochMs := none
    lastError := none
    claimOwner := some owner
    claimToken := some token
    claimLeaseDeadlineEpochMs := some (saturatingAdd 128 now leaseDurationMs)
    updatedAtEpochMs := now }

/-- `token` is the claim token that is drawn for the claim. -/
def claimNextPendingAt (owner : String) (now leaseDurationMs : Nat) (token : String) :
    Plan (Option CatRecordingValidationRecord) :=
  let owner := sanitizeText owner
  if Text.isBlank owner then .fail "cat recording validation claim owner is required"
  else if leaseDurationMs = 0 then
    .fail "cat recording validation claim lease must be positive"
  else
    match (latest.values.filter (readyAt now)).argmin fun record =>
        toLex (record.createdAtEpochMs, record.validationId) with
    | none => .keep none
    | some record => (Plan.write (claimed owner token now leaseDurationMs record)).map some

def completeAt (artifactId claimToken : String) (now updatedAt : Nat)
    (validationStatus : CatRecordingValidationStatus)
    (decision : Option CatRecordingValidationDecision) (error : Option String) :
    Plan CatRecordingValidationRecord :=
  updateRecordChecked latest artifactId updatedAt fun record => do
    validateProcessingClaim record claimToken now
    return clearProcessingClaim { record with
      validationStatus := validationStatus
      publicationStatus := if validationStatus = .accepted then .published else .unpublished
      decision := decision
      nextRetryAtEpochMs := none
      lastError := error.map sanitizeText }

def scheduleRetryAt (artifactId claimToken : String) (now updatedAt nextRetryAt : Nat)
    (error : String) : Plan CatRecordingValidationRecord :=
  updateRecordChecked latest artifactId updatedAt fun record => do
    validateProcessingClaim record claimToken now
    return clearProcessingClaim { record with
      validationStatus := .pendingValidation
      publicationStatus := .unpublished
      decision := none
      nextRetryAtEpochMs := some nextRetryAt
      lastError := some (sanitizeText error) }

def deferResourceContention (artifactId claimToken : String)
    (now updatedAt nextRetryAt : Nat) (error : String) : Plan CatRecordingValidationRecord :=
  updateRecordChecked latest artifactId updatedAt fun record => do
    validateProcessingClaim record claimToken now
    return clearProcessingClaim { record with
      attemptCount := record.attemptCount - 1
      validationStatus := .pendingValidation
      publicationStatus := .unpublished
      decision := none
      nextRetryAtEpochMs := some nextRetryAt
      lastError := some (sanitizeText error) }

def claimExpired (now : Nat) (record : CatRecordingValidationRecord) : Bool :=
  record.validationStatus == .processing &&
    record.claimLeaseDeadlineEpochMs.all fun deadline => deadline ≤ now

def recovered (now : Nat) (record : CatRecordingValidationRecord) :
    CatRecordingValidationRecord :=
  { clearProcessingClaim { record with
      validationStatus := .pendingValidation
      publicationStatus := .unpublished
      nextRetryAtEpochMs := none
      lastError := some "validation_claim_expired" } with
    updatedAtEpochMs := now }

def recoverLoop (now : Nat) : Latest → List String → Plan Unit
  | _, [] => .keep ()
  | latest, artifactId :: artifactIds =>
      match latest.lookup artifactId with
      | none => .fail (notFound artifactId)
      | some record =>
          let record := recovered now record
          let rest := recoverLoop now (latest.store record) artifactIds
          { rest with writes := record :: rest.writes }

def recoverExpiredClaimsAt (now : Nat) : Plan Nat :=
  let artifactIds :=
    ((latest.values.filter (claimExpired now)).map (·.artifactId)).insertionSort (· ≤ ·)
  (recoverLoop now latest artifactIds).map fun _ => artifactIds.length

/-- `token` is the part of the attempt token that is drawn. -/
def claimArtifactDiscard (artifactId : String) (mode : CatRecordingValidationMode)
    (leaseDurationMs now : Nat) (token : String) :
    Plan (Option CatRecordingValidationRecord) :=
  if leaseDurationMs = 0 then .fail "cat recording discard claim lease must be positive"
  else
    match latest.lookup artifactId with
    | none => .fail (notFound artifactId)
    | some record =>
        if !record.isPhysicalDiscardEligible mode then
          .fail "cat recording is not eligible for physical discard"
        else if record.artifactDisposition == .discardPending &&
            record.discardAttemptToken.any (fun token => token ≠ "") &&
            record.discardAttemptLeaseDeadlineEpochMs.any (fun deadline => now < deadline) then
          .keep none
        else if maxArtifactDiscardAttempts ≤ record.discardAttemptCount then
          .fail "cat recording discard attempts are exhausted"
        else
          let generation := saturatingAdd 64 record.discardAttemptGeneration 1
          (Plan.write { record with
            artifactDisposition := .discardPending
            discardAttemptCount := saturatingAdd 32 record.discardAttemptCount 1
            discardAttemptGeneration := generation
            discardAttemptToken := some ("discard-" ++ toString generation ++ "-" ++ token)
            discardAttemptLeaseDeadlineEpochMs := some (saturatingAdd 128 now leaseDurationMs)
            discardError := none
            updatedAtEpochMs := now }).map some

def markArtifactDiscarded (artifactId discardAttemptToken : String)
    (providerDeleted providerAlreadyAbsent : Bool) (now deletedAt updatedAt : Nat) :
    Plan CatRecordingValidationRecord :=
  updateRecordChecked latest artifactId updatedAt fun record => do
    validateDiscardAttempt record discardAttemptToken now
    if !providerDeleted && !providerAlreadyAbsent then
      .error "HarborLink did not confirm artifact deletion"
    else
      return { record with
        artifactDisposition := .discarded
        discardedAtEpochMs := some deletedAt
        discardError := none
        discardAttemptToken := none
        discardAttemptLeaseDeadlineEpochMs := none
        discardTombstone := some
          { completed := true
            deletedAtEpochMs := deletedAt
            provider := "harborlink"
            providerDeleted := providerDeleted
            providerAlreadyAbsent := providerAlreadyAbsent } }

def markArtifactDiscardFailed (artifactId discardAttemptToken error : String)
    (now updatedAt : Nat) : Plan CatRecordingValidationRecord :=
  updateRecordChecked latest artifactId updatedAt fun record => do
    validateDiscardAttempt record discardAttemptToken now
    return { record with
      artifactDisposition := .discardFailed
      discardError := some (sanitizeText error)
      discardAttemptToken := none
      discardAttemptLeaseDeadlineEpochMs := none }

end Operations

inductive LedgerOp where
  | register (artifact : HarborLinkRecordingArtifact)
      (detectionEvidence : List CatDetectionEvidence) (now : Nat)
  | claim (owner : String) (now leaseDurationMs : Nat) (token : String)
  | complete (artifactId claimToken : String) (now updatedAt : Nat)
      (validationStatus : CatRecordingValidationStatus)
      (decision : Option CatRecordingValidationDecision) (error : Option String)
  | retry (artifactId claimToken : String) (now updatedAt nextRetryAt : Nat) (error : String)
  | defer (artifactId claimToken : String) (now updatedAt nextRetryAt : Nat) (error : String)
  | recover (now : Nat)
  | claimDiscard (artifactId : String) (mode : CatRecordingValidationMode)
      (leaseDurationMs now : Nat) (token : String)
  | markDiscarded (artifactId discardAttemptToken : String)
      (providerDeleted providerAlreadyAbsent : Bool) (now deletedAt updatedAt : Nat)
  | markDiscardFailed (artifactId discardAttemptToken error : String) (now updatedAt : Nat)

inductive LedgerAnswer where
  | record (record : CatRecordingValidationRecord)
  | claim (record : Option CatRecordingValidationRecord)
  | count (n : Nat)

def LedgerOp.readings : LedgerOp → List Nat
  | .register _ _ now | .claim _ now _ _ | .recover now | .claimDiscard _ _ _ now _ => [now]
  | .complete _ _ now updatedAt _ _ _ | .retry _ _ now updatedAt _ _
  | .defer _ _ now updatedAt _ _ | .markDiscardFailed _ _ _ now updatedAt => [now, updatedAt]
  | .markDiscarded _ _ _ _ now deletedAt updatedAt => [now, deletedAt, updatedAt]

def LedgerOp.plan (sha256 : List UInt8 → List UInt8) (latest : Latest) :
    LedgerOp → Plan LedgerAnswer
  | .register artifact evidence now =>
      (registerCandidateWithEvidence latest sha256 artifact evidence now).map .record
  | .claim owner now leaseDurationMs token =>
      (claimNextPendingAt latest owner now leaseDurationMs token).map .claim
  | .complete artifactId claimToken now updatedAt validationStatus decision error =>
      (completeAt latest artifactId claimToken now updatedAt validationStatus decision
        error).map .record
  | .retry artifactId claimToken now updatedAt nextRetryAt error =>
      (scheduleRetryAt latest artifactId claimToken now updatedAt nextRetryAt error).map .record
  | .defer artifactId claimToken now updatedAt nextRetryAt error =>
      (deferResourceContention latest artifactId claimToken now updatedAt nextRetryAt
        error).map .record
  | .recover now => (recoverExpiredClaimsAt latest now).map .count
  | .claimDiscard artifactId mode leaseDurationMs now token =>
      (claimArtifactDiscard latest artifactId mode leaseDurationMs now token).map .claim
  | .markDiscarded artifactId discardAttemptToken deleted absent now deletedAt updatedAt =>
      (markArtifactDiscarded latest artifactId discardAttemptToken deleted absent now deletedAt
        updatedAt).map .record
  | .markDiscardFailed artifactId discardAttemptToken error now updatedAt =>
      (markArtifactDiscardFailed latest artifactId discardAttemptToken error now
        updatedAt).map .record

end HarborBeacon.CatRecordingValidation
