import HarborBeacon.Binary32
import HarborBeacon.GroupedRows
import HarborBeacon.Results
import HarborBeacon.TaskContract
import HarborBeacon.VisionEvents
import Mathlib.Data.Prod.Lex

/-!
The timeline of a family: the newest of the vision events that a query asks for, and for each
camera a bucket with its events among them.
-/

namespace HarborBeacon.FamilyTimeline

open Binary32 FilledTables GroupedRows Json Json.Value Results TaskContract Text VisionEvents

structure FamilyTimelineArtifactMetadata where
  artifactId : Option String
  mimeType : Option String
  byteSize : Option UInt64
  sha256Present : Bool
  localPathRedacted : Bool
  rawImageIncluded : Bool
deriving DecidableEq

structure FamilyTimelineEvent where
  eventId : String
  cameraId : String
  eventType : String
  summary : String
  confidence : UInt32
  labels : List String
  startedAt : String
  receivedAt : String
  latencyMs : UInt64
  vlmStatus : String
  artifact : FamilyTimelineArtifactMetadata
deriving DecidableEq

structure FamilyTimelineBucket where
  bucketId : String
  cameraId : String
  startedAt : String
  endedAt : String
  eventCount : Nat
  eventTypes : List String
  topLabels : List String
  eventIds : List String
deriving DecidableEq

structure FamilyTimelineResponse where
  generatedAt : String
  windowSeconds : UInt64
  eventCount : Nat
  metadataOnly : Bool
  buckets : List FamilyTimelineBucket
  events : List FamilyTimelineEvent
deriving DecidableEq

structure FamilyTimelineQueryOptions where
  windowSeconds : UInt64 := 24 * 60 * 60
  cameraFilter : Option String := none
  labelFilter : Option String := none
  limit : Nat := 50
deriving DecidableEq

def FamilyTimelineArtifactMetadata.toValue (artifact : FamilyTimelineArtifactMetadata) : Value :=
  structObj
    [("artifact_id", artifact.artifactId.map string),
     ("mime_type", artifact.mimeType.map string),
     ("byte_size", artifact.byteSize.map fun n => .number (.unsigned n)),
     ("sha256_present", some (.bool artifact.sha256Present)),
     ("local_path_redacted", some (.bool artifact.localPathRedacted)),
     ("raw_image_included", some (.bool artifact.rawImageIncluded))]

/-- The JSON form of an `f32`, given by its bits. -/
def singleValue (bits : UInt32) : Value :=
  let x : F32 := { bits := bits }
  if x.isFinite then .number (.float x.toDouble) else .null

def FamilyTimelineEvent.fields (event : FamilyTimelineEvent) : Fields :=
  [("event_id", string event.eventId),
   ("camera_id", string event.cameraId),
   ("event_type", string event.eventType),
   ("summary", string event.summary),
   ("confidence", singleValue event.confidence),
   ("labels", ofStrings event.labels),
   ("started_at", string event.startedAt),
   ("received_at", string event.receivedAt),
   ("latency_ms", .number (.unsigned event.latencyMs)),
   ("vlm_status", string event.vlmStatus),
   ("artifact", event.artifact.toValue)]

def countValue (n : Nat) : Value :=
  .number (.unsigned (UInt64.ofNat n))

def FamilyTimelineBucket.toValue (bucket : FamilyTimelineBucket) : Value :=
  obj
    [("bucket_id", string bucket.bucketId),
     ("camera_id", string bucket.cameraId),
     ("started_at", string bucket.startedAt),
     ("ended_at", string bucket.endedAt),
     ("event_count", countValue bucket.eventCount),
     ("event_types", ofStrings bucket.eventTypes),
     ("top_labels", ofStrings bucket.topLabels),
     ("event_ids", ofStrings bucket.eventIds)]

def FamilyTimelineResponse.toValue (response : FamilyTimelineResponse) : Value :=
  obj
    [("generated_at", string response.generatedAt),
     ("window_seconds", .number (.unsigned response.windowSeconds)),
     ("event_count", countValue response.eventCount),
     ("metadata_only", .bool response.metadataOnly),
     ("buckets", array (response.buckets.map FamilyTimelineBucket.toValue)),
     ("events", array (response.events.map fun event => obj event.fields))]

def saturatingMul (a b : Nat) : Nat :=
  min (a * b) (2 ^ 64 - 1)

def withoutPrefix (start text : String) : String :=
  if startsWithText text start then String.ofList (text.toList.drop start.toList.length) else text

/-- A number of up to ten digits counts seconds, a larger one milliseconds. -/
def parseEpochMs (value : String) : Option Nat := do
  let parsed ← parseU64 (trim (withoutPrefix "epoch_ms:" (trim value)))
  if parsed.toNat > 9999999999 then some parsed.toNat
  else some (saturatingMul parsed.toNat 1000)

def nowEpochMsString (now : UInt64) : String :=
  "epoch_ms:" ++ toString now.toNat

def startTime (startedAt : String) : Nat :=
  (parseEpochMs startedAt).getD 0

def normalizeOptionalFilter (value : Option String) : Option String :=
  (value.map trim).filter (· ≠ "")

def FamilyTimelineQueryOptions.new (windowSeconds : UInt64)
    (cameraFilter labelFilter : Option String) (limit : Nat) : FamilyTimelineQueryOptions where
  windowSeconds := min (max windowSeconds 60) (7 * 24 * 60 * 60)
  cameraFilter := normalizeOptionalFilter cameraFilter
  labelFilter := normalizeOptionalFilter labelFilter
  limit := min (max limit 1) 100

def FamilyTimelineQueryOptions.keepsCamera (options : FamilyTimelineQueryOptions)
    (cameraId : String) : Bool :=
  options.cameraFilter.all fun camera => toAsciiLowercase cameraId = toAsciiLowercase camera

def FamilyTimelineQueryOptions.keepsLabel (options : FamilyTimelineQueryOptions)
    (labels : List String) (eventType : String) : Bool :=
  options.labelFilter.all fun label =>
    (labels.any fun other => toAsciiLowercase other = toAsciiLowercase label) ||
      toAsciiLowercase eventType = toAsciiLowercase label

def cutoffMs (options : FamilyTimelineQueryOptions) (now : UInt64) : Nat :=
  now.toNat - saturatingMul (max options.windowSeconds 1).toNat 1000

def inWindow (cutoff : Nat) (stored : StoredLocalVisionEvent) : Bool :=
  ((parseEpochMs stored.event.startedAt).or (parseEpochMs stored.receivedAt)).all
    fun timestamp => cutoff ≤ timestamp

def matchesQuery (options : FamilyTimelineQueryOptions) (now : UInt64)
    (stored : StoredLocalVisionEvent) : Bool :=
  options.keepsCamera stored.event.cameraId &&
    options.keepsLabel stored.event.labels stored.event.eventType &&
    inWindow (cutoffMs options now) stored

def clampedLimit (options : FamilyTimelineQueryOptions) : Nat :=
  min (max options.limit 1) 100

def familyTimelineEvent (stored : StoredLocalVisionEvent) : FamilyTimelineEvent :=
  let event := stored.event
  { eventId := event.eventId
    cameraId := event.cameraId
    eventType := event.eventType
    summary := localVisionAutomationSummary event
    confidence := event.confidence
    labels := event.labels
    startedAt := event.startedAt
    receivedAt := stored.receivedAt
    latencyMs := event.latencyMs
    vlmStatus := localVisionVlmStatus event
    artifact :=
      { artifactId := event.snapshotArtifact.artifactId
        mimeType := event.snapshotArtifact.mimeType
        byteSize := event.snapshotArtifact.byteSize
        sha256Present := event.snapshotArtifact.sha256.isSome
        localPathRedacted := true
        rawImageIncluded := false } }

/-- The most frequent texts, up to case and white space; of equally frequent ones the first in the
order of texts. -/
def countedStrings (values : List String) (limit : Nat) : List String :=
  let normalized := (values.map fun value => toAsciiLowercase (trim value)).filter (· ≠ "")
  (sortOn (fun value => toLex (OrderDual.toDual (normalized.count value), value))
    (sortedSet normalized)).take (max limit 1)

def buildBucket (cameraId : String) (events : List FamilyTimelineEvent) : FamilyTimelineBucket :=
  let events := sortOn (fun event => startTime event.startedAt) events
  let startedAt := (events.head?.map fun event => event.startedAt).getD ""
  let eventIds := events.map fun event => event.eventId
  { bucketId := "family_timeline_" ++ cameraId
    cameraId := cameraId
    startedAt := startedAt
    endedAt := (events.getLast?.map fun event => event.startedAt).getD startedAt
    eventCount := eventIds.length
    eventTypes := countedStrings (events.map fun event => event.eventType) 6
    topLabels := countedStrings (events.flatMap fun event => event.labels) 8
    eventIds := eventIds }

def ofCamera (cameraId : String) (events : List FamilyTimelineEvent) : List FamilyTimelineEvent :=
  events.filter fun event => event.cameraId = cameraId

def cameras (events : List FamilyTimelineEvent) : List String :=
  sortedSet (events.map fun event => event.cameraId)

def bucketKey (bucket : FamilyTimelineBucket) : Lex (Natᵒᵈ × Natᵒᵈ) :=
  toLex (OrderDual.toDual (startTime bucket.endedAt), OrderDual.toDual bucket.eventCount)

def cameraBuckets (events : List FamilyTimelineEvent) : List FamilyTimelineBucket :=
  (cameras events).map fun camera => buildBucket camera (ofCamera camera events)

def buildFamilyTimelineBuckets (events : List FamilyTimelineEvent) : List FamilyTimelineBucket :=
  sortOn bucketKey (cameraBuckets events)

def newestKey (event : FamilyTimelineEvent) : Lex (Natᵒᵈ × Stringᵒᵈ) :=
  toLex (OrderDual.toDual (startTime event.startedAt), OrderDual.toDual event.eventId)

def validateFamilyTimelineResponse (response : FamilyTimelineResponse) : Except String Unit := do
  rejectSensitiveValue response.toValue
  rejectLocalPathValue response.toValue

/-- The clock is read for the window and again for the response. -/
def buildFamilyTimelineFromQuery (events : List StoredLocalVisionEvent)
    (options : FamilyTimelineQueryOptions) (now later : UInt64) :
    Except String FamilyTimelineResponse := do
  let timelineEvents := (sortOn newestKey
    ((events.filter (matchesQuery options now)).map familyTimelineEvent)).take
      (clampedLimit options)
  let response : FamilyTimelineResponse :=
    { generatedAt := nowEpochMsString later
      windowSeconds := max options.windowSeconds 1
      eventCount := timelineEvents.length
      metadataOnly := true
      buckets := buildFamilyTimelineBuckets timelineEvents
      events := timelineEvents }
  validateFamilyTimelineResponse response
  return response

section Buckets

theorem startTime_le_of_newestKey {a b : FamilyTimelineEvent} (h : newestKey a ≤ newestKey b) :
    startTime b.startedAt ≤ startTime a.startedAt := by
  rw [newestKey, newestKey, Prod.Lex.toLex_le_toLex] at h
  rcases h with hlt | heq
  · exact le_of_lt (OrderDual.toDual_lt_toDual.mp hlt)
  · exact le_of_eq (OrderDual.toDual_inj.mp heq.1).symm

theorem startTime_le_of_bucketKey {a b : FamilyTimelineBucket} (h : bucketKey a ≤ bucketKey b) :
    startTime b.endedAt ≤ startTime a.endedAt := by
  rw [bucketKey, bucketKey, Prod.Lex.toLex_le_toLex] at h
  rcases h with hlt | heq
  · exact le_of_lt (OrderDual.toDual_lt_toDual.mp hlt)
  · exact le_of_eq (OrderDual.toDual_inj.mp heq.1).symm

structure BucketAgrees (events : List FamilyTimelineEvent) (bucket : FamilyTimelineBucket) :
    Prop where
  own : bucket.eventIds.Perm ((ofCamera bucket.cameraId events).map fun event => event.eventId)
  count : bucket.eventCount = (ofCamera bucket.cameraId events).length
  starts : ∃ first ∈ ofCamera bucket.cameraId events, bucket.startedAt = first.startedAt ∧
    ∀ event ∈ ofCamera bucket.cameraId events, startTime first.startedAt ≤ startTime event.startedAt
  ends : ∃ last ∈ ofCamera bucket.cameraId events, bucket.endedAt = last.startedAt ∧
    ∀ event ∈ ofCamera bucket.cameraId events, startTime event.startedAt ≤ startTime last.startedAt

/-- The buckets take the events apart by their cameras, and the one with the latest event is the
first. -/
structure Partitions (events : List FamilyTimelineEvent) (buckets : List FamilyTimelineBucket) :
    Prop where
  cameras_nodup : (buckets.map fun bucket => bucket.cameraId).Nodup
  covers : (buckets.flatMap fun bucket => bucket.eventIds).Perm
    (events.map fun event => event.eventId)
  agrees : ∀ bucket ∈ buckets, BucketAgrees events bucket
  latest_first : (buckets.map fun bucket => startTime bucket.endedAt).Pairwise (· ≥ ·)

variable {events : List FamilyTimelineEvent} {camera : String}

theorem ofCamera_ne_nil (h : camera ∈ cameras events) : ofCamera camera events ≠ [] := by
  rw [cameras, mem_sortedSet, List.mem_map] at h
  obtain ⟨event, hevent, rfl⟩ := h
  exact List.ne_nil_of_mem (List.mem_filter.mpr ⟨hevent, by simp⟩)

theorem bucketAgrees_buildBucket (h : camera ∈ cameras events) :
    BucketAgrees events (buildBucket camera (ofCamera camera events)) := by
  have hne := ofCamera_ne_nil h
  have hperm : (sortOn (fun event => startTime event.startedAt) (ofCamera camera events)).Perm
      (ofCamera camera events) := sortOn_perm _
  obtain ⟨first, hfirst, hhead, hle⟩ := exists_head?_sortOn (fun event => startTime event.startedAt)
    hne
  obtain ⟨last, hlast, hend, hge⟩ := exists_getLast?_sortOn (fun event => startTime event.startedAt)
    hne
  constructor
  · exact hperm.map _
  · simp only [buildBucket, List.length_map]
    exact hperm.length_eq
  · refine ⟨first, hfirst, ?_, hle⟩
    simp only [buildBucket, hhead, Option.map_some, Option.getD_some]
  · refine ⟨last, hlast, ?_, hge⟩
    simp only [buildBucket, hend, Option.map_some, Option.getD_some]

theorem nodup_cameras (events : List FamilyTimelineEvent) : (cameras events).Nodup := by
  rw [cameras, sortedSet]
  exact (List.perm_insertionSort _ _).nodup_iff.mpr (List.nodup_dedup _)

theorem map_cameraId_cameraBuckets (events : List FamilyTimelineEvent) :
    (cameraBuckets events).map (fun bucket => bucket.cameraId) = cameras events := by
  rw [cameraBuckets, List.map_map]
  exact List.map_id (cameras events)

theorem eventIds_cameraBuckets (events : List FamilyTimelineEvent) :
    ((cameraBuckets events).flatMap fun bucket => bucket.eventIds).Perm
      (events.map fun event => event.eventId) := by
  have hcovered : ∀ event ∈ events, event.cameraId ∈ cameras events := fun event hevent =>
    mem_sortedSet.mpr (List.mem_map_of_mem hevent)
  have hgroups := (flatMap_groups_perm (nodup_cameras events) hcovered).map
    fun event => event.eventId
  have hids : ∀ camera ∈ cameras events,
      (buildBucket camera (ofCamera camera events)).eventIds.Perm
        ((ofCamera camera events).map fun event => event.eventId) := fun camera _ =>
    (sortOn_perm _).map _
  rw [cameraBuckets, List.flatMap_map]
  rw [List.map_flatMap] at hgroups
  exact (List.Perm.flatMap_left _ hids).trans hgroups

theorem partitions_buildFamilyTimelineBuckets (events : List FamilyTimelineEvent) :
    Partitions events (buildFamilyTimelineBuckets events) := by
  have hperm : (sortOn bucketKey (cameraBuckets events)).Perm (cameraBuckets events) :=
    sortOn_perm _
  have hsorted : ((sortOn bucketKey (cameraBuckets events)).map bucketKey).Pairwise (· ≤ ·) :=
    sorted_sortOn _
  constructor
  · rw [buildFamilyTimelineBuckets, (hperm.map _).nodup_iff, map_cameraId_cameraBuckets]
    exact nodup_cameras events
  · exact (hperm.flatMap_right _).trans (eventIds_cameraBuckets events)
  · intro bucket hbucket
    rw [buildFamilyTimelineBuckets, mem_sortOn, cameraBuckets, List.mem_map] at hbucket
    obtain ⟨camera, hcamera, rfl⟩ := hbucket
    exact bucketAgrees_buildBucket hcamera
  · rw [List.pairwise_map] at hsorted ⊢
    exact hsorted.imp startTime_le_of_bucketKey

theorem response_eq {events : List StoredLocalVisionEvent}
    {options : FamilyTimelineQueryOptions} {now later : UInt64} {response : FamilyTimelineResponse}
    (h : buildFamilyTimelineFromQuery events options now later = .ok response) :
    response.events = (sortOn newestKey
        ((events.filter (matchesQuery options now)).map familyTimelineEvent)).take
          (clampedLimit options) ∧
      response.buckets = buildFamilyTimelineBuckets response.events := by
  obtain ⟨_, -, h⟩ := bind_eq_ok h
  obtain rfl := Except.ok.inj h
  exact ⟨rfl, rfl⟩

end Buckets

def doorVisit (eventId startedAt : String) : StoredLocalVisionEvent where
  receivedAt := "epoch_ms:1700000000500"
  event :=
    { eventId := eventId
      cameraId := "front-door"
      eventType := "person_detected"
      confidence := 0x3F000000
      labels := ["person"]
      summary := "visitor"
      snapshotArtifact := {}
      startedAt := startedAt
      analyzer := "cpu"
      latencyMs := 5 }
  auditRecord := .null
  haMqttPayload := .null

end HarborBeacon.FamilyTimeline
