import HarborBeacon.CatRecordingLedger
import HarborBeacon.ConversationState
import HarborBeacon.KeyedLists

/-!
Which cat recordings a conversation gets. Of the recordings the published ones are kept, and of
those the ones of a part of the day are issued in batches, the newest first. The conversation
remembers the ids that were issued.
-/

namespace HarborBeacon.CatActivity

open CatRecordingValidation ConversationState FilledTables KeyedLists

open HarborLinkRecordingArtifact (artifactId startedAtEpochMs)

section Publication

def isPublished (record : CatRecordingValidationRecord) : Bool :=
  record.validationStatus == .accepted && record.publicationStatus == .published

def publishedIn (validationRecords : Latest) (artifactId : String) : Bool :=
  (validationRecords.lookup artifactId).any isPublished

def filterPublishableCatRecordings (recordings : List HarborLinkRecordingArtifact)
    (validationRecords : Latest) : List HarborLinkRecordingArtifact :=
  (dropRepeats artifactId none (sortOn startedAtEpochMs recordings)).filter fun artifact =>
    publishedIn validationRecords artifact.artifactId

variable {recordings : List HarborLinkRecordingArtifact} {validationRecords : Latest}

/-- Each published artifact among the recordings is listed once, and nothing else is. -/
def ListsPublishedOnce (recordings : List HarborLinkRecordingArtifact)
    (validationRecords : Latest) : Prop :=
  let listed := filterPublishableCatRecordings recordings validationRecords
  (∀ artifact ∈ listed, artifact ∈ recordings) ∧
    ∀ id, listed.countP (fun artifact => artifact.artifactId = id) =
      if id ∈ recordings.map artifactId ∧ publishedIn validationRecords id then 1 else 0

theorem filterPublishableCatRecordings_subset :
    ∀ artifact ∈ filterPublishableCatRecordings recordings validationRecords,
      artifact ∈ recordings := by
  intro artifact h
  rw [filterPublishableCatRecordings, List.mem_filter] at h
  exact mem_sortOn.mp (dropRepeats_sublist.subset h.1)

theorem countP_filterPublishableCatRecordings (id : String) :
    (filterPublishableCatRecordings recordings validationRecords).countP
        (fun artifact => artifact.artifactId = id) =
      if publishedIn validationRecords id then
        (dropRepeats artifactId none (sortOn startedAtEpochMs recordings)).countP
          fun artifact => artifact.artifactId = id
      else 0 := by
  rw [filterPublishableCatRecordings, List.countP_filter]
  split_ifs with hpublished
  · refine List.countP_congr fun artifact _ => ?_
    rw [Bool.and_eq_true, decide_eq_true_eq]
    exact ⟨And.left, fun heq => ⟨heq, heq ▸ hpublished⟩⟩
  · rw [List.countP_eq_zero]
    intro artifact _ h
    rw [Bool.and_eq_true, decide_eq_true_eq] at h
    exact hpublished (h.1 ▸ h.2)

theorem mem_map_sortOn (id : String) :
    id ∈ (sortOn startedAtEpochMs recordings).map artifactId ↔ id ∈ recordings.map artifactId :=
  ((sortOn_perm recordings).map artifactId).mem_iff

/-- The repeats of an artifact are dropped where nothing else started between them. -/
theorem listsPublishedOnce_iff : ListsPublishedOnce recordings validationRecords ↔
    ∀ artifact ∈ recordings, publishedIn validationRecords artifact.artifactId = true →
      NoneBetween artifactId startedAtEpochMs artifact.artifactId recordings := by
  have honce : ∀ id ∈ recordings.map artifactId,
      (dropRepeats artifactId none (sortOn startedAtEpochMs recordings)).countP
          (fun artifact => artifact.artifactId = id) = 1 ↔
        NoneBetween artifactId startedAtEpochMs id recordings := by
    intro id hid
    rw [← together_sortOn_iff]
    exact countP_dropRepeats_eq_one_iff ((mem_map_sortOn id).mpr hid)
  constructor
  · rintro ⟨-, hcounts⟩ artifact hmem hpublished
    have hid : artifact.artifactId ∈ recordings.map artifactId := List.mem_map_of_mem hmem
    have hcount := hcounts artifact.artifactId
    rw [countP_filterPublishableCatRecordings, if_pos hpublished,
      if_pos ⟨hid, hpublished⟩] at hcount
    exact (honce _ hid).mp hcount
  · intro hnone
    refine ⟨filterPublishableCatRecordings_subset, fun id => ?_⟩
    rw [countP_filterPublishableCatRecordings]
    by_cases hpublished : publishedIn validationRecords id = true
    · rw [if_pos hpublished]
      by_cases hid : id ∈ recordings.map artifactId
      · rw [if_pos ⟨hid, hpublished⟩, honce id hid]
        obtain ⟨artifact, hmem, rfl⟩ := List.mem_map.mp hid
        exact hnone artifact hmem hpublished
      · rw [if_neg fun h => hid h.1, countP_dropRepeats_eq_zero_iff (by simp), mem_map_sortOn]
        exact hid
    · rw [if_neg hpublished, if_neg fun h => hpublished h.2]

def clip (artifactId : String) (startedAt : Nat) : HarborLinkRecordingArtifact where
  artifactId := artifactId
  cameraId := "cam-1"
  kind := "recording"
  mimeType := "video/mp4"
  byteSize := 1024
  startedAtEpochMs := startedAt
  endedAtEpochMs := startedAt + 10000
  durationSeconds := 10
  eventId := some "event-1"
  source := none

def publishedClip (artifactId : String) : Latest :=
  let artifact := clip artifactId 0
  Latest.store ∅
    { newRecord (fun _ => []) artifact "event-1" [] 0 with
      validationStatus := .accepted
      publicationStatus := .published }

/-- A clip that is listed with two times is issued twice if another one started in between. -/
theorem not_listsPublishedOnce_of_interleaved_start :
    ¬ ListsPublishedOnce [clip "a" 1000, clip "b" 2000, clip "a" 3000] (publishedClip "a") := by
  rintro ⟨-, hcounts⟩
  have hsorted : sortOn startedAtEpochMs [clip "a" 1000, clip "b" 2000, clip "a" 3000] =
      [clip "a" 1000, clip "b" 2000, clip "a" 3000] := sortOn_of_sorted (by decide)
  have hcount := hcounts "a"
  rw [filterPublishableCatRecordings, hsorted] at hcount
  revert hcount
  decide

end Publication

inductive CatActivityTimeScope where
  | inherit
  | today
  | morning
  | afternoon
  | evening
  | recent
deriving DecidableEq

inductive CatActivitySelection where
  | batch
  | latest
  | remaining
  | resendLast
deriving DecidableEq

structure CatActivityQueryOptions where
  timeScope : CatActivityTimeScope
  selection : CatActivitySelection
  limit : Nat

def hourMs : Nat := 60 * 60 * 1000

def dayMs : Nat := 24 * hourMs

def chinaUtcOffsetMs : Nat := 8 * hourMs

def saturatingMul (bits a b : Nat) : Nat :=
  min (a * b) (2 ^ bits - 1)

def chinaDayNumber (epochMs : Nat) : Nat :=
  saturatingAdd 128 epochMs chinaUtcOffsetMs / dayMs

/-- From when on, and until when. -/
def scopeBounds (timeScope : CatActivityTimeScope) (nowEpochMs : Nat) : Nat × Nat :=
  let dayStart := saturatingMul 128 (chinaDayNumber nowEpochMs) dayMs - chinaUtcOffsetMs
  match timeScope with
  | .morning => (dayStart, saturatingAdd 128 dayStart (12 * hourMs))
  | .afternoon =>
      (saturatingAdd 128 dayStart (12 * hourMs), saturatingAdd 128 dayStart (18 * hourMs))
  | .evening => (saturatingAdd 128 dayStart (18 * hourMs), saturatingAdd 128 dayStart dayMs)
  | .recent => (nowEpochMs - 2 * hourMs, nowEpochMs)
  | .inherit | .today => (dayStart, saturatingAdd 128 dayStart dayMs)

def catActivityRecordingIsInScope (artifact : HarborLinkRecordingArtifact)
    (timeScope : CatActivityTimeScope) (nowEpochMs : Nat) : Bool :=
  let bounds := scopeBounds timeScope nowEpochMs
  decide (bounds.1 ≤ artifact.startedAtEpochMs) && decide (artifact.startedAtEpochMs < bounds.2) &&
    decide (artifact.startedAtEpochMs ≤ nowEpochMs)

def recency (artifact : HarborLinkRecordingArtifact) : (Nat ×ₗ String)ᵒᵈ :=
  OrderDual.toDual (toLex (artifact.startedAtEpochMs, artifact.artifactId))

def scopedRecordings (recordings : List HarborLinkRecordingArtifact)
    (timeScope : CatActivityTimeScope) (nowEpochMs : Nat) : List HarborLinkRecordingArtifact :=
  sortOn recency <| keepFirst artifactId [] <|
    recordings.filter fun artifact => catActivityRecordingIsInScope artifact timeScope nowEpochMs

/-- The place of each id, as a `HashMap` collects them. -/
def batchOrder (ids : List String) : Table Nat :=
  ids.zipIdx.foldl (fun order entry => order.insert entry.1 entry.2) ∅

def usizeMax : Nat := 2 ^ 64 - 1

def selectCatActivityRecordings (recordings : List HarborLinkRecordingArtifact)
    (query : CatActivityQueryOptions) (nowEpochMs : Nat)
    (previous : Option RecentCatActivityQueryState) : List HarborLinkRecordingArtifact :=
  let recordings := scopedRecordings recordings query.timeScope nowEpochMs
  let selected : List HarborLinkRecordingArtifact :=
    match query.selection with
    | .remaining =>
        let issued := (previous.map (·.issuedArtifactIds)).getD []
        recordings.filter fun artifact => artifact.artifactId ∉ issued
    | .resendLast =>
        let order := batchOrder ((previous.map (·.lastBatchArtifactIds)).getD [])
        sortOn (fun artifact => (order.lookup artifact.artifactId).getD usizeMax) <|
          recordings.filter fun artifact => (order.lookup artifact.artifactId).isSome
    | .batch | .latest => recordings
  selected.take (if query.selection = .latest then 1 else query.limit)

section Batches

variable {recordings listing : List HarborLinkRecordingArtifact} {timeScope : CatActivityTimeScope}
  {nowEpochMs limit : Nat} {batch : List HarborLinkRecordingArtifact}
  {batches : List (List HarborLinkRecordingArtifact)}

/-- The recordings of a part of the day, the newest first, and each id once. -/
structure NewestFirst (recordings : List HarborLinkRecordingArtifact)
    (timeScope : CatActivityTimeScope) (nowEpochMs : Nat)
    (listing : List HarborLinkRecordingArtifact) : Prop where
  sound : ∀ artifact ∈ listing, artifact ∈ recordings ∧
    catActivityRecordingIsInScope artifact timeScope nowEpochMs = true
  complete : ∀ artifact ∈ recordings,
    catActivityRecordingIsInScope artifact timeScope nowEpochMs = true →
      artifact.artifactId ∈ listing.map artifactId
  nodup : (listing.map artifactId).Nodup
  newest : listing.Pairwise fun left right => right.startedAtEpochMs ≤ left.startedAtEpochMs

theorem newestFirst_scopedRecordings :
    NewestFirst recordings timeScope nowEpochMs
      (scopedRecordings recordings timeScope nowEpochMs) where
  sound := by
    intro artifact h
    have hmem := keepFirst_sublist.subset (mem_sortOn.mp h)
    exact List.mem_filter.mp hmem
  complete := by
    intro artifact hmem hscope
    rw [scopedRecordings, ((sortOn_perm _).map artifactId).mem_iff,
      mem_map_keepFirst List.not_mem_nil]
    exact List.mem_map_of_mem (List.mem_filter.mpr ⟨hmem, hscope⟩)
  nodup := ((sortOn_perm _).map artifactId).nodup_iff.mpr nodup_keepFirst
  newest := by
    have hsorted : ((scopedRecordings recordings timeScope nowEpochMs).map recency).Pairwise
        (· ≤ ·) := sorted_sortOn _
    rw [List.pairwise_map] at hsorted
    refine hsorted.imp fun hle => ?_
    rw [recency, recency, OrderDual.toDual_le_toDual, Prod.Lex.toLex_le_toLex'] at hle
    exact hle.1

/-- A batch, and then batches of the remaining recordings, with the ids of all batches so far. -/
inductive Issues (recordings : List HarborLinkRecordingArtifact) (timeScope : CatActivityTimeScope)
    (limit nowEpochMs : Nat) : List (List HarborLinkRecordingArtifact) → Prop
  | batch (previous : Option RecentCatActivityQueryState) :
      Issues recordings timeScope limit nowEpochMs
        [selectCatActivityRecordings recordings ⟨timeScope, .batch, limit⟩ nowEpochMs previous]
  | remaining {batches : List (List HarborLinkRecordingArtifact)}
      {previous : RecentCatActivityQueryState}
      (hbatches : Issues recordings timeScope limit nowEpochMs batches)
      (hissued : ∀ id, id ∈ previous.issuedArtifactIds ↔ id ∈ batches.flatten.map artifactId) :
      Issues recordings timeScope limit nowEpochMs
        (batches ++ [selectCatActivityRecordings recordings ⟨timeScope, .remaining, limit⟩
          nowEpochMs (some previous)])

section Selections

variable {issued rest : List HarborLinkRecordingArtifact} {previous : RecentCatActivityQueryState}

theorem select_batch (previous : Option RecentCatActivityQueryState) :
    selectCatActivityRecordings recordings ⟨timeScope, .batch, limit⟩ nowEpochMs previous =
      (scopedRecordings recordings timeScope nowEpochMs).take limit :=
  rfl

theorem select_remaining
    (hlisting : scopedRecordings recordings timeScope nowEpochMs = issued ++ rest)
    (hissued : ∀ id, id ∈ previous.issuedArtifactIds ↔ id ∈ issued.map artifactId) :
    selectCatActivityRecordings recordings ⟨timeScope, .remaining, limit⟩ nowEpochMs
      (some previous) = rest.take limit := by
  have hnodup : ((issued ++ rest).map artifactId).Nodup :=
    hlisting ▸ newestFirst_scopedRecordings.nodup
  have hrest := filter_not_mem_append hnodup hissued
  simp only [selectCatActivityRecordings, hlisting, reduceCtorEq, if_false]
  exact congrArg (List.take limit) hrest

theorem lookup_batchOrder (ids : List String) (hids : ids.Nodup) (id : String) :
    (batchOrder ids).lookup id = if id ∈ ids then some (ids.idxOf id) else none := by
  induction ids using List.reverseRecOn with
  | nil => rfl
  | append_singleton ids last ih =>
      have hinsert : batchOrder (ids ++ [last]) = (batchOrder ids).insert last ids.length := by
        rw [batchOrder, List.zipIdx_append, List.foldl_append, Nat.zero_add]
        rfl
      rw [List.nodup_append'] at hids
      obtain ⟨hids, -, hlast⟩ := hids
      have hlast : last ∉ ids := List.disjoint_singleton.mp hlast
      rw [hinsert, Table.lookup_insert_eq_ite, ih hids]
      by_cases hid : id = last
      · rw [if_pos hid, hid, if_pos (by simp), List.idxOf_append_of_notMem hlast,
          List.idxOf_cons_self, Nat.add_zero]
      · rw [if_neg hid]
        by_cases hmem : id ∈ ids
        · rw [if_pos hmem, if_pos (List.mem_append_left _ hmem), List.idxOf_append_of_mem hmem]
        · rw [if_neg hmem, if_neg (by simp [hmem, hid])]

theorem select_resendLast {last : List HarborLinkRecordingArtifact}
    (hlast : last.Sublist (scopedRecordings recordings timeScope nowEpochMs))
    (hlimit : last.length ≤ limit) (hids : previous.lastBatchArtifactIds = last.map artifactId) :
    selectCatActivityRecordings recordings ⟨timeScope, .resendLast, limit⟩ nowEpochMs
      (some previous) = last := by
  have hnodup : ((scopedRecordings recordings timeScope nowEpochMs).map artifactId).Nodup :=
    newestFirst_scopedRecordings.nodup
  have hlast_ids : (last.map artifactId).Nodup := (hlast.map artifactId).nodup hnodup
  have hlookup := lookup_batchOrder (last.map artifactId) hlast_ids
  have hkept : (scopedRecordings recordings timeScope nowEpochMs).filter (fun artifact =>
      ((batchOrder (last.map artifactId)).lookup artifact.artifactId).isSome) = last := by
    refine Eq.trans (List.filter_congr fun artifact _ => ?_) (filter_mem_sublist hnodup hlast)
    rw [hlookup]
    split_ifs with hid <;> simp [hid]
  have hsorted : sortOn (fun artifact : HarborLinkRecordingArtifact =>
      ((batchOrder (last.map artifactId)).lookup artifact.artifactId).getD usizeMax) last =
        last := by
    refine sortOn_of_sorted ?_
    have hplaces : last.map (fun artifact =>
        ((batchOrder (last.map artifactId)).lookup artifact.artifactId).getD usizeMax) =
          List.range last.length := by
      refine List.ext_getElem (by simp) fun i hmapped hrange => ?_
      have hi : i < last.length := by simpa using hrange
      have hidxOf := hlast_ids.idxOf_getElem i (by simpa using hi)
      rw [List.getElem_map] at hidxOf
      have hmem : last[i].artifactId ∈ last.map artifactId :=
        List.mem_map_of_mem (List.getElem_mem hi)
      rw [List.getElem_map, hlookup, if_pos hmem, Option.getD_some, List.getElem_range]
      exact hidxOf
    rw [hplaces]
    exact List.pairwise_le_range
  simp only [selectCatActivityRecordings, Option.map_some, Option.getD_some, hids, hkept, hsorted,
    reduceCtorEq, if_false]
  exact List.take_of_length_le hlimit

end Selections

theorem Issues.flatten_eq (h : Issues recordings timeScope limit nowEpochMs batches) :
    batches.flatten =
      (scopedRecordings recordings timeScope nowEpochMs).take (limit * batches.length) := by
  induction h with
  | batch previous => rw [select_batch, List.flatten_singleton, List.length_singleton, Nat.mul_one]
  | @remaining batches previous hbatches hissued ih =>
      have hlisting := (List.take_append_drop (limit * batches.length)
        (scopedRecordings recordings timeScope nowEpochMs)).symm
      rw [ih] at hissued
      rw [select_remaining hlisting hissued, List.flatten_append, List.flatten_singleton, ih,
        ← List.take_add, List.length_append, List.length_singleton, Nat.mul_succ]

theorem Issues.sublist_of_mem (h : Issues recordings timeScope limit nowEpochMs batches)
    (hmem : batch ∈ batches) :
    batch.Sublist (scopedRecordings recordings timeScope nowEpochMs) ∧ batch.length ≤ limit := by
  constructor
  · have hflatten : batch.Sublist batches.flatten := List.sublist_flatten_of_mem hmem
    rw [h.flatten_eq] at hflatten
    exact hflatten.trans (List.take_sublist _ _)
  · induction h with
    | batch previous =>
        rw [List.mem_singleton.mp hmem]
        exact List.length_take_le _ _
    | @remaining batches previous hbatches hissued ih =>
        rw [List.mem_append, List.mem_singleton] at hmem
        obtain hmem | rfl := hmem
        · exact ih hmem
        · exact List.length_take_le _ _

theorem Issues.flatten_eq_of_empty (hlimit : 1 ≤ limit)
    (h : Issues recordings timeScope limit nowEpochMs batches)
    (hempty : batches.getLast? = some []) :
    batches.flatten = scopedRecordings recordings timeScope nowEpochMs := by
  have hnone : ∀ {rest : List HarborLinkRecordingArtifact}, rest.take limit = [] → rest = [] := by
    intro rest hrest
    exact (List.take_eq_nil_iff.mp hrest).resolve_left (by omega)
  cases h with
  | batch previous =>
      rw [select_batch, List.getLast?_singleton, Option.some.injEq] at hempty
      rw [select_batch, hempty, hnone hempty]
      rfl
  | @remaining batches previous hbatches hissued =>
      have hlisting := (List.take_append_drop (limit * batches.length)
        (scopedRecordings recordings timeScope nowEpochMs)).symm
      rw [hbatches.flatten_eq] at hissued
      have hselect : selectCatActivityRecordings recordings ⟨timeScope, .remaining, limit⟩
          nowEpochMs (some previous) = _ := select_remaining hlisting hissued
      rw [List.getLast?_concat, Option.some.injEq, hselect] at hempty
      rw [hselect, hempty, List.flatten_append, hbatches.flatten_eq]
      conv_rhs => rw [hlisting, hnone hempty]
      rfl

end Batches

end HarborBeacon.CatActivity
