import HarborBeacon.StoreInvariant

/-!
A finished task is replayed from its run, step, artifact and event records. The replay
gives the response back exactly when its texts, artifact kinds, artifact order and events
survive the way through the records.
-/

namespace HarborBeacon.Replay

open ControlPlane FileProgram Json Json.Value ServiceSteps StoreInvariant TaskApi TaskContract
open TaskSession TaskTracking Text

def listedArtifacts (file : TaskConversationFile) (taskId : String) : List ArtifactRecord :=
  (file.artifacts.values.filter fun artifact => artifact.taskId = taskId).insertionSort
    fun left right => left.artifactId ≤ right.artifactId

def listedEvents (file : TaskConversationFile) (taskId : String) : List EventRecord :=
  sortByStamp (fun event => (event.occurredAt, event.eventId))
    (file.events.values.filter fun event => event.sourceId = taskId)

def replayedResponse (file : TaskConversationFile) (taskRun : TaskRun) : TaskResponse :=
  let stepId := metadataId taskRun "step_id"
  let taskStep := stepId.bind file.taskSteps.lookup
  let outputPayload := (taskStep.map (·.outputPayload)).getD .null
  { taskId := taskRun.taskId
    traceId := (metadataId taskRun "trace_id").getD taskRun.taskId
    status := taskStatusFromTaskRunStatus taskRun.status
    executorUsed := (taskStep.map (·.executorUsed)).getD "task_api_dispatch"
    riskLevel := taskRun.riskLevel
    result :=
      { message := (stringAtPaths outputPayload [["message"]]).getD ""
        data := (outputPayload.pointer ["data"]).getD (obj [])
        artifacts := ((listedArtifacts file taskRun.taskId).filter fun artifact =>
          stepId.isNone || artifact.stepId = stepId).map taskArtifactFromRecord
        events := ((listedEvents file taskRun.taskId).filter fun event =>
          stepId.isNone || event.causationId = stepId).map EventRecord.encode
        nextActions := stringVecAtPaths outputPayload [["next_actions"]] }
    auditRef := (taskStep.bind (·.auditRef)).getD ""
    missingFields := stringVecAtPaths outputPayload [["missing_fields"]]
    prompt := stringAtPaths outputPayload [["prompt"]]
    resumeToken := stringAtPaths outputPayload [["continuation_token"], ["resume_token"]] }

theorem exec_replayTaskResponse {ε : Type} (taskRun : TaskRun) (file : TaskConversationFile) :
    (replayTaskResponse taskRun : Store ε TaskResponse).run.exec file =
      ⟨file, [], .ok (replayedResponse file taskRun)⟩ := by
  unfold replayTaskResponse replayedResponse
  cases metadataId taskRun "step_id" with
  | none => rfl
  | some stepId => rfl

section Texts

/-- A text that trimming leaves alone and that is not empty. -/
def IsText (s : String) : Prop :=
  trim s = s ∧ s ≠ ""

def keptText (s : Option String) : Option String :=
  (s.map trim).filter (· ≠ "")

theorem keptText_some (t : String) :
    keptText (some t) = if trim t = "" then none else some (trim t) := by
  by_cases hempty : trim t = ""
  · simp [keptText, Option.filter, hempty]
  · simp [keptText, Option.filter, hempty]

variable {texts : List String} {path : List String} {s : Option String} {value : Value}

theorem keptText_eq_self_iff : keptText s = s ↔ ∀ t ∈ s, IsText t := by
  cases s with
  | none => simp [keptText]
  | some t =>
      rw [keptText_some]
      constructor
      · intro h u hu
        obtain rfl := Option.mem_some_iff.mp hu
        split at h
        · cases h
        · rename_i hne
          have htrim := Option.some.inj h
          exact ⟨htrim, htrim ▸ hne⟩
      · intro h
        obtain ⟨htrim, hne⟩ := h t rfl
        rw [htrim, if_neg hne]

theorem keptTexts_eq_self_iff :
    (texts.map trim).filter (· ≠ "") = texts ↔ ∀ t ∈ texts, IsText t := by
  constructor
  · intro h t ht
    rw [← h, List.mem_filter, List.mem_map] at ht
    obtain ⟨⟨s, -, rfl⟩, hne⟩ := ht
    exact ⟨trim_trim s, by simpa using hne⟩
  · intro h
    have hmap : texts.map trim = texts := by
      rw [List.map_congr_left fun t ht => (h t ht).1, List.map_id']
    rw [hmap, List.filter_eq_self]
    intro t ht
    simpa using (h t ht).2

theorem asStr_ofOption (s : Option String) : (ofOption s).asStr = s := by
  cases s <;> rfl

theorem stringAtPaths_of_pointer (h : value.pointer path = some (ofOption s)) :
    stringAtPaths value [path] = keptText s := by
  simp only [stringAtPaths, List.findSome?, h, Option.bind_some, asStr_ofOption, keptText]
  cases (s.map trim).filter (· ≠ "") with
  | none => rfl
  | some t => rfl

theorem stringAtPaths_cons (value : Value) (path : List String) (paths : List (List String)) :
    stringAtPaths value (path :: paths) =
      (stringAtPaths value [path]).or (stringAtPaths value paths) := by
  simp only [stringAtPaths, List.findSome?]
  cases (((value.pointer path).bind asStr).map trim).filter (· ≠ "") with
  | none => rfl
  | some t => rfl

theorem filterMap_asStr_map_string (texts : List String) :
    (texts.map string).filterMap asStr = texts := by
  induction texts with
  | nil => rfl
  | cons t rest ih => exact congrArg (t :: ·) ih

theorem stringVecAtPaths_of_pointer (h : value.pointer path = some (ofStrings texts)) :
    stringVecAtPaths value [path] = (texts.map trim).filter (· ≠ "") := by
  simp only [stringVecAtPaths, List.findSome?, h, ofStrings, Option.bind_some, asArray,
    Option.map_some, filterMap_asStr_map_string, Option.getD_some]

variable (response : TaskResponse)

theorem replayed_message :
    (stringAtPaths (buildStepOutputPayload response) [["message"]]).getD "" =
      trim response.result.message := by
  have hpointer : (buildStepOutputPayload response).pointer ["message"] =
      some (ofOption (some response.result.message)) := by
    simp [buildStepOutputPayload, obj, ofOption]
  rw [stringAtPaths_of_pointer hpointer, keptText_some]
  split
  · rename_i hempty
    rw [hempty]
    rfl
  · rfl

theorem replayed_data :
    ((buildStepOutputPayload response).pointer ["data"]).getD (obj []) =
      response.result.data := by
  simp [buildStepOutputPayload, obj]

theorem replayed_nextActions :
    stringVecAtPaths (buildStepOutputPayload response) [["next_actions"]] =
      (response.result.nextActions.map trim).filter (· ≠ "") :=
  stringVecAtPaths_of_pointer (by simp [buildStepOutputPayload, obj])

theorem replayed_missingFields :
    stringVecAtPaths (buildStepOutputPayload response) [["missing_fields"]] =
      (response.missingFields.map trim).filter (· ≠ "") :=
  stringVecAtPaths_of_pointer (by simp [buildStepOutputPayload, obj])

theorem replayed_prompt :
    stringAtPaths (buildStepOutputPayload response) [["prompt"]] = keptText response.prompt :=
  stringAtPaths_of_pointer (by simp [buildStepOutputPayload, obj])

theorem replayed_resumeToken :
    stringAtPaths (buildStepOutputPayload response)
      [["continuation_token"], ["resume_token"]] = keptText response.resumeToken := by
  rw [stringAtPaths_cons,
    stringAtPaths_of_pointer (s := response.resumeToken) (by simp [buildStepOutputPayload, obj]),
    stringAtPaths_of_pointer (s := response.resumeToken) (by simp [buildStepOutputPayload, obj]),
    Option.or_self]

end Texts

def artifactKindNames : List String :=
  ["text", "image", "video", "link", "card", "json"]

def artifactContent (artifact : TaskArtifact) : TaskArtifact :=
  { artifact with artifactId := none }

def canonicalArtifact (artifact : TaskArtifact) : TaskArtifact :=
  { artifact with
    kind := taskArtifactKindName (artifactKindFromName artifact.kind), artifactId := none }

/-- A list in the order of the decimal texts of its positions, which count from one. -/
def inDecimalOrder {α : Type} (items : List α) : List α :=
  (items.zipIdx.insertionSort fun left right =>
    toString (left.2 + 1) ≤ toString (right.2 + 1)).map Prod.fst

theorem kindName_mem (kind : ArtifactKind) : taskArtifactKindName kind ∈ artifactKindNames := by
  cases kind <;> decide

theorem canonical_kind_iff (kind : String) :
    taskArtifactKindName (artifactKindFromName kind) = kind ↔ kind ∈ artifactKindNames := by
  constructor
  · intro h
    rw [← h]
    exact kindName_mem _
  · intro h
    simp only [artifactKindNames, List.mem_cons, List.not_mem_nil, or_false] at h
    rcases h with rfl | rfl | rfl | rfl | rfl | rfl <;> decide

def artifactRecord (request : TaskRequest) (stepId : String) (artifact : TaskArtifact × Nat) :
    ArtifactRecord :=
  { artifactId := artifactRecordId request stepId artifact.2
    taskId := request.taskId
    traceId := request.traceId
    stepId := some stepId
    routeKey := request.source.routeKey
    artifactKind := artifactKindFromName artifact.1.kind
    label := artifact.1.label
    mimeType := artifact.1.mimeType
    mediaAssetId := artifact.1.mediaAssetId
    path := artifact.1.path
    url := artifact.1.url
    metadata := artifact.1.metadata }

theorem buildArtifactRecords_eq (request : TaskRequest) (stepId : String)
    (artifacts : List TaskArtifact) :
    buildArtifactRecords request stepId artifacts =
      artifacts.zipIdx.map (artifactRecord request stepId) :=
  List.mapIdx_eq_zipIdx_map

theorem content_of_artifactRecord (request : TaskRequest) (stepId : String)
    (artifact : TaskArtifact × Nat) :
    artifactContent (taskArtifactFromRecord (artifactRecord request stepId artifact)) =
      canonicalArtifact artifact.1 := by
  simp only [artifactContent, taskArtifactFromRecord, artifactRecord, canonicalArtifact]

theorem artifactRecordId_le_iff (request : TaskRequest) (stepId : String) (i j : Nat) :
    artifactRecordId request stepId i ≤ artifactRecordId request stepId j ↔
      toString (i + 1) ≤ toString (j + 1) :=
  append_le_append_iff _ _ _

theorem artifactRecordId_injective (request : TaskRequest) (stepId : String) {i j : Nat}
    (h : artifactRecordId request stepId i = artifactRecordId request stepId j) : i = j := by
  have hdecimal : toString (i + 1) = toString (j + 1) :=
    le_antisymm ((artifactRecordId_le_iff request stepId i j).mp h.le)
      ((artifactRecordId_le_iff request stepId j i).mp h.ge)
  have hnumber := eq_of_toString_eq hdecimal
  omega

theorem nodup_artifactRecords (request : TaskRequest) (stepId : String)
    (artifacts : List TaskArtifact) :
    ((buildArtifactRecords request stepId artifacts).map (·.artifactId)).Nodup := by
  have hids : (buildArtifactRecords request stepId artifacts).map (·.artifactId) =
      (List.range' 0 artifacts.length).map (artifactRecordId request stepId) := by
    rw [buildArtifactRecords_eq, List.map_map, ← List.zipIdx_map_snd 0 artifacts, List.map_map]
    rfl
  rw [hids]
  refine List.Nodup.map (fun i j h => ?_) (List.nodup_range' (h := Nat.one_pos))
  exact artifactRecordId_injective request stepId h

theorem mem_finishedArtifacts {request : TaskRequest} {response : TaskResponse}
    {file : TaskConversationFile} {table : Table ArtifactRecord}
    (h : finishedArtifacts request response file = .ok table) (record : ArtifactRecord) :
    record ∈ buildArtifactRecords request (stepIdForRequest request) response.result.artifacts ↔
      table.lookup record.artifactId = some record ∧
        decide (record.taskId = request.taskId) = true ∧
        decide (record.stepId = some (stepIdForRequest request)) = true := by
  constructor
  · intro hmem
    refine ⟨lookup_of_mem_replaced h (nodup_artifactRecords _ _ _) hmem, ?_⟩
    obtain ⟨index, hindex, rfl⟩ := List.mem_mapIdx.mp hmem
    exact ⟨decide_eq_true rfl, decide_eq_true rfl⟩
  · rintro ⟨hlookup, htask, hstep⟩
    refine mem_of_replaced (fun artifact : ArtifactRecord =>
      decide (artifact.taskId = request.taskId ∧
        artifact.stepId = some (stepIdForRequest request))) h hlookup ?_
    exact decide_eq_true ⟨of_decide_eq_true htask, of_decide_eq_true hstep⟩

instance artifactId_total :
    Std.Total fun left right : ArtifactRecord => left.artifactId ≤ right.artifactId :=
  ⟨fun _ _ => le_total _ _⟩

instance artifactId_trans :
    IsTrans ArtifactRecord fun left right => left.artifactId ≤ right.artifactId :=
  ⟨fun _ _ _ => le_trans⟩

theorem listed_artifacts {request : TaskRequest} {response : TaskResponse}
    {file stored : TaskConversationFile}
    (hkeyed : stored.artifacts.KeyedBy (·.artifactId))
    (h : finishedArtifacts request response file = .ok stored.artifacts) :
    (((listedArtifacts stored request.taskId).filter fun artifact =>
      artifact.stepId = some (stepIdForRequest request)).map taskArtifactFromRecord).map
        artifactContent = (inDecimalOrder response.result.artifacts).map canonicalArtifact := by
  have hsorted : ((buildArtifactRecords request (stepIdForRequest request)
      response.result.artifacts).insertionSort fun left right =>
        left.artifactId ≤ right.artifactId) =
      (response.result.artifacts.zipIdx.insertionSort fun left right =>
        toString (left.2 + 1) ≤ toString (right.2 + 1)).map
          (artifactRecord request (stepIdForRequest request)) := by
    rw [buildArtifactRecords_eq]
    refine (List.map_insertionSort _ _ _ _ fun left _ right _ => ?_).symm
    simp only [artifactRecord]
    exact (artifactRecordId_le_iff request _ left.2 right.2).symm
  rw [listedArtifacts, Table.filter_insertionSort_values _ hkeyed (nodup_artifactRecords _ _ _)
    (mem_finishedArtifacts h) (fun a b => le_antisymm), hsorted, inDecimalOrder, List.map_map,
    List.map_map, List.map_map]
  exact List.map_congr_left fun artifact _ => content_of_artifactRecord request _ artifact

theorem inDecimalOrder_map {α β : Type} (f : α → β) (items : List α) :
    inDecimalOrder (items.map f) = (inDecimalOrder items).map f := by
  rw [inDecimalOrder, List.zipIdx_map, ← List.map_insertionSort (r := fun left right : α × Nat =>
    toString (left.2 + 1) ≤ toString (right.2 + 1)), inDecimalOrder, List.map_map, List.map_map]
  · rfl
  · intro left _ right _
    rfl

theorem mem_inDecimalOrder {α : Type} {items : List α} {a : α} :
    a ∈ inDecimalOrder items ↔ a ∈ items := by
  rw [inDecimalOrder, List.mem_map]
  constructor
  · rintro ⟨⟨b, i⟩, hmem, rfl⟩
    rw [List.mem_insertionSort] at hmem
    exact List.fst_mem_of_mem_zipIdx hmem
  · intro hmem
    obtain ⟨i, hi, rfl⟩ := List.getElem_of_mem hmem
    refine ⟨(items[i], i), ?_, rfl⟩
    rw [List.mem_insertionSort, List.mem_zipIdx_iff_getElem?]
    simp [hi]

theorem artifacts_survive_iff (artifacts : List TaskArtifact) :
    (inDecimalOrder artifacts).map canonicalArtifact = artifacts.map artifactContent ↔
      (∀ artifact ∈ artifacts, artifact.kind ∈ artifactKindNames) ∧
        inDecimalOrder (artifacts.map artifactContent) = artifacts.map artifactContent := by
  have hcanonical : (∀ artifact ∈ artifacts, artifact.kind ∈ artifactKindNames) →
      (inDecimalOrder artifacts).map canonicalArtifact =
        inDecimalOrder (artifacts.map artifactContent) := by
    intro hkinds
    rw [inDecimalOrder_map]
    refine List.map_congr_left fun artifact hmem => ?_
    have hkind := hkinds artifact (mem_inDecimalOrder.mp hmem)
    simp only [canonicalArtifact, artifactContent, (canonical_kind_iff _).mpr hkind]
  constructor
  · intro h
    have hkinds : ∀ artifact ∈ artifacts, artifact.kind ∈ artifactKindNames := by
      intro artifact hmem
      have hmem' : artifactContent artifact ∈ artifacts.map artifactContent :=
        List.mem_map_of_mem hmem
      rw [← h, List.mem_map] at hmem'
      obtain ⟨other, -, hother⟩ := hmem'
      have hkind := congrArg TaskArtifact.kind hother
      simp only [canonicalArtifact, artifactContent] at hkind
      rw [← hkind]
      exact kindName_mem _
    exact ⟨hkinds, by rw [← hcanonical hkinds, h]⟩
  · rintro ⟨hkinds, horder⟩
    rw [hcanonical hkinds, horder]

section Events

/-- The event misses nothing that the tracking would fill in. -/
structure Complete (request : TaskRequest) (event : EventRecord) : Prop where
  workspaceId : isBlank event.workspaceId = false
  sourceId : isBlank event.sourceId = false
  correlationId : event.correlationId.isSome = true ∨ isBlank request.traceId = true
  causationId : event.causationId.isSome = true
  occurredAt : event.occurredAt.isSome = true
  ingestedAt : event.ingestedAt.isSome = true

theorem isBlank_of_stringAtPaths {value : Value} {paths : List (List String)} {t : String}
    (h : stringAtPaths value paths = some t) : isBlank t = false := by
  obtain ⟨path, -, hpath⟩ := List.exists_of_findSome?_eq_some h
  rw [Option.filter_eq_some_iff, Option.map_eq_some_iff] at hpath
  obtain ⟨⟨s, -, rfl⟩, hne⟩ := hpath
  rw [isBlank_trim, isBlank_eq_false_iff]
  simpa using hne

theorem isBlank_workspaceIdForRequest (request : TaskRequest) :
    isBlank (workspaceIdForRequest request) = false := by
  rw [workspaceIdForRequest]
  cases h : firstString [request.entityRefs, request.args] [["workspace_id"]] with
  | none => decide
  | some workspaceId =>
      obtain ⟨value, -, hvalue⟩ := List.exists_of_findSome?_eq_some h
      exact isBlank_of_stringAtPaths hvalue

theorem complete_completeEvent {request : TaskRequest} (hid : isBlank request.taskId = false)
    (stepId now : String) (event : EventRecord) :
    Complete request (completeEvent request stepId now event) := by
  refine ⟨?_, ?_, ?_, ?_, ?_, ?_⟩ <;> simp only [completeEvent]
  · split
    · exact isBlank_workspaceIdForRequest request
    · rename_i hworkspace
      simpa using hworkspace
  · split
    · exact hid
    · rename_i hsource
      simpa using hsource
  · cases event.correlationId <;> cases isBlank request.traceId <;> simp
  · cases event.causationId <;> rfl
  · cases event.occurredAt <;> rfl
  · cases event.ingestedAt <;> cases event.occurredAt <;> rfl

theorem completeEvent_of_complete {request : TaskRequest} {event : EventRecord}
    (h : Complete request event) (stepId now : String) :
    completeEvent request stepId now event = event := by
  obtain ⟨hworkspace, hsource, hcorrelation, hcausation, hoccurred, hingested⟩ := h
  obtain ⟨causation, hcausation⟩ := Option.isSome_iff_exists.mp hcausation
  obtain ⟨occurred, hoccurred⟩ := Option.isSome_iff_exists.mp hoccurred
  obtain ⟨ingested, hingested⟩ := Option.isSome_iff_exists.mp hingested
  have hkept : (event.correlationId.isNone && !isBlank request.traceId) = false := by
    rcases hcorrelation with hsome | hblank
    · obtain ⟨correlation, hcorrelation⟩ := Option.isSome_iff_exists.mp hsome
      rw [hcorrelation]
      rfl
    · rw [hblank, Bool.not_true, Bool.and_false]
  simp only [completeEvent, hworkspace, hsource, hkept, hcausation, hoccurred, hingested,
    Bool.false_eq_true, if_false, Option.some_or]
  cases event
  simp_all

def eventStamp (event : EventRecord) : Option String × String :=
  (event.occurredAt, event.eventId)

/-- The events are the serialized forms of complete records of the step, with different
ids and in the order of time and id. -/
def EventsSurvive (request : TaskRequest) (events : List Value) : Prop :=
  ∃ records : List EventRecord, events = records.map EventRecord.encode ∧
    (∀ event ∈ records, Complete request event ∧ event.sourceId = request.taskId ∧
      event.causationId = some (stepIdForRequest request)) ∧
    (records.map (·.eventId)).Nodup ∧
    records.Pairwise fun left right => stampLe (eventStamp left) (eventStamp right) = true

def stepEvents (file : TaskConversationFile) (request : TaskRequest) : List EventRecord :=
  (listedEvents file request.taskId).filter fun event =>
    event.causationId = some (stepIdForRequest request)

theorem filterMap_decode_encode (records : List EventRecord) :
    (records.map EventRecord.encode).filterMap EventRecord.decode = records := by
  induction records with
  | nil => rfl
  | cons event rest ih =>
      rw [List.map_cons, List.filterMap_cons, EventRecord.decode_encode, ih]

theorem mapIdx_of_forall_eq {α : Type} {f : Nat → α → α} {items : List α}
    (h : ∀ i, ∀ a ∈ items, f i a = a) : items.mapIdx f = items := by
  refine List.ext_getElem (by simp) fun i hi hi' => ?_
  rw [List.getElem_mapIdx]
  exact h i _ (List.getElem_mem _)

theorem buildEventRecords_of_complete {request : TaskRequest} {records : List EventRecord}
    (h : ∀ event ∈ records, Complete request event) (stepId : String) (now : Nat → String) :
    buildEventRecords request stepId now (records.map EventRecord.encode) = records := by
  rw [buildEventRecords, filterMap_decode_encode]
  exact mapIdx_of_forall_eq fun i event hmem => completeEvent_of_complete (h event hmem) _ _

section Stored

variable {request : TaskRequest} {response : TaskResponse} {now : Nat → String}
  {file stored : TaskConversationFile}
  (h : finishedEvents request response now file = .ok stored.events)
  (hkeyed : stored.events.KeyedBy (·.eventId))

include h in
theorem mem_stepEvents {event : EventRecord} (hmem : event ∈ stepEvents stored request) :
    event ∈ buildEventRecords request (stepIdForRequest request) now response.result.events ∧
      event.sourceId = request.taskId ∧
      event.causationId = some (stepIdForRequest request) := by
  rw [stepEvents, List.mem_filter, listedEvents, mem_sortByStamp, List.mem_filter,
    Table.mem_values_iff] at hmem
  obtain ⟨⟨⟨key, hkey⟩, hsource⟩, hcause⟩ := hmem
  have hsource' := of_decide_eq_true hsource
  have hcause' := of_decide_eq_true hcause
  refine ⟨mem_of_replaced (fun event : EventRecord =>
    decide (event.sourceId = request.taskId ∧
      event.causationId = some (stepIdForRequest request))) h hkey ?_, hsource', hcause'⟩
  exact decide_eq_true ⟨hsource', hcause'⟩

include hkeyed in
theorem nodup_stepEvents : ((stepEvents stored request).map (·.eventId)).Nodup := by
  have hvalues := Table.nodup_values_ids hkeyed
  have hfiltered : ((stored.events.values.filter fun event =>
      event.sourceId = request.taskId).map (·.eventId)).Nodup :=
    hvalues.sublist (List.filter_sublist.map _)
  have hsorted : ((listedEvents stored request.taskId).map (·.eventId)).Nodup :=
    ((List.perm_insertionSort _ _).map _).nodup_iff.mpr hfiltered
  exact hsorted.sublist (List.filter_sublist.map _)

include h hkeyed in
theorem events_survive_iff (hid : isBlank request.taskId = false) :
    (stepEvents stored request).map EventRecord.encode = response.result.events ↔
      EventsSurvive request response.result.events := by
  constructor
  · intro hsame
    refine ⟨stepEvents stored request, hsame.symm, fun event hmem => ?_,
      nodup_stepEvents hkeyed, (pairwise_sortByStamp _ _).filter _⟩
    obtain ⟨hbuilt, hsource, hcause⟩ := mem_stepEvents h hmem
    obtain ⟨index, hindex, rfl⟩ := List.mem_mapIdx.mp hbuilt
    exact ⟨complete_completeEvent hid _ _ _, hsource, hcause⟩
  · rintro ⟨records, hevents, hall, hnodup, hsorted⟩
    have hbuilt := buildEventRecords_of_complete (fun event hmem => (hall event hmem).1)
      (stepIdForRequest request) now
    rw [← hevents] at hbuilt
    have hmem : ∀ event, event ∈ records ↔ stored.events.lookup event.eventId = some event ∧
        decide (event.sourceId = request.taskId) = true ∧
        decide (event.causationId = some (stepIdForRequest request)) = true := by
      intro event
      constructor
      · intro hmem
        obtain ⟨-, hsource, hcause⟩ := hall event hmem
        rw [← hbuilt] at hmem hnodup
        exact ⟨lookup_of_mem_replaced h hnodup hmem, decide_eq_true hsource,
          decide_eq_true hcause⟩
      · rintro ⟨hlookup, hsource, hcause⟩
        rw [← hbuilt]
        refine mem_of_replaced (fun event : EventRecord =>
          decide (event.sourceId = request.taskId ∧
            event.causationId = some (stepIdForRequest request))) h hlookup ?_
        exact decide_eq_true ⟨of_decide_eq_true hsource, of_decide_eq_true hcause⟩
    have hlisted : stepEvents stored request = records := by
      rw [stepEvents, listedEvents,
        filter_sortByStamp_values hkeyed (fun _ => rfl) hnodup hmem]
      exact List.Pairwise.insertionSort_eq hsorted
    rw [hlisted, hevents]

end Stored

end Events

/-- The replay agrees with the original response in all that a client reads. -/
structure SameReplay (replayed original : TaskResponse) : Prop where
  status : replayed.status = original.status
  executorUsed : replayed.executorUsed = original.executorUsed
  riskLevel : replayed.riskLevel = original.riskLevel
  message : replayed.result.message = original.result.message
  data : replayed.result.data = original.result.data
  nextActions : replayed.result.nextActions = original.result.nextActions
  missingFields : replayed.missingFields = original.missingFields
  prompt : replayed.prompt = original.prompt
  resumeToken : replayed.resumeToken = original.resumeToken
  artifacts : replayed.result.artifacts.map artifactContent =
    original.result.artifacts.map artifactContent
  events : replayed.result.events = original.result.events

/-- The response has only what its records can hold. -/
structure Survives (request : TaskRequest) (response : TaskResponse) : Prop where
  message : trim response.result.message = response.result.message
  nextActions : ∀ action ∈ response.result.nextActions, IsText action
  missingFields : ∀ field ∈ response.missingFields, IsText field
  prompt : ∀ prompt ∈ response.prompt, IsText prompt
  resumeToken : ∀ token ∈ response.resumeToken, IsText token
  artifactKinds : ∀ artifact ∈ response.result.artifacts, artifact.kind ∈ artifactKindNames
  artifactOrder : inDecimalOrder (response.result.artifacts.map artifactContent) =
    response.result.artifacts.map artifactContent
  events : EventsSurvive request response.result.events

theorem metadataId_stepId {taskRun : TaskRun} {request : TaskRequest} {stepId : String}
    (h : taskRun.metadata = buildTaskRunMetadata request stepId)
    (hblank : isBlank stepId = false) : metadataId taskRun "step_id" = some stepId := by
  have hpointer : taskRun.metadata.pointer ["step_id"] = some (string stepId) := by
    rw [h]
    simp [buildTaskRunMetadata, obj]
  simp [metadataId, hpointer, asStr, Option.filter, hblank]

theorem replayedResponse_of_step {file : TaskConversationFile} {taskRun : TaskRun}
    {taskStep : TaskStepRun} {request : TaskRequest} {response : TaskResponse}
    (htask : taskRun.taskId = request.taskId)
    (hstatus : taskRun.status = taskRunStatusFromResponse response.status)
    (hrisk : taskRun.riskLevel = response.riskLevel)
    (hmetadata : taskRun.metadata = buildTaskRunMetadata request (stepIdForRequest request))
    (hstep : file.taskSteps.lookup (stepIdForRequest request) = some taskStep)
    (hexecutor : taskStep.executorUsed = response.executorUsed)
    (hpayload : taskStep.outputPayload = buildStepOutputPayload response)
    (haudit : taskStep.auditRef = some response.auditRef) :
    replayedResponse file taskRun =
      { taskId := request.taskId
        traceId := (metadataId taskRun "trace_id").getD request.taskId
        status := response.status
        executorUsed := response.executorUsed
        riskLevel := response.riskLevel
        result :=
          { message := trim response.result.message
            data := response.result.data
            artifacts := ((listedArtifacts file request.taskId).filter fun artifact =>
              artifact.stepId = some (stepIdForRequest request)).map taskArtifactFromRecord
            events := (stepEvents file request).map EventRecord.encode
            nextActions := (response.result.nextActions.map trim).filter (· ≠ "") }
        auditRef := response.auditRef
        missingFields := (response.missingFields.map trim).filter (· ≠ "")
        prompt := keptText response.prompt
        resumeToken := keptText response.resumeToken } := by
  have hround : taskStatusFromTaskRunStatus (taskRunStatusFromResponse response.status) =
      response.status := by
    cases response.status <;> rfl
  have hid := metadataId_stepId hmetadata (isBlank_stepIdForRequest request)
  simp only [replayedResponse, htask, hstatus, hround, hrisk, hid, Option.bind_some, hstep,
    hexecutor, hpayload, haudit, Option.map_some, Option.getD_some, replayed_message,
    replayed_data, replayed_nextActions, replayed_missingFields, replayed_prompt,
    replayed_resumeToken, Option.isNone_some, Bool.false_or, stepEvents]

/-- After a finished tracking the replay agrees with the response exactly when the response
survives its records. -/
theorem replay_same_iff {file : TaskConversationFile} (hkeyed : Keyed file)
    {request : TaskRequest} (hid : isBlank request.taskId = false) (response : TaskResponse)
    (startedAt finishedAt : String) (now : Nat → String) {stored : TaskConversationFile}
    (hstored : (finishTaskTracking request response (trackingFor request startedAt) finishedAt
      now : Store ApiEvent Unit).run.exec file = ⟨stored, [], .ok ()⟩) :
    ∃ taskRun replayed, stored.taskRuns.lookup request.taskId = some taskRun ∧
      ((replayTaskResponse taskRun : Store ApiEvent TaskResponse).run.exec stored).result =
        .ok replayed ∧
      (SameReplay replayed response ↔ Survives request response) := by
  have hkeyedStored : Keyed stored := by
    have h := keyed_finishTaskTracking request response (trackingFor request startedAt)
      finishedAt now [] file hkeyed
    rwa [hstored] at h
  obtain ⟨artifacts, events, hartifacts, hevents, rfl⟩ :=
    finishTaskTracking_ok hkeyed hid hstored
  have hrun : (closedFile request response startedAt events (recordedFile request response
      startedAt finishedAt artifacts file)).taskRuns.lookup request.taskId =
        some (finishedTaskRun (file.taskRuns.lookup request.taskId) request response
          (trackingFor request startedAt) finishedAt) := by
    simp only [closedFile, recordedFile, Table.lookup_insert_eq_ite, if_true]
  have hstep : (closedFile request response startedAt events (recordedFile request response
      startedAt finishedAt artifacts file)).taskSteps.lookup (stepIdForRequest request) =
        some (finishedTaskStep (file.taskSteps.lookup (stepIdForRequest request)) request response
          (trackingFor request startedAt) finishedAt) := by
    rw [← trackingFor_stepId request startedAt]
    exact (Table.lookup_insert_eq_ite _ _ _ _).trans (if_pos rfl)
  have hreplayed := replayedResponse_of_step
    (finishedTaskRun_taskId hkeyed request response (trackingFor request startedAt) finishedAt)
    rfl rfl (finishedTaskRun_metadata _ _ _ _ _) hstep rfl rfl rfl
  refine ⟨_, _, hrun, congrArg Outcome.result (exec_replayTaskResponse _ _), ?_⟩
  rw [hreplayed]
  have hlisted := listed_artifacts hkeyedStored.artifacts hartifacts
  have hsame := events_survive_iff hevents hkeyedStored.events hid
  constructor
  · intro h
    obtain ⟨hkinds, horder⟩ :=
      (artifacts_survive_iff _).mp (hlisted.symm.trans h.artifacts)
    exact ⟨h.message, keptTexts_eq_self_iff.mp h.nextActions,
      keptTexts_eq_self_iff.mp h.missingFields, keptText_eq_self_iff.mp h.prompt,
      keptText_eq_self_iff.mp h.resumeToken, hkinds, horder, hsame.mp h.events⟩
  · intro h
    exact ⟨rfl, rfl, rfl, h.message, rfl, keptTexts_eq_self_iff.mpr h.nextActions,
      keptTexts_eq_self_iff.mpr h.missingFields, keptText_eq_self_iff.mpr h.prompt,
      keptText_eq_self_iff.mpr h.resumeToken,
      hlisted.trans ((artifacts_survive_iff _).mpr ⟨h.artifactKinds, h.artifactOrder⟩),
      hsame.mpr h.events⟩

def searchRequest : TaskRequest where
  taskId := "task-1"
  traceId := "trace-1"
  stepId := "step_1"
  source := { channel := "feishu", userId := "user-1" }
  intent := { domain := "knowledge", action := "search", rawText := "meeting" }

theorem searchEvent_notBlank : isBlank "e47a90" = false := by
  decide

def searchEvent : EventRecord :=
  buildTaskEventRecord searchRequest (stepIdForRequest searchRequest) "task.completed" .info .null
    ⟨"e47a90", searchEvent_notBlank⟩ "1700000001"

def searchResponse (kind : String) : TaskResponse where
  taskId := "task-1"
  traceId := "trace-1"
  status := .completed
  executorUsed := "knowledge_search"
  riskLevel := .low
  result :=
    { message := "1 hit"
      artifacts := [{ kind := kind, label := "meeting", path := some "/notes/meeting" }]
      events := [searchEvent.encode] }
  auditRef := "audit-1"
  missingFields := []
  prompt := none
  resumeToken := none

def finishSearch (kind : String) : Outcome TaskConversationFile ApiEvent (Except String Unit) :=
  (finishTaskTracking searchRequest (searchResponse kind) (trackingFor searchRequest "1700000000")
    "1700000001" fun _ => "1700000001").run.exec {}

theorem finishSearch_image_ok :
    finishSearch "image" = ⟨(finishSearch "image").file, [], .ok ()⟩ :=
  Outcome.ext rfl (by decide) (by decide)

theorem searchResponse_image_survives : Survives searchRequest (searchResponse "image") where
  message := by decide
  nextActions := fun _ h => absurd h List.not_mem_nil
  missingFields := fun _ h => absurd h List.not_mem_nil
  prompt := fun _ h => absurd h (Option.not_mem_none _)
  resumeToken := fun _ h => absurd h (Option.not_mem_none _)
  artifactKinds := by decide
  artifactOrder := by decide
  events := by
    refine ⟨[searchEvent], rfl, ?_, List.nodup_singleton _, List.pairwise_singleton _ _⟩
    intro event hmem
    rw [List.mem_singleton.mp hmem]
    exact ⟨⟨by decide, by decide, by decide, by decide, by decide, by decide⟩, by decide,
      by decide⟩

theorem search_image_replayed :
    ∃ taskRun replayed,
      (finishSearch "image").file.taskRuns.lookup "task-1" = some taskRun ∧
      ((replayTaskResponse taskRun : Store ApiEvent TaskResponse).run.exec
        (finishSearch "image").file).result = .ok replayed ∧
      SameReplay replayed (searchResponse "image") := by
  obtain ⟨taskRun, replayed, hrun, hreplay, hsame⟩ := replay_same_iff keyed_empty
    (by decide : isBlank searchRequest.taskId = false) (searchResponse "image") "1700000000" "1700000001"
    (fun _ => "1700000001") finishSearch_image_ok
  exact ⟨taskRun, replayed, hrun, hreplay, hsame.mpr searchResponse_image_survives⟩

def audioRun : TaskRun :=
  finishedTaskRun none searchRequest (searchResponse "audio")
    (trackingFor searchRequest "1700000000") "1700000001"

theorem search_audio_replayed_as_text :
    (finishSearch "audio").result = .ok () ∧
    (finishSearch "audio").file.taskRuns.lookup "task-1" = some audioRun ∧
    ∃ replayed, ((replayTaskResponse audioRun : Store ApiEvent TaskResponse).run.exec
        (finishSearch "audio").file).result = .ok replayed ∧
      replayed.result.artifacts.map (·.kind) = ["text"] ∧
      ¬ SameReplay replayed (searchResponse "audio") := by
  have hkinds : (replayedResponse (finishSearch "audio").file
      audioRun).result.artifacts.map (·.kind) = ["text"] := by
    decide
  refine ⟨by decide, by decide, _,
    congrArg Outcome.result (exec_replayTaskResponse _ _), hkinds, fun hsame => ?_⟩
  have hcontent := congrArg (List.map (·.kind)) hsame.artifacts
  rw [List.map_map, List.map_map] at hcontent
  have hkinds' : (replayedResponse (finishSearch "audio").file
      audioRun).result.artifacts.map (·.kind) = ["audio"] := hcontent
  rw [hkinds] at hkinds'
  exact absurd hkinds' (by decide)

end HarborBeacon.Replay
