import HarborBeacon.Replay

/-!
Tasks that are handled one after the other share four tables. What a replay shows of one
of them is what the tracking of that task alone leaves, as long as the other tasks use
other step, artifact and event ids and store no events in its name.
-/

namespace HarborBeacon.TaskIsolation

open ControlPlane FileProgram Replay ServiceSteps StoreInvariant TaskApi TaskContract TaskSession
open TaskTracking Text

section Tracking

structure Handled where
  request : TaskRequest
  notBlank : isBlank request.taskId = false
  response : TaskResponse
  startedAt : String
  finishedAt : String
  eventNow : Nat → String

namespace Handled

variable (h : Handled)

def stepId : String :=
  stepIdForRequest h.request

def tracking : TaskRuntimeTracking :=
  trackingFor h.request h.startedAt

def track : Service Unit := do
  let tracking ← beginTaskTracking h.request h.startedAt
  TaskApi.discard (finishTaskTracking h.request h.response tracking h.finishedAt h.eventNow).run

def taskRun (stored : Option TaskRun) : TaskRun :=
  finishedTaskRun (some (runningTaskRun stored h.request h.tracking)) h.request h.response
    h.tracking h.finishedAt

def taskStep (stored : Option TaskStepRun) : TaskStepRun :=
  finishedTaskStep (some (executingTaskStep stored h.request h.tracking)) h.request h.response
    h.tracking h.finishedAt

theorem tracking_stepId : h.tracking.stepId = h.stepId :=
  trackingFor_stepId h.request h.startedAt

theorem taskRun_metadata (stored : Option TaskRun) :
    (h.taskRun stored).metadata = buildTaskRunMetadata h.request h.stepId :=
  finishedTaskRun_metadata _ h.request h.response h.startedAt h.finishedAt

def artifacts : List ArtifactRecord :=
  buildArtifactRecords h.request h.stepId h.response.result.artifacts

def eventRecords : List EventRecord :=
  buildEventRecords h.request h.stepId h.eventNow h.response.result.events

def events : List EventRecord :=
  if h.eventRecords.all fun event => !isBlank event.eventId then h.eventRecords else []

def OwnsArtifact (artifact : ArtifactRecord) : Prop :=
  artifact.taskId = h.request.taskId ∧ artifact.stepId = some h.stepId

def OwnsEvent (event : EventRecord) : Prop :=
  event.sourceId = h.request.taskId ∧ event.causationId = some h.stepId

instance (artifact : ArtifactRecord) : Decidable (h.OwnsArtifact artifact) :=
  inferInstanceAs (Decidable (_ ∧ _))

instance (event : EventRecord) : Decidable (h.OwnsEvent event) :=
  inferInstanceAs (Decidable (_ ∧ _))

end Handled

structure Tracked (h : Handled) (file file' : TaskConversationFile) : Prop where
  keyed : Keyed file'
  taskRuns : ∀ id, file'.taskRuns.lookup id =
    if id = h.request.taskId then some (h.taskRun (file.taskRuns.lookup h.request.taskId))
    else file.taskRuns.lookup id
  taskSteps : ∀ id, file'.taskSteps.lookup id =
    if id = h.stepId then some (h.taskStep (file.taskSteps.lookup h.stepId))
    else file.taskSteps.lookup id
  artifacts : ∀ id, file'.artifacts.lookup id =
    (h.artifacts.findRev? fun artifact => artifact.artifactId = id).or
      ((file.artifacts.lookup id).filter fun artifact => !decide (h.OwnsArtifact artifact))
  events : (∀ id, file'.events.lookup id =
      (h.events.findRev? fun event => event.eventId = id).or
        ((file.events.lookup id).filter fun event => !decide (h.OwnsEvent event))) ∨
    h.events = [] ∧ file'.events = file.events

/-- The end of a tracking, from a file whose tables stand as its beginning left them. -/
theorem tracked_of_finish (h : Handled) {file mid : TaskConversationFile} (hkeyed : Keyed mid)
    (hmid : taskTables mid = taskTables (beganFile h.request h.startedAt file)) :
    Tracked h file ((finishTaskTracking h.request h.response h.tracking h.finishedAt
      h.eventNow : Store ApiEvent Unit).run.exec mid).file := by
  have hruns : mid.taskRuns = (beganFile h.request h.startedAt file).taskRuns :=
    congrArg (fun tables => tables.1) hmid
  have hsteps : mid.taskSteps = (beganFile h.request h.startedAt file).taskSteps :=
    congrArg (fun tables => tables.2.1) hmid
  have hartifacts : mid.artifacts = file.artifacts := congrArg (fun tables => tables.2.2.1) hmid
  have hevents : mid.events = file.events := congrArg (fun tables => tables.2.2.2) hmid
  obtain ⟨hrunsEq, hstepsEq, hartifactsEq, heventsEq⟩ := finishTaskTracking_tables hkeyed
    h.notBlank h.response h.startedAt h.finishedAt h.eventNow
  have hkeyed' := keyed_finishTaskTracking h.request h.response h.tracking h.finishedAt
    h.eventNow [] mid hkeyed
  simp only [Handled.tracking] at hkeyed' ⊢
  generalize ((finishTaskTracking h.request h.response (trackingFor h.request h.startedAt)
    h.finishedAt h.eventNow : Store ApiEvent Unit).run.exec mid).file = finished at *
  refine ⟨hkeyed', fun id => ?_, fun id => ?_, fun id => ?_, ?_⟩
  · rw [hrunsEq, Table.lookup_insert_eq_ite, hruns]
    simp only [beganFile, Table.lookup_insert_eq_ite, if_true]
    by_cases hsame : id = h.request.taskId
    · rw [if_pos hsame, if_pos hsame]
      rfl
    · rw [if_neg hsame, if_neg hsame, if_neg hsame]
  · have hstepId : (trackingFor h.request h.startedAt).stepId = h.stepId := h.tracking_stepId
    rw [hstepsEq, Table.lookup_insert_eq_ite, hsteps]
    simp only [beganFile, Table.lookup_insert_eq_ite, if_true, hstepId]
    by_cases hsame : id = h.stepId
    · rw [if_pos hsame, if_pos hsame]
      rfl
    · rw [if_neg hsame, if_neg hsame, if_neg hsame]
  · have hlookup := lookup_insertAll id hartifactsEq
    rw [hartifacts, Table.lookup_retain] at hlookup
    exact hlookup
  · rcases heventsEq with hok | ⟨message, herror, hsame⟩
    · left
      intro id
      have hlookup := lookup_insertAll id hok
      rw [hevents, Table.lookup_retain] at hlookup
      have hall : h.events = h.eventRecords :=
        if_pos (List.all_eq_true.mpr fun event hmem => by
          rw [notBlank_of_insertAll hok event hmem]
          rfl)
      rw [hall]
      exact hlookup
    · refine Or.inr ⟨if_neg fun hall => ?_, hsame.trans hevents⟩
      have hnotBlank : ∀ event ∈ h.eventRecords, isBlank event.eventId = false :=
        fun event hmem => by simpa using List.all_eq_true.mp hall event hmem
      obtain ⟨table, htable⟩ := insertAll_isOk "event_id 不能为空" hnotBlank
        (mid.events.retain fun _ event => !decide (h.OwnsEvent event))
      have hok : finishedEvents h.request h.response h.eventNow mid = .ok table := htable
      rw [herror] at hok
      cases hok

theorem tracked_track (h : Handled) {file : TaskConversationFile} (hkeyed : Keyed file) :
    Tracked h file (h.track.exec file).file := by
  have hbegan := exec_beginTaskTracking hkeyed h.notBlank h.startedAt
  have hkeyedBegan : Keyed (beganFile h.request h.startedAt file) := by
    have hkeyed' := keyed_beginTaskTracking h.request h.startedAt [] file hkeyed
    rwa [hbegan] at hkeyed'
  rw [Handled.track, exec_bind_of_exec hbegan, exec_discard_file]
  exact tracked_of_finish h hkeyedBegan (Eq.refl _)

end Tracking

section Views

structure Clear (h : Handled) (file : TaskConversationFile) : Prop where
  taskRun : file.taskRuns.lookup h.request.taskId = none
  taskStep : file.taskSteps.lookup h.stepId = none
  events : ∀ id event, file.events.lookup id = some event → ¬ h.OwnsEvent event

structure Shows (h : Handled) (file : TaskConversationFile) : Prop where
  taskRun : file.taskRuns.lookup h.request.taskId = some (h.taskRun none)
  taskStep : file.taskSteps.lookup h.stepId = some (h.taskStep none)
  artifacts : ∀ artifact, h.OwnsArtifact artifact →
    (file.artifacts.lookup artifact.artifactId = some artifact ↔ artifact ∈ h.artifacts)
  events : ∀ event, h.OwnsEvent event →
    (file.events.lookup event.eventId = some event ↔
      (h.events.findRev? fun other => other.eventId = event.eventId) = some event)

/-- A request `h` and a later one `k` keep to their own records. -/
structure Apart (h k : Handled) : Prop where
  stepId : h.stepId ≠ k.stepId
  artifactIds : ∀ artifact ∈ h.artifacts, ∀ other ∈ k.artifacts,
    artifact.artifactId ≠ other.artifactId
  eventIds : ∀ event ∈ h.events, h.OwnsEvent event → ∀ other ∈ k.events,
    event.eventId ≠ other.eventId
  notOwnedBefore : ∀ event ∈ k.events, ¬ h.OwnsEvent event
  notOwnedAfter : ∀ event ∈ h.events, ¬ k.OwnsEvent event

variable {h k : Handled} {file file' : TaskConversationFile} {α : Type}

instance : Decidable (Apart h k) :=
  decidable_of_iff
    (h.stepId ≠ k.stepId ∧
      (∀ artifact ∈ h.artifacts, ∀ other ∈ k.artifacts,
        artifact.artifactId ≠ other.artifactId) ∧
      (∀ event ∈ h.events, h.OwnsEvent event → ∀ other ∈ k.events,
        event.eventId ≠ other.eventId) ∧
      (∀ event ∈ k.events, ¬ h.OwnsEvent event) ∧ ∀ event ∈ h.events, ¬ k.OwnsEvent event)
    ⟨fun ⟨hstep, hartifacts, hevents, hbefore, hafter⟩ =>
      ⟨hstep, hartifacts, hevents, hbefore, hafter⟩,
    fun h => ⟨h.stepId, h.artifactIds, h.eventIds, h.notOwnedBefore, h.notOwnedAfter⟩⟩

theorem mem_of_findRev? {p : α → Bool} {items : List α} {a : α} (hfind : items.findRev? p = some a) :
    a ∈ items ∧ p a = true := by
  rw [List.findRev?_eq_find?_reverse] at hfind
  exact ⟨List.mem_reverse.mp (List.mem_of_find?_eq_some hfind), List.find?_some hfind⟩

theorem findRev?_eq_none {p : α → Bool} {items : List α} (hnone : ∀ a ∈ items, p a = false) :
    items.findRev? p = none := by
  rw [List.findRev?_eq_find?_reverse, List.find?_eq_none]
  intro a hmem
  rw [hnone a (List.mem_reverse.mp hmem)]
  exact Bool.false_ne_true

theorem ownsArtifact_of_mem {artifact : ArtifactRecord} (hmem : artifact ∈ h.artifacts) :
    h.OwnsArtifact artifact := by
  obtain ⟨index, hindex, rfl⟩ := List.mem_mapIdx.mp hmem
  exact ⟨rfl, rfl⟩

theorem Clear.shows (hclear : Clear h file) (htracked : Tracked h file file') :
    Shows h file' where
  taskRun := by rw [htracked.taskRuns, if_pos rfl, hclear.taskRun]
  taskStep := by rw [htracked.taskSteps, if_pos rfl, hclear.taskStep]
  artifacts := by
    intro artifact howns
    rw [htracked.artifacts, Option.or_eq_some_iff]
    constructor
    · rintro (hnew | ⟨-, hold⟩)
      · exact (mem_of_findRev? hnew).1
      · rw [Option.filter_eq_some_iff] at hold
        simp [howns] at hold
    · intro hmem
      left
      exact findRev?_of_mem (nodup_artifactRecords _ _ _) hmem
  events := by
    intro event howns
    rcases htracked.events with hevents | ⟨hnone, hsame⟩
    · rw [hevents, Option.or_eq_some_iff]
      refine ⟨fun hor => ?_, Or.inl⟩
      rcases hor with hnew | ⟨-, hold⟩
      · exact hnew
      · rw [Option.filter_eq_some_iff] at hold
        simp [howns] at hold
    · rw [hsame, hnone]
      exact ⟨fun hold => absurd howns (hclear.events _ _ hold), nofun⟩

theorem Clear.other (hclear : Clear k file) (hapart : Apart h k)
    (htask : h.request.taskId ≠ k.request.taskId) (htracked : Tracked h file file') :
    Clear k file' where
  taskRun := by rw [htracked.taskRuns, if_neg htask.symm, hclear.taskRun]
  taskStep := by rw [htracked.taskSteps, if_neg hapart.stepId.symm, hclear.taskStep]
  events := by
    intro id event hlookup
    rcases htracked.events with hevents | ⟨-, hsame⟩
    · rw [hevents, Option.or_eq_some_iff] at hlookup
      rcases hlookup with hnew | ⟨-, hold⟩
      · exact hapart.notOwnedAfter event (mem_of_findRev? hnew).1
      · exact hclear.events id event (Option.filter_eq_some_iff.mp hold).1
    · rw [hsame] at hlookup
      exact hclear.events id event hlookup

theorem Shows.other (hshows : Shows h file) (hapart : Apart h k)
    (htask : h.request.taskId ≠ k.request.taskId) (htracked : Tracked k file file') :
    Shows h file' where
  taskRun := by rw [htracked.taskRuns, if_neg htask, hshows.taskRun]
  taskStep := by rw [htracked.taskSteps, if_neg hapart.stepId, hshows.taskStep]
  artifacts := by
    intro artifact howns
    have hnot : ¬ k.OwnsArtifact artifact := fun hk => htask (howns.1.symm.trans hk.1)
    rw [htracked.artifacts, Option.or_eq_some_iff, Option.filter_eq_some_iff,
      ← hshows.artifacts artifact howns]
    constructor
    · rintro (hnew | ⟨-, hold⟩)
      · exact absurd (ownsArtifact_of_mem (mem_of_findRev? hnew).1) hnot
      · exact hold.1
    · intro hlookup
      have hmem := (hshows.artifacts artifact howns).mp hlookup
      refine Or.inr ⟨findRev?_eq_none fun other hother => ?_, hlookup, by simpa using hnot⟩
      exact decide_eq_false (hapart.artifactIds artifact hmem other hother).symm
  events := by
    intro event howns
    have hnot : ¬ k.OwnsEvent event := fun hk => htask (howns.1.symm.trans hk.1)
    rw [← hshows.events event howns]
    rcases htracked.events with hevents | ⟨-, hsame⟩
    · rw [hevents, Option.or_eq_some_iff, Option.filter_eq_some_iff]
      constructor
      · rintro (hnew | ⟨-, hold⟩)
        · exact absurd howns (hapart.notOwnedBefore event (mem_of_findRev? hnew).1)
        · exact hold.1
      · intro hlookup
        have hmem := (mem_of_findRev? ((hshows.events event howns).mp hlookup)).1
        refine Or.inr ⟨findRev?_eq_none fun other hother => ?_, hlookup, by simpa using hnot⟩
        exact decide_eq_false (hapart.eventIds event hmem howns other hother).symm
    · rw [hsame]

end Views

def replayOf (file : TaskConversationFile) (taskId : String) :
    Option (Except String TaskResponse) :=
  (file.taskRuns.lookup taskId).map fun taskRun =>
    ((replayTaskResponse taskRun : Store ApiEvent TaskResponse).run.exec file).result

theorem replayOf_of_shows {h : Handled} {file file' : TaskConversationFile} (hkeyed : Keyed file)
    (hkeyed' : Keyed file') (hshows : Shows h file) (hshows' : Shows h file') :
    replayOf file h.request.taskId = replayOf file' h.request.taskId := by
  have hstepId : metadataId (h.taskRun none) "step_id" = some h.stepId :=
    metadataId_stepId (h.taskRun_metadata none) (isBlank_stepIdForRequest h.request)
  have hartifacts : (listedArtifacts file h.request.taskId).filter
      (fun artifact => artifact.stepId = some h.stepId) =
      (listedArtifacts file' h.request.taskId).filter
        fun artifact => artifact.stepId = some h.stepId := by
    refine Table.filter_insertionSort_congr _ hkeyed.artifacts hkeyed'.artifacts
      (fun a b => le_antisymm) fun artifact htask hstep => ?_
    have howns : h.OwnsArtifact artifact := ⟨of_decide_eq_true htask, of_decide_eq_true hstep⟩
    rw [hshows.artifacts artifact howns, hshows'.artifacts artifact howns]
  have hevents : (listedEvents file h.request.taskId).filter
      (fun event => event.causationId = some h.stepId) =
      (listedEvents file' h.request.taskId).filter
        fun event => event.causationId = some h.stepId := by
    refine Table.filter_insertionSort_congr _ hkeyed.events hkeyed'.events
      (fun a b hab hba => congrArg Prod.snd (stampLe_antisymm hab hba)) fun event htask hstep => ?_
    have howns : h.OwnsEvent event := ⟨of_decide_eq_true htask, of_decide_eq_true hstep⟩
    rw [hshows.events event howns, hshows'.events event howns]
  have htaskId : (h.taskRun none).taskId = h.request.taskId := rfl
  simp only [replayOf, hshows.taskRun, hshows'.taskRun, Option.map_some, exec_replayTaskResponse,
    replayedResponse, hstepId, htaskId, Option.bind_some, hshows.taskStep, hshows'.taskStep,
    Option.isNone_some, Bool.false_or, hartifacts, hevents]

section Runs

structure Incoming where
  handlers : TaskHandlers
  draws : TaskDraws
  request : TaskRequest

def Incoming.call (i : Incoming) : Call :=
  .handleTask i.handlers i.draws i.request

def Incoming.answered (i : Incoming) (response : TaskResponse) : Handled where
  request := prepareRequest i.request i.draws.taskId
  notBlank := isBlank_prepareRequest _ _
  response := response
  startedAt := i.draws.startedAt
  finishedAt := i.draws.finishedAt
  eventNow := i.draws.eventNow

def Incoming.answer (i : Incoming) (file : TaskConversationFile) : TaskResponse :=
  ((handleTask i.handlers i.draws i.request).exec file).result

def Incoming.handled (i : Incoming) (file : TaskConversationFile) : Handled :=
  i.answered (i.answer file)

def handleAll (incoming : List Incoming) (file : TaskConversationFile) : TaskConversationFile :=
  ((runCalls (incoming.map Incoming.call)).exec file).file

def handledFrom : List Incoming → TaskConversationFile → List Handled
  | [], _ => []
  | i :: rest, file => i.handled file :: handledFrom rest (i.call.program.exec file).file

theorem handleAll_nil (file : TaskConversationFile) : handleAll [] file = file := rfl

theorem handleAll_cons (i : Incoming) (rest : List Incoming) (file : TaskConversationFile) :
    handleAll (i :: rest) file = handleAll rest (i.call.program.exec file).file :=
  runCalls_cons_file _ _ _

theorem handleAll_append (before after : List Incoming) (file : TaskConversationFile) :
    handleAll (before ++ after) file = handleAll after (handleAll before file) := by
  rw [handleAll, List.map_append, runCalls_append_file]
  rfl

theorem handledFrom_append (before after : List Incoming) (file : TaskConversationFile) :
    handledFrom (before ++ after) file =
      handledFrom before file ++ handledFrom after (handleAll before file) := by
  induction before generalizing file with
  | nil => rfl
  | cons i rest ih =>
      rw [List.cons_append, handledFrom, ih, ← handleAll_cons]
      rfl

theorem keyed_handled (i : Incoming) {file : TaskConversationFile} (hkeyed : Keyed file) :
    Keyed (i.call.program.exec file).file :=
  keyed_call i.call [] file hkeyed

theorem tracked_call (i : Incoming) {file : TaskConversationFile} (hkeyed : Keyed file) :
    Tracked (i.handled file) file (i.call.program.exec file).file := by
  obtain ⟨mid, hkeyedMid, htables, hfile⟩ := handlePrepared_file hkeyed i.handlers i.draws
    (isBlank_prepareRequest i.request i.draws.taskId)
  rw [Incoming.call, Call.program, exec_discard_file, Incoming.handled, Incoming.answer,
    handleTask, hfile]
  generalize ((handlePrepared i.handlers i.draws
    (prepareRequest i.request i.draws.taskId)).exec file).result = response
  have hrequest : prepareRequest i.request i.draws.taskId = (i.answered response).request := by
    rw [Incoming.answered]
  rw [hrequest] at htables ⊢
  exact tracked_of_finish (i.answered response) hkeyedMid htables

variable {h : Handled} {incoming : List Incoming} {file : TaskConversationFile}

theorem clear_handleAll (hkeyed : Keyed file) (hclear : Clear h file)
    (htasks : ∀ k ∈ handledFrom incoming file, k.request.taskId ≠ h.request.taskId)
    (hapart : ∀ k ∈ handledFrom incoming file, Apart k h) :
    Clear h (handleAll incoming file) := by
  induction incoming generalizing file with
  | nil => exact hclear
  | cons i rest ih =>
      rw [handledFrom, List.forall_mem_cons] at htasks hapart
      rw [handleAll_cons]
      refine ih (keyed_handled i hkeyed) ?_ htasks.2 hapart.2
      exact hclear.other hapart.1 htasks.1 (tracked_call i hkeyed)

theorem shows_handleAll (hkeyed : Keyed file) (hshows : Shows h file)
    (htasks : ∀ k ∈ handledFrom incoming file, h.request.taskId ≠ k.request.taskId)
    (hapart : ∀ k ∈ handledFrom incoming file, Apart h k) :
    Shows h (handleAll incoming file) := by
  induction incoming generalizing file with
  | nil => exact hshows
  | cons i rest ih =>
      rw [handledFrom, List.forall_mem_cons] at htasks hapart
      rw [handleAll_cons]
      refine ih (keyed_handled i hkeyed) ?_ htasks.2 hapart.2
      exact hshows.other hapart.1 htasks.1 (tracked_call i hkeyed)

theorem clear_empty (h : Handled) : Clear h {} where
  taskRun := AList.lookup_empty _
  taskStep := AList.lookup_empty _
  events id event hevent := by
    rw [AList.lookup_empty] at hevent
    cases hevent

theorem shows_of_run {before after : List Incoming} {i : Incoming}
    (htasks : (handledFrom (before ++ i :: after) {}).Pairwise fun h k =>
      h.request.taskId ≠ k.request.taskId)
    (hapart : (handledFrom (before ++ i :: after) {}).Pairwise Apart) :
    Shows (i.handled (handleAll before {})) (handleAll (before ++ i :: after) {}) := by
  rw [handledFrom_append, handledFrom, List.pairwise_append, List.pairwise_cons] at htasks hapart
  obtain ⟨-, ⟨htasksAfter, -⟩, htasksBefore⟩ := htasks
  obtain ⟨-, ⟨hapartAfter, -⟩, hapartBefore⟩ := hapart
  have hclear : Clear (i.handled (handleAll before {})) (handleAll before {}) :=
    clear_handleAll keyed_empty (clear_empty _)
      (fun k hk => htasksBefore k hk _ List.mem_cons_self)
      fun k hk => hapartBefore k hk _ List.mem_cons_self
  have hkeyed : Keyed (handleAll before {}) := keyed_runCalls _
  have htracked := tracked_call i hkeyed
  rw [handleAll_append, handleAll_cons]
  exact shows_handleAll htracked.keyed (hclear.shows htracked) htasksAfter hapartAfter

/-- Requests with different task ids that keep to their own records are replayed as if
each had been handled alone: its tracking alone, with the answer it got, replays the same,
and so does its handling alone when its handler then gives the same answer. -/
theorem replay_isolated
    (htasks : (handledFrom incoming {}).Pairwise fun h k =>
      h.request.taskId ≠ k.request.taskId)
    (hapart : (handledFrom incoming {}).Pairwise Apart) {before after : List Incoming}
    {i : Incoming} (hi : incoming = before ++ i :: after) :
    let h := i.handled (handleAll before {})
    replayOf (handleAll incoming {}) h.request.taskId =
        replayOf (h.track.exec {}).file h.request.taskId ∧
      (i.answer (handleAll before {}) = i.answer {} →
        replayOf (handleAll incoming {}) h.request.taskId =
          replayOf (handleAll [i] {}) h.request.taskId) := by
  intro h
  subst hi
  have hshows : Shows h (handleAll (before ++ i :: after) {}) := shows_of_run htasks hapart
  have hkeyed : Keyed (handleAll (before ++ i :: after) {}) := keyed_runCalls _
  have halone : ∀ {file : TaskConversationFile}, Tracked h {} file →
      replayOf (handleAll (before ++ i :: after) {}) h.request.taskId =
        replayOf file h.request.taskId := fun htracked =>
    replayOf_of_shows hkeyed htracked.keyed hshows ((clear_empty h).shows htracked)
  refine ⟨halone (tracked_track h keyed_empty), fun hanswer => halone ?_⟩
  have hsame : h = i.handled {} := congrArg i.answered hanswer
  rw [hsame, handleAll_cons, handleAll_nil]
  exact tracked_call i keyed_empty

end Runs

def searched (message : String) (request : TaskRequest) : TaskResponse where
  taskId := request.taskId
  traceId := request.traceId
  status := .completed
  executorUsed := "knowledge_search"
  riskLevel := .low
  result := { message := message }
  auditRef := "audit-" ++ request.taskId
  missingFields := []
  prompt := none
  resumeToken := none

def searchHandlers (message : String) : TaskHandlers :=
  let respond request := Handler.respond (searched message request)
  { knowledgeSearch := respond
    ragAnswer := respond
    generalMessage := respond
    cameraScan := respond
    cameraConnect := respond
    cameraSnapshot := respond
    cameraShareLink := respond
    cameraAnalyze := respond
    executeHarborAction := fun request _ => searched message request
    draws :=
      { approvalId := ⟨"a0", by decide⟩
        eventId := ⟨"e0", by decide⟩
        auditRef := "audit-0"
        requestedAt := "1700000000"
        eventAt := "1700000000"
        decidedAt := "1700000000" } }

def search (taskId stepId message : String) (eventId : Uuid) : Incoming where
  handlers := searchHandlers message
  draws :=
    { taskId := ⟨"t0", by decide⟩
      startedAt := "1700000000"
      lifecycleEventId := eventId
      lifecycleAt := "1700000001"
      finishedAt := "1700000001"
      eventNow := fun _ => "1700000001" }
  request :=
    { taskId := taskId
      traceId := taskId
      stepId := stepId
      source := { channel := "feishu", userId := "user-1" }
      intent := { domain := "knowledge", action := "search", rawText := message } }

def searches (stepId : String) : List Incoming :=
  [search "task-1" stepId "meeting" ⟨"e1", by decide⟩,
   search "task-2" stepId "invoice" ⟨"e2", by decide⟩]

/-- Step ids that count the steps of a turn are told apart by the task. -/
theorem searches_of_turn_isolated :
    replayOf (handleAll (searches "step_1") {}) "task-1" =
      replayOf (handleAll [search "task-1" "step_1" "meeting" ⟨"e1", by decide⟩] {})
        "task-1" := by
  have htasks : (handledFrom (searches "step_1") {}).Pairwise fun h k =>
      h.request.taskId ≠ k.request.taskId := by
    decide
  have hapart : (handledFrom (searches "step_1") {}).Pairwise Apart := by
    decide
  have hfirst : searches "step_1" = [] ++ search "task-1" "step_1" "meeting" ⟨"e1", by decide⟩ ::
      [search "task-2" "step_1" "invoice" ⟨"e2", by decide⟩] := rfl
  exact (replay_isolated htasks hapart hfirst).2 rfl

def replayedMessage (file : TaskConversationFile) (taskId : String) : Option String :=
  (replayOf file taskId).bind fun response => response.toOption.map (·.result.message)

/-- With any other step id the later search answers for the earlier one. -/
theorem searches_share_client_step :
    ((handledFrom (searches "client-step") {}).Pairwise fun h k =>
      h.request.taskId ≠ k.request.taskId) ∧
    replayedMessage (handleAll (searches "client-step") {}) "task-1" = some "invoice" ∧
    replayedMessage
      (handleAll [search "task-1" "client-step" "meeting" ⟨"e1", by decide⟩] {}) "task-1" =
        some "meeting" ∧
    replayOf (handleAll (searches "client-step") {}) "task-1" ≠
      replayOf (handleAll [search "task-1" "client-step" "meeting" ⟨"e1", by decide⟩] {})
        "task-1" := by
  have hboth : replayedMessage (handleAll (searches "client-step") {}) "task-1" =
      some "invoice" := by
    decide
  have halone : replayedMessage (handleAll
      [search "task-1" "client-step" "meeting" ⟨"e1", by decide⟩] {}) "task-1" =
        some "meeting" := by
    decide
  refine ⟨by decide, hboth, halone, fun hsame => ?_⟩
  rw [replayedMessage, hsame] at hboth
  rw [replayedMessage, hboth] at halone
  exact absurd halone (by decide)

end HarborBeacon.TaskIsolation
