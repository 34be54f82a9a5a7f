import HarborBeacon.ServiceSteps

/-!
What holds of the store after every sequence of calls: task runs, steps and tickets stand
under their own ids. The tracking of a task is brought into the form of one rewrite of
the tables.
-/

namespace HarborBeacon.StoreInvariant

open ControlPlane ConversationState FileProgram Policy ServiceSteps TaskApi TaskContract TaskSession
open TaskTracking Text

theorem isBlank_stepIdForRequest (request : TaskRequest) :
    isBlank (stepIdForRequest request) = false := by
  unfold stepIdForRequest
  split
  · rename_i stepId hfirst
    split
    · exact isBlank_eq_false_of_mem (c := ':') (by simp) (by decide)
    · simpa using List.find?_some hfirst
  · exact isBlank_eq_false_of_mem (c := ':') (by simp) (by decide)

theorem isBlank_conversationHandle (request : TaskRequest) :
    isBlank (conversationHandleForRequest request) = false := by
  unfold conversationHandleForRequest
  cases hfirst : firstNonEmpty
      [request.source.sessionId, request.source.conversationId, request.source.userId] with
  | none => exact isBlank_eq_false_of_mem (c := '-') (by simp) (by decide)
  | some handle => simpa using List.find?_some hfirst

theorem isBlank_trackedSession (request : TaskRequest) (startedAt : String) :
    isBlank (trackingFor request startedAt).sessionId = false := by
  rw [trackingFor_sessionId]
  exact isBlank_conversationHandle request

theorem isBlank_trackedStep (request : TaskRequest) (startedAt : String) :
    isBlank (trackingFor request startedAt).stepId = false := by
  rw [trackingFor_stepId]
  exact isBlank_stepIdForRequest request

theorem isBlank_prepareRequest (request : TaskRequest) (taskId : Uuid) :
    isBlank (prepareRequest request taskId).taskId = false := by
  unfold prepareRequest
  by_cases hblank : isBlank request.taskId = true
  · simp only [if_pos hblank]
    split
    · exact taskId.notBlank
    · exact taskId.notBlank
  · simp only [if_neg hblank]
    split
    · simpa using hblank
    · simpa using hblank

theorem isBlank_artifactRecordId (request : TaskRequest) (stepId : String) (index : Nat) :
    isBlank (artifactRecordId request stepId index) = false :=
  isBlank_eq_false_of_mem (c := ':') (by simp [artifactRecordId]) (by decide)

/-- The records of the tasks stand under their own ids. -/
structure Keyed (file : TaskConversationFile) : Prop where
  sessions : file.sessions.KeyedBy (·.sessionId)
  taskRuns : file.taskRuns.KeyedBy (·.taskId)
  taskSteps : file.taskSteps.KeyedBy (·.stepId)
  artifacts : file.artifacts.KeyedBy (·.artifactId)
  approvals : file.approvals.KeyedBy (·.approvalId)
  events : file.events.KeyedBy (·.eventId)

theorem keyed_empty : Keyed {} where
  sessions := Table.keyedBy_empty
  taskRuns := Table.keyedBy_empty
  taskSteps := Table.keyedBy_empty
  artifacts := Table.keyedBy_empty
  approvals := Table.keyedBy_empty
  events := Table.keyedBy_empty

/-- The invariant as one of histories and files. -/
def KeyedIn (_ : List ApiEvent) (file : TaskConversationFile) : Prop :=
  Keyed file

variable {I : TaskConversationFile → Prop}

theorem preserves_saveRecord {id message : String}
    {put : TaskConversationFile → TaskConversationFile} (h : ∀ file, I file → I (put file)) :
    Preserves (fun _ file => I file) (saveRecord id message put : Store ApiEvent Unit).run := by
  intro log file hfile
  rw [exec_saveRecord]
  dsimp only
  split
  · exact hfile
  · exact h file hfile

theorem preserves_saveSession (session : ConversationSession) :
    Preserves KeyedIn (saveSession session).run :=
  preserves_saveRecord fun _ h => { h with sessions := h.sessions.insert _ _ rfl }

theorem preserves_saveTaskRun (taskRun : TaskRun) :
    Preserves KeyedIn (saveTaskRun taskRun).run :=
  preserves_saveRecord fun _ h => { h with taskRuns := h.taskRuns.insert _ _ rfl }

theorem preserves_saveTaskStep (taskStep : TaskStepRun) :
    Preserves KeyedIn (saveTaskStep taskStep).run :=
  preserves_saveRecord fun _ h => { h with taskSteps := h.taskSteps.insert _ _ rfl }

theorem preserves_replaceArtifacts (taskId : String) (stepId : Option String)
    (artifacts : List ArtifactRecord) :
    Preserves KeyedIn (replaceArtifactsForStep taskId stepId artifacts).run := by
  intro log file h
  rw [replaceArtifactsForStep, exec_replaceRecords]
  split
  · rename_i table hinsert
    exact { h with artifacts := keyedBy_insertAll (h.artifacts.retain _) hinsert }
  · exact h

theorem preserves_replaceEvents (taskId : String) (stepId : Option String)
    (events : List EventRecord) :
    Preserves KeyedIn (replaceEventsForStep taskId stepId events).run := by
  intro log file h
  rw [replaceEventsForStep, exec_replaceRecords]
  split
  · rename_i table hinsert
    exact { h with events := keyedBy_insertAll (h.events.retain _) hinsert }
  · exact h

theorem keyed_beginTaskTracking (request : TaskRequest) (startedAt : String) :
    Preserves KeyedIn (beginTaskTracking request startedAt) := by
  refine preserves_bind (preserves_of_keeps_id (keeps_buildSessionRecord id _ _ _))
    fun session => ?_
  refine preserves_bind (preserves_saveSession _) fun _ => ?_
  refine preserves_bind (preserves_of_keeps_id (keeps_inspectFile id _)) fun storedRun => ?_
  refine preserves_bind (preserves_saveTaskRun _) fun _ => ?_
  refine preserves_bind (preserves_of_keeps_id (keeps_inspectFile id _)) fun storedStep => ?_
  exact preserves_bind (preserves_saveTaskStep _) fun _ => preserves_pure _

theorem keyed_finishTaskTracking (request : TaskRequest) (response : TaskResponse)
    (tracking : TaskRuntimeTracking) (finishedAt : String) (now : Nat → String) :
    Preserves KeyedIn (finishTaskTracking request response tracking finishedAt now).run := by
  refine preserves_run_bind (preserves_of_keeps_id (keeps_inspectFile id _)) fun storedRun => ?_
  refine preserves_run_bind (preserves_saveTaskRun _) fun _ => ?_
  refine preserves_run_bind (preserves_of_keeps_id (keeps_inspectFile id _)) fun storedStep => ?_
  refine preserves_run_bind (preserves_saveTaskStep _) fun _ => ?_
  refine preserves_run_bind (preserves_replaceArtifacts _ _ _) fun _ => ?_
  refine preserves_run_bind (preserves_replaceEvents _ _ _) fun _ => ?_
  refine preserves_run_bind (preserves_run_lift (preserves_of_keeps_id
    (keeps_buildSessionRecord id _ _ _))) fun session => ?_
  exact preserves_saveSession _

theorem keyed_gate (request : TaskRequest) (action : Action) (executorUsed : String)
    (draws : GateDraws) :
    Preserves KeyedIn (ensureActionAllowed request action executorUsed draws) := by
  intro log file h
  rcases ensureActionAllowed_cases request action executorUsed draws file with
    ⟨hfile, -⟩ | hrefused | hallowed
  · rw [hfile]
    exact h
  · rcases hrefused.changes with ⟨hfile, -⟩ | ⟨violation, hfile, -⟩
    · rw [hfile]
      exact h
    · rw [hfile]
      exact { h with approvals := h.approvals.insert _ _ rfl }
  · rcases hallowed.changes with ⟨hfile, -⟩ | ⟨hfile, -⟩
    · rw [hfile]
      refine { h with approvals := h.approvals.mapValues fun key ticket => ?_ }
      split
      · rfl
      · rfl
    · rw [hfile]
      exact h

theorem keyed_saveConversation (request : TaskRequest) (state : TaskConversationState) :
    Preserves KeyedIn (saveConversation request state).run := by
  refine preserves_run_bind (preserves_of_keeps_id (keeps_inspectFile id _)) fun stored => ?_
  intro log file h
  unfold saveForSession
  split
  · exact h
  split
  · exact h
  rw [exec_modifyFile]
  cases henvelope : envelopeFromConversationState state.persisted
      (some (stored.getD (newSession request (conversationHandleForRequest request)))) with
  | error message =>
      simp only [henvelope]
      exact h
  | ok envelope =>
      simp only [henvelope]
      exact { h with sessions := h.sessions.insert _ _ rfl }

theorem keyed_handler (request : TaskRequest) (handler : Handler) :
    Preserves KeyedIn (handler.program request) := by
  refine preserves_handler request (fun _ _ _ _ _ => keyed_gate _ _ _ _)
    (keyed_saveConversation request) (fun asset => ?_) (fun mediaSession shareLink => ?_) handler
  · exact preserves_saveRecord fun file h => { h with }
  · intro log file h
    unfold saveShareLinkBundle
    split
    · exact h
    split
    · exact h
    split
    · exact h
    exact { h with }

theorem keyed_handlePrepared (handlers : TaskHandlers) (draws : TaskDraws)
    (request : TaskRequest) : Preserves KeyedIn (handlePrepared handlers draws request) :=
  preserves_handlePrepared_of_parts handlers draws request (fun _ _ h => h)
    (keyed_beginTaskTracking _ _) (keyed_handler request)
    fun _ _ => keyed_finishTaskTracking _ _ _ _ _

theorem keyed_markRejected (draws : DecisionDraws) (approvalId : String)
    (approver : Option String) :
    Preserves KeyedIn (markRejected draws approvalId approver).run := by
  intro log file h
  cases hticket : file.approvals.lookup approvalId with
  | none =>
      rw [exec_markRejected_none draws approver hticket]
      exact h
  | some ticket =>
      rw [exec_markRejected_some draws approver hticket]
      exact { h with
        approvals := h.approvals.insert _ _ (h.approvals approvalId ticket hticket) }

theorem keyed_closeRejected (draws : DecisionDraws) (approver : Option String)
    (approval : ApprovalTicket) (taskRun : TaskRun) (session : Option ConversationSession) :
    Preserves KeyedIn (closeRejected draws approver approval taskRun session).run := by
  refine preserves_run_bind (preserves_saveTaskRun _) fun _ => ?_
  refine preserves_run_bind ?_ fun _ => ?_
  · cases session with
    | none => exact preserves_run_pure _
    | some session => exact preserves_saveSession _
  refine preserves_run_bind (preserves_replaceEvents _ _ _) fun _ => ?_
  exact preserves_of_keeps_id (keeps_loadApprovalSummary id _)

theorem keyed_removeSession {file : TaskConversationFile} (h : Keyed file)
    (sessionId : String) : Keyed (removeSession file sessionId) where
  sessions := by
    intro key session hsession
    simp only [removeSession, Table.lookup_erase_eq_ite] at hsession
    split at hsession
    · cases hsession
    · exact h.sessions key session hsession
  taskRuns := h.taskRuns.retain _
  taskSteps := h.taskSteps.retain _
  artifacts := h.artifacts.retain _
  approvals := h.approvals
  events := h.events.retain _

theorem preserves_deleteSession (h : ∀ file sessionId, I file → I (removeSession file sessionId))
    (sessionId : String) :
    Preserves (fun _ file => I file)
      (deleteSessionWithTasks sessionId : Store ApiEvent Bool).run := by
  intro log file hfile
  unfold deleteSessionWithTasks
  split
  · exact hfile
  · simp only [ExceptT.run_mk, exec]
    split
    · exact hfile
    · exact h file sessionId hfile

theorem preserves_deleteSessions (h : ∀ file sessionId, I file → I (removeSession file sessionId))
    (sessions : List ConversationSession) :
    Preserves (fun _ file => I file)
      (deleteSessions sessions : Store ApiEvent (List String)).run := by
  induction sessions with
  | nil => exact preserves_run_pure _
  | cons session rest ih =>
      refine preserves_run_bind (preserves_deleteSession h _) fun _ => ?_
      exact preserves_run_bind ih fun _ => preserves_run_pure _

theorem keyed_call (call : Call) : Preserves KeyedIn call.program := by
  cases call with
  | handleTask handlers draws request =>
      exact preserves_discard (keyed_handlePrepared _ _ _)
  | approvePendingApproval handlers taskDraws draws approvalId approver =>
      exact preserves_discard (preserves_approve_of_parts _ _ _ _ _
        (fun request => keyed_handlePrepared _ _ _) fun _ _ _ => preserves_replaceEvents _ _ _)
  | rejectPendingApproval draws approvalId approver =>
      exact preserves_discard (preserves_reject_of_parts _ _ _ (keyed_markRejected _ _ _)
        (keyed_closeRejected draws approver))
  | deleteSessionWithTasks sessionId =>
      exact preserves_discard (preserves_deleteSession
        (fun _ sessionId h => keyed_removeSession h sessionId) _)
  | pruneSessionsForUserSurface userId surface limit =>
      refine preserves_discard (preserves_run_bind
        (preserves_of_keeps_id (keeps_inspectFile id _)) fun sessions => ?_)
      exact preserves_deleteSessions (fun _ sessionId h => keyed_removeSession h sessionId) _

theorem keyed_runCalls (calls : List Call) : Keyed ((runCalls calls).exec {}).file :=
  preserves_runCalls_of_call (fun call _ => keyed_call call) [] {} keyed_empty

section Tracking

def builtSession (request : TaskRequest) (tracking : TaskRuntimeTracking)
    (resumeToken : Option String) (file : TaskConversationFile) : ConversationSession :=
  ((buildSessionRecord request tracking resumeToken : Service _).exec file).result

theorem exec_buildSessionRecord (request : TaskRequest) (tracking : TaskRuntimeTracking)
    (resumeToken : Option String) (file : TaskConversationFile) :
    (buildSessionRecord request tracking resumeToken : Service _).exec file =
      ⟨file, [], builtSession request tracking resumeToken file⟩ := by
  obtain ⟨hfile, hlog⟩ := keeps_buildSessionRecord (ε := ApiEvent) id request tracking
    resumeToken file
  exact Outcome.ext hfile hlog rfl

theorem builtSession_sessionId (file : TaskConversationFile)
    (hsessions : file.sessions.KeyedBy (·.sessionId)) (request : TaskRequest)
    (tracking : TaskRuntimeTracking) (resumeToken : Option String) :
    (builtSession request tracking resumeToken file).sessionId = tracking.sessionId :=
  hsessions.getD (newSession request tracking.sessionId) rfl

section Ids

variable {file : TaskConversationFile} (hkeyed : Keyed file) (request : TaskRequest)
  (response : TaskResponse) (tracking : TaskRuntimeTracking) (finishedAt : String)
include hkeyed

theorem runningTaskRun_taskId :
    (runningTaskRun (file.taskRuns.lookup request.taskId) request tracking).taskId =
      request.taskId :=
  hkeyed.taskRuns.getD
    { taskId := request.taskId, startedAt := some tracking.startedAt } rfl

theorem finishedTaskRun_taskId :
    (finishedTaskRun (file.taskRuns.lookup request.taskId) request response tracking
      finishedAt).taskId = request.taskId :=
  hkeyed.taskRuns.getD
    { taskId := request.taskId, startedAt := some tracking.startedAt } rfl

theorem executingTaskStep_stepId :
    (executingTaskStep (file.taskSteps.lookup tracking.stepId) request tracking).stepId =
      tracking.stepId :=
  hkeyed.taskSteps.getD
    { stepId := tracking.stepId, startedAt := some tracking.startedAt } rfl

theorem finishedTaskStep_stepId :
    (finishedTaskStep (file.taskSteps.lookup tracking.stepId) request response tracking
      finishedAt).stepId = tracking.stepId :=
  hkeyed.taskSteps.getD
    { stepId := tracking.stepId, startedAt := some tracking.startedAt } rfl

end Ids

def beganFile (request : TaskRequest) (startedAt : String) (file : TaskConversationFile) :
    TaskConversationFile :=
  let tracking := trackingFor request startedAt
  { file with
    sessions := file.sessions.insert tracking.sessionId
      (builtSession request tracking none file)
    taskRuns := file.taskRuns.insert request.taskId
      (runningTaskRun (file.taskRuns.lookup request.taskId) request tracking)
    taskSteps := file.taskSteps.insert tracking.stepId
      (executingTaskStep (file.taskSteps.lookup tracking.stepId) request tracking) }

variable {id : String}

theorem exec_saveSession {session : ConversationSession} (hid : session.sessionId = id)
    (hblank : isBlank id = false) (file : TaskConversationFile) :
    (saveSession session : Store ApiEvent Unit).run.exec file =
      ⟨{ file with sessions := file.sessions.insert id session }, [], .ok ()⟩ := by
  rw [saveSession, exec_saveRecord, hid, hblank]
  rfl

theorem exec_saveTaskRun {taskRun : TaskRun} (hid : taskRun.taskId = id)
    (hblank : isBlank id = false) (file : TaskConversationFile) :
    (saveTaskRun taskRun : Store ApiEvent Unit).run.exec file =
      ⟨{ file with taskRuns := file.taskRuns.insert id taskRun }, [], .ok ()⟩ := by
  rw [saveTaskRun, exec_saveRecord, hid, hblank]
  rfl

theorem exec_saveTaskStep {taskStep : TaskStepRun} (hid : taskStep.stepId = id)
    (hblank : isBlank id = false) (file : TaskConversationFile) :
    (saveTaskStep taskStep : Store ApiEvent Unit).run.exec file =
      ⟨{ file with taskSteps := file.taskSteps.insert id taskStep }, [], .ok ()⟩ := by
  rw [saveTaskStep, exec_saveRecord, hid, hblank]
  rfl

theorem exec_beginTaskTracking {file : TaskConversationFile} (hkeyed : Keyed file)
    {request : TaskRequest} (hid : isBlank request.taskId = false) (startedAt : String) :
    (beginTaskTracking request startedAt : Service _).exec file =
      ⟨beganFile request startedAt file, [], trackingFor request startedAt⟩ := by
  have hsession := exec_saveSession
    (builtSession_sessionId file hkeyed.sessions request (trackingFor request startedAt) none)
    (isBlank_trackedSession request startedAt)
  have hrun := exec_saveTaskRun
    (runningTaskRun_taskId hkeyed request (trackingFor request startedAt)) hid
  have hstep := exec_saveTaskStep
    (executingTaskStep_stepId hkeyed request (trackingFor request startedAt))
    (isBlank_trackedStep request startedAt)
  refine (exec_bind_of_exec (exec_buildSessionRecord _ _ _ _) _).trans ?_
  refine (exec_bind_of_exec (hsession _) _).trans ?_
  refine (exec_bind_of_exec (exec_inspectFile _ _) _).trans ?_
  refine (exec_bind_of_exec (hrun _) _).trans ?_
  refine (exec_bind_of_exec (exec_inspectFile _ _) _).trans ?_
  exact exec_bind_of_exec (hstep _) _

def finishedArtifacts (request : TaskRequest) (response : TaskResponse)
    (file : TaskConversationFile) : Except String (Table ArtifactRecord) :=
  insertAll (·.artifactId) "artifact_id 不能为空"
    (buildArtifactRecords request (stepIdForRequest request) response.result.artifacts)
    (file.artifacts.retain fun _ artifact => !decide (artifact.taskId = request.taskId ∧
      artifact.stepId = some (stepIdForRequest request)))

def finishedEvents (request : TaskRequest) (response : TaskResponse) (now : Nat → String)
    (file : TaskConversationFile) : Except String (Table EventRecord) :=
  insertAll (·.eventId) "event_id 不能为空"
    (buildEventRecords request (stepIdForRequest request) now response.result.events)
    (file.events.retain fun _ event => !decide (event.sourceId = request.taskId ∧
      event.causationId = some (stepIdForRequest request)))

theorem finishedArtifacts_isOk (request : TaskRequest) (response : TaskResponse)
    (file : TaskConversationFile) :
    ∃ artifacts, finishedArtifacts request response file = .ok artifacts := by
  refine insertAll_isOk _ (fun record hrecord => ?_) _
  obtain ⟨index, hindex, rfl⟩ := List.mem_mapIdx.mp hrecord
  exact isBlank_artifactRecordId request _ index

theorem exec_replaceArtifacts {request : TaskRequest} {response : TaskResponse}
    {file s : TaskConversationFile} {artifacts : Table ArtifactRecord}
    (h : finishedArtifacts request response file = .ok artifacts)
    (hs : s.artifacts = file.artifacts) (startedAt : String) :
    (replaceArtifactsForStep request.taskId (some (trackingFor request startedAt).stepId)
      (buildArtifactRecords request (trackingFor request startedAt).stepId
        response.result.artifacts) : Store ApiEvent Unit).run.exec s =
      ⟨{ s with artifacts := artifacts }, [], .ok ()⟩ := by
  simp only [finishedArtifacts, ← hs] at h
  simp only [trackingFor_stepId, replaceArtifactsForStep, exec_replaceRecords, h]

theorem exec_replaceEvents (request : TaskRequest) (response : TaskResponse)
    (now : Nat → String) {file s : TaskConversationFile} (hs : s.events = file.events)
    (startedAt : String) :
    (replaceEventsForStep request.taskId (some (trackingFor request startedAt).stepId)
      (buildEventRecords request (trackingFor request startedAt).stepId now
        response.result.events) : Store ApiEvent Unit).run.exec s =
      match finishedEvents request response now file with
      | .error message => ⟨s, [], .error message⟩
      | .ok events => ⟨{ s with events := events }, [], .ok ()⟩ := by
  simp only [finishedEvents, ← hs]
  simp only [trackingFor_stepId, replaceEventsForStep, exec_replaceRecords]
  split
  · rename_i table htable
    simp only [htable]
  · rename_i message hmessage
    simp only [hmessage]

def recordedFile (request : TaskRequest) (response : TaskResponse) (startedAt : String)
    (finishedAt : String) (artifacts : Table ArtifactRecord) (file : TaskConversationFile) :
    TaskConversationFile :=
  let tracking := trackingFor request startedAt
  { file with
    taskRuns := file.taskRuns.insert request.taskId
      (finishedTaskRun (file.taskRuns.lookup request.taskId) request response tracking finishedAt)
    taskSteps := file.taskSteps.insert tracking.stepId
      (finishedTaskStep (file.taskSteps.lookup tracking.stepId) request response tracking
        finishedAt)
    artifacts := artifacts }

def closedFile (request : TaskRequest) (response : TaskResponse) (startedAt : String)
    (events : Table EventRecord) (file : TaskConversationFile) : TaskConversationFile :=
  let tracking := trackingFor request startedAt
  let file := { file with events := events }
  { file with
    sessions := file.sessions.insert tracking.sessionId
      (builtSession request tracking response.resumeToken file) }

theorem exec_finishTaskTracking {file : TaskConversationFile} (hkeyed : Keyed file)
    {request : TaskRequest} (hid : isBlank request.taskId = false) (response : TaskResponse)
    (startedAt finishedAt : String) (now : Nat → String) :
    ∃ artifacts, finishedArtifacts request response file = .ok artifacts ∧
      (finishTaskTracking request response (trackingFor request startedAt) finishedAt now :
        Store ApiEvent Unit).run.exec file =
          match finishedEvents request response now file with
          | .error message =>
              ⟨recordedFile request response startedAt finishedAt artifacts file, [],
                .error message⟩
          | .ok events =>
              ⟨closedFile request response startedAt events
                (recordedFile request response startedAt finishedAt artifacts file), [],
                .ok ()⟩ := by
  obtain ⟨artifacts, hartifacts⟩ := finishedArtifacts_isOk request response file
  refine ⟨artifacts, hartifacts, ?_⟩
  have hrun := exec_saveTaskRun (finishedTaskRun_taskId hkeyed request response
    (trackingFor request startedAt) finishedAt) hid
  have hstep := exec_saveTaskStep (finishedTaskStep_stepId hkeyed request response
    (trackingFor request startedAt) finishedAt) (isBlank_trackedStep request startedAt)
  refine (exec_run_bind_of_ok (exec_inspectFile _ _) _).trans ?_
  refine (exec_run_bind_of_ok (hrun _) _).trans ?_
  refine (exec_run_bind_of_ok (exec_inspectFile _ _) _).trans ?_
  refine (exec_run_bind_of_ok (hstep _) _).trans ?_
  refine (exec_run_bind_of_ok (exec_replaceArtifacts hartifacts (by rfl) startedAt) _).trans ?_
  have hkept : (recordedFile request response startedAt finishedAt artifacts file).events =
      file.events := rfl
  have hreplace := exec_replaceEvents request response now hkept startedAt
  cases hevents : finishedEvents request response now file with
  | error message =>
      rw [hevents] at hreplace
      exact exec_run_bind_of_error hreplace _
  | ok events =>
      rw [hevents] at hreplace
      have hbuild := exec_buildSessionRecord request (trackingFor request startedAt)
        response.resumeToken
        { recordedFile request response startedAt finishedAt artifacts file with
          events := events }
      have hsession := exec_saveSession (builtSession_sessionId
        { recordedFile request response startedAt finishedAt artifacts file with
          events := events } hkeyed.sessions request (trackingFor request startedAt)
          response.resumeToken) (isBlank_trackedSession request startedAt)
      refine (exec_run_bind_of_ok hreplace _).trans ?_
      refine (exec_run_bind_of_ok (exec_run_lift hbuild) _).trans ?_
      exact hsession _

theorem finishTaskTracking_ok {file stored : TaskConversationFile} (hkeyed : Keyed file)
    {request : TaskRequest} (hid : isBlank request.taskId = false) {response : TaskResponse}
    {startedAt finishedAt : String} {now : Nat → String}
    (hstored : (finishTaskTracking request response (trackingFor request startedAt) finishedAt
      now : Store ApiEvent Unit).run.exec file = ⟨stored, [], .ok ()⟩) :
    ∃ artifacts events, finishedArtifacts request response file = .ok artifacts ∧
      finishedEvents request response now file = .ok events ∧
      stored = closedFile request response startedAt events
        (recordedFile request response startedAt finishedAt artifacts file) := by
  obtain ⟨artifacts, hartifacts, hexec⟩ := exec_finishTaskTracking hkeyed hid response startedAt
    finishedAt now
  rw [hstored] at hexec
  cases hevents : finishedEvents request response now file with
  | error message =>
      rw [hevents] at hexec
      cases congrArg Outcome.result hexec
  | ok events =>
      rw [hevents] at hexec
      exact ⟨artifacts, events, hartifacts, rfl, congrArg Outcome.file hexec⟩

end Tracking

def taskTables (file : TaskConversationFile) :
    Table TaskRun × Table TaskStepRun × Table ArtifactRecord × Table EventRecord :=
  (file.taskRuns, file.taskSteps, file.artifacts, file.events)

theorem taskTables_gate (request : TaskRequest) (action : Action) (executorUsed : String)
    (draws : GateDraws) (file : TaskConversationFile) :
    taskTables ((ensureActionAllowed request action executorUsed draws).exec file).file =
      taskTables file := by
  rcases ensureActionAllowed_cases request action executorUsed draws file with
    ⟨hfile, -⟩ | hrefused | hallowed
  · rw [hfile]
  · rcases hrefused.changes with ⟨hfile, -⟩ | ⟨violation, hfile, -⟩
    · rw [hfile]
    · rw [hfile]
      rfl
  · rcases hallowed.changes with ⟨hfile, -⟩ | ⟨hfile, -⟩
    · rw [hfile]
      rfl
    · rw [hfile]

theorem taskTables_handler (request : TaskRequest) (handler : Handler)
    (file : TaskConversationFile) :
    taskTables ((handler.program request).exec file).file = taskTables file := by
  refine preserves_handler_of_part taskTables (fun _ tables => tables = taskTables file) request
    (fun _ _ _ _ _ _ => rfl) (fun intent args action executorUsed draws => ?_) handler [] file rfl
  intro log s hs
  exact (taskTables_gate _ _ _ _ s).trans hs

theorem handlePrepared_file {file : TaskConversationFile} (hkeyed : Keyed file)
    (handlers : TaskHandlers) (draws : TaskDraws) {request : TaskRequest}
    (hid : isBlank request.taskId = false) :
    let o := (handlePrepared handlers draws request).exec file
    ∃ mid, Keyed mid ∧
      taskTables mid = taskTables (beganFile request draws.startedAt file) ∧
      o.file = ((finishTaskTracking request o.result (trackingFor request draws.startedAt)
        draws.finishedAt draws.eventNow : Store ApiEvent Unit).run.exec mid).file := by
  have hbegan := exec_beginTaskTracking hkeyed hid draws.startedAt
  have hkeyedBegan : Keyed (beganFile request draws.startedAt file) := by
    have h := keyed_beginTaskTracking request draws.startedAt [] file hkeyed
    rwa [hbegan] at h
  refine ⟨(((handlers.dispatch request).program request).exec
    (beganFile request draws.startedAt file)).file,
    keyed_handler request _ [] _ hkeyedBegan, taskTables_handler request _ _, ?_⟩
  simp only [handlePrepared, exec_bind, Outcome.andThen, exec_report, hbegan, exec_pure]

theorem finishTaskTracking_tables {file : TaskConversationFile} (hkeyed : Keyed file)
    {request : TaskRequest} (hid : isBlank request.taskId = false) (response : TaskResponse)
    (startedAt finishedAt : String) (now : Nat → String) :
    let tracking := trackingFor request startedAt
    let finished := ((finishTaskTracking request response tracking finishedAt now :
      Store ApiEvent Unit).run.exec file).file
    finished.taskRuns = file.taskRuns.insert request.taskId (finishedTaskRun
        (file.taskRuns.lookup request.taskId) request response tracking finishedAt) ∧
      finished.taskSteps = file.taskSteps.insert tracking.stepId (finishedTaskStep
        (file.taskSteps.lookup tracking.stepId) request response tracking finishedAt) ∧
      finishedArtifacts request response file = .ok finished.artifacts ∧
      (finishedEvents request response now file = .ok finished.events ∨
        ∃ message, finishedEvents request response now file = .error message ∧
          finished.events = file.events) := by
  intro tracking finished
  obtain ⟨artifacts, hartifacts, hexec⟩ := exec_finishTaskTracking hkeyed hid response startedAt
    finishedAt now
  simp only [finished, tracking, hexec]
  cases hevents : finishedEvents request response now file with
  | error message => exact ⟨rfl, rfl, hartifacts, Or.inr ⟨message, rfl, rfl⟩⟩
  | ok events => exact ⟨rfl, rfl, hartifacts, Or.inl rfl⟩

theorem handlePrepared_taskRuns {file : TaskConversationFile} (hkeyed : Keyed file)
    (handlers : TaskHandlers) (draws : TaskDraws) {request : TaskRequest}
    (hid : isBlank request.taskId = false) (taskId : String) :
    ((handlePrepared handlers draws request).exec file).file.taskRuns.lookup taskId =
      if taskId = request.taskId then
        some (finishedTaskRun (some (runningTaskRun (file.taskRuns.lookup request.taskId) request
          (trackingFor request draws.startedAt))) request
          ((handlePrepared handlers draws request).exec file).result
          (trackingFor request draws.startedAt) draws.finishedAt)
      else file.taskRuns.lookup taskId := by
  obtain ⟨mid, hkeyedMid, htables, hfile⟩ := handlePrepared_file hkeyed handlers draws hid
  have hmid : mid.taskRuns = (beganFile request draws.startedAt file).taskRuns :=
    congrArg (fun tables => tables.1) htables
  rw [hfile, (finishTaskTracking_tables hkeyedMid hid _ _ _ _).1, hmid,
    Table.lookup_insert_eq_ite]
  simp only [beganFile, Table.lookup_insert_eq_ite, if_true]
  split
  · rfl
  · rfl

def sessionOfRun (file : TaskConversationFile) (taskRun : TaskRun) :
    Option ConversationSession :=
  if isBlank taskRun.sessionId then none else file.sessions.lookup taskRun.sessionId

theorem exec_loadTaskContext (approval : ApprovalTicket) (file : TaskConversationFile) :
    (loadTaskContext approval : Store ApiEvent _).run.exec file =
      match file.taskRuns.lookup approval.taskId with
      | none => ⟨file, [], .error ("task run not found for approval: " ++ approval.taskId)⟩
      | some taskRun => ⟨file, [], .ok (taskRun, sessionOfRun file taskRun)⟩ := by
  refine (exec_run_bind_of_ok (exec_inspectFile _ _) _).trans ?_
  cases file.taskRuns.lookup approval.taskId with
  | none => rfl
  | some taskRun =>
      dsimp only [sessionOfRun]
      split
      · rfl
      · rfl

theorem exec_loadApprovalContext (approvalId : String) (file : TaskConversationFile) :
    (loadApprovalContext approvalId : Store ApiEvent _).run.exec file =
      match file.approvals.lookup approvalId with
      | none => ⟨file, [], .error ("approval not found: " ++ approvalId)⟩
      | some approval =>
          match file.taskRuns.lookup approval.taskId with
          | none => ⟨file, [], .error ("task run not found for approval: " ++ approval.taskId)⟩
          | some taskRun => ⟨file, [], .ok (approval, taskRun, sessionOfRun file taskRun)⟩ := by
  refine (exec_run_bind_of_ok (exec_inspectFile _ _) _).trans ?_
  cases file.approvals.lookup approvalId with
  | none => rfl
  | some approval =>
      have hcontext := exec_loadTaskContext approval file
      cases hrun : file.taskRuns.lookup approval.taskId with
      | none =>
          rw [hrun] at hcontext
          simp only [hrun]
          exact exec_run_bind_of_error hcontext _
      | some taskRun =>
          rw [hrun] at hcontext
          simp only [hrun]
          exact exec_run_bind_of_ok hcontext _

theorem loadApprovalContext_ok {approvalId : String} {file : TaskConversationFile}
    {context : ApprovalTicket × TaskRun × Option ConversationSession}
    (h : ((loadApprovalContext approvalId : Store ApiEvent _).run.exec file).result =
      .ok context) : file.taskRuns.lookup context.1.taskId = some context.2.1 := by
  rw [exec_loadApprovalContext] at h
  split at h
  · cases h
  split at h
  · cases h
  · rename_i taskRun hrun
    cases h
    exact hrun

def RejectedRuns (draws : DecisionDraws) (taskRuns taskRuns' : Table TaskRun) : Prop :=
  taskRuns' = taskRuns ∨
    ∃ taskRun, taskRuns.lookup taskRun.taskId = some taskRun ∧
      taskRuns' = taskRuns.insert taskRun.taskId
        { taskRun with status := .failed, completedAt := some draws.decidedAt }

theorem triple_closeRejected (draws : DecisionDraws) (approver : Option String)
    (approval : ApprovalTicket) {taskRun : TaskRun} (session : Option ConversationSession)
    {taskRuns : Table TaskRun} (hrun : taskRuns.lookup taskRun.taskId = some taskRun) :
    Triple (fun _ s => s.taskRuns = taskRuns)
      (closeRejected draws approver approval taskRun session).run
      fun _ _ s => RejectedRuns draws taskRuns s.taskRuns := by
  refine triple_run_bind (R := fun _ _ s => RejectedRuns draws taskRuns s.taskRuns)
    ?_ (fun _ => ?_) fun _ _ _ h => h
  · intro log s hs
    rw [saveTaskRun, exec_saveRecord]
    dsimp only
    split
    · exact Or.inl hs
    · rw [← hs]
      rw [← hs] at hrun
      exact Or.inr ⟨taskRun, hrun, rfl⟩
  · have hrest : ∀ {α : Type} {p : Service α}, Keeps (·.taskRuns) p →
        Preserves (fun _ s => RejectedRuns draws taskRuns s.taskRuns) p :=
      fun hp => hp.preserves fun _ runs => RejectedRuns draws taskRuns runs
    refine preserves_run_bind (hrest (keeps_clearResumeToken (fun _ _ => rfl) _)) fun _ => ?_
    refine preserves_run_bind (hrest (keeps_recordApprovalDecisionEvent (fun _ _ => rfl)
      _ _ _ _ _ _ _ _)) fun _ => ?_
    exact hrest (keeps_loadApprovalSummary _ _)

theorem markRejected_taskRuns (draws : DecisionDraws) (approvalId : String)
    (approver : Option String) (file : TaskConversationFile) :
    ((markRejected draws approvalId approver).run.exec file).file.taskRuns = file.taskRuns := by
  cases hticket : file.approvals.lookup approvalId with
  | none => rw [exec_markRejected_none draws approver hticket]
  | some ticket => rw [exec_markRejected_some draws approver hticket]

theorem rejectPendingApproval_taskRuns {file : TaskConversationFile} (hkeyed : Keyed file)
    (draws : DecisionDraws) (approvalId : String) (approver : Option String) :
    RejectedRuns draws file.taskRuns
      ((rejectPendingApproval draws approvalId approver).run.exec file).file.taskRuns := by
  have hloaded : Triple (fun _ s => s = file)
      (loadApprovalContext approvalId : Store ApiEvent _).run
      fun result _ s => s = file ∧ ∀ context, result = .ok context →
        file.taskRuns.lookup context.1.taskId = some context.2.1 := by
    rintro log s rfl
    exact ⟨(keeps_loadApprovalContext id approvalId s).1,
      fun context hcontext => loadApprovalContext_ok hcontext⟩
  refine triple_run_bind (Q := fun _ _ s => RejectedRuns draws file.taskRuns s.taskRuns)
    hloaded (fun context => ?_) ?_ [] file rfl
  · obtain ⟨approval, taskRun, session⟩ := context
    dsimp only
    split
    · rintro log s ⟨rfl, -⟩
      exact Or.inl rfl
    · rintro log s ⟨rfl, hrun⟩
      have hstored := hrun _ rfl
      rw [← hkeyed.taskRuns _ _ hstored] at hstored
      refine triple_run_bind (P := fun _ s' => s'.taskRuns = s.taskRuns)
        (R := fun _ _ s' => s'.taskRuns = s.taskRuns) ?_
        (fun updated => triple_closeRejected draws approver updated session hstored)
        (fun _ _ _ hs' => Or.inl hs') log s rfl
      intro log' s' hs'
      exact (markRejected_taskRuns draws approvalId approver s').trans hs'
  · rintro message log s ⟨rfl, -⟩
    exact Or.inl rfl

end HarborBeacon.StoreInvariant
