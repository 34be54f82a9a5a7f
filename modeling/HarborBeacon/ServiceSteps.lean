import HarborBeacon.TaskApi

/-!
What the programs of the service do: which tables each of them leaves alone, all that one
pass of the approval gate can do, and the rule by which a property of the gate and of the
store operations extends to every handler.
-/

namespace HarborBeacon.ServiceSteps

open ControlPlane ConversationState FileProgram Json Policy TaskApi TaskContract TaskSession
open TaskTracking Text

section Frames

variable {ε γ : Type} {f : TaskConversationFile → γ}

theorem keeps_loadConversation (f : TaskConversationFile → γ) (request : TaskRequest) :
    Keeps f (loadConversation request :
      FileProgram TaskConversationFile ε (Option TaskConversationState)) :=
  keeps_bind (keeps_inspectFile f _) fun _ => keeps_pure f _

theorem keeps_buildSessionRecord (f : TaskConversationFile → γ) (request : TaskRequest)
    (tracking : TaskRuntimeTracking) (resumeToken : Option String) :
    Keeps f (buildSessionRecord request tracking resumeToken :
      FileProgram TaskConversationFile ε ConversationSession) := by
  refine keeps_bind (keeps_inspectFile f _) fun _ => ?_
  exact keeps_bind (keeps_loadConversation f request) fun _ => keeps_pure f _

theorem keeps_beginTaskTracking
    (h : ∀ file sessions taskRuns taskSteps, f { file with
      sessions := sessions, taskRuns := taskRuns, taskSteps := taskSteps } = f file)
    (request : TaskRequest) (startedAt : String) :
    Keeps f (beginTaskTracking request startedAt :
      FileProgram TaskConversationFile ε TaskRuntimeTracking) := by
  refine keeps_bind (keeps_buildSessionRecord f _ _ _) fun session => ?_
  refine keeps_bind (keeps_saveRecord fun file => h file _ _ _) fun _ => ?_
  refine keeps_bind (keeps_inspectFile f _) fun storedRun => ?_
  refine keeps_bind (keeps_saveRecord fun file => h file _ _ _) fun _ => ?_
  refine keeps_bind (keeps_inspectFile f _) fun storedStep => ?_
  exact keeps_bind (keeps_saveRecord fun file => h file _ _ _) fun _ => keeps_pure f _

theorem keeps_finishTaskTracking
    (h : ∀ file sessions taskRuns taskSteps artifacts events, f { file with
      sessions := sessions, taskRuns := taskRuns, taskSteps := taskSteps,
      artifacts := artifacts, events := events } = f file)
    (request : TaskRequest) (response : TaskResponse) (tracking : TaskRuntimeTracking)
    (finishedAt : String) (now : Nat → String) :
    Keeps f (finishTaskTracking request response tracking finishedAt now : Store ε Unit).run := by
  refine keeps_run_bind (keeps_inspectFile f _) fun storedRun => ?_
  refine keeps_run_bind (keeps_saveRecord fun file => h file _ _ _ _ _) fun _ => ?_
  refine keeps_run_bind (keeps_inspectFile f _) fun storedStep => ?_
  refine keeps_run_bind (keeps_saveRecord fun file => h file _ _ _ _ _) fun _ => ?_
  refine keeps_run_bind (keeps_replaceRecords fun file _ => h file _ _ _ _ _) fun _ => ?_
  refine keeps_run_bind (keeps_replaceRecords fun file _ => h file _ _ _ _ _) fun _ => ?_
  refine keeps_run_bind (keeps_run_lift (keeps_buildSessionRecord f _ _ _)) fun session => ?_
  exact keeps_saveRecord fun file => h file _ _ _ _ _

theorem keeps_saveConversation
    (h : ∀ file sessions conversations,
      f { file with sessions := sessions, conversations := conversations } = f file)
    (request : TaskRequest) (state : TaskConversationState) :
    Keeps f (saveConversation request state : Store ε Unit).run :=
  keeps_run_bind (keeps_inspectFile f _) fun _ => keeps_saveForSession h

theorem keeps_loadTaskContext (f : TaskConversationFile → γ) (approval : ApprovalTicket) :
    Keeps f (loadTaskContext approval :
      Store ε (TaskRun × Option ConversationSession)).run := by
  refine keeps_run_bind (keeps_inspectFile f _) fun taskRun => ?_
  cases taskRun with
  | none => exact keeps_run_throw f _
  | some taskRun =>
      dsimp only
      split
      · exact keeps_run_bind (keeps_run_pure f _) fun _ => keeps_run_pure f _
      · exact keeps_run_bind (keeps_inspectFile f _) fun _ => keeps_run_pure f _

theorem keeps_loadApprovalContext (f : TaskConversationFile → γ) (approvalId : String) :
    Keeps f (loadApprovalContext approvalId :
      Store ε (ApprovalTicket × TaskRun × Option ConversationSession)).run := by
  refine keeps_run_bind (keeps_inspectFile f _) fun approval => ?_
  cases approval with
  | none => exact keeps_run_throw f _
  | some approval =>
      exact keeps_run_bind (keeps_loadTaskContext f approval) fun _ => keeps_run_pure f _

theorem keeps_loadApprovalSummary (f : TaskConversationFile → γ) (approval : ApprovalTicket) :
    Keeps f (loadApprovalSummary approval : Store ε TaskApprovalSummary).run :=
  keeps_run_bind (keeps_loadTaskContext f approval) fun _ => keeps_run_pure f _

theorem keeps_recordApprovalDecisionEvent
    (h : ∀ file events, f { file with events := events } = f file) (approval : ApprovalTicket)
    (taskRun : TaskRun) (session : Option ConversationSession) (eventType : String)
    (severity : EventSeverity) (approver : Option String) (eventId : Uuid) (now : String) :
    Keeps f (recordApprovalDecisionEvent approval taskRun session eventType severity approver
      eventId now : Store ε Unit).run :=
  keeps_replaceRecords fun file _ => h file _

theorem keeps_clearResumeToken
    (h : ∀ file sessions, f { file with sessions := sessions } = f file)
    (session : Option ConversationSession) :
    Keeps f (clearResumeToken session : Store ε Unit).run := by
  cases session with
  | none => exact keeps_run_pure f _
  | some session =>
      rw [clearResumeToken, saveSession]
      exact keeps_saveRecord fun file => h file _

theorem keeps_closeRejected
    (h : ∀ file sessions taskRuns events, f { file with
      sessions := sessions, taskRuns := taskRuns, events := events } = f file)
    (draws : DecisionDraws) (approver : Option String) (approval : ApprovalTicket)
    (taskRun : TaskRun) (session : Option ConversationSession) :
    Keeps f (closeRejected draws approver approval taskRun session).run := by
  refine keeps_run_bind (keeps_saveRecord fun file => h file _ _ _) fun _ => ?_
  refine keeps_run_bind (keeps_clearResumeToken (fun file _ => h file _ _ _) _) fun _ => ?_
  refine keeps_run_bind (keeps_recordApprovalDecisionEvent (fun file _ => h file _ _ _)
    _ _ _ _ _ _ _ _) fun _ => ?_
  exact keeps_loadApprovalSummary f _

theorem keeps_deleteSessionWithTasks
    (h : ∀ file sessionId, f (removeSession file sessionId) = f file) (sessionId : String) :
    Keeps f (deleteSessionWithTasks sessionId : Store ε Bool).run := by
  unfold deleteSessionWithTasks
  split
  · exact keeps_run_pure f _
  · intro file
    simp only [ExceptT.run_mk, exec]
    split
    · exact ⟨rfl, rfl⟩
    · exact ⟨h file sessionId, rfl⟩

theorem keeps_deleteSessions
    (h : ∀ file sessionId, f (removeSession file sessionId) = f file)
    (sessions : List ConversationSession) :
    Keeps f (deleteSessions sessions : Store ε (List String)).run := by
  induction sessions with
  | nil => exact keeps_run_pure f _
  | cons session rest ih =>
      refine keeps_run_bind (keeps_deleteSessionWithTasks h _) fun _ => ?_
      exact keeps_run_bind ih fun _ => keeps_run_pure f _

theorem keeps_pruneSessions
    (h : ∀ file sessionId, f (removeSession file sessionId) = f file)
    (userId surface : String) (limit : Nat) :
    Keeps f (pruneSessionsForUserSurface userId surface limit : Store ε (List String)).run :=
  keeps_run_bind (keeps_inspectFile f _) fun _ => keeps_deleteSessions h _

end Frames

section Gate

def pendingTicket (file : TaskConversationFile) (taskId : String) : Option ApprovalTicket :=
  (sortByStamp approvalStamp
    (file.approvals.values.filter fun approval => approval.taskId = taskId)).find?
      fun approval => approval.status = .pending

theorem mem_sortByStamp {α : Type} {stamp : α → Option String × String} {items : List α}
    {a : α} : a ∈ sortByStamp stamp items ↔ a ∈ items :=
  List.mem_insertionSort _

variable {ticket : ApprovalTicket}

theorem pendingTicket_eq_some {file : TaskConversationFile} {taskId : String}
    (h : pendingTicket file taskId = some ticket) :
    ticket ∈ file.approvals.values ∧ ticket.taskId = taskId ∧ ticket.status = .pending := by
  have hmem := List.mem_of_find?_eq_some h
  have hstatus := List.find?_some h
  rw [mem_sortByStamp, List.mem_filter] at hmem
  exact ⟨hmem.1, by simpa using hmem.2, by simpa using hstatus⟩

theorem pendingTicket_isSome {file : TaskConversationFile} (hmem : ticket ∈ file.approvals.values)
    (hstatus : ticket.status = .pending) :
    ∃ other, pendingTicket file ticket.taskId = some other := by
  rw [← Option.isSome_iff_exists, pendingTicket, List.find?_isSome]
  refine ⟨ticket, ?_, by simpa using hstatus⟩
  rw [mem_sortByStamp, List.mem_filter]
  exact ⟨hmem, by simp⟩

def resolvedApprovals (approvals : Table ApprovalTicket) (request : TaskRequest)
    (decidedAt : String) : Table ApprovalTicket :=
  approvals.mapValues fun _ approval =>
    if isPendingFor request.taskId approval then
      ApprovalTicket.decide .approved (requestApproverId request) (some decidedAt) approval
    else approval

def drawnEvents (pending : Option ApprovalTicket) (draws : GateDraws) : List ApiEvent :=
  match pending with
  | some _ => []
  | none => [.approvalIdDrawn draws.approvalId.text]

def chosenTicketId (pending : Option ApprovalTicket) (draws : GateDraws) : String :=
  (pending.map (·.approvalId)).getD draws.approvalId.text

theorem exec_ticketId (pending : Option ApprovalTicket) (draws : GateDraws)
    (file : TaskConversationFile) :
    (ticketId pending draws).exec file =
      ⟨file, drawnEvents pending draws, chosenTicketId pending draws⟩ := by
  cases pending <;> rfl

theorem exec_saveTicket (ticket : ApprovalTicket) (file : TaskConversationFile) :
    (saveTicket ticket).exec file =
      if isBlank ticket.approvalId then ⟨file, [], ()⟩
      else ⟨{ file with approvals := file.approvals.insert ticket.approvalId ticket },
        [.ticketSaved ticket], ()⟩ := by
  unfold saveTicket saveApproval saveRecord
  by_cases hblank : isBlank ticket.approvalId = true
  · simp only [if_pos hblank]
    rfl
  · simp only [if_neg hblank]
    rfl

/-- The gate turns the action away because of the autonomy level. -/
def GateBlocked (file : TaskConversationFile)
    (o : Outcome TaskConversationFile ApiEvent (Except TaskResponse Unit)) : Prop :=
  o.file = file ∧ o.log = [] ∧ ∃ response, o.result = .error response

/-- The gate turns the action away because of a policy violation and leaves a ticket. -/
def GateRefused (request : TaskRequest) (action : Action) (draws : GateDraws)
    (file : TaskConversationFile)
    (o : Outcome TaskConversationFile ApiEvent (Except TaskResponse Unit)) : Prop :=
  let pending := pendingTicket file request.taskId
  ∃ violation,
    let ticket := violationTicket request action violation (chosenTicketId pending draws)
      draws.requestedAt
    enforce action (approvalContextForRequest request pending) = .error violation ∧
    (if isBlank ticket.approvalId then
      o.file = file ∧ o.log = drawnEvents pending draws
    else
      o.file = { file with approvals := file.approvals.insert ticket.approvalId ticket } ∧
        o.log = drawnEvents pending draws ++ [.ticketSaved ticket]) ∧
    ∃ response, o.result = .error response ∧ response.status = .needsInput ∧
      response.resumeToken = some ticket.approvalId

/-- The gate lets the action through; a token resolves the pending tickets of the task. -/
def GateAllowed (request : TaskRequest) (action : Action) (draws : GateDraws)
    (file : TaskConversationFile)
    (o : Outcome TaskConversationFile ApiEvent (Except TaskResponse Unit)) : Prop :=
  let pending := pendingTicket file request.taskId
  enforce action (approvalContextForRequest request pending) = .ok () ∧ o.result = .ok () ∧
  (if (actionRequiresApproval action || pending.isSome) &&
      (requestApprovalToken request).isSome then
    o.file = { file with
        approvals := resolvedApprovals file.approvals request draws.decidedAt } ∧
      o.log = [.actionAllowed request action, .ticketsApproved request.taskId]
  else o.file = file ∧ o.log = [.actionAllowed request action])

section Changes

variable {request : TaskRequest} {action : Action} {draws : GateDraws}
  {file : TaskConversationFile}
  {o : Outcome TaskConversationFile ApiEvent (Except TaskResponse Unit)}

theorem GateRefused.changes (h : GateRefused request action draws file o) :
    (o.file = file ∧ o.log = drawnEvents (pendingTicket file request.taskId) draws) ∨
    ∃ violation,
      let ticket := violationTicket request action violation
        (chosenTicketId (pendingTicket file request.taskId) draws) draws.requestedAt
      o.file = { file with approvals := file.approvals.insert ticket.approvalId ticket } ∧
        o.log = drawnEvents (pendingTicket file request.taskId) draws ++ [.ticketSaved ticket] := by
  simp only [GateRefused, ite_prop_iff_or] at h
  obtain ⟨violation, -, ⟨-, hsame⟩ | ⟨-, hsaved⟩, -⟩ := h
  · exact .inl hsame
  · exact .inr ⟨violation, hsaved⟩

theorem GateAllowed.changes (h : GateAllowed request action draws file o) :
    (o.file = { file with
        approvals := resolvedApprovals file.approvals request draws.decidedAt } ∧
      o.log = [.actionAllowed request action, .ticketsApproved request.taskId]) ∨
    (o.file = file ∧ o.log = [.actionAllowed request action]) := by
  simp only [GateAllowed, ite_prop_iff_or] at h
  rcases h.2.2 with ⟨-, hresolved⟩ | ⟨-, hsame⟩
  · exact .inl hresolved
  · exact .inr hsame

end Changes

theorem ensureActionAllowed_cases_of_riskAllowed (request : TaskRequest) (action : Action)
    (executorUsed : String) (draws : GateDraws) (file : TaskConversationFile)
    (hrisk : riskAllowed (effectiveAutonomyLevel request) (effectiveRiskLevel action) = true) :
    let o := (ensureActionAllowed request action executorUsed draws).exec file
    GateRefused request action draws file o ∨ GateAllowed request action draws file o := by
  intro o
  have hread : ((approvalsForTask request.taskId : Store ApiEvent _).run.exec file) =
      ⟨file, [], .ok (sortByStamp approvalStamp (file.approvals.values.filter
        fun approval => approval.taskId = request.taskId))⟩ := rfl
  have hpending : ((Except.ok (sortByStamp approvalStamp (file.approvals.values.filter
      fun approval => approval.taskId = request.taskId)) :
        Except String _).toOption.getD []).find?
          (fun approval => decide (approval.status = .pending)) =
            pendingTicket file request.taskId := rfl
  simp only [o, ensureActionAllowed, hrisk, Bool.not_true, Bool.false_eq_true, if_false,
    exec_bind, Outcome.andThen, hread, hpending]
  generalize hp : pendingTicket file request.taskId = pending
  cases henforce : enforce action (approvalContextForRequest request pending) with
  | error violation =>
      left
      refine ⟨violation, by rw [hp]; exact henforce, ?_⟩
      simp only [exec_bind, Outcome.andThen, exec_ticketId, exec_saveTicket, hp]
      by_cases hblank : isBlank (violationTicket request action violation
          (chosenTicketId pending draws) draws.requestedAt).approvalId = true
      · simp only [if_pos hblank]
        exact ⟨⟨rfl, by simp⟩, _, rfl, rfl, rfl⟩
      · simp only [if_neg hblank]
        exact ⟨⟨rfl, by simp⟩, _, rfl, rfl, rfl⟩
  | ok _ =>
      right
      refine ⟨by rw [hp]; exact henforce, ?_⟩
      simp only [exec_bind, Outcome.andThen, exec_report, hp]
      by_cases hresolve : ((actionRequiresApproval action || pending.isSome) &&
          (requestApprovalToken request).isSome) = true
      · simp only [if_pos hresolve]
        exact ⟨rfl, rfl, rfl⟩
      · simp only [if_neg hresolve]
        exact ⟨rfl, rfl, rfl⟩

theorem ensureActionAllowed_cases (request : TaskRequest) (action : Action)
    (executorUsed : String) (draws : GateDraws) (file : TaskConversationFile) :
    let o := (ensureActionAllowed request action executorUsed draws).exec file
    GateBlocked file o ∨ GateRefused request action draws file o ∨
      GateAllowed request action draws file o := by
  intro o
  cases hrisk : riskAllowed (effectiveAutonomyLevel request) (effectiveRiskLevel action) with
  | false =>
      left
      have ho : o = ⟨file, [], .error
          (autonomyBlockedResponse request action executorUsed draws)⟩ := by
        simp only [o, ensureActionAllowed, hrisk, Bool.not_false, if_true]
        rfl
      exact ⟨by rw [ho], by rw [ho], _, by rw [ho]⟩
  | true =>
      right
      exact ensureActionAllowed_cases_of_riskAllowed request action executorUsed draws file hrisk

end Gate

def rejectedTicket (draws : DecisionDraws) (approver : Option String)
    (ticket : ApprovalTicket) : ApprovalTicket :=
  ApprovalTicket.decide .rejected approver (some draws.decidedAt) ticket

theorem exec_markRejected_none (draws : DecisionDraws) {approvalId : String}
    (approver : Option String) {file : TaskConversationFile}
    (h : file.approvals.lookup approvalId = none) :
    (markRejected draws approvalId approver).run.exec file =
      ⟨file, [], .error ("approval not found: " ++ approvalId)⟩ := by
  have hupdate : (updateApprovalStatus approvalId .rejected approver (some draws.decidedAt) :
      Store ApiEvent _).run.exec file = ⟨file, [], .ok none⟩ := by
    simp only [updateApprovalStatus, updateRecord, ExceptT.run_mk, exec, h]
  rw [markRejected, exec_run_bind, hupdate]
  rfl

theorem exec_markRejected_some (draws : DecisionDraws) {approvalId : String}
    (approver : Option String) {file : TaskConversationFile} {ticket : ApprovalTicket}
    (h : file.approvals.lookup approvalId = some ticket) :
    (markRejected draws approvalId approver).run.exec file =
      ⟨{ file with approvals :=
          file.approvals.insert approvalId (rejectedTicket draws approver ticket) },
        [.ticketRejected approvalId], .ok (rejectedTicket draws approver ticket)⟩ := by
  have hupdate : (updateApprovalStatus approvalId .rejected approver (some draws.decidedAt) :
      Store ApiEvent _).run.exec file =
        ⟨{ file with approvals :=
            file.approvals.insert approvalId (rejectedTicket draws approver ticket) }, [],
          .ok (some (rejectedTicket draws approver ticket))⟩ := by
    simp only [updateApprovalStatus, updateRecord, ExceptT.run_mk, exec, h, rejectedTicket]
  rw [markRejected, exec_run_bind, hupdate]
  rfl

section Handlers

variable {I : List ApiEvent → TaskConversationFile → Prop}

theorem preserves_handler (request : TaskRequest)
    (hgate : ∀ intent args action executorUsed draws,
      Preserves I (ensureActionAllowed { request with intent := intent, args := args } action
        executorUsed draws))
    (hconversation : ∀ state, Preserves I (saveConversation request state).run)
    (hasset : ∀ mediaAsset, Preserves I (saveMediaAsset mediaAsset).run)
    (hbundle : ∀ mediaSession shareLink,
      Preserves I (saveShareLinkBundle mediaSession shareLink).run)
    (handler : Handler) : Preserves I (handler.program request) := by
  induction handler with
  | respond response => exact preserves_pure response
  | inspect next ih => exact preserves_bind (preserves_read id) ih
  | gate intent args action executorUsed draws next ih =>
      exact preserves_bind (hgate intent args action executorUsed draws) ih
  | saveConversation state next ih => exact preserves_bind (hconversation state) ih
  | saveMediaAsset mediaAsset next ih => exact preserves_bind (hasset mediaAsset) ih
  | saveShareLinkBundle mediaSession shareLink next ih =>
      exact preserves_bind (hbundle mediaSession shareLink) ih

theorem preserves_handler_of_part {γ : Type} (f : TaskConversationFile → γ)
    (P : List ApiEvent → γ → Prop) (request : TaskRequest)
    (hframe : ∀ file sessions conversations mediaAssets mediaSessions shareLinks,
      f { file with
        sessions := sessions, conversations := conversations, mediaAssets := mediaAssets,
        mediaSessions := mediaSessions, shareLinks := shareLinks } = f file)
    (hgate : ∀ intent args action executorUsed draws,
      Preserves (fun log file => P log (f file))
        (ensureActionAllowed { request with intent := intent, args := args } action
          executorUsed draws))
    (handler : Handler) :
    Preserves (fun log file => P log (f file)) (handler.program request) := by
  refine preserves_handler request hgate (fun state => ?_) (fun asset => ?_)
    (fun mediaSession shareLink => ?_) handler
  · exact (keeps_saveConversation (fun file _ _ => hframe file _ _ _ _ _) _ _).preserves P
  · exact (keeps_saveRecord fun file => hframe file _ _ _ _ _).preserves P
  · exact (keeps_saveShareLinkBundle fun file _ _ => hframe file _ _ _ _ _).preserves P

end Handlers

section Calls

variable {I : List ApiEvent → TaskConversationFile → Prop} {α : Type} {p : Service α}

theorem preserves_of_keeps_id (h : Keeps id p) : Preserves I p :=
  h.preserves I

theorem preserves_handlePrepared_of_parts (handlers : TaskHandlers) (draws : TaskDraws)
    (request : TaskRequest)
    (hstart : ∀ log file, I log file → I (log ++ [.taskStarted request]) file)
    (hbegin : Preserves I (beginTaskTracking request draws.startedAt))
    (hhandler : ∀ handler : Handler, Preserves I (handler.program request))
    (hfinish : ∀ response tracking, Preserves I
      (finishTaskTracking request response tracking draws.finishedAt draws.eventNow).run) :
    Preserves I (handlePrepared handlers draws request) := by
  refine preserves_bind (preserves_report hstart) fun _ => ?_
  refine preserves_bind hbegin fun tracking => ?_
  refine preserves_bind (hhandler _) fun response => ?_
  exact preserves_bind (hfinish _ _) fun _ => preserves_pure _

theorem preserves_approve_of_parts (handlers : TaskHandlers) (taskDraws : TaskDraws)
    (draws : DecisionDraws) (approvalId : String) (approver : Option String)
    (hhandle : ∀ request, Preserves I (handleTask handlers taskDraws request))
    (hevent : ∀ approval taskRun session, Preserves I (recordApprovalDecisionEvent approval
      taskRun session "task.approval_approved" .info approver draws.eventId draws.eventAt).run) :
    Preserves I (approvePendingApproval handlers taskDraws draws approvalId approver).run := by
  refine preserves_run_bind (preserves_of_keeps_id (keeps_loadApprovalContext id approvalId))
    fun context => ?_
  obtain ⟨approval, taskRun, session⟩ := context
  dsimp only
  split
  · exact preserves_run_throw _
  refine preserves_run_bind (preserves_run_lift (hhandle _)) fun response => ?_
  refine preserves_run_bind (preserves_of_keeps_id (keeps_inspectFile id _)) fun stored => ?_
  refine preserves_run_bind (hevent _ _ _) fun _ => ?_
  refine preserves_run_bind (preserves_of_keeps_id (keeps_loadApprovalSummary id _))
    fun summary => ?_
  exact preserves_run_pure _

theorem preserves_reject_of_parts (draws : DecisionDraws) (approvalId : String)
    (approver : Option String) (hmark : Preserves I (markRejected draws approvalId approver).run)
    (hclose : ∀ approval taskRun session,
      Preserves I (closeRejected draws approver approval taskRun session).run) :
    Preserves I (rejectPendingApproval draws approvalId approver).run := by
  refine preserves_run_bind (preserves_of_keeps_id (keeps_loadApprovalContext id approvalId))
    fun context => ?_
  obtain ⟨approval, taskRun, session⟩ := context
  dsimp only
  split
  · exact preserves_run_throw _
  exact preserves_run_bind hmark fun updated => hclose _ _ _

theorem preserves_discard (h : Preserves I p) :
    Preserves I (TaskApi.discard p) :=
  preserves_bind h fun _ => preserves_pure _

@[simp] theorem exec_discard_file (p : Service α) (file : TaskConversationFile) :
    ((TaskApi.discard p).exec file).file = (p.exec file).file := by
  rw [TaskApi.discard, exec_bind]
  rfl

theorem preserves_runCalls_of_call {calls : List Call}
    (hcall : ∀ call ∈ calls, Preserves I call.program) : Preserves I (runCalls calls) := by
  induction calls with
  | nil => exact preserves_pure ()
  | cons call rest ih =>
      refine preserves_bind (hcall call List.mem_cons_self) fun _ => ?_
      exact ih fun other hmem => hcall other (List.mem_cons_of_mem _ hmem)

theorem runCalls_cons_file (call : Call) (rest : List Call) (file : TaskConversationFile) :
    ((runCalls (call :: rest)).exec file).file =
      ((runCalls rest).exec (call.program.exec file).file).file := by
  rw [runCalls, exec_bind]
  rfl

theorem runCalls_append_file (calls calls' : List Call) (file : TaskConversationFile) :
    ((runCalls (calls ++ calls')).exec file).file =
      ((runCalls calls').exec ((runCalls calls).exec file).file).file := by
  induction calls generalizing file with
  | nil => rfl
  | cons call rest ih => rw [List.cons_append, runCalls_cons_file, runCalls_cons_file, ih]

end Calls

end HarborBeacon.ServiceSteps
