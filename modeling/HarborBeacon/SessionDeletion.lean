import HarborBeacon.ApprovalLedger
import HarborBeacon.StoreInvariant

/-!
Deleting a session removes its task runs and what hangs on them, but not the tickets of
its tasks. The store stays usable as long as no ticket belongs to a deleted task, and a
deletion keeps what other sessions own as long as their events do not name the deleted
tasks and steps.
-/

namespace HarborBeacon.SessionDeletion

open ControlPlane FileProgram Policy ServiceSteps StoreInvariant TaskApi TaskContract TaskSession
open TaskTracking Text

section Tickets

def TicketTasks (P : String → Prop) (approvals : Table ApprovalTicket) : Prop :=
  ∀ approvalId ticket, approvals.lookup approvalId = some ticket → P ticket.taskId

def TicketsHaveRuns (file : TaskConversationFile) : Prop :=
  TicketTasks (fun taskId => (file.taskRuns.lookup taskId).isSome) file.approvals

variable {P : String → Prop} {α : Type}

theorem TicketTasks.insert {approvals : Table ApprovalTicket} (h : TicketTasks P approvals)
    (approvalId : String) {ticket : ApprovalTicket} (hticket : P ticket.taskId) :
    TicketTasks P (approvals.insert approvalId ticket) := by
  intro key stored hstored
  rw [Table.lookup_insert_eq_ite] at hstored
  split at hstored
  · cases hstored
    exact hticket
  · exact h key stored hstored

theorem ticketTasks_gate (request : TaskRequest) (hrequest : P request.taskId)
    (action : Action) (executorUsed : String) (draws : GateDraws) :
    Preserves (fun _ file => TicketTasks P file.approvals)
      (ensureActionAllowed request action executorUsed draws) := by
  intro log file h
  rcases ensureActionAllowed_cases request action executorUsed draws file with
    ⟨hfile, -⟩ | hrefused | hallowed
  · rw [hfile]
    exact h
  · rcases hrefused.changes with ⟨hfile, -⟩ | ⟨violation, hfile, -⟩
    · rw [hfile]
      exact h
    · rw [hfile]
      exact h.insert _ hrequest
  · rcases hallowed.changes with ⟨hfile, -⟩ | ⟨hfile, -⟩
    · rw [hfile]
      intro key stored hstored
      simp only [resolvedApprovals, Table.lookup_mapValues, Option.map_eq_some_iff] at hstored
      obtain ⟨old, hold, rfl⟩ := hstored
      split
      · exact h key old hold
      · exact h key old hold
    · rw [hfile]
      exact h

theorem ticketTasks_of_keeps {p : Service α} (h : Keeps (·.approvals) p) :
    Preserves (fun _ file => TicketTasks P file.approvals) p :=
  h.preserves fun _ approvals => TicketTasks P approvals

theorem ticketTasks_handlePrepared (handlers : TaskHandlers) (draws : TaskDraws)
    (request : TaskRequest) (hrequest : P request.taskId) :
    Preserves (fun _ file => TicketTasks P file.approvals)
      (handlePrepared handlers draws request) := by
  refine preserves_handlePrepared_of_parts handlers draws request (fun _ _ h => h)
    (ticketTasks_of_keeps (keeps_beginTaskTracking (fun _ _ _ _ => rfl) _ _)) (fun handler => ?_)
    fun response tracking => ticketTasks_of_keeps
      (keeps_finishTaskTracking (fun _ _ _ _ _ _ => rfl) _ _ _ _ _)
  exact preserves_handler_of_part (·.approvals) (fun _ approvals => TicketTasks P approvals)
    request (fun _ _ _ _ _ _ => rfl)
    (fun intent args action executorUsed draws => ticketTasks_gate (P := P)
      { request with intent := intent, args := args } hrequest action executorUsed draws) handler

theorem ticketsHaveRuns_handlePrepared {file : TaskConversationFile} (hkeyed : Keyed file)
    (htickets : TicketsHaveRuns file) (handlers : TaskHandlers) (draws : TaskDraws)
    {request : TaskRequest} (hid : isBlank request.taskId = false) :
    TicketsHaveRuns ((handlePrepared handlers draws request).exec file).file := by
  have hbefore : TicketTasks (fun taskId => taskId = request.taskId ∨
      (file.taskRuns.lookup taskId).isSome) file.approvals :=
    fun approvalId ticket hticket => Or.inr (htickets approvalId ticket hticket)
  have htasks := ticketTasks_handlePrepared handlers draws request (Or.inl rfl) [] file hbefore
  intro approvalId ticket hticket
  rw [handlePrepared_taskRuns hkeyed handlers draws hid]
  split
  · rfl
  · rename_i hother
    exact (htasks approvalId ticket hticket).resolve_left hother

/-- The records stand under their own ids and every ticket has its task run. -/
structure Usable (file : TaskConversationFile) : Prop where
  keyed : Keyed file
  tickets : TicketsHaveRuns file

theorem usable_empty : Usable {} :=
  ⟨keyed_empty, nofun⟩

/-- The invariant as one of histories and files. -/
def UsableIn (_ : List ApiEvent) (file : TaskConversationFile) : Prop :=
  Usable file

theorem usable_handleTask (handlers : TaskHandlers) (draws : TaskDraws)
    (request : TaskRequest) : Preserves UsableIn (handleTask handlers draws request) := by
  intro log file h
  constructor
  · exact keyed_handlePrepared handlers draws _ log file h.keyed
  · exact ticketsHaveRuns_handlePrepared h.keyed h.tickets handlers draws
      (isBlank_prepareRequest request draws.taskId)

theorem usable_of_keeps {p : Service α} (hkeyed : Preserves KeyedIn p)
    (hkeeps : Keeps (fun file => (file.approvals, file.taskRuns)) p) :
    Preserves UsableIn p := by
  intro log file h
  refine ⟨hkeyed log file h.keyed, ?_⟩
  have happrovals := congrArg Prod.fst (hkeeps file).1
  have hruns := congrArg Prod.snd (hkeeps file).1
  intro approvalId ticket hticket
  dsimp only at happrovals hruns
  rw [happrovals] at hticket
  rw [hruns]
  exact h.tickets approvalId ticket hticket

theorem usable_markRejected (draws : DecisionDraws) (approvalId : String)
    (approver : Option String) :
    Preserves UsableIn (markRejected draws approvalId approver).run := by
  intro log file h
  refine ⟨keyed_markRejected draws approvalId approver log file h.keyed, ?_⟩
  cases hticket : file.approvals.lookup approvalId with
  | none =>
      rw [exec_markRejected_none draws approver hticket]
      exact h.tickets
  | some ticket =>
      rw [exec_markRejected_some draws approver hticket]
      exact TicketTasks.insert h.tickets _ (h.tickets approvalId ticket hticket)

theorem usable_saveTaskRun (taskRun : TaskRun) :
    Preserves UsableIn (saveTaskRun taskRun).run := by
  intro log file h
  refine ⟨preserves_saveTaskRun taskRun log file h.keyed, ?_⟩
  rw [saveTaskRun, exec_saveRecord]
  dsimp only
  split
  · exact h.tickets
  · intro approvalId ticket hticket
    rw [Table.lookup_insert_eq_ite]
    split
    · rfl
    · exact h.tickets approvalId ticket hticket

theorem usable_closeRejected (draws : DecisionDraws) (approver : Option String)
    (approval : ApprovalTicket) (taskRun : TaskRun) (session : Option ConversationSession) :
    Preserves UsableIn (closeRejected draws approver approval taskRun session).run := by
  refine preserves_run_bind (usable_saveTaskRun _) fun _ => ?_
  refine preserves_run_bind ?_ fun _ => ?_
  · refine usable_of_keeps ?_ (keeps_clearResumeToken (fun _ _ => rfl) _)
    cases session with
    | none => exact preserves_run_pure _
    | some session => exact preserves_saveSession _
  refine preserves_run_bind ?_ fun _ => ?_
  · exact usable_of_keeps (preserves_replaceEvents _ _ _)
      (keeps_recordApprovalDecisionEvent (fun _ _ => rfl) _ _ _ _ _ _ _ _)
  · exact preserves_of_keeps_id (keeps_loadApprovalSummary id _)

end Tickets

section Deletion

def deletedFile (file : TaskConversationFile) (sessionId : String) : TaskConversationFile :=
  ((deleteSessionWithTasks sessionId : Store ApiEvent Bool).run.exec file).file

structure Deletion where
  file : TaskConversationFile
  sessionId : String

def Deletion.takesPlace (d : Deletion) : Bool :=
  !isBlank d.sessionId && (d.file.sessions.lookup d.sessionId).isSome

def OfOther (file : TaskConversationFile) (sessionId taskId : String) : Prop :=
  ∃ taskRun ∈ file.taskRuns.lookup taskId, taskRun.sessionId ≠ sessionId

instance (file : TaskConversationFile) (sessionId taskId : String) :
    Decidable (OfOther file sessionId taskId) :=
  inferInstanceAs (Decidable (∃ taskRun ∈ _, _))

def deletedIds (file : TaskConversationFile) (sessionId : String) : List String :=
  sessionTaskIds file sessionId ++ taskStepIds file (sessionTaskIds file sessionId)

/-- No ticket belongs to a task of the session, and no event of another session's task
names one of its tasks or steps. -/
structure Deletion.Safe (d : Deletion) : Prop where
  tickets : ∀ ticket ∈ d.file.approvals.values,
    ticket.taskId ∉ sessionTaskIds d.file d.sessionId
  events : ∀ event ∈ d.file.events.values, OfOther d.file d.sessionId event.sourceId →
    event.sourceId ∉ deletedIds d.file d.sessionId ∧
      (∀ id ∈ event.correlationId, id ∉ deletedIds d.file d.sessionId) ∧
      ∀ id ∈ event.causationId, id ∉ deletedIds d.file d.sessionId

instance (d : Deletion) : Decidable d.Safe :=
  decidable_of_iff
    ((∀ ticket ∈ d.file.approvals.values, ticket.taskId ∉ sessionTaskIds d.file d.sessionId) ∧
      ∀ event ∈ d.file.events.values, OfOther d.file d.sessionId event.sourceId →
        event.sourceId ∉ deletedIds d.file d.sessionId ∧
          (∀ id ∈ event.correlationId, id ∉ deletedIds d.file d.sessionId) ∧
          ∀ id ∈ event.causationId, id ∉ deletedIds d.file d.sessionId)
    ⟨fun h => ⟨h.1, h.2⟩, fun h => ⟨h.tickets, h.events⟩⟩

/-- What belongs to the tasks of other sessions is still there. -/
structure KeepsOthers (sessionId : String) (file file' : TaskConversationFile) : Prop where
  taskRuns : ∀ taskId taskRun, file.taskRuns.lookup taskId = some taskRun →
    taskRun.sessionId ≠ sessionId → file'.taskRuns.lookup taskId = some taskRun
  taskSteps : ∀ stepId taskStep, file.taskSteps.lookup stepId = some taskStep →
    OfOther file sessionId taskStep.taskId → file'.taskSteps.lookup stepId = some taskStep
  artifacts : ∀ artifactId artifact, file.artifacts.lookup artifactId = some artifact →
    OfOther file sessionId artifact.taskId →
      file'.artifacts.lookup artifactId = some artifact
  approvals : ∀ approvalId approval, file.approvals.lookup approvalId = some approval →
    OfOther file sessionId approval.taskId →
      file'.approvals.lookup approvalId = some approval
  events : ∀ eventId event, file.events.lookup eventId = some event →
    OfOther file sessionId event.sourceId → file'.events.lookup eventId = some event

variable {file : TaskConversationFile} {sessionId : String} {taskId : String}

theorem mem_sessionTaskIds (hkeyed : Keyed file) :
    taskId ∈ sessionTaskIds file sessionId ↔
      ∃ taskRun, file.taskRuns.lookup taskId = some taskRun ∧ taskRun.sessionId = sessionId := by
  rw [sessionTaskIds, Table.mem_map_filter_values hkeyed.taskRuns]
  simp only [decide_eq_true_eq]

theorem mem_taskStepIds (hkeyed : Keyed file) {taskIds : List String} {stepId : String} :
    stepId ∈ taskStepIds file taskIds ↔
      ∃ taskStep, file.taskSteps.lookup stepId = some taskStep ∧ taskStep.taskId ∈ taskIds := by
  rw [taskStepIds, Table.mem_map_filter_values hkeyed.taskSteps]
  simp only [decide_eq_true_eq]

theorem OfOther.not_mem (hkeyed : Keyed file) (h : OfOther file sessionId taskId) :
    taskId ∉ sessionTaskIds file sessionId := by
  obtain ⟨taskRun, hrun, hother⟩ := h
  rw [mem_sessionTaskIds hkeyed]
  rintro ⟨taskRun', hrun', hsession⟩
  rw [Option.mem_def.mp hrun] at hrun'
  cases hrun'
  exact hother hsession

theorem eventMentions_eq_false_iff {taskIds stepIds : List String} {event : EventRecord} :
    eventMentions taskIds stepIds event = false ↔
      event.sourceId ∉ taskIds ++ stepIds ∧
        (∀ id ∈ event.correlationId, id ∉ taskIds ++ stepIds) ∧
        ∀ id ∈ event.causationId, id ∉ taskIds ++ stepIds := by
  simp only [← List.mem_append, eventMentions, decide_eq_false_iff_not, not_or, not_exists,
    not_and]

theorem keepsOthers_removeSession (hkeyed : Keyed file)
    (hsafe : Deletion.Safe ⟨file, sessionId⟩) :
    KeepsOthers sessionId file (removeSession file sessionId) where
  taskRuns := by
    intro taskId taskRun hrun hother
    have hkept := OfOther.not_mem hkeyed ⟨taskRun, hrun, hother⟩
    simp only [removeSession, Table.lookup_retain, hrun]
    simp [hkept]
  taskSteps := by
    intro stepId taskStep hstep hother
    have hkept : stepId ∉ taskStepIds file (sessionTaskIds file sessionId) := by
      rw [mem_taskStepIds hkeyed]
      rintro ⟨taskStep', hstep', htask⟩
      rw [hstep] at hstep'
      cases hstep'
      exact hother.not_mem hkeyed htask
    simp only [removeSession, Table.lookup_retain, hstep]
    simp [hkept]
  artifacts := by
    intro artifactId artifact hartifact hother
    have hkept := hother.not_mem hkeyed
    simp only [removeSession, Table.lookup_retain, hartifact]
    simp [hkept]
  approvals := fun _ _ happroval _ => happroval
  events := by
    intro eventId event hevent hother
    have hmem : event ∈ file.events.values := Table.mem_values_iff.mpr ⟨eventId, hevent⟩
    have hkept := eventMentions_eq_false_iff.mpr (hsafe.events event hmem hother)
    simp only [removeSession, Table.lookup_retain, hevent]
    simp [hkept]

theorem usable_removeSession (h : Usable file) (hsafe : Deletion.Safe ⟨file, sessionId⟩) :
    Usable (removeSession file sessionId) := by
  refine ⟨keyed_removeSession h.keyed sessionId, ?_⟩
  intro approvalId ticket hticket
  have hmem : ticket ∈ file.approvals.values := Table.mem_values_iff.mpr ⟨approvalId, hticket⟩
  have hkept : ticket.taskId ∉ sessionTaskIds file sessionId := hsafe.tickets ticket hmem
  obtain ⟨taskRun, hrun⟩ := Option.isSome_iff_exists.mp (h.tickets approvalId ticket hticket)
  simp only [removeSession, Table.lookup_retain, hrun]
  simp [hkept]

theorem deletedFile_eq (d : Deletion) :
    deletedFile d.file d.sessionId =
      if d.takesPlace then removeSession d.file d.sessionId else d.file := by
  unfold deletedFile deleteSessionWithTasks Deletion.takesPlace
  cases isBlank d.sessionId with
  | true => rfl
  | false =>
      cases hsession : d.file.sessions.lookup d.sessionId with
      | none => simp [exec, hsession]
      | some session => simp [exec, hsession]

/-- A deletion removed nothing that belongs to the tasks of another session. -/
def Deletion.KeptOthers (d : Deletion) : Prop :=
  KeepsOthers d.sessionId d.file (deletedFile d.file d.sessionId)

theorem Deletion.safe_iff {d : Deletion} (h : Usable d.file) (htakes : d.takesPlace = true) :
    d.Safe ↔ TicketsHaveRuns (deletedFile d.file d.sessionId) ∧ d.KeptOthers := by
  unfold Deletion.KeptOthers
  rw [deletedFile_eq, if_pos htakes]
  constructor
  · intro hsafe
    exact ⟨(usable_removeSession h hsafe).tickets, keepsOthers_removeSession h.keyed hsafe⟩
  · rintro ⟨htickets, hothers⟩
    constructor
    · intro ticket hmem hdeleted
      obtain ⟨approvalId, hticket⟩ := Table.mem_values_iff.mp hmem
      have hrun := htickets approvalId ticket hticket
      simp only [removeSession, Table.lookup_retain] at hrun
      simp [hdeleted] at hrun
    · intro event hmem hother
      obtain ⟨eventId, hevent⟩ := Table.mem_values_iff.mp hmem
      have hkept := hothers.events eventId event hevent hother
      simp only [removeSession, Table.lookup_retain, Option.filter_eq_some_iff] at hkept
      exact eventMentions_eq_false_iff.mp (by simpa using hkept.2)

end Deletion

def deletionsOf : List String → TaskConversationFile → List Deletion
  | [], _ => []
  | sessionId :: rest, file =>
      let deletions := deletionsOf rest (deletedFile file sessionId)
      if Deletion.takesPlace ⟨file, sessionId⟩ then ⟨file, sessionId⟩ :: deletions else deletions

def prunedSessions (userId surface : String) (limit : Nat) (file : TaskConversationFile) :
    List ConversationSession :=
  (((sessionsForUserSurface userId surface : Store ApiEvent _).run.exec file).result.toOption.getD
    []).drop (max limit 1)

def callDeletions : Call → TaskConversationFile → List Deletion
  | .deleteSessionWithTasks sessionId, file => deletionsOf [sessionId] file
  | .pruneSessionsForUserSurface userId surface limit, file =>
      deletionsOf ((prunedSessions userId surface limit file).map (·.sessionId)) file
  | .handleTask .., _ | .approvePendingApproval .., _ | .rejectPendingApproval .., _ => []

def deletionsIn : List Call → TaskConversationFile → List Deletion
  | [], _ => []
  | call :: rest, file =>
      callDeletions call file ++ deletionsIn rest (call.program.exec file).file

theorem exec_deleteSessionWithTasks (sessionId : String) (file : TaskConversationFile) :
    ∃ deleted, (deleteSessionWithTasks sessionId : Store ApiEvent Bool).run.exec file =
      ⟨deletedFile file sessionId, [], .ok deleted⟩ := by
  unfold deletedFile deleteSessionWithTasks
  split
  · exact ⟨false, rfl⟩
  · simp only [ExceptT.run_mk, exec]
    split
    · exact ⟨false, rfl⟩
    · exact ⟨true, rfl⟩

theorem keyed_deletedFile {file : TaskConversationFile} (hkeyed : Keyed file)
    (sessionId : String) : Keyed (deletedFile file sessionId) := by
  rw [deletedFile_eq ⟨file, sessionId⟩]
  split
  · exact keyed_removeSession hkeyed sessionId
  · exact hkeyed

theorem usable_deletions {sessionIds : List String} {file : TaskConversationFile}
    (h : Usable file) (hsafe : ∀ d ∈ deletionsOf sessionIds file, d.Safe) :
    Usable (sessionIds.foldl deletedFile file) ∧
      ∀ d ∈ deletionsOf sessionIds file, d.KeptOthers := by
  induction sessionIds generalizing file with
  | nil => exact ⟨h, nofun⟩
  | cons sessionId rest ih =>
      rw [List.foldl_cons]
      by_cases htakes : Deletion.takesPlace ⟨file, sessionId⟩ = true
      · rw [deletionsOf, if_pos htakes, List.forall_mem_cons] at *
        obtain ⟨htickets, hkept⟩ := (Deletion.safe_iff h htakes).mp hsafe.1
        obtain ⟨husableRest, hkeptRest⟩ :=
          ih ⟨keyed_deletedFile h.keyed sessionId, htickets⟩ hsafe.2
        exact ⟨husableRest, hkept, hkeptRest⟩
      · have hsame : deletedFile file sessionId = file :=
          (deletedFile_eq ⟨file, sessionId⟩).trans (if_neg htakes)
        rw [deletionsOf, if_neg htakes, hsame] at hsafe ⊢
        exact ih h hsafe

theorem deleteSessions_file (sessions : List ConversationSession)
    (file : TaskConversationFile) :
    ∃ removed, (deleteSessions sessions : Store ApiEvent _).run.exec file =
      ⟨(sessions.map (·.sessionId)).foldl deletedFile file, [], .ok removed⟩ := by
  induction sessions generalizing file with
  | nil => exact ⟨[], rfl⟩
  | cons session rest ih =>
      obtain ⟨deleted, hdeleted⟩ := exec_deleteSessionWithTasks session.sessionId file
      obtain ⟨removed, hremoved⟩ := ih (deletedFile file session.sessionId)
      refine ⟨if deleted then session.sessionId :: removed else removed, ?_⟩
      rw [List.map_cons, List.foldl_cons]
      refine (exec_run_bind_of_ok hdeleted _).trans ?_
      exact exec_run_bind_of_ok hremoved _

theorem pruneSessions_file (userId surface : String) (limit : Nat)
    (file : TaskConversationFile) :
    ((pruneSessionsForUserSurface userId surface limit : Store ApiEvent _).run.exec file).file =
      ((prunedSessions userId surface limit file).map (·.sessionId)).foldl deletedFile file := by
  obtain ⟨removed, hremoved⟩ := deleteSessions_file (prunedSessions userId surface limit file) file
  have hexec : (pruneSessionsForUserSurface userId surface limit : Store ApiEvent _).run.exec file =
      _ := (exec_run_bind_of_ok (exec_inspectFile _ _) _).trans hremoved
  rw [hexec]

theorem usable_call (call : Call) {file : TaskConversationFile} (h : Usable file)
    (hsafe : ∀ d ∈ callDeletions call file, d.Safe) :
    Usable (call.program.exec file).file ∧ ∀ d ∈ callDeletions call file, d.KeptOthers := by
  cases call with
  | handleTask handlers draws request =>
      exact ⟨preserves_discard (usable_handleTask handlers draws request) [] file h, nofun⟩
  | approvePendingApproval handlers taskDraws draws approvalId approver =>
      refine ⟨preserves_discard (preserves_approve_of_parts _ _ _ _ _
        (usable_handleTask handlers taskDraws) fun approval taskRun session => ?_) [] file h, nofun⟩
      exact usable_of_keeps (preserves_replaceEvents _ _ _)
        (keeps_recordApprovalDecisionEvent (fun _ _ => rfl) _ _ _ _ _ _ _ _)
  | rejectPendingApproval draws approvalId approver =>
      exact ⟨preserves_discard (preserves_reject_of_parts _ _ _ (usable_markRejected _ _ _)
        (usable_closeRejected draws approver)) [] file h, nofun⟩
  | deleteSessionWithTasks sessionId =>
      rw [Call.program, exec_discard_file]
      have husable := usable_deletions h hsafe
      rw [List.foldl_cons, List.foldl_nil] at husable
      exact husable
  | pruneSessionsForUserSurface userId surface limit =>
      rw [Call.program, exec_discard_file, pruneSessions_file]
      exact usable_deletions h hsafe

theorem deletionsIn_append (before after : List Call) (file : TaskConversationFile) :
    deletionsIn (before ++ after) file =
      deletionsIn before file ++ deletionsIn after ((runCalls before).exec file).file := by
  induction before generalizing file with
  | nil => rfl
  | cons call rest ih =>
      rw [List.cons_append, deletionsIn, ih, deletionsIn, List.append_assoc, runCalls_cons_file]

theorem usable_runCalls {calls : List Call} {file : TaskConversationFile} (h : Usable file)
    (hsafe : ∀ d ∈ deletionsIn calls file, d.Safe) :
    Usable ((runCalls calls).exec file).file ∧ ∀ d ∈ deletionsIn calls file, d.KeptOthers := by
  induction calls generalizing file with
  | nil => exact ⟨h, nofun⟩
  | cons call rest ih =>
      rw [deletionsIn, List.forall_mem_append] at hsafe
      rw [runCalls_cons_file, deletionsIn, List.forall_mem_append]
      obtain ⟨husable, hkept⟩ := usable_call call h hsafe.1
      obtain ⟨husableRest, hkeptRest⟩ := ih husable hsafe.2
      exact ⟨husableRest, hkept, hkeptRest⟩

def ListsPending (file : TaskConversationFile) : Prop :=
  ∃ summaries, ((TaskApi.pendingApprovals : Store ApiEvent _).run.exec file).result =
      .ok summaries ∧
    (summaries.map (·.approvalTicket)).Perm
      (file.approvals.values.filter fun approval => approval.status = .pending)

def summaryOf (file : TaskConversationFile) (approval : ApprovalTicket) : TaskApprovalSummary :=
  let taskRun := (file.taskRuns.lookup approval.taskId).getD { taskId := approval.taskId }
  buildApprovalSummary approval taskRun (sessionOfRun file taskRun)

theorem exec_loadApprovalSummary {file : TaskConversationFile} {approval : ApprovalTicket}
    (hrun : (file.taskRuns.lookup approval.taskId).isSome) :
    (loadApprovalSummary approval : Store ApiEvent _).run.exec file =
      ⟨file, [], .ok (summaryOf file approval)⟩ := by
  obtain ⟨taskRun, htaskRun⟩ := Option.isSome_iff_exists.mp hrun
  have hcontext := exec_loadTaskContext approval file
  rw [htaskRun] at hcontext
  refine (exec_run_bind_of_ok hcontext _).trans ?_
  rw [summaryOf, htaskRun]
  rfl

def pendingTickets (file : TaskConversationFile) : List ApprovalTicket :=
  sortByStamp approvalStamp
    (file.approvals.values.filter fun approval => approval.status = .pending)

theorem listsPending_of_usable {file : TaskConversationFile} (h : Usable file) :
    ListsPending file := by
  have hsummaries : ∀ approval ∈ pendingTickets file,
      (loadApprovalSummary approval : Store ApiEvent _).run.exec file =
        ⟨file, [], .ok (summaryOf file approval)⟩ := by
    intro approval hmem
    rw [pendingTickets, mem_sortByStamp, List.mem_filter, Table.mem_values_iff] at hmem
    obtain ⟨⟨approvalId, hticket⟩, -⟩ := hmem
    exact exec_loadApprovalSummary (h.tickets approvalId approval hticket)
  have hexec : (TaskApi.pendingApprovals : Store ApiEvent _).run.exec file =
      ⟨file, [], .ok ((pendingTickets file).map (summaryOf file))⟩ :=
    (exec_run_bind_of_ok (exec_inspectFile _ _) _).trans (exec_run_mapM hsummaries)
  refine ⟨(pendingTickets file).map (summaryOf file), congrArg Outcome.result hexec, ?_⟩
  rw [List.map_map]
  have htickets : (pendingTickets file).map ((·.approvalTicket) ∘ summaryOf file) =
      pendingTickets file := List.map_id _
  rw [htickets]
  exact List.perm_insertionSort _ _

/-- In a run in which all deletions are safe, at every point every ticket refers to a task
run, the pending approvals can be listed, and no deletion removes anything that belongs to
the tasks of another session. -/
theorem deletions_leave_store_usable (calls : List Call)
    (hsafe : ∀ d ∈ deletionsIn calls {}, d.Safe) :
    (∀ before after, calls = before ++ after →
      TicketsHaveRuns ((runCalls before).exec {}).file ∧
        ListsPending ((runCalls before).exec {}).file) ∧
    ∀ d ∈ deletionsIn calls {}, d.KeptOthers := by
  constructor
  · rintro before after rfl
    rw [deletionsIn_append, List.forall_mem_append] at hsafe
    have husable := (usable_runCalls usable_empty hsafe.1).1
    exact ⟨husable.tickets, listsPending_of_usable husable⟩
  · exact (usable_runCalls usable_empty hsafe).2

section Restart

open ApprovalLedger

/-- A search of another user. -/
def otherRequest : TaskRequest where
  taskId := "task-2"
  traceId := "trace-2"
  stepId := "step_1"
  source := { channel := "feishu", userId := "user-2" }
  intent := { domain := "knowledge", action := "search", rawText := "meeting" }

def askThenDelete (sessionId : String) : List Call :=
  [.handleTask restartHandlers restartDraws (restartRequest plainArgs),
   .handleTask restartHandlers
     { restartDraws with lifecycleEventId := ⟨"f5b1c3", by decide⟩ } otherRequest,
   .deleteSessionWithTasks sessionId]

/-- After the session of the search is deleted, the pending approvals can be listed. -/
theorem delete_search_session_usable :
    (deletionsIn (askThenDelete "user-2") {}).length = 1 ∧
      ListsPending ((runCalls (askThenDelete "user-2")).exec {}).file ∧
      ∀ d ∈ deletionsIn (askThenDelete "user-2") {}, d.KeptOthers := by
  have husable := deletions_leave_store_usable (askThenDelete "user-2") (by decide)
  exact ⟨by decide, (husable.1 _ [] (List.append_nil _).symm).2, husable.2⟩

/-- After the session of the restart is deleted, its ticket has no run and the listing
fails. -/
theorem delete_restart_session_breaks_listing :
    ¬ TicketsHaveRuns ((runCalls (askThenDelete "user-1")).exec {}).file ∧
      ((TaskApi.pendingApprovals : Store ApiEvent _).run.exec
        ((runCalls (askThenDelete "user-1")).exec {}).file).result =
          .error "task run not found for approval: task-1" ∧
      ¬ ListsPending ((runCalls (askThenDelete "user-1")).exec {}).file := by
  have hticket : (((runCalls (askThenDelete "user-1")).exec {}).file.approvals.lookup
      "8d0f6a").map (·.taskId) = some "task-1" := by
    decide
  have hrun : ((runCalls (askThenDelete "user-1")).exec {}).file.taskRuns.lookup "task-1" =
      none := by
    decide
  have hlisting : ((TaskApi.pendingApprovals : Store ApiEvent _).run.exec
      ((runCalls (askThenDelete "user-1")).exec {}).file).result =
        .error "task run not found for approval: task-1" := by
    decide
  refine ⟨fun htickets => ?_, hlisting, ?_⟩
  · obtain ⟨ticket, hstored, htask⟩ := Option.map_eq_some_iff.mp hticket
    have hsome := htickets _ ticket hstored
    rw [htask, hrun] at hsome
    cases hsome
  · rintro ⟨summaries, hsummaries, -⟩
    rw [hlisting] at hsummaries
    cases hsummaries

end Restart

end HarborBeacon.SessionDeletion
