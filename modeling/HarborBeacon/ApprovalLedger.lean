import HarborBeacon.ServiceSteps

/-!
The history of the approval tickets. A ledger says of every ticket id to which task it
was issued and how it was decided; the table of tickets refines it over every sequence of
calls, and the gate is judged against it.
-/

namespace HarborBeacon.ApprovalLedger

open ControlPlane FileProgram Policy ServiceSteps TaskApi TaskContract TaskSession TaskTracking Text

/-- The task and the status of every ticket id that was issued. -/
abbrev Ledger := String → Option (String × ApprovalStatus)

def Ledger.record (ledger : Ledger) : ApiEvent → Ledger
  | .ticketSaved ticket => fun id =>
      if id = ticket.approvalId then some (ticket.taskId, ticket.status) else ledger id
  | .ticketsApproved taskId => fun id =>
      (ledger id).map fun entry =>
        if entry = (taskId, .pending) then (taskId, .approved) else entry
  | .ticketRejected approvalId => fun id =>
      if id = approvalId then (ledger id).map fun entry => (entry.1, .rejected) else ledger id
  | _ => ledger

def ledgerOf (log : List ApiEvent) : Ledger :=
  log.foldl Ledger.record fun _ => none

@[simp] theorem ledgerOf_concat (log : List ApiEvent) (event : ApiEvent) :
    ledgerOf (log ++ [event]) = (ledgerOf log).record event := by
  simp [ledgerOf]

variable {log : List ApiEvent} {approvals : Table ApprovalTicket} {event : ApiEvent}
  {file : TaskConversationFile} {request : TaskRequest}

/-- Whatever stands in the ledger was saved as a ticket of that task. -/
theorem exists_saved_of_ledgerOf {id taskId : String} {status : ApprovalStatus}
    (h : ledgerOf log id = some (taskId, status)) :
    ∃ ticket, .ticketSaved ticket ∈ log ∧ ticket.approvalId = id ∧ ticket.taskId = taskId := by
  induction log using List.reverseRecOn generalizing status with
  | nil => cases h
  | append_singleton log event ih =>
      rw [ledgerOf_concat] at h
      have hold : ∀ {status}, ledgerOf log id = some (taskId, status) →
          ∃ ticket, .ticketSaved ticket ∈ log ++ [event] ∧ ticket.approvalId = id ∧
            ticket.taskId = taskId := by
        intro status hstatus
        obtain ⟨ticket, hmem, hid, htask⟩ := ih hstatus
        exact ⟨ticket, List.mem_append_left _ hmem, hid, htask⟩
      cases event with
      | ticketSaved ticket =>
          simp only [Ledger.record] at h
          split at h
          · rename_i hid
            cases h
            exact ⟨ticket, by simp, hid.symm, rfl⟩
          · exact hold h
      | ticketsApproved approvedTask =>
          simp only [Ledger.record, Option.map_eq_some_iff] at h
          obtain ⟨⟨oldTask, oldStatus⟩, hentry, heq⟩ := h
          split at heq
          · rename_i hpending
            cases hpending
            cases heq
            exact hold hentry
          · cases heq
            exact hold hentry
      | ticketRejected approvalId =>
          simp only [Ledger.record] at h
          split at h
          · obtain ⟨⟨oldTask, oldStatus⟩, hentry, heq⟩ := Option.map_eq_some_iff.mp h
            cases heq
            exact hold hentry
          · exact hold h
      | taskStarted request => exact hold h
      | approvalIdDrawn approvalId => exact hold h
      | actionAllowed request action => exact hold h

def entryOf (ticket : ApprovalTicket) : String × ApprovalStatus :=
  (ticket.taskId, ticket.status)

structure Agrees (log : List ApiEvent) (approvals : Table ApprovalTicket) : Prop where
  entries : ∀ id, (approvals.lookup id).map entryOf = ledgerOf log id
  keys : ∀ id ticket, approvals.lookup id = some ticket → ticket.approvalId = id
  rejected : ∀ id, .ticketRejected id ∈ log →
    ∃ taskId, ledgerOf log id = some (taskId, .rejected)

theorem agrees_nil : Agrees [] ∅ where
  entries := fun _ => rfl
  keys := fun id ticket h => by simp at h
  rejected := fun id h => by simp at h

def isOutside : ApiEvent → Bool
  | .taskStarted _ | .approvalIdDrawn _ | .actionAllowed _ _ => true
  | _ => false

theorem Agrees.outside (h : Agrees log approvals) (hevent : isOutside event = true) :
    Agrees (log ++ [event]) approvals := by
  have hledger : ledgerOf (log ++ [event]) = ledgerOf log := by
    rw [ledgerOf_concat]
    cases event <;> first | rfl | cases hevent
  refine ⟨fun id => by rw [hledger, h.entries], h.keys, fun id hid => ?_⟩
  rw [hledger]
  refine h.rejected id ?_
  rcases List.mem_append.mp hid with hid | hid
  · exact hid
  · rw [List.mem_singleton] at hid
    subst hid
    cases hevent

theorem Agrees.saved (h : Agrees log approvals) (ticket : ApprovalTicket)
    (hopen : ∀ taskId, ledgerOf log ticket.approvalId ≠ some (taskId, .rejected)) :
    Agrees (log ++ [.ticketSaved ticket]) (approvals.insert ticket.approvalId ticket) := by
  refine ⟨fun id => ?_, fun id other hother => ?_, fun id hid => ?_⟩
  · rw [ledgerOf_concat, Table.lookup_insert_eq_ite]
    simp only [Ledger.record]
    split
    · rfl
    · exact h.entries id
  · rw [Table.lookup_insert_eq_ite] at hother
    split at hother
    · rename_i heq
      cases hother
      exact heq.symm
    · exact h.keys id other hother
  · have hmem : .ticketRejected id ∈ log := by simpa using hid
    obtain ⟨taskId, hrejected⟩ := h.rejected id hmem
    have hne : id ≠ ticket.approvalId := by
      rintro rfl
      exact hopen taskId hrejected
    exact ⟨taskId, by simpa [Ledger.record, hne] using hrejected⟩

theorem entryOf_resolved (request : TaskRequest) (decidedAt : String)
    (ticket : ApprovalTicket) :
    entryOf (if isPendingFor request.taskId ticket then
        ApprovalTicket.decide .approved (requestApproverId request) (some decidedAt) ticket
      else ticket) =
      if entryOf ticket = (request.taskId, .pending) then (request.taskId, .approved)
      else entryOf ticket := by
  by_cases hpending : ticket.taskId = request.taskId ∧ ticket.status = .pending
  · simp [isPendingFor, entryOf, hpending, ApprovalTicket.decide]
  · have hentry : entryOf ticket ≠ (request.taskId, .pending) := by
      simpa [entryOf] using hpending
    simp [isPendingFor, hpending, hentry]

theorem Agrees.approved (h : Agrees log approvals) (request : TaskRequest) (decidedAt : String) :
    Agrees (log ++ [.ticketsApproved request.taskId])
      (resolvedApprovals approvals request decidedAt) := by
  refine ⟨fun id => ?_, fun id ticket hticket => ?_, fun id hid => ?_⟩
  · rw [ledgerOf_concat, resolvedApprovals, Table.lookup_mapValues]
    simp only [Ledger.record, ← h.entries id, Option.map_map]
    exact Option.map_congr fun ticket _ => entryOf_resolved request decidedAt ticket
  · rw [resolvedApprovals, Table.lookup_mapValues, Option.map_eq_some_iff] at hticket
    obtain ⟨old, hold, rfl⟩ := hticket
    have hid := h.keys id old hold
    split
    · exact hid
    · exact hid
  · have hmem : .ticketRejected id ∈ log := by simpa using hid
    obtain ⟨taskId, hrejected⟩ := h.rejected id hmem
    exact ⟨taskId, by simp [Ledger.record, hrejected]⟩

theorem Agrees.rejectedOne (h : Agrees log approvals) {id : String} {ticket : ApprovalTicket}
    (hticket : approvals.lookup id = some ticket) (approver decidedAt : Option String) :
    Agrees (log ++ [.ticketRejected id])
      (approvals.insert id (ApprovalTicket.decide .rejected approver decidedAt ticket)) := by
  have hentry : ledgerOf log id = some (entryOf ticket) := by
    rw [← h.entries id, hticket, Option.map_some]
  refine ⟨fun other => ?_, fun other found hfound => ?_, fun other hother => ?_⟩
  · rw [ledgerOf_concat, Table.lookup_insert_eq_ite]
    simp only [Ledger.record]
    split
    · rename_i heq
      rw [heq, hentry]
      rfl
    · exact h.entries other
  · rw [Table.lookup_insert_eq_ite] at hfound
    split at hfound
    · rename_i heq
      cases hfound
      exact (h.keys id ticket hticket).trans heq.symm
    · exact h.keys other found hfound
  · rw [ledgerOf_concat]
    simp only [Ledger.record]
    split
    · exact ⟨ticket.taskId, by rename_i heq; rw [heq, hentry]; rfl⟩
    · rename_i hne
      refine h.rejected other ?_
      simpa [hne] using hother

def FreshDraws (log : List ApiEvent) : Prop :=
  EachEvent (fun before event => ∀ id, event = .approvalIdDrawn id →
    ∀ ticket, .ticketSaved ticket ∈ before → ticket.approvalId ≠ id) log

/-- The token is the id of a ticket that was saved before for the task, is pending and was
not rejected. -/
def TokenIssued (before : List ApiEvent) (taskId token : String) : Prop :=
  (∃ ticket, .ticketSaved ticket ∈ before ∧ ticket.approvalId = token ∧
      ticket.taskId = taskId) ∧
    ledgerOf before token = some (taskId, .pending) ∧ .ticketRejected token ∉ before

def TaskHasPendingTicket (before : List ApiEvent) (taskId : String) : Prop :=
  ∃ id, ledgerOf before id = some (taskId, .pending)

/-- An action that needs an approval is let through on a token only, and on an issued one
while the task has a pending ticket. -/
def GatePass (before : List ApiEvent) (event : ApiEvent) : Prop :=
  ∀ request action, event = .actionAllowed request action →
    actionRequiresApproval action = true →
      ∃ token, requestApprovalToken request = some token ∧
        (TaskHasPendingTicket before request.taskId →
          TokenIssued before request.taskId token)

theorem gatePass_of_outside {before : List ApiEvent}
    (h : ∀ request action, event ≠ .actionAllowed request action) :
    GatePass before event := fun request action heq => absurd heq (h request action)

/-- What is known after every history with fresh draws. -/
def Sound (log : List ApiEvent) (approvals : Table ApprovalTicket) : Prop :=
  FreshDraws log → Agrees log approvals ∧ EachEvent GatePass log

theorem Sound.concat {approvals approvals' : Table ApprovalTicket} (h : Sound log approvals)
    (hagrees : FreshDraws (log ++ [event]) → Agrees log approvals →
      Agrees (log ++ [event]) approvals' ∧ GatePass log event) :
    Sound (log ++ [event]) approvals' := by
  intro hfresh
  obtain ⟨hold, hpass⟩ := h (EachEvent.of_append hfresh)
  obtain ⟨hnew, hevent⟩ := hagrees hfresh hold
  exact ⟨hnew, eachEvent_concat.mpr ⟨hpass, hevent⟩⟩

theorem requestApprovalToken_of_enforce {action : Action} {pending : Option ApprovalTicket}
    (henforce : enforce action (approvalContextForRequest request pending) = .ok ())
    (hreq : actionRequiresApproval action = true) :
    ∃ token, requestApprovalToken request = some token ∧
      ∀ ticket, pending = some ticket → token = ticket.approvalId := by
  obtain ⟨-, hgate⟩ := (enforce_eq_ok_iff _ _).mp henforce
  obtain ⟨ctx, token, hctx, htoken, hrequired⟩ := (checkRiskGate_eq_ok_iff _ _).mp hgate hreq
  simp only [approvalContextForRequest] at hctx
  split at hctx
  · cases hctx
  · cases hctx
    refine ⟨token, htoken, fun ticket hticket => hrequired ticket.approvalId ?_⟩
    rw [hticket]
    rfl

theorem gatePass_of_allowed (hagrees : Agrees log file.approvals) {action : Action}
    (henforce : enforce action
      (approvalContextForRequest request (pendingTicket file request.taskId)) = .ok ()) :
    GatePass log (.actionAllowed request action) := by
  intro request' action' heq hreq
  cases heq
  obtain ⟨token, htoken, hrequired⟩ := requestApprovalToken_of_enforce henforce hreq
  refine ⟨token, htoken, ?_⟩
  rintro ⟨id, hid⟩
  -- a pending entry of the ledger is a pending ticket of the table
  rw [← hagrees.entries id, Option.map_eq_some_iff] at hid
  obtain ⟨ticket, hlookup, hentry⟩ := hid
  obtain ⟨htask, hstatus⟩ := Prod.mk.inj hentry
  obtain ⟨found, hfound⟩ := pendingTicket_isSome (Table.mem_values_iff.mpr ⟨id, hlookup⟩) hstatus
  rw [htask] at hfound
  obtain ⟨hmem, hfoundTask, hfoundStatus⟩ := pendingTicket_eq_some hfound
  obtain ⟨key, hkey⟩ := Table.mem_values_iff.mp hmem
  have hledger : ledgerOf log token = some (request.taskId, .pending) := by
    rw [hrequired found hfound, hagrees.keys key found hkey, ← hagrees.entries key, hkey,
      Option.map_some, entryOf, hfoundTask, hfoundStatus]
  refine ⟨exists_saved_of_ledgerOf hledger, hledger, fun hrejected => ?_⟩
  obtain ⟨taskId, hentry⟩ := hagrees.rejected token hrejected
  rw [hledger] at hentry
  cases hentry

theorem chosenTicket_open {taskId : String} {draws : GateDraws}
    (hagrees : Agrees (log ++ drawnEvents (pendingTicket file taskId) draws) file.approvals)
    (hfresh : FreshDraws (log ++ drawnEvents (pendingTicket file taskId) draws))
    (otherTask : String) :
    ledgerOf (log ++ drawnEvents (pendingTicket file taskId) draws)
      (chosenTicketId (pendingTicket file taskId) draws) ≠ some (otherTask, .rejected) := by
  intro hrejected
  cases hpending : pendingTicket file taskId with
  | some ticket =>
      rw [hpending] at hrejected hagrees
      obtain ⟨hmem, -, hstatus⟩ := pendingTicket_eq_some hpending
      obtain ⟨key, hkey⟩ := Table.mem_values_iff.mp hmem
      have hchosen : chosenTicketId (some ticket) draws = key := hagrees.keys key ticket hkey
      rw [hchosen, ← hagrees.entries key, hkey, Option.map_some, entryOf, hstatus] at hrejected
      cases hrejected
  | none =>
      rw [hpending] at hrejected hfresh
      have hledger : ledgerOf (log ++ drawnEvents none draws) = ledgerOf log :=
        ledgerOf_concat log _
      rw [hledger] at hrejected
      obtain ⟨ticket, hmem, hid, -⟩ := exists_saved_of_ledgerOf hrejected
      exact (eachEvent_concat.mp hfresh).2 draws.approvalId.text rfl ticket hmem hid

theorem Sound.outside (h : Sound log approvals) (hevent : isOutside event = true)
    (hpass : Agrees log approvals → GatePass log event) :
    Sound (log ++ [event]) approvals :=
  h.concat fun _ hagrees => ⟨hagrees.outside hevent, hpass hagrees⟩

theorem Sound.drawn (h : Sound log approvals) (pending : Option ApprovalTicket) (draws : GateDraws)
    :
    Sound (log ++ drawnEvents pending draws) approvals := by
  cases pending with
  | some ticket =>
      rw [drawnEvents, List.append_nil]
      exact h
  | none => exact h.outside rfl fun _ => gatePass_of_outside nofun

theorem preserves_gate (request : TaskRequest) (action : Action) (executorUsed : String)
    (draws : GateDraws) :
    Preserves (fun log file => Sound log file.approvals)
      (ensureActionAllowed request action executorUsed draws) := by
  intro log file hsound
  rcases ensureActionAllowed_cases request action executorUsed draws file with
    ⟨hfile, hlog, -⟩ | hrefused | hallowed
  · rw [hfile, hlog, List.append_nil]
    exact hsound
  · have hdrawn := hsound.drawn (pendingTicket file request.taskId) draws
    rcases hrefused.changes with ⟨hfile, hlog⟩ | ⟨violation, hfile, hlog⟩
    · rw [hfile, hlog]
      exact hdrawn
    · rw [hfile, hlog, ← List.append_assoc]
      refine hdrawn.concat fun hfresh hagrees => ⟨?_, gatePass_of_outside nofun⟩
      exact hagrees.saved _ (chosenTicket_open hagrees (EachEvent.of_append hfresh))
  · have hpassed : Sound (log ++ [.actionAllowed request action]) file.approvals :=
      hsound.outside rfl fun hagrees => gatePass_of_allowed hagrees hallowed.1
    rcases hallowed.changes with ⟨hfile, hlog⟩ | ⟨hfile, hlog⟩
    · rw [hfile, hlog, List.append_cons]
      refine hpassed.concat fun _ hagrees => ⟨?_, gatePass_of_outside nofun⟩
      exact hagrees.approved request draws.decidedAt
    · rw [hfile, hlog]
      exact hpassed

/-- What is known of the history and the tickets of a file. -/
def SoundIn (log : List ApiEvent) (file : TaskConversationFile) : Prop :=
  Sound log file.approvals

theorem preserves_of_keeps {α : Type} {p : Service α} (h : Keeps (·.approvals) p) :
    Preserves SoundIn p :=
  h.preserves Sound

theorem preserves_handlePrepared (handlers : TaskHandlers) (draws : TaskDraws)
    (request : TaskRequest) : Preserves SoundIn (handlePrepared handlers draws request) := by
  refine preserves_handlePrepared_of_parts handlers draws request (fun log file h => ?_)
    (preserves_of_keeps (keeps_beginTaskTracking (fun _ _ _ _ => rfl) _ _)) (fun handler => ?_)
    fun response tracking => preserves_of_keeps
      (keeps_finishTaskTracking (fun _ _ _ _ _ _ => rfl) _ _ _ _ _)
  · exact Sound.outside h rfl fun _ => gatePass_of_outside nofun
  · exact preserves_handler_of_part (·.approvals) Sound request (fun _ _ _ _ _ _ => rfl)
      (fun _ _ _ _ _ => preserves_gate _ _ _ _) handler

theorem preserves_markRejected (draws : DecisionDraws) (approvalId : String)
    (approver : Option String) :
    Preserves SoundIn (markRejected draws approvalId approver).run := by
  intro log file h
  cases hticket : file.approvals.lookup approvalId with
  | none =>
      rw [exec_markRejected_none draws approver hticket, List.append_nil]
      exact h
  | some ticket =>
      rw [exec_markRejected_some draws approver hticket]
      refine Sound.concat h fun _ hagrees => ⟨?_, gatePass_of_outside nofun⟩
      exact hagrees.rejectedOne hticket _ _

theorem preserves_call (call : Call) : Preserves SoundIn call.program := by
  cases call with
  | handleTask handlers draws request =>
      exact preserves_discard (preserves_handlePrepared _ _ _)
  | approvePendingApproval handlers taskDraws draws approvalId approver =>
      refine preserves_discard (preserves_approve_of_parts _ _ _ _ _
        (fun request => preserves_handlePrepared _ _ _) fun _ _ _ => ?_)
      exact preserves_of_keeps
        (keeps_recordApprovalDecisionEvent (fun _ _ => rfl) _ _ _ _ _ _ _ _)
  | rejectPendingApproval draws approvalId approver =>
      refine preserves_discard (preserves_reject_of_parts _ _ _
        (preserves_markRejected draws approvalId approver) fun _ _ _ => ?_)
      exact preserves_of_keeps (keeps_closeRejected (fun _ _ _ _ => rfl) _ _ _ _ _)
  | deleteSessionWithTasks sessionId =>
      exact preserves_discard (preserves_of_keeps
        (keeps_deleteSessionWithTasks (fun _ _ => rfl) _))
  | pruneSessionsForUserSurface userId surface limit =>
      exact preserves_discard (preserves_of_keeps
        (keeps_pruneSessions (fun _ _ => rfl) _ _ _))

/-- In every run with fresh ticket ids, an action that needs an approval is let through on
a token only, and while its task has a pending ticket only on the id of a ticket that was
saved earlier for the same task, is still pending and was not rejected. -/
theorem actionAllowed_only_on_token (calls : List Call)
    (hfresh : FreshDraws ((runCalls calls).exec {}).log) :
    ∀ before request action after,
      ((runCalls calls).exec {}).log = before ++ .actionAllowed request action :: after →
      actionRequiresApproval action = true →
      ∃ token, requestApprovalToken request = some token ∧
        (TaskHasPendingTicket before request.taskId →
          TokenIssued before request.taskId token) := by
  have hinit : SoundIn [] {} := fun _ => ⟨agrees_nil, eachEvent_nil _⟩
  have hrun : Preserves SoundIn (runCalls calls) :=
    preserves_runCalls_of_call fun call _ => preserves_call call
  have hsound := hrun [] {} hinit
  rw [List.nil_append] at hsound
  intro before request action after hlog hreq
  exact (hsound hfresh).2 before _ after hlog request action rfl hreq

def restartGateDraws : GateDraws where
  approvalId := ⟨"8d0f6a", by decide⟩
  eventId := ⟨"51c2aa", by decide⟩
  auditRef := "audit-1"
  requestedAt := "1700000000"
  eventAt := "1700000000"
  decidedAt := "1700000001"

def restartDraws : TaskDraws where
  taskId := ⟨"0b7d11", by decide⟩
  startedAt := "1700000000"
  lifecycleEventId := ⟨"e47a90", by decide⟩
  lifecycleAt := "1700000001"
  finishedAt := "1700000001"
  eventNow := fun _ => "1700000001"

def restartHandlers : TaskHandlers where
  knowledgeSearch := fun request => .respond (failed request "test" .low "" "")
  ragAnswer := fun request => .respond (failed request "test" .low "" "")
  generalMessage := fun request => .respond (failed request "test" .low "" "")
  cameraScan := fun request => .respond (failed request "test" .low "" "")
  cameraConnect := fun request => .respond (failed request "test" .low "" "")
  cameraSnapshot := fun request => .respond (failed request "test" .low "" "")
  cameraShareLink := fun request => .respond (failed request "test" .low "" "")
  cameraAnalyze := fun request => .respond (failed request "test" .low "" "")
  executeHarborAction := fun request action =>
    { taskId := request.taskId
      traceId := request.traceId
      status := .completed
      executorUsed := "middleware_api"
      riskLevel := action.riskLevel
      result := { message := "restarted" }
      auditRef := "audit-2"
      missingFields := []
      prompt := none
      resumeToken := none }
  draws := restartGateDraws

def restartRequest (args : Json.Value) : TaskRequest where
  taskId := "task-1"
  traceId := "trace-1"
  stepId := "step_1"
  source := { channel := "feishu", userId := "user-1" }
  intent := { domain := "service", action := "restart", rawText := "restart ssh" }
  args := args

def plainArgs : Json.Value :=
  Json.obj [("service_name", .string "ssh")]

def tokenArgs (token : String) : Json.Value :=
  Json.obj [("service_name", .string "ssh"), ("approval_token", .string token)]

def restartAction : Action where
  domain := "service"
  operation := "restart"
  resource := Json.obj [("service_name", .string "ssh")]
  args := Json.obj []
  riskLevel := .high
  requiresApproval := true
  dryRun := false

def askThenConfirm : List Call :=
  [.handleTask restartHandlers restartDraws (restartRequest plainArgs),
   .handleTask restartHandlers restartDraws (restartRequest (tokenArgs "8d0f6a"))]

def restartTicket : ApprovalTicket where
  approvalId := "8d0f6a"
  taskId := "task-1"
  traceId := "trace-1"
  policyRef := "service.restart"
  requesterUserId := "user-1"
  reason := "service.restart (risk=High) requires approval"
  requestedAt := some "1700000000"

theorem askThenConfirm_log :
    ((runCalls askThenConfirm).exec {}).log =
      [.taskStarted (restartRequest plainArgs), .approvalIdDrawn "8d0f6a",
       .ticketSaved restartTicket, .taskStarted (restartRequest (tokenArgs "8d0f6a"))] ++
      .actionAllowed (restartRequest (tokenArgs "8d0f6a")) restartAction ::
      [.ticketsApproved "task-1"] := by
  rfl

theorem askThenConfirm_fresh : FreshDraws ((runCalls askThenConfirm).exec {}).log := by
  rw [askThenConfirm_log]
  intro before event after hsplit id hevent ticket hticket
  -- the only drawn id comes second, and nothing was saved before it
  rcases before with _ | ⟨a, _ | ⟨b, _ | ⟨c, _ | ⟨d, _ | ⟨e, _ | ⟨f, rest⟩⟩⟩⟩⟩⟩ <;>
    simp_all
  rw [← hsplit.1] at hticket
  cases hticket

theorem askThenConfirm_token_issued :
    TokenIssued [.taskStarted (restartRequest plainArgs), .approvalIdDrawn "8d0f6a",
      .ticketSaved restartTicket, .taskStarted (restartRequest (tokenArgs "8d0f6a"))]
      "task-1" "8d0f6a" := by
  obtain ⟨token, htoken, hissued⟩ := actionAllowed_only_on_token askThenConfirm
    askThenConfirm_fresh _ _ _ _ askThenConfirm_log (by decide)
  obtain rfl : "8d0f6a" = token := Option.some.inj (by rw [← htoken]; decide)
  exact hissued ⟨"8d0f6a", by decide⟩

/-- A token that nobody issued passes the gate while the task has no pending ticket. -/
theorem restart_on_unissued_token :
    ((runCalls [.handleTask restartHandlers restartDraws
        (restartRequest (tokenArgs "made-up"))]).exec {}).log =
      [.taskStarted (restartRequest (tokenArgs "made-up")),
       .actionAllowed (restartRequest (tokenArgs "made-up")) restartAction,
       .ticketsApproved "task-1"] ∧
    actionRequiresApproval restartAction = true ∧
    requestApprovalToken (restartRequest (tokenArgs "made-up")) = some "made-up" ∧
    ¬ ∃ ticket, .ticketSaved ticket ∈
        [ApiEvent.taskStarted (restartRequest (tokenArgs "made-up"))] ∧
      ticket.approvalId = "made-up" ∧ ticket.taskId = "task-1" := by
  refine ⟨by rfl, by decide, by decide, ?_⟩
  rintro ⟨ticket, hmem, -⟩
  simp at hmem

end HarborBeacon.ApprovalLedger
