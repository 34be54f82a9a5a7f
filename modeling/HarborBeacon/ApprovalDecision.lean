import HarborBeacon.ApprovalLedger

/-!
Two workers decide on the same approval ticket. Each of them checks the status of the
ticket in one load of the file and writes its decision in later ones, so the decision is
taken once only if the second worker starts after the ticket was decided.
-/

namespace HarborBeacon.ApprovalDecision

open ApprovalLedger ControlPlane FileProgram ServiceSteps TaskApi TaskContract TaskSession

inductive Decision where
  | approve (handlers : TaskHandlers) (taskDraws : TaskDraws) (draws : DecisionDraws)
      (approver : Option String)
  | reject (draws : DecisionDraws) (approver : Option String)

def Decision.program (approvalId : String) :
    Decision → Service (Except String TaskApprovalSummary)
  | approve handlers taskDraws draws approver =>
      (do
        let (summary, _) ← approvePendingApproval handlers taskDraws draws approvalId approver
        return summary : Store ApiEvent TaskApprovalSummary).run
  | reject draws approver => (rejectPendingApproval draws approvalId approver).run

def deciders (decision : Worker → Decision) (approvalId : String)
    (file : TaskConversationFile) :
    Config TaskConversationFile ApiEvent (Except String TaskApprovalSummary) where
  file := file
  program := fun w => (decision w).program approvalId
  log := []

/-- The call of the worker returned a summary. -/
def Succeeded (c : Config TaskConversationFile ApiEvent (Except String TaskApprovalSummary))
    (w : Worker) : Prop :=
  ∃ summary, c.program w = .done (.ok summary)

def returnedOk {σ ε α : Type} : FileProgram σ ε (Except String α) → Bool
  | .done (.ok _) => true
  | _ => false

variable {c : Config TaskConversationFile ApiEvent (Except String TaskApprovalSummary)}
  {stored : Option ApprovalTicket}

theorem succeeded_iff {w : Worker} :
    Succeeded c w ↔ returnedOk (c.program w) = true := by
  constructor
  · rintro ⟨summary, hdone⟩
    rw [hdone]
    rfl
  · intro h
    unfold returnedOk at h
    split at h
    · rename_i summary hdone
      exact ⟨summary, hdone⟩
    · cases h

instance (c : Config TaskConversationFile ApiEvent (Except String TaskApprovalSummary))
    (w : Worker) : Decidable (Succeeded c w) :=
  decidable_of_iff _ succeeded_iff.symm

def isTaskStart : ApiEvent → Bool
  | .taskStarted _ => true
  | _ => false

def taskStarts (log : List ApiEvent) : Nat :=
  log.countP isTaskStart

/-- The ticket is decided by one worker, and a rejection that was reported holds. -/
structure DecidedOnce (decision : Worker → Decision) (approvalId : String)
    (c : Config TaskConversationFile ApiEvent (Except String TaskApprovalSummary)) : Prop where
  oneSucceeds : ∀ w, Succeeded c w → ¬ Succeeded c w.other
  oneStart : taskStarts c.log ≤ 1
  rejectionHolds : ∀ w draws approver, decision w = .reject draws approver → Succeeded c w →
    (∀ ticket, c.file.approvals.lookup approvalId = some ticket → ticket.status ≠ .approved) ∧
    ∀ request, .taskStarted request ∉ c.log ∧ ∀ action, .actionAllowed request action ∉ c.log

/-- The ticket is not there, or the run of its task is not: nobody can decide it. -/
def Orphaned (file : TaskConversationFile) (approvalId : String) : Prop :=
  ∀ ticket, file.approvals.lookup approvalId = some ticket →
    file.taskRuns.lookup ticket.taskId = none

/-- A worker that takes its first step after the other one did finds the ticket decided,
unless nobody can decide it. -/
def StartsAfterDecision (decision : Worker → Decision) (approvalId : String)
    (file : TaskConversationFile) (schedule : List Worker) : Prop :=
  Orphaned file approvalId ∨
    ∀ before w after, schedule = before ++ w :: after → w ∉ before → w.other ∈ before →
      ∀ ticket, ((deciders decision approvalId file).run before).file.approvals.lookup
        approvalId = some ticket → ticket.status ≠ .pending

def contextOf (approvalId : String) : Option ApprovalTicket →
    Store ApiEvent (ApprovalTicket × TaskRun × Option ConversationSession)
  | none => throw ("approval not found: " ++ approvalId)
  | some approval => do
      let (taskRun, session) ← loadTaskContext approval
      return (approval, taskRun, session)

def ifPending {α : Type} (approval : ApprovalTicket) (body : Store ApiEvent α) :
    Store ApiEvent α :=
  if approval.status ≠ .pending then throw (notPending approval) else body

/-- What is left of a decision after its first load of the file. -/
def Decision.remaining (approvalId : String) (stored : Option ApprovalTicket) :
    Decision → Service (Except String TaskApprovalSummary)
  | approve handlers taskDraws draws approver =>
      (do
        let (summary, _) ← contextOf approvalId stored >>= fun context =>
          ifPending context.1 (resumeApproved handlers taskDraws draws approvalId approver
            context.1 context.2.1 context.2.2)
        return summary : Store ApiEvent TaskApprovalSummary).run
  | reject draws approver =>
      (contextOf approvalId stored >>= fun context =>
        ifPending context.1 (do
          let updatedApproval ← markRejected draws approvalId approver
          closeRejected draws approver updatedApproval context.2.1 context.2.2)).run

theorem stepProgram_decision (decision : Decision) (approvalId : String)
    (file : TaskConversationFile) :
    stepProgram (decision.program approvalId) file =
      (decision.remaining approvalId (file.approvals.lookup approvalId), file, []) := by
  cases decision with
  | approve handlers taskDraws draws approver => rfl
  | reject draws approver => rfl

theorem not_done_program (decision : Decision) (approvalId : String)
    (result : Except String TaskApprovalSummary) :
    decision.program approvalId ≠ .done result := by
  cases decision with
  | approve handlers taskDraws draws approver => exact nofun
  | reject draws approver => exact nofun

/-- The call returned an error. -/
def Failed {α : Type} (result : Except String α) : Prop :=
  ∃ message, result = .error message

theorem readOnly_loadTaskContext (approval : ApprovalTicket) :
    ReadOnly (fun _ => True) (fun _ => True) (loadTaskContext approval : Store ApiEvent _).run := by
  refine readOnly_run_bind (readOnly_read (R := fun _ => True) fun _ _ => trivial)
    (fun taskRun _ => ?_) fun _ _ => trivial
  cases taskRun with
  | none => exact readOnly_run_throw trivial
  | some taskRun =>
      dsimp only
      split
      · exact readOnly_run_pure trivial
      · exact readOnly_run_bind (readOnly_read (R := fun _ => True) fun _ _ => trivial)
          (fun session _ => readOnly_run_pure trivial) fun _ _ => trivial

theorem readOnly_contextOf (approvalId : String) (approval : ApprovalTicket) :
    ReadOnly (fun _ => True)
      (fun result => ∀ context, result = .ok context → context.1 = approval)
      (contextOf approvalId (some approval)).run := by
  refine readOnly_run_bind (readOnly_loadTaskContext approval)
    (fun pair _ => readOnly_run_pure ?_) ?_
  · intro context hcontext
    rw [← Except.ok.inj hcontext]
  · intro message _ context hcontext
    cases hcontext

theorem readOnly_checked {α : Type} {approvalId : String}
    (h : ∀ ticket, stored = some ticket → ticket.status ≠ .pending)
    (body : ApprovalTicket → TaskRun → Option ConversationSession → Store ApiEvent α) :
    ReadOnly (fun _ => True) Failed (contextOf approvalId stored >>= fun context =>
      ifPending context.1 (body context.1 context.2.1 context.2.2)).run := by
  cases stored with
  | none => exact readOnly_run_throw ⟨_, rfl⟩
  | some approval =>
      refine readOnly_run_bind (readOnly_contextOf approvalId approval)
        (fun context hfirst => ?_) fun message _ => ⟨message, rfl⟩
      rw [hfirst context rfl, ifPending, if_pos (h approval rfl)]
      exact readOnly_run_throw ⟨_, rfl⟩

theorem readOnly_remaining (decision : Decision) {approvalId : String}
    (h : ∀ ticket, stored = some ticket → ticket.status ≠ .pending) :
    ReadOnly (fun _ => True) Failed (decision.remaining approvalId stored) := by
  cases decision with
  | approve handlers taskDraws draws approver =>
      refine readOnly_run_bind (readOnly_checked h
        (resumeApproved handlers taskDraws draws approvalId approver)) (fun pair hfailed => ?_)
        fun message _ => ⟨message, rfl⟩
      obtain ⟨message, hmessage⟩ := hfailed
      cases hmessage
  | reject draws approver =>
      exact readOnly_checked h fun _ taskRun session =>
        markRejected draws approvalId approver >>= fun updatedApproval =>
          closeRejected draws approver updatedApproval taskRun session

theorem not_succeeded_of_readOnly {w : Worker} {A : TaskConversationFile → Prop}
    (h : ReadOnly A Failed (c.program w)) : ¬ Succeeded c w := by
  rintro ⟨summary, hdone⟩
  rw [hdone] at h
  cases h with
  | done result hfailed =>
      obtain ⟨message, hmessage⟩ := hfailed
      cases hmessage

@[simp] theorem taskStarts_append (log log' : List ApiEvent) :
    taskStarts (log ++ log') = taskStarts log + taskStarts log' :=
  List.countP_append

def StartedTimes (n : Nat) (log : List ApiEvent) (_ : TaskConversationFile) : Prop :=
  taskStarts log = n

theorem preserves_startedTimes_of_keeps {α γ : Type} {f : TaskConversationFile → γ} {n : Nat}
    {p : Service α} (h : Keeps f p) : Preserves (StartedTimes n) p :=
  h.preserves fun log _ => taskStarts log = n

theorem taskStarts_drawnEvents (pending : Option ApprovalTicket) (draws : GateDraws) :
    taskStarts (drawnEvents pending draws) = 0 := by
  cases pending <;> rfl

theorem preserves_startedTimes_gate (n : Nat) (request : TaskRequest) (action : Policy.Action)
    (executorUsed : String) (draws : GateDraws) :
    Preserves (StartedTimes n) (ensureActionAllowed request action executorUsed draws) := by
  intro log file hlog
  have hsame : taskStarts ((ensureActionAllowed request action executorUsed draws).exec
      file).log = 0 := by
    rcases ensureActionAllowed_cases request action executorUsed draws file with
      ⟨-, hevents, -⟩ | hrefused | hallowed
    · rw [hevents]
      rfl
    · rcases hrefused.changes with ⟨-, hevents⟩ | ⟨violation, -, hevents⟩
      · rw [hevents, taskStarts_drawnEvents]
      · rw [hevents, taskStarts_append, taskStarts_drawnEvents]
        rfl
    · rcases hallowed.changes with ⟨-, hevents⟩ | ⟨-, hevents⟩
      · rw [hevents]
        rfl
      · rw [hevents]
        rfl
  rw [StartedTimes, taskStarts_append, hsame]
  exact hlog

theorem triple_handlePrepared (handlers : TaskHandlers) (draws : TaskDraws)
    (request : TaskRequest) (n : Nat) :
    Triple (StartedTimes n) (handlePrepared handlers draws request)
      fun _ => StartedTimes (n + 1) := by
  have hreport : Triple (StartedTimes n) (report (.taskStarted request) : Service Unit)
      fun _ => StartedTimes (n + 1) := by
    intro log file hlog
    rw [exec_report, StartedTimes, taskStarts_append, hlog]
    rfl
  refine triple_bind hreport fun _ => ?_
  refine preserves_bind (preserves_startedTimes_of_keeps
    (keeps_beginTaskTracking (f := fun _ => ()) (fun _ _ _ _ => rfl) _ _)) fun tracking => ?_
  refine preserves_bind (preserves_handler_of_part (fun _ => ()) (fun log _ =>
    taskStarts log = n + 1) request (fun _ _ _ _ _ _ => rfl)
    (fun _ _ _ _ _ => preserves_startedTimes_gate (n + 1) _ _ _ _) _) fun response => ?_
  refine preserves_bind (preserves_startedTimes_of_keeps (keeps_finishTaskTracking
    (f := fun _ => ()) (fun _ _ _ _ _ _ => rfl) _ _ _ _ _)) fun _ => ?_
  exact preserves_pure _

theorem triple_approve (handlers : TaskHandlers) (taskDraws : TaskDraws)
    (draws : DecisionDraws) (approvalId : String) (approver : Option String) :
    Triple (StartedTimes 0)
      (approvePendingApproval handlers taskDraws draws approvalId approver).run
      fun _ log _ => taskStarts log ≤ 1 := by
  refine triple_run_bind (preserves_startedTimes_of_keeps
    (keeps_loadApprovalContext (fun _ => ()) approvalId)) (fun context => ?_) ?_
  · obtain ⟨approval, taskRun, session⟩ := context
    dsimp only
    split
    · intro log file hlog
      have hzero : taskStarts log = 0 := hlog
      simp [hzero]
    · have hresumed : Triple (StartedTimes 0) (resumeApproved handlers taskDraws draws
          approvalId approver approval taskRun session).run fun _ => StartedTimes 1 := by
        refine triple_run_bind (R := fun _ => StartedTimes 1) ?_ (fun response => ?_)
          fun _ _ _ h => h
        · exact triple_bind (triple_handlePrepared _ _ _ 0) fun response => preserves_pure _
        refine preserves_run_bind (preserves_startedTimes_of_keeps
          (keeps_inspectFile (fun _ => ()) _)) fun stored => ?_
        refine preserves_run_bind (preserves_startedTimes_of_keeps
          (keeps_recordApprovalDecisionEvent (f := fun _ => ()) (fun _ _ => rfl)
            _ _ _ _ _ _ _ _)) fun _ => ?_
        refine preserves_run_bind (preserves_startedTimes_of_keeps
          (keeps_loadApprovalSummary (fun _ => ()) _)) fun summary => ?_
        exact preserves_run_pure _
      intro log file hlog
      exact le_of_eq (hresumed log file hlog)
  · intro message log file hlog
    have hzero : taskStarts log = 0 := hlog
    rw [hzero]
    exact Nat.zero_le 1

/-- Nothing but rejections of the ticket was observed. -/
def OnlyRejections (approvalId : String) (log : List ApiEvent) : Prop :=
  ∀ event ∈ log, event = .ticketRejected approvalId

/-- Besides, the ticket stands as rejected. -/
def RejectedIn (approvalId : String) (log : List ApiEvent)
    (approvals : Table ApprovalTicket) : Prop :=
  OnlyRejections approvalId log ∧
    ∀ ticket, approvals.lookup approvalId = some ticket → ticket.status = .rejected

/-- What a rejection leaves behind, depending on how it returned. -/
def AfterRejection {α : Type} (approvalId : String) (result : Except String α)
    (log : List ApiEvent) (file : TaskConversationFile) : Prop :=
  match result with
  | .ok _ => RejectedIn approvalId log file.approvals
  | .error _ => OnlyRejections approvalId log

theorem triple_markRejected (draws : DecisionDraws) (approvalId : String)
    (approver : Option String) :
    Triple (fun log _ => OnlyRejections approvalId log)
      (markRejected draws approvalId approver).run (AfterRejection approvalId) := by
  intro log file honly
  cases hticket : file.approvals.lookup approvalId with
  | none =>
      rw [exec_markRejected_none draws approver hticket, List.append_nil]
      exact honly
  | some ticket =>
      rw [exec_markRejected_some draws approver hticket]
      refine ⟨fun event hevent => ?_, fun found hfound => ?_⟩
      · rcases List.mem_append.mp hevent with hold | hnew
        · exact honly event hold
        · exact List.mem_singleton.mp hnew
      · rw [Table.lookup_insert_eq_ite, if_pos rfl] at hfound
        rw [← Option.some.inj hfound]
        rfl

theorem triple_reject (draws : DecisionDraws) (approvalId : String) (approver : Option String) :
    Triple (fun log _ => OnlyRejections approvalId log)
      (rejectPendingApproval draws approvalId approver).run (AfterRejection approvalId) := by
  refine triple_run_bind ((keeps_loadApprovalContext (fun _ => ()) approvalId).preserves
    fun log _ => OnlyRejections approvalId log) (fun context => ?_) fun _ _ _ h => h
  obtain ⟨approval, taskRun, session⟩ := context
  dsimp only
  split
  · intro log file honly
    rw [exec_run_throw, List.append_nil]
    exact honly
  refine triple_run_bind (triple_markRejected draws approvalId approver)
    (fun updated log file hrejected => ?_) fun _ _ _ h => h
  have hclosed := (keeps_closeRejected (f := (·.approvals)) (fun _ _ _ _ => rfl) draws approver
    updated taskRun session).preserves (RejectedIn approvalId) log file hrejected
  cases hresult : ((closeRejected draws approver updated taskRun session).run.exec
      file).result with
  | ok summary => exact hclosed
  | error message => exact hclosed.1

section Schedules

variable {decision : Worker → Decision} {approvalId : String} {file : TaskConversationFile}
  {w : Worker}

def Decision.alone (decision : Decision) (approvalId : String) (file : TaskConversationFile) :
    Outcome TaskConversationFile ApiEvent (Except String TaskApprovalSummary) :=
  (decision.program approvalId).exec file

theorem taskStarts_alone (decision : Decision) (approvalId : String)
    (file : TaskConversationFile) : taskStarts (decision.alone approvalId file).log ≤ 1 := by
  cases decision with
  | approve handlers taskDraws draws approver =>
      have hsummary : Triple (StartedTimes 0)
          ((Decision.approve handlers taskDraws draws approver).program approvalId)
          fun _ log _ => taskStarts log ≤ 1 :=
        triple_run_bind (triple_approve handlers taskDraws draws approvalId approver)
          (fun pair => preserves_run_pure pair.1) fun _ _ _ h => h
      exact hsummary [] file rfl
  | reject draws approver =>
      have hreject := triple_reject draws approvalId approver [] file nofun
      have honly : OnlyRejections approvalId
          ((Decision.reject draws approver).alone approvalId file).log := by
        simp only [AfterRejection] at hreject
        split at hreject
        · exact hreject.1
        · exact hreject
      have hzero : taskStarts ((Decision.reject draws approver).alone approvalId file).log = 0 := by
        refine List.countP_eq_zero.mpr fun event hevent => ?_
        rw [honly event hevent]
        exact Bool.false_ne_true
      rw [hzero]
      exact Nat.zero_le 1

theorem decidedOnce_of_outlook
    {c : Config TaskConversationFile ApiEvent (Except String TaskApprovalSummary)}
    (hout : c.outlook w = (decision w).alone approvalId file) (hother : ¬ Succeeded c w.other) :
    DecidedOnce decision approvalId c := by
  refine ⟨fun v hv hv' => ?_, ?_, fun v draws approver hreject hv => ?_⟩
  · rcases Worker.eq_or_eq_other v w with rfl | rfl
    · exact hother hv'
    · exact hother hv
  · have hlog : c.log ++ ((c.program w).exec c.file).log =
        ((decision w).alone approvalId file).log := congrArg Outcome.log hout
    have hle := taskStarts_alone (decision w) approvalId file
    rw [← hlog, taskStarts_append] at hle
    exact le_trans (Nat.le_add_right _ _) hle
  · obtain rfl : v = w := by
      rcases Worker.eq_or_eq_other v w with hvw | rfl
      · exact hvw
      · exact absurd hv hother
    obtain ⟨summary, hdone⟩ := hv
    rw [c.outlook_of_done hdone, hreject] at hout
    have hafter := triple_reject draws approvalId approver [] file nofun
    rw [show (rejectPendingApproval draws approvalId approver).run.exec file =
      ⟨c.file, c.log, .ok summary⟩ from hout.symm] at hafter
    obtain ⟨honly, hstatus⟩ := hafter
    refine ⟨fun ticket hticket hstatus' => ?_, fun request => ⟨fun hmem => ?_, ?_⟩⟩
    · rw [hstatus ticket hticket] at hstatus'
      cases hstatus'
    · cases honly _ hmem
    · intro action hmem
      cases honly _ hmem

theorem readOnly_loadApprovalContext (horphan : Orphaned file approvalId) :
    ReadOnly (· = file) Failed (loadApprovalContext approvalId : Store ApiEvent _).run := by
  refine readOnly_run_bind (R := fun result => result = .ok (file.approvals.lookup approvalId))
    (readOnly_read ?_) (fun stored hstored => ?_) fun message _ => ⟨message, rfl⟩
  · rintro s rfl
    rfl
  cases stored with
  | none => exact readOnly_run_throw ⟨_, rfl⟩
  | some approval =>
      have hrun := horphan approval (Except.ok.inj hstored).symm
      refine readOnly_run_bind (R := Failed) ?_ (fun pair hfailed => ?_)
        fun message _ => ⟨message, rfl⟩
      · refine readOnly_run_bind (R := fun result => result = .ok none) (readOnly_read ?_)
          (fun taskRun htaskRun => ?_) fun message _ => ⟨message, rfl⟩
        · rintro s rfl
          exact congrArg Except.ok hrun
        · rw [Except.ok.inj htaskRun]
          exact readOnly_run_throw ⟨_, rfl⟩
      · obtain ⟨message, hmessage⟩ := hfailed
        cases hmessage

theorem readOnly_of_orphaned (horphan : Orphaned file approvalId) (decision : Decision) :
    ReadOnly (· = file) Failed (decision.program approvalId) := by
  have hnever : ∀ {α : Type} {a : α}, ¬ Failed (Except.ok a : Except String α) := by
    rintro α a ⟨message, hmessage⟩
    cases hmessage
  cases decision with
  | approve handlers taskDraws draws approver =>
      refine readOnly_run_bind (R := Failed) ?_ (fun pair hfailed => absurd hfailed hnever)
        fun message _ => ⟨message, rfl⟩
      exact readOnly_run_bind (readOnly_loadApprovalContext horphan)
        (fun context hfailed => absurd hfailed hnever) fun message _ => ⟨message, rfl⟩
  | reject draws approver =>
      exact readOnly_run_bind (readOnly_loadApprovalContext horphan)
        (fun context hfailed => absurd hfailed hnever) fun message _ => ⟨message, rfl⟩

theorem decidedOnce_of_orphaned (horphan : Orphaned file approvalId) (schedule : List Worker) :
    DecidedOnce decision approvalId ((deciders decision approvalId file).run schedule) := by
  obtain ⟨-, hlog, hread⟩ := (deciders decision approvalId file).run_of_readOnly
    (A := (· = file)) rfl (fun w => readOnly_of_orphaned horphan (decision w)) schedule
  have hnone : ∀ w, ¬ Succeeded ((deciders decision approvalId file).run schedule) w :=
    fun w => not_succeeded_of_readOnly (hread w)
  refine ⟨fun w hw => absurd hw (hnone w), ?_, fun w _ _ _ hw => absurd hw (hnone w)⟩
  rw [hlog]
  exact Nat.zero_le 1

theorem decidedOnce_of_split {before after : List Worker} (hw : w ∉ before)
    (hdecided : ∀ ticket, ((deciders decision approvalId file).run before).file.approvals.lookup
      approvalId = some ticket → ticket.status ≠ .pending) :
    DecidedOnce decision approvalId
      ((deciders decision approvalId file).run (before ++ w :: after)) := by
  obtain ⟨hout, hstart⟩ := (deciders decision approvalId file).run_alone w.other before
    (by rwa [Worker.other_other])
  rw [Worker.other_other] at hstart
  have hstep := stepProgram_decision (decision w) approvalId
    ((deciders decision approvalId file).run before).file
  generalize hc : (deciders decision approvalId file).run before = c at *
  have hprogram : stepProgram (c.program w) c.file =
      ((decision w).remaining approvalId (c.file.approvals.lookup approvalId), c.file, []) := by
    rw [hstart]
    exact hstep
  have hread : ReadOnly (fun _ => True) Failed ((c.step w).program w) := by
    simp only [Config.step, Function.update_self, hprogram]
    exact readOnly_remaining (decision w) hdecided
  have hfile : (c.step w).file = c.file := by simp only [Config.step, hprogram]
  have hlog : (c.step w).log = c.log := by simp only [Config.step, hprogram, List.append_nil]
  have hsplit : (deciders decision approvalId file).run (before ++ w :: after) =
      (c.step w).run after := by
    rw [List.append_cons, Config.run_append, Config.run_concat, hc]
  obtain ⟨hrest, hreadRest⟩ := (c.step w).outlook_run_of_readOnly w.other
    (by rwa [Worker.other_other]) after
  rw [hsplit]
  have houtRest : ((c.step w).run after).outlook w.other =
      (decision w.other).alone approvalId file := by
    rw [hrest, c.outlook_step_other hfile hlog, hout]
    rfl
  exact decidedOnce_of_outlook houtRest (not_succeeded_of_readOnly hreadRest)

/-- As long as the worker that starts second finds the ticket decided, the ticket is
decided once, at every point of every interleaving. -/
theorem decidedOnce_of_startsAfterDecision (decision : Worker → Decision) (approvalId : String)
    (file : TaskConversationFile) (schedule : List Worker)
    (hstarts : StartsAfterDecision decision approvalId file schedule) :
    DecidedOnce decision approvalId ((deciders decision approvalId file).run schedule) := by
  rcases hstarts with horphan | hafter
  · exact decidedOnce_of_orphaned horphan schedule
  by_cases hboth : ∃ w : Worker, w ∉ schedule
  · obtain ⟨w, hw⟩ := hboth
    obtain ⟨hout, hstart⟩ := (deciders decision approvalId file).run_alone w.other schedule
      (by rwa [Worker.other_other])
    have halone : ((deciders decision approvalId file).run schedule).outlook w.other =
        (decision w.other).alone approvalId file := hout
    refine decidedOnce_of_outlook halone ?_
    rintro ⟨summary, hdone⟩
    rw [hstart, Worker.other_other] at hdone
    exact not_done_program _ _ _ hdone
  · have hmem : ∀ w, w ∈ schedule := fun w => by_contra fun hw => hboth ⟨w, hw⟩
    -- the worker that does not take the first step of the schedule starts second
    obtain ⟨v, rest, rfl⟩ := List.exists_cons_of_ne_nil (List.ne_nil_of_mem (hmem .first))
    obtain ⟨before, after, hsplit, hnot⟩ := List.eq_append_cons_of_mem (hmem v.other)
    rw [hsplit]
    refine decidedOnce_of_split hnot (hafter before v.other after hsplit hnot ?_)
    rw [Worker.other_other]
    cases before with
    | nil => exact absurd (List.cons.inj hsplit).1.symm (Worker.other_ne v)
    | cons u us => exact (List.cons.inj hsplit).1 ▸ List.mem_cons_self

end Schedules

def restartAsked : TaskConversationFile :=
  ((runCalls [.handleTask restartHandlers restartDraws (restartRequest plainArgs)]).exec {}).file

def decisionDraws : DecisionDraws where
  eventId := ⟨"c3f1d2", by decide⟩
  eventAt := "1700000002"
  decidedAt := "1700000002"

def approveAndReject : Worker → Decision
  | .first => .approve restartHandlers restartDraws decisionDraws (some "admin")
  | .second => .reject decisionDraws (some "owner")

def restartDeciders :
    Config TaskConversationFile ApiEvent (Except String TaskApprovalSummary) :=
  deciders approveAndReject "8d0f6a" restartAsked

def approveThenReject : List Worker :=
  List.replicate 38 .first ++ List.replicate 3 .second

theorem approveThenReject_status :
    ((restartDeciders.run (List.replicate 38 .first)).file.approvals.lookup "8d0f6a").map
      (·.status) = some .approved := by
  decide +kernel

theorem approveThenReject_decidedOnce :
    StartsAfterDecision approveAndReject "8d0f6a" restartAsked approveThenReject ∧
      DecidedOnce approveAndReject "8d0f6a" (restartDeciders.run approveThenReject) := by
  have hafter : StartsAfterDecision approveAndReject "8d0f6a" restartAsked
      approveThenReject := by
    refine Or.inr fun before w after hsplit hnot hother ticket hticket => ?_
    have hbefore : approveThenReject.takeWhile (· ≠ w) = before := by
      have hall : ∀ v ∈ before, decide (v ≠ w) = true :=
        fun v hv => decide_eq_true fun hvw => hnot (hvw ▸ hv)
      rw [hsplit, List.takeWhile_append_of_pos hall]
      simp
    cases w with
    | first =>
        rw [← hbefore] at hother
        exact absurd hother (by decide)
    | second =>
        have hreplicate : before = List.replicate 38 .first := hbefore.symm.trans (by decide)
        have hstatus := approveThenReject_status
        rw [hreplicate] at hticket
        rw [restartDeciders, hticket, Option.map_some] at hstatus
        rw [Option.some.inj hstatus]
        decide
  exact ⟨hafter, decidedOnce_of_startsAfterDecision _ _ _ _ hafter⟩

def checkThenDecide : List Worker :=
  List.replicate 3 .first ++ List.replicate 14 .second ++ List.replicate 35 .first

def isActionAllowed : ApiEvent → Bool
  | .actionAllowed _ _ => true
  | _ => false

/-- Both decisions succeed, and the restart is let through although its rejection was
reported. -/
theorem checkThenDecide_both_succeed :
    restartAsked.approvals.lookup "8d0f6a" = some restartTicket ∧
      restartTicket.status = .pending ∧
      Succeeded (restartDeciders.run checkThenDecide) .first ∧
      Succeeded (restartDeciders.run checkThenDecide) .second ∧
      (restartDeciders.run checkThenDecide).log.any isActionAllowed = true ∧
      ¬ DecidedOnce approveAndReject "8d0f6a" (restartDeciders.run checkThenDecide) := by
  have happroved : Succeeded (restartDeciders.run checkThenDecide) .first := by decide +kernel
  have hrejected : Succeeded (restartDeciders.run checkThenDecide) .second := by
    decide +kernel
  refine ⟨by decide +kernel, by decide, happroved, hrejected, by decide +kernel, ?_⟩
  exact fun honce => honce.oneSucceeds .first happroved hrejected

end HarborBeacon.ApprovalDecision
