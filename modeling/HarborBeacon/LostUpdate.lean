import HarborBeacon.TaskSession

/-!
Two clients that save into one store file. A file is seen as a partial map from table
and key to record; every save operation writes some records and drops others. No lock
spans the load and the save of an operation.
-/

namespace HarborBeacon.LostUpdate

open ControlPlane ConversationState FileProgram TaskSession Text

inductive TableName where
  | conversations
  | sessions
  | taskRuns
  | taskSteps
  | artifacts
  | mediaAssets
  | approvals
  | events
  | mediaSessions
  | shareLinks
deriving DecidableEq

inductive Record where
  | conversation (state : TaskConversationState)
  | session (session : ConversationSession)
  | taskRun (taskRun : TaskRun)
  | taskStep (taskStep : TaskStepRun)
  | artifact (artifact : ArtifactRecord)
  | mediaAsset (mediaAsset : MediaAsset)
  | approval (approval : ApprovalTicket)
  | event (event : EventRecord)
  | mediaSession (mediaSession : MediaSession)
  | shareLink (shareLink : ShareLink)
deriving DecidableEq

def Record.table : Record → TableName
  | .conversation _ => .conversations
  | .session _ => .sessions
  | .taskRun _ => .taskRuns
  | .taskStep _ => .taskSteps
  | .artifact _ => .artifacts
  | .mediaAsset _ => .mediaAssets
  | .approval _ => .approvals
  | .event _ => .events
  | .mediaSession _ => .mediaSessions
  | .shareLink _ => .shareLinks

def Record.key : Record → String
  | .conversation r => r.key
  | .session r => r.sessionId
  | .taskRun r => r.taskId
  | .taskStep r => r.stepId
  | .artifact r => r.artifactId
  | .mediaAsset r => r.assetId
  | .approval r => r.approvalId
  | .event r => r.eventId
  | .mediaSession r => r.mediaSessionId
  | .shareLink r => r.shareLinkId

def recordAt (file : TaskConversationFile) : TableName → String → Option Record
  | .conversations, key => (file.conversations.lookup key).map .conversation
  | .sessions, key => (file.sessions.lookup key).map .session
  | .taskRuns, key => (file.taskRuns.lookup key).map .taskRun
  | .taskSteps, key => (file.taskSteps.lookup key).map .taskStep
  | .artifacts, key => (file.artifacts.lookup key).map .artifact
  | .mediaAssets, key => (file.mediaAssets.lookup key).map .mediaAsset
  | .approvals, key => (file.approvals.lookup key).map .approval
  | .events, key => (file.events.lookup key).map .event
  | .mediaSessions, key => (file.mediaSessions.lookup key).map .mediaSession
  | .shareLinks, key => (file.shareLinks.lookup key).map .shareLink

def StoredIn (file : TaskConversationFile) (record : Record) : Prop :=
  recordAt file record.table record.key = some record

def putRecord (file : TaskConversationFile) : Record → TaskConversationFile
  | .conversation r => { file with conversations := file.conversations.insert r.key r }
  | .session r => { file with sessions := file.sessions.insert r.sessionId r }
  | .taskRun r => { file with taskRuns := file.taskRuns.insert r.taskId r }
  | .taskStep r => { file with taskSteps := file.taskSteps.insert r.stepId r }
  | .artifact r => { file with artifacts := file.artifacts.insert r.artifactId r }
  | .mediaAsset r => { file with mediaAssets := file.mediaAssets.insert r.assetId r }
  | .approval r => { file with approvals := file.approvals.insert r.approvalId r }
  | .event r => { file with events := file.events.insert r.eventId r }
  | .mediaSession r =>
      { file with mediaSessions := file.mediaSessions.insert r.mediaSessionId r }
  | .shareLink r => { file with shareLinks := file.shareLinks.insert r.shareLinkId r }

def only (record : Record) (table : TableName) (key : String) : Option Record :=
  if record.table = table ∧ record.key = key then some record else none

theorem map_lookup_insert {α : Type} (f : α → Record) (k key : String) (v : α)
    (t : Table α) :
    ((t.insert k v).lookup key).map f =
      (if k = key then some (f v) else none).or ((t.lookup key).map f) := by
  rw [Table.lookup_insert_eq_ite]
  by_cases hkey : k = key
  · simp [hkey]
  · simp [hkey, Ne.symm hkey]

theorem recordAt_putRecord (file : TaskConversationFile) (record : Record)
    (table : TableName) (key : String) :
    recordAt (putRecord file record) table key =
      (only record table key).or (recordAt file table key) := by
  cases record <;> cases table <;>
    simp [recordAt, putRecord, only, Record.table, Record.key, map_lookup_insert]

section Operations

inductive SaveOperation where
  | save (state : TaskConversationState)
  | saveForSession (session : ConversationSession) (state : TaskConversationState)
  | saveSession (session : ConversationSession)
  | saveTaskRun (taskRun : TaskRun)
  | saveTaskStep (taskStep : TaskStepRun)
  | saveMediaAsset (mediaAsset : MediaAsset)
  | saveMediaSession (mediaSession : MediaSession)
  | saveShareLink (shareLink : ShareLink)
  | saveShareLinkBundle (mediaSession : MediaSession) (shareLink : ShareLink)
  | replaceArtifactsForStep (taskId : String) (stepId : Option String)
      (artifacts : List ArtifactRecord)
  | replaceEventsForStep (taskId : String) (stepId : Option String)
      (events : List EventRecord)
  | saveApproval (approval : ApprovalTicket)

namespace SaveOperation

variable {ε : Type}

def program : SaveOperation → Store ε Unit
  | save state => TaskSession.save state
  | saveForSession session state => TaskSession.saveForSession session state
  | saveSession session => TaskSession.saveSession session
  | saveTaskRun taskRun => TaskSession.saveTaskRun taskRun
  | saveTaskStep taskStep => TaskSession.saveTaskStep taskStep
  | saveMediaAsset mediaAsset => TaskSession.saveMediaAsset mediaAsset
  | saveMediaSession mediaSession => TaskSession.saveMediaSession mediaSession
  | saveShareLink shareLink => TaskSession.saveShareLink shareLink
  | saveShareLinkBundle mediaSession shareLink =>
      TaskSession.saveShareLinkBundle mediaSession shareLink
  | replaceArtifactsForStep taskId stepId artifacts =>
      TaskSession.replaceArtifactsForStep taskId stepId artifacts
  | replaceEventsForStep taskId stepId events =>
      TaskSession.replaceEventsForStep taskId stepId events
  | saveApproval approval => TaskSession.saveApproval approval

def written : SaveOperation → TableName → String → Option Record
  | save state => only (.conversation state.persisted)
  | saveForSession session state =>
      match envelopeFromConversationState state.persisted (some session) with
      | .ok envelope => fun table key =>
          (only (.session { session with state := envelope.encode }) table key).or
            (only (.conversation state.persisted) table key)
      | .error _ => fun _ _ => none
  | saveSession session => only (.session session)
  | saveTaskRun taskRun => only (.taskRun taskRun)
  | saveTaskStep taskStep => only (.taskStep taskStep)
  | saveMediaAsset mediaAsset => only (.mediaAsset mediaAsset)
  | saveMediaSession mediaSession => only (.mediaSession mediaSession)
  | saveShareLink shareLink => only (.shareLink shareLink)
  | saveShareLinkBundle mediaSession shareLink => fun table key =>
      (only (.mediaSession mediaSession) table key).or (only (.shareLink shareLink) table key)
  | replaceArtifactsForStep _ _ artifacts => fun table key =>
      if table = .artifacts then
        (artifacts.findRev? fun artifact => artifact.artifactId = key).map .artifact
      else none
  | replaceEventsForStep _ _ events => fun table key =>
      if table = .events then (events.findRev? fun event => event.eventId = key).map .event
      else none
  | saveApproval approval => only (.approval approval)

def drops : SaveOperation → Record → Bool
  | replaceArtifactsForStep taskId stepId _, .artifact artifact =>
      artifact.taskId = taskId ∧ artifact.stepId = stepId
  | replaceEventsForStep taskId stepId _, .event event =>
      event.sourceId = taskId ∧ event.causationId = stepId
  | _, _ => false

def Writes (op : SaveOperation) (record : Record) : Prop :=
  op.written record.table record.key = some record

/-- The operation passes its own checks; these do not read the file. -/
def Accepted (op : SaveOperation) : Prop :=
  ∀ file, ((op.program : Store Unit Unit).run.exec file).result = .ok ()

/-- No record of the first operation is overwritten or dropped by the second one. -/
def LeavesAlone (op other : SaveOperation) : Prop :=
  ∀ record, op.Writes record →
    other.written record.table record.key = none ∧ other.drops record = false

end SaveOperation

end Operations

section Effects

open SaveOperation

variable {file : TaskConversationFile} {put : TaskConversationFile → TaskConversationFile}

theorem exec_saveRecord_file {id message : String}
    (h : ((saveRecord id message put : Store Unit Unit).run.exec file).result = .ok ()) :
    ((saveRecord id message put : Store Unit Unit).run.exec file).file = put file := by
  rw [exec_saveRecord] at h ⊢
  by_cases hblank : isBlank id = true
  · simp only [if_pos hblank] at h
    cases h
  · simp only [if_neg hblank]

theorem recordAt_of_put {file file' : TaskConversationFile} {record : Record}
    (h : file' = putRecord file record) (table : TableName) (key : String) :
    recordAt file' table key =
      (only record table key).or ((recordAt file table key).filter fun _ => !false) := by
  rw [h, recordAt_putRecord]
  cases recordAt file table key <;> rfl

theorem recordAt_saveRecord {id message : String} {record : Record}
    (hput : put file = putRecord file record)
    (h : ((saveRecord id message put : Store Unit Unit).run.exec file).result = .ok ())
    (table : TableName) (key : String) :
    recordAt ((saveRecord id message put : Store Unit Unit).run.exec file).file table key =
      (only record table key).or ((recordAt file table key).filter fun _ => !false) :=
  recordAt_of_put ((exec_saveRecord_file h).trans hput) table key

theorem recordAt_of_put_put {file file' : TaskConversationFile} {first second : Record}
    (h : file' = putRecord (putRecord file second) first) (table : TableName) (key : String) :
    recordAt file' table key =
      ((only first table key).or (only second table key)).or
        ((recordAt file table key).filter fun _ => !false) := by
  rw [h, recordAt_putRecord, recordAt_putRecord, Option.or_assoc]
  cases recordAt file table key <;> rfl

theorem exec_saveForSession_file {session : ConversationSession} {state : TaskConversationState}
    (h : ((TaskSession.saveForSession session state : Store Unit Unit).run.exec file).result =
      .ok ()) :
    ∃ envelope, envelopeFromConversationState state.persisted (some session) = .ok envelope ∧
      ((TaskSession.saveForSession session state : Store Unit Unit).run.exec file).file =
        putRecord (putRecord file (.conversation state.persisted))
          (.session { session with state := envelope.encode }) := by
  unfold TaskSession.saveForSession at h ⊢
  split at h
  · cases h
  rename_i hsession
  split at h
  · cases h
  rename_i hkey
  rw [if_neg hsession, if_neg hkey]
  cases henvelope : envelopeFromConversationState state.persisted (some session) with
  | error message =>
      rw [exec_modifyFile] at h
      simp only [henvelope] at h
      cases h
  | ok envelope =>
      refine ⟨envelope, rfl, ?_⟩
      rw [exec_modifyFile]
      simp only [henvelope]
      rfl

theorem exec_saveShareLinkBundle_file {mediaSession : MediaSession} {shareLink : ShareLink}
    (h : ((TaskSession.saveShareLinkBundle mediaSession shareLink :
      Store Unit Unit).run.exec file).result = .ok ()) :
    ((TaskSession.saveShareLinkBundle mediaSession shareLink :
      Store Unit Unit).run.exec file).file =
        putRecord (putRecord file (.shareLink shareLink)) (.mediaSession mediaSession) := by
  unfold TaskSession.saveShareLinkBundle at h ⊢
  split at h
  · cases h
  rename_i hsession
  split at h
  · cases h
  rename_i hlink
  split at h
  · cases h
  rename_i hmatch
  rw [if_neg hsession, if_neg hlink, if_neg hmatch]
  rfl

theorem exec_replaceRecords_file {α : Type} {tableOf : TaskConversationFile → Table α}
    {put : TaskConversationFile → Table α → TaskConversationFile} {stale : α → Bool}
    {idOf : α → String} {message : String} {records : List α}
    (h : ((replaceRecords tableOf put stale idOf message records :
      Store Unit Unit).run.exec file).result = .ok ()) :
    ∃ replaced, insertAll idOf message records
        ((tableOf file).retain fun _ record => !stale record) = .ok replaced ∧
      ((replaceRecords tableOf put stale idOf message records :
        Store Unit Unit).run.exec file).file = put file replaced := by
  rw [exec_replaceRecords] at h ⊢
  split at h
  · rename_i replaced hreplaced
    exact ⟨replaced, hreplaced, rfl⟩
  · cases h

theorem map_lookup_replace {α : Type} (f : α → Record) {idOf : α → String}
    {message : String} {records : List α} {stale : α → Bool} {table table' : Table α}
    (key : String)
    (h : insertAll idOf message records (table.retain fun _ record => !stale record) =
      .ok table') (drop : Record → Bool) (hdrop : ∀ record, drop (f record) = stale record) :
    (table'.lookup key).map f =
      ((records.findRev? fun record => idOf record = key).map f).or
        (((table.lookup key).map f).filter fun r => !drop r) := by
  rw [lookup_insertAll key h, Table.lookup_retain, Option.map_or]
  cases table.lookup key with
  | none => rfl
  | some record =>
      cases hstale : stale record <;> simp [Option.filter, hstale, hdrop]

theorem filter_not_false {o : Option Record} {p : Record → Bool}
    (h : ∀ r, o = some r → p r = false) : o.filter (fun r => !p r) = o := by
  cases o with
  | none => rfl
  | some r => simp [h r rfl]

/-- A file after an accepted operation: its own records, and besides them what it did
not drop. -/
theorem recordAt_exec {op : SaveOperation} (h : op.Accepted) (file : TaskConversationFile)
    (table : TableName) (key : String) :
    recordAt ((op.program : Store Unit Unit).run.exec file).file table key =
      (op.written table key).or ((recordAt file table key).filter fun r => !op.drops r) := by
  have hfile := h file
  cases op with
  | save state =>
      rw [program, TaskSession.save] at hfile ⊢
      exact recordAt_saveRecord rfl hfile table key
  | saveForSession session state =>
      obtain ⟨envelope, henvelope, hput⟩ := exec_saveForSession_file hfile
      rw [written, henvelope]
      exact recordAt_of_put_put hput table key
  | saveSession session =>
      rw [program, TaskSession.saveSession] at hfile ⊢
      exact recordAt_saveRecord rfl hfile table key
  | saveTaskRun taskRun =>
      rw [program, TaskSession.saveTaskRun] at hfile ⊢
      exact recordAt_saveRecord rfl hfile table key
  | saveTaskStep taskStep =>
      rw [program, TaskSession.saveTaskStep] at hfile ⊢
      exact recordAt_saveRecord rfl hfile table key
  | saveMediaAsset mediaAsset =>
      rw [program, TaskSession.saveMediaAsset] at hfile ⊢
      exact recordAt_saveRecord rfl hfile table key
  | saveMediaSession mediaSession =>
      rw [program, TaskSession.saveMediaSession] at hfile ⊢
      exact recordAt_saveRecord rfl hfile table key
  | saveShareLink shareLink =>
      rw [program, TaskSession.saveShareLink] at hfile ⊢
      exact recordAt_saveRecord rfl hfile table key
  | saveShareLinkBundle mediaSession shareLink =>
      exact recordAt_of_put_put (exec_saveShareLinkBundle_file hfile) table key
  | replaceArtifactsForStep taskId stepId artifacts =>
      obtain ⟨replaced, hreplaced, hput⟩ := exec_replaceRecords_file hfile
      rw [program, TaskSession.replaceArtifactsForStep, hput]
      cases table with
      | artifacts =>
          refine map_lookup_replace Record.artifact key hreplaced _ fun artifact => ?_
          simp [drops]
      | _ =>
          refine (filter_not_false fun r hr => ?_).symm
          simp only [recordAt, Option.map_eq_some_iff] at hr
          obtain ⟨_, -, rfl⟩ := hr
          rfl
  | replaceEventsForStep taskId stepId events =>
      obtain ⟨replaced, hreplaced, hput⟩ := exec_replaceRecords_file hfile
      rw [program, TaskSession.replaceEventsForStep, hput]
      cases table with
      | events =>
          refine map_lookup_replace Record.event key hreplaced _ fun event => ?_
          simp [drops]
      | _ =>
          refine (filter_not_false fun r hr => ?_).symm
          simp only [recordAt, Option.map_eq_some_iff] at hr
          obtain ⟨_, -, rfl⟩ := hr
          rfl
  | saveApproval approval =>
      rw [program, TaskSession.saveApproval] at hfile ⊢
      exact recordAt_saveRecord rfl hfile table key

/-- The program, where it never fails, is one load and one save. -/
def IsRewrite (p : Store Unit Unit) : Prop :=
  (∀ file, (p.run.exec file).result = .ok ()) →
    p.run = rewrite (fun file => (p.run.exec file).file) (.ok ())

theorem isRewrite_modifyFile
    (f : TaskConversationFile → Except String (TaskConversationFile × Unit)) :
    IsRewrite (modifyFile f) := by
  intro h
  refine congrArg FileProgram.loadFile (funext fun file => ?_)
  have hfile := h file
  simp only [exec_modifyFile] at hfile ⊢
  cases hf : f file with
  | error message =>
      rw [hf] at hfile
      cases hfile
  | ok pair => rfl

theorem isRewrite_guard {c : Prop} [Decidable c] (message : String) {p : Store Unit Unit}
    (hp : IsRewrite p) : IsRewrite (if c then throw message else p) := by
  intro h
  by_cases hc : c
  · have hfail := h {}
    rw [if_pos hc] at hfail
    cases hfail
  · simp only [if_neg hc] at h ⊢
    exact hp h

theorem isRewrite_program (op : SaveOperation) : IsRewrite op.program := by
  cases op with
  | saveForSession session state =>
      exact isRewrite_guard _ (isRewrite_guard _ (isRewrite_modifyFile _))
  | saveShareLinkBundle mediaSession shareLink =>
      exact isRewrite_guard _ (isRewrite_guard _ (isRewrite_guard _ (isRewrite_modifyFile _)))
  | replaceArtifactsForStep taskId stepId artifacts => exact isRewrite_modifyFile _
  | replaceEventsForStep taskId stepId events => exact isRewrite_modifyFile _
  | _ => exact isRewrite_guard _ (isRewrite_modifyFile _)

end Effects

section Clients

open SaveOperation

def clients (ops : Worker → SaveOperation) (file : TaskConversationFile) :
    Config TaskConversationFile Unit (Except String Unit) where
  file := file
  program := fun w => (ops w).program.run
  log := []

def HoldsRecords (file : TaskConversationFile) (op : SaveOperation) : Prop :=
  ∀ record, op.Writes record → StoredIn file record

theorem holdsRecords_exec {op : SaveOperation} (h : op.Accepted)
    (file : TaskConversationFile) :
    HoldsRecords ((op.program : Store Unit Unit).run.exec file).file op := by
  intro record hwrites
  rw [StoredIn, recordAt_exec h, hwrites]
  rfl

theorem holdsRecords_exec_other {op other : SaveOperation} (h : other.Accepted)
    (halone : op.LeavesAlone other) (file : TaskConversationFile) :
    HoldsRecords ((other.program : Store Unit Unit).run.exec file).file op ↔
      HoldsRecords file op := by
  refine forall₂_congr fun record hwrites => ?_
  obtain ⟨hwritten, hdrops⟩ := halone record hwrites
  rw [StoredIn, recordAt_exec h, hwritten, Option.none_or, Option.filter_eq_some_iff]
  simp [StoredIn, hdrops]

/-- Both clients' records are in the final file exactly when the operations do not
overlap, or the file held the records of the first saver from the beginning. -/
theorem holdsRecords_clients_iff (ops : Worker → SaveOperation)
    (hops : ∀ w, (ops w).Accepted) (halone : ∀ w, (ops w).LeavesAlone (ops w.other))
    (file : TaskConversationFile) (schedule : List Worker)
    (hschedule : IsInterleaving schedule) :
    (∀ w, HoldsRecords ((clients ops file).run schedule).file (ops w)) ↔
      Serial schedule ∨ HoldsRecords file (ops (lastSaver schedule).other) := by
  have hclients : clients ops file = rewriters
      (fun w file => (((ops w).program : Store Unit Unit).run.exec file).file) (.ok ())
      file := by
    rw [clients, rewriters]
    exact congrArg (Config.mk file · []) (funext fun w => isRewrite_program (ops w) (hops w))
  have hother := fun w file => holdsRecords_exec_other (hops w.other) (halone w) file
  generalize hlast : lastSaver schedule = last
  have hsplit : ∀ {P : Worker → Prop}, (∀ w, P w) ↔ P last ∧ P last.other := by
    intro P
    refine ⟨fun h => ⟨h last, h last.other⟩, fun h w => ?_⟩
    rcases Worker.eq_or_eq_other w last with rfl | rfl
    · exact h.1
    · exact h.2
  have hback : last.other.other = last := by cases last <;> rfl
  rw [hclients, hsplit]
  rcases rewriters_run_file (ε := Unit)
      (fun w file => (((ops w).program : Store Unit Unit).run.exec file).file)
      (Except.ok () : Except String Unit) file hschedule with ⟨hserial, hfile⟩ | ⟨hserial, hfile⟩
  · rw [hfile, hlast]
    have hfirst := hother last.other (((ops last.other).program : Store Unit Unit).run.exec
      file).file
    rw [hback] at hfirst
    simp only [hserial, true_or, iff_true]
    exact ⟨holdsRecords_exec (hops last) _, hfirst.mpr (holdsRecords_exec (hops last.other) _)⟩
  · rw [hfile, hlast]
    have hfirst := hother last.other file
    rw [hback] at hfirst
    simp only [hserial, false_or, hfirst]
    exact and_iff_right (holdsRecords_exec (hops last) _)

/-- One client saves a task run, the other one an approval ticket. -/
def runAndTicket : Worker → SaveOperation
  | .first => .saveTaskRun { taskId := "task-1" }
  | .second => .saveApproval { approvalId := "approval-1", taskId := "task-2" }

theorem runAndTicket_accepted (w : Worker) : (runAndTicket w).Accepted := by
  cases w <;> exact fun _ => rfl

theorem eq_of_only_eq_some (record : Record) {record' : Record} {table : TableName} {key : String}
    (h : only record table key = some record') : record' = record := by
  unfold only at h
  split at h
  · exact (Option.some.inj h).symm
  · cases h

theorem runAndTicket_leavesAlone (w : Worker) :
    (runAndTicket w).LeavesAlone (runAndTicket w.other) := by
  intro record hwrites
  cases w with
  | first =>
      obtain rfl := eq_of_only_eq_some (.taskRun { taskId := "task-1" }) hwrites
      exact ⟨by decide, by decide⟩
  | second =>
      obtain rfl := eq_of_only_eq_some
        (.approval { approvalId := "approval-1", taskId := "task-2" }) hwrites
      exact ⟨by decide, by decide⟩

/-- One client after the other: both records are there in the end. -/
theorem runAndTicket_serial :
    IsInterleaving [.first, .first, .second, .second] ∧
      ∀ w, HoldsRecords ((clients runAndTicket {}).run [.first, .first, .second, .second]).file
        (runAndTicket w) := by
  have hschedule : IsInterleaving [.first, .first, .second, .second] := by
    intro w
    cases w <;> rfl
  refine ⟨hschedule, ?_⟩
  exact (holdsRecords_clients_iff runAndTicket runAndTicket_accepted runAndTicket_leavesAlone {}
    [.first, .first, .second, .second] hschedule).mpr (Or.inl ⟨.first, rfl⟩)

/-- Both clients load, then both save: the task run is gone although both calls
succeeded. -/
theorem runAndTicket_loses_taskRun :
    IsInterleaving [.first, .second, .first, .second] ∧
      (∀ w, (runAndTicket w).Accepted ∧ (runAndTicket w).LeavesAlone (runAndTicket w.other)) ∧
      recordAt ((clients runAndTicket {}).run [.first, .second, .first, .second]).file
        .taskRuns "task-1" = none ∧
      ¬ ∀ w, HoldsRecords
        ((clients runAndTicket {}).run [.first, .second, .first, .second]).file
        (runAndTicket w) := by
  have hgone : recordAt ((clients runAndTicket {}).run
      [.first, .second, .first, .second]).file .taskRuns "task-1" = none := by decide
  refine ⟨by intro w; cases w <;> rfl,
    fun w => ⟨runAndTicket_accepted w, runAndTicket_leavesAlone w⟩, hgone, fun h => ?_⟩
  have hstored := h .first (.taskRun { taskId := "task-1" }) rfl
  exact absurd (hgone.symm.trans hstored) (by decide)

end Clients

end HarborBeacon.LostUpdate
