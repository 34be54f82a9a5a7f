import HarborBeacon.ControlPlane
import HarborBeacon.ConversationState
import HarborBeacon.FileProgram
import HarborBeacon.Table

/-!
The conversation store: ten tables in one JSON file. Every operation loads the whole
file, works on the loaded tables, and those that change something write the whole file
back.
-/

namespace HarborBeacon.TaskSession

open ControlPlane ConversationState Json Text

structure TaskConversationFile where
  conversations : Table TaskConversationState := ∅
  sessions : Table ConversationSession := ∅
  taskRuns : Table TaskRun := ∅
  taskSteps : Table TaskStepRun := ∅
  artifacts : Table ArtifactRecord := ∅
  mediaAssets : Table MediaAsset := ∅
  approvals : Table ApprovalTicket := ∅
  events : Table EventRecord := ∅
  mediaSessions : Table MediaSession := ∅
  shareLinks : Table ShareLink := ∅

abbrev Store (ε : Type) := ExceptT String (FileProgram TaskConversationFile ε)

variable {ε : Type} {message : String}

def inspectFile {α : Type} (f : TaskConversationFile → α) : Store ε α :=
  ExceptT.mk (FileProgram.read fun file => .ok (f file))

def modifyFile {α : Type} (f : TaskConversationFile → Except String (TaskConversationFile × α)) :
    Store ε α :=
  ExceptT.mk (FileProgram.update f)

@[simp] theorem exec_inspectFile {α : Type} (f : TaskConversationFile → α)
    (file : TaskConversationFile) :
    (inspectFile f : Store ε α).run.exec file = ⟨file, [], .ok (f file)⟩ := rfl

theorem exec_modifyFile {α : Type}
    (f : TaskConversationFile → Except String (TaskConversationFile × α))
    (file : TaskConversationFile) :
    (modifyFile f : Store ε α).run.exec file =
      match f file with
      | .ok (file', a) => ⟨file', [], .ok a⟩
      | .error message => ⟨file, [], .error message⟩ := by
  rw [modifyFile, ExceptT.run_mk, FileProgram.exec_update]
  cases f file <;> rfl

def saveRecord (id message : String) (put : TaskConversationFile → TaskConversationFile) :
    Store ε Unit :=
  if isBlank id then throw message
  else modifyFile fun file => .ok (put file, ())

theorem exec_saveRecord (id message : String) (put : TaskConversationFile → TaskConversationFile)
    (file : TaskConversationFile) :
    (saveRecord id message put : Store ε Unit).run.exec file =
      ⟨if isBlank id then file else put file, [],
        if isBlank id then .error message else .ok ()⟩ := by
  unfold saveRecord
  split
  · rfl
  · rfl

def stampLe (left right : Option String × String) : Bool :=
  if left.1 = right.1 then decide (left.2 ≤ right.2)
  else
    match left.1, right.1 with
    | none, _ => true
    | some _, none => false
    | some a, some b => decide (a ≤ b)

/-- `sort_by` on a time and an id. -/
def sortByStamp {α : Type} (stamp : α → Option String × String) (items : List α) : List α :=
  items.insertionSort fun left right => stampLe (stamp left) (stamp right)

theorem stampLe_total (left right : Option String × String) :
    stampLe left right = true ∨ stampLe right left = true := by
  simp only [stampLe]
  grind

theorem stampLe_antisymm {left right : Option String × String}
    (h : stampLe left right = true) (h' : stampLe right left = true) : left = right := by
  simp only [stampLe] at h h'
  grind

theorem stampLe_trans {left middle right : Option String × String}
    (h : stampLe left middle = true) (h' : stampLe middle right = true) :
    stampLe left right = true := by
  simp only [stampLe] at h h' ⊢
  grind

instance {α : Type} (stamp : α → Option String × String) :
    Std.Total fun left right => stampLe (stamp left) (stamp right) = true :=
  ⟨fun _ _ => stampLe_total _ _⟩

instance {α : Type} (stamp : α → Option String × String) :
    IsTrans α fun left right => stampLe (stamp left) (stamp right) = true :=
  ⟨fun _ _ _ => stampLe_trans⟩

theorem filter_sortByStamp_values {α : Type} {idOf : α → String} {t : Table α}
    (h : t.KeyedBy idOf) {stamp : α → Option String × String}
    (hstamp : ∀ a, (stamp a).2 = idOf a) {p q : α → Bool} {records : List α}
    (hnodup : (records.map idOf).Nodup)
    (hmem : ∀ a, a ∈ records ↔ t.lookup (idOf a) = some a ∧ p a = true ∧ q a = true) :
    (sortByStamp stamp (t.values.filter p)).filter q = sortByStamp stamp records := by
  refine Table.filter_insertionSort_values _ h hnodup hmem fun a b hab hba => ?_
  rw [← hstamp a, ← hstamp b, stampLe_antisymm hab hba]

theorem pairwise_sortByStamp {α : Type} (stamp : α → Option String × String)
    (items : List α) : (sortByStamp stamp items).Pairwise fun left right =>
      stampLe (stamp left) (stamp right) = true :=
  List.pairwise_insertionSort _ items

/-- The JSON form in which a session holds its conversation state. -/
structure TaskSessionStateEnvelope where
  schemaVersion : Nat
  «namespace» : String
  flowType : String
  flowState : Value
deriving DecidableEq

def defaultTaskSessionSchemaVersion : Nat := 1

def defaultTaskSessionNamespace : String := "task_api"

def defaultTaskSessionFlowType : String := "camera_onboarding"

def TaskSessionStateEnvelope.encode (envelope : TaskSessionStateEnvelope) : Value :=
  obj
    [("schema_version", .number (.unsigned (UInt64.ofNat envelope.schemaVersion))),
     ("namespace", .string envelope.namespace),
     ("flow_type", .string envelope.flowType),
     ("flow_state", envelope.flowState)]

def TaskSessionStateEnvelope.decode (v : Value) : Option TaskSessionStateEnvelope := do
  let field ← structFields 4 v
  let schemaVersion ←
    orDefault (field 0 "schema_version") (decodeUnsigned 32) defaultTaskSessionSchemaVersion
  let «namespace» ← orDefault (field 1 "namespace") decodeString defaultTaskSessionNamespace
  let flowType ← orDefault (field 2 "flow_type") decodeString defaultTaskSessionFlowType
  let flowState ← orDefault (field 3 "flow_state") some .null
  return { schemaVersion, «namespace», flowType, flowState }

def matchesSession (key : String) (session : ConversationSession) : Bool :=
  nonEmptyString (some session.conversationId) = some key ||
    nonEmptyString (some session.sessionId) = some key ||
    nonEmptyString (some session.userId) = some key

def removeKey : Value → Value
  | .object fields => .object (removeField "key" fields)
  | v => v

def envelopeFromConversationState (state : TaskConversationState)
    (session : Option ConversationSession) : Except String TaskSessionStateEnvelope := do
  let storedState := state.persisted
  let flowState ← storedState.encode.mapError fun error =>
    "failed to serialize Task conversation flow state: " ++ error
  let flowState :=
    if isBlank storedState.key then removeKey flowState
    else
      match session with
      | some session =>
          if matchesSession storedState.key session then removeKey flowState else flowState
      | none => flowState
  return {
    schemaVersion := defaultTaskSessionSchemaVersion
    «namespace» := defaultTaskSessionNamespace
    flowType := defaultTaskSessionFlowType
    flowState }

def backfillConversationKey (state : TaskConversationState) (session : ConversationSession)
    (keyHint : Option String) : TaskConversationState :=
  if isBlank state.key then
    { state with
      key := ((((nonEmptyString keyHint).or
        (nonEmptyString (some session.conversationId))).or
        (nonEmptyString (some session.sessionId))).or
        (nonEmptyString (some session.userId))).getD "" }
  else state

def conversationStateFromSession (session : ConversationSession) (keyHint : Option String) :
    Option TaskConversationState :=
  let finish (state : TaskConversationState) :=
    (backfillConversationKey state session keyHint).normalize
  if session.state = .null then none
  else
    let enveloped : Option TaskConversationState := do
      let envelope ← TaskSessionStateEnvelope.decode session.state
      if envelope.flowState = .null then none
      else TaskConversationState.decode envelope.flowState
    match enveloped with
    | some state => some (finish state)
    | none => (TaskConversationState.decode session.state).map finish

def load (key : String) : Store ε TaskConversationState :=
  inspectFile fun file =>
    ((file.conversations.lookup key).getD { key := key }).normalize

def save (state : TaskConversationState) : Store ε Unit :=
  saveRecord state.key "conversation key 不能为空" fun file =>
    let storedState := state.persisted
    { file with conversations := file.conversations.insert storedState.key storedState }

def clear (key : String) : Store ε Unit :=
  modifyFile fun file => .ok ({ file with conversations := file.conversations.erase key }, ())

def loadForSession (sessionId : String) (keyHint : Option String) :
    Store ε (Option TaskConversationState) :=
  inspectFile fun file =>
    match (file.sessions.lookup sessionId).bind (conversationStateFromSession · keyHint) with
    | some state => some state
    | none =>
        (nonEmptyString keyHint).bind fun key =>
          (file.conversations.lookup key).map fun state =>
            (if isBlank state.key then { state with key := key } else state).normalize

def saveForSession (session : ConversationSession) (state : TaskConversationState) :
    Store ε Unit :=
  if isBlank session.sessionId then throw "session_id 不能为空"
  else if isBlank state.key then throw "conversation key 不能为空"
  else modifyFile fun file => do
    let storedState := state.persisted
    let envelope ← envelopeFromConversationState storedState (some session)
    let session := { session with state := envelope.encode }
    return ({ file with
      sessions := file.sessions.insert session.sessionId session
      conversations := file.conversations.insert storedState.key storedState }, ())

def clearForSession (sessionId : String) (keyHint : Option String) : Store ε Unit :=
  modifyFile fun file =>
    let sessions :=
      match file.sessions.lookup sessionId with
      | some session =>
          file.sessions.insert sessionId { session with state := .null, resumeToken := none }
      | none => file.sessions
    let conversations :=
      match nonEmptyString keyHint with
      | some key => file.conversations.erase key
      | none => file.conversations
    .ok ({ file with sessions := sessions, conversations := conversations }, ())

def loadSession (sessionId : String) : Store ε (Option ConversationSession) :=
  inspectFile fun file => file.sessions.lookup sessionId

def saveSession (session : ConversationSession) : Store ε Unit :=
  saveRecord session.sessionId "session_id 不能为空" fun file =>
    { file with sessions := file.sessions.insert session.sessionId session }

def stampMax (a b : Option String) : Option String :=
  if stampLe (a, "") (b, "") then b else a

def latestStart (file : TaskConversationFile) (session : ConversationSession) : Option String :=
  ((file.taskRuns.values.filter fun run => run.sessionId = session.sessionId).map
    (·.startedAt)).foldl stampMax none

def sessionsForUserSurface (userId surface : String) : Store ε (List ConversationSession) :=
  inspectFile fun file =>
    (file.sessions.values.filter fun session =>
      session.userId = userId ∧ session.surface = surface).insertionSort
      fun left right =>
        stampLe (latestStart file right, right.sessionId) (latestStart file left, left.sessionId)

def sessionTaskIds (file : TaskConversationFile) (sessionId : String) : List String :=
  (file.taskRuns.values.filter fun run => run.sessionId = sessionId).map (·.taskId)

def taskStepIds (file : TaskConversationFile) (taskIds : List String) : List String :=
  (file.taskSteps.values.filter fun step => step.taskId ∈ taskIds).map (·.stepId)

def eventMentions (taskIds stepIds : List String) (event : EventRecord) : Bool :=
  let named (id : String) := id ∈ taskIds ∨ id ∈ stepIds
  named event.sourceId ∨ (∃ id ∈ event.correlationId, named id) ∨
    ∃ id ∈ event.causationId, named id

def removeSession (file : TaskConversationFile) (sessionId : String) : TaskConversationFile :=
  let taskIds := sessionTaskIds file sessionId
  let stepIds := taskStepIds file taskIds
  { file with
    sessions := file.sessions.erase sessionId
    taskRuns := file.taskRuns.retain fun taskId _ => taskId ∉ taskIds
    taskSteps := file.taskSteps.retain fun stepId _ => stepId ∉ stepIds
    artifacts := file.artifacts.retain fun _ artifact => artifact.taskId ∉ taskIds
    events := file.events.retain fun _ event => !eventMentions taskIds stepIds event }

def deleteSessionWithTasks (sessionId : String) : Store ε Bool :=
  if isBlank sessionId then pure false
  else ExceptT.mk (FileProgram.loadFile fun file =>
    if (file.sessions.lookup sessionId).isNone then FileProgram.done (.ok false)
    else FileProgram.saveFile (removeSession file sessionId) (FileProgram.done (.ok true)))

def deleteSessions : List ConversationSession → Store ε (List String)
  | [] => pure []
  | session :: rest => do
      let deleted ← deleteSessionWithTasks session.sessionId
      let removed ← deleteSessions rest
      return if deleted then session.sessionId :: removed else removed

def pruneSessionsForUserSurface (userId surface : String) (limit : Nat) :
    Store ε (List String) := do
  let sessions ← sessionsForUserSurface userId surface
  deleteSessions (sessions.drop (max limit 1))

def loadTaskRun (taskId : String) : Store ε (Option TaskRun) :=
  inspectFile fun file => file.taskRuns.lookup taskId

def saveTaskRun (taskRun : TaskRun) : Store ε Unit :=
  saveRecord taskRun.taskId "task_id 不能为空" fun file =>
    { file with taskRuns := file.taskRuns.insert taskRun.taskId taskRun }

def loadTaskStep (stepId : String) : Store ε (Option TaskStepRun) :=
  inspectFile fun file => file.taskSteps.lookup stepId

def saveTaskStep (taskStep : TaskStepRun) : Store ε Unit :=
  saveRecord taskStep.stepId "step_id 不能为空" fun file =>
    { file with taskSteps := file.taskSteps.insert taskStep.stepId taskStep }

def artifactsForTask (taskId : String) : Store ε (List ArtifactRecord) :=
  inspectFile fun file =>
    (file.artifacts.values.filter fun artifact => artifact.taskId = taskId).insertionSort
      fun left right => left.artifactId ≤ right.artifactId

def insertAll {α : Type} (idOf : α → String) (message : String) :
    List α → Table α → Except String (Table α)
  | [], table => .ok table
  | record :: rest, table =>
      if isBlank (idOf record) then .error message
      else insertAll idOf message rest (table.insert (idOf record) record)

theorem lookup_insertAll {α : Type} {idOf : α → String} {records : List α} {table table' : Table α}
    (key : String) (h : insertAll idOf message records table = .ok table') :
    table'.lookup key =
      (records.findRev? fun record => idOf record = key).or (table.lookup key) := by
  induction records generalizing table with
  | nil =>
      cases h
      rfl
  | cons record rest ih =>
      rw [insertAll] at h
      split at h
      · cases h
      · rw [ih h, Table.lookup_insert_eq_ite, List.findRev?]
        by_cases hkey : idOf record = key
        · cases List.findRev? (fun record => decide (idOf record = key)) rest <;>
            simp [hkey]
        · cases List.findRev? (fun record => decide (idOf record = key)) rest <;>
            simp [hkey, Ne.symm hkey]

theorem mem_of_replaced {α : Type} {idOf : α → String} {records : List α} (stale : α → Bool)
    {table table' : Table α}
    (h : insertAll idOf message records (table.retain fun _ record => !stale record) =
      .ok table') {key : String} {record : α} (hrecord : table'.lookup key = some record)
    (hstale : stale record = true) : record ∈ records := by
  rw [lookup_insertAll key h, Option.or_eq_some_iff] at hrecord
  rcases hrecord with hnew | ⟨-, hold⟩
  · rw [List.findRev?_eq_find?_reverse] at hnew
    exact List.mem_reverse.mp (List.mem_of_find?_eq_some hnew)
  · rw [Table.lookup_retain, Option.filter_eq_some_iff, hstale] at hold
    cases hold.2

theorem findRev?_of_mem {α : Type} {idOf : α → String} {records : List α}
    (hnodup : (records.map idOf).Nodup) {record : α} (hmem : record ∈ records) :
    records.findRev? (fun other => idOf other = idOf record) = some record := by
  rw [List.findRev?_eq_find?_reverse]
  have hsome : (records.reverse.find? fun other => idOf other = idOf record).isSome := by
    rw [List.find?_isSome]
    exact ⟨record, List.mem_reverse.mpr hmem, by simp⟩
  obtain ⟨other, hother⟩ := Option.isSome_iff_exists.mp hsome
  have hid : idOf other = idOf record := by simpa using List.find?_some hother
  have hother' : other ∈ records := List.mem_reverse.mp (List.mem_of_find?_eq_some hother)
  rw [hother, List.inj_on_of_nodup_map hnodup hother' hmem hid]

theorem lookup_of_mem_replaced {α : Type} {idOf : α → String} {records : List α}
    {table table' : Table α} (h : insertAll idOf message records table = .ok table')
    (hnodup : (records.map idOf).Nodup) {record : α} (hmem : record ∈ records) :
    table'.lookup (idOf record) = some record := by
  rw [lookup_insertAll _ h, findRev?_of_mem hnodup hmem]
  rfl

theorem insertAll_isOk {α : Type} {idOf : α → String} (message : String) {records : List α}
    (h : ∀ record ∈ records, isBlank (idOf record) = false) (table : Table α) :
    ∃ table', insertAll idOf message records table = .ok table' := by
  induction records generalizing table with
  | nil => exact ⟨table, rfl⟩
  | cons record rest ih =>
      rw [insertAll, h record List.mem_cons_self]
      exact ih (fun other hmem => h other (List.mem_cons_of_mem _ hmem)) _

theorem notBlank_of_insertAll {α : Type} {idOf : α → String} {records : List α}
    {table table' : Table α} (h : insertAll idOf message records table = .ok table') :
    ∀ record ∈ records, isBlank (idOf record) = false := by
  induction records generalizing table with
  | nil => exact nofun
  | cons record rest ih =>
      rw [insertAll] at h
      split at h
      · cases h
      · rename_i hblank
        intro other hmem
        rcases List.mem_cons.mp hmem with rfl | hmem
        · simpa using hblank
        · exact ih h other hmem

theorem keyedBy_insertAll {α : Type} {idOf : α → String} {records : List α} {table table' : Table α}
    (hkeyed : table.KeyedBy idOf) (h : insertAll idOf message records table = .ok table') :
    table'.KeyedBy idOf := by
  induction records generalizing table with
  | nil =>
      cases h
      exact hkeyed
  | cons record rest ih =>
      rw [insertAll] at h
      split at h
      · cases h
      · exact ih (hkeyed.insert _ record rfl) h

def replaceRecords {α : Type} (tableOf : TaskConversationFile → Table α)
    (put : TaskConversationFile → Table α → TaskConversationFile) (stale : α → Bool)
    (idOf : α → String) (message : String) (records : List α) : Store ε Unit :=
  modifyFile fun file => do
    let table ← insertAll idOf message records
      ((tableOf file).retain fun _ record => !stale record)
    return (put file table, ())

theorem exec_replaceRecords {α : Type} (tableOf : TaskConversationFile → Table α)
    (put : TaskConversationFile → Table α → TaskConversationFile) (stale : α → Bool)
    (idOf : α → String) (message : String) (records : List α) (file : TaskConversationFile) :
    (replaceRecords tableOf put stale idOf message records : Store ε Unit).run.exec file =
      match insertAll idOf message records
          ((tableOf file).retain fun _ record => !stale record) with
      | .ok table => ⟨put file table, [], .ok ()⟩
      | .error message => ⟨file, [], .error message⟩ := by
  rw [replaceRecords, exec_modifyFile]
  cases insertAll idOf message records
    ((tableOf file).retain fun _ record => !stale record) <;> rfl

def replaceArtifactsForStep (taskId : String) (stepId : Option String)
    (artifacts : List ArtifactRecord) : Store ε Unit :=
  replaceRecords (·.artifacts) (fun file table => { file with artifacts := table })
    (fun artifact => artifact.taskId = taskId ∧ artifact.stepId = stepId)
    (·.artifactId) "artifact_id 不能为空" artifacts

def eventsForTask (taskId : String) : Store ε (List EventRecord) :=
  inspectFile fun file =>
    sortByStamp (fun event => (event.occurredAt, event.eventId))
      (file.events.values.filter fun event => event.sourceId = taskId)

def replaceEventsForStep (taskId : String) (stepId : Option String)
    (events : List EventRecord) : Store ε Unit :=
  replaceRecords (·.events) (fun file table => { file with events := table })
    (fun event => event.sourceId = taskId ∧ event.causationId = stepId)
    (·.eventId) "event_id 不能为空" events

def saveMediaAsset (mediaAsset : MediaAsset) : Store ε Unit :=
  saveRecord mediaAsset.assetId "asset_id 不能为空" fun file =>
    { file with mediaAssets := file.mediaAssets.insert mediaAsset.assetId mediaAsset }

def saveMediaSession (mediaSession : MediaSession) : Store ε Unit :=
  saveRecord mediaSession.mediaSessionId "media_session_id 不能为空" fun file =>
    { file with
      mediaSessions := file.mediaSessions.insert mediaSession.mediaSessionId mediaSession }

def updateRecord {α : Type} (lookup : TaskConversationFile → Option α) (change : α → α)
    (put : TaskConversationFile → α → TaskConversationFile) : Store ε (Option α) :=
  ExceptT.mk (FileProgram.loadFile fun file =>
    match lookup file with
    | none => FileProgram.done (.ok none)
    | some record =>
        FileProgram.saveFile (put file (change record))
          (FileProgram.done (.ok (some (change record)))))

def closeMediaSession (mediaSessionId : String) (endedAt : Option String) :
    Store ε (Option MediaSession) :=
  updateRecord (·.mediaSessions.lookup mediaSessionId)
    (fun mediaSession =>
      { mediaSession with status := .closed, endedAt := endedAt.or mediaSession.endedAt })
    fun file mediaSession =>
      { file with mediaSessions := file.mediaSessions.insert mediaSessionId mediaSession }

def saveShareLink (shareLink : ShareLink) : Store ε Unit :=
  saveRecord shareLink.shareLinkId "share_link_id 不能为空" fun file =>
    { file with shareLinks := file.shareLinks.insert shareLink.shareLinkId shareLink }

def saveShareLinkBundle (mediaSession : MediaSession) (shareLink : ShareLink) :
    Store ε Unit :=
  if isBlank mediaSession.mediaSessionId then throw "media_session_id 不能为空"
  else if isBlank shareLink.shareLinkId then throw "share_link_id 不能为空"
  else if shareLink.mediaSessionId ≠ mediaSession.mediaSessionId then
    throw "share_link.media_session_id 必须匹配 media_session_id"
  else modifyFile fun file =>
    .ok ({ file with
      mediaSessions := file.mediaSessions.insert mediaSession.mediaSessionId mediaSession
      shareLinks := file.shareLinks.insert shareLink.shareLinkId shareLink }, ())

def findShareLinkByTokenHash (tokenHash : String) : Store ε (Option ShareLink) :=
  inspectFile fun file => file.shareLinks.values.find? fun link => link.tokenHash = tokenHash

def revokeShareLink (shareLinkId : String) (revokedAt : Option String) :
    Store ε (Option ShareLink) :=
  updateRecord (·.shareLinks.lookup shareLinkId)
    (fun shareLink => { shareLink with revokedAt := revokedAt.or shareLink.revokedAt })
    fun file shareLink =>
      { file with shareLinks := file.shareLinks.insert shareLinkId shareLink }

def approvalStamp (approval : ApprovalTicket) : Option String × String :=
  (approval.requestedAt, approval.approvalId)

def approvalsForTask (taskId : String) : Store ε (List ApprovalTicket) :=
  inspectFile fun file =>
    sortByStamp approvalStamp
      (file.approvals.values.filter fun approval => approval.taskId = taskId)

def pendingApprovals : Store ε (List ApprovalTicket) :=
  inspectFile fun file =>
    sortByStamp approvalStamp
      (file.approvals.values.filter fun approval => approval.status = .pending)

def loadApproval (approvalId : String) : Store ε (Option ApprovalTicket) :=
  inspectFile fun file => file.approvals.lookup approvalId

def saveApproval (approval : ApprovalTicket) : Store ε Unit :=
  saveRecord approval.approvalId "approval_id 不能为空" fun file =>
    { file with approvals := file.approvals.insert approval.approvalId approval }

def ApprovalTicket.decide (status : ApprovalStatus) (approverUserId decidedAt : Option String)
    (approval : ApprovalTicket) : ApprovalTicket :=
  { approval with
    status := status
    approverUserId := approverUserId.or approval.approverUserId
    decidedAt := decidedAt.or approval.decidedAt }

def isPendingFor (taskId : String) (approval : ApprovalTicket) : Bool :=
  approval.taskId = taskId ∧ approval.status = .pending

def resolvePendingApprovals (taskId : String) (approverUserId decidedAt : Option String) :
    Store ε (List ApprovalTicket) :=
  modifyFile fun file =>
    let decide := ApprovalTicket.decide .approved approverUserId decidedAt
    .ok ({ file with
      approvals := file.approvals.mapValues fun _ approval =>
        if isPendingFor taskId approval then decide approval else approval },
      (file.approvals.values.filter (isPendingFor taskId)).map decide)

def updateApprovalStatus (approvalId : String) (status : ApprovalStatus)
    (approverUserId decidedAt : Option String) : Store ε (Option ApprovalTicket) :=
  updateRecord (·.approvals.lookup approvalId)
    (ApprovalTicket.decide status approverUserId decidedAt)
    fun file approval =>
      { file with approvals := file.approvals.insert approvalId approval }

section Frames

open FileProgram

variable {α γ : Type} {f : TaskConversationFile → γ}

theorem keeps_inspectFile (f : TaskConversationFile → γ) (g : TaskConversationFile → α) :
    Keeps f (inspectFile g : Store ε α).run :=
  keeps_read f _

theorem keeps_modifyFile {g : TaskConversationFile → Except String (TaskConversationFile × α)}
    (h : ∀ file file' a, g file = .ok (file', a) → f file' = f file) :
    Keeps f (modifyFile g : Store ε α).run :=
  keeps_update h

theorem keeps_saveRecord {id message : String}
    {put : TaskConversationFile → TaskConversationFile} (h : ∀ file, f (put file) = f file) :
    Keeps f (saveRecord id message put : Store ε Unit).run := by
  unfold saveRecord
  split
  · exact keeps_run_throw f message
  · refine keeps_modifyFile fun file file' a heq => ?_
    cases heq
    exact h file

theorem keeps_replaceRecords {tableOf : TaskConversationFile → Table α}
    {put : TaskConversationFile → Table α → TaskConversationFile} {stale : α → Bool}
    {idOf : α → String} {message : String} {records : List α}
    (h : ∀ file table, f (put file table) = f file) :
    Keeps f (replaceRecords tableOf put stale idOf message records : Store ε Unit).run := by
  intro file
  rw [exec_replaceRecords]
  split
  · exact ⟨h file _, rfl⟩
  · exact ⟨rfl, rfl⟩

theorem keeps_saveForSession {session : ConversationSession} {state : TaskConversationState}
    (h : ∀ file sessions conversations,
      f { file with sessions := sessions, conversations := conversations } = f file) :
    Keeps f (saveForSession session state : Store ε Unit).run := by
  unfold saveForSession
  split
  · exact keeps_run_throw f _
  split
  · exact keeps_run_throw f _
  refine keeps_modifyFile fun file file' a heq => ?_
  cases henvelope : envelopeFromConversationState state.persisted (some session) with
  | error message =>
      simp only [henvelope] at heq
      cases heq
  | ok envelope =>
      simp only [henvelope] at heq
      cases heq
      exact h file _ _

theorem keeps_saveShareLinkBundle {mediaSession : MediaSession} {shareLink : ShareLink}
    (h : ∀ file mediaSessions shareLinks,
      f { file with mediaSessions := mediaSessions, shareLinks := shareLinks } = f file) :
    Keeps f (saveShareLinkBundle mediaSession shareLink : Store ε Unit).run := by
  unfold saveShareLinkBundle
  split
  · exact keeps_run_throw f _
  split
  · exact keeps_run_throw f _
  split
  · exact keeps_run_throw f _
  refine keeps_modifyFile fun file file' a heq => ?_
  cases heq
  exact h file _ _

end Frames

end HarborBeacon.TaskSession
