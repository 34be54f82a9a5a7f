import HarborBeacon.ApprovalLedger
import HarborBeacon.Replay

/-!
The idempotency check. A request is recognised by its identity, which covers its
arguments and entities and with them the approval token; so a retry is replayed, and the
same task id with an added token is another request.
-/

namespace HarborBeacon.Idempotency

open ApprovalLedger ControlPlane FileProgram Json Json.Value Replay ServiceSteps StoreInvariant
open TaskApi TaskContract TaskSession TaskTracking Text

theorem lookupField_normalized (key : String) (fields : Fields) :
    lookupField key (normalizedContractFields fields) =
      (lookupField key fields).map normalizedContractValue := by
  induction fields with
  | nil => rfl
  | cons field rest ih =>
      obtain ⟨k, v⟩ := field
      simp only [normalizedContractFields, lookupField]
      split
      · rfl
      · exact ih

theorem getElem?_normalized (items : List Value) (i : Nat) :
    (normalizedContractItems items)[i]? = items[i]?.map normalizedContractValue := by
  induction items generalizing i with
  | nil => rfl
  | cons item rest ih =>
      cases i with
      | zero => rfl
      | succ i => exact ih i

theorem pointer_normalized (path : List String) (v : Value) :
    (normalizedContractValue v).pointer path =
      (v.pointer path).map normalizedContractValue := by
  induction path generalizing v with
  | nil => rfl
  | cons token rest ih =>
      cases v with
      | null => rfl
      | bool b => rfl
      | number n => rfl
      | string s => rfl
      | array items =>
          simp only [normalizedContractValue, Value.pointer]
          cases parseIndex token with
          | none => rfl
          | some i =>
              simp only [Option.bind_some, getElem?_normalized]
              cases items[i]? with
              | none => rfl
              | some item => exact ih item
      | object fields =>
          simp only [normalizedContractValue, Value.pointer, lookupField_normalized]
          cases lookupField token fields with
          | none => rfl
          | some item => exact ih item

theorem asStr_normalized (v : Value) :
    (normalizedContractValue v).asStr = v.asStr.map trim := by
  cases v <;> rfl

theorem stringAtPaths_normalized (v : Value) (paths : List (List String)) :
    stringAtPaths (normalizedContractValue v) paths = stringAtPaths v paths := by
  have htext : ∀ path, (((normalizedContractValue v).pointer path).bind asStr).map trim =
      ((v.pointer path).bind asStr).map trim := by
    intro path
    rw [pointer_normalized]
    cases v.pointer path with
    | none => rfl
    | some item =>
        rw [Option.map_some, Option.bind_some, Option.bind_some, asStr_normalized]
        cases item.asStr with
        | none => rfl
        | some text => exact congrArg some (trim_trim text)
  simp only [stringAtPaths, htext]

theorem requestApprovalToken_eq_of_identity {request request' : TaskRequest}
    (h : taskRequestIdentity request = taskRequestIdentity request') :
    requestApprovalToken request = requestApprovalToken request' := by
  have hargs : normalizedContractValue request.args = normalizedContractValue request'.args := by
    have hpointer := congrArg (Value.pointer ["args"]) h
    simpa [taskRequestIdentity, obj] using hpointer
  have hrefs : normalizedContractValue request.entityRefs =
      normalizedContractValue request'.entityRefs := by
    have hpointer := congrArg (Value.pointer ["entity_refs"]) h
    simpa [taskRequestIdentity, obj] using hpointer
  simp only [requestApprovalToken, firstString, List.findSome?]
  rw [← stringAtPaths_normalized request.args, ← stringAtPaths_normalized request'.args,
    ← stringAtPaths_normalized request.entityRefs,
    ← stringAtPaths_normalized request'.entityRefs, hargs, hrefs]

variable {request : TaskRequest} {file : TaskConversationFile}

theorem persistedTaskRequestIdentity_of_metadata {taskRun : TaskRun} {stepId : String}
    (h : taskRun.metadata = buildTaskRunMetadata request stepId) :
    persistedTaskRequestIdentity taskRun = taskRequestIdentity request := by
  have hpointer : taskRun.metadata.pointer ["request_identity"] =
      some (taskRequestIdentity request) := by
    rw [h]
    simp [buildTaskRunMetadata, obj]
  simp only [persistedTaskRequestIdentity, hpointer]

def HoldsIdentity (request : TaskRequest) (taskRuns : Table TaskRun) : Prop :=
  ∃ taskRun, taskRuns.lookup request.taskId = some taskRun ∧
    persistedTaskRequestIdentity taskRun = taskRequestIdentity request

def conflictMessage : String :=
  "task_id already exists with a different request identity"

theorem acceptOrReplayTask_of_run (hid : isBlank request.taskId = false) {taskRun : TaskRun}
    (hrun : file.taskRuns.lookup request.taskId = some taskRun) :
    ((acceptOrReplayTask request : Store ApiEvent _).run.exec file).result =
      if persistedTaskRequestIdentity taskRun ≠ taskRequestIdentity request then
        .ok (.conflict conflictMessage)
      else .ok (.replay (replayedResponse file taskRun)) := by
  have hload : (loadTaskRun request.taskId : Store ApiEvent _).run.exec file =
      ⟨file, [], .ok (some taskRun)⟩ := by
    rw [← hrun]
    rfl
  simp only [acceptOrReplayTask, hid, Bool.false_eq_true, if_false]
  rw [exec_run_bind_of_ok hload]
  dsimp only
  split
  · rfl
  · rw [exec_run_bind_of_ok (exec_replayTaskResponse taskRun file)]
    rfl

theorem acceptOrReplayTask_replay (hid : isBlank request.taskId = false)
    (h : HoldsIdentity request file.taskRuns) :
    ∃ response, ((acceptOrReplayTask request : Store ApiEvent _).run.exec file).result =
      .ok (.replay response) := by
  obtain ⟨taskRun, hrun, hidentity⟩ := h
  refine ⟨replayedResponse file taskRun, ?_⟩
  rw [acceptOrReplayTask_of_run hid hrun, if_neg (not_not.mpr hidentity)]

theorem acceptOrReplayTask_conflict {request request' : TaskRequest}
    (hid : isBlank request.taskId = false) (htask : request'.taskId = request.taskId)
    (htoken : requestApprovalToken request' ≠ requestApprovalToken request)
    (h : HoldsIdentity request file.taskRuns) :
    ((acceptOrReplayTask request' : Store ApiEvent _).run.exec file).result =
      .ok (.conflict conflictMessage) := by
  obtain ⟨taskRun, hrun, hidentity⟩ := h
  rw [← htask] at hid hrun
  rw [acceptOrReplayTask_of_run hid hrun, if_pos]
  rw [hidentity]
  intro hsame
  exact htoken (requestApprovalToken_eq_of_identity hsame.symm)

theorem acceptOrReplayTask_ne_accept {request request' : TaskRequest}
    (hid : isBlank request.taskId = false) (htask : request'.taskId = request.taskId)
    (h : HoldsIdentity request file.taskRuns) :
    ((acceptOrReplayTask request' : Store ApiEvent _).run.exec file).result ≠ .ok .accept := by
  obtain ⟨taskRun, hrun, -⟩ := h
  rw [← htask] at hid hrun
  rw [acceptOrReplayTask_of_run hid hrun]
  split
  · nofun
  · nofun

theorem taskRequestIdentity_prepareRequest (request : TaskRequest) (taskId : Uuid) :
    taskRequestIdentity (prepareRequest request taskId) = taskRequestIdentity request := by
  simp only [prepareRequest]
  split_ifs <;> rfl

theorem taskId_prepareRequest (hid : isBlank request.taskId = false) (taskId : Uuid) :
    (prepareRequest request taskId).taskId = request.taskId := by
  simp only [prepareRequest, hid, Bool.false_eq_true, if_false]
  split
  · rfl
  · rfl

theorem holdsIdentity_handleTask (hkeyed : Keyed file) (handlers : TaskHandlers) (draws : TaskDraws)
    (hid : isBlank request.taskId = false) :
    HoldsIdentity request ((handleTask handlers draws request).exec file).file.taskRuns := by
  have hrun := handlePrepared_taskRuns hkeyed handlers draws
    (isBlank_prepareRequest request draws.taskId) request.taskId
  rw [taskId_prepareRequest hid, if_pos rfl] at hrun
  refine ⟨_, hrun, ?_⟩
  rw [← taskRequestIdentity_prepareRequest request draws.taskId]
  exact persistedTaskRequestIdentity_of_metadata rfl

def Call.Spares (taskId : String) : Call → Prop
  | .handleTask _ draws request => (prepareRequest request draws.taskId).taskId ≠ taskId
  | .rejectPendingApproval _ _ _ => True
  | _ => False

theorem holdsIdentity_of_rejectedRuns {draws : DecisionDraws} {taskRuns taskRuns' : Table TaskRun}
    (hruns : RejectedRuns draws taskRuns taskRuns') (h : HoldsIdentity request taskRuns) :
    HoldsIdentity request taskRuns' := by
  obtain ⟨taskRun, hrun, hidentity⟩ := h
  rcases hruns with rfl | ⟨rejected, hrejected, rfl⟩
  · exact ⟨taskRun, hrun, hidentity⟩
  by_cases hsame : request.taskId = rejected.taskId
  · rw [hsame, hrejected] at hrun
    obtain rfl := Option.some.inj hrun
    refine ⟨{ rejected with status := .failed, completedAt := some draws.decidedAt }, ?_,
      hidentity⟩
    rw [hsame, Table.lookup_insert_eq_ite, if_pos rfl]
  · exact ⟨taskRun, by rw [Table.lookup_insert_eq_ite, if_neg hsame, hrun], hidentity⟩

theorem preserves_holdsIdentity {call : Call} (hspares : Call.Spares request.taskId call) :
    Preserves (fun _ file => Keyed file ∧ HoldsIdentity request file.taskRuns)
      call.program := by
  rintro log file ⟨hkeyed, h⟩
  refine ⟨keyed_call call log file hkeyed, ?_⟩
  cases call with
  | handleTask handlers draws other =>
      have hrun := handlePrepared_taskRuns hkeyed handlers draws
        (isBlank_prepareRequest other draws.taskId) request.taskId
      rw [if_neg (Ne.symm hspares)] at hrun
      obtain ⟨taskRun, hstored, hidentity⟩ := h
      rw [Call.program, exec_discard_file]
      exact ⟨taskRun, hrun.trans hstored, hidentity⟩
  | rejectPendingApproval draws approvalId approver =>
      rw [Call.program, exec_discard_file]
      exact holdsIdentity_of_rejectedRuns
        (rejectPendingApproval_taskRuns hkeyed draws approvalId approver) h
  | approvePendingApproval handlers taskDraws draws approvalId approver =>
      exact absurd hspares id
  | deleteSessionWithTasks sessionId => exact absurd hspares id
  | pruneSessionsForUserSurface userId surface limit => exact absurd hspares id

theorem rejection_notBlank : isBlank "c3f1d2" = false := by
  decide

def rejectRestart : Call :=
  .rejectPendingApproval
    { eventId := ⟨"c3f1d2", rejection_notBlank⟩
      eventAt := "1700000002"
      decidedAt := "1700000002" }
    "8d0f6a" (some "owner")

end HarborBeacon.Idempotency
