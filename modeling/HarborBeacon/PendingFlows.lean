import HarborBeacon.ConversationState

/-!
The flows of a conversation that wait for an answer. Three of them share the slot of the pending
resume, which is tagged with the operation of the flow that holds it; the camera candidates have a
slot of their own. Clearing the camera flow is the one change that the others can see.
-/

namespace HarborBeacon.ConversationState

open Json Json.Value Text

structure PendingTaskClipConfirmation where
  resumeToken : String
  clipMediaAssetId : String
  clipPath : String
  clipMimeType : String
  coverPath : String
  displayName : String
deriving DecidableEq

structure PendingTaskHomeAssistantCandidate where
  entityId : String
  domain : String
  displayName : String
  state : String
  areaId : Option String
  deviceClass : Option String
deriving DecidableEq

structure PendingTaskHomeAssistantClarification where
  domain : String
  service : String
  entityHint : Option String
  candidates : List PendingTaskHomeAssistantCandidate
deriving DecidableEq

structure PendingTaskGeneralMessageLoop where
  resumeToken : String
  originalGoal : String
  latestUserIntentText : String
  lastClarificationPrompt : String
  selectedCandidateAction : Option String
  cameraHint : Option String
  query : Option String
  homeAssistant : Option PendingTaskHomeAssistantClarification
deriving DecidableEq

def PendingTaskClipConfirmation.encode (pending : PendingTaskClipConfirmation) : Value :=
  obj
    [("resume_token", string pending.resumeToken),
     ("clip_media_asset_id", string pending.clipMediaAssetId),
     ("clip_path", string pending.clipPath),
     ("clip_mime_type", string pending.clipMimeType),
     ("cover_path", string pending.coverPath),
     ("display_name", string pending.displayName)]

def PendingTaskHomeAssistantCandidate.encode (candidate : PendingTaskHomeAssistantCandidate) :
    Value :=
  structObj
    [("entity_id", some (string candidate.entityId)),
     ("domain", some (string candidate.domain)),
     ("display_name", some (string candidate.displayName)),
     ("state", some (string candidate.state)),
     ("area_id", candidate.areaId.map string),
     ("device_class", candidate.deviceClass.map string)]

def PendingTaskHomeAssistantClarification.encode
    (clarification : PendingTaskHomeAssistantClarification) : Value :=
  structObj
    [("domain", some (string clarification.domain)),
     ("service", some (string clarification.service)),
     ("entity_hint", clarification.entityHint.map string),
     ("candidates",
       some (array (clarification.candidates.map PendingTaskHomeAssistantCandidate.encode)))]

def PendingTaskGeneralMessageLoop.encode (pending : PendingTaskGeneralMessageLoop) : Value :=
  structObj
    [("resume_token", some (string pending.resumeToken)),
     ("original_goal", some (string pending.originalGoal)),
     ("latest_user_intent_text", some (string pending.latestUserIntentText)),
     ("last_clarification_prompt", some (string pending.lastClarificationPrompt)),
     ("selected_candidate_action", some (ofOption pending.selectedCandidateAction)),
     ("camera_hint", some (ofOption pending.cameraHint)),
     ("query", some (ofOption pending.query)),
     ("home_assistant",
       pending.homeAssistant.map PendingTaskHomeAssistantClarification.encode)]

def PendingTaskClipConfirmation.decode (v : Value) : Option PendingTaskClipConfirmation := do
  let field ← structFields 6 v
  let resumeToken ← orDefault (field 0 "resume_token") decodeString ""
  let clipMediaAssetId ← orDefault (field 1 "clip_media_asset_id") decodeString ""
  let clipPath ← orDefault (field 2 "clip_path") decodeString ""
  let clipMimeType ← orDefault (field 3 "clip_mime_type") decodeString ""
  let coverPath ← orDefault (field 4 "cover_path") decodeString ""
  let displayName ← orDefault (field 5 "display_name") decodeString ""
  return { resumeToken, clipMediaAssetId, clipPath, clipMimeType, coverPath, displayName }

def PendingTaskHomeAssistantCandidate.decode (v : Value) :
    Option PendingTaskHomeAssistantCandidate := do
  let field ← structFields 6 v
  let entityId ← orDefault (field 0 "entity_id") decodeString ""
  let domain ← orDefault (field 1 "domain") decodeString ""
  let displayName ← orDefault (field 2 "display_name") decodeString ""
  let state ← orDefault (field 3 "state") decodeString ""
  let areaId ← orDefault (field 4 "area_id") (decodeOption decodeString) none
  let deviceClass ← orDefault (field 5 "device_class") (decodeOption decodeString) none
  return { entityId, domain, displayName, state, areaId, deviceClass }

def PendingTaskHomeAssistantClarification.decode (v : Value) :
    Option PendingTaskHomeAssistantClarification := do
  let field ← structFields 4 v
  let domain ← orDefault (field 0 "domain") decodeString ""
  let service ← orDefault (field 1 "service") decodeString ""
  let entityHint ← orDefault (field 2 "entity_hint") (decodeOption decodeString) none
  let candidates ←
    orDefault (field 3 "candidates") (decodeList PendingTaskHomeAssistantCandidate.decode) []
  return { domain, service, entityHint, candidates }

def PendingTaskGeneralMessageLoop.decode (v : Value) : Option PendingTaskGeneralMessageLoop := do
  let field ← structFields 8 v
  let resumeToken ← orDefault (field 0 "resume_token") decodeString ""
  let originalGoal ← orDefault (field 1 "original_goal") decodeString ""
  let latestUserIntentText ← orDefault (field 2 "latest_user_intent_text") decodeString ""
  let lastClarificationPrompt ← orDefault (field 3 "last_clarification_prompt") decodeString ""
  let selectedCandidateAction ←
    orDefault (field 4 "selected_candidate_action") (decodeOption decodeString) none
  let cameraHint ← orDefault (field 5 "camera_hint") (decodeOption decodeString) none
  let query ← orDefault (field 6 "query") (decodeOption decodeString) none
  let homeAssistant ← orDefault (field 7 "home_assistant")
    (decodeOption PendingTaskHomeAssistantClarification.decode) none
  return { resumeToken, originalGoal, latestUserIntentText, lastClarificationPrompt,
           selectedCandidateAction, cameraHint, query, homeAssistant }

theorem orDefault_map_string (text : Option String) :
    orDefault (text.map string) (decodeOption decodeString) none = some text := by
  cases text <;> rfl

theorem PendingTaskClipConfirmation.decode_encode (pending : PendingTaskClipConfirmation) :
    decode pending.encode = some pending := by
  simp [decode, encode, structFields, obj]

theorem PendingTaskHomeAssistantCandidate.decode_encode
    (candidate : PendingTaskHomeAssistantCandidate) :
    decode candidate.encode = some candidate := by
  simp [decode, encode, structFields, structObj, lookupField, orDefault_map_string]

theorem PendingTaskHomeAssistantClarification.decode_encode
    (clarification : PendingTaskHomeAssistantClarification) :
    decode clarification.encode = some clarification := by
  have hcandidates := decodeList_map PendingTaskHomeAssistantCandidate.encode
    PendingTaskHomeAssistantCandidate.decode PendingTaskHomeAssistantCandidate.decode_encode
    clarification.candidates
  simp [decode, encode, structFields, structObj, lookupField, orDefault_map_string, hcandidates]

theorem PendingTaskGeneralMessageLoop.decode_encode (pending : PendingTaskGeneralMessageLoop) :
    decode pending.encode = some pending := by
  have hhome := orDefault_map_encode PendingTaskHomeAssistantClarification.encode
    PendingTaskHomeAssistantClarification.decode
    (fun clarification =>
      ⟨PendingTaskHomeAssistantClarification.decode_encode clarification, nofun⟩)
    pending.homeAssistant
  simp [decode, encode, structFields, structObj, lookupField, hhome]

section Flows

/-- A flow that can hold the pending resume: its operation, the token it is resumed with, and its
JSON form. -/
structure ResumeFlow (α : Type) where
  operation : String
  resumeToken : α → String
  withResumeToken : α → String → α
  encode : α → Value
  decode : Value → Option α
  withOwnToken : ∀ pending, withResumeToken pending (resumeToken pending) = pending
  decode_encode : ∀ pending, decode (encode pending) = some pending

variable {α : Type} {resume : PendingTaskResumeState}

def ResumeFlow.toResume (flow : ResumeFlow α) (pending : α) : PendingTaskResumeState where
  operation := flow.operation
  resumeToken := flow.resumeToken pending
  payload := flow.encode pending

def ResumeFlow.fromResume (flow : ResumeFlow α) (pendingResume : Option PendingTaskResumeState) :
    Option α := do
  let pendingResume ← pendingResume
  if pendingResume.operation ≠ flow.operation then none
  else
    let pending ← flow.decode pendingResume.payload
    if isBlank (flow.resumeToken pending) then
      return flow.withResumeToken pending pendingResume.resumeToken
    else return pending

def ResumeFlow.setOwn (flow : ResumeFlow α) (pending : Option α) (state : TaskConversationState) :
    TaskConversationState :=
  if pending.isSome || state.pendingResume.any fun current => current.operation = flow.operation
  then { state with pendingResume := pending.map flow.toResume }
  else state

theorem ResumeFlow.fromResume_toResume (flow : ResumeFlow α) (pending : α) :
    flow.fromResume (some (flow.toResume pending)) = some pending := by
  simp only [fromResume, toResume, Option.bind_eq_bind, Option.bind_some, ne_eq, not_true_eq_false,
    if_false, flow.decode_encode, flow.withOwnToken]
  split <;> rfl

theorem ResumeFlow.fromResume_of_ne (flow : ResumeFlow α) (h : resume.operation ≠ flow.operation) :
    flow.fromResume (some resume) = none :=
  if_pos h

theorem ResumeFlow.fromResume_eq_none_iff (flow : ResumeFlow α) :
    flow.fromResume (some resume) = none ↔
      (resume.operation = flow.operation → flow.decode resume.payload = none) := by
  by_cases h : resume.operation = flow.operation
  · simp only [fromResume, h, Option.bind_eq_bind, Option.bind_some, ne_eq, not_true_eq_false,
      if_false, forall_const]
    constructor
    · intro hread
      cases hdecode : flow.decode resume.payload with
      | none => rfl
      | some pending =>
          simp only [hdecode, Option.bind_some] at hread
          split at hread <;> cases hread
    · intro hdecode
      rw [hdecode, Option.bind_none]
  · exact iff_of_true (flow.fromResume_of_ne h) fun hsame => absurd hsame h

theorem ResumeFlow.fromResume_setOwn_none {β : Type} (flow : ResumeFlow α) (other : ResumeFlow β)
    (h : flow.operation ≠ other.operation) (state : TaskConversationState) :
    other.fromResume (flow.setOwn none state).pendingResume =
      other.fromResume state.pendingResume := by
  rw [setOwn]
  split
  · rename_i hown
    rw [Option.isSome_none, Bool.false_or] at hown
    cases hresume : state.pendingResume with
    | none => rfl
    | some current =>
        rw [hresume, Option.any_some, decide_eq_true_eq] at hown
        rw [other.fromResume_of_ne (hown ▸ h)]
        rfl
  · rfl

theorem ResumeFlow.fromResume_setOwn_none_self (flow : ResumeFlow α)
    (state : TaskConversationState) :
    flow.fromResume (flow.setOwn none state).pendingResume = none := by
  rw [setOwn]
  split
  · rfl
  · rename_i hother
    rw [Option.isSome_none, Bool.false_or] at hother
    cases hresume : state.pendingResume with
    | none => rfl
    | some current =>
        rw [hresume, Option.any_some, decide_eq_true_eq] at hother
        exact flow.fromResume_of_ne hother

end Flows

section Members

def cameraRecordClipConfirmationOperation : String := "camera.record_clip_confirmation"

def generalMessageLoopOperation : String := "general.message_loop"

def cameraConnectFlow : ResumeFlow PendingTaskConnect where
  operation := cameraConnectOperation
  resumeToken := PendingTaskConnect.resumeToken
  withResumeToken pending token := { pending with resumeToken := token }
  encode := PendingTaskConnect.encode
  decode := PendingTaskConnect.decode
  withOwnToken _ := rfl
  decode_encode := PendingTaskConnect.decode_encode

def clipConfirmationFlow : ResumeFlow PendingTaskClipConfirmation where
  operation := cameraRecordClipConfirmationOperation
  resumeToken := PendingTaskClipConfirmation.resumeToken
  withResumeToken pending token := { pending with resumeToken := token }
  encode := PendingTaskClipConfirmation.encode
  decode := PendingTaskClipConfirmation.decode
  withOwnToken _ := rfl
  decode_encode := PendingTaskClipConfirmation.decode_encode

def generalMessageLoopFlow : ResumeFlow PendingTaskGeneralMessageLoop where
  operation := generalMessageLoopOperation
  resumeToken := PendingTaskGeneralMessageLoop.resumeToken
  withResumeToken pending token := { pending with resumeToken := token }
  encode := PendingTaskGeneralMessageLoop.encode
  decode := PendingTaskGeneralMessageLoop.decode
  withOwnToken _ := rfl
  decode_encode := PendingTaskGeneralMessageLoop.decode_encode

def pendingResumeFromClipConfirmation : PendingTaskClipConfirmation → PendingTaskResumeState :=
  clipConfirmationFlow.toResume

def pendingResumeFromGeneralMessageLoop :
    PendingTaskGeneralMessageLoop → PendingTaskResumeState :=
  generalMessageLoopFlow.toResume

def pendingConnectFromResume : Option PendingTaskResumeState → Option PendingTaskConnect :=
  cameraConnectFlow.fromResume

def pendingClipConfirmationFromResume :
    Option PendingTaskResumeState → Option PendingTaskClipConfirmation :=
  clipConfirmationFlow.fromResume

def pendingGeneralMessageLoopFromResume :
    Option PendingTaskResumeState → Option PendingTaskGeneralMessageLoop :=
  generalMessageLoopFlow.fromResume

def cameraCandidatesFromSelection :
    Option PendingTaskSelectionState → Option (List PendingTaskCandidate)
  | none => none
  | some selection =>
      if selection.operation ≠ cameraConnectOperation then none
      else some (selection.items.filterMap fun item => PendingTaskCandidate.decode item.payload)

namespace TaskConversationState

variable (state : TaskConversationState)

def cameraPendingCandidates : List PendingTaskCandidate :=
  (cameraCandidatesFromSelection state.pendingSelection).getD state.pendingCandidates

def setCameraPendingCandidates (candidates : List PendingTaskCandidate) : TaskConversationState :=
  { state with
    pendingSelection :=
      if candidates.isEmpty then none
      else some (pendingSelectionFromCameraCandidates candidates)
    pendingCandidates := [] }

def retainCameraPendingCandidates {σ : Type} (retain : PendingTaskCandidate → StateM σ Bool)
    (caller : σ) : TaskConversationState :=
  state.setCameraPendingCandidates ((state.cameraPendingCandidates.filterM retain).run caller).run.1

def cameraPendingConnect : Option PendingTaskConnect :=
  (pendingConnectFromResume state.pendingResume).or state.pendingConnect

/-- Unlike its siblings, this setter does not look at the flow that holds the pending resume. -/
def setCameraPendingConnect (pending : Option PendingTaskConnect) : TaskConversationState :=
  { state with
    pendingResume := pending.map pendingResumeFromCameraConnect
    pendingConnect := none }

def clipPendingConfirmation : Option PendingTaskClipConfirmation :=
  pendingClipConfirmationFromResume state.pendingResume

def setClipPendingConfirmation (pending : Option PendingTaskClipConfirmation) :
    TaskConversationState :=
  clipConfirmationFlow.setOwn pending state

def generalMessageLoop : Option PendingTaskGeneralMessageLoop :=
  pendingGeneralMessageLoopFromResume state.pendingResume

def setGeneralMessageLoop (pending : Option PendingTaskGeneralMessageLoop) :
    TaskConversationState :=
  generalMessageLoopFlow.setOwn pending state

end TaskConversationState

end Members

section Independence

variable {state : TaskConversationState}

open TaskConversationState

/-- What the accessors of the four flows return. -/
structure PendingView where
  candidates : List PendingTaskCandidate
  connect : Option PendingTaskConnect
  clip : Option PendingTaskClipConfirmation
  loop : Option PendingTaskGeneralMessageLoop
deriving DecidableEq

def TaskConversationState.pendingView (state : TaskConversationState) : PendingView where
  candidates := state.cameraPendingCandidates
  connect := state.cameraPendingConnect
  clip := state.clipPendingConfirmation
  loop := state.generalMessageLoop

/-- Clearing a flow, or changing the candidates, is seen through the accessors of that flow alone;
a flow that was set is read back, also from the normalized state. -/
structure FlowsIndependent (state : TaskConversationState) : Prop where
  connectCleared :
    (state.setCameraPendingConnect none).pendingView = { state.pendingView with connect := none }
  clipCleared :
    (state.setClipPendingConfirmation none).pendingView = { state.pendingView with clip := none }
  loopCleared :
    (state.setGeneralMessageLoop none).pendingView = { state.pendingView with loop := none }
  candidatesChanged : ∀ candidates,
    (state.setCameraPendingCandidates candidates).pendingView =
      { state.pendingView with candidates }
  candidatesRetained : ∀ {σ : Type} (retain : PendingTaskCandidate → StateM σ Bool) (caller : σ),
    (state.retainCameraPendingCandidates retain caller).pendingView =
      { state.pendingView with
        candidates := ((state.cameraPendingCandidates.filterM retain).run caller).run.1 }
  connectSet : ∀ pending,
    (state.setCameraPendingConnect (some pending)).cameraPendingConnect = some pending ∧
      (state.setCameraPendingConnect (some pending)).normalize.cameraPendingConnect = some pending
  clipSet : ∀ pending,
    (state.setClipPendingConfirmation (some pending)).clipPendingConfirmation = some pending ∧
      (state.setClipPendingConfirmation (some pending)).normalize.clipPendingConfirmation =
        some pending
  loopSet : ∀ pending,
    (state.setGeneralMessageLoop (some pending)).generalMessageLoop = some pending ∧
      (state.setGeneralMessageLoop (some pending)).normalize.generalMessageLoop = some pending
  candidatesSet : ∀ candidates,
    (state.setCameraPendingCandidates candidates).normalize.cameraPendingCandidates = candidates

def NoOtherResume (state : TaskConversationState) : Prop :=
  ∀ resume, state.pendingResume = some resume →
    (resume.operation = cameraRecordClipConfirmationOperation →
      PendingTaskClipConfirmation.decode resume.payload = none) ∧
    (resume.operation = generalMessageLoopOperation →
      PendingTaskGeneralMessageLoop.decode resume.payload = none)

theorem filterMap_decode_candidates (candidates : List PendingTaskCandidate) :
    (pendingSelectionFromCameraCandidates candidates).items.filterMap
      (fun item => PendingTaskCandidate.decode item.payload) = candidates := by
  rw [pendingSelectionFromCameraCandidates, List.filterMap_map]
  exact (List.filterMap_congr fun candidate _ => candidate.decode_encode).trans
    List.filterMap_some

theorem cameraPendingCandidates_setCameraPendingCandidates
    (candidates : List PendingTaskCandidate) :
    (state.setCameraPendingCandidates candidates).cameraPendingCandidates = candidates := by
  rw [cameraPendingCandidates, setCameraPendingCandidates]
  cases candidates with
  | nil => rfl
  | cons candidate rest => exact filterMap_decode_candidates (candidate :: rest)

theorem normalize_of_pendingCandidates_nil (h : state.pendingCandidates = []) :
    state.normalize.pendingSelection = state.pendingSelection := by
  rw [TaskConversationState.normalize, h, List.isEmpty_nil, Bool.not_true, Bool.and_false]
  rfl

theorem normalize_of_pendingResume {resume : PendingTaskResumeState}
    (h : state.pendingResume = some resume) : state.normalize.pendingResume = some resume := by
  rw [TaskConversationState.normalize, h]

theorem cameraPendingCandidates_normalize_set (candidates : List PendingTaskCandidate) :
    (state.setCameraPendingCandidates candidates).normalize.cameraPendingCandidates =
      candidates := by
  rw [cameraPendingCandidates, normalize_of_pendingCandidates_nil rfl]
  exact cameraPendingCandidates_setCameraPendingCandidates candidates

theorem pendingView_setCameraPendingCandidates (candidates : List PendingTaskCandidate) :
    (state.setCameraPendingCandidates candidates).pendingView =
      { state.pendingView with candidates } := by
  rw [pendingView, cameraPendingCandidates_setCameraPendingCandidates]
  rfl

theorem setOwn_frame {α : Type} (flow : ResumeFlow α) (pending : Option α)
    (state : TaskConversationState) :
    (flow.setOwn pending state).cameraPendingCandidates = state.cameraPendingCandidates ∧
      (flow.setOwn pending state).pendingConnect = state.pendingConnect := by
  rw [ResumeFlow.setOwn]
  split <;> exact ⟨rfl, rfl⟩

theorem pendingView_clip_cleared :
    (state.setClipPendingConfirmation none).pendingView =
      { state.pendingView with clip := none } := by
  obtain ⟨hcandidates, hconnect⟩ := setOwn_frame clipConfirmationFlow none state
  have hresume : pendingConnectFromResume (clipConfirmationFlow.setOwn none state).pendingResume =
      pendingConnectFromResume state.pendingResume :=
    clipConfirmationFlow.fromResume_setOwn_none cameraConnectFlow (by decide) state
  have hclip := clipConfirmationFlow.fromResume_setOwn_none_self state
  have hloop := clipConfirmationFlow.fromResume_setOwn_none generalMessageLoopFlow (by decide) state
  rw [setClipPendingConfirmation, pendingView, hcandidates, cameraPendingConnect, hresume, hconnect]
  exact congr (congrArg _ hclip) hloop

theorem pendingView_loop_cleared :
    (state.setGeneralMessageLoop none).pendingView = { state.pendingView with loop := none } := by
  obtain ⟨hcandidates, hconnect⟩ := setOwn_frame generalMessageLoopFlow none state
  have hresume :
      pendingConnectFromResume (generalMessageLoopFlow.setOwn none state).pendingResume =
        pendingConnectFromResume state.pendingResume :=
    generalMessageLoopFlow.fromResume_setOwn_none cameraConnectFlow (by decide) state
  have hclip := generalMessageLoopFlow.fromResume_setOwn_none clipConfirmationFlow (by decide) state
  have hloop := generalMessageLoopFlow.fromResume_setOwn_none_self state
  rw [setGeneralMessageLoop, pendingView, hcandidates, cameraPendingConnect, hresume, hconnect]
  exact congr (congrArg _ hclip) hloop

theorem pendingView_connect_cleared_iff :
    (state.setCameraPendingConnect none).pendingView = { state.pendingView with connect := none } ↔
      NoOtherResume state := by
  have hview : (state.setCameraPendingConnect none).pendingView =
      { candidates := state.cameraPendingCandidates, connect := none, clip := none,
        loop := none } := rfl
  have hflows : ({ state.pendingView with connect := none } : PendingView) =
      { candidates := state.cameraPendingCandidates, connect := none,
        clip := clipConfirmationFlow.fromResume state.pendingResume,
        loop := generalMessageLoopFlow.fromResume state.pendingResume } := rfl
  rw [hview, hflows, PendingView.mk.injEq, NoOtherResume]
  cases state.pendingResume with
  | none => exact iff_of_true ⟨rfl, rfl, rfl, rfl⟩ nofun
  | some resume =>
      have hclip : clipConfirmationFlow.fromResume (some resume) = none ↔ _ :=
        clipConfirmationFlow.fromResume_eq_none_iff
      have hloop : generalMessageLoopFlow.fromResume (some resume) = none ↔ _ :=
        generalMessageLoopFlow.fromResume_eq_none_iff
      constructor
      · rintro ⟨-, -, hnoClip, hnoLoop⟩ current hcurrent
        cases hcurrent
        exact ⟨hclip.mp hnoClip.symm, hloop.mp hnoLoop.symm⟩
      · intro hother
        obtain ⟨hnoClip, hnoLoop⟩ := hother resume rfl
        exact ⟨rfl, rfl, (hclip.mpr hnoClip).symm, (hloop.mpr hnoLoop).symm⟩

/-- The flows are independent in a state exactly if its pending resume is no clip confirmation and
no message loop: only clearing the camera flow can touch another one. -/
theorem flowsIndependent_iff (state : TaskConversationState) :
    FlowsIndependent state ↔ NoOtherResume state := by
  constructor
  · intro h
    exact pendingView_connect_cleared_iff.mp h.connectCleared
  · intro h
    refine ⟨pendingView_connect_cleared_iff.mpr h, pendingView_clip_cleared,
      pendingView_loop_cleared, pendingView_setCameraPendingCandidates, ?_, ?_, ?_, ?_,
      cameraPendingCandidates_normalize_set⟩
    · intro σ retain caller
      exact pendingView_setCameraPendingCandidates _
    · intro pending
      have hread : pendingConnectFromResume (some (pendingResumeFromCameraConnect pending)) =
          some pending := cameraConnectFlow.fromResume_toResume pending
      have hnormal : (state.setCameraPendingConnect (some pending)).normalize.pendingResume =
          some (pendingResumeFromCameraConnect pending) := normalize_of_pendingResume rfl
      rw [cameraPendingConnect, cameraPendingConnect, hnormal, hread, Option.some_or]
      refine ⟨?_, rfl⟩
      rw [setCameraPendingConnect, Option.map_some, hread, Option.some_or]
    · intro pending
      have hread := clipConfirmationFlow.fromResume_toResume pending
      have hnormal : (state.setClipPendingConfirmation (some pending)).normalize.pendingResume =
          some (clipConfirmationFlow.toResume pending) := normalize_of_pendingResume rfl
      refine ⟨hread, ?_⟩
      rw [clipPendingConfirmation, hnormal]
      exact hread
    · intro pending
      have hread := generalMessageLoopFlow.fromResume_toResume pending
      have hnormal : (state.setGeneralMessageLoop (some pending)).normalize.pendingResume =
          some (generalMessageLoopFlow.toResume pending) := normalize_of_pendingResume rfl
      refine ⟨hread, ?_⟩
      rw [generalMessageLoop, hnormal]
      exact hread

def waitingClip : PendingTaskClipConfirmation where
  resumeToken := "resume-1"
  clipMediaAssetId := "asset-clip-1"
  clipPath := "captures/clip-1.mp4"
  clipMimeType := "video/mp4"
  coverPath := ""
  displayName := ""

theorem clearing_connect_drops_clip : ¬ ∀ state : TaskConversationState,
    (state.setCameraPendingConnect none).clipPendingConfirmation =
      state.clipPendingConfirmation := by
  intro hall
  have hclip : (({} : TaskConversationState).setClipPendingConfirmation
      (some waitingClip)).clipPendingConfirmation = some waitingClip :=
    clipConfirmationFlow.fromResume_toResume waitingClip
  have hlost := hall (({} : TaskConversationState).setClipPendingConfirmation (some waitingClip))
  rw [hclip] at hlost
  cases hlost

end Independence

end HarborBeacon.ConversationState
