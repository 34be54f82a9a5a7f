import HarborBeacon.TaskSession

/-!
The conversation state that a session carries: what `save_for_session` writes and
`load_for_session` reads back.
-/

namespace HarborBeacon.SessionState

open ControlPlane ConversationState FileProgram Json TaskSession Text

def flowEnvelope (flowState : Value) : TaskSessionStateEnvelope where
  schemaVersion := defaultTaskSessionSchemaVersion
  «namespace» := defaultTaskSessionNamespace
  flowType := defaultTaskSessionFlowType
  flowState := flowState

theorem decode_flowEnvelope (flowState : Value) :
    TaskSessionStateEnvelope.decode (flowEnvelope flowState).encode =
      some (flowEnvelope flowState) := by
  have hversion : decodeUnsigned 32
      (.number (.unsigned (UInt64.ofNat defaultTaskSessionSchemaVersion))) =
        some defaultTaskSessionSchemaVersion := by decide
  simp [TaskSessionStateEnvelope.decode, TaskSessionStateEnvelope.encode, structFields, obj,
    flowEnvelope, hversion]

variable {state : TaskConversationState} {session : ConversationSession}
  {file : TaskConversationFile}

theorem conversationStateFromSession_flowEnvelope (session : ConversationSession) {fields : Fields}
    (keyHint : Option String) (hdecode : TaskConversationState.decode (.object fields) = some state)
    :
    conversationStateFromSession
        { session with state := (flowEnvelope (.object fields)).encode } keyHint =
      some (backfillConversationKey state session keyHint).normalize := by
  have hne : (flowEnvelope (.object fields)).encode ≠ .null := nofun
  have hflow : (flowEnvelope (.object fields)).flowState = .object fields := rfl
  simp only [conversationStateFromSession]
  rw [if_neg hne, decode_flowEnvelope]
  simp [hflow, hdecode, backfillConversationKey]

theorem envelope_of_ok {envelope : TaskSessionStateEnvelope} (hkey : isBlank state.key = false)
    (h : envelopeFromConversationState state (some session) = .ok envelope) :
    ∃ fields, TaskConversationState.decode (.object fields) = some state.normalize ∧
      envelope = flowEnvelope (.object
        (if matchesSession state.key session then removeField "key" fields else fields)) := by
  simp only [envelopeFromConversationState, TaskConversationState.persisted] at h
  cases hencode : state.normalize.encode with
  | error message =>
      rw [hencode] at h
      cases h
  | ok value =>
      obtain ⟨fields, rfl, hdecode⟩ := TaskConversationState.decode_of_encode hencode
      refine ⟨fields, hdecode, ?_⟩
      rw [hencode] at h
      cases h
      by_cases hmatch : matchesSession state.key session = true <;>
        simp [flowEnvelope, hkey, hmatch, removeKey]

def firstSessionKey (session : ConversationSession) : Option String :=
  ((nonEmptyString (some session.conversationId)).or
    (nonEmptyString (some session.sessionId))).or (nonEmptyString (some session.userId))

/-- The key is among the ids that the session carries, but it is not the one that a
reader without a hint takes from it. -/
def KeyShadowed (session : ConversationSession) (key : String) : Prop :=
  matchesSession key session = true ∧ firstSessionKey session ≠ some key

theorem trim_of_matchesSession {key : String} (h : matchesSession key session = true) :
    trim key = key := by
  simp only [matchesSession, Bool.or_eq_true, decide_eq_true_eq] at h
  rcases h with (h | h) | h
  · exact trim_of_nonEmptyString h
  · exact trim_of_nonEmptyString h
  · exact trim_of_nonEmptyString h

theorem saveForSession_of_ok {ε : Type}
    (h : ((saveForSession session state : Store ε Unit).run.exec file).result = .ok ()) :
    isBlank state.key = false ∧
      ∃ envelope, envelopeFromConversationState state.normalize (some session) = .ok envelope ∧
        ((saveForSession session state : Store ε Unit).run.exec file).file.sessions.lookup
          session.sessionId = some { session with state := envelope.encode } := by
  unfold saveForSession at h ⊢
  by_cases hsession : isBlank session.sessionId = true
  · rw [if_pos hsession] at h
    cases h
  rw [if_neg hsession] at h ⊢
  by_cases hkey : isBlank state.key = true
  · rw [if_pos hkey] at h
    cases h
  rw [if_neg hkey] at h ⊢
  refine ⟨by simpa using hkey, ?_⟩
  cases henvelope : envelopeFromConversationState state.normalize (some session) with
  | error message =>
      simp only [exec_modifyFile, TaskConversationState.persisted, henvelope] at h
      cases h
  | ok envelope =>
      refine ⟨envelope, rfl, ?_⟩
      simp only [exec_modifyFile, TaskConversationState.persisted, henvelope]
      exact AList.lookup_insert _

theorem loadForSession_saveForSession {ε : Type} (keyHint : Option String)
    (h : ((saveForSession session state : Store ε Unit).run.exec file).result = .ok ()) :
    ((saveForSession session state >>= fun _ =>
      loadForSession session.sessionId keyHint : Store ε _).run.exec file).result =
        .ok (some { state.normalize with
          key :=
            if matchesSession state.key session then
              ((nonEmptyString keyHint).or (firstSessionKey session)).getD ""
            else state.key }) := by
  obtain ⟨hkey, envelope, henvelope, hlookup⟩ := saveForSession_of_ok h
  obtain ⟨fields, hdecode, rfl⟩ := envelope_of_ok (by simpa using hkey) henvelope
  simp only [TaskConversationState.normalize_key, TaskConversationState.normalize_normalize]
    at hdecode hlookup
  rw [exec_run_bind, Outcome.andThenOk, h]
  by_cases hmatch : matchesSession state.key session = true
  · simp only [hmatch, if_true] at hlookup
    have hread := conversationStateFromSession_flowEnvelope session keyHint
      (TaskConversationState.decode_removeField_key hdecode)
    have hblank : isBlank "" = true := by decide
    simp only [loadForSession, exec_inspectFile, hlookup, Option.bind_some, hread,
      backfillConversationKey, hblank, if_true, hmatch,
      TaskConversationState.normalize_withKey, TaskConversationState.normalize_normalize,
      firstSessionKey, Option.or_assoc]
  · simp only [hmatch, if_false, Bool.false_eq_true] at hlookup
    have hread := conversationStateFromSession_flowEnvelope session keyHint hdecode
    simp only [loadForSession, exec_inspectFile, hlookup, Option.bind_some, hread,
      backfillConversationKey, TaskConversationState.normalize_key, hkey, hmatch, if_false,
      Bool.false_eq_true, TaskConversationState.normalize_normalize]
    rfl

/-- The state that was saved for the session comes back normalised, both without a hint
and with its own key as the hint. -/
def RoundTrips (ε : Type) (file : TaskConversationFile) (session : ConversationSession)
    (state : TaskConversationState) : Prop :=
  ∀ keyHint, keyHint = none ∨ keyHint = some state.key →
    ((saveForSession session state >>= fun _ =>
      loadForSession session.sessionId keyHint : Store ε _).run.exec file).result =
        .ok (some state.normalize)

theorem withKey_eq_iff (state : TaskConversationState) (key : String) :
    { state.normalize with key := key } = state.normalize ↔ key = state.key := by
  constructor
  · intro h
    have hkey := congrArg TaskConversationState.key h
    simpa using hkey
  · rintro rfl
    rfl

/-- An accepted state survives the round trip exactly when its key is not shadowed by an
earlier id of the session. -/
theorem roundTrips_iff (ε : Type) (file : TaskConversationFile)
    (session : ConversationSession) (state : TaskConversationState)
    (h : ((saveForSession session state : Store ε Unit).run.exec file).result = .ok ()) :
    RoundTrips ε file session state ↔ ¬ KeyShadowed session state.key := by
  have hkey := (saveForSession_of_ok h).1
  have hne : state.key ≠ "" := ne_empty_of_not_isBlank hkey
  simp only [RoundTrips, loadForSession_saveForSession _ h, Except.ok.injEq,
    Option.some.injEq, withKey_eq_iff, KeyShadowed]
  by_cases hmatch : matchesSession state.key session = true
  · have htrim := trim_of_matchesSession hmatch
    have hhint : nonEmptyString (some state.key) = some state.key := by
      rw [nonEmptyString_of_not_isBlank hkey, htrim]
    simp only [hmatch, if_true, true_and, not_not]
    constructor
    · intro hall
      have hnone := hall none (Or.inl rfl)
      rw [nonEmptyString_none, Option.none_or] at hnone
      cases hfirst : firstSessionKey session with
      | none =>
          rw [hfirst] at hnone
          exact absurd hnone.symm hne
      | some key =>
          rw [hfirst] at hnone
          exact congrArg some hnone
    · rintro hfirst keyHint (rfl | rfl)
      · simp [hfirst]
      · simp [hhint]
  · simp [hmatch]

def chatSession : ConversationSession where
  sessionId := "sess-1"
  conversationId := "conv-1"
  userId := "user-1"

theorem roundTrips_conversationKey :
    RoundTrips Unit {} chatSession { key := "conv-1", lastScanCidr := "10.0.0.0/24" } :=
  (roundTrips_iff Unit {} chatSession _ (by decide)).mpr fun h => h.2 (by decide)

/-- Saved under the id of the session, the state comes back under the id of the
conversation. -/
theorem not_roundTrips_sessionKey :
    ((saveForSession chatSession { key := "sess-1" } : Store Unit Unit).run.exec {}).result =
        .ok () ∧
      ((saveForSession chatSession { key := "sess-1" } >>= fun _ =>
        loadForSession "sess-1" none : Store Unit _).run.exec {}).result =
          .ok (some { key := "conv-1" }) ∧
      ¬ RoundTrips Unit {} chatSession { key := "sess-1" } := by
  have hload : ((saveForSession chatSession { key := "sess-1" } >>= fun _ =>
      loadForSession "sess-1" none : Store Unit _).run.exec {}).result =
        .ok (some { key := "conv-1" }) := by decide
  refine ⟨by decide, hload, fun h => ?_⟩
  have hkey := hload.symm.trans (h none (Or.inl rfl))
  exact absurd hkey (by decide)

end HarborBeacon.SessionState
