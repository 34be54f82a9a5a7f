import HarborBeacon.HomeGuardian
import HarborBeacon.StableSearch

/-!
How often the actions of a rule are run. The history of a rule keeps the summaries that no more
than fifty others can come before; as long as the summary of a run is kept, its actions are not
run again for the same event.
-/

namespace HarborBeacon.HomeGuardian

open AdminConsole Json Json.Value StableSearch TaskContract VisionEvents

theorem optionLe_trans (a b c : Option String) (hab : optionLe a b = true)
    (hbc : optionLe b c = true) : optionLe a c = true := by
  cases a with
  | none => rfl
  | some a =>
      cases b with
      | none => cases hab
      | some b =>
          cases c with
          | none => cases hbc
          | some c =>
              simp only [optionLe, decide_eq_true_eq] at hab hbc ⊢
              exact le_trans hab hbc

theorem optionLe_total (a b : Option String) : (optionLe a b || optionLe b a) = true := by
  cases a with
  | none => rfl
  | some a =>
      cases b with
      | none => rfl
      | some b =>
          simp only [optionLe, Bool.or_eq_true, decide_eq_true_eq]
          exact le_total a b

def notBefore (left right : Value) : Bool :=
  optionLe (summaryTime right) (summaryTime left)

theorem notBefore_trans (a b c : Value) (hab : notBefore a b = true)
    (hbc : notBefore b c = true) : notBefore a c = true :=
  optionLe_trans _ _ _ hbc hab

theorem notBefore_total (a b : Value) : (notBefore a b || notBefore b a) = true :=
  optionLe_total _ _

theorem latest_eq (summaries : List Value) :
    latestHomeGuardianRunSummaries summaries = ((summaries.mergeSort notBefore).take 50).reverse :=
  rfl

theorem latest_subperm (summaries : List Value) :
    (latestHomeGuardianRunSummaries summaries).Subperm summaries := by
  rw [latest_eq]
  exact (List.reverse_perm _).subperm.trans
    ((List.take_sublist 50 _).subperm.trans (List.mergeSort_perm _ _).subperm)

variable {summaries : List Value}

theorem mem_latest {summary : Value} (hmem : summary ∈ summaries)
    (hcount : summaries.countP (fun other => notBefore other summary) ≤ 50) :
    summary ∈ latestHomeGuardianRunSummaries summaries := by
  rw [latest_eq, List.mem_reverse]
  exact mem_take_mergeSort notBefore_trans notBefore_total hmem hcount

section Steps

variable (confidenceBelow : ConfidenceBelow)

def plannedRuns (review : AutomationRuleReview) (evaluation : Evaluation) : List ActionRun :=
  ((homeGuardianActionPlanActions review.actionPlan).map
    (homeGuardianActionExecutionPlan review evaluation.stored)).mapIdx (runAction review evaluation)

def plannedSummary (review : AutomationRuleReview) (evaluation : Evaluation) : Value :=
  completeHomeGuardianRuleExecution review evaluation.stored
    ((plannedRuns review evaluation).map ActionRun.result) evaluation.stamp

theorem buildPlan_cases (review : AutomationRuleReview) (stored : StoredLocalVisionEvent)
    (onlyReviewRequested executeActive : Bool) (stamp : RunStamp) :
    buildHomeGuardianRuleEvaluationPlan confidenceBelow review stored onlyReviewRequested
        executeActive stamp = none ∨
      (∃ summary persist, buildHomeGuardianRuleEvaluationPlan confidenceBelow review stored
        onlyReviewRequested executeActive stamp = some (.completed review summary persist)) ∨
      buildHomeGuardianRuleEvaluationPlan confidenceBelow review stored onlyReviewRequested
        executeActive stamp = some (.execute review
          ((homeGuardianActionPlanActions review.actionPlan).map
            (homeGuardianActionExecutionPlan review stored))) := by
  unfold buildHomeGuardianRuleEvaluationPlan
  simp only
  split
  · split
    · exact Or.inr (Or.inl ⟨_, _, rfl⟩)
    · exact Or.inl rfl
  · split
    · exact Or.inr (Or.inl ⟨_, _, rfl⟩)
    · split
      · exact Or.inr (Or.inl ⟨_, _, rfl⟩)
      · split
        · exact Or.inr (Or.inl ⟨_, _, rfl⟩)
        · split
          · exact Or.inr (Or.inl ⟨_, _, rfl⟩)
          · exact Or.inr (Or.inr rfl)

theorem evaluateRule_cases (review : AutomationRuleReview) (evaluation : Evaluation) :
    evaluateRule confidenceBelow review evaluation = (review, [], none) ∨
      (∃ summary, evaluateRule confidenceBelow review evaluation =
        (appendHomeGuardianRunSummary review summary, [], some summary)) ∨
      evaluateRule confidenceBelow review evaluation =
        (appendHomeGuardianRunSummary review (plannedSummary review evaluation),
          plannedRuns review evaluation, some (plannedSummary review evaluation)) := by
  unfold evaluateRule
  rcases buildPlan_cases confidenceBelow review evaluation.stored evaluation.onlyReviewRequested
    evaluation.executeActive evaluation.stamp with hplan | ⟨summary, persist, hplan⟩ | hplan
  · rw [hplan]
    exact Or.inl rfl
  · rw [hplan]
    cases persist with
    | true => exact Or.inr (Or.inl ⟨summary, rfl⟩)
    | false => exact Or.inl rfl
  · rw [hplan]
    exact Or.inr (Or.inr rfl)

theorem evaluateRule_of_execute {review : AutomationRuleReview} {evaluation : Evaluation}
    {actions : List HomeGuardianActionExecutionPlan}
    (h : buildHomeGuardianRuleEvaluationPlan confidenceBelow review evaluation.stored
      evaluation.onlyReviewRequested evaluation.executeActive evaluation.stamp =
        some (.execute review actions)) :
    evaluateRule confidenceBelow review evaluation =
      (appendHomeGuardianRunSummary review (plannedSummary review evaluation),
        plannedRuns review evaluation, some (plannedSummary review evaluation)) := by
  rcases buildPlan_cases confidenceBelow review evaluation.stored evaluation.onlyReviewRequested
    evaluation.executeActive evaluation.stamp with hplan | ⟨summary, persist, hplan⟩ | hplan
  · rw [hplan] at h
    cases h
  · rw [hplan] at h
    cases h
  · rw [evaluateRule, hplan]
    rfl

def ActionRun.succeeded (actionKey : String) : ActionRun → Bool
  | skipped _ => false
  | unsupported _ => false
  | performed plan outcome =>
      decide (plan.actionKey = actionKey) && hasStatus ["delivered", "acted"] outcome.result

def successesIn (eventId actionKey : String) (review : AutomationRuleReview)
    (evaluation : Evaluation) : Nat :=
  if evaluation.stored.event.eventId = eventId then
    (evaluateRule confidenceBelow review evaluation).2.1.countP (ActionRun.succeeded actionKey)
  else 0

def successes (eventId actionKey : String) : AutomationRuleReview → List Evaluation → Nat
  | _, [] => 0
  | review, evaluation :: rest =>
      successesIn confidenceBelow eventId actionKey review evaluation +
        successes eventId actionKey (evaluateRule confidenceBelow review evaluation).1 rest

def addedSummaries : AutomationRuleReview → List Evaluation → List Value
  | _, [] => []
  | review, evaluation :: rest =>
      (evaluateRule confidenceBelow review evaluation).2.2.toList ++
        addedSummaries (evaluateRule confidenceBelow review evaluation).1 rest

def summariesAfter (review : AutomationRuleReview) (evaluations : List Evaluation) : List Value :=
  review.runSummaries ++ addedSummaries confidenceBelow review evaluations

theorem evaluateAll_cons (review : AutomationRuleReview) (evaluation : Evaluation)
    (rest : List Evaluation) :
    evaluateAll confidenceBelow review (evaluation :: rest) =
      evaluateAll confidenceBelow (evaluateRule confidenceBelow review evaluation).1 rest := by
  simp only [evaluateAll, List.foldl_cons]

theorem evaluateAll_append (review : AutomationRuleReview) (before after : List Evaluation) :
    evaluateAll confidenceBelow review (before ++ after) =
      evaluateAll confidenceBelow (evaluateAll confidenceBelow review before) after := by
  simp only [evaluateAll, List.foldl_append]

theorem successes_append (eventId actionKey : String) (review : AutomationRuleReview)
    (before after : List Evaluation) :
    successes confidenceBelow eventId actionKey review (before ++ after) =
      successes confidenceBelow eventId actionKey review before +
        successes confidenceBelow eventId actionKey
          (evaluateAll confidenceBelow review before) after := by
  induction before generalizing review with
  | nil => exact (Nat.zero_add _).symm
  | cons evaluation rest ih =>
      rw [List.cons_append, successes, successes, ih, Nat.add_assoc, evaluateAll_cons]

theorem addedSummaries_append (review : AutomationRuleReview) (before after : List Evaluation) :
    addedSummaries confidenceBelow review (before ++ after) =
      addedSummaries confidenceBelow review before ++
        addedSummaries confidenceBelow (evaluateAll confidenceBelow review before) after := by
  induction before generalizing review with
  | nil => rfl
  | cons evaluation rest ih =>
      rw [List.cons_append, addedSummaries, addedSummaries, ih, List.append_assoc,
        evaluateAll_cons]

theorem summariesAfter_concat (review : AutomationRuleReview) (before : List Evaluation)
    (evaluation : Evaluation) :
    summariesAfter confidenceBelow review (before ++ [evaluation]) =
      summariesAfter confidenceBelow review before ++
        (evaluateRule confidenceBelow (evaluateAll confidenceBelow review before)
          evaluation).2.2.toList := by
  rw [summariesAfter, addedSummaries_append, ← List.append_assoc, ← summariesAfter]
  simp [addedSummaries]

end Steps

section Kept

variable {confidenceBelow : ConfidenceBelow} {review : AutomationRuleReview}
  {later : AutomationRuleReview} {all : List Value}

/-- The rule is the same but for its history, which holds the summaries that no more than fifty
others can come before. -/
structure Keeps (review : AutomationRuleReview) (all : List Value)
    (later : AutomationRuleReview) : Prop where
  same : later = { review with runSummaries := later.runSummaries }
  subperm : later.runSummaries.Subperm all
  recent : ∀ summary ∈ all, all.countP (fun other => notBefore other summary) ≤ 50 →
    summary ∈ later.runSummaries

theorem keeps_self : Keeps review review.runSummaries review where
  same := rfl
  subperm := List.Subperm.refl _
  recent := fun _ hmem _ => hmem

theorem Keeps.append (h : Keeps review all later) (summary : Value) :
    Keeps review (all ++ [summary]) (appendHomeGuardianRunSummary later summary) where
  same := by
    rw [appendHomeGuardianRunSummary, h.same]
  subperm := (latest_subperm _).trans ((List.subperm_append_right _).mpr h.subperm)
  recent := by
    intro other hother hcount
    have hsub := (List.subperm_append_right [summary]).mpr h.subperm
    apply mem_latest _ ((hsub.countP_le _).trans hcount)
    rcases List.mem_append.mp hother with hold | hnew
    · rw [List.countP_append] at hcount
      exact List.mem_append_left _ (h.recent other hold (by omega))
    · exact List.mem_append_right _ hnew

theorem Keeps.step (h : Keeps review all later) (evaluation : Evaluation) :
    Keeps review (all ++ (evaluateRule confidenceBelow later evaluation).2.2.toList)
      (evaluateRule confidenceBelow later evaluation).1 := by
  rcases evaluateRule_cases confidenceBelow later evaluation with hrun | ⟨summary, hrun⟩ | hrun
  · rw [hrun]
    simpa using h
  · rw [hrun]
    exact h.append summary
  · rw [hrun]
    exact h.append _

variable (confidenceBelow) in
theorem keeps_evaluateAll (review : AutomationRuleReview) (evaluations : List Evaluation) :
    Keeps review (summariesAfter confidenceBelow review evaluations)
      (evaluateAll confidenceBelow review evaluations) := by
  induction evaluations using List.reverseRecOn with
  | nil =>
      rw [summariesAfter, addedSummaries, List.append_nil]
      exact keeps_self
  | append_singleton before evaluation ih =>
      rw [summariesAfter_concat, evaluateAll_append]
      exact ih.step evaluation

end Kept

section Recorded

variable {review : AutomationRuleReview} {evaluation : Evaluation} {later : AutomationRuleReview}
  {action : Value}

theorem get_idempotencyKey_compact (action : Value) :
    getStr (compactHomeGuardianActionResult action) "idempotency_key" =
      getStr action "idempotency_key" := by
  have hget : (compactHomeGuardianActionResult action).get "idempotency_key" =
      some (ofOption (getStr action "idempotency_key")) := by
    simp [compactHomeGuardianActionResult, obj, Value.get]
  rw [getStr, hget, Option.bind_some]
  cases getStr action "idempotency_key" with
  | none => rfl
  | some key => rfl

theorem get_status_compact (action : Value) :
    getStr (compactHomeGuardianActionResult action) "status" =
      some ((getStr action "status").getD "unknown") := by
  have hget : (compactHomeGuardianActionResult action).get "status" =
      some (string ((getStr action "status").getD "unknown")) := by
    simp [compactHomeGuardianActionResult, obj, Value.get]
  rw [getStr, hget, Option.bind_some, asStr]

theorem hasStatus_compact {statuses : List String} (h : hasStatus statuses action = true) :
    hasStatus statuses (compactHomeGuardianActionResult action) = true := by
  unfold hasStatus at h ⊢
  rw [get_status_compact]
  cases hstatus : getStr action "status" with
  | none =>
      rw [hstatus] at h
      cases h
  | some status =>
      rw [hstatus] at h
      exact h

theorem actions_runSummary (stored : StoredLocalVisionEvent) (status : String)
    (isMatch executed : Bool) (reason : String) (actions : List Value) (stamp : RunStamp) :
    (homeGuardianRuleRunSummary review stored status isMatch executed reason actions
      stamp).pointer ["actions"] = some (array (actions.map compactHomeGuardianActionResult)) := by
  simp [homeGuardianRuleRunSummary, obj]

theorem alreadyRecorded_of_mem {result : Value} {key : String}
    (hkept : plannedSummary review evaluation ∈ later.runSummaries)
    (hrun : result ∈ (plannedRuns review evaluation).map ActionRun.result)
    (hkey : getStr result "idempotency_key" = some key)
    (hstatus : hasStatus ["delivered", "acted", "skipped"] result = true) :
    homeGuardianRunAlreadyRecorded later key = true := by
  rw [homeGuardianRunAlreadyRecorded, List.any_eq_true]
  refine ⟨_, hkept, ?_⟩
  rw [plannedSummary, completeHomeGuardianRuleExecution, actions_runSummary, Option.bind_some,
    asArray]
  simp only
  rw [List.any_eq_true]
  refine ⟨_, List.mem_map_of_mem hrun, ?_⟩
  rw [get_idempotencyKey_compact, hkey, hasStatus_compact hstatus]
  simp

theorem mem_plannedRuns {run : ActionRun} (h : run ∈ plannedRuns review evaluation) :
    ∃ place action, run = runAction review evaluation place
      (homeGuardianActionExecutionPlan review evaluation.stored action) := by
  obtain ⟨place, hplace, hrun⟩ := List.mem_mapIdx.mp h
  rw [List.getElem_map] at hrun
  exact ⟨place, _, hrun.symm⟩

theorem runAction_succeeded {place : Nat} {plan : HomeGuardianActionExecutionPlan}
    {actionKey : String} (h : (runAction review evaluation place plan).succeeded actionKey = true) :
    homeGuardianRunAlreadyRecorded review plan.idempotencyKey = false ∧
      plan.actionKey = actionKey ∧
      getStr (runAction review evaluation place plan).result "idempotency_key" =
        some plan.idempotencyKey ∧
      hasStatus ["delivered", "acted"] (runAction review evaluation place plan).result = true := by
  unfold runAction at h ⊢
  cases hrecorded : homeGuardianRunAlreadyRecorded review plan.idempotencyKey with
  | true =>
      rw [hrecorded] at h
      cases h
  | false =>
      rw [hrecorded] at h
      simp only [Bool.false_eq_true, if_false] at h ⊢
      have hkey := (evaluation.perform place plan).names_key
      cases hkind : plan.kind with
      | unsupported =>
          rw [hkind] at h
          cases h
      | notifyDefaultTarget =>
          rw [hkind] at h
          rw [ActionRun.succeeded, Bool.and_eq_true, decide_eq_true_eq] at h
          exact ⟨trivial, h.1, hkey, h.2⟩
      | homeAssistantService =>
          rw [hkind] at h
          rw [ActionRun.succeeded, Bool.and_eq_true, decide_eq_true_eq] at h
          exact ⟨trivial, h.1, hkey, h.2⟩

theorem hasStatus_mono {statuses others : List String} (hsub : statuses ⊆ others)
    (h : hasStatus statuses action = true) : hasStatus others action = true := by
  unfold hasStatus at h ⊢
  cases hstatus : getStr action "status" with
  | none =>
      rw [hstatus] at h
      cases h
  | some status =>
      rw [hstatus, Option.any_some, decide_eq_true_eq] at h
      rw [Option.any_some, decide_eq_true_eq]
      exact hsub h

theorem plan_idempotencyKey (stored : StoredLocalVisionEvent) (action : Value) :
    (homeGuardianActionExecutionPlan review stored action).idempotencyKey =
      homeGuardianIdempotencyKey review stored
        (homeGuardianActionExecutionPlan review stored action).actionKey := by
  simp only [homeGuardianActionExecutionPlan]

theorem plan_actionKey (stored : StoredLocalVisionEvent) (action : Value) :
    (homeGuardianActionExecutionPlan review stored action).actionKey =
      homeGuardianActionKey action := by
  simp only [homeGuardianActionExecutionPlan]

theorem alreadyRecorded_of_succeeded {actionKey : String}
    (hkept : plannedSummary review evaluation ∈ later.runSummaries)
    (hrun : (plannedRuns review evaluation).countP (ActionRun.succeeded actionKey) ≠ 0) :
    homeGuardianRunAlreadyRecorded later
      (homeGuardianIdempotencyKey review evaluation.stored actionKey) = true := by
  obtain ⟨run, hmem, hsucceeded⟩ := List.countP_pos_iff.mp (Nat.pos_of_ne_zero hrun)
  obtain ⟨place, action, rfl⟩ := mem_plannedRuns hmem
  obtain ⟨-, haction, hkey, hstatus⟩ := runAction_succeeded hsucceeded
  rw [plan_idempotencyKey, haction] at hkey
  exact alreadyRecorded_of_mem hkept (List.mem_map_of_mem hmem) hkey
    (hasStatus_mono (by simp) hstatus)

theorem countP_succeeded_of_recorded {actionKey : String}
    (h : homeGuardianRunAlreadyRecorded review
      (homeGuardianIdempotencyKey review evaluation.stored actionKey) = true) :
    (plannedRuns review evaluation).countP (ActionRun.succeeded actionKey) = 0 := by
  rw [List.countP_eq_zero]
  intro run hmem hsucceeded
  obtain ⟨place, action, rfl⟩ := mem_plannedRuns hmem
  obtain ⟨hrecorded, haction, -, -⟩ := runAction_succeeded hsucceeded
  rw [plan_idempotencyKey, haction, h] at hrecorded
  cases hrecorded

theorem countP_mapIdx_le {α β : Type} {f : Nat → α → β} {p : β → Bool} {q : α → Bool}
    (h : ∀ place a, p (f place a) = true → q a = true) (items : List α) :
    (items.mapIdx f).countP p ≤ items.countP q := by
  induction items generalizing f with
  | nil => exact Nat.le_refl 0
  | cons a rest ih =>
      rw [List.mapIdx_cons, List.countP_cons, List.countP_cons]
      have hrest : (rest.mapIdx fun place => f (place + 1)).countP p ≤ rest.countP q :=
        ih fun place => h (place + 1)
      by_cases hp : p (f 0 a) = true
      · rw [if_pos hp, if_pos (h 0 a hp)]
        omega
      · rw [if_neg hp]
        omega

def DistinctActions (review : AutomationRuleReview) : Prop :=
  ((homeGuardianActionPlanActions review.actionPlan).map homeGuardianActionKey).Nodup

theorem countP_succeeded_le_one (h : DistinctActions review) (actionKey : String) :
    (plannedRuns review evaluation).countP (ActionRun.succeeded actionKey) ≤ 1 := by
  have hsame : ∀ place plan,
      (runAction review evaluation place plan).succeeded actionKey = true →
        (plan.actionKey == actionKey) = true := by
    intro place plan hsucceeded
    rw [beq_iff_eq]
    exact (runAction_succeeded hsucceeded).2.1
  have hplans := countP_mapIdx_le hsame ((homeGuardianActionPlanActions review.actionPlan).map
    (homeGuardianActionExecutionPlan review evaluation.stored))
  rw [← plannedRuns] at hplans
  have hkeys : ((homeGuardianActionPlanActions review.actionPlan).map
      (homeGuardianActionExecutionPlan review evaluation.stored)).countP
        (fun plan => plan.actionKey == actionKey) =
      ((homeGuardianActionPlanActions review.actionPlan).map homeGuardianActionKey).count
        actionKey := by
    rw [List.countP_map, List.count_eq_countP, List.countP_map]
    simp only [Function.comp_def, plan_actionKey]
  rw [hkeys] at hplans
  exact hplans.trans (List.nodup_iff_count_le_one.mp h actionKey)

end Recorded

section AtMostOnce

variable {confidenceBelow : ConfidenceBelow} {review : AutomationRuleReview}
  {eventId actionKey : String} {evaluations : List Evaluation}

theorem successesIn_ne_zero {evaluation : Evaluation}
    (h : successesIn confidenceBelow eventId actionKey review evaluation ≠ 0) :
    evaluation.stored.event.eventId = eventId ∧
      evaluateRule confidenceBelow review evaluation =
        (appendHomeGuardianRunSummary review (plannedSummary review evaluation),
          plannedRuns review evaluation, some (plannedSummary review evaluation)) ∧
      (plannedRuns review evaluation).countP (ActionRun.succeeded actionKey) ≠ 0 := by
  unfold successesIn at h
  split at h
  · rename_i hevent
    rcases evaluateRule_cases confidenceBelow review evaluation with hrun | ⟨summary, hrun⟩ | hrun
    · rw [hrun] at h
      exact absurd rfl h
    · rw [hrun] at h
      exact absurd rfl h
    · rw [hrun] at h
      exact ⟨hevent, hrun, h⟩
  · exact absurd rfl h

theorem successesIn_le_one (hactions : DistinctActions review) (evaluation : Evaluation) :
    successesIn confidenceBelow eventId actionKey review evaluation ≤ 1 := by
  by_contra hmany
  have hsome : successesIn confidenceBelow eventId actionKey review evaluation ≠ 0 := by omega
  obtain ⟨hevent, hrun, -⟩ := successesIn_ne_zero hsome
  rw [successesIn, if_pos hevent, hrun] at hmany
  exact hmany (countP_succeeded_le_one hactions actionKey)

theorem exists_first_success
    (h : successes confidenceBelow eventId actionKey review evaluations ≠ 0) :
    ∃ before first between, evaluations = before ++ first :: between ∧
      successesIn confidenceBelow eventId actionKey
        (evaluateAll confidenceBelow review before) first ≠ 0 := by
  induction evaluations generalizing review with
  | nil => exact absurd rfl h
  | cons evaluation rest ih =>
      by_cases hfirst : successesIn confidenceBelow eventId actionKey review evaluation = 0
      · rw [successes, hfirst, Nat.zero_add] at h
        obtain ⟨before, first, between, rfl, hsuccess⟩ := ih h
        refine ⟨evaluation :: before, first, between, rfl, ?_⟩
        rwa [evaluateAll_cons]
      · exact ⟨[], evaluation, rest, rfl, hfirst⟩

variable (confidenceBelow review eventId actionKey) in
/-- Whenever an event comes again after an action succeeded for it, at most fifty summaries of
the rule so far are not before the summary of that run. -/
def Remembered (evaluations : List Evaluation) : Prop :=
  ∀ before first between second after,
    evaluations = before ++ first :: (between ++ second :: after) →
    second.stored.event.eventId = eventId →
    successesIn confidenceBelow eventId actionKey
      (evaluateAll confidenceBelow review before) first ≠ 0 →
    ∀ summary ∈ (evaluateRule confidenceBelow (evaluateAll confidenceBelow review before) first).2.2,
      (summariesAfter confidenceBelow review (before ++ first :: between)).countP
        (fun other => notBefore other summary) ≤ 50

theorem Remembered.of_append {before after : List Evaluation}
    (h : Remembered confidenceBelow review eventId actionKey (before ++ after)) :
    Remembered confidenceBelow review eventId actionKey before := by
  rintro start first between second rest rfl
  exact h start first between second (rest ++ after) (by simp)

theorem successesIn_again {before between : List Evaluation} {first second : Evaluation}
    (hfirst : successesIn confidenceBelow eventId actionKey
      (evaluateAll confidenceBelow review before) first ≠ 0)
    (hkept : ∀ summary ∈
      (evaluateRule confidenceBelow (evaluateAll confidenceBelow review before) first).2.2,
      (summariesAfter confidenceBelow review (before ++ first :: between)).countP
        (fun other => notBefore other summary) ≤ 50) :
    successesIn confidenceBelow eventId actionKey
      (evaluateAll confidenceBelow review (before ++ first :: between)) second = 0 := by
  obtain ⟨hevent, hrun, hcount⟩ := successesIn_ne_zero hfirst
  have hkeeps := keeps_evaluateAll confidenceBelow review
    (before ++ first :: between)
  have hadded : plannedSummary (evaluateAll confidenceBelow review before) first ∈
      summariesAfter confidenceBelow review (before ++ first :: between) := by
    rw [summariesAfter, addedSummaries_append, addedSummaries, hrun]
    simp
  have hmem := hkeeps.recent _ hadded (hkept _ (by rw [hrun]; rfl))
  have hrecorded := alreadyRecorded_of_succeeded hmem hcount
  by_contra hagain
  obtain ⟨hsecond, -, hnone⟩ := successesIn_ne_zero hagain
  have hkey : homeGuardianIdempotencyKey (evaluateAll confidenceBelow review before) first.stored
      actionKey = homeGuardianIdempotencyKey
        (evaluateAll confidenceBelow review (before ++ first :: between)) second.stored
        actionKey := by
    have hearlier := keeps_evaluateAll confidenceBelow review before
    rw [hearlier.same, hkeeps.same]
    simp only [homeGuardianIdempotencyKey, hevent, hsecond]
  rw [hkey] at hrecorded
  exact hnone (countP_succeeded_of_recorded hrecorded)

/-- An action of a rule succeeds at most once for an event as long as the history of the rule
reaches back to the run in which it did. -/
theorem action_succeeds_at_most_once (confidenceBelow : ConfidenceBelow)
    (review : AutomationRuleReview) (evaluations : List Evaluation) (eventId actionKey : String)
    (hactions : DistinctActions review)
    (hremembered : Remembered confidenceBelow review eventId actionKey evaluations) :
    successes confidenceBelow eventId actionKey review evaluations ≤ 1 := by
  induction evaluations using List.reverseRecOn with
  | nil => exact Nat.zero_le 1
  | append_singleton before second ih =>
      have hbefore := ih hremembered.of_append
      have hkeeps := keeps_evaluateAll confidenceBelow review before
      have hone : successesIn confidenceBelow eventId actionKey
          (evaluateAll confidenceBelow review before) second ≤ 1 := by
        apply successesIn_le_one
        rw [hkeeps.same]
        exact hactions
      rw [successes_append, successes, successes, Nat.add_zero]
      by_cases hsecond : successesIn confidenceBelow eventId actionKey
          (evaluateAll confidenceBelow review before) second = 0
      · omega
      · have hnone : successes confidenceBelow eventId actionKey review before = 0 := by
          by_contra hsome
          obtain ⟨start, first, between, rfl, hfirst⟩ := exists_first_success hsome
          apply hsecond
          exact successesIn_again hfirst
            (hremembered start first between second [] (by simp)
              (successesIn_ne_zero hsecond).1 hfirst)
        omega

theorem length_addedSummaries_le (confidenceBelow : ConfidenceBelow)
    (review : AutomationRuleReview) (evaluations : List Evaluation) :
    (addedSummaries confidenceBelow review evaluations).length ≤ evaluations.length := by
  induction evaluations generalizing review with
  | nil => exact Nat.le_refl 0
  | cons evaluation rest ih =>
      have hrest := ih (evaluateRule confidenceBelow review evaluation).1
      have hone := Option.length_toList_le
        (o := (evaluateRule confidenceBelow review evaluation).2.2)
      rw [addedSummaries, List.length_append, List.length_cons]
      omega

theorem remembered_of_short (h : review.runSummaries.length + evaluations.length ≤ 50) :
    Remembered confidenceBelow review eventId actionKey evaluations := by
  rintro before first between second after rfl - - summary -
  have hadded := length_addedSummaries_le confidenceBelow review (before ++ first :: between)
  have hcount := List.countP_le_length (p := fun other => notBefore other summary)
    (l := summariesAfter confidenceBelow review (before ++ first :: between))
  rw [summariesAfter, List.length_append] at hcount
  simp only [List.length_append, List.length_cons] at h hadded
  unfold summariesAfter
  omega

end AtMostOnce

def visitRule : AutomationRuleReview where
  reviewId := "review-1"
  workspaceId := "home"
  source := "home_guardian"
  sourceChannel := none
  sourceConversationId := none
  originalPrompt := "tell me when somebody is at the door"
  status := "active"
  triggerDefinition := some (obj [])
  conditionDefinition := none
  actionPlan := some (obj [("kind", string "notify")])
  deviceRefs := []
  riskLevel := none
  requiresApproval := true
  createdAt := none
  updatedAt := none
  expiresAt := none
  ruleId := none
  runSummaries := []
  metadata := none

def storedVisit (eventId : String) : StoredLocalVisionEvent where
  receivedAt := "epoch_ms:1"
  event :=
    { eventId := eventId
      cameraId := "cam-1"
      eventType := "person_detected"
      confidence := 0x3F000000
      summary := "visitor"
      snapshotArtifact := {}
      startedAt := "epoch_ms:1"
      analyzer := "cpu"
      latencyMs := 5 }
  auditRecord := .null
  haMqttPayload := .null

def delivered (idempotencyKey : String) : ActionOutcome idempotencyKey where
  result := obj
    [("action", string "notify_default_target"),
     ("status", string "delivered"),
     ("executed", .bool true),
     ("idempotency_key", string idempotencyKey)]
  names_key := by simp [getStr, Value.get, obj, asStr]

def visit (eventId : String) (now : UInt64) : Evaluation where
  stored := storedVisit eventId
  stamp := { uuid := "1", now := now }
  onlyReviewRequested := true
  executeActive := true
  perform := fun _ plan => delivered plan.idempotencyKey

def noThreshold : ConfidenceBelow :=
  fun _ _ => false

def visitRuleWith (summaries : List Value) : AutomationRuleReview :=
  { visitRule with runSummaries := summaries }

def visitPlan (eventId : String) : HomeGuardianActionExecutionPlan where
  action := obj [("kind", string "notify")]
  actionKey := "notify_default_target"
  idempotencyKey := "review-1" ++ ":" ++ eventId ++ ":" ++ "notify_default_target"
  kind := .notifyDefaultTarget

theorem planned_visit (summaries : List Value) (eventId : String) :
    (homeGuardianActionPlanActions (visitRuleWith summaries).actionPlan).map
      (homeGuardianActionExecutionPlan (visitRuleWith summaries) (storedVisit eventId)) =
        [visitPlan eventId] := by
  have hactions : homeGuardianActionPlanActions visitRule.actionPlan =
      [obj [("kind", string "notify")]] := by decide
  have hkey : homeGuardianActionKey (obj [("kind", string "notify")]) =
      "notify_default_target" := by decide
  have hkind : homeGuardianActionIsNotify (obj [("kind", string "notify")]) = true := by
    decide
  rw [visitRuleWith]
  dsimp only
  rw [hactions, List.map_singleton, homeGuardianActionExecutionPlan]
  simp only [hkey, hkind, if_true, homeGuardianIdempotencyKey, visitRule, storedVisit, visitPlan,
    Option.filter_none, Option.getD_none]

theorem buildPlan_visit (summaries : List Value) (eventId : String) (now : UInt64) :
    buildHomeGuardianRuleEvaluationPlan noThreshold (visitRuleWith summaries)
        (visit eventId now).stored (visit eventId now).onlyReviewRequested
        (visit eventId now).executeActive (visit eventId now).stamp =
      some (.execute (visitRuleWith summaries) [visitPlan eventId]) := by
  have hguardian : automationReviewIsHomeGuardian (visitRuleWith summaries) = true := by
    have hrule : automationReviewIsHomeGuardian visitRule = true := by decide
    simp only [automationReviewIsHomeGuardian, visitRuleWith] at hrule ⊢
    exact hrule
  have htrigger : (visitRuleWith summaries).triggerDefinition = some (obj []) := by
    simp only [visitRuleWith, visitRule]
  have hmatches : homeGuardianTriggerMatchesEvent noThreshold (obj []) (storedVisit eventId) =
      (true, "matched") := by
    simp [homeGuardianTriggerMatchesEvent, jsonStringAtPaths, stringAtPaths, obj, Value.pointer,
      lookupField]
  have hstatus : (visitRuleWith summaries).status = "active" := by
    simp only [visitRuleWith, visitRule]
  have hplans := planned_visit summaries eventId
  have hsome : homeGuardianActionPlanActions (visitRuleWith summaries).actionPlan ≠ [] := by
    intro hnone
    rw [hnone] at hplans
    cases hplans
  unfold buildHomeGuardianRuleEvaluationPlan
  simp only [visit, hguardian, htrigger, hmatches, hstatus, hplans]
  simp [hsome]

theorem append_visitRuleWith (summaries : List Value) (summary : Value) :
    appendHomeGuardianRunSummary (visitRuleWith summaries) summary =
      visitRuleWith (latestHomeGuardianRunSummaries (summaries ++ [summary])) := rfl

theorem evaluateRule_visit (summaries : List Value) (eventId : String) (now : UInt64) :
    evaluateRule noThreshold (visitRuleWith summaries) (visit eventId now) =
      (visitRuleWith (latestHomeGuardianRunSummaries
          (summaries ++ [plannedSummary (visitRuleWith summaries) (visit eventId now)])),
        plannedRuns (visitRuleWith summaries) (visit eventId now),
        some (plannedSummary (visitRuleWith summaries) (visit eventId now))) := by
  rw [evaluateRule_of_execute noThreshold (buildPlan_visit summaries eventId now),
    append_visitRuleWith]

theorem visit_twice_notified_once :
    DistinctActions visitRule ∧
      successes noThreshold "event-1" "notify_default_target" visitRule [visit "event-1" 1000] =
        1 ∧
      successes noThreshold "event-1" "notify_default_target" visitRule
        [visit "event-1" 1000, visit "event-2" 1000, visit "event-1" 1001] ≤ 1 := by
  have hactions : DistinctActions visitRule := by
    unfold DistinctActions
    decide
  refine ⟨hactions, by decide, ?_⟩
  exact action_succeeds_at_most_once _ _ _ _ _ hactions (remembered_of_short (by decide))

theorem latest_perm (h : summaries.length ≤ 50) :
    (latestHomeGuardianRunSummaries summaries).Perm summaries := by
  rw [latest_eq, List.take_of_length_le (by rwa [List.length_mergeSort])]
  exact (List.reverse_perm _).trans (List.mergeSort_perm _ _)

theorem trim_toString (n : Nat) : Text.trim (toString n) = toString n := by
  have hdigits : ∀ c ∈ (toString n).toList, Text.isWhitespace c = false := by
    intro c hc
    rw [Nat.toString_eq_repr, Nat.toList_repr] at hc
    have hdigit := Nat.isDigit_of_mem_toDigits (by decide) (by decide) hc
    have hbounds : 48 ≤ c.toNat ∧ c.toNat ≤ 57 := Char.isDigit_iff_toNat.mp hdigit
    unfold Text.isWhitespace
    simp only [Bool.or_eq_false_iff, Bool.and_eq_false_iff, decide_eq_false_iff_not, beq_eq_false_iff_ne]
    omega
  rw [Text.trim, Text.trimChars, List.dropWhile_eq_self_iff.mpr, List.rdropWhile_eq_self_iff.mpr,
    String.ofList_toList]
  · intro hlast
    rw [hdigits _ (List.getLast_mem _)]
    decide
  · intro hfirst
    rw [hdigits _ (List.getElem_mem _)]
    decide

theorem summaryTime_visit (review : AutomationRuleReview) (eventId : String) (now : UInt64) :
    summaryTime (plannedSummary review (visit eventId now)) = some (toString now.toNat) := by
  have hpointer : (plannedSummary review (visit eventId now)).pointer ["created_at"] =
      some (string (toString now.toNat)) := by
    simp [plannedSummary, completeHomeGuardianRuleExecution, homeGuardianRuleRunSummary, obj, visit]
  rw [summaryTime, jsonStringAtPaths, stringAtPaths, List.findSome?_cons, hpointer]
  simp only [Option.bind_some, asStr, Option.map_some, trim_toString]
  simp [Option.filter_some]

def visitKey (eventId : String) : String :=
  (visitPlan eventId).idempotencyKey

theorem plannedRuns_visit (summaries : List Value) (eventId : String) (now : UInt64) :
    plannedRuns (visitRuleWith summaries) (visit eventId now) =
      [runAction (visitRuleWith summaries) (visit eventId now) 0 (visitPlan eventId)] := by
  have hplans := planned_visit summaries eventId
  rw [plannedRuns]
  simp only [visit, hplans]
  rfl

theorem recorded_visit {eventId key : String} {now : UInt64} (h : homeGuardianRunAlreadyRecorded
      (visitRuleWith [plannedSummary (visitRuleWith summaries) (visit eventId now)]) key = true) :
    key = visitKey eventId := by
  have hkey : getStr (runAction (visitRuleWith summaries) (visit eventId now) 0
      (visitPlan eventId)).result "idempotency_key" = some (visitKey eventId) := by
    unfold runAction
    split
    · simp [ActionRun.result, homeGuardianIdempotentActionResult, getStr, Value.get, obj, asStr,
        visitKey]
    · exact (delivered (visitPlan eventId).idempotencyKey).names_key
  rw [homeGuardianRunAlreadyRecorded, List.any_eq_true] at h
  obtain ⟨summary, hsummary, h⟩ := h
  rw [List.mem_singleton.mp hsummary, plannedSummary, completeHomeGuardianRuleExecution,
    actions_runSummary, Option.bind_some, asArray, plannedRuns_visit] at h
  simp only [List.map_cons, List.map_nil, List.any_cons, List.any_nil, Bool.or_false,
    Bool.and_eq_true, beq_iff_eq, get_idempotencyKey_compact, hkey, Option.some.injEq] at h
  exact h.1.symm

def otherVisits (n : Nat) : List Evaluation :=
  (List.range n).map fun i => visit "event-2" (UInt64.ofNat (1001 + i))

def firstSummary : Value :=
  plannedSummary (visitRuleWith []) (visit "event-1" 1000)

def OtherSummary (summary : Value) : Prop :=
  ∃ summaries i, i < 50 ∧
    summary = plannedSummary (visitRuleWith summaries) (visit "event-2" (UInt64.ofNat (1001 + i)))

theorem OtherSummary.later {summary : Value} (h : OtherSummary summary) :
    notBefore firstSummary summary = false := by
  obtain ⟨summaries, i, hi, rfl⟩ := h
  have htimes : ∀ i < 50, optionLe (some (toString (UInt64.ofNat (1001 + i)).toNat))
      (some (toString (1000 : UInt64).toNat)) = false := by decide
  rw [notBefore, firstSummary, summaryTime_visit, summaryTime_visit]
  exact htimes i hi

def otherSummary (summaries : List Value) (i : Nat) : Value :=
  plannedSummary (visitRuleWith summaries) (visit "event-2" (UInt64.ofNat (1001 + i)))

theorem otherVisits_succ (n : Nat) :
    otherVisits (n + 1) = otherVisits n ++ [visit "event-2" (UInt64.ofNat (1001 + n))] := by
  rw [otherVisits, List.range_succ, List.map_append, List.map_singleton, otherVisits]

theorem otherVisits_kept (n : Nat) (hn : n ≤ 49) :
    ∃ summaries others, evaluateAll noThreshold visitRule (visit "event-1" 1000 :: otherVisits n) =
        visitRuleWith summaries ∧ summaries.Perm (firstSummary :: others) ∧
      others.length = n ∧ ∀ summary ∈ others, OtherSummary summary := by
  induction n with
  | zero =>
      refine ⟨latestHomeGuardianRunSummaries ([] ++ [firstSummary]), [], ?_, ?_, rfl, by simp⟩
      · have hfirst := evaluateRule_visit [] "event-1" 1000
        rw [evaluateAll_cons]
        change (evaluateRule noThreshold (visitRuleWith []) _).1 = _
        rw [hfirst, firstSummary]
      · exact latest_perm (by decide)
  | succ n ih =>
      obtain ⟨summaries, others, hrule, hperm, hlength, hothers⟩ := ih (by omega)
      refine ⟨latestHomeGuardianRunSummaries (summaries ++ [otherSummary summaries n]),
        others ++ [otherSummary summaries n], ?_, ?_, ?_, ?_⟩
      · rw [otherVisits_succ, ← List.cons_append, evaluateAll_append, hrule, evaluateAll_cons,
          evaluateRule_visit]
        rfl
      · refine (latest_perm ?_).trans (hperm.append_right _)
        have hcount := hperm.length_eq
        rw [List.length_cons] at hcount
        rw [List.length_append, List.length_singleton]
        omega
      · rw [List.length_append, List.length_singleton, hlength]
      · intro summary hsummary
        rcases List.mem_append.mp hsummary with hold | hnew
        · exact hothers summary hold
        · exact ⟨summaries, n, by omega, List.mem_singleton.mp hnew⟩

theorem first_visit_forgotten :
    ∃ summaries, evaluateAll noThreshold visitRule (visit "event-1" 1000 :: otherVisits 50) =
        visitRuleWith summaries ∧ ∀ summary ∈ summaries, OtherSummary summary := by
  obtain ⟨summaries, others, hrule, hperm, hlength, hothers⟩ := otherVisits_kept 49 (by decide)
  have hnew : OtherSummary (otherSummary summaries 49) := ⟨summaries, 49, by decide, rfl⟩
  refine ⟨latestHomeGuardianRunSummaries (summaries ++ [otherSummary summaries 49]), ?_, ?_⟩
  · rw [otherVisits_succ, ← List.cons_append, evaluateAll_append, hrule, evaluateAll_cons,
      evaluateRule_visit]
    rfl
  · have hcount : 50 ≤ (summaries ++ [otherSummary summaries 49]).countP
        (fun other => !notBefore firstSummary other) := by
      have hlater : (others ++ [otherSummary summaries 49]).countP
          (fun other => !notBefore firstSummary other) = 50 := by
        rw [List.countP_eq_length.mpr]
        · rw [List.length_append, hlength, List.length_singleton]
        · intro summary hsummary
          rw [Bool.not_eq_true']
          rcases List.mem_append.mp hsummary with hold | hlast
          · exact (hothers summary hold).later
          · rw [List.mem_singleton.mp hlast]
            exact hnew.later
      rw [(hperm.append_right _).countP_eq, List.cons_append, List.countP_cons, hlater]
      omega
    have hforgotten : firstSummary ∉
        latestHomeGuardianRunSummaries (summaries ++ [otherSummary summaries 49]) := by
      rw [latest_eq, List.mem_reverse]
      exact not_mem_take_mergeSort notBefore_trans notBefore_total hcount
    intro summary hsummary
    have hmem := (latest_subperm _).subset hsummary
    rcases List.mem_append.mp hmem with hold | hlast
    · rcases List.mem_cons.mp (hperm.mem_iff.mp hold) with rfl | hother
      · exact absurd hsummary hforgotten
      · exact hothers summary hother
    · rw [List.mem_singleton.mp hlast]
      exact hnew

theorem successesIn_visit {eventId : String} {now : UInt64}
    (h : homeGuardianRunAlreadyRecorded (visitRuleWith summaries) (visitKey eventId) = false) :
    successesIn noThreshold eventId "notify_default_target" (visitRuleWith summaries)
      (visit eventId now) = 1 := by
  have hstatus : hasStatus ["delivered", "acted"]
      (delivered (visitPlan eventId).idempotencyKey).result = true := by
    simp [hasStatus, getStr, delivered, Value.get, obj, asStr]
  have hrun : runAction (visitRuleWith summaries) (visit eventId now) 0 (visitPlan eventId) =
      .performed (visitPlan eventId) (delivered (visitPlan eventId).idempotencyKey) := by
    rw [visitKey] at h
    rw [runAction, h]
    rfl
  rw [successesIn, evaluateRule_visit]
  simp only
  rw [plannedRuns_visit, hrun, List.countP_singleton, ActionRun.succeeded, hstatus]
  simp [visitPlan, visit, storedVisit]

/-- A visit that is reported again after fifty other runs is announced again. -/
theorem late_duplicate_notified_again :
    1 < successes noThreshold "event-1" "notify_default_target" visitRule
      (visit "event-1" 1000 :: otherVisits 50 ++ [visit "event-1" 1051]) := by
  obtain ⟨summaries, hrule, hothers⟩ := first_visit_forgotten
  have hunrecorded : homeGuardianRunAlreadyRecorded (visitRuleWith summaries)
      (visitKey "event-1") = false := by
    by_contra hrecorded
    rw [Bool.not_eq_false, homeGuardianRunAlreadyRecorded, List.any_eq_true] at hrecorded
    obtain ⟨summary, hsummary, hrecords⟩ := hrecorded
    obtain ⟨earlier, i, -, rfl⟩ := hothers summary hsummary
    have hother : homeGuardianRunAlreadyRecorded (visitRuleWith [plannedSummary
        (visitRuleWith earlier) (visit "event-2" (UInt64.ofNat (1001 + i)))])
          (visitKey "event-1") = true := by
      rw [homeGuardianRunAlreadyRecorded, List.any_eq_true]
      exact ⟨_, List.mem_singleton_self _, hrecords⟩
    exact absurd (recorded_visit hother) (by decide)
  have hnew : homeGuardianRunAlreadyRecorded (visitRuleWith []) (visitKey "event-1") = false := rfl
  have hfirst : successesIn noThreshold "event-1" "notify_default_target" visitRule
      (visit "event-1" 1000) = 1 := successesIn_visit hnew
  have hlast : successesIn noThreshold "event-1" "notify_default_target" (visitRuleWith summaries)
      (visit "event-1" 1051) = 1 := successesIn_visit hunrecorded
  rw [successes_append, hrule, successes, successes, successes, hlast, hfirst]
  omega

end HarborBeacon.HomeGuardian
