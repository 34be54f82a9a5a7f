import HarborBeacon.WorkflowCompiler

/-!
Two reports count what a workflow makes of a list of cases. One is the evaluation, the other one is
the evidence that the workflow agrees with the current plan.
-/

namespace HarborBeacon.WorkflowReports

open WorkflowCompiler

structure WorkflowEvalCase where
  id : String
  input : String
  expectedCandidateKind : Option String
  minConfidence : Nat

structure WorkflowEvalCaseResult where
  id : String
  input : String
  expectedCandidateKind : Option String
  candidateKind : Option String
  confidence : Option Nat
  correct : Bool
  lowConfidenceRejection : Bool
  unsafeAction : Bool
  reason : String

structure WorkflowEvalReport where
  workflowId : String
  totalCases : Nat
  correctCases : Nat
  lowConfidenceRejections : Nat
  unauthorizedActionCount : Nat
  passed : Bool
  cases : List WorkflowEvalCaseResult

structure WorkflowShadowEvidenceCase where
  caseId : String
  inputSha256 : String
  inputRedacted : Bool
  currentPlanKind : Option String
  compilerCandidateKind : Option String
  compilerConfidence : Option Nat
  matchedCurrentPlan : Bool
  readOnly : Bool
  unsafeAction : Bool
  lowConfidenceRejection : Bool
  outcome : String

structure WorkflowShadowEvidenceReport where
  kind : String
  workflowId : String
  source : String
  redacted : Bool
  totalCases : Nat
  matchedCurrentPlanCases : Nat
  lowConfidenceRejections : Nat
  unauthorizedActionCount : Nat
  passed : Bool
  cases : List WorkflowShadowEvidenceCase

section Model

variable (spec : WorkflowSpec) (evalCase : WorkflowEvalCase)

def bestScore : Option Nat :=
  let normalized := normalizeWorkflowText evalCase.input
  if denyPhraseMatches normalized spec.denyPhrases = true then none
  else (bestNodeMatch spec normalized).map Prod.snd

def unsafeAction : Bool :=
  (compileWorkflowCandidate spec evalCase.input).any WorkflowCandidate.hasUnsafeAction

def lowConfidenceRejection : Bool :=
  evalCase.expectedCandidateKind.isSome && (compileWorkflowCandidate spec evalCase.input).isNone &&
    (bestScore spec evalCase).any fun score => score < spec.minConfidence

def correct : Bool :=
  let candidate := compileWorkflowCandidate spec evalCase.input
  (match evalCase.expectedCandidateKind, candidate.map (·.candidateKind) with
    | some expected, some actual =>
        decide (expected = actual) &&
          decide (evalCase.minConfidence ≤ (candidate.map (·.confidence)).getD 0)
    | none, none => true
    | _, _ => false) && !unsafeAction spec evalCase

def evalResult : WorkflowEvalCaseResult :=
  let candidate := compileWorkflowCandidate spec evalCase.input
  { id := evalCase.id
    input := evalCase.input
    expectedCandidateKind := evalCase.expectedCandidateKind
    candidateKind := candidate.map (·.candidateKind)
    confidence := candidate.map (·.confidence)
    correct := correct spec evalCase
    lowConfidenceRejection := lowConfidenceRejection spec evalCase
    unsafeAction := unsafeAction spec evalCase
    reason := (candidate.map (·.reason)).getD "no workflow candidate" }

structure Tally where
  correctCases : Nat
  lowConfidenceRejections : Nat
  unauthorizedActionCount : Nat
  results : List WorkflowEvalCaseResult

def evalStep (tally : Tally) : Tally :=
  let result := evalResult spec evalCase
  { correctCases := if result.correct then tally.correctCases + 1 else tally.correctCases
    lowConfidenceRejections :=
      if result.lowConfidenceRejection then tally.lowConfidenceRejections + 1
      else tally.lowConfidenceRejections
    unauthorizedActionCount :=
      if result.unsafeAction then tally.unauthorizedActionCount + 1
      else tally.unauthorizedActionCount
    results := tally.results ++ [result] }

def evaluateCases (tally : Tally) : List WorkflowEvalCase → Tally
  | [] => tally
  | evalCase :: rest => evaluateCases (evalStep spec evalCase tally) rest

def evaluateWorkflow (cases : List WorkflowEvalCase) : WorkflowEvalReport :=
  let tally := evaluateCases spec ⟨0, 0, 0, []⟩ cases
  { workflowId := spec.id
    totalCases := cases.length
    correctCases := tally.correctCases
    lowConfidenceRejections := tally.lowConfidenceRejections
    unauthorizedActionCount := tally.unauthorizedActionCount
    passed := tally.correctCases = cases.length && tally.unauthorizedActionCount = 0
    cases := tally.results }

def matchedCurrentPlan : Bool :=
  match evalCase.expectedCandidateKind,
    (compileWorkflowCandidate spec evalCase.input).map (·.candidateKind) with
  | some expected, some actual => expected = actual
  | none, none => true
  | _, _ => false

def shadowOutcome : String :=
  if unsafeAction spec evalCase then "unsafe_action"
  else if matchedCurrentPlan spec evalCase then "matched_current_plan"
  else if lowConfidenceRejection spec evalCase then "low_confidence_rejection"
  else "mismatch"

variable (shortSha256 : String → String)

def shadowCase : WorkflowShadowEvidenceCase :=
  let candidate := compileWorkflowCandidate spec evalCase.input
  { caseId := evalCase.id
    inputSha256 := shortSha256 evalCase.input
    inputRedacted := true
    currentPlanKind := evalCase.expectedCandidateKind
    compilerCandidateKind := candidate.map (·.candidateKind)
    compilerConfidence := candidate.map (·.confidence)
    matchedCurrentPlan := matchedCurrentPlan spec evalCase
    readOnly := (candidate.map (·.readOnly)).getD true
    unsafeAction := unsafeAction spec evalCase
    lowConfidenceRejection := lowConfidenceRejection spec evalCase
    outcome := shadowOutcome spec evalCase }

def buildWorkflowShadowEvidenceReport (cases : List WorkflowEvalCase) :
    WorkflowShadowEvidenceReport :=
  let report := evaluateWorkflow spec cases
  { kind := "workflow_compiler_shadow_evidence_v1"
    workflowId := spec.id
    source := "embedded_system_diagnostics_eval_cases"
    redacted := true
    totalCases := report.totalCases
    matchedCurrentPlanCases := report.correctCases
    lowConfidenceRejections := report.lowConfidenceRejections
    unauthorizedActionCount := report.unauthorizedActionCount
    passed := report.passed
    cases := cases.map fun evalCase => shadowCase spec evalCase shortSha256 }

end Model

section Counts

variable {spec : WorkflowSpec} {evalCase : WorkflowEvalCase} {cases : List WorkflowEvalCase}
  {tally : Tally}

/-- The counters count the flags of the results. -/
structure Counted (tally : Tally) : Prop where
  correctCases : tally.correctCases = tally.results.countP (·.correct)
  lowConfidenceRejections :
    tally.lowConfidenceRejections = tally.results.countP (·.lowConfidenceRejection)
  unauthorizedActionCount :
    tally.unauthorizedActionCount = tally.results.countP (·.unsafeAction)

theorem countP_concat {α : Type} (flag : α → Bool) (items : List α) (item : α) :
    (items ++ [item]).countP flag =
      if flag item then items.countP flag + 1 else items.countP flag := by
  rw [List.countP_append, List.countP_singleton]
  split <;> rfl

theorem Counted.evalStep (h : Counted tally) (spec : WorkflowSpec) (evalCase : WorkflowEvalCase) :
    Counted (evalStep spec evalCase tally) := by
  constructor
  · rw [WorkflowReports.evalStep, countP_concat, h.correctCases]
  · rw [WorkflowReports.evalStep, countP_concat, h.lowConfidenceRejections]
  · rw [WorkflowReports.evalStep, countP_concat, h.unauthorizedActionCount]

theorem Counted.evaluateCases (h : Counted tally) (spec : WorkflowSpec)
    (cases : List WorkflowEvalCase) :
    Counted (evaluateCases spec tally cases) ∧
      (evaluateCases spec tally cases).results = tally.results ++ cases.map (evalResult spec) := by
  induction cases generalizing tally with
  | nil => exact ⟨h, (List.append_nil _).symm⟩
  | cons evalCase rest ih =>
      rw [WorkflowReports.evaluateCases, List.map_cons, List.append_cons]
      exact ih (h.evalStep spec evalCase)

/-- The totals of an evaluation are the numbers of its flags. -/
structure EvalConsistent (report : WorkflowEvalReport) : Prop where
  correctCases : report.correctCases = report.cases.countP (·.correct)
  lowConfidenceRejections :
    report.lowConfidenceRejections = report.cases.countP (·.lowConfidenceRejection)
  unauthorizedActionCount :
    report.unauthorizedActionCount = report.cases.countP (·.unsafeAction)
  passed : report.passed = true ↔
    ∀ result ∈ report.cases, result.correct = true ∧ result.unsafeAction = false

structure ShadowConsistent (report : WorkflowShadowEvidenceReport) : Prop where
  matchedCurrentPlanCases :
    report.matchedCurrentPlanCases = report.cases.countP (·.matchedCurrentPlan)
  lowConfidenceRejections :
    report.lowConfidenceRejections = report.cases.countP (·.lowConfidenceRejection)
  unauthorizedActionCount :
    report.unauthorizedActionCount = report.cases.countP (·.unsafeAction)
  passed : report.passed = true ↔
    ∀ evidence ∈ report.cases, evidence.matchedCurrentPlan = true ∧ evidence.unsafeAction = false

theorem counted_start : Counted ⟨0, 0, 0, []⟩ :=
  ⟨rfl, rfl, rfl⟩

theorem cases_evaluateWorkflow (spec : WorkflowSpec) (cases : List WorkflowEvalCase) :
    (evaluateWorkflow spec cases).cases = cases.map (evalResult spec) :=
  (counted_start.evaluateCases spec cases).2

theorem evalConsistent_evaluateWorkflow (spec : WorkflowSpec) (cases : List WorkflowEvalCase) :
    EvalConsistent (evaluateWorkflow spec cases) := by
  obtain ⟨hcounted, hresults⟩ := counted_start.evaluateCases spec cases
  refine ⟨hcounted.correctCases, hcounted.lowConfidenceRejections,
    hcounted.unauthorizedActionCount,
    (Bool.and_eq_true_iff.trans (and_congr decide_eq_true_iff decide_eq_true_iff)).trans ?_⟩
  have hlength : cases.length = (evaluateCases spec ⟨0, 0, 0, []⟩ cases).results.length := by
    rw [hresults, List.nil_append, List.length_map]
  rw [hcounted.correctCases, hcounted.unauthorizedActionCount, hlength, List.countP_eq_length,
    List.countP_eq_zero, ← forall₂_and]
  simp only [Bool.not_eq_true, evaluateWorkflow]

theorem matchedCurrentPlan_iff : matchedCurrentPlan spec evalCase = true ↔
    evalCase.expectedCandidateKind =
      (compileWorkflowCandidate spec evalCase.input).map (·.candidateKind) := by
  rw [matchedCurrentPlan]
  generalize (compileWorkflowCandidate spec evalCase.input).map (·.candidateKind) = actual
  rcases evalCase.expectedCandidateKind with _ | expected
  · cases actual <;> simp
  · cases actual <;> simp

/-- The condition of the evaluation that the evidence does not look at. -/
def Firm (spec : WorkflowSpec) (evalCase : WorkflowEvalCase) : Prop :=
  ∀ candidate, compileWorkflowCandidate spec evalCase.input = some candidate →
    evalCase.expectedCandidateKind = some candidate.candidateKind →
      evalCase.minConfidence ≤ candidate.confidence ∧ candidate.hasUnsafeAction = false

theorem correct_iff : correct spec evalCase = true ↔
    matchedCurrentPlan spec evalCase = true ∧ Firm spec evalCase := by
  rw [matchedCurrentPlan_iff, correct, unsafeAction, Firm]
  rcases compileWorkflowCandidate spec evalCase.input with _ | candidate
  · rcases evalCase.expectedCandidateKind with _ | expected <;> simp
  · rcases evalCase.expectedCandidateKind with _ | expected
    · simp
    · simp
      tauto

theorem countP_eq_countP_iff {α : Type} {p q : α → Bool} {items : List α}
    (h : ∀ item, p item = true → q item = true) :
    items.countP p = items.countP q ↔ ∀ item ∈ items, q item = true → p item = true := by
  have hcount : items.countP p = (items.filter q).countP p := by
    rw [List.countP_filter]
    exact List.countP_congr fun item _ => by simpa using h item
  rw [hcount, List.countP_eq_length_filter (p := q), List.countP_eq_length]
  simp only [List.mem_filter, and_imp]

/-- The evidence counts the correct cases, so it agrees with its flags if each match is firm. -/
theorem reports_consistent_iff (shortSha256 : String → String) (spec : WorkflowSpec)
    (cases : List WorkflowEvalCase) :
    EvalConsistent (evaluateWorkflow spec cases) ∧
        ShadowConsistent (buildWorkflowShadowEvidenceReport spec shortSha256 cases) ↔
      ∀ evalCase ∈ cases, Firm spec evalCase := by
  have heval := evalConsistent_evaluateWorkflow spec cases
  have hresults := cases_evaluateWorkflow spec cases
  have hevidence : (buildWorkflowShadowEvidenceReport spec shortSha256 cases).cases =
      cases.map fun evalCase => shadowCase spec evalCase shortSha256 := rfl
  have hmatched : (evaluateWorkflow spec cases).correctCases =
      (buildWorkflowShadowEvidenceReport spec shortSha256 cases).cases.countP
        (·.matchedCurrentPlan) ↔ ∀ evalCase ∈ cases,
          matchedCurrentPlan spec evalCase = true → correct spec evalCase = true := by
    rw [heval.correctCases, hresults, hevidence, List.countP_map, List.countP_map]
    exact countP_eq_countP_iff fun evalCase h => (correct_iff.mp h).1
  have hfirm : (∀ evalCase ∈ cases,
      matchedCurrentPlan spec evalCase = true → correct spec evalCase = true) ↔
        ∀ evalCase ∈ cases, Firm spec evalCase := by
    refine forall₂_congr fun evalCase _ => ⟨fun h candidate hcandidate hkind => ?_,
      fun h hmatch => correct_iff.mpr ⟨hmatch, h⟩⟩
    exact (correct_iff.mp (h (matchedCurrentPlan_iff.mpr (by rw [hkind, hcandidate]; rfl)))).2
      candidate hcandidate hkind
  rw [← hfirm]
  refine ⟨fun h => hmatched.mp h.2.matchedCurrentPlanCases,
    fun h => ⟨heval, hmatched.mpr h, ?_, ?_, heval.passed.trans ?_⟩⟩
  · refine heval.lowConfidenceRejections.trans ?_
    rw [hresults, hevidence, List.countP_map, List.countP_map]
    rfl
  · refine heval.unauthorizedActionCount.trans ?_
    rw [hresults, hevidence, List.countP_map, List.countP_map]
    rfl
  · rw [hresults, hevidence, List.forall_mem_map, List.forall_mem_map]
    exact forall₂_congr fun evalCase hmem => and_congr_left fun _ =>
      ⟨fun hcorrect => (correct_iff.mp hcorrect).1, h evalCase hmem⟩

def firmCase : WorkflowEvalCase where
  id := "weak_status"
  input := "Status?"
  expectedCandidateKind := some "system_readiness"
  minConfidence := 99

theorem shadow_counts_correct_cases :
    ¬ ShadowConsistent (buildWorkflowShadowEvidenceReport statusWorkflow (fun _ => "7fa2d11897a5")
      [firmCase]) :=
  fun h => absurd h.matchedCurrentPlanCases (by decide)

end Counts

end HarborBeacon.WorkflowReports
