import HarborBeacon.Binary32
import HarborBeacon.EndpointClients
import HarborBeacon.FilledTables
import HarborBeacon.LocalOnlyRouting
import Mathlib.Data.Prod.Lex

/-!
Reranking of the documents that a search found. Blank documents are left out before the endpoint
scores the others, and a score says with an index which document it is for.
-/

namespace HarborBeacon.RerankScores

open Binary32 EndpointClients FilledTables Json Json.Value
open LocalOnlyRouting (plainSurroundings)
open ModelCenter ModelRouting Text

structure RerankRequest where
  query : String
  documents : List String
  topN : Nat
deriving DecidableEq

/-- A score for the document at an index: a `RerankScore` of the client, and the
`RerankDocumentScore` that is made of it. -/
structure RerankDocumentScore where
  index : Nat
  score : F32
deriving DecidableEq

structure RerankResponse where
  scores : List RerankDocumentScore
  rawResponse : Value
deriving DecidableEq

/-- `as_f64`, cast to `f32`. -/
def asSingle : Value → Option F32
  | .number (.unsigned n) => some (.ofInt n.toNat)
  | .number (.negative n) => some (.ofInt n.toInt)
  | .number (.float bits) => some (.ofDouble bits)
  | _ => none

def sortScores (scores : List RerankDocumentScore) : List RerankDocumentScore :=
  sortOn (fun score => toLex (OrderDual.toDual score.score.totalRank, score.index)) scores

def readScore (item : Value) : Option RerankDocumentScore := do
  let index ← (← item.get "index").asU64
  let score ← asSingle (← (item.get "relevance_score").or (item.get "score"))
  if score.isFinite then some { index := index.toNat, score := score } else none

def extractRerankScores (value : Value) : List RerankDocumentScore :=
  match ((value.get "results").bind asArray).or value.asArray with
  | some results => sortScores (results.filterMap readScore)
  | none => []

def rerankUrl (baseUrl rerankPath : String) : String :=
  let base := trimEndSlashes (trim baseUrl)
  let path := trim rerankPath
  if path = "" then base ++ "/rerank"
  else if startsWithText path "/" then base ++ path
  else base ++ "/" ++ path

def rerankPayload (config : RerankCompatibleConfig) (request : RerankRequest) : Value :=
  obj
    [("model", string config.model), ("query", string request.query),
     ("documents", ofStrings request.documents), ("texts", ofStrings request.documents),
     ("top_n", number (.unsigned (UInt64.ofNat (max request.topN 1))))]

/-- The client of the service: whether it can be built, and what a request to an address with a
key and a payload brings back. -/
structure RerankHost where
  newClient : RerankCompatibleConfig → Except String Unit
  post : String → String → Value → Except String Value

def rerank (host : RerankHost) (config : RerankCompatibleConfig) (request : RerankRequest) :
    Except String RerankResponse :=
  if isBlank request.query then .error "rerank query is empty"
  else if request.documents = [] then .error "rerank documents are empty"
  else do
    let rawResponse ← host.post (rerankUrl config.baseUrl config.rerankPath) config.apiKey
      (rerankPayload config request)
    let scores := extractRerankScores rawResponse
    if scores = [] then .error "rerank-compatible response did not contain scores"
    else .ok { scores := scores, rawResponse := rawResponse }

section Execution

structure RerankExecution where
  available : Bool := false
  status : String := ""
  summary : String := ""
  providerKey : String := ""
  modelEndpointId : Option String := none
  modelName : Option String := none
  scores : List RerankDocumentScore := []
  details : Value := obj []
deriving DecidableEq

def rerankPolicyId : String := "retrieval.rerank"

def mockRerankScoresFromEndpoint (endpoint : ModelEndpoint) (documentCount : Nat) :
    Option (List RerankDocumentScore) := do
  let values ← (← endpoint.metadata.get "mock_rerank_scores").asArray
  some (sortScores (values.zipIdx.filterMap fun (value, index) => do
    let score ← asSingle value
    if index < documentCount ∧ score.isFinite = true then
      some { index := index, score := score }
    else none))

def localOnlyDetails (fields : Fields) : Value :=
  obj ([("route_policy_id", string rerankPolicyId)] ++ fields ++
    [("local_only", .bool true), ("fallback_allowed", .bool false)])

def executionOn (endpoint : ModelEndpoint) (status summary : String) (fields : Fields) :
    RerankExecution where
  status := status
  summary := summary
  providerKey := endpoint.providerKey
  modelEndpointId := some endpoint.modelEndpointId
  modelName := some endpoint.modelName
  details := localOnlyDetails fields

def kindField (endpoint : ModelEndpoint) : Fields :=
  [("endpoint_kind", string endpoint.endpointKind.asStr)]

structure RerankAnswer where
  scores : List RerankDocumentScore
  summary : String
  fields : Fields
deriving DecidableEq

def rerankAnswer (host : RerankHost) (endpoint : ModelEndpoint) (query : String)
    (documents : List String) (topN : Nat) : Except RerankExecution RerankAnswer :=
  if endpoint.endpointKind = .cloud then
    .error (executionOn endpoint "blocked"
      "Cloud reranker endpoints are not allowed for retrieval.rerank." (kindField endpoint))
  else
    match mockRerankScoresFromEndpoint endpoint documents.length with
    | some scores =>
        .ok { scores := scores
              summary := "Mock rerank endpoint resolved."
              fields := kindField endpoint }
    | none =>
        if !eqIgnoreAsciiCase endpoint.providerKey "rerank_compatible" then
          .error (executionOn endpoint "degraded"
            ("Rerank endpoint " ++ endpoint.modelEndpointId ++ " is configured, but provider " ++
              endpoint.providerKey ++ " is not implemented yet.") (kindField endpoint))
        else
          match rerankCompatibleConfigFromEndpoint endpoint with
          | none => .error (executionOn endpoint "degraded"
              "Rerank endpoint base_url / model_name are not configured." (kindField endpoint))
          | some config =>
              match host.newClient config with
              | .error error => .error (executionOn endpoint "degraded"
                  ("Failed to build rerank client: " ++ error) [])
              | .ok () =>
                  match rerank host config
                      { query := query, documents := documents, topN := max topN 1 } with
                  | .error error => .error (executionOn endpoint "degraded"
                      ("Rerank request failed: " ++ error) [])
                  | .ok response =>
                      .ok { scores := response.scores.filter fun score =>
                              score.index < documents.length
                            summary := "Rerank request completed."
                            fields := [("raw_response", response.rawResponse)] }

def sentDocuments (documents : List String) : List String :=
  (documents.map trim).filter (· ≠ "")

def disabled (summary : String) : RerankExecution where
  status := "disabled"
  summary := summary

variable (env : Surroundings) (host : RerankHost)

def runRerankWithState (query : String) (documents : List String) (topN : Nat)
    (state : AdminModelCenterState) : RerankExecution :=
  if trim query = "" then disabled "Rerank query is empty."
  else if sentDocuments documents = [] then disabled "Rerank documents are empty."
  else
    match resolveEndpoint env state .reranker rerankPolicyId with
    | none => { disabled "No local rerank endpoint is enabled." with details := localOnlyDetails [] }
    | some endpoint =>
        match rerankAnswer host endpoint (trim query) (sentDocuments documents) topN with
        | .error execution => execution
        | .ok answer =>
            { executionOn endpoint "active" answer.summary answer.fields with
              available := answer.scores ≠ []
              scores := answer.scores }

end Execution

section Positions

variable {α : Type} {p : α → Bool} {l : List α}

theorem le_of_getElem?_findIdxs {start i k : Nat} (h : (l.findIdxs p start)[i]? = some k) :
    start + i ≤ k := by
  induction l generalizing start i with
  | nil => simp at h
  | cons a l ih =>
      rw [List.findIdxs_cons] at h
      split at h
      · rcases i with _ | i
        · simp at h
          omega
        · rw [List.getElem?_cons_succ] at h
          have hle := ih h
          omega
      · have hle := ih h
        omega

theorem getElem?_findIdxs_eq_self_iff (start : Nat) {i : Nat} :
    (l.findIdxs p start)[i]? = some (start + i) ↔ i < (l.takeWhile p).length := by
  induction l generalizing start i with
  | nil => simp
  | cons a l ih =>
      rw [List.findIdxs_cons]
      split
      · rename_i ha
        rw [List.takeWhile_cons_of_pos ha, List.length_cons]
        rcases i with _ | i
        · simp
        · rw [List.getElem?_cons_succ, Nat.succ_lt_succ_iff, ← ih (start + 1)]
          have hplace : start + 1 + i = start + (i + 1) := by omega
          rw [hplace]
      · rename_i ha
        rw [List.takeWhile_cons_of_neg ha, List.length_nil]
        constructor
        · intro h
          have hle := le_of_getElem?_findIdxs h
          omega
        · intro h
          omega

end Positions

section Statements

def isFilled (document : String) : Bool :=
  !isBlank document

def sentPositions (documents : List String) : List Nat :=
  documents.findIdxs isFilled

def scoreForCaller (documents : List String) (score : RerankDocumentScore) :
    Option RerankDocumentScore :=
  (sentPositions documents)[score.index]?.map fun position => { score with index := position }

variable (env : Surroundings) (host : RerankHost) {documents : List String} {query : String}
  {topN : Nat}

def endpointAnswer (query : String) (documents : List String) (topN : Nat)
    (state : AdminModelCenterState) : Option RerankAnswer :=
  if isBlank query = true ∨ sentDocuments documents = [] then none
  else (resolveEndpoint env state .reranker rerankPolicyId).bind fun endpoint =>
    (rerankAnswer host endpoint (trim query) (sentDocuments documents) topN).toOption

/-- Each score that a run returns is one that the endpoint gave, for the document at its position in
the list of the caller. -/
def ScoresReferToCaller (query : String) (documents : List String) (topN : Nat)
    (state : AdminModelCenterState) : Prop :=
  (runRerankWithState env host query documents topN state).scores.map some =
    ((endpointAnswer env host query documents topN state).map fun answer =>
      answer.scores.map (scoreForCaller documents)).getD []

@[simp] theorem sortScores_singleton (score : RerankDocumentScore) :
    sortScores [score] = [score] := by
  rw [sortScores, sortOn, List.mergeSort_singleton]

theorem scores_of_error {endpoint : ModelEndpoint} {execution : RerankExecution}
    (h : rerankAnswer host endpoint query documents topN = .error execution) :
    execution.scores = [] := by
  rw [rerankAnswer] at h
  split at h
  · rw [← Except.error.inj h]
    rfl
  split at h
  · simp at h
  split at h
  · rw [← Except.error.inj h]
    rfl
  split at h
  · rw [← Except.error.inj h]
    rfl
  split at h
  · rw [← Except.error.inj h]
    rfl
  split at h
  · rw [← Except.error.inj h]
    rfl
  · simp at h

theorem scores_runRerankWithState {state : AdminModelCenterState} :
    (runRerankWithState env host query documents topN state).scores =
      ((endpointAnswer env host query documents topN state).map fun answer =>
        answer.scores).getD [] := by
  rw [runRerankWithState, endpointAnswer]
  split
  · rename_i hquery
    simp [isBlank, hquery, disabled]
  split
  · rename_i hdocuments
    simp [hdocuments, disabled]
  rename_i hquery hdocuments
  rw [if_neg (by simp [isBlank, hquery, hdocuments])]
  rcases resolveEndpoint env state .reranker rerankPolicyId with _ | endpoint
  · rfl
  simp only [Option.bind_some]
  rcases hanswer : rerankAnswer host endpoint (trim query) (sentDocuments documents) topN with
    execution | answer
  · exact scores_of_error host hanswer
  · rfl

theorem scoreForCaller_eq_some_self_iff {score : RerankDocumentScore} :
    scoreForCaller documents score = some score ↔
      score.index < (documents.takeWhile isFilled).length := by
  have hself : (documents.findIdxs isFilled 0)[score.index]? = some (0 + score.index) ↔
      score.index < (documents.takeWhile isFilled).length :=
    getElem?_findIdxs_eq_self_iff 0
  rw [Nat.zero_add] at hself
  rw [scoreForCaller, Option.map_eq_some_iff, ← hself]
  constructor
  · rintro ⟨position, hposition, hscore⟩
    rw [sentPositions] at hposition
    rw [hposition, ← congrArg RerankDocumentScore.index hscore]
  · intro hposition
    exact ⟨score.index, hposition, rfl⟩

end Statements

/-- The scores of a run refer to the documents of the caller if and only if the endpoint scored
only documents that have no blank one before them. -/
theorem rerank_scores_refer_iff (env : Surroundings) (host : RerankHost) (query : String)
    (documents : List String) (topN : Nat) (state : AdminModelCenterState) :
    ScoresReferToCaller env host query documents topN state ↔
      ∀ answer, endpointAnswer env host query documents topN state = some answer →
        ∀ score ∈ answer.scores, score.index < (documents.takeWhile isFilled).length := by
  rw [ScoresReferToCaller, scores_runRerankWithState]
  rcases endpointAnswer env host query documents topN state with _ | answer
  · simp
  · simp only [Option.map_some, Option.getD_some, Option.some.injEq, forall_eq',
      List.map_inj_left]
    apply forall_congr'
    intro score
    apply imp_congr_right
    intro _
    rw [← scoreForCaller_eq_some_self_iff, eq_comm]

def mockReranker : ModelEndpoint where
  modelEndpointId := "rerank-local"
  modelKind := .reranker
  endpointKind := .local
  providerKey := "rerank_compatible"
  modelName := "mock-reranker"
  capabilityTags := ["rerank"]
  status := .active
  metadata := obj [("mock_rerank_scores", array [number (.unsigned 1)])]

def silentHost : RerankHost where
  newClient := fun _ => .error ""
  post := fun _ _ _ => .error ""

def oneReranker : AdminModelCenterState where
  endpoints := [mockReranker]
  routePolicies := []

/-- The one document that is not blank is scored, and its score is returned with the position of the
blank one. -/
theorem rerank_score_shifts :
    (runRerankWithState plainSurroundings silentHost "bill" ["", "electricity"] 2
        oneReranker).scores = [{ index := 0, score := F32.ofInt 1 }] ∧
      ¬ ScoresReferToCaller plainSurroundings silentHost "bill" ["", "electricity"] 2
        oneReranker := by
  have hresolve : resolveEndpoint plainSurroundings oneReranker .reranker rerankPolicyId =
      some mockReranker := by
    apply resolveEndpoint_of_one
    decide
  have hmock : mockRerankScoresFromEndpoint mockReranker 1 =
      some [{ index := 0, score := F32.ofInt 1 }] := by
    rw [← sortScores_singleton]
    change some (sortScores _) = some (sortScores _)
    congr 2
  have hsent : sentDocuments ["", "electricity"] = ["electricity"] := by decide
  have hanswer : endpointAnswer plainSurroundings silentHost "bill" ["", "electricity"] 2
      oneReranker = some
        { scores := [{ index := 0, score := F32.ofInt 1 }]
          summary := "Mock rerank endpoint resolved."
          fields := kindField mockReranker } := by
    rw [endpointAnswer, hresolve, hsent, if_neg (by decide), Option.bind_some, rerankAnswer,
      if_neg (by decide), List.length_singleton, hmock]
    rfl
  have hscores : (runRerankWithState plainSurroundings silentHost "bill" ["", "electricity"] 2
      oneReranker).scores = [{ index := 0, score := F32.ofInt 1 }] := by
    rw [scores_runRerankWithState, hanswer]
    rfl
  refine ⟨hscores, ?_⟩
  rw [ScoresReferToCaller, hscores, hanswer]
  decide +kernel

end HarborBeacon.RerankScores
