import HarborBeacon.ModelCenter

/-!
Local-only policies and the two selectors that should honour them: the routing status and
the executor of text requests. Neither drops the kinds of endpoints that a fallback order
leaves out; it only ranks them last.
-/

namespace HarborBeacon.LocalOnlyRouting

open Json Json.Value ModelCenter ModelRouting StableSearch

/-- The policy keeps its requests away from the cloud. -/
def LocalOnly (policy : ModelRoutePolicy) : Prop :=
  policy.privacyLevel = .strictLocal ∨
    (policy.fallbackOrder ≠ [] ∧ listsKind policy .cloud = false)

variable {policy : ModelRoutePolicy}

/-- A policy forbids an endpoint: a cloud one when it is local-only, and any whose kind its
fallback order leaves out. -/
def Forbids (policy : ModelRoutePolicy) (endpoint : ModelEndpoint) : Prop :=
  (LocalOnly policy ∧ endpoint.endpointKind = .cloud) ∨
    (policy.fallbackOrder ≠ [] ∧ listsKind policy endpoint.endpointKind = false)

def routeLe (policy : ModelRoutePolicy) (left right : ModelEndpoint) : Bool :=
  keyLe (routeKey (normalizedFallbackOrder policy) left)
    (routeKey (normalizedFallbackOrder policy) right)

def resolverLe (policy : Option ModelRoutePolicy) (routePolicyId : String)
    (left right : ModelEndpoint) : Bool :=
  keyLe (resolverKey routePolicyId (resolverOrder policy) left)
    (resolverKey routePolicyId (resolverOrder policy) right)

def StatusHonours (policy : ModelRoutePolicy) (endpoints : List ModelEndpoint) : Prop :=
  LocalOnly policy → (projectModelRoutePolicy policy endpoints).selectedEndpointKind ≠
    some ModelEndpointKind.cloud.asStr

/-- Every cloud endpoint that a local-only policy leaves eligible comes after another one. -/
def CloudComesLater (policy : ModelRoutePolicy) (endpoints : List ModelEndpoint) : Prop :=
  LocalOnly policy → ∀ place endpoint,
    (eligibleForPolicy policy endpoints)[place]? = some endpoint → endpoint.endpointKind = .cloud →
      ∃ other earlier, (eligibleForPolicy policy endpoints)[other]? = some earlier ∧
        Precedes (routeLe policy) (earlier, other) (endpoint, place)

/-- No endpoint that a request runs on is forbidden by the policy it is resolved with. -/
def ExecutorHonours (env : Surroundings) (answer : ModelEndpoint → LlmTextExecution)
    (state : AdminModelCenterState) (purpose : Option String) : Prop :=
  ∀ effective policy, effectiveState env state (llmRoutePolicyId purpose) = .ok effective →
    findPolicy effective (llmRoutePolicyId purpose) = some policy →
    ∀ endpoint ∈ (runLlmTextWithStateAndOptions env answer state purpose).2,
      ¬ Forbids policy endpoint

def ForbiddenComeLater (env : Surroundings) (answer : ModelEndpoint → LlmTextExecution)
    (state : AdminModelCenterState) (purpose : Option String) : Prop :=
  ∀ effective policy, effectiveState env state (llmRoutePolicyId purpose) = .ok effective →
    findPolicy effective (llmRoutePolicyId purpose) = some policy →
    ∀ place endpoint,
      (eligibleForKind env effective .llm (llmRoutePolicyId purpose))[place]? = some endpoint →
      Forbids policy endpoint →
      ∃ other earlier,
        (eligibleForKind env effective .llm (llmRoutePolicyId purpose))[other]? = some earlier ∧
        Precedes (resolverLe (some policy) (llmRoutePolicyId purpose)) (earlier, other)
          (endpoint, place) ∧
        endsLoop (answer earlier) = true

/-- No candidate of the resolver is forbidden by the policy it resolves with. -/
def ResolverHonours (env : Surroundings) (state : AdminModelCenterState)
    (modelKind : ModelKind) (routePolicyId : String) : Prop :=
  ∀ policy, findPolicy state routePolicyId = some policy →
    ∀ endpoint ∈ resolveEndpointCandidates env state modelKind routePolicyId,
      ¬ Forbids policy endpoint

/-- Every endpoint of the kind that the local runtime leaves enabled, cloud ones under a
strictly local policy apart, is of a kind that the fallback order lists, if it lists any. -/
def EnabledAreListed (env : Surroundings) (state : AdminModelCenterState)
    (modelKind : ModelKind) (routePolicyId : String) : Prop :=
  ∀ policy, findPolicy state routePolicyId = some policy → policy.fallbackOrder ≠ [] →
    ∀ endpoint ∈ overlayEndpointsWithRuntimeTruth env.defaultModelEndpoints state.endpoints
        (env.probeLocalRuntime state.endpoints),
      endpoint.modelKind = modelKind → endpoint.status ≠ .disabled →
      (policy.privacyLevel = .strictLocal → endpoint.endpointKind ≠ .cloud) →
      listsKind policy endpoint.endpointKind = true

theorem routeLe_trans (policy : ModelRoutePolicy) (a b c : ModelEndpoint)
    (hab : routeLe policy a b = true) (hbc : routeLe policy b c = true) :
    routeLe policy a c = true :=
  keyLe_trans _ _ _ hab hbc

theorem routeLe_total (policy : ModelRoutePolicy) (a b : ModelEndpoint) :
    (routeLe policy a b || routeLe policy b a) = true :=
  keyLe_total _ _

theorem resolverLe_trans (policy : Option ModelRoutePolicy) (routePolicyId : String)
    (a b c : ModelEndpoint) (hab : resolverLe policy routePolicyId a b = true)
    (hbc : resolverLe policy routePolicyId b c = true) :
    resolverLe policy routePolicyId a c = true :=
  keyLe_trans _ _ _ hab hbc

theorem resolverLe_total (policy : Option ModelRoutePolicy) (routePolicyId : String)
    (a b : ModelEndpoint) :
    (resolverLe policy routePolicyId a b || resolverLe policy routePolicyId b a) = true :=
  keyLe_total _ _

theorem asStr_injective {a b : ModelEndpointKind} (h : a.asStr = b.asStr) : a = b := by
  revert h
  cases a <;> cases b <;> decide

theorem selectedKind_ne_cloud_iff (policy : ModelRoutePolicy) (endpoints : List ModelEndpoint) :
    (projectModelRoutePolicy policy endpoints).selectedEndpointKind ≠
        some ModelEndpointKind.cloud.asStr ↔
      ∀ endpoint ∈ searchUntil (fun _ => true)
        ((eligibleForPolicy policy endpoints).mergeSort (routeLe policy)),
        ¬ endpoint.endpointKind = .cloud := by
  rw [searchUntil_first]
  change Option.map _ (modelRouteCandidates policy endpoints).head? ≠ _ ↔
    ∀ endpoint ∈ (modelRouteCandidates policy endpoints).head?.toList, _
  cases (modelRouteCandidates policy endpoints).head? with
  | none => simp
  | some selected =>
      simp only [Option.map_some, Option.toList_some, List.mem_singleton, forall_eq, ne_eq,
        Option.some.injEq]
      exact not_congr ⟨asStr_injective, fun h => by rw [h]⟩

theorem status_honours_iff (policy : ModelRoutePolicy) (endpoints : List ModelEndpoint) :
    StatusHonours policy endpoints ↔ CloudComesLater policy endpoints := by
  unfold StatusHonours CloudComesLater
  refine forall_congr' fun _ => ?_
  rw [selectedKind_ne_cloud_iff,
    forall_searchUntil_iff (routeLe_trans policy) (routeLe_total policy)]
  simp

theorem tryEndpoints_snd (routePolicyId : String) (firstEndpointId : Option String)
    (answer : ModelEndpoint → LlmTextExecution) (attempts : Attempts)
    (candidates : List ModelEndpoint) :
    (tryEndpoints routePolicyId firstEndpointId answer attempts candidates).2 =
      searchUntil (fun endpoint => endsLoop (answer endpoint)) candidates := by
  induction candidates generalizing attempts with
  | nil => rfl
  | cons endpoint rest ih =>
      cases hbusy : isResourceBusy (answer endpoint) with
      | true => simp [tryEndpoints, searchUntil, endsLoop, hbusy]
      | false =>
          cases havailable : (answer endpoint).available with
          | true => simp [tryEndpoints, searchUntil, endsLoop, hbusy, havailable]
          | false =>
              have hgoes : endsLoop (answer endpoint) = false := by
                simp [endsLoop, hbusy, havailable]
              simp only [tryEndpoints, searchUntil, hbusy, havailable, hgoes,
                Bool.false_eq_true, if_false, ih]

theorem run_visits (env : Surroundings) (answer : ModelEndpoint → LlmTextExecution)
    (state : AdminModelCenterState) (purpose : Option String)
    {effective : AdminModelCenterState}
    (heffective : effectiveState env state (llmRoutePolicyId purpose) = .ok effective) :
    (runLlmTextWithStateAndOptions env answer state purpose).2 =
      searchUntil (fun endpoint => endsLoop (answer endpoint))
        (resolveEndpointCandidates env effective .llm (llmRoutePolicyId purpose)) := by
  simp only [runLlmTextWithStateAndOptions, heffective]
  cases hcandidates : resolveEndpointCandidates env effective .llm (llmRoutePolicyId purpose) with
  | nil => rfl
  | cons first rest => exact tryEndpoints_snd _ _ _ _ _

theorem executor_honours_iff (env : Surroundings) (answer : ModelEndpoint → LlmTextExecution)
    (state : AdminModelCenterState) (purpose : Option String) :
    ExecutorHonours env answer state purpose ↔ ForbiddenComeLater env answer state purpose := by
  unfold ExecutorHonours ForbiddenComeLater
  refine forall_congr' fun effective => forall_congr' fun policy => forall_congr' fun heffective =>
    forall_congr' fun hpolicy => ?_
  rw [run_visits env answer state purpose heffective]
  have hcandidates : resolveEndpointCandidates env effective .llm (llmRoutePolicyId purpose) =
      (eligibleForKind env effective .llm (llmRoutePolicyId purpose)).mergeSort
        (resolverLe (some policy) (llmRoutePolicyId purpose)) := by
    unfold resolveEndpointCandidates resolverLe
    rw [hpolicy]
  rw [hcandidates]
  exact forall_searchUntil_iff (resolverLe_trans _ _) (resolverLe_total _ _) _ _ _

theorem mem_eligibleForKind_iff {env : Surroundings} {state : AdminModelCenterState}
    {modelKind : ModelKind} {routePolicyId : String}
    (hpolicy : findPolicy state routePolicyId = some policy) (endpoint : ModelEndpoint) :
    endpoint ∈ eligibleForKind env state modelKind routePolicyId ↔
      endpoint ∈ overlayEndpointsWithRuntimeTruth env.defaultModelEndpoints state.endpoints
          (env.probeLocalRuntime state.endpoints) ∧
        endpoint.modelKind = modelKind ∧ endpoint.status ≠ .disabled ∧
        (policy.privacyLevel = .strictLocal → endpoint.endpointKind ≠ .cloud) := by
  simp only [eligibleForKind, hpolicy, List.mem_filter, Option.map_some, Option.getD_some,
    Bool.and_eq_true, Bool.or_eq_true, decide_eq_true_eq, ne_eq, and_assoc]
  refine and_congr_right fun _ => and_congr_right fun _ => and_congr_right fun _ => ?_
  exact ⟨fun h hstrict => h.resolve_left (not_not_intro hstrict), or_iff_not_imp_left.mpr ∘
    fun h hstrict => h (not_not.mp hstrict)⟩

theorem resolver_honours_iff (env : Surroundings) (state : AdminModelCenterState)
    (modelKind : ModelKind) (routePolicyId : String) :
    ResolverHonours env state modelKind routePolicyId ↔
      EnabledAreListed env state modelKind routePolicyId := by
  unfold ResolverHonours EnabledAreListed
  refine forall_congr' fun policy => forall_congr' fun hpolicy => ?_
  have hcandidates : ∀ endpoint,
      endpoint ∈ resolveEndpointCandidates env state modelKind routePolicyId ↔
        endpoint ∈ eligibleForKind env state modelKind routePolicyId := fun _ => List.mem_mergeSort
  simp only [hcandidates, mem_eligibleForKind_iff hpolicy]
  constructor
  · intro h horder endpoint hmem hkind hstatus hcloud
    by_contra hlisted
    exact h endpoint ⟨hmem, hkind, hstatus, hcloud⟩ (Or.inr ⟨horder, by simpa using hlisted⟩)
  · rintro h endpoint ⟨hmem, hkind, hstatus, hcloud⟩ (⟨hlocal, hiscloud⟩ | ⟨horder, hlisted⟩)
    · rcases hlocal with hstrict | ⟨horder, hnocloud⟩
      · exact hcloud hstrict hiscloud
      · have := h horder endpoint hmem hkind hstatus hcloud
        rw [hiscloud, hnocloud] at this
        simp at this
    · rw [h horder endpoint hmem hkind hstatus hcloud] at hlisted
      simp at hlisted

/-- Both selectors honour local-only policies exactly when the endpoints that these forbid
are never reached: the status selects none when each comes after another one, the executor
runs none when each comes after one whose answer ends the loop, and the candidates of the
resolver are free of them when every enabled endpoint is of a listed kind. -/
theorem selectors_honour_local_only_iff (env : Surroundings) (policy : ModelRoutePolicy)
    (endpoints : List ModelEndpoint) (answer : ModelEndpoint → LlmTextExecution)
    (state : AdminModelCenterState) (purpose : Option String) (modelKind : ModelKind)
    (routePolicyId : String) :
    (StatusHonours policy endpoints ↔ CloudComesLater policy endpoints) ∧
      (ResolverHonours env state modelKind routePolicyId ↔
        EnabledAreListed env state modelKind routePolicyId) ∧
      (ExecutorHonours env answer state purpose ↔
        ForbiddenComeLater env answer state purpose) :=
  ⟨status_honours_iff policy endpoints, resolver_honours_iff env state modelKind routePolicyId,
    executor_honours_iff env answer state purpose⟩

def cloudModel : ModelEndpoint where
  modelEndpointId := "llm-cloud"
  modelKind := .llm
  endpointKind := .cloud
  providerKey := "openai_compatible"
  modelName := "cloud-model"
  capabilityTags := []
  status := .active
  metadata := obj []

def answersStayLocal : ModelRoutePolicy where
  routePolicyId := "retrieval.answer"
  domainScope := "retrieval"
  modality := "text"
  privacyLevel := .allowCloud
  localPreferred := true
  fallbackOrder := ["local", "sidecar"]
  status := "active"
  metadata := obj []

def plainSurroundings : Surroundings where
  topology := .absent
  modelApiBaseUrl := .absent
  validateEmbeddedModelApiBaseUrl := .ok
  modelApiToken := none
  semanticRouterBaseUrl := none
  semanticRouterHealthzUrl := none
  semanticRouterToken := none
  defaultModelEndpoints := []
  probeLocalRuntime := fun _ => {}

/-- The policy is reported as local-only, and yet its one endpoint, in the cloud, is both
selected and run. -/
theorem local_only_policy_reaches_cloud :
    LocalOnly answersStayLocal ∧
      (capabilityReadiness (projectModelRoutePolicy answersStayLocal [cloudModel])).localOnly =
        true ∧
      (projectModelRoutePolicy answersStayLocal [cloudModel]).selectedEndpointKind =
        some "cloud" ∧
      (runLlmTextWithStateAndOptions plainSurroundings (fun _ => {})
        { endpoints := [cloudModel], routePolicies := [answersStayLocal] } none).2 =
        [cloudModel] := by
  have heligible : eligibleForPolicy answersStayLocal [cloudModel] = [cloudModel] := by decide
  have hkind : eligibleForKind plainSurroundings
      { endpoints := [cloudModel], routePolicies := [answersStayLocal] } .llm llmPolicyId =
        [cloudModel] := by decide
  refine ⟨Or.inr ⟨by decide, by decide⟩, by decide, ?_, ?_⟩
  · simp only [projectModelRoutePolicy, modelRouteCandidates, heligible,
      List.mergeSort_singleton]
    rfl
  · rw [run_visits plainSurroundings _ _ none rfl]
    change searchUntil _ (resolveEndpointCandidates _ _ _ llmPolicyId) = _
    simp only [resolveEndpointCandidates, hkind, List.mergeSort_singleton]
    rfl

end HarborBeacon.LocalOnlyRouting
