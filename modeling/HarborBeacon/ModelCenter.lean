import HarborBeacon.ModelRouting

/-!
The model center: which endpoints a text request may be sent to, in which order, and the
loop that tries them. Requests of the semantic router see a state without cloud endpoints.
-/

namespace HarborBeacon.ModelCenter

open Json Json.Value ModelRouting StableSearch Text

def llmPolicyId : String := "retrieval.answer"

def semanticRouterPolicyId : String := "semantic.router"

def metadataString (metadata : Value) (key : String) : Option String :=
  (((metadata.get key).bind asStr).map trim).filter (· ≠ "")

def metadataBool (metadata : Value) (key : String) : Bool :=
  ((metadata.get key).bind asBool).getD false

def metadataStringList (metadata : Value) (key : String) : List String :=
  (((metadata.get key).bind asArray).map fun values =>
    ((values.filterMap asStr).map trim).filter (· ≠ "")).getD []

def metadataMissingOrEmpty (metadata : Value) (key : String) : Bool :=
  (metadataString metadata key).isNone

def setMetadata (metadata : Value) (key : String) (value : Value) : Value :=
  match metadata with
  | .object fields => .object (insertField key value fields)
  | _ => .object [(key, value)]

def setMetadataString (metadata : Value) (key value : String) : Value :=
  if isBlank value then metadata else setMetadata metadata key (.string value)

def setMetadataBool (metadata : Value) (key : String) (value : Bool) : Value :=
  setMetadata metadata key (.bool value)

def isLegacyModelApiUrl (value : String) : Bool :=
  let normalized := toAsciiLowercase (trim value)
  containsText normalized "127.0.0.1:4176" || containsText normalized "localhost:4176"

def stripSuffix (suffix text : String) : Option String :=
  if suffix.toList.isSuffixOf text.toList then
    some (String.ofList (text.toList.take (text.toList.length - suffix.toList.length)))
  else none

def inferHealthzUrl (baseUrl : String) : String :=
  let trimmed := trimEndSlashes (trim baseUrl)
  if trimmed = "" then ""
  else (stripSuffix "/v1" trimmed).getD trimmed ++ "/healthz"

def endpointUsesOpenaiCompatibleApi (endpoint : ModelEndpoint) : Bool :=
  eqIgnoreAsciiCase endpoint.providerKey "openai_compatible" ||
    (metadataStringList endpoint.metadata "runtime_profiles").any fun profile =>
      let normalized := replaceChar '_' '-' (toAsciiLowercase (trim profile))
      containsText normalized "openai-compatible" ||
        normalized = "harbor-candle" || normalized = "harbor-model-api-candle"

def isBuiltinLocalOpenaiEndpoint (endpoint : ModelEndpoint) : Bool :=
  (endpoint.modelKind = .llm || endpoint.modelKind = .embedder || endpoint.modelKind = .vlm) &&
    endpoint.endpointKind = .local && endpointUsesOpenaiCompatibleApi endpoint &&
    metadataBool endpoint.metadata "builtin"

structure LocalRuntimeProjection where
  baseUrl : String := ""
  healthzUrl : String := ""
  apiKey : String := ""
  apiKeyConfigured : Bool := false
  ready : Bool := false
  backendReady : Bool := false
  chatModel : Option String := none
  embeddingModel : Option String := none

def ifEmptyThen (text : String) (fallback : Option String) : Option String :=
  if isBlank text then fallback else some text

/-- An address in the metadata of a builtin endpoint: filled in when it is missing, and
replaced when it is a legacy one. -/
def overlayUrl (metadata defaults : Value) (key : String) (fallback : Option String) : Value :=
  let legacy := (metadataString metadata key).any fun value =>
    isLegacyModelApiUrl value && !metadataBool metadata "semantic_router_resident_endpoint"
  if metadataMissingOrEmpty metadata key || legacy then
    let filled := setMetadataString metadata key
      (((metadataString defaults key).or fallback).getD "")
    if legacy then setMetadataBool filled "legacy_model_api_migrated" true else filled
  else metadata

def overlayApiKey (metadata defaults : Value) (runtime : LocalRuntimeProjection) : Value :=
  let keyed :=
    if metadataMissingOrEmpty metadata "api_key" then
      setMetadataString metadata "api_key"
        ((ifEmptyThen runtime.apiKey (metadataString defaults "api_key")).getD "")
    else metadata
  if !metadataBool keyed "api_key_configured" && runtime.apiKeyConfigured then
    setMetadataBool keyed "api_key_configured" true
  else keyed

def overlayStatus (endpoint : ModelEndpoint) (runtime : LocalRuntimeProjection) :
    ModelEndpointStatus :=
  let available : Option Bool := match endpoint.modelKind with
    | .llm => some runtime.chatModel.isSome
    | .embedder => some runtime.embeddingModel.isSome
    | _ => none
  match available with
  | none => endpoint.status
  | some modelAvailable =>
      if runtime.ready && runtime.backendReady && modelAvailable then .active
      else if endpoint.status = .active then .degraded
      else endpoint.status

/-- One endpoint under the state of the local runtime. Only endpoints with the id of a
builtin local one are touched. -/
def overlayEndpoint (builtinDefaults : List ModelEndpoint) (runtime : LocalRuntimeProjection)
    (endpoint : ModelEndpoint) : ModelEndpoint :=
  -- a later default with the same id replaces an earlier one in the map of the source
  match builtinDefaults.reverse.find? fun default =>
      default.modelEndpointId = endpoint.modelEndpointId with
  | none => endpoint
  | some default =>
      if isBuiltinLocalOpenaiEndpoint default then
        let metadata := overlayUrl endpoint.metadata default.metadata "base_url"
          (ifEmptyThen runtime.baseUrl none)
        let metadata := overlayUrl metadata default.metadata "healthz_url"
          ((ifEmptyThen runtime.healthzUrl none).or (some (inferHealthzUrl runtime.baseUrl)))
        { endpoint with
          metadata := overlayApiKey metadata default.metadata runtime
          status := overlayStatus endpoint runtime }
      else endpoint

def overlayEndpointsWithRuntimeTruth (builtinDefaults endpoints : List ModelEndpoint)
    (runtime : LocalRuntimeProjection) : List ModelEndpoint :=
  endpoints.map (overlayEndpoint builtinDefaults runtime)

structure AdminModelCenterState where
  endpoints : List ModelEndpoint
  routePolicies : List ModelRoutePolicy

/-- A variable of the environment. -/
inductive EnvVar where
  | absent
  | notUnicode
  | value (text : String)
deriving DecidableEq

/-- What surrounds the model center: its environment, the validation of the base URL by the
URL library, the builtin endpoints and the answer of the local runtime to a probe. -/
structure Surroundings where
  topology : EnvVar
  modelApiBaseUrl : EnvVar
  validateEmbeddedModelApiBaseUrl : String → Except String String
  modelApiToken : Option String
  semanticRouterBaseUrl : Option String
  semanticRouterHealthzUrl : Option String
  semanticRouterToken : Option String
  defaultModelEndpoints : List ModelEndpoint
  probeLocalRuntime : List ModelEndpoint → LocalRuntimeProjection

section SemanticRouter

variable (env : Surroundings)

def envTrimmed (setting : Option String) : Option String :=
  (setting.map trim).filter (· ≠ "")

inductive SemanticRouterTopology where
  | embedded
  | standalone
deriving DecidableEq

def semanticRouterTopology : Except String SemanticRouterTopology :=
  match env.topology with
  | .absent => .ok .embedded
  | .notUnicode => .error "HARBOR_SEMANTIC_ROUTER_TOPOLOGY must contain valid UTF-8"
  | .value text =>
      if isBlank text then .ok .embedded
      else if eqIgnoreAsciiCase (trim text) "embedded" then .ok .embedded
      else if eqIgnoreAsciiCase (trim text) "standalone" then .ok .standalone
      else .error ("HARBOR_SEMANTIC_ROUTER_TOPOLOGY must be embedded or standalone, got " ++
        trim text)

def canonicalEmbeddedModelApiBaseUrl : Except String String :=
  match env.modelApiBaseUrl with
  | .absent => env.validateEmbeddedModelApiBaseUrl "http://127.0.0.1:4174/api/inference/v1"
  | .notUnicode => .error "HARBOR_MODEL_API_BASE_URL must contain valid UTF-8"
  | .value text =>
      env.validateEmbeddedModelApiBaseUrl
        (if isBlank text then "http://127.0.0.1:4174/api/inference/v1" else trim text)

def removeMocks : Value → Value
  | .object fields =>
      .object (["mock_text", "mock_embedding", "mock_embeddings", "mock_embedding_dimensions",
        "mock_rerank_scores"].foldl (fun rest key => removeField key rest) fields)
  | other => other

def canonicalEmbeddedSemanticRouterEndpoint : Except String ModelEndpoint := do
  let baseUrl ← canonicalEmbeddedModelApiBaseUrl env
  match envTrimmed env.modelApiToken with
  | none => throw "HARBOR_MODEL_API_TOKEN is not configured"
  | some apiKey =>
      match env.defaultModelEndpoints.find? fun endpoint =>
          endpoint.modelEndpointId = "llm-local-openai-compatible" with
      | none => throw "embedded semantic router model endpoint is unavailable"
      | some endpoint =>
          let metadata := setMetadataString endpoint.metadata "base_url" baseUrl
          let metadata := setMetadataString metadata "healthz_url" (inferHealthzUrl baseUrl)
          let metadata := setMetadataString metadata "api_key" apiKey
          let metadata := setMetadataBool metadata "api_key_configured" true
          let metadata := setMetadataBool metadata "api_key_required" true
          let metadata := setMetadataBool metadata "local_only" true
          let metadata := setMetadataBool metadata "cloud_fallback_allowed" false
          let metadata := setMetadataBool metadata "semantic_router_embedded_facade" true
          return { endpoint with metadata := removeMocks metadata }

def matchesSemanticRouterTag (tag : String) : Bool :=
  let normalized := toAsciiLowercase (trim tag)
  normalized = "semantic_router" || normalized = "assistant_input_parser" ||
    normalized = "k3_nsp"

/-- `dedup`: of equal neighbours the first is kept. -/
def dedup : List String → List String
  | [] => []
  | [tag] => [tag]
  | tag :: next :: rest =>
      if tag = next then dedup (tag :: rest) else tag :: dedup (next :: rest)
termination_by tags => tags.length

def residentTags (tags : List String) : List String :=
  let added := ["chat", "local_first", "semantic_router", "assistant_input_parser",
    "k3_nsp"].foldl (fun tags tag => if tag ∈ tags then tags else tags ++ [tag]) tags
  dedup (added.mergeSort fun a b => decide (a ≤ b))

def markSemanticRouterResidentEndpoint (baseUrl healthzUrl apiKey : String)
    (endpoint : ModelEndpoint) : ModelEndpoint :=
  let metadata := setMetadataString endpoint.metadata "base_url" baseUrl
  let metadata := setMetadataString metadata "healthz_url" healthzUrl
  let metadata := setMetadataBool metadata "semantic_router" true
  let metadata := setMetadataBool metadata "local_only" true
  let metadata := setMetadataBool metadata "cloud_fallback_allowed" false
  let metadata := setMetadataBool metadata "semantic_router_resident_endpoint" true
  { endpoint with
    capabilityTags := residentTags endpoint.capabilityTags
    metadata :=
      if isBlank apiKey then metadata
      else setMetadataBool (setMetadataString metadata "api_key" apiKey) "api_key_configured"
        true }

def isExplicitRouter (endpoint : ModelEndpoint) : Bool :=
  endpoint.capabilityTags.any matchesSemanticRouterTag ||
    metadataBool endpoint.metadata "semantic_router"

def isEnabledLocalLlm (endpoint : ModelEndpoint) : Bool :=
  endpoint.modelKind = .llm && endpoint.endpointKind = .local && endpoint.status ≠ .disabled

def wireSemanticRouterResidentEndpoint (endpoints : List ModelEndpoint) : List ModelEndpoint :=
  let baseUrl := ((envTrimmed env.semanticRouterBaseUrl).map trimEndSlashes).getD
    "http://127.0.0.1:4176/v1"
  let healthzUrl := (envTrimmed env.semanticRouterHealthzUrl).getD (inferHealthzUrl baseUrl)
  let apiKey := ((envTrimmed env.semanticRouterToken).or (envTrimmed env.modelApiToken)).getD ""
  let mark := markSemanticRouterResidentEndpoint baseUrl healthzUrl apiKey
  let hasExplicitRouter := endpoints.any fun endpoint =>
    isEnabledLocalLlm endpoint && isExplicitRouter endpoint
  let isWired := fun endpoint : ModelEndpoint =>
    isEnabledLocalLlm endpoint && endpointUsesOpenaiCompatibleApi endpoint &&
      (isExplicitRouter endpoint ||
        (endpoint.modelEndpointId = "llm-local-openai-compatible" && !hasExplicitRouter))
  let wired := endpoints.map fun endpoint => if isWired endpoint then mark endpoint else endpoint
  if endpoints.any isWired then wired
  else wired ++ [mark
    { modelEndpointId := "llm-local-semantic-router"
      modelKind := .llm
      endpointKind := .local
      providerKey := "openai_compatible"
      modelName := "Qwen/Qwen2.5-0.5B-Instruct"
      capabilityTags := []
      status := .degraded
      metadata := obj [("builtin", .bool true)] }]

def localOnlyPolicy (policy : ModelRoutePolicy) : ModelRoutePolicy :=
  if policy.routePolicyId = semanticRouterPolicyId then
    let retained := policy.fallbackOrder.filter fun kind => !eqIgnoreAsciiCase kind "cloud"
    { policy with
      privacyLevel := .strictLocal
      fallbackOrder := if retained = [] then ["local", "sidecar"] else retained
      metadata := match policy.metadata with
        | .object fields =>
            .object (insertField "cloud_fallback_allowed" (.bool false)
              (insertField "local_only" (.bool true) fields))
        | other => other }
  else policy

def semanticRouterLocalOnlyModelState (state : AdminModelCenterState) :
    Except String AdminModelCenterState := do
  let localEndpoints := state.endpoints.filter fun endpoint => endpoint.endpointKind ≠ .cloud
  let endpoints ← match ← semanticRouterTopology env with
    | .embedded => do pure [← canonicalEmbeddedSemanticRouterEndpoint env]
    | .standalone => pure (wireSemanticRouterResidentEndpoint env localEndpoints)
  return { endpoints, routePolicies := state.routePolicies.map localOnlyPolicy }

end SemanticRouter

section Resolution

variable (env : Surroundings)

def semanticRouterEndpointPriority (routePolicyId : String) (endpoint : ModelEndpoint) : Nat :=
  if routePolicyId ≠ semanticRouterPolicyId then 0
  else if endpoint.capabilityTags.any matchesSemanticRouterTag ||
      metadataBool endpoint.metadata "semantic_router" ||
      (metadataBool endpoint.metadata "local_only" &&
        containsText (toAsciiLowercase endpoint.modelEndpointId) "nsp") then 0
  else 1

def endpointPriority (endpoint : ModelEndpoint) (fallbackOrder : List String) : Nat :=
  positionOrEnd (fun item => eqIgnoreAsciiCase item endpoint.endpointKind.asStr) fallbackOrder

def resolverKey (routePolicyId : String) (fallbackOrder : List String)
    (endpoint : ModelEndpoint) : List Nat × String :=
  ([semanticRouterEndpointPriority routePolicyId endpoint,
    endpointPriority endpoint fallbackOrder, endpointStatusOrder endpoint.status],
    endpoint.modelEndpointId)

def findPolicy (state : AdminModelCenterState) (routePolicyId : String) :
    Option ModelRoutePolicy :=
  state.routePolicies.find? fun policy => policy.routePolicyId = routePolicyId

def resolverOrder (policy : Option ModelRoutePolicy) : List String :=
  (policy.map (·.fallbackOrder)).getD ["local", "sidecar", "cloud"]

def eligibleForKind (state : AdminModelCenterState) (modelKind : ModelKind)
    (routePolicyId : String) : List ModelEndpoint :=
  let cloudAllowed := ((findPolicy state routePolicyId).map fun policy =>
    decide (policy.privacyLevel ≠ .strictLocal)).getD true
  ((overlayEndpointsWithRuntimeTruth env.defaultModelEndpoints state.endpoints
      (env.probeLocalRuntime state.endpoints)).filter fun endpoint =>
    endpoint.modelKind = modelKind && endpoint.status ≠ .disabled).filter fun endpoint =>
      cloudAllowed || endpoint.endpointKind ≠ .cloud

def resolveEndpointCandidates (state : AdminModelCenterState) (modelKind : ModelKind)
    (routePolicyId : String) : List ModelEndpoint :=
  let fallbackOrder := resolverOrder (findPolicy state routePolicyId)
  (eligibleForKind env state modelKind routePolicyId).mergeSort fun left right =>
    keyLe (resolverKey routePolicyId fallbackOrder left)
      (resolverKey routePolicyId fallbackOrder right)

end Resolution

section Execution

structure LlmTextExecution where
  available : Bool := false
  status : String := ""
  summary : String := ""
  providerKey : String := ""
  modelEndpointId : Option String := none
  text : String := ""
  details : Value := .null
deriving DecidableEq

def mergeLlmExecutionDetails (result : LlmTextExecution) (routePolicyId : String)
    (attemptedEndpoints : List String) (fallbackReason : Option String) (fallbackUsed : Bool)
    (selectedEndpointKind : String) (attemptSummaries : List Value) : LlmTextExecution :=
  let details := match result.details with
    | .object fields => fields
    | _ => []
  let details := insertField "route_policy_id" (string routePolicyId) details
  let details := insertField "attempted_endpoints" (ofStrings attemptedEndpoints) details
  let details := insertField "fallback_used" (.bool fallbackUsed) details
  let details := insertSome "local_only"
    (if routePolicyId = semanticRouterPolicyId then some (.bool true) else none) details
  let details := insertField "attempt_summaries" (array attemptSummaries) details
  let details := insertSome "fallback_reason"
    ((fallbackReason.filter fun reason => !isBlank reason).map string) details
  let details := insertSome "selected_endpoint" (result.modelEndpointId.map string) details
  let details := insertSome "selected_endpoint_kind"
    (if isBlank selectedEndpointKind then none else some (string selectedEndpointKind)) details
  { result with details := .object details }

def isResourceBusy (result : LlmTextExecution) : Bool :=
  result.status = "busy" && (result.details.get "ai_resource_error").isSome

def endsLoop (result : LlmTextExecution) : Bool :=
  isResourceBusy result || result.available

def attemptSummary (endpoint : ModelEndpoint) (result : LlmTextExecution) : Value :=
  obj
    [("endpoint", string endpoint.modelEndpointId),
     ("endpoint_kind", string endpoint.endpointKind.asStr),
     ("status", string result.status),
     ("available", .bool result.available),
     ("summary", string result.summary)]

structure Attempts where
  attemptedEndpoints : List String := []
  attemptSummaries : List Value := []
  fallbackReason : Option String := none
  lastResult : Option LlmTextExecution := none

def allFailed (routePolicyId : String) (attempts : Attempts) : LlmTextExecution :=
  let result := attempts.lastResult.getD {}
  mergeLlmExecutionDetails
    { result with
      available := false
      status := if isBlank result.status then "degraded" else result.status
      summary := "All LLM endpoints failed for route_policy=" ++ routePolicyId ++
        "; last error: " ++ result.summary }
    routePolicyId attempts.attemptedEndpoints attempts.fallbackReason
    (decide (1 < attempts.attemptedEndpoints.length)) "" attempts.attemptSummaries

/-- The loop over the candidates, with the endpoints that it ran. How an endpoint answers the
prompt is given by `answer`. -/
def tryEndpoints (routePolicyId : String) (firstEndpointId : Option String)
    (answer : ModelEndpoint → LlmTextExecution) :
    Attempts → List ModelEndpoint → LlmTextExecution × List ModelEndpoint
  | attempts, [] => (allFailed routePolicyId attempts, [])
  | attempts, endpoint :: rest =>
      let attempted := attempts.attemptedEndpoints ++ [endpoint.modelEndpointId]
      let result := answer endpoint
      let summaries := attempts.attemptSummaries ++ [attemptSummary endpoint result]
      if isResourceBusy result then
        (mergeLlmExecutionDetails result routePolicyId attempted none false
          endpoint.endpointKind.asStr summaries, [endpoint])
      else if result.available then
        (mergeLlmExecutionDetails result routePolicyId attempted attempts.fallbackReason
          (decide (result.modelEndpointId ≠ firstEndpointId) || decide (1 < attempted.length))
          endpoint.endpointKind.asStr summaries, [endpoint])
      else
        let (execution, tried) := tryEndpoints routePolicyId firstEndpointId answer
          { attemptedEndpoints := attempted
            attemptSummaries := summaries
            fallbackReason := attempts.fallbackReason.or (some result.summary)
            lastResult := some result } rest
        (execution, endpoint :: tried)

def llmRoutePolicyId (purpose : Option String) : String :=
  match purpose.map trim with
  | some "router" | some "semantic.router" => semanticRouterPolicyId
  | _ => llmPolicyId

def configurationError (error : String) : LlmTextExecution where
  status := "disabled"
  summary := error
  details := obj
    [("route_policy_id", string semanticRouterPolicyId), ("local_only", .bool true),
     ("cloud_fallback_allowed", .bool false), ("configuration_error", string error)]

def noEndpointEnabled (routePolicyId : String) : LlmTextExecution where
  status := "disabled"
  summary := "No LLM endpoint is enabled."
  details := obj
    [("route_policy_id", string routePolicyId), ("attempted_endpoints", array [])]

variable (env : Surroundings)

def effectiveState (state : AdminModelCenterState) (routePolicyId : String) :
    Except String AdminModelCenterState :=
  if routePolicyId = semanticRouterPolicyId then semanticRouterLocalOnlyModelState env state
  else .ok state

def runLlmTextWithStateAndOptions (answer : ModelEndpoint → LlmTextExecution)
    (state : AdminModelCenterState) (purpose : Option String) :
    LlmTextExecution × List ModelEndpoint :=
  let routePolicyId := llmRoutePolicyId purpose
  match effectiveState env state routePolicyId with
  | .error error => (configurationError error, [])
  | .ok effective =>
      match resolveEndpointCandidates env effective .llm routePolicyId with
      | [] => (noEndpointEnabled routePolicyId, [])
      | first :: rest =>
          tryEndpoints routePolicyId (some first.modelEndpointId) answer {} (first :: rest)

end Execution

end HarborBeacon.ModelCenter
