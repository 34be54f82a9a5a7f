import HarborBeacon.ModelCenter

/-!
What a model endpoint's record says about the client that talks to it: where its requests go, with
which key and for which model.
-/

namespace HarborBeacon.EndpointClients

open ModelCenter ModelRouting Text

structure OpenAiCompatibleConfig where
  baseUrl : String
  apiKey : String
  model : String
deriving DecidableEq

structure RerankCompatibleConfig where
  baseUrl : String
  apiKey : String
  model : String
  rerankPath : String
deriving DecidableEq

def ownModelName (endpoint : ModelEndpoint) : Option String :=
  if isBlank endpoint.modelName then none else some endpoint.modelName

def embeddingModelNameFromEndpoint (endpoint : ModelEndpoint) : Option String :=
  ((metadataString endpoint.metadata "runtime_embedding_model").or
    (metadataString endpoint.metadata "model")).or (ownModelName endpoint)

def openaiCompatibleConfigFromEndpoint (endpoint : ModelEndpoint) :
    Option OpenAiCompatibleConfig := do
  let baseUrl ← metadataString endpoint.metadata "base_url"
  let apiKey := (metadataString endpoint.metadata "api_key").getD ""
  let apiKeyRequired := endpoint.endpointKind = .cloud ||
    metadataBool endpoint.metadata "api_key_required"
  if apiKeyRequired && isBlank apiKey then none
  else
    let model ← (if endpoint.modelKind = .embedder then embeddingModelNameFromEndpoint endpoint
      else (metadataString endpoint.metadata "model").or (ownModelName endpoint))
    some { baseUrl := trimEndSlashes baseUrl, apiKey := apiKey, model := model }

def rerankCompatibleConfigFromEndpoint (endpoint : ModelEndpoint) :
    Option RerankCompatibleConfig := do
  let baseUrl ← metadataString endpoint.metadata "base_url"
  if endpoint.endpointKind = .cloud then none
  else
    let model ← (metadataString endpoint.metadata "model").or (ownModelName endpoint)
    some
      { baseUrl := trimEndSlashes baseUrl
        apiKey := (metadataString endpoint.metadata "api_key").getD ""
        model := model
        rerankPath := (metadataString endpoint.metadata "rerank_path").getD "/rerank" }

theorem baseUrl_openaiCompatibleConfig {endpoint : ModelEndpoint}
    {config : OpenAiCompatibleConfig}
    (h : openaiCompatibleConfigFromEndpoint endpoint = some config) :
    ∃ baseUrl, metadataString endpoint.metadata "base_url" = some baseUrl ∧
      config.baseUrl = trimEndSlashes baseUrl := by
  simp only [openaiCompatibleConfigFromEndpoint, Option.bind_eq_bind,
    Option.bind_eq_some_iff] at h
  obtain ⟨baseUrl, hbase, h⟩ := h
  refine ⟨baseUrl, hbase, ?_⟩
  split at h
  · simp at h
  · obtain ⟨model, -, hconfig⟩ := Option.bind_eq_some_iff.mp h
    rw [← Option.some.inj hconfig]

section Resolution

variable (env : Surroundings)

def resolveEndpoint (state : AdminModelCenterState) (modelKind : ModelKind)
    (routePolicyId : String) : Option ModelEndpoint :=
  (resolveEndpointCandidates env state modelKind routePolicyId).head?

theorem resolveEndpoint_of_one {state : AdminModelCenterState} {modelKind : ModelKind}
    {routePolicyId : String} {endpoint : ModelEndpoint}
    (h : eligibleForKind env state modelKind routePolicyId = [endpoint]) :
    resolveEndpoint env state modelKind routePolicyId = some endpoint := by
  simp only [resolveEndpoint, resolveEndpointCandidates, h, List.mergeSort_singleton]
  rfl

end Resolution

end HarborBeacon.EndpointClients
