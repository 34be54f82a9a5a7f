import HarborBeacon.FilledTables
import HarborBeacon.ModelCenter
import HarborBeacon.ObjectFields
import HarborBeacon.TrimmedTexts
import Mathlib.Data.Prod.Lex

/-!
The model center as the admin state stores it: endpoints, route policies, capability bindings and
runtimes, the built-in ones among them, and the normalisation that runs on every load and save.
-/

namespace HarborBeacon.ModelSettings

open AdminConsole FilledTables Json Json.Value ModelCenter ModelRouting Text TrimmedTexts

structure StoredEndpoint extends ModelEndpoint where
  workspaceId : Option String
  providerAccountId : Option String
  costPolicy : Value
deriving DecidableEq

/-- A route policy; the cost limit is given by the bits of its `f64`. -/
structure StoredPolicy extends ModelRoutePolicy where
  workspaceId : String
  maxCostPerRun : Option UInt64
deriving DecidableEq

structure ModelCapabilityBindingRecord where
  capabilityId : String
  desiredModelId : String
  activeModelId : Option String
  transitionStatus : String
  lastError : Option String
  updatedAt : String
deriving DecidableEq

structure ModelRuntimeRecord where
  runtimeId : String
  displayName : String
  runtimeKind : String
  providerKey : String
  status : String
  managed : Bool
  installable : Bool
  enabled : Bool
  capabilities : List String
  runtimeProfiles : List String
  bindUrl : Option String
  healthzUrl : Option String
  modelStorePath : String
  message : String
  installedAt : Option String
  updatedAt : Option String
  metadata : Value
deriving DecidableEq

@[ext]
structure StoredModelCenter where
  endpoints : List StoredEndpoint
  routePolicies : List StoredPolicy
  modelStoreRoot : String
  capabilityBindings : List ModelCapabilityBindingRecord
  runtimes : List ModelRuntimeRecord
deriving DecidableEq

/-- The environment variables that the built-in records depend on. -/
structure CenterEnvironment where
  modelApiBaseUrl : Option String
  modelApiToken : Option String
  writableRoot : Option String

def normalizeJsonObject : Value → Value
  | .object fields => .object fields
  | _ => .object []

def setFields (updates : Fields) : Value → Value
  | .object fields => .object (patch updates fields)
  | other => other

def sanitizeStringList (values : List String) : List String :=
  keepFirst id [] ((values.map trim).filter (· ≠ ""))

/-- `Path::join` on a Unix system, for a part that is not empty. -/
def joinPath (base part : String) : String :=
  if startsWithText part "/" then part
  else if base = "" ∨ base.toList.getLast? = some '/' then base ++ part
  else base ++ "/" ++ part

section Defaults

variable (env : CenterEnvironment)

def harborosWritableRoot : String :=
  (env.writableRoot.bind nonEmptyOpt).getD "/mnt/software/harborbeacon-agent-ci"

def defaultModelStoreRoot : String :=
  joinPath (harborosWritableRoot env) "model-store"

def modelRuntimeStorePath (modelStoreRoot runtimeId : String) : String :=
  joinPath (joinPath modelStoreRoot "runtimes") runtimeId

def localModelApiBaseUrl : String :=
  ((env.modelApiBaseUrl.map fun value => trimEndSlashes (trim value)).filter (· ≠ "")).getD
    "http://127.0.0.1:4174/api/inference/v1"

def localModelApiHealthzUrl (baseUrl : String) : String :=
  let trimmed := trimEndSlashes (trim baseUrl)
  (stripSuffix "/v1" trimmed).getD trimmed ++ "/healthz"

def localModelApiToken : String :=
  ((env.modelApiToken.map trim).filter (· ≠ "")).getD ""

def localApiMetadata (further : Fields) : Value :=
  obj ([("builtin", .bool true),
    ("base_url", string (localModelApiBaseUrl env)),
    ("healthz_url", string (localModelApiHealthzUrl (localModelApiBaseUrl env))),
    ("api_key", string (localModelApiToken env)),
    ("api_key_configured", .bool (localModelApiToken env ≠ "")),
    ("api_key_required", .bool true)] ++ further)

def defaultModelEndpoints : List StoredEndpoint :=
  [{ modelEndpointId := "ocr-local-tesseract"
     workspaceId := some "home-1"
     providerAccountId := none
     modelKind := .ocr
     endpointKind := .local
     providerKey := "tesseract"
     modelName := "tesseract-cli"
     capabilityTags := ["image", "local_first", "ocr"]
     costPolicy := obj [("cost_hint", string "local_cpu")]
     status := .degraded
     metadata := obj [("builtin", .bool true), ("binary_path", string ""),
      ("languages", string "chi_sim+eng"), ("secret_configured", .bool false)] },
   { modelEndpointId := "embed-local-openai-compatible"
     workspaceId := some "home-1"
     providerAccountId := none
     modelKind := .embedder
     endpointKind := .local
     providerKey := "openai_compatible"
     modelName := "harbor-local-embed"
     capabilityTags := ["embeddings", "local_first"]
     costPolicy := obj [("cost_hint", string "local_or_sidecar")]
     status := .degraded
     metadata := localApiMetadata env [] },
   { modelEndpointId := "rerank-local-compatible"
     workspaceId := some "home-1"
     providerAccountId := none
     modelKind := .reranker
     endpointKind := .local
     providerKey := "rerank_compatible"
     modelName := "local-reranker"
     capabilityTags := ["local_first", "rerank"]
     costPolicy := obj [("cost_hint", string "local_or_sidecar")]
     status := .disabled
     metadata := localApiMetadata env [("rerank_path", string "/rerank"),
      ("cloud_fallback_allowed", .bool false)] },
   { modelEndpointId := "llm-local-openai-compatible"
     workspaceId := some "home-1"
     providerAccountId := none
     modelKind := .llm
     endpointKind := .local
     providerKey := "openai_compatible"
     modelName := "Qwen/Qwen2.5-0.5B-Instruct"
     capabilityTags := ["assistant_input_parser", "chat", "k3_nsp", "local_first",
      "semantic_router"]
     costPolicy := obj [("cost_hint", string "local_or_sidecar")]
     status := .degraded
     metadata := localApiMetadata env [("semantic_router", .bool true), ("local_only", .bool true),
      ("cloud_fallback_allowed", .bool false)] },
   { modelEndpointId := "llm-cloud-siliconflow"
     workspaceId := some "home-1"
     providerAccountId := none
     modelKind := .llm
     endpointKind := .cloud
     providerKey := "openai_compatible"
     modelName := "deepseek-ai/DeepSeek-V4-Flash"
     capabilityTags := ["chat", "cloud_fallback", "openai_compatible"]
     costPolicy := obj [("cost_hint", string "cloud_metered"), ("provider", string "siliconflow")]
     status := .disabled
     metadata := obj [("builtin", .bool true), ("provider_label", string "SiliconFlow"),
      ("base_url", string "https://api.siliconflow.cn/v1"),
      ("healthz_url", string "https://api.siliconflow.cn/v1/models"), ("api_key", string ""),
      ("api_key_configured", .bool false), ("model", string "deepseek-ai/DeepSeek-V4-Flash"),
      ("fallback_scope", ofStrings ["retrieval.answer"]),
      ("secret_redaction", string "endpoint_metadata")] },
   { modelEndpointId := "vlm-local-openai-compatible"
     workspaceId := some "home-1"
     providerAccountId := none
     modelKind := .vlm
     endpointKind := .local
     providerKey := "openai_compatible"
     modelName := "vision"
     capabilityTags := ["image", "local_first", "multimodal"]
     costPolicy := obj [("cost_hint", string "local_or_sidecar")]
     status := .disabled
     metadata := localApiMetadata env [] }]

def builtinPolicy (routePolicyId domainScope modality status : String)
    (privacyLevel : PrivacyLevel) (fallbackOrder : List String) (metadata : Fields) :
    StoredPolicy where
  routePolicyId := routePolicyId
  workspaceId := "home-1"
  domainScope := domainScope
  modality := modality
  privacyLevel := privacyLevel
  localPreferred := true
  maxCostPerRun := none
  fallbackOrder := fallbackOrder
  status := status
  metadata := obj metadata

def defaultModelRoutePolicies : List StoredPolicy :=
  [builtinPolicy "retrieval.ocr" "retrieval" "image" "active" .strictLocal
     ["local", "sidecar", "cloud"] [("capability", string "ocr")],
   builtinPolicy "retrieval.embed" "retrieval" "text" "active" .strictLocal
     ["local", "sidecar", "cloud"] [("capability", string "embed")],
   builtinPolicy "retrieval.rerank" "retrieval" "text" "active" .strictLocal
     ["local", "sidecar"] [("capability", string "rerank"), ("local_only", .bool true),
      ("cloud_fallback_allowed", .bool false)],
   builtinPolicy "semantic.router" "semantic" "text" "active" .strictLocal
     ["local", "sidecar"] [("capability", string "router"), ("local_only", .bool true),
      ("cloud_fallback_allowed", .bool false)],
   builtinPolicy "retrieval.answer" "retrieval" "text" "active" .allowRedactedCloud
     ["local", "sidecar", "cloud"] [("capability", string "answer")],
   builtinPolicy "retrieval.vision_summary" "retrieval" "multimodal" "degraded" .strictLocal
     ["local", "sidecar"] [("capability", string "vision_summary"),
      ("cloud_fallback", .bool false)]]

def reservedRuntime (modelStoreRoot runtimeId displayName runtimeKind capability message
    installMode : String) : ModelRuntimeRecord where
  runtimeId := runtimeId
  displayName := displayName
  runtimeKind := runtimeKind
  providerKey := "harbor"
  status := "not_available"
  managed := true
  installable := false
  enabled := false
  capabilities := [capability]
  runtimeProfiles := [runtimeId]
  bindUrl := none
  healthzUrl := none
  modelStorePath := modelRuntimeStorePath modelStoreRoot runtimeId
  message := message
  installedAt := none
  updatedAt := none
  metadata := obj [("install_mode", string installMode), ("external_endpoint", .bool false)]

def defaultModelRuntimesForStoreRoot (modelStoreRoot : String) : List ModelRuntimeRecord :=
  [{ runtimeId := "harbor-candle"
     displayName := "Harbor Candle Runtime"
     runtimeKind := "embedded_candle"
     providerKey := "harbor"
     status := "idle"
     managed := true
     installable := true
     enabled := true
     capabilities := ["llm", "embedding"]
     runtimeProfiles := ["harbor-candle", "harbor-model-api-candle"]
     bindUrl := some (localModelApiBaseUrl env)
     healthzUrl := some (localModelApiHealthzUrl (localModelApiBaseUrl env))
     modelStorePath := modelRuntimeStorePath modelStoreRoot "harbor-candle"
     message := "Harbor-managed Candle is enabled by default and lazy-loads Harbor-owned local models without using a user Ollama instance."
     installedAt := none
     updatedAt := none
     metadata := obj [("install_mode", string "bundled_embedded_runtime"),
      ("owns_model_store", .bool true), ("external_endpoint", .bool false),
      ("default_enabled", .bool true), ("lazy_load_models", .bool true),
      ("bootstrap_model_id", string "Qwen/Qwen2.5-0.5B-Instruct")] },
   reservedRuntime modelStoreRoot "harbor-vlm-sidecar" "Harbor Vision Runtime" "managed_sidecar"
     "vlm" "Harbor Vision Runtime is reserved for managed VLM packages; use advanced OpenAI-compatible endpoint until the package is available."
     "managed_sidecar_package",
   reservedRuntime modelStoreRoot "harbor-ocr-runtime" "Harbor OCR Runtime" "managed_system_tool"
     "ocr" "Harbor OCR Runtime slot is managed separately from custom OCR endpoints."
     "managed_system_tool",
   reservedRuntime modelStoreRoot "harbor-asr-runtime" "Harbor Speech Runtime" "managed_sidecar"
     "asr" "Harbor Speech Runtime is reserved for managed ASR packages; use advanced external endpoints until available."
     "managed_sidecar_package"]

def defaultModelRuntimes : List ModelRuntimeRecord :=
  defaultModelRuntimesForStoreRoot env (defaultModelStoreRoot env)

def defaultRuntime (runtimeId : String) : Option ModelRuntimeRecord :=
  (defaultModelRuntimes env).find? fun runtime => runtime.runtimeId = runtimeId

def runtimeCapabilitiesForId (runtimeId : String) : List String :=
  ((defaultRuntime env runtimeId).map (·.capabilities)).getD []

def runtimeProfilesForId (runtimeId : String) : List String :=
  ((defaultRuntime env runtimeId).map (·.runtimeProfiles)).getD []

def defaultModelRuntimeMessage (runtimeId status : String) : String :=
  ((defaultRuntime env runtimeId).map (·.message)).getD ("runtime status: " ++ status)

end Defaults

def legacyAddress (metadata : Value) (key : String) : Option String :=
  (metadataString metadata key).filter isLegacyModelApiUrl

def migrationUpdates (defaultEndpoint endpoint : StoredEndpoint) : Fields :=
  let legacyBaseUrl := legacyAddress endpoint.metadata "base_url"
  let legacyHealthzUrl := legacyAddress endpoint.metadata "healthz_url"
  if legacyBaseUrl.isNone && legacyHealthzUrl.isNone then []
  else
    (["base_url", "healthz_url"].filterMap fun key =>
      (metadataString defaultEndpoint.metadata key).map fun value => (key, string value)) ++
    [("legacy_model_api_migrated", .bool true),
     ("legacy_model_api_migrated_reason",
      string "4176 standalone model API is not part of the release inference path")] ++
    (legacyBaseUrl.map fun value =>
      ("legacy_model_api_migrated_from_base_url", string value)).toList ++
    (legacyHealthzUrl.map fun value =>
      ("legacy_model_api_migrated_from_healthz_url", string value)).toList

def ensureModelEndpointTag (tags : List String) (tag : String) : List String :=
  if tag ∈ tags then tags else sortedSet (tags ++ [tag])

def routerTags (tags : List String) : List String :=
  ["assistant_input_parser", "k3_nsp", "semantic_router"].foldl ensureModelEndpointTag tags

def accessUpdates (defaultEndpoint endpoint : StoredEndpoint) : Fields :=
  [("api_key", string (((defaultEndpoint.metadata.get "api_key").bind asStr).getD "")),
   ("api_key_configured", .bool (metadataBool defaultEndpoint.metadata "api_key_configured")),
   ("api_key_required", .bool true)] ++
  if endpoint.modelEndpointId = "llm-local-openai-compatible" then
    [("semantic_router", .bool true), ("local_only", .bool true),
     ("cloud_fallback_allowed", .bool false)]
  else []

def builtinLocalDefault (env : CenterEnvironment) (endpoint : StoredEndpoint) :
    Option StoredEndpoint :=
  if endpoint.modelEndpointId ∈ ["embed-local-openai-compatible", "rerank-local-compatible",
      "llm-local-openai-compatible", "vlm-local-openai-compatible"] ∧
      metadataBool endpoint.metadata "builtin" = true then
    (defaultModelEndpoints env).find? fun default =>
      default.modelEndpointId = endpoint.modelEndpointId
  else none

def normalizeBuiltinLocalModelApiEndpoint (env : CenterEnvironment) (endpoint : StoredEndpoint) :
    StoredEndpoint :=
  match builtinLocalDefault env endpoint with
  | none => endpoint
  | some defaultEndpoint =>
      let endpoint :=
        { endpoint with
          capabilityTags :=
            if endpoint.modelEndpointId = "llm-local-openai-compatible" then
              routerTags endpoint.capabilityTags
            else endpoint.capabilityTags
          metadata := setFields (accessUpdates defaultEndpoint endpoint) endpoint.metadata }
      { endpoint with
        metadata := setFields (migrationUpdates defaultEndpoint endpoint) endpoint.metadata }

def embeddingProviderKey (runtimeModelId : String) : Option String :=
  let normalized := toAsciiLowercase runtimeModelId
  if containsText normalized "qwen" then some "qwen"
  else if containsText normalized "bge" then some "bge"
  else if containsText normalized "jina" then some "jina"
  else none

def servedModel (endpoint : StoredEndpoint) : Option (String × String) :=
  if endpoint.modelEndpointId ≠ "embed-local-openai-compatible" ∨ endpoint.modelKind ≠ .embedder ∨
      metadataBool endpoint.metadata "runtime_ready" = false then none
  else do
    let runtimeModelId ← metadataString endpoint.metadata "runtime_model_id"
    let runtimeEmbeddingModel ← metadataString endpoint.metadata "runtime_embedding_model"
    let model ← metadataString endpoint.metadata "model"
    if runtimeModelId ≠ runtimeEmbeddingModel ∨ runtimeModelId ≠ model then none
    else (embeddingProviderKey runtimeModelId).map fun providerKey => (providerKey, runtimeModelId)

def alignUpdates (runtimeModelId : String) : Fields :=
  [("catalog_model_id", string runtimeModelId), ("model", string runtimeModelId),
   ("runtime_model_id", string runtimeModelId),
   ("runtime_embedding_model", string runtimeModelId)]

def alignEmbeddingEndpointIdentityWithRuntime (endpoint : StoredEndpoint) : StoredEndpoint :=
  match servedModel endpoint with
  | none => endpoint
  | some (providerKey, runtimeModelId) =>
      { endpoint with
        providerKey := providerKey
        modelName := runtimeModelId
        metadata := setFields (alignUpdates runtimeModelId) endpoint.metadata }

def generatedEndpointId (endpoint : StoredEndpoint) : String :=
  String.ofList (((endpoint.modelKind.asStr ++ "-" ++
    slugifyIdentityComponent endpoint.providerKey ++ "-" ++
    slugifyIdentityComponent endpoint.modelName).toList.dropWhile (· = '-')).rdropWhile (· = '-'))

def trimmedEndpoint (endpoint : StoredEndpoint) : StoredEndpoint :=
  let providerKey := trimOr "custom" endpoint.providerKey
  { endpoint with
    modelEndpointId := trimOr (generatedEndpointId endpoint) endpoint.modelEndpointId
    workspaceId := endpoint.workspaceId.bind nonEmptyOpt
    providerAccountId := endpoint.providerAccountId.bind nonEmptyOpt
    providerKey := providerKey
    modelName := trimOr providerKey endpoint.modelName
    capabilityTags := sortedSet ((endpoint.capabilityTags.map trim).filter (· ≠ ""))
    costPolicy := normalizeJsonObject endpoint.costPolicy
    metadata := normalizeJsonObject endpoint.metadata }

def sanitizeModelEndpoint (env : CenterEnvironment) (endpoint : StoredEndpoint) :
    Except String StoredEndpoint :=
  let endpoint := trimmedEndpoint endpoint
  if endpoint.modelEndpointId = "" then .error "model_endpoint_id 不能为空"
  else
    .ok (alignEmbeddingEndpointIdentityWithRuntime
      (normalizeBuiltinLocalModelApiEndpoint env endpoint))

def sanitizeModelRoutePolicy (policy : StoredPolicy) : Except String StoredPolicy :=
  if trim policy.routePolicyId = "" then .error "route_policy_id 不能为空"
  else
    let fallbackOrder := (policy.fallbackOrder.map trim).filter (· ≠ "")
    .ok
      { policy with
        routePolicyId := trim policy.routePolicyId
        workspaceId := trimOr "home-1" policy.workspaceId
        domainScope := trimOr "retrieval" policy.domainScope
        modality := trimOr "text" policy.modality
        status := trimOr "active" policy.status
        fallbackOrder := if fallbackOrder = [] then ["local", "sidecar", "cloud"] else fallbackOrder
        metadata := normalizeJsonObject policy.metadata }

def localOnlyMetadata : Value → Value
  | .object fields =>
      .object (insertField "cloud_fallback_allowed" (.bool false)
        (insertField "local_only" (.bool true)
          (removeField "redaction_required" (removeField "cloud_fallback_scope" fields))))
  | _ => obj [("capability", string "router"), ("local_only", .bool true),
      ("cloud_fallback_allowed", .bool false)]

def keepRouterLocal (policy : StoredPolicy) : StoredPolicy :=
  if policy.routePolicyId = semanticRouterPolicyId then
    let fallbackOrder := policy.fallbackOrder.filter fun kind => !eqIgnoreAsciiCase kind "cloud"
    { policy with
      privacyLevel := .strictLocal
      fallbackOrder := if fallbackOrder = [] then ["local", "sidecar"] else fallbackOrder
      metadata := localOnlyMetadata policy.metadata }
  else policy

def candleMetadata : Value → Value
  | .object fields =>
      .object (insertMissing "bootstrap_model_id" (string "Qwen/Qwen2.5-0.5B-Instruct")
        (insertMissing "lazy_load_models" (.bool true)
          (insertMissing "default_enabled" (.bool true)
            (insertMissing "external_endpoint" (.bool false)
              (insertMissing "owns_model_store" (.bool true)
                (insertMissing "install_mode" (string "bundled_embedded_runtime") fields))))))
  | other => other

def sanitizeModelRuntime (env : CenterEnvironment) (modelStoreRoot : String)
    (runtime : ModelRuntimeRecord) : Except String ModelRuntimeRecord :=
  let runtimeId := trim runtime.runtimeId
  if runtimeId = "" then .error "runtime_id 不能为空"
  else
    let status := trimOr "not_installed" runtime.status
    let capabilities := sanitizeStringList runtime.capabilities
    let runtimeProfiles := sanitizeStringList runtime.runtimeProfiles
    let sanitized : ModelRuntimeRecord :=
      { runtime with
        runtimeId := runtimeId
        displayName := trimOr (replaceChar '-' ' ' runtimeId) runtime.displayName
        runtimeKind := trimOr "managed_runtime" runtime.runtimeKind
        providerKey := trimOr "harbor" runtime.providerKey
        status := status
        capabilities :=
          if capabilities = [] then runtimeCapabilitiesForId env runtimeId else capabilities
        runtimeProfiles :=
          if runtimeProfiles = [] then runtimeProfilesForId env runtimeId else runtimeProfiles
        bindUrl := runtime.bindUrl.bind nonEmptyOpt
        healthzUrl := runtime.healthzUrl.bind nonEmptyOpt
        modelStorePath := trimOr (modelRuntimeStorePath modelStoreRoot runtimeId)
          runtime.modelStorePath
        message := trimOr (defaultModelRuntimeMessage env runtimeId status) runtime.message
        installedAt := runtime.installedAt.bind nonEmptyOpt
        updatedAt := runtime.updatedAt.bind nonEmptyOpt
        metadata := normalizeJsonObject runtime.metadata }
    .ok (if runtimeId = "harbor-candle" then
        { sanitized with
          enabled := true
          status := if status = "not_installed" then "idle" else status
          metadata := candleMetadata sanitized.metadata }
      else sanitized)

def sanitizeCapabilityBinding (now : Nat) (binding : ModelCapabilityBindingRecord) :
    Option ModelCapabilityBindingRecord := do
  let capabilityId ← nonEmptyOpt binding.capabilityId
  let desiredModelId ← nonEmptyOpt binding.desiredModelId
  return {
    capabilityId := capabilityId
    desiredModelId := desiredModelId
    activeModelId := binding.activeModelId.bind nonEmptyOpt
    transitionStatus := trimOr "ready" binding.transitionStatus
    lastError := binding.lastError.bind nonEmptyOpt
    updatedAt := trimOr (toString now) binding.updatedAt }

def endpointOrderKey (endpoint : StoredEndpoint) : String ×ₗ String :=
  toLex (endpoint.modelKind.asStr, endpoint.modelEndpointId)

def filledRoutePolicies (policies : List StoredPolicy) : List StoredPolicy :=
  if policies.filterMap (fun policy => (sanitizeModelRoutePolicy policy).toOption) = [] then
    defaultModelRoutePolicies
  else
    fill (fun policy => (sanitizeModelRoutePolicy policy).toOption)
      (fun policy : StoredPolicy => policy.routePolicyId) defaultModelRoutePolicies policies

def sanitizeModelCenterState (env : CenterEnvironment) (now : Nat) (state : StoredModelCenter) :
    StoredModelCenter :=
  let modelStoreRoot := trimOr (defaultModelStoreRoot env) state.modelStoreRoot
  { endpoints :=
      normal (fun endpoint => (sanitizeModelEndpoint env endpoint).toOption)
        (fun endpoint => endpoint.modelEndpointId) endpointOrderKey (defaultModelEndpoints env)
        state.endpoints
    routePolicies :=
      sortOn (fun policy : StoredPolicy => policy.routePolicyId)
        ((filledRoutePolicies state.routePolicies).map keepRouterLocal)
    modelStoreRoot := modelStoreRoot
    capabilityBindings :=
      sortOn ModelCapabilityBindingRecord.capabilityId
        (keepFirst ModelCapabilityBindingRecord.capabilityId []
          (state.capabilityBindings.filterMap (sanitizeCapabilityBinding now)))
    runtimes :=
      normal (fun runtime => (sanitizeModelRuntime env modelStoreRoot runtime).toOption)
        ModelRuntimeRecord.runtimeId ModelRuntimeRecord.runtimeId
        (defaultModelRuntimesForStoreRoot env modelStoreRoot) state.runtimes }

end HarborBeacon.ModelSettings
