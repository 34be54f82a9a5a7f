import HarborBeacon.OwnedTables
import HarborBeacon.SettledEndpoints

/-!
The model center after its normalisation. Nothing built in is missing and the semantic router is
local; it stays as it is when it is loaded or saved again, but for runtimes that were named by an
id with a dash at an end and for retired addresses that are replaced by retired ones.
-/

namespace HarborBeacon.ModelSettings

open AdminConsole FilledTables Json Json.Value ModelCenter ModelRouting OwnedTables Text
open TrimmedTexts

section Defaults

variable {env : CenterEnvironment} {default : StoredEndpoint}

theorem cleanEndpoint_default (h : default ∈ defaultModelEndpoints env) :
    CleanEndpoint default := by
  revert default
  simp only [defaultModelEndpoints, List.forall_mem_cons]
  refine ⟨?_, ?_, ?_, ?_, ?_, ?_, by simp⟩ <;>
  · constructor <;>
      first
      | exact rfl
      | exact ⟨_, rfl⟩
      | dsimp only; decide

theorem unique_defaultModelEndpoints :
    Unique (fun default : StoredEndpoint => default.modelEndpointId)
      (defaultModelEndpoints env) := by
  show ["ocr-local-tesseract", "embed-local-openai-compatible", "rerank-local-compatible",
    "llm-local-openai-compatible", "llm-cloud-siliconflow", "vlm-local-openai-compatible"].Nodup
  decide

theorem builtinLocalDefault_default {other : StoredEndpoint}
    (h : default ∈ defaultModelEndpoints env)
    (hother : builtinLocalDefault env default = some other) : other = default := by
  rw [builtinLocalDefault] at hother
  split at hother
  · rw [find?_key unique_defaultModelEndpoints h] at hother
    exact (Option.some.inj hother).symm
  · exact absurd hother (by simp)

theorem cleanEndpoint_default_settled (h : default ∈ defaultModelEndpoints env) :
    ∃ cleaned, cleanEndpoint env default = some cleaned ∧
      cleaned.modelEndpointId = default.modelEndpointId ∧
      cleanEndpoint env cleaned = some cleaned := by
  have htrimmed := (cleanEndpoint_default h).trimmed
  refine ⟨_, cleanEndpoint_eq, ?_, ?_⟩
  · rw [htrimmed]
    exact endpointOrderKey_finished.1
  · rw [cleanEndpoint_settled_iff cleanEndpoint_eq, htrimmed]
    intro other hother _ keys _ address haddress
    rw [builtinLocalDefault_default h hother] at haddress
    rw [haddress]

theorem trimmed_defaultModelStoreRoot : Trimmed (defaultModelStoreRoot env) :=
  trimmed_joinPath trimmed_harborosWritableRoot (by decide)

end Defaults

section Center

structure CenterSettles (env : CenterEnvironment) (state : StoredModelCenter) : Prop where
  endpoints : ∀ endpoint ∈ state.endpoints, AddressesSettle env (trimmedEndpoint endpoint)
  runtimes : ∀ runtime ∈ state.runtimes, NameSettles runtime

/-- Nothing built in is missing. -/
structure Complete (env : CenterEnvironment) (center : StoredModelCenter) : Prop where
  endpoints : ∀ default ∈ defaultModelEndpoints env,
    default.modelEndpointId ∈ center.endpoints.map fun endpoint => endpoint.modelEndpointId
  routePolicies : ∀ default ∈ defaultModelRoutePolicies,
    default.routePolicyId ∈ center.routePolicies.map fun policy => policy.routePolicyId
  runtimes : ∀ default ∈ defaultModelRuntimes env,
    default.runtimeId ∈ center.runtimes.map ModelRuntimeRecord.runtimeId

structure LocalPolicy (policy : StoredPolicy) : Prop where
  privacyLevel : policy.privacyLevel = .strictLocal
  fallbackOrder_ne_nil : policy.fallbackOrder ≠ []
  no_cloud : ∀ kind ∈ policy.fallbackOrder, eqIgnoreAsciiCase kind "cloud" = false
  local_only : policy.metadata.get "local_only" = some (.bool true)
  no_cloud_fallback : policy.metadata.get "cloud_fallback_allowed" = some (.bool false)

structure RouterLocal (center : StoredModelCenter) : Prop where
  listed : semanticRouterPolicyId ∈ center.routePolicies.map fun policy => policy.routePolicyId
  isLocal : ∀ policy ∈ center.routePolicies,
    policy.routePolicyId = semanticRouterPolicyId → LocalPolicy policy

variable (env : CenterEnvironment) (now later : Nat) (state : StoredModelCenter)

theorem endpoints_sanitize :
    (sanitizeModelCenterState env now state).endpoints =
      normal (cleanEndpoint env) (fun endpoint => endpoint.modelEndpointId) endpointOrderKey
        (defaultModelEndpoints env) state.endpoints :=
  rfl

theorem runtimes_sanitize :
    (sanitizeModelCenterState env now state).runtimes =
      normal (cleanRuntime env (sanitizeModelCenterState env now state).modelStoreRoot)
        ModelRuntimeRecord.runtimeId ModelRuntimeRecord.runtimeId
        (defaultModelRuntimesForStoreRoot env
          (sanitizeModelCenterState env now state).modelStoreRoot) state.runtimes :=
  rfl

theorem routePolicies_sanitize :
    (sanitizeModelCenterState env now state).routePolicies =
      normal cleanRoutePolicy (fun policy : StoredPolicy => policy.routePolicyId)
        (fun policy => policy.routePolicyId) defaultModelRoutePolicies state.routePolicies := by
  show sortOn _ ((filledRoutePolicies state.routePolicies).map keepRouterLocal) = _
  rw [map_filledRoutePolicies]
  rfl

theorem cleanRoutePolicy_default {policy : StoredPolicy} (h : policy ∈ defaultModelRoutePolicies) :
    ∃ cleaned, cleanRoutePolicy policy = some cleaned ∧
      cleaned.routePolicyId = policy.routePolicyId ∧ cleanRoutePolicy cleaned = some cleaned := by
  have hcleaned := cleanRoutePolicy_eq_some_iff.mpr
    ⟨policy, defaultModelRoutePolicies_settled policy h, rfl⟩
  exact ⟨_, hcleaned, routePolicyId_keepRouterLocal policy, cleanRoutePolicy_again hcleaned⟩

theorem routePolicies_again :
    (sanitizeModelCenterState env later (sanitizeModelCenterState env now state)).routePolicies =
      (sanitizeModelCenterState env now state).routePolicies := by
  rw [routePolicies_sanitize, routePolicies_sanitize, normal_normal_iff_stored]
  · exact fun old _ row hrow => cleanRoutePolicy_again hrow
  · exact fun _ _ h => ⟨_, cleanRoutePolicy_again h, rfl, rfl⟩
  · exact fun row hrow => cleanRoutePolicy_default hrow

theorem endpoints_again_iff :
    (sanitizeModelCenterState env later (sanitizeModelCenterState env now state)).endpoints =
        (sanitizeModelCenterState env now state).endpoints ↔
      ∀ endpoint ∈ state.endpoints, AddressesSettle env (trimmedEndpoint endpoint) := by
  rw [endpoints_sanitize, endpoints_sanitize, normal_normal_iff_stored keepsPlace_cleanEndpoint
    fun row hrow => cleanEndpoint_default_settled hrow]
  refine forall₂_congr fun endpoint _ => ?_
  constructor
  · exact fun h => (cleanEndpoint_settled_iff cleanEndpoint_eq).mp (h _ cleanEndpoint_eq)
  · exact fun h row hrow => (cleanEndpoint_settled_iff hrow).mpr h

theorem modelStoreRoot_sanitize :
    (sanitizeModelCenterState env now state).modelStoreRoot =
      trimOr (defaultModelStoreRoot env) state.modelStoreRoot :=
  rfl

theorem trimmed_modelStoreRoot :
    Trimmed (sanitizeModelCenterState env now state).modelStoreRoot := by
  rw [modelStoreRoot_sanitize]
  exact trimmed_trimOr trimmed_defaultModelStoreRoot _

theorem modelStoreRoot_again :
    (sanitizeModelCenterState env later
        (sanitizeModelCenterState env now state)).modelStoreRoot =
      (sanitizeModelCenterState env now state).modelStoreRoot := by
  rw [modelStoreRoot_sanitize env later]
  exact trimOr_of_trimmed (trimmed_modelStoreRoot env now state) _

theorem runtimes_again_iff :
    (sanitizeModelCenterState env later (sanitizeModelCenterState env now state)).runtimes =
        (sanitizeModelCenterState env now state).runtimes ↔
      ∀ runtime ∈ state.runtimes, NameSettles runtime := by
  have hroot := trimmed_modelStoreRoot env now state
  rw [runtimes_sanitize env later, modelStoreRoot_again, runtimes_sanitize env now state,
    normal_normal_iff_stored (keepsPlace_cleanRuntime hroot) fun row hrow =>
      cleanRuntime_default hroot hrow]
  refine forall₂_congr fun runtime _ => ?_
  constructor
  · intro h
    by_cases hid : trim runtime.runtimeId = ""
    · intro _
      rw [hid]
      exact Or.inr (by decide)
    · obtain ⟨cleaned, hcleaned⟩ : ∃ cleaned, cleanRuntime env
          (sanitizeModelCenterState env now state).modelStoreRoot runtime = some cleaned :=
        ⟨_, cleanRuntime_eq_some_iff.mpr ⟨hid, rfl⟩⟩
      exact (cleanRuntime_settled_iff hroot hcleaned).mp (h cleaned hcleaned)
  · exact fun h row hrow => (cleanRuntime_settled_iff hroot hrow).mpr h

theorem sanitize_again_iff :
    sanitizeModelCenterState env later (sanitizeModelCenterState env now state) =
        sanitizeModelCenterState env now state ↔ CenterSettles env state := by
  constructor
  · intro h
    exact ⟨(endpoints_again_iff env now later state).mp (congrArg _ h),
      (runtimes_again_iff env now later state).mp (congrArg _ h)⟩
  · rintro ⟨hendpoints, hruntimes⟩
    have hbindings : (sanitizeModelCenterState env later
        (sanitizeModelCenterState env now state)).capabilityBindings =
        (sanitizeModelCenterState env now state).capabilityBindings :=
      cleanBindings_again now later state.capabilityBindings
    exact StoredModelCenter.ext ((endpoints_again_iff env now later state).mpr hendpoints)
      (routePolicies_again env now later state) (modelStoreRoot_again env now later state)
      hbindings ((runtimes_again_iff env now later state).mpr hruntimes)

theorem runtimeIds_defaults (modelStoreRoot : String) :
    (defaultModelRuntimesForStoreRoot env modelStoreRoot).map ModelRuntimeRecord.runtimeId =
      ["harbor-candle", "harbor-vlm-sidecar", "harbor-ocr-runtime", "harbor-asr-runtime"] :=
  rfl

theorem complete_sanitize : Complete env (sanitizeModelCenterState env now state) := by
  constructor
  · intro default hdefault
    obtain ⟨cleaned, hcleaned, hid, -⟩ := cleanEndpoint_default_settled hdefault
    rw [endpoints_sanitize]
    exact id_mem_normal hdefault ⟨cleaned, hcleaned, hid⟩
  · intro default hdefault
    obtain ⟨cleaned, hcleaned, hid, -⟩ := cleanRoutePolicy_default hdefault
    rw [routePolicies_sanitize]
    exact id_mem_normal hdefault ⟨cleaned, hcleaned, hid⟩
  · intro default hdefault
    have hroot := trimmed_modelStoreRoot env now state
    rw [runtimes_sanitize]
    generalize (sanitizeModelCenterState env now state).modelStoreRoot = root at hroot ⊢
    have hmem : default.runtimeId ∈
        (defaultModelRuntimesForStoreRoot env root).map ModelRuntimeRecord.runtimeId := by
      rw [runtimeIds_defaults, ← runtimeIds_defaults env (defaultModelStoreRoot env)]
      exact List.mem_map_of_mem hdefault
    obtain ⟨row, hrow, heq⟩ := List.mem_map.mp hmem
    obtain ⟨cleaned, hcleaned, hid, -⟩ := cleanRuntime_default hroot hrow
    rw [← heq]
    exact id_mem_normal hrow ⟨cleaned, hcleaned, hid⟩

theorem routerLocal_sanitize : RouterLocal (sanitizeModelCenterState env now state) := by
  constructor
  · have hrouter : semanticRouterPolicyId ∈
        defaultModelRoutePolicies.map fun policy => policy.routePolicyId := by decide
    obtain ⟨policy, hpolicy, heq⟩ := List.mem_map.mp hrouter
    rw [← heq]
    exact (complete_sanitize env now state).routePolicies policy hpolicy
  · intro policy hpolicy hrouter
    rw [routePolicies_sanitize] at hpolicy
    obtain ⟨old, hold⟩ : ∃ old, cleanRoutePolicy old = some policy := by
      rcases exists_of_mem_fill (mem_sortOn.mp hpolicy) with ⟨old, -, hold⟩ | ⟨old, -, hold⟩
      · exact ⟨old, hold⟩
      · exact ⟨old, hold⟩
    obtain ⟨sanitized, hsanitized, rfl⟩ := cleanRoutePolicy_eq_some_iff.mp hold
    rw [routePolicyId_keepRouterLocal] at hrouter
    have hmetadata := get_localOnlyMetadata (cleanPolicy_of_sanitize hsanitized).metadata
    rw [keepRouterLocal_of_router hrouter]
    exact
      { privacyLevel := rfl
        fallbackOrder_ne_nil := localOrder_ne_nil _
        no_cloud := not_cloud_of_mem_localOrder
        local_only := hmetadata.1
        no_cloud_fallback := hmetadata.2 }

/-- Whatever was stored, the normalised center is complete and keeps the router local; it is
settled exactly if its addresses and names are. -/
theorem center_stable_iff :
    (sanitizeModelCenterState env later (sanitizeModelCenterState env now state) =
        sanitizeModelCenterState env now state ↔ CenterSettles env state) ∧
      Complete env (sanitizeModelCenterState env now state) ∧
      RouterLocal (sanitizeModelCenterState env now state) :=
  ⟨sanitize_again_iff env now later state, complete_sanitize env now state,
    routerLocal_sanitize env now state⟩

def dashedRuntime : ModelRuntimeRecord where
  runtimeId := "-camera"
  displayName := ""
  runtimeKind := ""
  providerKey := ""
  status := ""
  managed := false
  installable := false
  enabled := false
  capabilities := []
  runtimeProfiles := []
  bindUrl := none
  healthzUrl := none
  modelStorePath := ""
  message := ""
  installedAt := none
  updatedAt := none
  metadata := .null

/-- The runtime is first named ` camera` and then `camera`. -/
theorem dashed_runtime_renamed :
    ¬ ∀ env now later state,
      sanitizeModelCenterState env later (sanitizeModelCenterState env now state) =
        sanitizeModelCenterState env now state := by
  intro h
  have hsettles := (sanitize_again_iff ⟨none, none, none⟩ 0 0
    { endpoints := [], routePolicies := [], modelStoreRoot := "", capabilityBindings := [],
      runtimes := [dashedRuntime] }).mp (h _ 0 0 _)
  exact absurd (hsettles.runtimes dashedRuntime (List.mem_singleton_self _)) (by decide)

end Center

end HarborBeacon.ModelSettings
