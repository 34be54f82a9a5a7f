import HarborBeacon.ModelSettings

/-!
Route policies, runtimes and capability bindings that were normalised once. Policies and bindings
stay as they are from then on; so does a runtime, but for a display name that was made from its
id and has a blank at an end.
-/

namespace HarborBeacon.ModelSettings

open AdminConsole FilledTables Json Json.Value ModelCenter ModelRouting Text TrimmedTexts

def CleanTexts (texts : List String) : Prop :=
  ∀ text ∈ texts, Trimmed text

theorem cleanTexts_trim (texts : List String) :
    CleanTexts ((texts.map trim).filter (· ≠ "")) := by
  intro text htext
  obtain ⟨hmem, hne⟩ := List.mem_filter.mp htext
  obtain ⟨raw, -, rfl⟩ := List.mem_map.mp hmem
  exact trimmed_trim (of_decide_eq_true hne)

theorem trim_of_cleanTexts {texts : List String} (h : CleanTexts texts) :
    (texts.map trim).filter (· ≠ "") = texts := by
  have hmap : texts.map trim = texts.map id :=
    List.map_congr_left fun text htext => (h text htext).1
  rw [hmap, List.map_id, List.filter_eq_self]
  exact fun text htext => decide_eq_true (h text htext).2

theorem cleanTexts_sanitizeStringList (values : List String) :
    CleanTexts (sanitizeStringList values) ∧ (sanitizeStringList values).Nodup := by
  refine ⟨fun text htext => cleanTexts_trim values text (keepFirst_sublist.subset htext), ?_⟩
  have hnodup : ((sanitizeStringList values).map id).Nodup := nodup_keepFirst
  rwa [List.map_id] at hnodup

theorem sanitizeStringList_of_clean {values : List String} (h : CleanTexts values)
    (hnodup : values.Nodup) : sanitizeStringList values = values := by
  rw [sanitizeStringList, trim_of_cleanTexts h]
  apply keepFirst_eq_self
  · rwa [List.map_id]
  · exact fun _ _ => List.not_mem_nil

def IsObject (value : Value) : Prop :=
  ∃ fields, value = .object fields

theorem isObject_normalizeJsonObject (value : Value) : IsObject (normalizeJsonObject value) := by
  cases value with
  | object fields => exact ⟨fields, rfl⟩
  | _ => exact ⟨[], rfl⟩

variable {fallbackOrder : List String} {policy : StoredPolicy} {value : Value}

theorem normalizeJsonObject_of_isObject (h : IsObject value) :
    normalizeJsonObject value = value := by
  obtain ⟨fields, rfl⟩ := h
  rfl

structure CleanPolicy (policy : StoredPolicy) : Prop where
  routePolicyId : Trimmed policy.routePolicyId
  workspaceId : Trimmed policy.workspaceId
  domainScope : Trimmed policy.domainScope
  modality : Trimmed policy.modality
  status : Trimmed policy.status
  fallbackOrder : CleanTexts policy.fallbackOrder
  fallbackOrder_ne_nil : policy.fallbackOrder ≠ []
  metadata : IsObject policy.metadata

theorem cleanPolicy_of_sanitize {policy sanitized : StoredPolicy}
    (h : sanitizeModelRoutePolicy policy = .ok sanitized) : CleanPolicy sanitized := by
  rw [sanitizeModelRoutePolicy] at h
  split at h
  · exact absurd h (by simp)
  · rename_i hid
    rw [← Except.ok.inj h]
    constructor <;> dsimp only
    · exact trimmed_trim hid
    · exact trimmed_trimOr (by decide) _
    · exact trimmed_trimOr (by decide) _
    · exact trimmed_trimOr (by decide) _
    · exact trimmed_trimOr (by decide) _
    · split
      · unfold CleanTexts
        decide
      · exact cleanTexts_trim _
    · split
      · exact List.cons_ne_nil _ _
      · assumption
    · exact isObject_normalizeJsonObject _

theorem CleanPolicy.sanitize (h : CleanPolicy policy) :
    sanitizeModelRoutePolicy policy = .ok policy := by
  rw [sanitizeModelRoutePolicy, h.routePolicyId.1, if_neg h.routePolicyId.2,
    trim_of_cleanTexts h.fallbackOrder, trimOr_of_trimmed h.workspaceId,
    trimOr_of_trimmed h.domainScope, trimOr_of_trimmed h.modality, trimOr_of_trimmed h.status,
    normalizeJsonObject_of_isObject h.metadata]
  show Except.ok { policy with fallbackOrder := if _ then _ else _ } = _
  rw [if_neg h.fallbackOrder_ne_nil]

theorem isObject_localOnlyMetadata (value : Value) : IsObject (localOnlyMetadata value) := by
  cases value with
  | object fields => exact ⟨_, rfl⟩
  | _ => exact ⟨_, rfl⟩

theorem get_localOnlyMetadata (h : IsObject value) :
    (localOnlyMetadata value).get "local_only" = some (.bool true) ∧
      (localOnlyMetadata value).get "cloud_fallback_allowed" = some (.bool false) := by
  obtain ⟨fields, rfl⟩ := h
  constructor <;> simp [localOnlyMetadata, Value.get]

theorem localOnlyMetadata_idem (h : IsObject value) :
    localOnlyMetadata (localOnlyMetadata value) = localOnlyMetadata value := by
  obtain ⟨fields, rfl⟩ := h
  rw [localOnlyMetadata]
  generalize hlocal : insertField "cloud_fallback_allowed" (.bool false)
    (insertField "local_only" (.bool true)
      (removeField "redaction_required" (removeField "cloud_fallback_scope" fields))) = written
  have hscope : lookupField "cloud_fallback_scope" written = none := by simp [← hlocal]
  have hredaction : lookupField "redaction_required" written = none := by simp [← hlocal]
  have honly : Settled "local_only" (.bool true) written := by
    rw [← hlocal]
    exact (settled_insertField _ _ _).insertField (by decide) _
  have hcloud : Settled "cloud_fallback_allowed" (.bool false) written := by
    rw [← hlocal]
    exact settled_insertField _ _ _
  rw [localOnlyMetadata, removeField_eq_self hscope, removeField_eq_self hredaction, honly, hcloud]

theorem routePolicyId_keepRouterLocal (policy : StoredPolicy) :
    (keepRouterLocal policy).routePolicyId = policy.routePolicyId := by
  rw [keepRouterLocal]
  split <;> rfl

def localOrder (fallbackOrder : List String) : List String :=
  let kept := fallbackOrder.filter fun kind => !eqIgnoreAsciiCase kind "cloud"
  if kept = [] then ["local", "sidecar"] else kept

theorem localOrder_ne_nil (fallbackOrder : List String) : localOrder fallbackOrder ≠ [] := by
  rw [localOrder]
  split
  · exact List.cons_ne_nil _ _
  · assumption

theorem not_cloud_of_mem_localOrder :
    ∀ kind ∈ localOrder fallbackOrder, eqIgnoreAsciiCase kind "cloud" = false := by
  rw [localOrder]
  split
  · decide
  · intro kind hkind
    simpa using (List.mem_filter.mp hkind).2

theorem localOrder_of_no_cloud (hne : fallbackOrder ≠ [])
    (h : ∀ kind ∈ fallbackOrder, eqIgnoreAsciiCase kind "cloud" = false) :
    localOrder fallbackOrder = fallbackOrder := by
  have hkept : (fallbackOrder.filter fun kind => !eqIgnoreAsciiCase kind "cloud") =
      fallbackOrder := by
    rw [List.filter_eq_self]
    intro kind hkind
    rw [h kind hkind]
    rfl
  rw [localOrder, hkept, if_neg hne]

theorem cleanTexts_localOrder (h : CleanTexts fallbackOrder) :
    CleanTexts (localOrder fallbackOrder) := by
  rw [localOrder]
  split
  · unfold CleanTexts
    decide
  · exact fun text htext => h text (List.mem_filter.mp htext).1

theorem keepRouterLocal_of_router (h : policy.routePolicyId = semanticRouterPolicyId) :
    keepRouterLocal policy =
      { policy with
        privacyLevel := .strictLocal
        fallbackOrder := localOrder policy.fallbackOrder
        metadata := localOnlyMetadata policy.metadata } :=
  if_pos h

theorem CleanPolicy.keepRouterLocal {policy : StoredPolicy} (h : CleanPolicy policy) :
    CleanPolicy (keepRouterLocal policy) := by
  by_cases hrouter : policy.routePolicyId = semanticRouterPolicyId
  · rw [keepRouterLocal_of_router hrouter]
    exact
      { h with
        fallbackOrder := cleanTexts_localOrder h.fallbackOrder
        fallbackOrder_ne_nil := localOrder_ne_nil _
        metadata := isObject_localOnlyMetadata _ }
  · rwa [ModelSettings.keepRouterLocal, if_neg hrouter]

theorem keepRouterLocal_idem (h : CleanPolicy policy) :
    keepRouterLocal (keepRouterLocal policy) = keepRouterLocal policy := by
  by_cases hrouter : policy.routePolicyId = semanticRouterPolicyId
  · have hagain : (keepRouterLocal policy).routePolicyId = semanticRouterPolicyId :=
      (routePolicyId_keepRouterLocal policy).trans hrouter
    rw [keepRouterLocal_of_router hagain, keepRouterLocal_of_router hrouter,
      localOrder_of_no_cloud (localOrder_ne_nil _) not_cloud_of_mem_localOrder,
      localOnlyMetadata_idem h.metadata]
  · have hsame : keepRouterLocal policy = policy := if_neg hrouter
    rw [hsame, hsame]

def cleanRoutePolicy (policy : StoredPolicy) : Option StoredPolicy :=
  (sanitizeModelRoutePolicy policy).toOption.map keepRouterLocal

theorem cleanRoutePolicy_eq_some_iff {policy cleaned : StoredPolicy} :
    cleanRoutePolicy policy = some cleaned ↔
      ∃ sanitized, sanitizeModelRoutePolicy policy = .ok sanitized ∧
        keepRouterLocal sanitized = cleaned := by
  rw [cleanRoutePolicy, Option.map_eq_some_iff]
  cases sanitizeModelRoutePolicy policy with
  | error message => simp [Except.toOption]
  | ok sanitized => simp [Except.toOption]

theorem cleanRoutePolicy_again {policy cleaned : StoredPolicy}
    (h : cleanRoutePolicy policy = some cleaned) : cleanRoutePolicy cleaned = some cleaned := by
  obtain ⟨sanitized, hsanitized, rfl⟩ := cleanRoutePolicy_eq_some_iff.mp h
  have hclean := cleanPolicy_of_sanitize hsanitized
  rw [cleanRoutePolicy_eq_some_iff]
  exact ⟨_, hclean.keepRouterLocal.sanitize, keepRouterLocal_idem hclean⟩

theorem defaultModelRoutePolicies_settled :
    ∀ policy ∈ defaultModelRoutePolicies, sanitizeModelRoutePolicy policy = .ok policy := by
  simp only [defaultModelRoutePolicies, List.forall_mem_cons]
  exact ⟨rfl, rfl, rfl, rfl, rfl, rfl, by simp⟩

theorem map_filledRoutePolicies (policies : List StoredPolicy) :
    (filledRoutePolicies policies).map keepRouterLocal =
      fill cleanRoutePolicy (fun policy : StoredPolicy => policy.routePolicyId)
        defaultModelRoutePolicies policies := by
  have hfill : filledRoutePolicies policies =
      fill (fun policy => (sanitizeModelRoutePolicy policy).toOption)
        (fun policy : StoredPolicy => policy.routePolicyId) defaultModelRoutePolicies
        policies := by
    rw [filledRoutePolicies]
    split
    · rename_i hnone
      have hdefaults : defaultModelRoutePolicies.filterMap
          (fun policy => (sanitizeModelRoutePolicy policy).toOption) =
          defaultModelRoutePolicies := by
        rw [filterMap_eq_self_iff]
        intro policy hpolicy
        rw [defaultModelRoutePolicies_settled policy hpolicy]
        rfl
      simp only [fill, hnone, List.map_nil, List.not_mem_nil, not_false_eq_true, decide_true,
        List.filter_true, hdefaults, List.nil_append]
    · rfl
  rw [hfill]
  exact (fill_map routePolicyId_keepRouterLocal).symm

section Runtimes

/-- The fields of a runtime that are settled after they were trimmed; its display name is not
among them. -/
structure TrimmedRuntime (env : CenterEnvironment) (runtime : ModelRuntimeRecord) : Prop where
  runtimeId : Trimmed runtime.runtimeId
  runtimeKind : Trimmed runtime.runtimeKind
  providerKey : Trimmed runtime.providerKey
  status : Trimmed runtime.status
  capabilities : sanitizeStringList runtime.capabilities = runtime.capabilities
  noCapabilities : runtime.capabilities = [] → runtimeCapabilitiesForId env runtime.runtimeId = []
  runtimeProfiles : sanitizeStringList runtime.runtimeProfiles = runtime.runtimeProfiles
  noRuntimeProfiles : runtime.runtimeProfiles = [] →
    runtimeProfilesForId env runtime.runtimeId = []
  bindUrl : runtime.bindUrl.bind nonEmptyOpt = runtime.bindUrl
  healthzUrl : runtime.healthzUrl.bind nonEmptyOpt = runtime.healthzUrl
  modelStorePath : Trimmed runtime.modelStorePath
  message : Trimmed runtime.message
  installedAt : runtime.installedAt.bind nonEmptyOpt = runtime.installedAt
  updatedAt : runtime.updatedAt.bind nonEmptyOpt = runtime.updatedAt
  metadata : IsObject runtime.metadata

structure CleanRuntime (env : CenterEnvironment) (runtime : ModelRuntimeRecord) : Prop
    extends TrimmedRuntime env runtime where
  candle : runtime.runtimeId = "harbor-candle" → runtime.enabled = true ∧
    runtime.status ≠ "not_installed" ∧ candleMetadata runtime.metadata = runtime.metadata

variable {env : CenterEnvironment} {values fallback : List String}

theorem trimmed_joinPath {base part : String} (hbase : Trimmed base) (hpart : Trimmed part) :
    Trimmed (joinPath base part) := by
  rw [joinPath]
  split_ifs
  · exact hpart
  · have happend := hbase.append hpart ""
    rwa [String.append_empty] at happend
  · exact hbase.append hpart "/"

theorem trimmed_harborosWritableRoot : Trimmed (harborosWritableRoot env) := by
  have hroot : Trimmed "/mnt/software/harborbeacon-agent-ci" := by decide
  rw [harborosWritableRoot]
  cases h : env.writableRoot.bind nonEmptyOpt with
  | none => exact hroot
  | some root =>
      obtain ⟨raw, -, hraw⟩ := Option.bind_eq_some_iff.mp h
      exact trimmed_of_nonEmptyOpt hraw

theorem defaultModelRuntimes_settled :
    ∀ runtime ∈ defaultModelRuntimes env,
      sanitizeStringList runtime.capabilities = runtime.capabilities ∧
        sanitizeStringList runtime.runtimeProfiles = runtime.runtimeProfiles ∧
        Trimmed runtime.message := by
  simp only [defaultModelRuntimes, defaultModelRuntimesForStoreRoot, reservedRuntime,
    List.forall_mem_cons]
  refine ⟨⟨?_, ?_, ?_⟩, ⟨?_, ?_, ?_⟩, ⟨?_, ?_, ?_⟩, ⟨?_, ?_, ?_⟩, by simp⟩ <;>
    decide +kernel

theorem defaultRuntime_mem {runtimeId : String} {runtime : ModelRuntimeRecord}
    (h : defaultRuntime env runtimeId = some runtime) : runtime ∈ defaultModelRuntimes env :=
  List.mem_of_find?_eq_some h

theorem sanitizeStringList_idem (values : List String) :
    sanitizeStringList (sanitizeStringList values) = sanitizeStringList values := by
  obtain ⟨hclean, hnodup⟩ := cleanTexts_sanitizeStringList values
  exact sanitizeStringList_of_clean hclean hnodup

theorem runtimeCapabilitiesForId_settled (runtimeId : String) :
    sanitizeStringList (runtimeCapabilitiesForId env runtimeId) =
      runtimeCapabilitiesForId env runtimeId := by
  rw [runtimeCapabilitiesForId]
  cases h : defaultRuntime env runtimeId with
  | none => rfl
  | some runtime => exact (defaultModelRuntimes_settled runtime (defaultRuntime_mem h)).1

theorem runtimeProfilesForId_settled (runtimeId : String) :
    sanitizeStringList (runtimeProfilesForId env runtimeId) =
      runtimeProfilesForId env runtimeId := by
  rw [runtimeProfilesForId]
  cases h : defaultRuntime env runtimeId with
  | none => rfl
  | some runtime => exact (defaultModelRuntimes_settled runtime (defaultRuntime_mem h)).2.1

theorem trimmed_defaultModelRuntimeMessage (runtimeId : String) {status : String}
    (h : Trimmed status) : Trimmed (defaultModelRuntimeMessage env runtimeId status) := by
  rw [defaultModelRuntimeMessage]
  cases hruntime : defaultRuntime env runtimeId with
  | none =>
      have hbegin : Trimmed "runtime status:" := by decide
      have htext : "runtime status: " = "runtime status:" ++ " " := by decide
      rw [Option.map_none, Option.getD_none, htext]
      exact hbegin.append h " "
  | some runtime => exact (defaultModelRuntimes_settled runtime (defaultRuntime_mem hruntime)).2.2

theorem candleMetadata_idem {value : Value} (h : IsObject value) :
    candleMetadata (candleMetadata value) = candleMetadata value := by
  obtain ⟨fields, rfl⟩ := h
  rw [candleMetadata]
  generalize hwritten : insertMissing "bootstrap_model_id" _ _ = written
  have hfound : ∀ key ∈ ["bootstrap_model_id", "lazy_load_models", "default_enabled",
      "external_endpoint", "owns_model_store", "install_mode"],
      (lookupField key written).isSome := by
    rw [← hwritten]
    simp [isSome_lookupField_insertMissing]
  simp only [List.forall_mem_cons] at hfound
  obtain ⟨hmodel, hlazy, hdefault, hexternal, howns, hinstall, -⟩ := hfound
  rw [candleMetadata, insertMissing_eq_self hinstall, insertMissing_eq_self howns,
    insertMissing_eq_self hexternal, insertMissing_eq_self hdefault, insertMissing_eq_self hlazy,
    insertMissing_eq_self hmodel]

theorem isObject_candleMetadata {value : Value} (h : IsObject value) :
    IsObject (candleMetadata value) := by
  obtain ⟨fields, rfl⟩ := h
  exact ⟨_, rfl⟩

theorem settled_list (h : sanitizeStringList fallback = fallback) :
    sanitizeStringList (if sanitizeStringList values = [] then fallback
      else sanitizeStringList values) =
      if sanitizeStringList values = [] then fallback else sanitizeStringList values := by
  split
  · exact h
  · exact sanitizeStringList_idem values

theorem fallback_eq_nil (h : (if values = [] then fallback else values) = []) : fallback = [] := by
  split at h
  · exact h
  · rename_i hne
    exact absurd h hne

def trimmedRuntime (env : CenterEnvironment) (modelStoreRoot : String)
    (runtime : ModelRuntimeRecord) : ModelRuntimeRecord :=
  let runtimeId := trim runtime.runtimeId
  let status := trimOr "not_installed" runtime.status
  let capabilities := sanitizeStringList runtime.capabilities
  let runtimeProfiles := sanitizeStringList runtime.runtimeProfiles
  { runtime with
    runtimeId := runtimeId
    displayName := trimOr (replaceChar '-' ' ' runtimeId) runtime.displayName
    runtimeKind := trimOr "managed_runtime" runtime.runtimeKind
    providerKey := trimOr "harbor" runtime.providerKey
    status := status
    capabilities :=
      if capabilities = [] then runtimeCapabilitiesForId env runtimeId else capabilities
    runtimeProfiles :=
      if runtimeProfiles = [] then runtimeProfilesForId env runtimeId else runtimeProfiles
    bindUrl := runtime.bindUrl.bind nonEmptyOpt
    healthzUrl := runtime.healthzUrl.bind nonEmptyOpt
    modelStorePath := trimOr (modelRuntimeStorePath modelStoreRoot runtimeId)
      runtime.modelStorePath
    message := trimOr (defaultModelRuntimeMessage env runtimeId status) runtime.message
    installedAt := runtime.installedAt.bind nonEmptyOpt
    updatedAt := runtime.updatedAt.bind nonEmptyOpt
    metadata := normalizeJsonObject runtime.metadata }

def markCandle (runtime : ModelRuntimeRecord) : ModelRuntimeRecord :=
  if runtime.runtimeId = "harbor-candle" then
    { runtime with
      enabled := true
      status := if runtime.status = "not_installed" then "idle" else runtime.status
      metadata := candleMetadata runtime.metadata }
  else runtime

theorem sanitizeModelRuntime_eq (modelStoreRoot : String) (runtime : ModelRuntimeRecord) :
    sanitizeModelRuntime env modelStoreRoot runtime =
      if trim runtime.runtimeId = "" then .error "runtime_id 不能为空"
      else .ok (markCandle (trimmedRuntime env modelStoreRoot runtime)) :=
  rfl

theorem trimmedRuntime_trimmed {modelStoreRoot : String} (hroot : Trimmed modelStoreRoot)
    {runtime : ModelRuntimeRecord} (hid : trim runtime.runtimeId ≠ "") :
    TrimmedRuntime env (trimmedRuntime env modelStoreRoot runtime) := by
  have hruntimes : Trimmed "runtimes" := by decide
  have hkind : Trimmed "managed_runtime" := by decide
  have hprovider : Trimmed "harbor" := by decide
  have hstatus : Trimmed "not_installed" := by decide
  rw [trimmedRuntime]
  constructor <;> dsimp only
  · exact trimmed_trim hid
  · exact trimmed_trimOr hkind _
  · exact trimmed_trimOr hprovider _
  · exact trimmed_trimOr hstatus _
  · exact settled_list (runtimeCapabilitiesForId_settled _)
  · exact fallback_eq_nil
  · exact settled_list (runtimeProfilesForId_settled _)
  · exact fallback_eq_nil
  · exact bind_nonEmptyOpt_idem _
  · exact bind_nonEmptyOpt_idem _
  · exact trimmed_trimOr
      (trimmed_joinPath (trimmed_joinPath hroot hruntimes) (trimmed_trim hid)) _
  · exact trimmed_trimOr (trimmed_defaultModelRuntimeMessage _ (trimmed_trimOr hstatus _)) _
  · exact bind_nonEmptyOpt_idem _
  · exact bind_nonEmptyOpt_idem _
  · exact isObject_normalizeJsonObject _

theorem TrimmedRuntime.markCandle {runtime : ModelRuntimeRecord}
    (h : TrimmedRuntime env runtime) : CleanRuntime env (markCandle runtime) := by
  have hidle : Trimmed "idle" := by decide
  have hstatus : Trimmed (if runtime.status = "not_installed" then "idle" else runtime.status) ∧
      (if runtime.status = "not_installed" then "idle" else runtime.status) ≠ "not_installed" := by
    by_cases hinstalled : runtime.status = "not_installed"
    · rw [if_pos hinstalled]
      exact ⟨hidle, by decide⟩
    · rw [if_neg hinstalled]
      exact ⟨h.status, hinstalled⟩
  by_cases hcandle : runtime.runtimeId = "harbor-candle"
  · rw [ModelSettings.markCandle, if_pos hcandle]
    exact
      { h with
        status := hstatus.1
        metadata := isObject_candleMetadata h.metadata
        candle := fun _ => ⟨rfl, hstatus.2, candleMetadata_idem h.metadata⟩ }
  · rw [ModelSettings.markCandle, if_neg hcandle]
    exact { h with candle := fun hid => absurd hid hcandle }

theorem CleanRuntime.sanitize {runtime : ModelRuntimeRecord} (h : CleanRuntime env runtime)
    (modelStoreRoot : String) :
    sanitizeModelRuntime env modelStoreRoot runtime =
      .ok { runtime with
        displayName := trimOr (replaceChar '-' ' ' runtime.runtimeId) runtime.displayName } := by
  have hlist : ∀ {values fallback : List String}, (values = [] → fallback = []) →
      (if values = [] then fallback else values) = values := by
    intro values fallback hnone
    split
    · rename_i hnil
      rw [hnone hnil, hnil]
    · rfl
  have htrimmed : trimmedRuntime env modelStoreRoot runtime = { runtime with
      displayName := trimOr (replaceChar '-' ' ' runtime.runtimeId) runtime.displayName } := by
    rw [trimmedRuntime]
    simp only [h.runtimeId.1, trimOr_of_trimmed h.runtimeKind, trimOr_of_trimmed h.providerKey,
      trimOr_of_trimmed h.status, h.capabilities, h.runtimeProfiles, hlist h.noCapabilities,
      hlist h.noRuntimeProfiles, h.bindUrl, h.healthzUrl, trimOr_of_trimmed h.modelStorePath,
      trimOr_of_trimmed h.message, h.installedAt, h.updatedAt,
      normalizeJsonObject_of_isObject h.metadata]
  rw [sanitizeModelRuntime_eq, h.runtimeId.1, if_neg h.runtimeId.2, htrimmed]
  refine congrArg Except.ok ?_
  rw [ModelSettings.markCandle]
  split
  · rename_i hcandle
    obtain ⟨henabled, hstatus, hmetadata⟩ := h.candle hcandle
    simp only [hstatus, if_false, hmetadata, ← henabled]
  · rfl

def NameSettles (runtime : ModelRuntimeRecord) : Prop :=
  isBlank runtime.displayName = true →
    let name := replaceChar '-' ' ' (trim runtime.runtimeId)
    trim name = name ∨ trim name = ""

instance instDecidableNameSettles (runtime : ModelRuntimeRecord) :
    Decidable (NameSettles runtime) :=
  inferInstanceAs (Decidable (_ = true → _ ∨ _))

def cleanRuntime (env : CenterEnvironment) (modelStoreRoot : String)
    (runtime : ModelRuntimeRecord) : Option ModelRuntimeRecord :=
  (sanitizeModelRuntime env modelStoreRoot runtime).toOption

variable {modelStoreRoot : String} {runtime cleaned : ModelRuntimeRecord}

theorem cleanRuntime_eq_some_iff :
    cleanRuntime env modelStoreRoot runtime = some cleaned ↔
      trim runtime.runtimeId ≠ "" ∧
        markCandle (trimmedRuntime env modelStoreRoot runtime) = cleaned := by
  rw [cleanRuntime, sanitizeModelRuntime_eq]
  by_cases hid : trim runtime.runtimeId = ""
  · simp [hid, Except.toOption]
  · simp [hid, Except.toOption]

theorem runtimeId_markCandle (runtime : ModelRuntimeRecord) :
    (markCandle runtime).runtimeId = runtime.runtimeId := by
  rw [markCandle]
  split <;> rfl

theorem displayName_markCandle (runtime : ModelRuntimeRecord) :
    (markCandle runtime).displayName = runtime.displayName := by
  rw [markCandle]
  split <;> rfl

theorem runtimeId_of_cleanRuntime (h : cleanRuntime env modelStoreRoot runtime = some cleaned) :
    cleaned.runtimeId = trim runtime.runtimeId := by
  rw [← (cleanRuntime_eq_some_iff.mp h).2, runtimeId_markCandle]
  rfl

theorem cleanRuntime_again (hroot : Trimmed modelStoreRoot)
    (h : cleanRuntime env modelStoreRoot runtime = some cleaned) :
    cleanRuntime env modelStoreRoot cleaned = some { cleaned with
      displayName := trimOr (replaceChar '-' ' ' cleaned.runtimeId) cleaned.displayName } := by
  obtain ⟨hid, rfl⟩ := cleanRuntime_eq_some_iff.mp h
  rw [cleanRuntime, (trimmedRuntime_trimmed hroot hid).markCandle.sanitize modelStoreRoot]
  rfl

theorem cleanRuntime_settled_iff (hroot : Trimmed modelStoreRoot)
    (h : cleanRuntime env modelStoreRoot runtime = some cleaned) :
    cleanRuntime env modelStoreRoot cleaned = some cleaned ↔ NameSettles runtime := by
  have hname : cleaned.displayName =
      trimOr (replaceChar '-' ' ' (trim runtime.runtimeId)) runtime.displayName := by
    rw [← (cleanRuntime_eq_some_iff.mp h).2, displayName_markCandle]
    rfl
  have hsame : ∀ name, ({ cleaned with displayName := name } : ModelRuntimeRecord) = cleaned ↔
      name = cleaned.displayName :=
    fun name => ⟨congrArg ModelRuntimeRecord.displayName, fun heq => by rw [heq]⟩
  rw [cleanRuntime_again hroot h, Option.some.injEq, hsame, runtimeId_of_cleanRuntime h, hname,
    trimOr_again_iff]
  rfl

theorem keepsPlace_cleanRuntime (hroot : Trimmed modelStoreRoot) :
    KeepsPlace (cleanRuntime env modelStoreRoot) ModelRuntimeRecord.runtimeId
      ModelRuntimeRecord.runtimeId :=
  fun _ _ h => ⟨_, cleanRuntime_again hroot h, rfl, rfl⟩

theorem cleanRuntime_default (hroot : Trimmed modelStoreRoot)
    (h : runtime ∈ defaultModelRuntimesForStoreRoot env modelStoreRoot) :
    ∃ cleaned, cleanRuntime env modelStoreRoot runtime = some cleaned ∧
      cleaned.runtimeId = runtime.runtimeId ∧
      cleanRuntime env modelStoreRoot cleaned = some cleaned := by
  have htexts : Trimmed runtime.runtimeId ∧ isBlank runtime.displayName = false := by
    revert runtime
    simp only [defaultModelRuntimesForStoreRoot, reservedRuntime, List.forall_mem_cons]
    refine ⟨?_, ?_, ?_, ?_, by simp⟩ <;> decide
  have hid : trim runtime.runtimeId ≠ "" := by
    rw [htexts.1.1]
    exact htexts.1.2
  have hcleaned : cleanRuntime env modelStoreRoot runtime =
      some (markCandle (trimmedRuntime env modelStoreRoot runtime)) :=
    cleanRuntime_eq_some_iff.mpr ⟨hid, rfl⟩
  refine ⟨_, hcleaned, ?_, ?_⟩
  · rw [runtimeId_of_cleanRuntime hcleaned, htexts.1.1]
  · rw [cleanRuntime_settled_iff hroot hcleaned]
    intro hblank
    rw [htexts.2] at hblank
    exact absurd hblank (by decide)

end Runtimes

section Bindings

variable {binding cleaned : ModelCapabilityBindingRecord}

theorem sanitizeCapabilityBinding_again {now : Nat}
    (h : sanitizeCapabilityBinding now binding = some cleaned) (later : Nat) :
    sanitizeCapabilityBinding later cleaned = some cleaned := by
  obtain ⟨capabilityId, hcapability, h⟩ := Option.bind_eq_some_iff.mp h
  obtain ⟨desiredModelId, hdesired, h⟩ := Option.bind_eq_some_iff.mp h
  have hready : Trimmed "ready" := by decide
  rw [← Option.some.inj h, sanitizeCapabilityBinding]
  simp only [nonEmptyOpt_of_trimmed (trimmed_of_nonEmptyOpt hcapability),
    nonEmptyOpt_of_trimmed (trimmed_of_nonEmptyOpt hdesired), bind_nonEmptyOpt_idem,
    trimOr_trimOr hready, trimOr_trimOr (trimmed_toString now), Option.bind_eq_bind,
    Option.bind_some, Option.pure_def]

def cleanBindings (now : Nat) (bindings : List ModelCapabilityBindingRecord) :
    List ModelCapabilityBindingRecord :=
  sortOn ModelCapabilityBindingRecord.capabilityId
    (keepFirst ModelCapabilityBindingRecord.capabilityId []
      (bindings.filterMap (sanitizeCapabilityBinding now)))

theorem cleanBindings_again (now later : Nat) (bindings : List ModelCapabilityBindingRecord) :
    cleanBindings later (cleanBindings now bindings) = cleanBindings now bindings := by
  have hkept : (cleanBindings now bindings).filterMap (sanitizeCapabilityBinding later) =
      cleanBindings now bindings := by
    rw [filterMap_eq_self_iff]
    intro binding hbinding
    have hmem := keepFirst_sublist.subset (mem_sortOn.mp hbinding)
    obtain ⟨old, -, hold⟩ := List.mem_filterMap.mp hmem
    exact sanitizeCapabilityBinding_again hold later
  have hids : ((cleanBindings now bindings).map
      ModelCapabilityBindingRecord.capabilityId).Nodup :=
    ((sortOn_perm _).map _).nodup_iff.mpr nodup_keepFirst
  rw [cleanBindings, hkept, keepFirst_eq_self hids fun _ _ => List.not_mem_nil]
  exact sortOn_of_sorted (sorted_sortOn _)

end Bindings

end HarborBeacon.ModelSettings
