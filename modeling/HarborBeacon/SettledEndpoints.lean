import HarborBeacon.SettledRecords

/-!
Model endpoints that were normalised once. They stay as they are from then on, but for one case:
where the configured address of the local model service is itself a retired one, the second
normalisation takes it for the address that was migrated.
-/

namespace HarborBeacon.ModelSettings

open AdminConsole FilledTables Json Json.Value ModelCenter ModelRouting Text TrimmedTexts

/-- Tags as the normalisation leaves them. -/
def CleanTags (tags : List String) : Prop :=
  CleanTexts tags ∧ tags.Pairwise (· < ·)

instance instDecidableCleanTags (tags : List String) : Decidable (CleanTags tags) :=
  inferInstanceAs (Decidable ((∀ text ∈ tags, Trimmed text) ∧ tags.Pairwise (· < ·)))

theorem pairwise_sortedSet (items : List String) : (sortedSet items).Pairwise (· < ·) := by
  have hsorted : (sortedSet items).Pairwise (· ≤ ·) := List.pairwise_insertionSort _ _
  have hnodup : (sortedSet items).Nodup :=
    (List.perm_insertionSort _ _).nodup_iff.mpr items.nodup_dedup
  exact (hsorted.and hnodup).imp fun hpair => lt_of_le_of_ne hpair.1 hpair.2

theorem sortedSet_of_sorted {items : List String} (h : items.Pairwise (· < ·)) :
    sortedSet items = items := by
  have hnodup : items.Nodup := h.imp fun hlt => ne_of_lt hlt
  rw [sortedSet, hnodup.dedup]
  exact (h.imp fun hlt => le_of_lt hlt).insertionSort_eq

theorem cleanTags_sortedSet {items : List String} (h : CleanTexts items) :
    CleanTags (sortedSet items) :=
  ⟨fun text htext => h text (mem_sortedSet.mp htext), pairwise_sortedSet items⟩

variable {tags : List String}

theorem cleanTags_ensure (h : CleanTags tags) {tag : String} (htag : Trimmed tag) :
    CleanTags (ensureModelEndpointTag tags tag) := by
  rw [ensureModelEndpointTag]
  split
  · exact h
  · apply cleanTags_sortedSet
    intro text htext
    rcases List.mem_append.mp htext with hold | hnew
    · exact h.1 text hold
    · rwa [List.mem_singleton.mp hnew]

theorem mem_ensure {tag text : String} :
    text ∈ ensureModelEndpointTag tags tag ↔ text ∈ tags ∨ text = tag := by
  rw [ensureModelEndpointTag]
  split
  · rename_i hmem
    exact ⟨Or.inl, fun h => h.elim (fun hold => hold) fun heq => heq ▸ hmem⟩
  · rw [mem_sortedSet, List.mem_append, List.mem_singleton]

theorem cleanTags_routerTags (h : CleanTags tags) :
    CleanTags (routerTags tags) :=
  cleanTags_ensure (cleanTags_ensure (cleanTags_ensure h (by decide)) (by decide)) (by decide)

theorem routerTags_idem (tags : List String) : routerTags (routerTags tags) = routerTags tags := by
  have hmem : ∀ tag ∈ ["assistant_input_parser", "k3_nsp", "semantic_router"],
      tag ∈ routerTags tags := by
    intro tag htag
    simp only [routerTags, List.foldl_cons, List.foldl_nil, mem_ensure]
    simp only [List.mem_cons, List.not_mem_nil, or_false] at htag
    tauto
  have hsame : ∀ tag ∈ ["assistant_input_parser", "k3_nsp", "semantic_router"],
      ensureModelEndpointTag (routerTags tags) tag = routerTags tags :=
    fun tag htag => if_pos (hmem tag htag)
  simp only [List.forall_mem_cons] at hsame
  obtain ⟨hparser, hnsp, hrouter, -⟩ := hsame
  rw [routerTags, List.foldl_cons, hparser, List.foldl_cons, hnsp, List.foldl_cons, hrouter,
    List.foldl_nil]

section Metadata

variable {updates fields : Fields} {key : String} {text : String}

theorem trimmed_of_metadataString {metadata : Value} (h : metadataString metadata key = some text) :
    Trimmed text := by
  rw [metadataString, Option.filter_eq_some_iff, Option.map_eq_some_iff] at h
  obtain ⟨⟨raw, -, rfl⟩, hne⟩ := h
  exact trimmed_trim (of_decide_eq_true hne)

theorem metadataString_of_settled (htext : Trimmed text) (h : Settled key (string text) fields) :
    metadataString (.object fields) key = some text := by
  rw [metadataString, Value.get, h.lookupField]
  show Option.filter _ (some (trim text)) = _
  rw [htext.1, Option.filter_some_pos]
  exact decide_eq_true htext.2

theorem metadataString_patch (hkey : key ∉ updates.map Prod.fst) :
    metadataString (.object (patch updates fields)) key = metadataString (.object fields) key := by
  rw [metadataString, metadataString, Value.get, Value.get, lookupField_patch_of_not_mem hkey]

theorem metadataBool_patch (hkey : key ∉ updates.map Prod.fst) :
    metadataBool (.object (patch updates fields)) key = metadataBool (.object fields) key := by
  rw [metadataBool, metadataBool, Value.get, Value.get, lookupField_patch_of_not_mem hkey]

end Metadata

section Updates

def accessKeys : List String :=
  ["api_key", "api_key_configured", "api_key_required", "semantic_router", "local_only",
    "cloud_fallback_allowed"]

def addressKeys : List (String × String) :=
  [("base_url", "legacy_model_api_migrated_from_base_url"),
   ("healthz_url", "legacy_model_api_migrated_from_healthz_url")]

def migrationKeys : List String :=
  ["base_url", "healthz_url", "legacy_model_api_migrated", "legacy_model_api_migrated_reason",
    "legacy_model_api_migrated_from_base_url", "legacy_model_api_migrated_from_healthz_url"]

def alignKeys : List String :=
  ["catalog_model_id", "model", "runtime_model_id", "runtime_embedding_model"]

theorem nodup_updateKeys : (accessKeys ++ migrationKeys ++ alignKeys).Nodup := by decide

variable {default endpoint : StoredEndpoint} {aligned : StoredEndpoint}

theorem accessKeys_sublist :
    ((accessUpdates default endpoint).map Prod.fst).Sublist accessKeys := by
  rw [accessUpdates]
  split
  · exact List.Sublist.refl _
  · exact List.sublist_append_left ["api_key", "api_key_configured", "api_key_required"] _

/-- One of the addresses is a retired one. -/
def Migrates (endpoint : StoredEndpoint) : Prop :=
  ∃ keys ∈ addressKeys, (legacyAddress endpoint.metadata keys.1).isSome

theorem migrates_iff : Migrates endpoint ↔
    ((legacyAddress endpoint.metadata "base_url").isNone &&
      (legacyAddress endpoint.metadata "healthz_url").isNone) = false := by
  have heither : Migrates endpoint ↔ (legacyAddress endpoint.metadata "base_url").isSome = true ∨
      (legacyAddress endpoint.metadata "healthz_url").isSome = true := by
    simp [Migrates, addressKeys]
  rw [heither]
  cases legacyAddress endpoint.metadata "base_url" <;>
    cases legacyAddress endpoint.metadata "healthz_url" <;> simp

theorem migrationUpdates_of_not (h : ¬ Migrates endpoint) :
    migrationUpdates default endpoint = [] := by
  rw [migrates_iff, Bool.not_eq_false] at h
  exact if_pos h

def migrationMarks : Fields :=
  [("legacy_model_api_migrated", .bool true),
   ("legacy_model_api_migrated_reason",
    string "4176 standalone model API is not part of the release inference path")]

theorem migrationUpdates_of_migrates (h : Migrates endpoint) :
    migrationUpdates default endpoint =
      (((metadataString default.metadata "base_url").map fun value =>
          ("base_url", string value)).toList ++
        ((metadataString default.metadata "healthz_url").map fun value =>
          ("healthz_url", string value)).toList) ++ migrationMarks ++
        ((legacyAddress endpoint.metadata "base_url").map fun value =>
          ("legacy_model_api_migrated_from_base_url", string value)).toList ++
        ((legacyAddress endpoint.metadata "healthz_url").map fun value =>
          ("legacy_model_api_migrated_from_healthz_url", string value)).toList := by
  rw [migrates_iff] at h
  rw [migrationUpdates, if_neg (by simp [h])]
  refine congrArg (· ++ _ ++ _ ++ _) ?_
  cases hbase : metadataString default.metadata "base_url" <;>
    cases hhealthz : metadataString default.metadata "healthz_url" <;>
      simp [hbase, hhealthz]

theorem migrationKeys_sublist :
    ((migrationUpdates default endpoint).map Prod.fst).Sublist migrationKeys := by
  by_cases h : Migrates endpoint
  · rw [migrationUpdates_of_migrates h]
    have hone : ∀ (key : String) (value : Option String),
        ((value.map fun text => (key, string text)).toList.map Prod.fst).Sublist [key] := by
      intro key value
      cases value with
      | none => exact List.nil_sublist _
      | some text => exact List.Sublist.refl _
    simp only [List.map_append]
    exact ((((hone _ _).append (hone _ _)).append (List.Sublist.refl _)).append (hone _ _)).append
      (hone _ _)
  · rw [migrationUpdates_of_not h]
    exact List.nil_sublist _

theorem mem_migrationUpdates (h : Migrates endpoint) {update : String × Value} :
    update ∈ migrationUpdates default endpoint ↔
      (∃ keys ∈ addressKeys, ∃ value, metadataString default.metadata keys.1 = some value ∧
          (keys.1, string value) = update) ∨
        update ∈ migrationMarks ∨
        ∃ keys ∈ addressKeys, ∃ value, legacyAddress endpoint.metadata keys.1 = some value ∧
          (keys.2, string value) = update := by
  rw [migrationUpdates_of_migrates h]
  simp only [addressKeys, List.mem_append, Option.mem_toList, Option.map_eq_some_iff,
    List.exists_mem_cons_iff, List.not_mem_nil, false_and, exists_false, or_false, or_assoc]

def alignedUpdates (endpoint : StoredEndpoint) : Fields :=
  ((servedModel endpoint).map fun served => alignUpdates served.2).getD []

theorem alignKeys_sublist : ((alignedUpdates endpoint).map Prod.fst).Sublist alignKeys := by
  rw [alignedUpdates]
  cases servedModel endpoint with
  | none => exact List.nil_sublist _
  | some served => exact List.Sublist.refl _

def allUpdates (default endpoint aligned : StoredEndpoint) : Fields :=
  accessUpdates default endpoint ++ migrationUpdates default endpoint ++ alignedUpdates aligned

theorem allKeys_sublist :
    ((allUpdates default endpoint aligned).map Prod.fst).Sublist
      (accessKeys ++ migrationKeys ++ alignKeys) := by
  rw [allUpdates, List.map_append, List.map_append]
  exact (accessKeys_sublist.append migrationKeys_sublist).append alignKeys_sublist

theorem nodup_allUpdates :
    ((allUpdates default endpoint aligned).map Prod.fst).Nodup :=
  allKeys_sublist.nodup nodup_updateKeys

end Updates

section Cleaned

structure CleanEndpoint (endpoint : StoredEndpoint) : Prop where
  modelEndpointId : Trimmed endpoint.modelEndpointId
  workspaceId : endpoint.workspaceId.bind nonEmptyOpt = endpoint.workspaceId
  providerAccountId : endpoint.providerAccountId.bind nonEmptyOpt = endpoint.providerAccountId
  providerKey : Trimmed endpoint.providerKey
  modelName : Trimmed endpoint.modelName
  capabilityTags : CleanTags endpoint.capabilityTags
  costPolicy : IsObject endpoint.costPolicy
  metadata : IsObject endpoint.metadata

variable {env : CenterEnvironment} {endpoint : StoredEndpoint}

theorem CleanEndpoint.trimmed (h : CleanEndpoint endpoint) :
    trimmedEndpoint endpoint = endpoint := by
  rw [trimmedEndpoint]
  simp only [trimOr_of_trimmed h.modelEndpointId, h.workspaceId, h.providerAccountId,
    trimOr_of_trimmed h.providerKey, trimOr_of_trimmed h.modelName,
    trim_of_cleanTexts h.capabilityTags.1, sortedSet_of_sorted h.capabilityTags.2,
    normalizeJsonObject_of_isObject h.costPolicy, normalizeJsonObject_of_isObject h.metadata]

theorem isSlugChar_of_mem_kind {kind : ModelKind} {c : Char} (h : c ∈ kind.asStr.toList) :
    isSlugChar c = true := by
  have hall : ∀ kind : ModelKind, ∀ c ∈ kind.asStr.toList, isSlugChar c = true := by
    rintro ⟨⟩ <;> exact forall_mem_of_all (by decide +kernel)
  exact hall kind c h

theorem isWhitespace_of_mem_generated {c : Char}
    (h : c ∈ (generatedEndpointId endpoint).toList) : isWhitespace c = false := by
  rw [generatedEndpointId, String.toList_ofList] at h
  have hmem := (List.dropWhile_sublist _).subset ((List.rdropWhile_prefix _ _).subset h)
  simp only [String.toList_append, List.mem_append] at hmem
  have hdash : ∀ c ∈ "-".toList, isSlugChar c = true :=
    forall_mem_of_all (by decide +kernel)
  apply isWhitespace_of_isSlugChar
  rcases hmem with (((hkind | hfirst) | hprovider) | hsecond) | hname
  · exact isSlugChar_of_mem_kind hkind
  · exact hdash c hfirst
  · exact isSlugChar_of_mem hprovider
  · exact hdash c hsecond
  · exact isSlugChar_of_mem hname

theorem cleanEndpoint_trimmedEndpoint (hid : (trimmedEndpoint endpoint).modelEndpointId ≠ "") :
    CleanEndpoint (trimmedEndpoint endpoint) := by
  have hcustom : Trimmed "custom" := by decide
  have hidTrimmed : Trimmed (trimOr (generatedEndpointId endpoint) endpoint.modelEndpointId) := by
    have hne : trimOr (generatedEndpointId endpoint) endpoint.modelEndpointId ≠ "" := hid
    rw [trimOr] at hne ⊢
    cases h : nonEmptyOpt endpoint.modelEndpointId with
    | some id => exact trimmed_of_nonEmptyOpt h
    | none =>
        rw [h, Option.getD_none] at hne
        exact trimmed_of_no_whitespace hne fun c hc => isWhitespace_of_mem_generated hc
  rw [trimmedEndpoint]
  constructor <;> dsimp only
  · exact hidTrimmed
  · exact bind_nonEmptyOpt_idem _
  · exact bind_nonEmptyOpt_idem _
  · exact trimmed_trimOr hcustom _
  · exact trimmed_trimOr (trimmed_trimOr hcustom _) _
  · exact cleanTags_sortedSet (cleanTexts_trim _)
  · exact isObject_normalizeJsonObject _
  · exact isObject_normalizeJsonObject _

end Cleaned

section Builtin

variable {env : CenterEnvironment} {default endpoint other : StoredEndpoint} {fields : Fields}

theorem not_mem_accessKeys {key : String} (h : key ∉ accessKeys) :
    key ∉ (accessUpdates default endpoint).map Prod.fst :=
  fun hmem => h (accessKeys_sublist.subset hmem)

theorem migrationUpdates_congr (h : ∀ keys ∈ addressKeys,
    legacyAddress endpoint.metadata keys.1 = legacyAddress other.metadata keys.1) :
    migrationUpdates default endpoint = migrationUpdates default other := by
  simp only [addressKeys, List.forall_mem_cons] at h
  rw [migrationUpdates, migrationUpdates, h.1, h.2.1]

theorem normalizeBuiltin_eq (hmetadata : endpoint.metadata = .object fields)
    (hdefault : builtinLocalDefault env endpoint = some default) :
    normalizeBuiltinLocalModelApiEndpoint env endpoint =
      { endpoint with
        capabilityTags :=
          if endpoint.modelEndpointId = "llm-local-openai-compatible" then
            routerTags endpoint.capabilityTags
          else endpoint.capabilityTags
        metadata := .object (patch
          (accessUpdates default endpoint ++ migrationUpdates default endpoint) fields) } := by
  have hread : ∀ keys ∈ addressKeys,
      legacyAddress (.object (patch (accessUpdates default endpoint) fields)) keys.1 =
        legacyAddress endpoint.metadata keys.1 := by
    intro keys hkeys
    have hother : keys.1 ∉ accessKeys := by
      revert keys
      decide
    rw [legacyAddress, legacyAddress, metadataString_patch (not_mem_accessKeys hother), hmetadata]
  rw [normalizeBuiltinLocalModelApiEndpoint, hdefault]
  simp only [hmetadata, setFields, patch_append]
  rw [migrationUpdates_congr (fun keys hkeys => hread keys hkeys)]

theorem builtinLocalDefault_congr (hid : endpoint.modelEndpointId = other.modelEndpointId)
    (hbuiltin : metadataBool endpoint.metadata "builtin" = metadataBool other.metadata "builtin") :
    builtinLocalDefault env endpoint = builtinLocalDefault env other := by
  rw [builtinLocalDefault, builtinLocalDefault, hid, hbuiltin]

theorem CleanEndpoint.normalizeBuiltin (h : CleanEndpoint endpoint) :
    CleanEndpoint (normalizeBuiltinLocalModelApiEndpoint env endpoint) := by
  obtain ⟨fields, hmetadata⟩ := h.metadata
  cases hdefault : builtinLocalDefault env endpoint with
  | none => rwa [normalizeBuiltinLocalModelApiEndpoint, hdefault]
  | some default =>
      rw [normalizeBuiltin_eq hmetadata hdefault]
      refine { h with capabilityTags := ?_, metadata := ⟨_, rfl⟩ }
      dsimp only
      split
      · exact cleanTags_routerTags h.capabilityTags
      · exact h.capabilityTags

end Builtin

section Aligned

variable {endpoint : StoredEndpoint} {fields : Fields}

theorem servedModel_eq_some_iff {providerKey runtimeModelId : String} :
    servedModel endpoint = some (providerKey, runtimeModelId) ↔
      (endpoint.modelEndpointId = "embed-local-openai-compatible" ∧
        endpoint.modelKind = .embedder ∧
        metadataBool endpoint.metadata "runtime_ready" = true) ∧
      metadataString endpoint.metadata "runtime_model_id" = some runtimeModelId ∧
      metadataString endpoint.metadata "runtime_embedding_model" = some runtimeModelId ∧
      metadataString endpoint.metadata "model" = some runtimeModelId ∧
      embeddingProviderKey runtimeModelId = some providerKey := by
  rw [servedModel]
  by_cases hready : endpoint.modelEndpointId ≠ "embed-local-openai-compatible" ∨
      endpoint.modelKind ≠ .embedder ∨ metadataBool endpoint.metadata "runtime_ready" = false
  · rw [if_pos hready]
    constructor
    · exact fun h => absurd h (by simp)
    · rintro ⟨⟨hid, hkind, hflag⟩, -⟩
      rw [hflag] at hready
      exact absurd hready (by simp [hid, hkind])
  · rw [if_neg hready]
    simp only [not_or, not_not, Bool.not_eq_false] at hready
    constructor
    · intro h
      obtain ⟨first, hfirst, h⟩ := Option.bind_eq_some_iff.mp h
      obtain ⟨second, hsecond, h⟩ := Option.bind_eq_some_iff.mp h
      obtain ⟨third, hthird, h⟩ := Option.bind_eq_some_iff.mp h
      split at h
      · exact absurd h (by simp)
      · rename_i hsame
        rw [not_or, not_not, not_not] at hsame
        obtain ⟨hsecondSame, hthirdSame⟩ := hsame
        obtain ⟨key, hkey, heq⟩ := Option.map_eq_some_iff.mp h
        obtain ⟨rfl, rfl⟩ := Prod.mk.inj heq
        subst hsecondSame
        subst hthirdSame
        exact ⟨hready, hfirst, hsecond, hthird, hkey⟩
    · rintro ⟨-, hfirst, hsecond, hthird, hkey⟩
      simp only [hfirst, hsecond, hthird, hkey, Option.bind_eq_bind, Option.bind_some, ne_eq,
        not_true_eq_false, or_self, if_false, Option.map_some]

theorem align_eq (hmetadata : endpoint.metadata = .object fields) :
    alignEmbeddingEndpointIdentityWithRuntime endpoint =
      { endpoint with
        providerKey := ((servedModel endpoint).map Prod.fst).getD endpoint.providerKey
        modelName := ((servedModel endpoint).map Prod.snd).getD endpoint.modelName
        metadata := .object (patch (alignedUpdates endpoint) fields) } := by
  rw [alignEmbeddingEndpointIdentityWithRuntime, alignedUpdates]
  cases hserved : servedModel endpoint with
  | none =>
      simp only [Option.map_none, Option.getD_none]
      rw [patch, List.foldl_nil, ← hmetadata]
  | some served =>
      simp only [Option.map_some, Option.getD_some, hmetadata, setFields]

theorem CleanEndpoint.align (h : CleanEndpoint endpoint) :
    CleanEndpoint (alignEmbeddingEndpointIdentityWithRuntime endpoint) := by
  obtain ⟨fields, hmetadata⟩ := h.metadata
  rw [align_eq hmetadata]
  cases hserved : servedModel endpoint with
  | none => exact { h with metadata := ⟨_, rfl⟩ }
  | some served =>
      obtain ⟨-, hfirst, -, -, hkey⟩ := servedModel_eq_some_iff.mp hserved
      have hprovider : Trimmed served.1 := by
        rw [embeddingProviderKey] at hkey
        split_ifs at hkey <;> rw [← Option.some.inj hkey] <;> decide
      exact
        { h with
          providerKey := hprovider
          modelName := trimmed_of_metadataString hfirst
          metadata := ⟨_, rfl⟩ }

theorem align_align (hmetadata : endpoint.metadata = .object fields) :
    alignEmbeddingEndpointIdentityWithRuntime
        (alignEmbeddingEndpointIdentityWithRuntime endpoint) =
      alignEmbeddingEndpointIdentityWithRuntime endpoint := by
  cases hserved : servedModel endpoint with
  | none =>
      have hsame : alignEmbeddingEndpointIdentityWithRuntime endpoint = endpoint := by
        rw [alignEmbeddingEndpointIdentityWithRuntime, hserved]
      rw [hsame, hsame]
  | some served =>
      obtain ⟨providerKey, runtimeModelId⟩ := served
      obtain ⟨⟨hid, hkind, hready⟩, hfirst, hsecond, hthird, hkey⟩ :=
        servedModel_eq_some_iff.mp hserved
      have htrimmed := trimmed_of_metadataString hfirst
      have hnodup : ((alignUpdates runtimeModelId).map Prod.fst).Nodup := by
        show ["catalog_model_id", "model", "runtime_model_id", "runtime_embedding_model"].Nodup
        decide
      have hsettled : ∀ update ∈ alignUpdates runtimeModelId,
          Settled update.1 update.2 (patch (alignUpdates runtimeModelId) fields) :=
        fun update hupdate => settled_patch hnodup hupdate
      have hread : ∀ key ∈ alignKeys,
          metadataString (.object (patch (alignUpdates runtimeModelId) fields)) key =
            some runtimeModelId := by
        intro key hmem
        have hupdate : (key, string runtimeModelId) ∈ alignUpdates runtimeModelId :=
          List.mem_map_of_mem (f := fun key => (key, string runtimeModelId)) hmem
        exact metadataString_of_settled htrimmed (hsettled _ hupdate)
      have haligned : alignEmbeddingEndpointIdentityWithRuntime endpoint =
          { endpoint with
            providerKey := providerKey
            modelName := runtimeModelId
            metadata := .object (patch (alignUpdates runtimeModelId) fields) } := by
        rw [alignEmbeddingEndpointIdentityWithRuntime, hserved, hmetadata]
        rfl
      have hagain : servedModel (alignEmbeddingEndpointIdentityWithRuntime endpoint) =
          some (providerKey, runtimeModelId) := by
        rw [servedModel_eq_some_iff, haligned]
        refine ⟨⟨hid, hkind, ?_⟩, ?_, ?_, ?_, hkey⟩
        · rw [metadataBool_patch, ← hmetadata, hready]
          show _ ∉ ["catalog_model_id", "model", "runtime_model_id", "runtime_embedding_model"]
          decide
        · exact hread _ (by decide)
        · exact hread _ (by decide)
        · exact hread _ (by decide)
      rw [alignEmbeddingEndpointIdentityWithRuntime, hagain]
      simp only [haligned, setFields, patch_eq_self hsettled]

end Aligned

section Settled

variable {env : CenterEnvironment} {default endpoint : StoredEndpoint} {fields : Fields}
  {keys : String × String} {aligned : StoredEndpoint}

def finished (env : CenterEnvironment) (endpoint : StoredEndpoint) : StoredEndpoint :=
  alignEmbeddingEndpointIdentityWithRuntime (normalizeBuiltinLocalModelApiEndpoint env endpoint)

theorem metadata_finished (hmetadata : endpoint.metadata = .object fields)
    (hdefault : builtinLocalDefault env endpoint = some default) :
    (finished env endpoint).metadata = .object (patch (allUpdates default endpoint
      (normalizeBuiltinLocalModelApiEndpoint env endpoint)) fields) := by
  have hnormal : (normalizeBuiltinLocalModelApiEndpoint env endpoint).metadata = .object (patch
      (accessUpdates default endpoint ++ migrationUpdates default endpoint) fields) := by
    rw [normalizeBuiltin_eq hmetadata hdefault]
  rw [finished, align_eq hnormal]
  exact congrArg Value.object (patch_append _ _ _).symm

theorem endpointOrderKey_finished :
    (finished env endpoint).modelEndpointId = endpoint.modelEndpointId ∧
      endpointOrderKey (finished env endpoint) = endpointOrderKey endpoint := by
  rw [finished, alignEmbeddingEndpointIdentityWithRuntime, normalizeBuiltinLocalModelApiEndpoint]
  split <;> split <;> exact ⟨rfl, rfl⟩

theorem CleanEndpoint.finished (h : CleanEndpoint endpoint) :
    CleanEndpoint (finished env endpoint) :=
  h.normalizeBuiltin.align

theorem not_mem_allKeys {key : String} (h : key ∉ accessKeys ++ migrationKeys ++ alignKeys) :
    key ∉ (allUpdates default endpoint aligned).map Prod.fst :=
  fun hmem => h (allKeys_sublist.subset hmem)

theorem builtinLocalDefault_finished (hmetadata : endpoint.metadata = .object fields)
    (hdefault : builtinLocalDefault env endpoint = some default) :
    builtinLocalDefault env (finished env endpoint) = some default := by
  rw [← hdefault]
  apply builtinLocalDefault_congr endpointOrderKey_finished.1
  rw [metadata_finished hmetadata hdefault, hmetadata]
  exact metadataBool_patch (not_mem_allKeys (by decide))

def SourceSettles (default endpoint : StoredEndpoint) (keys : String × String) : Prop :=
  ∀ address, legacyAddress default.metadata keys.1 = some address →
    match legacyAddress endpoint.metadata keys.1 with
    | some value => value = address
    | none => setFields [(keys.2, string address)] endpoint.metadata = endpoint.metadata

/-- An endpoint with a retired address takes the configured ones. Where those are retired as
well, they are noted as the ones that were migrated. -/
def AddressesSettle (env : CenterEnvironment) (endpoint : StoredEndpoint) : Prop :=
  ∀ default, builtinLocalDefault env endpoint = some default → Migrates endpoint →
    ∀ keys ∈ addressKeys, SourceSettles default endpoint keys

def markKeys : List String :=
  ["legacy_model_api_migrated", "legacy_model_api_migrated_reason"]

/-- A key that only the migration writes is one of its address keys. -/
theorem address_of_mem {key : String} (haccess : key ∉ accessKeys) (halign : key ∉ alignKeys)
    (hmarks : key ∉ markKeys) (h : key ∈ (allUpdates default endpoint aligned).map Prod.fst) :
    Migrates endpoint ∧ ∃ keys ∈ addressKeys,
      keys.1 = key ∧ (metadataString default.metadata keys.1).isSome ∨
        keys.2 = key ∧ (legacyAddress endpoint.metadata keys.1).isSome := by
  rw [allUpdates, List.map_append, List.map_append, List.mem_append, List.mem_append] at h
  rcases h with (h | h) | h
  · exact absurd (accessKeys_sublist.subset h) haccess
  · by_cases hmigrates : Migrates endpoint
    · obtain ⟨update, hupdate, rfl⟩ := List.mem_map.mp h
      refine ⟨hmigrates, ?_⟩
      rcases (mem_migrationUpdates hmigrates).mp hupdate with
        ⟨keys, hkeys, value, hvalue, rfl⟩ | hmark | ⟨keys, hkeys, value, hvalue, rfl⟩
      · exact ⟨keys, hkeys, Or.inl ⟨rfl, Option.isSome_of_mem hvalue⟩⟩
      · exact absurd (List.mem_map_of_mem (f := Prod.fst) hmark) hmarks
      · exact ⟨keys, hkeys, Or.inr ⟨rfl, Option.isSome_of_mem hvalue⟩⟩
    · rw [migrationUpdates_of_not hmigrates] at h
      exact absurd h List.not_mem_nil
  · exact absurd (alignKeys_sublist.subset h) halign

theorem migrates_of_address_mem (hkeys : keys ∈ addressKeys)
    (h : keys.1 ∈ (allUpdates default endpoint aligned).map Prod.fst) :
    Migrates endpoint ∧ (metadataString default.metadata keys.1).isSome := by
  have hothers : ∀ keys ∈ addressKeys, keys.1 ∉ accessKeys ∧ keys.1 ∉ alignKeys ∧
      keys.1 ∉ markKeys ∧ ∀ other ∈ addressKeys, other.2 ≠ keys.1 := by decide
  obtain ⟨haccess, halign, hmarks, hsources⟩ := hothers keys hkeys
  obtain ⟨hmigrates, other, hother, ⟨hsame, hsome⟩ | ⟨hsame, -⟩⟩ :=
    address_of_mem haccess halign hmarks h
  · exact ⟨hmigrates, hsame ▸ hsome⟩
  · exact absurd hsame (hsources other hother)

theorem isSome_of_source_mem (hkeys : keys ∈ addressKeys)
    (h : keys.2 ∈ (allUpdates default endpoint aligned).map Prod.fst) :
    (legacyAddress endpoint.metadata keys.1).isSome := by
  have hothers : ∀ keys ∈ addressKeys, keys.2 ∉ accessKeys ∧ keys.2 ∉ alignKeys ∧
      keys.2 ∉ markKeys ∧ ∀ other ∈ addressKeys, other.1 ≠ keys.2 ∧
        (other.2 = keys.2 → other = keys) := by decide
  obtain ⟨haccess, halign, hmarks, hsources⟩ := hothers keys hkeys
  obtain ⟨-, other, hother, ⟨hsame, -⟩ | ⟨hsame, hsome⟩⟩ :=
    address_of_mem haccess halign hmarks h
  · exact absurd hsame (hsources other hother).1
  · exact (hsources other hother).2 hsame ▸ hsome

theorem mem_allUpdates_of_migration {update : String × Value}
    (h : update ∈ migrationUpdates default endpoint) :
    update ∈ allUpdates default endpoint aligned :=
  List.mem_append_left _ (List.mem_append_right _ h)

section Finished

variable (hmetadata : endpoint.metadata = .object fields)
  (hdefault : builtinLocalDefault env endpoint = some default)
include hmetadata hdefault

theorem metadataString_finished (hmigrates : Migrates endpoint) (hkeys : keys ∈ addressKeys) :
    metadataString (finished env endpoint).metadata keys.1 =
      (metadataString default.metadata keys.1).or (metadataString endpoint.metadata keys.1) := by
  rw [metadata_finished hmetadata hdefault]
  cases hconfigured : metadataString default.metadata keys.1 with
  | some value =>
      have hupdate : (keys.1, string value) ∈ migrationUpdates default endpoint :=
        (mem_migrationUpdates hmigrates).mpr (Or.inl ⟨keys, hkeys, value, hconfigured, rfl⟩)
      rw [Option.some_or]
      exact metadataString_of_settled (trimmed_of_metadataString hconfigured)
        (settled_patch nodup_allUpdates (mem_allUpdates_of_migration hupdate))
  | none =>
      rw [Option.none_or, hmetadata]
      apply metadataString_patch
      intro hmem
      have hsome := (migrates_of_address_mem hkeys hmem).2
      rw [hconfigured] at hsome
      exact absurd hsome (by decide)

theorem legacyAddress_finished (hmigrates : Migrates endpoint) (hkeys : keys ∈ addressKeys) :
    legacyAddress (finished env endpoint).metadata keys.1 =
      if (metadataString default.metadata keys.1).isSome then
        legacyAddress default.metadata keys.1
      else legacyAddress endpoint.metadata keys.1 := by
  rw [legacyAddress, metadataString_finished hmetadata hdefault hmigrates hkeys]
  cases hconfigured : metadataString default.metadata keys.1 with
  | some value => rw [Option.some_or, Option.isSome_some, if_pos rfl, legacyAddress, hconfigured]
  | none => rw [Option.none_or, Option.isSome_none, if_neg (by decide), legacyAddress]

theorem source_settled_iff (hmigrates : Migrates endpoint) (hkeys : keys ∈ addressKeys) :
    (∀ value, legacyAddress (finished env endpoint).metadata keys.1 = some value →
        Settled keys.2 (string value) (patch (allUpdates default endpoint
          (normalizeBuiltinLocalModelApiEndpoint env endpoint)) fields)) ↔
      SourceSettles default endpoint keys := by
  have hnoted : ∀ value, legacyAddress endpoint.metadata keys.1 = some value →
      Settled keys.2 (string value) (patch (allUpdates default endpoint
        (normalizeBuiltinLocalModelApiEndpoint env endpoint)) fields) := by
    intro value hvalue
    have hupdate : (keys.2, string value) ∈ migrationUpdates default endpoint :=
      (mem_migrationUpdates hmigrates).mpr (Or.inr (Or.inr ⟨keys, hkeys, value, hvalue, rfl⟩))
    exact settled_patch nodup_allUpdates (mem_allUpdates_of_migration hupdate)
  rw [legacyAddress_finished hmetadata hdefault hmigrates hkeys]
  split
  · refine forall₂_congr fun address haddress => ?_
    cases hlegacy : legacyAddress endpoint.metadata keys.1 with
    | some value =>
        dsimp only
        constructor
        · intro hsettled
          have hsame := (hnoted value hlegacy).lookupField.symm.trans hsettled.lookupField
          exact Value.string.inj (Option.some.inj hsame)
        · rintro rfl
          exact hnoted _ hlegacy
    | none =>
        have hkey : keys.2 ∉ (allUpdates default endpoint
            (normalizeBuiltinLocalModelApiEndpoint env endpoint)).map Prod.fst := by
          intro hmem
          have hsome := isSome_of_source_mem hkeys hmem
          rw [hlegacy] at hsome
          exact absurd hsome (by decide)
        rw [settled_patch_iff hkey, hmetadata]
        exact (Value.object.injEq _ _ ▸ Iff.rfl)
  · rename_i hnone
    refine iff_of_true hnoted ?_
    intro address haddress
    rw [legacyAddress, Option.filter_eq_some_iff] at haddress
    exact absurd (Option.isSome_of_mem haddress.1) hnone

/-- What the second normalisation writes stands there already exactly if the addresses settle. -/
theorem migration_settled_iff :
    (∀ update ∈ migrationUpdates default (finished env endpoint),
        Settled update.1 update.2 (patch (allUpdates default endpoint
          (normalizeBuiltinLocalModelApiEndpoint env endpoint)) fields)) ↔
      AddressesSettle env endpoint := by
  by_cases hmigrates : Migrates endpoint
  · have hsettle : AddressesSettle env endpoint ↔
        ∀ keys ∈ addressKeys, SourceSettles default endpoint keys := by
      constructor
      · exact fun h => h default hdefault hmigrates
      · intro h other hother _
        rw [hdefault] at hother
        rwa [← Option.some.inj hother]
    rw [hsettle]
    constructor
    · intro h keys hkeys
      rw [← source_settled_iff hmetadata hdefault hmigrates hkeys]
      intro value hvalue
      have hagain : Migrates (finished env endpoint) := ⟨keys, hkeys, by rw [hvalue]; rfl⟩
      exact h (keys.2, string value) ((mem_migrationUpdates hagain).mpr
        (Or.inr (Or.inr ⟨keys, hkeys, value, hvalue, rfl⟩)))
    · intro h update hupdate
      by_cases hagain : Migrates (finished env endpoint)
      · rcases (mem_migrationUpdates hagain).mp hupdate with
          haddress | hmark | ⟨keys, hkeys, value, hvalue, rfl⟩
        · exact settled_patch nodup_allUpdates (mem_allUpdates_of_migration
            ((mem_migrationUpdates hmigrates).mpr (Or.inl haddress)))
        · exact settled_patch nodup_allUpdates (mem_allUpdates_of_migration
            ((mem_migrationUpdates hmigrates).mpr (Or.inr (Or.inl hmark))))
        · exact (source_settled_iff hmetadata hdefault hmigrates hkeys).mpr (h keys hkeys)
            value hvalue
      · rw [migrationUpdates_of_not hagain] at hupdate
        exact absurd hupdate List.not_mem_nil
  · have hagain : ¬ Migrates (finished env endpoint) := by
      rintro ⟨keys, hkeys, hsome⟩
      rw [legacyAddress, metadata_finished hmetadata hdefault, metadataString_patch fun hmem =>
        hmigrates (migrates_of_address_mem hkeys hmem).1, ← hmetadata] at hsome
      exact hmigrates ⟨keys, hkeys, hsome⟩
    rw [migrationUpdates_of_not hagain]
    exact iff_of_true (fun _ h => absurd h List.not_mem_nil)
      fun _ _ hmigrating => absurd hmigrating hmigrates

theorem capabilityTags_finished :
    (finished env endpoint).capabilityTags =
      if endpoint.modelEndpointId = "llm-local-openai-compatible" then
        routerTags endpoint.capabilityTags
      else endpoint.capabilityTags := by
  rw [finished, normalizeBuiltin_eq hmetadata hdefault, alignEmbeddingEndpointIdentityWithRuntime]
  split <;> rfl

end Finished

theorem normalizeBuiltin_finished_of_none (h : CleanEndpoint endpoint)
    (hdefault : builtinLocalDefault env endpoint = none) :
    normalizeBuiltinLocalModelApiEndpoint env (finished env endpoint) = finished env endpoint := by
  obtain ⟨fields, hmetadata⟩ := h.metadata
  have hsame : normalizeBuiltinLocalModelApiEndpoint env endpoint = endpoint := by
    rw [normalizeBuiltinLocalModelApiEndpoint, hdefault]
  have hother : builtinLocalDefault env (finished env endpoint) = none := by
    rw [← hdefault]
    apply builtinLocalDefault_congr endpointOrderKey_finished.1
    rw [finished, hsame, align_eq hmetadata, hmetadata]
    exact metadataBool_patch fun hmem => absurd (alignKeys_sublist.subset hmem) (by decide)
  rw [normalizeBuiltinLocalModelApiEndpoint, hother]

theorem normalizeBuiltin_finished_of_settled (hmetadata : endpoint.metadata = .object fields)
    (hdefault : builtinLocalDefault env endpoint = some default)
    (hsettled : ∀ update ∈ migrationUpdates default (finished env endpoint),
      Settled update.1 update.2 (patch (allUpdates default endpoint
        (normalizeBuiltinLocalModelApiEndpoint env endpoint)) fields)) :
    normalizeBuiltinLocalModelApiEndpoint env (finished env endpoint) = finished env endpoint := by
  have hfinished := metadata_finished hmetadata hdefault
  have haccess : accessUpdates default (finished env endpoint) =
      accessUpdates default endpoint := by
    rw [accessUpdates, accessUpdates, endpointOrderKey_finished.1]
  have hfields : ∀ update ∈ accessUpdates default (finished env endpoint) ++
        migrationUpdates default (finished env endpoint),
      Settled update.1 update.2 (patch (allUpdates default endpoint
        (normalizeBuiltinLocalModelApiEndpoint env endpoint)) fields) := by
    intro update hupdate
    rcases List.mem_append.mp hupdate with hmem | hmem
    · rw [haccess] at hmem
      exact settled_patch nodup_allUpdates (List.mem_append_left _ (List.mem_append_left _ hmem))
    · exact hsettled update hmem
  have htags : (if (finished env endpoint).modelEndpointId = "llm-local-openai-compatible"
      then routerTags (finished env endpoint).capabilityTags
      else (finished env endpoint).capabilityTags) = (finished env endpoint).capabilityTags := by
    rw [capabilityTags_finished hmetadata hdefault, endpointOrderKey_finished.1]
    split
    · exact routerTags_idem _
    · rfl
  rw [normalizeBuiltin_eq hfinished (builtinLocalDefault_finished hmetadata hdefault),
    patch_eq_self hfields, htags, ← hfinished]

theorem finished_finished_iff (h : CleanEndpoint endpoint) :
    finished env (finished env endpoint) = finished env endpoint ↔
      AddressesSettle env endpoint := by
  obtain ⟨fields, hmetadata⟩ := h.metadata
  have hclean : CleanEndpoint (normalizeBuiltinLocalModelApiEndpoint env endpoint) :=
    h.normalizeBuiltin
  obtain ⟨normalFields, hnormal⟩ := hclean.metadata
  have haligned : alignEmbeddingEndpointIdentityWithRuntime (finished env endpoint) =
      finished env endpoint := align_align hnormal
  cases hdefault : builtinLocalDefault env endpoint with
  | none =>
      rw [finished, normalizeBuiltin_finished_of_none h hdefault]
      refine iff_of_true haligned ?_
      intro default hsome
      rw [hdefault] at hsome
      exact absurd hsome (by simp)
  | some default =>
      have hfinished := metadata_finished hmetadata hdefault
      rw [← migration_settled_iff hmetadata hdefault]
      constructor
      · intro hfixed update hupdate
        have hpatched := metadata_finished hfinished
          (builtinLocalDefault_finished hmetadata hdefault)
        rw [hfixed, hfinished] at hpatched
        rw [Value.object.inj hpatched]
        exact settled_patch nodup_allUpdates (mem_allUpdates_of_migration hupdate)
      · intro hsettled
        rw [finished, normalizeBuiltin_finished_of_settled hmetadata hdefault hsettled]
        exact haligned

end Settled

section Stored

variable {env : CenterEnvironment} {endpoint cleaned : StoredEndpoint}

def cleanEndpoint (env : CenterEnvironment) (endpoint : StoredEndpoint) : Option StoredEndpoint :=
  (sanitizeModelEndpoint env endpoint).toOption

theorem modelEndpointId_trimmedEndpoint_ne :
    (trimmedEndpoint endpoint).modelEndpointId ≠ "" := by
  show trimOr (generatedEndpointId endpoint) endpoint.modelEndpointId ≠ ""
  rw [trimOr]
  cases h : nonEmptyOpt endpoint.modelEndpointId with
  | some id => exact (trimmed_of_nonEmptyOpt h).2
  | none =>
      obtain ⟨c, rest, hkind, hc⟩ : ∃ c rest,
          endpoint.modelKind.asStr.toList = c :: rest ∧ c ≠ '-' := by
        cases endpoint.modelKind <;> exact ⟨_, _, rfl, by decide⟩
      intro hempty
      have hnil := congrArg String.toList hempty
      rw [Option.getD_none, generatedEndpointId, String.toList_ofList, String.toList_append,
        String.toList_append, String.toList_append, String.toList_append, hkind] at hnil
      simp only [List.cons_append] at hnil
      rw [List.dropWhile_cons_of_neg (by simpa using hc)] at hnil
      obtain ⟨t, ht⟩ := rdropWhile_cons_of_neg (p := fun c => decide (c = '-')) c _
        (decide_eq_false hc)
      rw [ht] at hnil
      exact absurd hnil (List.cons_ne_nil _ _)

theorem cleanEndpoint_eq : cleanEndpoint env endpoint =
    some (finished env (trimmedEndpoint endpoint)) := by
  rw [cleanEndpoint, sanitizeModelEndpoint, if_neg modelEndpointId_trimmedEndpoint_ne]
  rfl

theorem cleanEndpoint_again (h : cleanEndpoint env endpoint = some cleaned) :
    cleanEndpoint env cleaned = some (finished env cleaned) := by
  rw [cleanEndpoint_eq] at h
  have hclean : CleanEndpoint cleaned := by
    rw [← Option.some.inj h]
    exact (cleanEndpoint_trimmedEndpoint modelEndpointId_trimmedEndpoint_ne).finished
  rw [cleanEndpoint_eq, hclean.trimmed]

theorem cleanEndpoint_settled_iff (h : cleanEndpoint env endpoint = some cleaned) :
    cleanEndpoint env cleaned = some cleaned ↔
      AddressesSettle env (trimmedEndpoint endpoint) := by
  rw [cleanEndpoint_again h, Option.some.injEq]
  rw [cleanEndpoint_eq] at h
  rw [← Option.some.inj h]
  exact finished_finished_iff (cleanEndpoint_trimmedEndpoint modelEndpointId_trimmedEndpoint_ne)

theorem keepsPlace_cleanEndpoint :
    KeepsPlace (cleanEndpoint env) (fun endpoint => endpoint.modelEndpointId)
      endpointOrderKey :=
  fun _ _ h => ⟨_, cleanEndpoint_again h, endpointOrderKey_finished⟩

end Stored

end HarborBeacon.ModelSettings
