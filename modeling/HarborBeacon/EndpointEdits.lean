import HarborBeacon.MemberRoster
import HarborBeacon.ModelCenterStability
import HarborBeacon.Results

/-!
Edits of model endpoints. A saved endpoint takes the place of the stored one, a patch writes single
fields of it; both put the secrets back that the request leaves out.
-/

namespace HarborBeacon.ModelSettings

open AdminConsole FilledTables FileProgram Json Json.Value ModelCenter ModelRouting OwnedTables
open Results Text TrimmedTexts

def optionalTrimmedString (value : Value) : Option String :=
  (asStr value).bind nonEmptyOpt

def stringValueOrEmpty (value : Value) : String :=
  (optionalTrimmedString value).getD ""

/-- `string_vec(Some(value)).unwrap_or_default()`. -/
def stringVec (value : Value) : List String :=
  ((((asArray value).getD []).filterMap asStr).map trim).filter (· ≠ "")

def objectFields : Value → Fields
  | .object fields => fields
  | _ => []

def mergeJsonObject (existing patch : Value) : Except String Value :=
  match patch with
  | .null => .ok (.object [])
  -- the keys of a map are different, so the order in which they are written does not matter
  | .object patchMap =>
      .ok (.object (patchMap.foldr (fun field merged => insertField field.1 field.2 merged)
        (objectFields existing)))
  | _ => .error "metadata patch 必须是 JSON object"

def secretMetadataKeys : List String :=
  ["api_key", "token", "secret", "password", "authorization", "bearer_token"]

def preserveSecret (existing : Value) (fields : Fields) (key : String) : Fields :=
  match metadataString existing key with
  | none => fields
  | some existingValue =>
      if (metadataString (.object fields) key).isNone then
        insertField (key ++ "_configured") (.bool true)
          (insertField key (string existingValue) fields)
      else fields

def preserveModelEndpointSecretMetadata (existing incoming : StoredEndpoint) : StoredEndpoint :=
  match existing.metadata with
  | .object _ =>
      { incoming with
        metadata := .object (secretMetadataKeys.foldl (preserveSecret existing.metadata)
          (objectFields incoming.metadata)) }
  | _ => incoming

/-- What `serde_json` reads as the kinds and the status of an endpoint. -/
structure EndpointDecoders where
  modelKind : Value → Except String ModelKind
  endpointKind : Value → Except String ModelEndpointKind
  status : Value → Except String ModelEndpointStatus

def patchField (patch : Value) (key : String)
    (change : Value → StoredEndpoint → Except String StoredEndpoint) (endpoint : StoredEndpoint) :
    Except String StoredEndpoint :=
  match patch.get key with
  | some value => change value endpoint
  | none => .ok endpoint

def patchEndpoint (decoders : EndpointDecoders) (patch : Value) (endpoint : StoredEndpoint) :
    Except String StoredEndpoint := do
  let endpoint ← patchField patch "workspace_id" (fun value endpoint =>
    .ok { endpoint with workspaceId := optionalTrimmedString value }) endpoint
  let endpoint ← patchField patch "provider_account_id" (fun value endpoint =>
    .ok { endpoint with providerAccountId := optionalTrimmedString value }) endpoint
  let endpoint ← patchField patch "model_kind" (fun value endpoint =>
    ((decoders.modelKind value).mapError ("invalid model_kind: " ++ ·)).map fun modelKind =>
      { endpoint with modelKind }) endpoint
  let endpoint ← patchField patch "endpoint_kind" (fun value endpoint =>
    ((decoders.endpointKind value).mapError ("invalid endpoint_kind: " ++ ·)).map
      fun endpointKind => { endpoint with endpointKind }) endpoint
  let endpoint ← patchField patch "provider_key" (fun value endpoint =>
    .ok { endpoint with providerKey := stringValueOrEmpty value }) endpoint
  let endpoint ← patchField patch "model_name" (fun value endpoint =>
    .ok { endpoint with modelName := stringValueOrEmpty value }) endpoint
  let endpoint ← patchField patch "capability_tags" (fun value endpoint =>
    .ok { endpoint with capabilityTags := stringVec value }) endpoint
  let endpoint ← patchField patch "cost_policy" (fun value endpoint =>
    .ok { endpoint with costPolicy := value }) endpoint
  let endpoint ← patchField patch "status" (fun value endpoint =>
    ((decoders.status value).mapError ("invalid status: " ++ ·)).map fun status =>
      { endpoint with status }) endpoint
  patchField patch "metadata" (fun value endpoint =>
    (mergeJsonObject endpoint.metadata value).map fun metadata =>
      { endpoint with metadata }) endpoint

section Programs

variable {ρ π : Type}

structure ModelSections (ρ : Type) where
  models : StoredModelCenter
  others : ρ

/-- The environment of the admin console, in which the model center is normalised with the
others and is left alone by the registry and by the platform. -/
def modelEnvironment (center : CenterEnvironment) (now : Nat)
    (outside : Environment (ModelSections ρ) π) : Environment (ModelSections ρ) π :=
  { outside with
    applyRtspHints := fun sections =>
      (outside.applyRtspHints sections).map fun hinted => { hinted with models := sections.models }
    sanitizeSections := fun sections =>
      { outside.sanitizeSections sections with
        models := sanitizeModelCenterState center now sections.models }
    hydrateLegacyViews := fun state =>
      let views := outside.hydrateLegacyViews state
      (views.1, { views.2 with models := state.sections.models }) }

def withEndpoints (state : AdminConsoleState (ModelSections ρ) π)
    (endpoints : List StoredEndpoint) : AdminConsoleState (ModelSections ρ) π :=
  { state with sections :=
      { state.sections with models := { state.sections.models with endpoints } } }

variable (env : Environment (ModelSections ρ) π) (center : CenterEnvironment)
  (decoders : EndpointDecoders)

def hasEndpointId (endpointId : String) (endpoint : StoredEndpoint) : Bool :=
  endpoint.modelEndpointId = endpointId

def putEndpoint (endpoint : StoredEndpoint) (endpoints : List StoredEndpoint) :
    List StoredEndpoint :=
  let same := hasEndpointId endpoint.modelEndpointId
  if (endpoints.find? same).isSome then
    updateFirst same (fun existing => preserveModelEndpointSecretMetadata existing endpoint)
      endpoints
  else endpoints ++ [endpoint]

def saveModelEndpoint (endpoint : StoredEndpoint) :
    Store (ModelSections ρ) π (AdminConsoleState (ModelSections ρ) π) := do
  let state ← loadOrCreateState env
  let endpoint ← sanitizeModelEndpoint center endpoint
  saveProjectedState env
    (withEndpoints state (putEndpoint endpoint state.sections.models.endpoints))

def patchModelEndpoint (endpointId : String) (patch : Value) :
    Store (ModelSections ρ) π (AdminConsoleState (ModelSections ρ) π) := do
  let endpointId := trim endpointId
  if endpointId = "" then
    throw "model endpoint id 不能为空"
  if !patch.isObject then
    throw "模型端点 patch 必须是 JSON object"
  let state ← loadOrCreateState env
  let endpoints := state.sections.models.endpoints
  let some existing := endpoints.find? (hasEndpointId endpointId)
    | throw ("未找到模型端点 " ++ endpointId)
  let patched ← patchEndpoint decoders patch existing
  let sanitized ← sanitizeModelEndpoint center
    (preserveModelEndpointSecretMetadata existing patched)
  saveProjectedState env (withEndpoints state
    (updateFirst (hasEndpointId endpointId) (fun _ => sanitized) endpoints))

end Programs

section PreservedSecrets

variable {existing : Value} {fields : Fields} {key k : String} {keys : List String}

theorem metadataString_congr {other : Fields} (h : lookupField key fields = lookupField key other) :
    metadataString (.object fields) key = metadataString (.object other) key := by
  rw [metadataString, metadataString, Value.get, Value.get, h]

theorem lookupField_preserveSecret_of_ne (hkey : key ≠ k) (hmark : key ≠ k ++ "_configured") :
    lookupField key (preserveSecret existing fields k) = lookupField key fields := by
  rw [preserveSecret]
  split
  · rfl
  · split
    · rw [lookupField_insertField, if_neg hmark.symm, lookupField_insertField, if_neg hkey.symm]
    · rfl

theorem lookupField_foldl_preserveSecret_of_ne
    (h : ∀ k ∈ keys, key ≠ k ∧ key ≠ k ++ "_configured") :
    lookupField key (keys.foldl (preserveSecret existing) fields) = lookupField key fields := by
  induction keys generalizing fields with
  | nil => rfl
  | cons k rest ih =>
      rw [List.forall_mem_cons] at h
      rw [List.foldl_cons, ih h.2, lookupField_preserveSecret_of_ne h.1.1 h.1.2]

theorem secretMetadataKeys_apart : secretMetadataKeys.Nodup ∧
    ∀ key ∈ secretMetadataKeys, ∀ k ∈ secretMetadataKeys, key ≠ k ++ "_configured" := by
  decide

theorem lookupField_preserved (hkey : key ∈ secretMetadataKeys) :
    lookupField key (secretMetadataKeys.foldl (preserveSecret existing) fields) =
      match metadataString existing key with
      | none => lookupField key fields
      | some text =>
          if (metadataString (.object fields) key).isNone then some (string text)
          else lookupField key fields := by
  obtain ⟨hnodup, hmarks⟩ := secretMetadataKeys_apart
  obtain ⟨before, after, hsplit⟩ := List.append_of_mem hkey
  have hother : ∀ k ∈ before ++ after, key ≠ k ∧ key ≠ k ++ "_configured" := by
    intro k hk
    have hmem : k ∈ secretMetadataKeys := by
      rw [hsplit]
      rcases List.mem_append.mp hk with h | h
      · exact List.mem_append_left _ h
      · exact List.mem_append_right _ (List.mem_cons_of_mem _ h)
    refine ⟨?_, hmarks key hkey k hmem⟩
    rintro rfl
    rw [hsplit] at hnodup
    exact (List.nodup_cons.mp (List.nodup_middle.mp hnodup)).1 hk
  have hbefore : lookupField key (before.foldl (preserveSecret existing) fields) =
      lookupField key fields :=
    lookupField_foldl_preserveSecret_of_ne fun k hk => hother k (List.mem_append_left _ hk)
  rw [hsplit, List.foldl_append, List.foldl_cons, lookupField_foldl_preserveSecret_of_ne
    fun k hk => hother k (List.mem_append_right _ hk), preserveSecret]
  cases hexisting : metadataString existing key with
  | none => exact hbefore
  | some text =>
      dsimp only
      rw [metadataString_congr hbefore]
      split
      · have hmark : key ≠ key ++ "_configured" := hmarks key hkey key hkey
        rw [lookupField_insertField, if_neg hmark.symm, lookupField_insertField, if_pos rfl]
      · exact hbefore

theorem lookupField_builtin_preserved :
    lookupField "builtin" (secretMetadataKeys.foldl (preserveSecret existing) fields) =
      lookupField "builtin" fields :=
  lookupField_foldl_preserveSecret_of_ne (by decide)

end PreservedSecrets

/-- The request says nothing about a field, or clears it. -/
def LeftBlank (payload : Value) (key : String) : Prop :=
  payload.get key = none ∨ payload.get key = some .null ∨
    ∃ text, payload.get key = some (string text) ∧ trim text = ""

/-- The secrets that the request leaves blank stay, up to white space around them, and the others
are the requested ones. -/
structure SecretsKept (previous payload after : Value) : Prop where
  kept : ∀ key ∈ secretMetadataKeys, LeftBlank payload key →
    ∀ text, metadataString previous key = some text → metadataString after key = some text
  taken : ∀ key ∈ secretMetadataKeys, ∀ text, payload.get key = some (string text) →
    trim text ≠ "" → after.get key = some (string text)

theorem metadataString_eq_none_of_leftBlank {payload : Value} {key : String}
    (h : LeftBlank payload key) : metadataString payload key = none := by
  rw [metadataString]
  rcases h with h | h | ⟨text, h, htext⟩
  · rw [h]
    rfl
  · rw [h]
    rfl
  · rw [h, Option.bind_some, asStr, Option.map_some, htext]
    rfl

theorem metadataString_of_string {metadata : Value} {key text : String}
    (h : metadata.get key = some (string text)) (htext : trim text ≠ "") :
    metadataString metadata key = some (trim text) := by
  rw [metadataString, h, Option.bind_some, asStr, Option.map_some, Option.filter_some_pos]
  exact decide_eq_true htext

theorem SecretsKept.congr {previous payload after other : Value}
    (h : SecretsKept previous payload after)
    (hsame : ∀ key ∈ secretMetadataKeys, other.get key = after.get key) :
    SecretsKept previous payload other := by
  refine ⟨?_, ?_⟩
  · intro key hkey hblank text htext
    rw [metadataString, hsame key hkey]
    exact h.kept key hkey hblank text htext
  · intro key hkey text hpayload htext
    rw [hsame key hkey]
    exact h.taken key hkey text hpayload htext

theorem secretsKept_preserved {previous payload : Value} {fields : Fields}
    (hblank : ∀ key ∈ secretMetadataKeys, LeftBlank payload key → ∀ text,
      metadataString previous key = some text → metadataString (.object fields) key = none ∨
        metadataString (.object fields) key = some text)
    (htaken : ∀ key ∈ secretMetadataKeys, ∀ text, payload.get key = some (string text) →
      trim text ≠ "" → lookupField key fields = some (string text)) :
    SecretsKept previous payload
      (.object (secretMetadataKeys.foldl (preserveSecret previous) fields)) := by
  refine ⟨?_, ?_⟩
  · intro key hkey hleft text htext
    rw [metadataString, Value.get, lookupField_preserved hkey, htext]
    dsimp only
    rcases hblank key hkey hleft text htext with hnone | hsame
    · rw [hnone, Option.isNone_none, if_pos rfl]
      have htrimmed := trimmed_of_metadataString htext
      rw [Option.bind_some, asStr, Option.map_some, htrimmed.1, Option.filter_some_pos]
      exact decide_eq_true htrimmed.2
    · rw [hsame, Option.isNone_some, if_neg Bool.false_ne_true]
      exact hsame
  · intro key hkey text hpayload htext
    have hfield := htaken key hkey text hpayload htext
    have hread : metadataString (.object fields) key = some (trim text) :=
      metadataString_of_string hfield htext
    rw [Value.get, lookupField_preserved hkey, hread, hfield]
    cases metadataString previous key with
    | none => rfl
    | some existing => rfl

section Edited

variable {center : CenterEnvironment} {before after : List StoredEndpoint} {endpointId : String}
  {payload : Value}

def previousMetadata (before : List StoredEndpoint) (endpointId : String) : Value :=
  ((before.find? (hasEndpointId endpointId)).map fun existing => existing.metadata).getD .null

/-- What an edit leaves: the edited endpoint has its secrets, and every other one comes out of
the normalisation alone. -/
structure EditKept (center : CenterEnvironment) (before : List StoredEndpoint)
    (endpointId : String) (payload : Value) (after : List StoredEndpoint) : Prop where
  ids : (after.map fun endpoint => endpoint.modelEndpointId).Nodup
  edited : ∃ edited ∈ after, edited.modelEndpointId = endpointId ∧
    builtinLocalDefault center edited = none ∧
    SecretsKept (previousMetadata before endpointId) payload edited.metadata
  others : ∀ other ∈ before, other.modelEndpointId ≠ endpointId →
    ∃ kept ∈ after, kept.modelEndpointId = other.modelEndpointId ∧
      Relation.ReflTransGen (fun old new => sanitizeModelEndpoint center old = .ok new) other kept

theorem sanitizeModelEndpoint_eq (endpoint : StoredEndpoint) :
    sanitizeModelEndpoint center endpoint = .ok (finished center (trimmedEndpoint endpoint)) := by
  have hclean : cleanEndpoint center endpoint = some (finished center (trimmedEndpoint endpoint)) :=
    cleanEndpoint_eq
  rw [cleanEndpoint] at hclean
  cases hsanitized : sanitizeModelEndpoint center endpoint with
  | error message =>
      rw [hsanitized] at hclean
      cases hclean
  | ok sanitized =>
      rw [hsanitized] at hclean
      exact congrArg Except.ok (Option.some.inj hclean)

theorem sanitize_clean {endpoint : StoredEndpoint} (h : CleanEndpoint endpoint) :
    sanitizeModelEndpoint center endpoint = .ok (finished center endpoint) := by
  rw [sanitizeModelEndpoint_eq, h.trimmed]

theorem get_finished_of_not_builtin {endpoint : StoredEndpoint} (h : CleanEndpoint endpoint)
    (hbuiltin : builtinLocalDefault center endpoint = none) {key : String} (hkey : key ∉ alignKeys) :
    (finished center endpoint).metadata.get key = endpoint.metadata.get key := by
  obtain ⟨fields, hmetadata⟩ := h.metadata
  rw [finished, normalizeBuiltinLocalModelApiEndpoint, hbuiltin, align_eq hmetadata, hmetadata]
  exact lookupField_patch_of_not_mem fun hmem => hkey (alignKeys_sublist.subset hmem)

theorem builtinLocalDefault_finished_of_none {endpoint : StoredEndpoint}
    (h : CleanEndpoint endpoint) (hbuiltin : builtinLocalDefault center endpoint = none) :
    builtinLocalDefault center (finished center endpoint) = none := by
  rw [← hbuiltin]
  apply builtinLocalDefault_congr endpointOrderKey_finished.1
  rw [metadataBool, metadataBool, get_finished_of_not_builtin h hbuiltin (by decide)]

theorem nodup_fill {α ι : Type} [DecidableEq ι] {clean : α → Option α} {id : α → ι}
    {defaults stored : List α}
    (hclean : ∀ row ∈ stored ++ defaults, ∃ cleaned, clean row = some cleaned ∧ id cleaned = id row)
    (hstored : (stored.map id).Nodup) (hdefaults : (defaults.map id).Nodup) :
    ((fill clean id defaults stored).map id).Nodup := by
  have hids : (stored.filterMap clean).map id = stored.map id :=
    map_filterMap_of_keepsPlace fun row hrow => hclean row (List.mem_append_left _ hrow)
  have hfilled : ((defaults.filter fun row => id row ∉ (stored.filterMap clean).map id).filterMap
      clean).map id = (defaults.filter fun row => id row ∉ (stored.filterMap clean).map id).map id :=
    map_filterMap_of_keepsPlace fun row hrow =>
      hclean row (List.mem_append_right _ (List.mem_filter.mp hrow).1)
  rw [fill, List.map_append, hfilled, List.nodup_append]
  refine ⟨hids ▸ hstored, hdefaults.sublist (List.filter_sublist.map id), ?_⟩
  rintro value hkept other hother rfl
  obtain ⟨row, hrow, rfl⟩ := List.mem_map.mp hother
  exact of_decide_eq_true (List.mem_filter.mp hrow).2 hkept

theorem clean_of_mem_sanitize {state : StoredModelCenter} {now : Nat} :
    ∀ endpoint ∈ (sanitizeModelCenterState center now state).endpoints,
      CleanEndpoint endpoint := by
  intro endpoint hmem
  have hcleaned : ∀ {old}, cleanEndpoint center old = some endpoint → CleanEndpoint endpoint := by
    intro old hold
    rw [cleanEndpoint_eq] at hold
    rw [← Option.some.inj hold]
    exact (cleanEndpoint_trimmedEndpoint modelEndpointId_trimmedEndpoint_ne).finished
  rw [endpoints_sanitize] at hmem
  rcases exists_of_mem_fill (mem_sortOn.mp hmem) with ⟨old, -, hold⟩ | ⟨old, -, hold⟩
  · exact hcleaned hold
  · exact hcleaned hold

theorem nodup_ids_sanitize (hclean : ∀ endpoint ∈ after, CleanEndpoint endpoint)
    (hids : (after.map fun endpoint => endpoint.modelEndpointId).Nodup)
    {state : StoredModelCenter} (hafter : state.endpoints = after) (now : Nat) :
    ((sanitizeModelCenterState center now state).endpoints.map
      fun endpoint => endpoint.modelEndpointId).Nodup := by
  rw [endpoints_sanitize, hafter, normal]
  refine ((sortOn_perm _).map _).nodup_iff.mpr (nodup_fill ?_ hids unique_defaultModelEndpoints)
  intro endpoint hmem
  have hendpoint : CleanEndpoint endpoint := by
    rcases List.mem_append.mp hmem with hmem | hmem
    · exact hclean endpoint hmem
    · exact cleanEndpoint_default hmem
  refine ⟨finished center endpoint, ?_, endpointOrderKey_finished.1⟩
  rw [cleanEndpoint_eq, hendpoint.trimmed]

theorem EditKept.sanitize (h : EditKept center before endpointId payload after)
    (hclean : ∀ endpoint ∈ after, CleanEndpoint endpoint) {state : StoredModelCenter}
    (hafter : state.endpoints = after) (now : Nat) :
    EditKept center before endpointId payload
      (sanitizeModelCenterState center now state).endpoints := by
  have hkept : ∀ endpoint ∈ after, finished center endpoint ∈
      (sanitizeModelCenterState center now state).endpoints := by
    intro endpoint hmem
    rw [endpoints_sanitize, hafter]
    refine mem_sortOn.mpr (mem_fill_of_stored hmem ?_)
    rw [cleanEndpoint_eq, (hclean endpoint hmem).trimmed]
  refine ⟨nodup_ids_sanitize hclean h.ids hafter now, ?_, ?_⟩
  · obtain ⟨edited, hmem, hid, hbuiltin, hsecrets⟩ := h.edited
    have hedited := hclean edited hmem
    refine ⟨_, hkept edited hmem, endpointOrderKey_finished.1.trans hid,
      builtinLocalDefault_finished_of_none hedited hbuiltin, hsecrets.congr ?_⟩
    have hapart : ∀ key ∈ secretMetadataKeys, key ∉ alignKeys := by decide
    exact fun key hkey => get_finished_of_not_builtin hedited hbuiltin (hapart key hkey)
  · intro other hother hne
    obtain ⟨kept, hmem, hid, hsteps⟩ := h.others other hother hne
    exact ⟨_, hkept kept hmem, endpointOrderKey_finished.1.trans hid,
      hsteps.tail (sanitize_clean (hclean kept hmem))⟩

end Edited

section Lists

variable {center : CenterEnvironment} {before : List StoredEndpoint} {endpointId : String}
  {payload : Value} {existing new : StoredEndpoint}

theorem updateFirst_of_find? {α : Type} {p : α → Bool} {items : List α} {item : α} (f : α → α)
    (h : items.find? p = some item) : ∃ front back, items = front ++ item :: back ∧
      p item = true ∧ updateFirst p f items = front ++ f item :: back := by
  induction items with
  | nil => cases h
  | cons first rest ih =>
      rw [updateFirst]
      by_cases hp : p first = true
      · rw [List.find?_cons_of_pos hp] at h
        obtain rfl := Option.some.inj h
        exact ⟨[], rest, rfl, hp, by rw [if_pos hp, List.nil_append]⟩
      · rw [List.find?_cons_of_neg hp] at h
        obtain ⟨front, back, rfl, hitem, hupdated⟩ := ih h
        exact ⟨first :: front, back, rfl, hitem, by rw [if_neg hp, hupdated, List.cons_append]⟩

theorem editKept_updateFirst (hids : (before.map fun endpoint => endpoint.modelEndpointId).Nodup)
    (hfind : before.find? (hasEndpointId endpointId) = some existing)
    {f : StoredEndpoint → StoredEndpoint} (hf : f existing = new)
    (hid : new.modelEndpointId = endpointId) (hbuiltin : builtinLocalDefault center new = none)
    (hsecrets : SecretsKept existing.metadata payload new.metadata) :
    EditKept center before endpointId payload
      (updateFirst (hasEndpointId endpointId) f before) := by
  have hprevious : previousMetadata before endpointId = existing.metadata := by
    rw [previousMetadata, hfind, Option.map_some, Option.getD_some]
  obtain ⟨front, back, rfl, hexisting, hupdated⟩ := updateFirst_of_find? f hfind
  have hsame : existing.modelEndpointId = endpointId := of_decide_eq_true hexisting
  rw [hupdated, hf]
  refine ⟨?_, ⟨new, by simp, hid, hbuiltin, hprevious ▸ hsecrets⟩, ?_⟩
  · rw [List.map_append, List.map_cons] at hids ⊢
    rw [hid, ← hsame]
    exact hids
  · intro other hother hne
    refine ⟨other, ?_, rfl, Relation.ReflTransGen.refl⟩
    rcases List.mem_append.mp hother with hfront | hback
    · exact List.mem_append_left _ hfront
    · rcases List.mem_cons.mp hback with rfl | hback
      · exact absurd hsame hne
      · exact List.mem_append_right _ (List.mem_cons_of_mem _ hback)

theorem editKept_append (hids : (before.map fun endpoint => endpoint.modelEndpointId).Nodup)
    (hnone : before.find? (hasEndpointId endpointId) = none)
    (hid : new.modelEndpointId = endpointId) (hbuiltin : builtinLocalDefault center new = none)
    (hsecrets : SecretsKept .null payload new.metadata) :
    EditKept center before endpointId payload (before ++ [new]) := by
  have hprevious : previousMetadata before endpointId = .null := by
    rw [previousMetadata, hnone, Option.map_none, Option.getD_none]
  refine ⟨?_, ⟨new, by simp, hid, hbuiltin, hprevious ▸ hsecrets⟩, ?_⟩
  · rw [List.map_append, List.map_singleton, hid]
    refine List.Nodup.append hids (List.nodup_singleton _) ?_
    rw [List.disjoint_singleton]
    intro hmem
    obtain ⟨endpoint, hendpoint, hsame⟩ := List.mem_map.mp hmem
    exact List.find?_eq_none.mp hnone endpoint hendpoint (decide_eq_true hsame)
  · exact fun other hother _ =>
      ⟨other, List.mem_append_left _ hother, rfl, Relation.ReflTransGen.refl⟩

end Lists

section Saves

variable {center : CenterEnvironment} {endpoint existing : StoredEndpoint}

theorem get_objectFields (value : Value) (key : String) :
    lookupField key (objectFields value) = value.get key := by
  cases value <;> rfl

theorem get_normalizeJsonObject (value : Value) (key : String) :
    (normalizeJsonObject value).get key = value.get key := by
  cases value <;> rfl

theorem preserve_eq (h : CleanEndpoint existing) (incoming : StoredEndpoint) :
    preserveModelEndpointSecretMetadata existing incoming =
      { incoming with
        metadata := .object (secretMetadataKeys.foldl (preserveSecret existing.metadata)
          (objectFields incoming.metadata)) } := by
  obtain ⟨fields, hmetadata⟩ := h.metadata
  rw [preserveModelEndpointSecretMetadata, hmetadata]

theorem CleanEndpoint.withMetadata (h : CleanEndpoint endpoint) (fields : Fields) :
    CleanEndpoint { endpoint with metadata := .object fields } :=
  ⟨h.modelEndpointId, h.workspaceId, h.providerAccountId, h.providerKey, h.modelName,
    h.capabilityTags, h.costPolicy, fields, rfl⟩

theorem metadataBool_preserve (h : CleanEndpoint existing) (incoming : StoredEndpoint) :
    metadataBool (preserveModelEndpointSecretMetadata existing incoming).metadata "builtin" =
      metadataBool incoming.metadata "builtin" := by
  rw [preserve_eq h, metadataBool, metadataBool, Value.get, lookupField_builtin_preserved,
    get_objectFields]

theorem modelEndpointId_preserve (incoming : StoredEndpoint) :
    (preserveModelEndpointSecretMetadata existing incoming).modelEndpointId =
      incoming.modelEndpointId := by
  rw [preserveModelEndpointSecretMetadata]
  split <;> rfl

theorem get_sanitized (hbuiltin : builtinLocalDefault center (trimmedEndpoint endpoint) = none)
    {key : String} (hkey : key ∈ secretMetadataKeys) :
    (finished center (trimmedEndpoint endpoint)).metadata.get key = endpoint.metadata.get key := by
  have hapart : ∀ key ∈ secretMetadataKeys, key ∉ alignKeys := by decide
  rw [get_finished_of_not_builtin
    (cleanEndpoint_trimmedEndpoint modelEndpointId_trimmedEndpoint_ne) hbuiltin (hapart key hkey)]
  exact get_normalizeJsonObject _ _

theorem metadataString_sanitized
    (hbuiltin : builtinLocalDefault center (trimmedEndpoint endpoint) = none)
    {key : String} (hkey : key ∈ secretMetadataKeys) :
    metadataString (finished center (trimmedEndpoint endpoint)).metadata key =
      metadataString endpoint.metadata key := by
  rw [metadataString, metadataString, get_sanitized hbuiltin hkey]

theorem secretsKept_save (hexisting : CleanEndpoint existing)
    (hbuiltin : builtinLocalDefault center (trimmedEndpoint endpoint) = none) :
    SecretsKept existing.metadata endpoint.metadata
      (preserveModelEndpointSecretMetadata existing
        (finished center (trimmedEndpoint endpoint))).metadata := by
  rw [preserve_eq hexisting]
  apply secretsKept_preserved
  · intro key hkey hblank text _
    left
    rw [metadataString, Value.get, get_objectFields, ← metadataString,
      metadataString_sanitized hbuiltin hkey]
    exact metadataString_eq_none_of_leftBlank hblank
  · intro key hkey text hpayload _
    rw [get_objectFields, get_sanitized hbuiltin hkey, hpayload]

theorem secretsKept_new (hbuiltin : builtinLocalDefault center (trimmedEndpoint endpoint) = none) :
    SecretsKept .null endpoint.metadata (finished center (trimmedEndpoint endpoint)).metadata := by
  refine ⟨?_, ?_⟩
  · intro key _ _ text htext
    cases htext
  · intro key hkey text hpayload _
    rw [get_sanitized hbuiltin hkey, hpayload]

end Saves

section PatchedFields

variable {decoders : EndpointDecoders} {patch : Value}
  {endpoint existing patched : StoredEndpoint}

def KeepsMetadata (change : Value → StoredEndpoint → Except String StoredEndpoint) : Prop :=
  ∀ value endpoint changed, change value endpoint = .ok changed →
    changed.modelEndpointId = endpoint.modelEndpointId ∧ changed.metadata = endpoint.metadata

theorem keepsMetadata_ok {change : Value → StoredEndpoint → StoredEndpoint}
    (h : ∀ value endpoint, (change value endpoint).modelEndpointId = endpoint.modelEndpointId ∧
      (change value endpoint).metadata = endpoint.metadata) :
    KeepsMetadata fun value endpoint => .ok (change value endpoint) := by
  intro value endpoint changed hchanged
  rw [← Except.ok.inj hchanged]
  exact h value endpoint

theorem keepsMetadata_decoded {α : Type} {decode : Value → Except String α} {prefixed : String}
    {change : StoredEndpoint → α → StoredEndpoint}
    (h : ∀ endpoint a, (change endpoint a).modelEndpointId = endpoint.modelEndpointId ∧
      (change endpoint a).metadata = endpoint.metadata) :
    KeepsMetadata fun value endpoint =>
      ((decode value).mapError (prefixed ++ ·)).map (change endpoint) := by
  intro value endpoint changed hchanged
  beta_reduce at hchanged
  cases hdecoded : decode value with
  | error message =>
      rw [hdecoded] at hchanged
      cases hchanged
  | ok a =>
      rw [hdecoded] at hchanged
      rw [← Except.ok.inj hchanged]
      exact h endpoint a

theorem patchField_keeps {key : String}
    {change : Value → StoredEndpoint → Except String StoredEndpoint}
    (h : patchField patch key change endpoint = .ok patched) (hchange : KeepsMetadata change) :
    patched.modelEndpointId = endpoint.modelEndpointId ∧ patched.metadata = endpoint.metadata := by
  rw [patchField] at h
  split at h
  · exact hchange _ _ _ h
  · rw [← Except.ok.inj h]
    exact ⟨rfl, rfl⟩

/-- What a patch makes of the id and the metadata. -/
theorem patchEndpoint_eq_ok (h : patchEndpoint decoders patch existing = .ok patched) :
    patched.modelEndpointId = existing.modelEndpointId ∧
      ((patch.get "metadata" = none ∧ patched.metadata = existing.metadata) ∨
        ∃ value, patch.get "metadata" = some value ∧
          mergeJsonObject existing.metadata value = .ok patched.metadata) := by
  obtain ⟨first, hfirst, h⟩ := bind_eq_ok h
  obtain ⟨second, hsecond, h⟩ := bind_eq_ok h
  obtain ⟨third, hthird, h⟩ := bind_eq_ok h
  obtain ⟨fourth, hfourth, h⟩ := bind_eq_ok h
  obtain ⟨fifth, hfifth, h⟩ := bind_eq_ok h
  obtain ⟨sixth, hsixth, h⟩ := bind_eq_ok h
  obtain ⟨seventh, hseventh, h⟩ := bind_eq_ok h
  obtain ⟨eighth, heighth, h⟩ := bind_eq_ok h
  obtain ⟨ninth, hninth, h⟩ := bind_eq_ok h
  have hsame : ninth.modelEndpointId = existing.modelEndpointId ∧
      ninth.metadata = existing.metadata := by
    have h₁ := patchField_keeps hfirst (keepsMetadata_ok fun _ _ => ⟨rfl, rfl⟩)
    have h₂ := patchField_keeps hsecond (keepsMetadata_ok fun _ _ => ⟨rfl, rfl⟩)
    have h₃ := patchField_keeps hthird (keepsMetadata_decoded fun _ _ => ⟨rfl, rfl⟩)
    have h₄ := patchField_keeps hfourth (keepsMetadata_decoded fun _ _ => ⟨rfl, rfl⟩)
    have h₅ := patchField_keeps hfifth (keepsMetadata_ok fun _ _ => ⟨rfl, rfl⟩)
    have h₆ := patchField_keeps hsixth (keepsMetadata_ok fun _ _ => ⟨rfl, rfl⟩)
    have h₇ := patchField_keeps hseventh (keepsMetadata_ok fun _ _ => ⟨rfl, rfl⟩)
    have h₈ := patchField_keeps heighth (keepsMetadata_ok fun _ _ => ⟨rfl, rfl⟩)
    have h₉ := patchField_keeps hninth (keepsMetadata_decoded fun _ _ => ⟨rfl, rfl⟩)
    rw [h₉.1, h₉.2, h₈.1, h₈.2, h₇.1, h₇.2, h₆.1, h₆.2, h₅.1, h₅.2, h₄.1, h₄.2, h₃.1, h₃.2,
      h₂.1, h₂.2, h₁.1, h₁.2]
    exact ⟨rfl, rfl⟩
  rw [patchField] at h
  split at h
  · rename_i value hvalue
    rw [hsame.2] at h
    cases hmerged : mergeJsonObject existing.metadata value with
    | error message =>
        rw [hmerged] at h
        cases h
    | ok metadata =>
        rw [hmerged] at h
        rw [← Except.ok.inj h]
        exact ⟨hsame.1, Or.inr ⟨value, hvalue, hmerged⟩⟩
  · rename_i hnone
    rw [← Except.ok.inj h]
    exact ⟨hsame.1, Or.inl ⟨hnone, hsame.2⟩⟩

theorem lookupField_merged (patchMap fields : Fields) (key : String) :
    lookupField key (patchMap.foldr (fun field merged => insertField field.1 field.2 merged)
      fields) = (lookupField key patchMap).or (lookupField key fields) := by
  induction patchMap with
  | nil => rfl
  | cons field rest ih =>
      rw [List.foldr_cons, lookupField_insertField, ih, lookupField]
      split
      · rfl
      · rfl

theorem secretsKept_patch (hexisting : CleanEndpoint existing)
    (hpatched : patchEndpoint decoders patch existing = .ok patched) :
    SecretsKept existing.metadata ((patch.get "metadata").getD .null)
      (preserveModelEndpointSecretMetadata existing patched).metadata := by
  rw [preserve_eq hexisting]
  have hold : ∀ key text, metadataString existing.metadata key = some text →
      lookupField key (objectFields patched.metadata) = existing.metadata.get key →
      metadataString (.object (objectFields patched.metadata)) key = some text := by
    intro key text htext hsame
    rw [metadataString, Value.get, hsame]
    exact htext
  obtain ⟨-, ⟨hnone, hmetadata⟩ | ⟨value, hvalue, hmerged⟩⟩ := patchEndpoint_eq_ok hpatched
  · rw [hnone, Option.getD_none]
    apply secretsKept_preserved
    · intro key _ _ text htext
      exact Or.inr (hold key text htext (by rw [hmetadata, get_objectFields]))
    · intro key _ text hpayload
      cases hpayload
  · rw [hvalue, Option.getD_some]
    cases value with
    | null =>
        rw [← Except.ok.inj hmerged]
        apply secretsKept_preserved
        · exact fun key _ _ text _ => Or.inl rfl
        · intro key _ text hpayload
          cases hpayload
    | object patchMap =>
        have hfields : ∀ key, lookupField key (objectFields patched.metadata) =
            (lookupField key patchMap).or (existing.metadata.get key) := by
          intro key
          rw [← Except.ok.inj hmerged, objectFields, lookupField_merged, get_objectFields]
        apply secretsKept_preserved
        · rintro key - (hmissing | hcleared) text htext
          · rw [Value.get] at hmissing
            exact Or.inr (hold key text htext (by rw [hfields, hmissing, Option.none_or]))
          · left
            apply metadataString_eq_none_of_leftBlank
            right
            rw [Value.get] at hcleared ⊢
            rcases hcleared with hnull | ⟨blank, hblank, htrim⟩
            · exact Or.inl (by rw [hfields, hnull, Option.some_or])
            · exact Or.inr ⟨blank, by rw [hfields, hblank, Option.some_or], htrim⟩
        · intro key _ text hpayload _
          rw [Value.get] at hpayload
          rw [hfields, hpayload, Option.some_or]
    | _ => cases hmerged

end PatchedFields

section Edits

variable {ρ π : Type}

inductive EndpointEdit where
  | save (endpoint : StoredEndpoint)
  | patch (endpointId : String) (value : Value)

def EndpointEdit.endpointId : EndpointEdit → String
  | .save endpoint => (trimmedEndpoint endpoint).modelEndpointId
  | .patch endpointId _ => trim endpointId

/-- The metadata of the request. -/
def EndpointEdit.payload : EndpointEdit → Value
  | .save endpoint => endpoint.metadata
  | .patch _ value => (value.get "metadata").getD .null

def EndpointEdit.NotBuiltin (center : CenterEnvironment) (decoders : EndpointDecoders)
    (before : List StoredEndpoint) : EndpointEdit → Prop
  | .save endpoint => builtinLocalDefault center (trimmedEndpoint endpoint) = none
  | .patch endpointId value => ∀ existing patched,
      before.find? (hasEndpointId (trim endpointId)) = some existing →
      patchEndpoint decoders value existing = .ok patched →
      builtinLocalDefault center patched = none

def EndpointEdit.program (env : Environment (ModelSections ρ) π) (center : CenterEnvironment)
    (decoders : EndpointDecoders) :
    EndpointEdit → Store (ModelSections ρ) π (AdminConsoleState (ModelSections ρ) π)
  | .save endpoint => saveModelEndpoint env center endpoint
  | .patch endpointId value => patchModelEndpoint env center decoders endpointId value

variable {center : CenterEnvironment} {now : Nat} {outside : Environment (ModelSections ρ) π}
  {decoders : EndpointDecoders} {file : StateFile (ModelSections ρ) π}
  {state saved : AdminConsoleState (ModelSections ρ) π} {edit : EndpointEdit} {value : Value}

theorem exists_sanitized_models
    (h : loadedState (modelEnvironment center now outside) file = .ok state) :
    ∃ models, state.sections.models = sanitizeModelCenterState center now models := by
  have hhints : ∀ {loaded : AdminConsoleState (ModelSections ρ) π},
      applyRegistryHints (modelEnvironment center now outside) loaded = .ok state →
      ∃ models, state.sections.models = sanitizeModelCenterState center now models := by
    intro loaded hloaded
    rw [applyRegistryHints] at hloaded
    cases hsections : (modelEnvironment center now outside).applyRtspHints loaded.sections with
    | error message =>
        rw [hsections] at hloaded
        cases hloaded
    | ok sections =>
        rw [hsections] at hloaded
        rw [← Except.ok.inj hloaded]
        exact ⟨_, rfl⟩
  cases file with
  | missing => exact hhints h
  | unreadable message => cases h
  | holds stored => exact hhints h

theorem clean_of_loadedState
    (h : loadedState (modelEnvironment center now outside) file = .ok state) :
    ∀ endpoint ∈ state.sections.models.endpoints, CleanEndpoint endpoint := by
  obtain ⟨models, hmodels⟩ := exists_sanitized_models h
  rw [hmodels]
  exact clean_of_mem_sanitize

theorem exec_saveModelEndpoint {endpoint : StoredEndpoint}
    (hloaded : loadedState (modelEnvironment center now outside) file = .ok state) :
    (saveModelEndpoint (modelEnvironment center now outside) center endpoint).run.exec file =
      (saveProjectedState (modelEnvironment center now outside) (withEndpoints state
        (putEndpoint (finished center (trimmedEndpoint endpoint))
          state.sections.models.endpoints))).run.exec
        (.holds (sanitizeAdminState (modelEnvironment center now outside) state)) := by
  rw [saveModelEndpoint, exec_run_bind_of_ok (exec_loadOrCreateState hloaded),
    sanitizeModelEndpoint_eq]
  rfl

theorem editKept_putEndpoint {endpoint : StoredEndpoint} {before : List StoredEndpoint}
    (hclean : ∀ endpoint ∈ before, CleanEndpoint endpoint)
    (hids : (before.map fun endpoint => endpoint.modelEndpointId).Nodup)
    (hbuiltin : builtinLocalDefault center (trimmedEndpoint endpoint) = none) :
    EditKept center before (trimmedEndpoint endpoint).modelEndpointId endpoint.metadata
        (putEndpoint (finished center (trimmedEndpoint endpoint)) before) ∧
      ∀ endpoint' ∈ putEndpoint (finished center (trimmedEndpoint endpoint)) before,
        CleanEndpoint endpoint' := by
  have hrequest : CleanEndpoint (finished center (trimmedEndpoint endpoint)) :=
    (cleanEndpoint_trimmedEndpoint modelEndpointId_trimmedEndpoint_ne).finished
  have hid : (finished center (trimmedEndpoint endpoint)).modelEndpointId =
      (trimmedEndpoint endpoint).modelEndpointId := endpointOrderKey_finished.1
  have hplain := builtinLocalDefault_finished_of_none
    (cleanEndpoint_trimmedEndpoint modelEndpointId_trimmedEndpoint_ne) hbuiltin
  rw [putEndpoint, hid]
  cases hfind : before.find? (hasEndpointId (trimmedEndpoint endpoint).modelEndpointId) with
  | none =>
      rw [Option.isSome_none, if_neg Bool.false_ne_true]
      refine ⟨editKept_append hids hfind hid hplain (secretsKept_new hbuiltin), ?_⟩
      intro saved hsaved
      rcases List.mem_append.mp hsaved with hmem | hmem
      · exact hclean saved hmem
      · exact List.mem_singleton.mp hmem ▸ hrequest
  | some existing =>
      have hexisting := hclean existing (List.mem_of_find?_eq_some hfind)
      rw [Option.isSome_some, if_pos rfl]
      refine ⟨editKept_updateFirst hids hfind rfl ((modelEndpointId_preserve _).trans hid) ?_
        (secretsKept_save hexisting hbuiltin), ?_⟩
      · rw [← hplain]
        exact builtinLocalDefault_congr (modelEndpointId_preserve _)
          (metadataBool_preserve hexisting _)
      · intro saved hsaved
        rcases mem_updateFirst hsaved with hmem | ⟨old, hold, -, hnew⟩
        · exact hclean saved hmem
        · rw [hnew, preserve_eq (hclean old hold)]
          exact hrequest.withMetadata _

/-- An accepted patch saves the patched endpoint with its secrets. -/
theorem exec_patchModelEndpoint {endpointId : String}
    (hloaded : loadedState (modelEnvironment center now outside) file = .ok state)
    (hsaved : ((patchModelEndpoint (modelEnvironment center now outside) center decoders endpointId
      value).run.exec file).result = .ok saved) :
    ∃ existing patched,
      state.sections.models.endpoints.find? (hasEndpointId (trim endpointId)) = some existing ∧
      patchEndpoint decoders value existing = .ok patched ∧
      (patchModelEndpoint (modelEnvironment center now outside) center decoders endpointId
          value).run.exec file =
        (saveProjectedState (modelEnvironment center now outside) (withEndpoints state
          (updateFirst (hasEndpointId (trim endpointId)) (fun _ => finished center
            (trimmedEndpoint (preserveModelEndpointSecretMetadata existing patched)))
            state.sections.models.endpoints))).run.exec
          (.holds (sanitizeAdminState (modelEnvironment center now outside) state)) := by
  rw [patchModelEndpoint] at hsaved ⊢
  by_cases hid : trim endpointId = ""
  · rw [if_pos hid] at hsaved
    cases hsaved
  cases hobject : value.isObject with
  | false =>
      rw [if_neg hid, hobject] at hsaved
      cases hsaved
  | true =>
      simp only [if_neg hid, hobject, Bool.not_true, Bool.false_eq_true, if_false]
        at hsaved ⊢
      rw [exec_run_bind_of_ok (exec_loadOrCreateState hloaded)] at hsaved ⊢
      cases hfind : state.sections.models.endpoints.find? (hasEndpointId (trim endpointId)) with
      | none =>
          rw [hfind] at hsaved
          cases hsaved
      | some existing =>
          rw [hfind] at hsaved
          dsimp only at hsaved
          cases hpatched : patchEndpoint decoders value existing with
          | error message =>
              rw [hpatched, exec_run_bind_of_error rfl] at hsaved
              cases hsaved
          | ok patched =>
              refine ⟨existing, patched, rfl, hpatched, ?_⟩
              dsimp only
              rw [hpatched, exec_run_bind_of_ok rfl, sanitizeModelEndpoint_eq,
                exec_run_bind_of_ok rfl]

theorem editKept_patched {endpointId : String} {before : List StoredEndpoint}
    {existing patched : StoredEndpoint} (hclean : ∀ endpoint ∈ before, CleanEndpoint endpoint)
    (hids : (before.map fun endpoint => endpoint.modelEndpointId).Nodup)
    (hfind : before.find? (hasEndpointId endpointId) = some existing)
    (hpatched : patchEndpoint decoders value existing = .ok patched)
    (hbuiltin : builtinLocalDefault center patched = none) :
    EditKept center before endpointId ((value.get "metadata").getD .null)
        (updateFirst (hasEndpointId endpointId) (fun _ => finished center
          (trimmedEndpoint (preserveModelEndpointSecretMetadata existing patched))) before) ∧
      ∀ endpoint ∈ updateFirst (hasEndpointId endpointId) (fun _ => finished center
          (trimmedEndpoint (preserveModelEndpointSecretMetadata existing patched))) before,
        CleanEndpoint endpoint := by
  have hexisting := hclean existing (List.mem_of_find?_eq_some hfind)
  have hsame : existing.modelEndpointId = endpointId :=
    of_decide_eq_true (List.find?_some (p := hasEndpointId endpointId) hfind)
  set kept := preserveModelEndpointSecretMetadata existing patched with hkept
  have hid : (trimmedEndpoint kept).modelEndpointId = existing.modelEndpointId := by
    have hkeptId : kept.modelEndpointId = existing.modelEndpointId :=
      (modelEndpointId_preserve patched).trans (patchEndpoint_eq_ok hpatched).1
    show trimOr (generatedEndpointId kept) kept.modelEndpointId = existing.modelEndpointId
    rw [hkeptId, trimOr_of_trimmed hexisting.modelEndpointId]
  have htrimmed : CleanEndpoint (trimmedEndpoint kept) :=
    cleanEndpoint_trimmedEndpoint modelEndpointId_trimmedEndpoint_ne
  have hplain : builtinLocalDefault center (trimmedEndpoint kept) = none := by
    rw [← hbuiltin]
    apply builtinLocalDefault_congr
    · rw [hid, (patchEndpoint_eq_ok hpatched).1]
    · rw [← metadataBool_preserve hexisting patched, metadataBool, metadataBool]
      exact congrArg (fun value => (value.bind asBool).getD false) (get_normalizeJsonObject _ _)
  refine ⟨editKept_updateFirst hids hfind rfl ?_ ?_ ?_, ?_⟩
  · rw [endpointOrderKey_finished.1, hid, hsame]
  · exact builtinLocalDefault_finished_of_none htrimmed hplain
  · exact (secretsKept_patch hexisting hpatched).congr fun key hkey => get_sanitized hplain hkey
  · intro endpoint hmem
    rcases mem_updateFirst hmem with hold | ⟨old, hold, -, hnew⟩
    · exact hclean endpoint hold
    · rw [hnew]
      exact htrimmed.finished

theorem exists_edited
    (hids : (state.sections.models.endpoints.map
      fun endpoint => endpoint.modelEndpointId).Nodup)
    (hloaded : loadedState (modelEnvironment center now outside) file = .ok state)
    (hbuiltin : edit.NotBuiltin center decoders state.sections.models.endpoints)
    (hsaved : ((edit.program (modelEnvironment center now outside) center decoders).run.exec
      file).result = .ok saved) :
    ∃ endpoints,
      EditKept center state.sections.models.endpoints edit.endpointId edit.payload endpoints ∧
      (∀ endpoint ∈ endpoints, CleanEndpoint endpoint) ∧
      (edit.program (modelEnvironment center now outside) center decoders).run.exec file =
        (saveProjectedState (modelEnvironment center now outside)
          (withEndpoints state endpoints)).run.exec
          (.holds (sanitizeAdminState (modelEnvironment center now outside) state)) := by
  have hclean := clean_of_loadedState hloaded
  cases edit with
  | save endpoint =>
      obtain ⟨hkept, hafter⟩ := editKept_putEndpoint hclean hids hbuiltin
      exact ⟨_, hkept, hafter, exec_saveModelEndpoint hloaded⟩
  | patch endpointId value =>
      obtain ⟨existing, patched, hfind, hpatched, hrun⟩ := exec_patchModelEndpoint hloaded hsaved
      obtain ⟨hkept, hafter⟩ := editKept_patched hclean hids hfind hpatched
        (hbuiltin existing patched hfind hpatched)
      exact ⟨_, hkept, hafter, hrun⟩

/-- An accepted edit of an endpoint that is not built-in keeps the secrets that the request leaves
blank and takes the others; every other endpoint comes out of the normalisation alone. -/
theorem edit_keeps_secrets
    (hloaded : loadedState (modelEnvironment center now outside) file = .ok state)
    (hids : (state.sections.models.endpoints.map
      fun endpoint => endpoint.modelEndpointId).Nodup)
    (hbuiltin : edit.NotBuiltin center decoders state.sections.models.endpoints)
    (hsaved : ((edit.program (modelEnvironment center now outside) center decoders).run.exec
      file).result = .ok saved) :
    EditKept center state.sections.models.endpoints edit.endpointId edit.payload
        saved.sections.models.endpoints ∧
      ∃ stored, ((edit.program (modelEnvironment center now outside) center decoders).run.exec
          file).file = .holds stored ∧
        EditKept center state.sections.models.endpoints edit.endpointId edit.payload
          stored.sections.models.endpoints := by
  obtain ⟨endpoints, hedited, hclean, hrun⟩ := exists_edited hids hloaded hbuiltin hsaved
  rw [hrun] at hsaved ⊢
  have hkept : EditKept center state.sections.models.endpoints edit.endpointId edit.payload
      saved.sections.models.endpoints := by
    rw [← Except.ok.inj hsaved]
    exact hedited.sanitize hclean rfl now
  refine ⟨hkept, sanitizeAdminState (modelEnvironment center now outside) saved, ?_, ?_⟩
  · rw [← Except.ok.inj hsaved]
    rfl
  · refine hkept.sanitize ?_ rfl now
    rw [← Except.ok.inj hsaved]
    exact clean_of_mem_sanitize

def cloudEndpoint (metadata : Value) : StoredEndpoint where
  modelEndpointId := "llm-cloud"
  modelKind := .llm
  endpointKind := .cloud
  providerKey := "openai"
  modelName := "gpt-4o"
  capabilityTags := []
  status := .active
  metadata
  workspaceId := none
  providerAccountId := none
  costPolicy := .object []

def cloudModels : StoredModelCenter where
  endpoints := [cloudEndpoint (.object [("api_key", string "sk-1")])]
  routePolicies := []
  modelStoreRoot := ""
  capabilityBindings := []
  runtimes := []

def cloudState : AdminConsoleState (ModelSections Unit) Unit where
  binding := defaultBinding "ABCD-1234"
  notificationTargets := []
  automationReviews := []
  platform := ⟨[], [], [], [], ()⟩
  modelDownloadJobs := []
  sections := ⟨cloudModels, ()⟩

def cloudEnvironment : Environment (ModelSections Unit) Unit where
  modelTestTimestamp := "1700000000"
  newUuid := "1"
  uuidAt := toString
  bindingCode := "ABCD-1234"
  newBindingCode := "EFGH-5678"
  renderF64 := fun _ => "0.5".toList
  defaultState := cloudState
  applyRtspHints := .ok
  sanitizeSections := id
  hydrateLegacyViews := fun state => (state.binding, state.sections)
  syncPlatformFromLegacy := fun state => state.platform

def saveWithoutKey : EndpointEdit :=
  .save (cloudEndpoint .null)

def noDecoders : EndpointDecoders :=
  ⟨fun _ => .error "unknown variant", fun _ => .error "unknown variant",
    fun _ => .error "unknown variant"⟩

theorem saveWithoutKey_keeps : ∃ state saved,
    loadedState (modelEnvironment ⟨none, none, none⟩ 0 cloudEnvironment) .missing = .ok state ∧
    ((saveWithoutKey.program (modelEnvironment ⟨none, none, none⟩ 0 cloudEnvironment)
      ⟨none, none, none⟩ noDecoders).run.exec .missing).result = .ok saved ∧
    EditKept ⟨none, none, none⟩ state.sections.models.endpoints saveWithoutKey.endpointId
      saveWithoutKey.payload saved.sections.models.endpoints := by
  have hloaded : ∃ state, loadedState (modelEnvironment ⟨none, none, none⟩ 0 cloudEnvironment)
      .missing = .ok state ∧ state.sections.models =
        sanitizeModelCenterState ⟨none, none, none⟩ 0
          (sanitizeModelCenterState ⟨none, none, none⟩ 0 cloudModels) := ⟨_, rfl, rfl⟩
  obtain ⟨state, hloaded, hmodels⟩ := hloaded
  have hsaved : ∃ saved,
      ((saveWithoutKey.program (modelEnvironment ⟨none, none, none⟩ 0 cloudEnvironment)
        ⟨none, none, none⟩ noDecoders).run.exec .missing).result = .ok saved :=
    ⟨_, congrArg Outcome.result (exec_saveModelEndpoint hloaded)⟩
  obtain ⟨saved, hsaved⟩ := hsaved
  have hids : (state.sections.models.endpoints.map
      fun endpoint => endpoint.modelEndpointId).Nodup := by
    rw [hmodels]
    refine nodup_ids_sanitize clean_of_mem_sanitize (nodup_ids_sanitize ?_ ?_ rfl 0) rfl 0
    · rw [cloudModels, List.forall_mem_singleton]
      exact ⟨by decide, rfl, rfl, by decide, by decide,
        ⟨by simp [cloudEndpoint, CleanTexts], by simp [cloudEndpoint]⟩, ⟨_, rfl⟩, ⟨_, rfl⟩⟩
    · exact List.nodup_singleton _
  have hbuiltin : saveWithoutKey.NotBuiltin ⟨none, none, none⟩ noDecoders
      state.sections.models.endpoints := by
    change builtinLocalDefault ⟨none, none, none⟩ (trimmedEndpoint (cloudEndpoint .null)) = none
    decide
  exact ⟨state, saved, hloaded, hsaved, (edit_keeps_secrets hloaded hids hbuiltin hsaved).1⟩

end Edits

end HarborBeacon.ModelSettings
