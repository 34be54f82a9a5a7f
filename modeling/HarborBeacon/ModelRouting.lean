import HarborBeacon.Json
import HarborBeacon.StableSearch
import HarborBeacon.Text

/-!
Model endpoints and the policies that route to them, and the projection of a policy that the
routing status shows: its candidates in order of preference, the selected one, and whether
the capability stays local.
-/

namespace HarborBeacon.ModelRouting

open Json Json.Value StableSearch Text

inductive ModelKind where
  | llm
  | vlm
  | ocr
  | asr
  | detector
  | embedder
  | reranker
deriving DecidableEq

def ModelKind.asStr : ModelKind → String
  | llm => "llm"
  | vlm => "vlm"
  | ocr => "ocr"
  | asr => "asr"
  | detector => "detector"
  | embedder => "embedder"
  | reranker => "reranker"

inductive ModelEndpointKind where
  | local
  | sidecar
  | cloud
deriving DecidableEq

def ModelEndpointKind.asStr : ModelEndpointKind → String
  | .local => "local"
  | .sidecar => "sidecar"
  | .cloud => "cloud"

inductive ModelEndpointStatus where
  | active
  | degraded
  | disabled
deriving DecidableEq

inductive PrivacyLevel where
  | strictLocal
  | allowRedactedCloud
  | allowCloud
deriving DecidableEq

structure ModelEndpoint where
  modelEndpointId : String
  modelKind : ModelKind
  endpointKind : ModelEndpointKind
  providerKey : String
  modelName : String
  capabilityTags : List String
  status : ModelEndpointStatus
  metadata : Value
deriving DecidableEq

structure ModelRoutePolicy where
  routePolicyId : String
  domainScope : String
  modality : String
  privacyLevel : PrivacyLevel
  localPreferred : Bool
  fallbackOrder : List String
  status : String
  metadata : Value
deriving DecidableEq

def endpointMatchesPolicy (endpoint : ModelEndpoint) (policy : ModelRoutePolicy) : Bool :=
  let policyKey := replaceChar '.' '_' policy.routePolicyId
  if endpoint.capabilityTags.any fun tag =>
      eqIgnoreAsciiCase tag policy.routePolicyId || tag = policyKey then true
  else
    match (policy.metadata.get "capability").bind asStr with
    | some capability => endpoint.capabilityTags.any fun tag => eqIgnoreAsciiCase tag capability
    | none =>
        eqIgnoreAsciiCase endpoint.modelKind.asStr policy.modality ||
          (eqIgnoreAsciiCase policy.modality "text" &&
            eqIgnoreAsciiCase endpoint.modelKind.asStr "llm") ||
          (eqIgnoreAsciiCase policy.modality "multimodal" &&
            (endpoint.modelKind = .llm || endpoint.modelKind = .vlm))

def normalizedFallbackOrder (policy : ModelRoutePolicy) : List String :=
  if policy.fallbackOrder = [] then ["local", "sidecar", "cloud"]
  else (policy.fallbackOrder.map fun value => toAsciiLowercase (trim value)).filter (· ≠ "")

def positionOrEnd (found : String → Bool) (order : List String) : Nat :=
  order.findIdx found

def endpointOrder (endpoint : ModelEndpoint) (fallbackOrder : List String) : Nat :=
  positionOrEnd (fun kind => kind = endpoint.endpointKind.asStr) fallbackOrder

def endpointStatusOrder : ModelEndpointStatus → Nat
  | .active => 0
  | .degraded => 1
  | .disabled => 2

/-- Ranks compared one after another, and the `tie` where all are equal. -/
def ranksLe (tie : Bool) : List Nat → List Nat → Bool
  | [], [] => tie
  | [], _ :: _ => true
  | _ :: _, [] => false
  | n :: rest, m :: rest' => decide (n < m) || (n = m && ranksLe tie rest rest')

def keyLe (a b : List Nat × String) : Bool :=
  ranksLe (decide (a.2 ≤ b.2)) a.1 b.1

def routeKey (fallbackOrder : List String) (endpoint : ModelEndpoint) : List Nat × String :=
  ([endpointOrder endpoint fallbackOrder, endpointStatusOrder endpoint.status],
    endpoint.modelEndpointId)

def eligibleForPolicy (policy : ModelRoutePolicy) (endpoints : List ModelEndpoint) :
    List ModelEndpoint :=
  let cloudAllowed := policy.privacyLevel ≠ .strictLocal
  ((endpoints.filter fun endpoint => endpoint.status ≠ .disabled).filter
    fun endpoint => cloudAllowed || endpoint.endpointKind ≠ .cloud).filter
      fun endpoint => endpointMatchesPolicy endpoint policy

def modelRouteCandidates (policy : ModelRoutePolicy) (endpoints : List ModelEndpoint) :
    List ModelEndpoint :=
  let fallbackOrder := normalizedFallbackOrder policy
  (eligibleForPolicy policy endpoints).mergeSort fun left right =>
    keyLe (routeKey fallbackOrder left) (routeKey fallbackOrder right)

structure EndpointKindCounts where
  localCount : Nat := 0
  sidecar : Nat := 0
  cloud : Nat := 0
  disabled : Nat := 0
deriving DecidableEq

def endpointKindCounts (policy : ModelRoutePolicy) (endpoints : List ModelEndpoint) :
    EndpointKindCounts :=
  (endpoints.filter fun endpoint => endpointMatchesPolicy endpoint policy).foldl
    (fun counts endpoint =>
      if endpoint.status = .disabled then { counts with disabled := counts.disabled + 1 }
      else
        match endpoint.endpointKind with
        | .local => { counts with localCount := counts.localCount + 1 }
        | .sidecar => { counts with sidecar := counts.sidecar + 1 }
        | .cloud => { counts with cloud := counts.cloud + 1 }) {}

structure ModelRoutePolicyProjection where
  routePolicyId : String
  domainScope : String
  modality : String
  privacyLevel : PrivacyLevel
  localPreferred : Bool
  fallbackOrder : List String
  status : String
  cloudAllowed : Bool
  cloudFallbackAllowed : Bool
  endpointCounts : EndpointKindCounts
  selectedEndpointId : Option String
  selectedEndpointKind : Option String
  blockers : List String
deriving DecidableEq

def listsKind (policy : ModelRoutePolicy) (kind : ModelEndpointKind) : Bool :=
  policy.fallbackOrder.any fun item => eqIgnoreAsciiCase item kind.asStr

def projectModelRoutePolicy (policy : ModelRoutePolicy) (endpoints : List ModelEndpoint) :
    ModelRoutePolicyProjection :=
  let cloudAllowed := policy.privacyLevel ≠ .strictLocal
  let cloudFallbackAllowed := cloudAllowed && listsKind policy .cloud
  let candidates := modelRouteCandidates policy endpoints
  let selected := candidates.head?
  { routePolicyId := policy.routePolicyId
    domainScope := policy.domainScope
    modality := policy.modality
    privacyLevel := policy.privacyLevel
    localPreferred := policy.localPreferred
    fallbackOrder := normalizedFallbackOrder policy
    status := policy.status
    cloudAllowed := cloudAllowed
    cloudFallbackAllowed := cloudFallbackAllowed
    endpointCounts := endpointKindCounts policy endpoints
    selectedEndpointId := selected.map (·.modelEndpointId)
    selectedEndpointKind := selected.map (·.endpointKind.asStr)
    blockers :=
      (if candidates = [] then
        ["route_policy=" ++ policy.routePolicyId ++ " has no enabled endpoint candidates"]
      else []) ++
      if policy.routePolicyId = "semantic.router" ∧ cloudFallbackAllowed = true then
        ["semantic.router must remain local-only"]
      else [] }

structure RoutingCapabilityProjection where
  capabilityId : String
  routePolicyId : String
  readiness : String
  localOnly : Bool
  selectedEndpointId : Option String
  blockers : List String
deriving DecidableEq

def capabilityReadiness (policy : ModelRoutePolicyProjection) : RoutingCapabilityProjection where
  -- the names that the source lists are the ids with their dots replaced
  capabilityId := replaceChar '.' '_' policy.routePolicyId
  routePolicyId := policy.routePolicyId
  readiness :=
    if policy.selectedEndpointId.isSome ∧ policy.blockers = [] then "ready"
    else if policy.selectedEndpointId.isSome then "degraded"
    else "blocked"
  localOnly := !policy.cloudAllowed || !policy.cloudFallbackAllowed
  selectedEndpointId := policy.selectedEndpointId
  blockers := policy.blockers

def buildCapabilityReadiness (policies : List ModelRoutePolicyProjection) :
    List RoutingCapabilityProjection :=
  policies.map capabilityReadiness

theorem ranksLe_total {tie tie' : Bool} (htie : (tie || tie') = true) (key key' : List Nat) :
    (ranksLe tie key key' || ranksLe tie' key' key) = true := by
  induction key generalizing key' with
  | nil =>
      cases key' with
      | nil => exact htie
      | cons m rest' => rfl
  | cons n rest ih =>
      cases key' with
      | nil => rfl
      | cons m rest' =>
          rcases Nat.lt_trichotomy n m with hlt | rfl | hgt
          · simp [ranksLe, hlt]
          · simpa [ranksLe] using ih rest'
          · simp [ranksLe, hgt]

theorem ranksLe_trans {tie tie' tie'' : Bool}
    (htie : tie = true → tie' = true → tie'' = true) (key key' key'' : List Nat)
    (hab : ranksLe tie key key' = true) (hbc : ranksLe tie' key' key'' = true) :
    ranksLe tie'' key key'' = true := by
  induction key generalizing key' key'' with
  | nil =>
      cases key'' with
      | nil =>
          cases key' with
          | nil => exact htie hab hbc
          | cons m rest' => simp [ranksLe] at hbc
      | cons k rest'' => rfl
  | cons n rest ih =>
      cases key' with
      | nil => simp [ranksLe] at hab
      | cons m rest' =>
          cases key'' with
          | nil => simp [ranksLe] at hbc
          | cons k rest'' =>
              simp only [ranksLe, Bool.or_eq_true, Bool.and_eq_true, decide_eq_true_eq]
                at hab hbc ⊢
              rcases hab with hnm | ⟨rfl, hab⟩
              · rcases hbc with hmk | ⟨rfl, -⟩
                · exact Or.inl (Nat.lt_trans hnm hmk)
                · exact Or.inl hnm
              · rcases hbc with hnk | ⟨rfl, hbc⟩
                · exact Or.inl hnk
                · exact Or.inr ⟨rfl, ih rest' rest'' hab hbc⟩

theorem keyLe_total (a b : List Nat × String) : (keyLe a b || keyLe b a) = true := by
  apply ranksLe_total
  simpa using String.le_total a.2 b.2

theorem keyLe_trans (a b c : List Nat × String) (hab : keyLe a b = true)
    (hbc : keyLe b c = true) : keyLe a c = true := by
  refine ranksLe_trans ?_ a.1 b.1 c.1 hab hbc
  simp only [decide_eq_true_eq]
  exact String.le_trans

end HarborBeacon.ModelRouting
