import HarborBeacon.DeviceRegistry
import HarborBeacon.EndpointClients
import HarborBeacon.Ipv4Networks
import HarborBeacon.LocalOnlyRouting

/-!
Where camera images go. Before an image is sent to a vision model, the model's endpoint has to be
a local one, and the host in its address has to be a name or an address of the device itself.
-/

namespace HarborBeacon.VlmLocality

open DeviceRegistry EndpointClients Ipv4Networks Json LocalOnlyRouting ModelCenter ModelRouting Text

section Blocker

def acceptsHost (host : String) : Bool :=
  let value := toAsciiLowercase host
  value = "localhost" || value = "::1" || startsWithText value "127."

variable (parseUrl : UrlParser)

def urlIsLoopback (rawUrl : String) : Bool :=
  match parseUrl (trim rawUrl) with
  | some url => acceptsHost (url.hostStr.getD "")
  | none => false

def notLocal : String :=
  "VLM endpoint must be local-only; cloud or remote fallback is blocked."

def notLoopback : String :=
  "VLM endpoint base_url must bind to loopback for K3 local-only execution."

def vlmEndpointLocalOnlyBlocker (endpoint : ModelEndpoint) : Option String :=
  if endpoint.endpointKind ≠ .local then some notLocal
  else
    match metadataString endpoint.metadata "base_url" with
    | none => none
    | some baseUrl =>
        if !endpointUsesOpenaiCompatibleApi endpoint then none
        else if !urlIsLoopback parseUrl baseUrl then some notLoopback
        else none

theorem vlmEndpointLocalOnlyBlocker_eq_none {endpoint : ModelEndpoint} {baseUrl : String}
    (hbase : metadataString endpoint.metadata "base_url" = some baseUrl)
    (happ : endpointUsesOpenaiCompatibleApi endpoint = true) :
    vlmEndpointLocalOnlyBlocker parseUrl endpoint = none ↔
      endpoint.endpointKind = .local ∧ urlIsLoopback parseUrl baseUrl = true := by
  rw [vlmEndpointLocalOnlyBlocker, hbase]
  split
  · rename_i hkind
    simp [hkind]
  · rename_i hkind
    rw [not_not] at hkind
    simp [happ, hkind]

theorem urlIsLoopback_iff {rawUrl : String} : urlIsLoopback parseUrl rawUrl = true ↔
    ∃ url host, parseUrl (trim rawUrl) = some url ∧ url.hostStr = some host ∧
      acceptsHost host = true := by
  have hempty : acceptsHost "" = false := by decide
  rw [urlIsLoopback]
  rcases parseUrl (trim rawUrl) with _ | url
  · simp
  · rcases hhost : url.hostStr with _ | host
    · simp [hempty, hhost]
    · simp [hhost]

end Blocker

/-- The name `localhost`, an IPv4 address of the loopback network, or the loopback address of IPv6
as an address of the `url` package shows it, between brackets. -/
def LoopbackHost (host : String) : Prop :=
  toAsciiLowercase host = "localhost" ∨
    (∃ address ∈ parseAddress host.toList, address / 2 ^ 24 = 127) ∨ host = "[::1]"

instance (host : String) : Decidable (LoopbackHost host) :=
  inferInstanceAs (Decidable (_ ∨ (∃ address ∈ parseAddress host.toList, _) ∨ _))

/-- A host that the test of its text takes for what it is: it is not the IPv6 loopback address, and
if it looks like an address of the loopback network, then it is an IPv4 address. -/
def SeenThrough (host : String) : Prop :=
  host ≠ "[::1]" ∧ toAsciiLowercase host ≠ "::1" ∧
    (startsWithText (toAsciiLowercase host) "127." = true →
      (parseAddress host.toList).isSome = true)

instance (host : String) : Decidable (SeenThrough host) :=
  inferInstanceAs (Decidable (_ ∧ _ ∧ (_ → _)))

theorem toAsciiLowercase_of_address {host : String} {address : Nat}
    (h : parseAddress host.toList = some address) : toAsciiLowercase host = host := by
  rw [← String.toList_inj, toAsciiLowercase, String.toList_ofList]
  conv_rhs => rw [← List.map_id host.toList]
  apply List.map_congr_left
  intro c hc
  rcases (parseAddress_eq_some h).1 c hc with rfl | hdigit
  · decide
  · simp only [Char.isDigit, Bool.and_eq_true, decide_eq_true_eq] at hdigit
    have hupper : ¬ 'A' ≤ c := by
      intro hle
      exact absurd (le_trans hle hdigit.2) (by decide)
    exact toLower_of_not_upper fun hbig => hupper hbig.1

theorem startsWithText_of_address {host : String} {address : Nat}
    (h : parseAddress host.toList = some address) :
    startsWithText host "127." = true ↔ address / 2 ^ 24 = 127 := by
  have htext := (parseAddress_eq_some_iff.mp h).2
  rw [startsWithText, decide_eq_true_eq, htext, ← prefix_displayAddress_iff]
  rfl

theorem accepts_iff_loopback_iff {host : String} :
    (acceptsHost host = true ↔ LoopbackHost host) ↔ SeenThrough host := by
  have haddress : (∃ address ∈ parseAddress host.toList, address / 2 ^ 24 = 127) ↔
      (parseAddress host.toList).isSome = true ∧
        startsWithText (toAsciiLowercase host) "127." = true := by
    rcases hparse : parseAddress host.toList with _ | address
    · simp
    · rw [toAsciiLowercase_of_address hparse, startsWithText_of_address hparse]
      simp
  have hbrackets : host = "[::1]" → toAsciiLowercase host = "[::1]" := by
    rintro rfl
    decide
  have hname : startsWithText "localhost" "127." = false := by decide
  have hbare : startsWithText "::1" "127." = false := by decide
  have hshown : startsWithText "[::1]" "127." = false := by decide
  simp only [acceptsHost, LoopbackHost, SeenThrough, haddress, Bool.or_eq_true, decide_eq_true_eq]
  constructor
  · intro hiff
    refine ⟨?_, ?_, ?_⟩
    · intro hhost
      have hlower := hbrackets hhost
      rw [hlower, hshown] at hiff
      simpa using hiff.mpr (Or.inr (Or.inr hhost))
    · intro hlower
      rw [hlower, hbare] at hiff
      rcases hiff.mp (Or.inl (Or.inr rfl)) with hwrong | hwrong | hwrong
      · exact absurd hwrong (by decide)
      · exact absurd hwrong.2 (by decide)
      · exact absurd (hlower.symm.trans (hbrackets hwrong)) (by decide)
    · intro hstart
      rcases hiff.mp (Or.inr hstart) with hlower | haddress | hhost
      · rw [hlower, hname] at hstart
        cases hstart
      · exact haddress.1
      · rw [hbrackets hhost, hshown] at hstart
        cases hstart
  · rintro ⟨hhost, hlower, hstart⟩
    constructor
    · rintro ((hname | hbare) | hnumber)
      · exact Or.inl hname
      · exact absurd hbare hlower
      · exact Or.inr (Or.inl ⟨hstart hnumber, hnumber⟩)
    · rintro (hname | haddress | hwrong)
      · exact Or.inl (Or.inl hname)
      · exact Or.inr haddress.2
      · exact absurd hwrong hhost

section Execution

/-- The fields of an answer about a frame that its use reads. -/
structure CatFrameVerificationResponse where
  catPresent : Bool
  behaviorTags : List String
  summary : String
  reasonCode : String
deriving DecidableEq

structure CatRecordingVlmExecution where
  available : Bool := false
  status : String := ""
  summary : String := ""
  providerKey : String := ""
  modelEndpointId : Option String := none
  modelName : String := ""
  catPresent : Bool := false
  catFrameIndices : List UInt8 := []
  behaviorTags : List String := []
  reasonCode : String := ""
  sampledFrameCount : UInt8 := 0
deriving DecidableEq

/-- What the run takes from outside: the addresses it can read, the image files, the client and
the leases of the accelerator. -/
structure VlmHost where
  parseUrl : UrlParser
  buildImageDataUrl : String → Except String String
  newClient : OpenAiCompatibleConfig → Except String Unit
  acquireEndpointAiLease : ModelEndpoint → Except String Unit
  verifyCatFrame : OpenAiCompatibleConfig → String → Except String CatFrameVerificationResponse

structure SentImage where
  baseUrl : String
  imageDataUrl : String
deriving DecidableEq

def catRecordingVlmError (status summary : String) (endpoint : Option ModelEndpoint) :
    CatRecordingVlmExecution where
  status := status
  summary := summary
  providerKey := (endpoint.map fun endpoint => endpoint.providerKey).getD ""
  modelEndpointId := endpoint.map fun endpoint => endpoint.modelEndpointId
  modelName := (endpoint.map fun endpoint => endpoint.modelName).getD ""

def collectedTags (responses : List (UInt8 × CatFrameVerificationResponse)) : List String :=
  (responses.flatMap fun (_, response) =>
    if response.catPresent then response.behaviorTags else []).foldl
    (fun tags tag => if tag ∈ tags then tags else tags ++ [tag]) []

def aggregateCatFrameVerifications (endpoint : ModelEndpoint)
    (responses : List (UInt8 × CatFrameVerificationResponse)) : CatRecordingVlmExecution :=
  let catFrameIndices := ((responses.filterMap fun (index, response) =>
    if response.catPresent then some index else none).dedup).insertionSort (· ≤ ·)
  let positiveSummaries := responses.filterMap fun (_, response) =>
    if response.catPresent && !isBlank response.summary then some (trim response.summary) else none
  let uncertain := responses.any fun (_, response) =>
    !response.catPresent && response.reasonCode ≠ "no_cat_visible"
  let sampledFrameCount := min responses.length 255
  let first := positiveSummaries.headD ""
  let (summary, reasonCode) :=
    match catFrameIndices with
    | _ :: _ :: _ =>
        (trim ("抽样 " ++ toString sampledFrameCount ++ " 帧，其中 " ++
          toString catFrameIndices.length ++ " 帧确认出现猫。" ++ first), "cat_visible")
    | [frameIndex] =>
        (trim ("抽样 " ++ toString sampledFrameCount ++ " 帧，仅第 " ++
          toString frameIndex.toNat ++ " 帧确认出现猫，需要复核。" ++ first), "uncertain")
    | [] =>
        if uncertain then
          ("抽样 " ++ toString sampledFrameCount ++ " 帧未形成明确结论，需要复核。", "uncertain")
        else ("抽样 " ++ toString sampledFrameCount ++ " 帧均未看见猫。", "no_cat_visible")
  { available := true
    status := "active"
    summary := summary
    providerKey := endpoint.providerKey
    modelEndpointId := some endpoint.modelEndpointId
    modelName := endpoint.modelName
    catPresent := catFrameIndices ≠ []
    catFrameIndices := catFrameIndices
    behaviorTags := collectedTags responses
    reasonCode := reasonCode
    sampledFrameCount := UInt8.ofNat sampledFrameCount }

variable (host : VlmHost) {frames : List (UInt8 × String)} {endpoint : ModelEndpoint}
  {image : SentImage}

/-- The loop over the frames; the images that were sent are handed on in their order. -/
def verifyFrames (endpoint : ModelEndpoint) (config : OpenAiCompatibleConfig) :
    List (UInt8 × CatFrameVerificationResponse) → List (UInt8 × String) →
      CatRecordingVlmExecution × List SentImage
  | responses, [] => (aggregateCatFrameVerifications endpoint responses, [])
  | responses, (frameIndex, imagePath) :: rest =>
      match host.buildImageDataUrl imagePath with
      | .error error => (catRecordingVlmError "degraded" error (some endpoint), [])
      | .ok imageDataUrl =>
          let sent : SentImage := { baseUrl := config.baseUrl, imageDataUrl := imageDataUrl }
          match host.verifyCatFrame config imageDataUrl with
          | .error error => (catRecordingVlmError "degraded" error (some endpoint), [sent])
          | .ok response =>
              let (execution, later) :=
                verifyFrames endpoint config (responses ++ [(frameIndex, response)]) rest
              (execution, sent :: later)

/-- The run on an endpoint that passed the blocker. -/
def validateOnEndpoint (sampleFrames : List (UInt8 × String)) (endpoint : ModelEndpoint) :
    CatRecordingVlmExecution × List SentImage :=
  let refuse (status summary : String) : CatRecordingVlmExecution × List SentImage :=
    (catRecordingVlmError status summary (some endpoint), [])
  if !eqIgnoreAsciiCase endpoint.providerKey "openai_compatible" then
    refuse "degraded" "Configured VLM provider does not support cat recording validation."
  else
    match openaiCompatibleConfigFromEndpoint endpoint with
    | none => refuse "degraded" "VLM endpoint configuration is incomplete."
    | some config =>
        if sampleFrames = [] ∨ sampleFrames.length > 5 then
          refuse "degraded"
            "Cat recording validation requires between one and five sampled frames per round."
        else if ¬ (sampleFrames.map Prod.fst).Nodup ∨
            ∃ index ∈ sampleFrames.map Prod.fst, ¬ (1 ≤ index ∧ index ≤ 10) then
          refuse "degraded" "Cat recording validation sampled frame indices are invalid."
        else
          match host.newClient config with
          | .error error => refuse "degraded" error
          | .ok () =>
              match host.acquireEndpointAiLease endpoint with
              | .error error => refuse "busy" ("VLM A100 resource is busy: " ++ error)
              | .ok () => verifyFrames host endpoint config [] sampleFrames

def vlmPolicyId : String := "retrieval.vision_summary"

def runCatRecordingValidationWithState (env : Surroundings) (state : AdminModelCenterState)
    (sampleFrames : List (UInt8 × String)) : CatRecordingVlmExecution × List SentImage :=
  match resolveEndpoint env state .vlm vlmPolicyId with
  | none => (catRecordingVlmError "disabled" "No VLM endpoint is enabled." none, [])
  | some endpoint =>
      match vlmEndpointLocalOnlyBlocker host.parseUrl endpoint with
      | some reason => (catRecordingVlmError "blocked" reason (some endpoint), [])
      | none => validateOnEndpoint host sampleFrames endpoint

theorem baseUrl_of_mem_verifyFrames {config : OpenAiCompatibleConfig}
    {responses : List (UInt8 × CatFrameVerificationResponse)}
    (h : image ∈ (verifyFrames host endpoint config responses frames).2) :
    image.baseUrl = config.baseUrl := by
  induction frames generalizing responses with
  | nil => simp [verifyFrames] at h
  | cons frame frames ih =>
      rw [verifyFrames] at h
      split at h
      · simp at h
      · split at h
        · rw [List.mem_singleton.mp h]
        · rcases List.mem_cons.mp h with rfl | hlater
          · rfl
          · exact ih hlater

def NamesAcceptedHost (parseUrl : UrlParser) (endpoint : ModelEndpoint) (image : SentImage) : Prop :=
  ∃ baseUrl url name, metadataString endpoint.metadata "base_url" = some baseUrl ∧
    image.baseUrl = trimEndSlashes baseUrl ∧ parseUrl (trim baseUrl) = some url ∧
    url.hostStr = some name ∧ acceptsHost name = true

theorem endpointUsesOpenaiCompatibleApi_of_provider
    (h : eqIgnoreAsciiCase endpoint.providerKey "openai_compatible" = true) :
    endpointUsesOpenaiCompatibleApi endpoint = true := by
  rw [endpointUsesOpenaiCompatibleApi, h, Bool.true_or]

theorem namesAcceptedHost_of_mem
    (hblocker : vlmEndpointLocalOnlyBlocker host.parseUrl endpoint = none)
    (h : image ∈ (validateOnEndpoint host frames endpoint).2) :
    endpoint.endpointKind = .local ∧ NamesAcceptedHost host.parseUrl endpoint image := by
  rw [validateOnEndpoint] at h
  split at h
  · simp at h
  rename_i hprovider
  split at h
  · simp at h
  rename_i config hconfig
  obtain ⟨baseUrl, hbase, hurl⟩ := baseUrl_openaiCompatibleConfig hconfig
  have happ := endpointUsesOpenaiCompatibleApi_of_provider (by simpa using hprovider)
  obtain ⟨hlocal, hloopback⟩ :=
    (vlmEndpointLocalOnlyBlocker_eq_none host.parseUrl hbase happ).mp hblocker
  obtain ⟨url, name, hparse, hname, haccepts⟩ := (urlIsLoopback_iff host.parseUrl).mp hloopback
  have hsent : image.baseUrl = config.baseUrl := by
    split at h
    · simp at h
    split at h
    · simp at h
    split at h
    · simp at h
    split at h
    · simp at h
    exact baseUrl_of_mem_verifyFrames host h
  exact ⟨hlocal, baseUrl, url, name, hbase, hsent.trans hurl, hparse, hname, haccepts⟩

/-- Whatever an image is sent for, it goes to the address in the record of the endpoint that was
resolved, which is a local one with a host that the blocker takes for the device. -/
theorem sent_to_accepted_host {env : Surroundings} {state : AdminModelCenterState}
    (h : image ∈ (runCatRecordingValidationWithState host env state frames).2) :
    ∃ endpoint, resolveEndpoint env state .vlm vlmPolicyId = some endpoint ∧
      endpoint.endpointKind = .local ∧ NamesAcceptedHost host.parseUrl endpoint image := by
  rw [runCatRecordingValidationWithState] at h
  split at h
  · simp at h
  rename_i endpoint hresolve
  split at h
  · simp at h
  rename_i hblocker
  exact ⟨endpoint, hresolve, namesAcceptedHost_of_mem host hblocker h⟩

end Execution

/-- The blocker lets the endpoint through exactly when it is a local one and the host in its
address is the device itself. -/
def StaysOnDevice (parseUrl : UrlParser) (endpoint : ModelEndpoint) (baseUrl : String) : Prop :=
  vlmEndpointLocalOnlyBlocker parseUrl endpoint = none ↔
    endpoint.endpointKind = .local ∧
      ∃ url host, parseUrl (trim baseUrl) = some url ∧ url.hostStr = some host ∧ LoopbackHost host

/-- The host in the address, when it has one, is taken for what it is. -/
def HostSeenThrough (parseUrl : UrlParser) (baseUrl : String) : Prop :=
  ∀ url host, parseUrl (trim baseUrl) = some url → url.hostStr = some host → SeenThrough host

theorem hostSeenThrough_of_parse {parseUrl : UrlParser} {baseUrl host : String} {url : Url}
    (hparse : parseUrl (trim baseUrl) = some url) (hhost : url.hostStr = some host)
    (hseen : SeenThrough host) : HostSeenThrough parseUrl baseUrl := by
  intro url' host' hparse' hhost'
  obtain rfl := Option.some.inj (hparse.symm.trans hparse')
  obtain rfl := Option.some.inj (hhost.symm.trans hhost')
  exact hseen

theorem staysOnDevice_iff_of_parse {parseUrl : UrlParser} {endpoint : ModelEndpoint}
    {baseUrl host : String} {url : Url} (hlocal : endpoint.endpointKind = .local)
    (hparse : parseUrl (trim baseUrl) = some url) (hhost : url.hostStr = some host) :
    StaysOnDevice parseUrl endpoint baseUrl ↔
      (vlmEndpointLocalOnlyBlocker parseUrl endpoint = none ↔ LoopbackHost host) := by
  simp [StaysOnDevice, hlocal, hparse, hhost]

/-- For every endpoint with an address and a compatible API, the blocker is exact if and only if
the endpoint is not local or its host is neither the IPv6 loopback address nor a name that begins
like an address of the loopback network. -/
theorem vlm_images_stay_iff (parseUrl : UrlParser) (endpoint : ModelEndpoint) (baseUrl : String)
    (hbase : metadataString endpoint.metadata "base_url" = some baseUrl)
    (happ : endpointUsesOpenaiCompatibleApi endpoint = true) :
    StaysOnDevice parseUrl endpoint baseUrl ↔
      (endpoint.endpointKind = .local → HostSeenThrough parseUrl baseUrl) := by
  rw [StaysOnDevice, vlmEndpointLocalOnlyBlocker_eq_none parseUrl hbase happ, urlIsLoopback_iff,
    and_congr_right_iff]
  apply imp_congr_right
  intro _
  constructor
  · intro hiff url host hparse hhost
    rw [← accepts_iff_loopback_iff]
    simpa [hparse, hhost] using hiff
  · intro hseen
    apply exists_congr
    intro url
    apply exists_congr
    intro host
    rw [and_congr_right_iff]
    intro hparse
    rw [and_congr_right_iff]
    intro hhost
    exact accepts_iff_loopback_iff.mpr (hseen url host hparse hhost)

def vlmAt (baseUrl : String) : ModelEndpoint where
  modelEndpointId := "vlm-local"
  modelKind := .vlm
  endpointKind := .local
  providerKey := "openai_compatible"
  modelName := "qwen-vl"
  capabilityTags := []
  status := .active
  metadata := .object [("base_url", .string baseUrl)]

def urlOn (host : String) (port : UInt16) : Url where
  scheme := "http"
  hostStr := some host
  portOrKnownDefault := some port
  path := "/v1"
  query := none

def sampleUrls : UrlParser
  | "http://127.0.0.1:8092/v1" => some (urlOn "127.0.0.1" 8092)
  | "http://[::1]:8092/v1" => some (urlOn "[::1]" 8092)
  | "http://127.evil.example:8092/v1" => some (urlOn "127.evil.example" 8092)
  | _ => none

theorem vlm_images_stay_loopback :
    StaysOnDevice sampleUrls (vlmAt "http://127.0.0.1:8092/v1") "http://127.0.0.1:8092/v1" :=
  (vlm_images_stay_iff sampleUrls (vlmAt "http://127.0.0.1:8092/v1") "http://127.0.0.1:8092/v1"
    (by decide +kernel) (by decide +kernel)).mpr fun _ =>
      hostSeenThrough_of_parse (show sampleUrls (trim _) = some (urlOn "127.0.0.1" 8092) by
        decide +kernel) rfl (by decide +kernel)

def obligingVlm : VlmHost where
  parseUrl := sampleUrls
  buildImageDataUrl := fun _ => .ok "data:image/jpeg;base64,/9j/"
  newClient := fun _ => .ok ()
  acquireEndpointAiLease := fun _ => .ok ()
  verifyCatFrame := fun _ _ => .ok ⟨true, [], "A cat.", "cat_visible"⟩

theorem sent_to_accepted_host_loopback :
    ∃ endpoint, resolveEndpoint plainSurroundings ⟨[vlmAt "http://127.0.0.1:8092/v1"], []⟩ .vlm
        vlmPolicyId = some endpoint ∧
      endpoint.endpointKind = .local ∧ NamesAcceptedHost obligingVlm.parseUrl endpoint
        ⟨"http://127.0.0.1:8092/v1", "data:image/jpeg;base64,/9j/"⟩ := by
  have hresolve : resolveEndpoint plainSurroundings ⟨[vlmAt "http://127.0.0.1:8092/v1"], []⟩ .vlm
      vlmPolicyId = some (vlmAt "http://127.0.0.1:8092/v1") :=
    resolveEndpoint_of_one plainSurroundings (by decide)
  have hsent : ⟨"http://127.0.0.1:8092/v1", "data:image/jpeg;base64,/9j/"⟩ ∈
      (runCatRecordingValidationWithState obligingVlm plainSurroundings
        ⟨[vlmAt "http://127.0.0.1:8092/v1"], []⟩ [(1, "frame-1.jpg")]).2 := by
    rw [runCatRecordingValidationWithState, hresolve]
    decide +kernel
  exact sent_to_accepted_host obligingVlm hsent

/-- A name that begins like a loopback address is let through, and the IPv6 loopback address is
not. -/
theorem vlm_images_leave :
    ¬ StaysOnDevice sampleUrls (vlmAt "http://127.evil.example:8092/v1")
      "http://127.evil.example:8092/v1" ∧
    ¬ StaysOnDevice sampleUrls (vlmAt "http://[::1]:8092/v1") "http://[::1]:8092/v1" := by
  have hname : sampleUrls (trim "http://127.evil.example:8092/v1") =
      some (urlOn "127.evil.example" 8092) := by decide +kernel
  have haddress : sampleUrls (trim "http://[::1]:8092/v1") = some (urlOn "[::1]" 8092) := by
    decide +kernel
  constructor
  · rw [staysOnDevice_iff_of_parse rfl hname rfl]
    decide +kernel
  · rw [staysOnDevice_iff_of_parse rfl haddress rfl]
    decide +kernel

end HarborBeacon.VlmLocality
