import HarborBeacon.DeviceRegistry

/-!
Every record of the registry has its own id and belongs to a device that exists. The ids of the
records of a device are its own id with a fixed ending, so that the helpers, which clear some
endings of one device and then add records with these endings, cannot write an id twice.
-/

namespace HarborBeacon.RegistryIntegrity

open DeviceRegistry OwnedTables

def endpointSlots : List String :=
  ["::endpoint::ipv4", "::endpoint::primary_stream"]

def managedBindingSlots : List String :=
  ["::binding::stream", "::binding::onvif", "::binding::ezviz"]

def bindingSlots : List String :=
  managedBindingSlots ++ ["::binding::home_assistant"]

def managedCapabilitySlots : List String :=
  ["::capability::snapshot", "::capability::stream_live", "::capability::ptz",
    "::capability::audio"]

def capabilitySlots : List String :=
  managedCapabilitySlots ++ ["::capability::ha_state"]

def streamProfileSlots : List String :=
  ["::stream::primary"]

theorem independent_endpointSlots : Independent endpointSlots := by decide

theorem independent_bindingSlots : Independent bindingSlots := by decide

theorem independent_capabilitySlots : Independent capabilitySlots := by decide

theorem independent_streamProfileSlots : Independent streamProfileSlots := by decide

def deviceIds (s : DeviceRegistrySnapshot) : List String :=
  s.devices.map ControlDeviceRecord.deviceId

/-- The ids of every table are unique and every record refers to what exists. -/
structure Integrity (s : DeviceRegistrySnapshot) : Prop where
  devices_unique : (s.devices.map ControlDeviceRecord.deviceId).Nodup
  endpoints_unique : (s.deviceEndpoints.map DeviceEndpoint.endpointId).Nodup
  bindings_unique : (s.providerBindings.map ProviderBinding.bindingId).Nodup
  capabilities_unique : (s.capabilities.map CapabilityRecord.capabilityId).Nodup
  twins_unique : (s.deviceTwins.map DeviceTwin.deviceId).Nodup
  cameraProfiles_unique : (s.cameraProfiles.map CameraProfile.deviceId).Nodup
  streamProfiles_unique : (s.streamProfiles.map StreamProfile.streamProfileId).Nodup
  endpoint_device : ∀ endpoint ∈ s.deviceEndpoints, endpoint.deviceId ∈ deviceIds s
  binding_device : ∀ binding ∈ s.providerBindings, binding.deviceId ∈ deviceIds s
  capability_device : ∀ capability ∈ s.capabilities, capability.deviceId ∈ deviceIds s
  twin_device : ∀ twin ∈ s.deviceTwins, twin.deviceId ∈ deviceIds s
  cameraProfile_device : ∀ profile ∈ s.cameraProfiles, profile.deviceId ∈ deviceIds s
  streamProfile_device : ∀ profile ∈ s.streamProfiles, profile.deviceId ∈ deviceIds s
  streamProfile_endpoint : ∀ profile ∈ s.streamProfiles,
    profile.endpointId ∈ s.deviceEndpoints.map DeviceEndpoint.endpointId

def BindingOrigin (binding : ProviderBinding) : Prop :=
  (∃ camera, binding ∈ providerBindingsFromCamera camera) ∨
    ∃ deviceId entity syncAt, binding = homeAssistantBinding deviceId entity syncAt

def CapabilityOrigin (capability : CapabilityRecord) : Prop :=
  (∃ camera, capability ∈ capabilityRecordsFromCamera camera) ∨
    ∃ deviceId entity, capability = homeAssistantCapability deviceId entity

/-- What every operation keeps: the ids are made of the id of the owner and an ending, and
every record has the form that the helpers write. -/
structure Sound (parseUrl : UrlParser) (s : DeviceRegistrySnapshot) : Prop where
  devices : Unique ControlDeviceRecord.deviceId s.devices
  endpoints : Owned DeviceEndpoint.deviceId DeviceEndpoint.endpointId endpointSlots (deviceIds s)
    s.deviceEndpoints
  bindings : Owned ProviderBinding.deviceId ProviderBinding.bindingId bindingSlots (deviceIds s)
    s.providerBindings
  capabilities : Owned CapabilityRecord.deviceId CapabilityRecord.capabilityId capabilitySlots
    (deviceIds s) s.capabilities
  streamProfiles : Owned StreamProfile.deviceId StreamProfile.streamProfileId streamProfileSlots
    (deviceIds s) s.streamProfiles
  twins : Unique DeviceTwin.deviceId s.deviceTwins
  twin_device : ∀ id ∈ s.deviceTwins.map DeviceTwin.deviceId, id ∈ deviceIds s
  cameraProfiles : Unique CameraProfile.deviceId s.cameraProfiles
  cameraProfile_device : ∀ id ∈ s.cameraProfiles.map CameraProfile.deviceId, id ∈ deviceIds s
  cameraProfile_default : ∀ profile ∈ s.cameraProfiles,
    profile.defaultStreamProfileId = some (managedCameraPrimaryStreamProfileId profile.deviceId)
  endpoint_origin : ∀ endpoint ∈ s.deviceEndpoints,
    ∃ camera, endpoint ∈ endpointsFromCamera parseUrl camera
  binding_origin : ∀ binding ∈ s.providerBindings, BindingOrigin binding
  capability_origin : ∀ capability ∈ s.capabilities, CapabilityOrigin capability
  streamProfile_origin : ∀ profile ∈ s.streamProfiles,
    ∃ camera, profile = streamProfileFromCamera camera
  streamProfile_endpoint : ∀ profile ∈ s.streamProfiles,
    profile.endpointId ∈ s.deviceEndpoints.map DeviceEndpoint.endpointId

theorem Sound.integrity {parseUrl : UrlParser} {s : DeviceRegistrySnapshot}
    (h : Sound parseUrl s) : Integrity s where
  devices_unique := h.devices
  endpoints_unique := h.endpoints.unique
  bindings_unique := h.bindings.unique
  capabilities_unique := h.capabilities.unique
  twins_unique := h.twins
  cameraProfiles_unique := h.cameraProfiles
  streamProfiles_unique := h.streamProfiles.unique
  endpoint_device := h.endpoints.owner_mem
  binding_device := h.bindings.owner_mem
  capability_device := h.capabilities.owner_mem
  twin_device := fun _ htwin => h.twin_device _ (List.mem_map_of_mem htwin)
  cameraProfile_device := fun _ hprofile => h.cameraProfile_device _ (List.mem_map_of_mem hprofile)
  streamProfile_device := h.streamProfiles.owner_mem
  streamProfile_endpoint := h.streamProfile_endpoint

theorem sound_emptyRegistrySnapshot (parseUrl : UrlParser) :
    Sound parseUrl emptyRegistrySnapshot where
  devices := List.nodup_nil
  endpoints := owned_nil
  bindings := owned_nil
  capabilities := owned_nil
  streamProfiles := owned_nil
  twins := List.nodup_nil
  twin_device := by simp [emptyRegistrySnapshot]
  cameraProfiles := List.nodup_nil
  cameraProfile_device := by simp [emptyRegistrySnapshot]
  cameraProfile_default := by simp [emptyRegistrySnapshot]
  endpoint_origin := by simp [emptyRegistrySnapshot]
  binding_origin := by simp [emptyRegistrySnapshot]
  capability_origin := by simp [emptyRegistrySnapshot]
  streamProfile_origin := by simp [emptyRegistrySnapshot]
  streamProfile_endpoint := by simp [emptyRegistrySnapshot]

section RecordsOfACamera

variable {parseUrl : UrlParser} {camera : CameraDevice} {capability : CapabilityRecord}

theorem endpointIds_fromCamera :
    ((endpointsFromCamera parseUrl camera).map DeviceEndpoint.endpointId).Sublist
      (endpointSlots.map (camera.deviceId ++ ·)) := by
  cases h : camera.ipAddress <;>
    simp [endpointsFromCamera, endpointSlots, h, ipv4EndpointFromCamera,
      streamEndpointFromCamera, managedCameraIpv4EndpointId,
      managedCameraPrimaryStreamEndpointId]

theorem endpoint_deviceId_fromCamera {endpoint : DeviceEndpoint}
    (h : endpoint ∈ endpointsFromCamera parseUrl camera) : endpoint.deviceId = camera.deviceId := by
  simp only [endpointsFromCamera, List.mem_append, Option.mem_toList, Option.map_eq_some_iff,
    List.mem_singleton] at h
  rcases h with ⟨ip, -, rfl⟩ | rfl
  · rfl
  · rfl

theorem bindingIds_fromCamera :
    ((providerBindingsFromCamera camera).map ProviderBinding.bindingId).Sublist
      (managedBindingSlots.map (camera.deviceId ++ ·)) := by
  cases honvif : camera.onvifDeviceServiceUrl <;> cases hezviz : camera.ezvizDeviceSerial <;>
    simp [providerBindingsFromCamera, managedBindingSlots, honvif, hezviz,
      streamBindingFromCamera, onvifBindingFromCamera, ezvizBindingFromCamera]

theorem binding_fromCamera {binding : ProviderBinding}
    (h : binding ∈ providerBindingsFromCamera camera) :
    binding.deviceId = camera.deviceId ∧ binding.providerKey ≠ "home_assistant" := by
  simp only [providerBindingsFromCamera, List.mem_append, Option.mem_toList,
    Option.map_eq_some_iff, List.mem_singleton] at h
  rcases h with (rfl | ⟨url, -, rfl⟩) | ⟨serial, -, rfl⟩
  · refine ⟨rfl, ?_⟩
    simp only [streamBindingFromCamera]
    split <;> decide
  · exact ⟨rfl, by simp [onvifBindingFromCamera]⟩
  · exact ⟨rfl, by simp [ezvizBindingFromCamera]⟩

theorem mem_capabilityRecordsFromCamera :
    capability ∈ capabilityRecordsFromCamera camera ↔
      camera.capabilities.snapshot = true ∧
          capability = capabilityFromCamera camera "snapshot" .media ∨
        camera.capabilities.stream = true ∧
          capability = capabilityFromCamera camera "stream_live" .stream ∨
        camera.capabilities.ptz = true ∧
          capability = capabilityFromCamera camera "ptz" .control ∨
        camera.capabilities.audio = true ∧
          capability = capabilityFromCamera camera "audio" .media := by
  have hone : ∀ (b : Bool) (item : CapabilityRecord),
      capability ∈ (if b = true then [item] else []) ↔ b = true ∧ capability = item := by
    intro b item
    cases b <;> simp
  simp only [capabilityRecordsFromCamera, List.mem_append, hone, or_assoc]

theorem capability_fromCamera (h : capability ∈ capabilityRecordsFromCamera camera) :
    capability.deviceId = camera.deviceId ∧
      capability.capabilityCode ∈ managedCapabilityCodes ∧
      capability.capabilityId =
        camera.deviceId ++ "::capability::" ++ capability.capabilityCode ∧
      capability.sourceBindingId = some (camera.deviceId ++ "::binding::stream") := by
  rcases mem_capabilityRecordsFromCamera.mp h with ⟨-, rfl⟩ | ⟨-, rfl⟩ | ⟨-, rfl⟩ | ⟨-, rfl⟩ <;>
    exact ⟨rfl, by simp [capabilityFromCamera, managedCapabilityCodes], rfl, rfl⟩

theorem capabilityIds_fromCamera :
    ((capabilityRecordsFromCamera camera).map CapabilityRecord.capabilityId).Sublist
      (managedCapabilitySlots.map (camera.deviceId ++ ·)) := by
  have hone : ∀ (b : Bool) (code slot : String) (category : CapabilityCategory),
      "::capability::" ++ code = slot →
      ((if b = true then [capabilityFromCamera camera code category] else []).map
        CapabilityRecord.capabilityId).Sublist [camera.deviceId ++ slot] := by
    rintro b code slot category rfl
    cases b <;> simp [capabilityFromCamera, String.append_assoc]
  simp only [capabilityRecordsFromCamera, List.map_append]
  exact (((hone _ _ "::capability::snapshot" _ (by decide)).append
    (hone _ _ "::capability::stream_live" _ (by decide))).append
    (hone _ _ "::capability::ptz" _ (by decide))).append
    (hone _ _ "::capability::audio" _ (by decide))

end RecordsOfACamera

section CameraUpsert

variable (parseUrl : UrlParser) (s : DeviceRegistrySnapshot) (camera : CameraDevice)
  {profile : StreamProfile} {id : String}

theorem devices_upsertCameraDevice :
    (upsertCameraDevice parseUrl s camera).devices =
      upsertKey ControlDeviceRecord.deviceId camera.deviceId (updateCameraRecord camera)
        (deviceRecordFromCamera camera (normalizeDiscoverySource camera.discoverySource))
        s.devices := rfl

theorem endpoints_upsertCameraDevice :
    (upsertCameraDevice parseUrl s camera).deviceEndpoints =
      (s.deviceEndpoints.filter fun endpoint =>
        endpoint.endpointId ∉ managedCameraEndpointIds camera.deviceId) ++
      endpointsFromCamera parseUrl camera := rfl

theorem bindings_upsertCameraDevice :
    (upsertCameraDevice parseUrl s camera).providerBindings =
      (s.providerBindings.filter fun binding =>
        binding.bindingId ∉ managedProviderBindingIds camera.deviceId) ++
      providerBindingsFromCamera camera := rfl

theorem capabilities_upsertCameraDevice :
    (upsertCameraDevice parseUrl s camera).capabilities =
      (s.capabilities.filter fun capability =>
        !(capability.deviceId = camera.deviceId &&
          capability.capabilityCode ∈ managedCapabilityCodes)) ++
      capabilityRecordsFromCamera camera := rfl

theorem streamProfiles_upsertCameraDevice :
    (upsertCameraDevice parseUrl s camera).streamProfiles =
      (s.streamProfiles.filter fun profile =>
        !(profile.deviceId = camera.deviceId &&
          profile.streamProfileId = managedCameraPrimaryStreamProfileId camera.deviceId)) ++
      [streamProfileFromCamera camera] := rfl

theorem mem_deviceIds_upsertCameraDevice :
    id ∈ deviceIds (upsertCameraDevice parseUrl s camera) ↔
      id ∈ deviceIds s ∨ id = camera.deviceId := by
  rw [deviceIds, devices_upsertCameraDevice]
  exact mem_map_key_upsertKey (by intro _; rfl) (by rfl)

theorem mem_deviceIds_of_upsertCameraDevice (hid : id ∈ deviceIds s) :
    id ∈ deviceIds (upsertCameraDevice parseUrl s camera) :=
  (mem_deviceIds_upsertCameraDevice parseUrl s camera).mpr (Or.inl hid)

theorem camera_mem_deviceIds :
    camera.deviceId ∈ deviceIds (upsertCameraDevice parseUrl s camera) :=
  (mem_deviceIds_upsertCameraDevice parseUrl s camera).mpr (Or.inr rfl)

variable {parseUrl s}

theorem Sound.endpoints_upsert (h : Sound parseUrl s) :
    Owned DeviceEndpoint.deviceId DeviceEndpoint.endpointId endpointSlots
      (deviceIds (upsertCameraDevice parseUrl s camera))
      (upsertCameraDevice parseUrl s camera).deviceEndpoints := by
  rw [endpoints_upsertCameraDevice]
  refine (h.endpoints.mono fun id hid =>
      mem_deviceIds_of_upsertCameraDevice parseUrl s camera hid).replace
    independent_endpointSlots (fun _ hslot => hslot) (by decide)
    (camera_mem_deviceIds parseUrl s camera)
    (fun _ hendpoint => endpoint_deviceId_fromCamera hendpoint) endpointIds_fromCamera ?_
  intro endpoint hendpoint hkeep _ slot hslot heq
  refine of_decide_eq_true hkeep ?_
  rw [heq]
  exact List.mem_map_of_mem (f := (camera.deviceId ++ ·)) hslot

theorem Sound.bindings_upsert (h : Sound parseUrl s) :
    Owned ProviderBinding.deviceId ProviderBinding.bindingId bindingSlots
      (deviceIds (upsertCameraDevice parseUrl s camera))
      (upsertCameraDevice parseUrl s camera).providerBindings := by
  rw [bindings_upsertCameraDevice]
  refine (h.bindings.mono fun id hid =>
      mem_deviceIds_of_upsertCameraDevice parseUrl s camera hid).replace
    independent_bindingSlots (fun _ hslot => List.mem_append_left _ hslot) (by decide)
    (camera_mem_deviceIds parseUrl s camera)
    (fun _ hbinding => (binding_fromCamera hbinding).1) bindingIds_fromCamera ?_
  intro binding hbinding hkeep _ slot hslot heq
  refine of_decide_eq_true hkeep ?_
  rw [heq]
  exact List.mem_map_of_mem (f := (camera.deviceId ++ ·)) hslot

theorem CapabilityOrigin.code_managed {capability : CapabilityRecord}
    (h : CapabilityOrigin capability) {slot : String} (hslot : slot ∈ managedCapabilitySlots)
    (hid : capability.capabilityId = capability.deviceId ++ slot) :
    capability.capabilityCode ∈ managedCapabilityCodes := by
  rcases h with ⟨camera, hcamera⟩ | ⟨deviceId, entity, rfl⟩
  · exact (capability_fromCamera hcamera).2.1
  · have hsame := (eq_of_append_slot independent_capabilitySlots
      (List.mem_append_right _ List.mem_cons_self) (List.mem_append_left _ hslot) hid).2
    rw [← hsame] at hslot
    exact absurd hslot (by decide)

theorem Sound.capabilities_upsert (h : Sound parseUrl s) :
    Owned CapabilityRecord.deviceId CapabilityRecord.capabilityId capabilitySlots
      (deviceIds (upsertCameraDevice parseUrl s camera))
      (upsertCameraDevice parseUrl s camera).capabilities := by
  rw [capabilities_upsertCameraDevice]
  refine (h.capabilities.mono fun id hid =>
      mem_deviceIds_of_upsertCameraDevice parseUrl s camera hid).replace
    independent_capabilitySlots (fun _ hslot => List.mem_append_left _ hslot) (by decide)
    (camera_mem_deviceIds parseUrl s camera)
    (fun _ hcapability => (capability_fromCamera hcapability).1) capabilityIds_fromCamera ?_
  intro capability hcapability hkeep howner slot hslot heq
  have hcode := (h.capability_origin capability hcapability).code_managed hslot
    (by rw [howner]; exact heq)
  simp [howner, hcode] at hkeep

theorem Sound.streamProfiles_upsert (h : Sound parseUrl s) :
    Owned StreamProfile.deviceId StreamProfile.streamProfileId streamProfileSlots
      (deviceIds (upsertCameraDevice parseUrl s camera))
      (upsertCameraDevice parseUrl s camera).streamProfiles := by
  rw [streamProfiles_upsertCameraDevice]
  refine (h.streamProfiles.mono fun id hid =>
      mem_deviceIds_of_upsertCameraDevice parseUrl s camera hid).replace
    independent_streamProfileSlots (fun _ hslot => hslot) (by decide)
    (camera_mem_deviceIds parseUrl s camera) ?_ (List.Sublist.refl _) ?_
  · intro profile hprofile
    rw [List.mem_singleton.mp hprofile]
    rfl
  · intro profile hprofile hkeep howner slot hslot heq
    rw [List.mem_singleton.mp hslot] at heq
    simp [howner, heq, managedCameraPrimaryStreamProfileId] at hkeep

theorem StreamProfile.endpointId_fromCamera (h : ∃ camera, profile = streamProfileFromCamera camera)
    :
    profile.endpointId = managedCameraPrimaryStreamEndpointId profile.deviceId := by
  obtain ⟨camera, rfl⟩ := h
  rfl

theorem primary_mem_endpointIds_fromCamera :
    managedCameraPrimaryStreamEndpointId camera.deviceId ∈
      (endpointsFromCamera parseUrl camera).map DeviceEndpoint.endpointId := by
  rw [endpointsFromCamera, List.map_append]
  exact List.mem_append_right _ List.mem_cons_self

theorem Sound.streamProfile_endpoint_upsert (h : Sound parseUrl s)
    (hprofile : profile ∈ (upsertCameraDevice parseUrl s camera).streamProfiles) :
    profile.endpointId ∈
      (upsertCameraDevice parseUrl s camera).deviceEndpoints.map DeviceEndpoint.endpointId := by
  rw [streamProfiles_upsertCameraDevice] at hprofile
  rw [endpoints_upsertCameraDevice, List.map_append]
  rcases List.mem_append.mp hprofile with hold | hnew
  · obtain ⟨hmem, hkeep⟩ := List.mem_filter.mp hold
    have hid := StreamProfile.endpointId_fromCamera (h.streamProfile_origin profile hmem)
    obtain ⟨endpoint, hendpoint, heq⟩ := List.mem_map.mp (h.streamProfile_endpoint profile hmem)
    obtain ⟨slot, hslot, hkey⟩ := h.streamProfiles.key_eq profile hmem
    rw [List.mem_singleton.mp hslot] at hkey
    have hother : profile.deviceId ≠ camera.deviceId := by
      intro howner
      simp [howner, hkey, managedCameraPrimaryStreamProfileId] at hkeep
    refine List.mem_append_left _ ?_
    rw [← heq]
    refine List.mem_map_of_mem (List.mem_filter.mpr ⟨hendpoint, ?_⟩)
    rw [decide_eq_true_eq, heq, hid]
    intro hmanaged
    -- an endpoint that is cleared belongs to the camera
    obtain ⟨other, hother', hsame⟩ : ∃ slot ∈ endpointSlots,
        camera.deviceId ++ slot = managedCameraPrimaryStreamEndpointId profile.deviceId :=
      List.mem_map.mp hmanaged
    exact hother (eq_of_append_slot independent_endpointSlots hother'
      (List.mem_cons_of_mem _ List.mem_cons_self) hsame).1.symm
  · rw [List.mem_singleton.mp hnew]
    exact List.mem_append_right _ (primary_mem_endpointIds_fromCamera camera)

theorem Sound.upsertCameraDevice (h : Sound parseUrl s) :
    Sound parseUrl (upsertCameraDevice parseUrl s camera) where
  devices := h.devices.upsertKey (fun _ => rfl) rfl
  endpoints := h.endpoints_upsert camera
  bindings := h.bindings_upsert camera
  capabilities := h.capabilities_upsert camera
  streamProfiles := h.streamProfiles_upsert camera
  twins := h.twins.upsertKey (fun _ => rfl) rfl
  twin_device := by
    intro id hid
    rcases (mem_map_key_upsertKey (by intro _; rfl) (by rfl)).mp hid with hold | rfl
    · exact mem_deviceIds_of_upsertCameraDevice parseUrl s camera (h.twin_device id hold)
    · exact camera_mem_deviceIds parseUrl s camera
  cameraProfiles := h.cameraProfiles.upsertKey (fun _ => rfl) rfl
  cameraProfile_device := by
    intro id hid
    rcases (mem_map_key_upsertKey (by intro _; rfl) (by rfl)).mp hid with hold | rfl
    · exact mem_deviceIds_of_upsertCameraDevice parseUrl s camera (h.cameraProfile_device id hold)
    · exact camera_mem_deviceIds parseUrl s camera
  cameraProfile_default := by
    intro profile hprofile
    by_cases hid : profile.deviceId = camera.deviceId
    · rcases mem_upsertKey_of_eq h.cameraProfiles hprofile hid with ⟨rfl, -⟩ | ⟨old, -, hold, rfl⟩
      · rfl
      · exact congrArg (fun id => some (managedCameraPrimaryStreamProfileId id)) hold.symm
    · exact h.cameraProfile_default profile
        ((mem_upsertKey_of_ne (by intro _; rfl) (by rfl) hid).mp hprofile)
  endpoint_origin := by
    intro endpoint hendpoint
    rcases List.mem_append.mp hendpoint with hold | hnew
    · exact h.endpoint_origin endpoint (List.mem_filter.mp hold).1
    · exact ⟨camera, hnew⟩
  binding_origin := by
    intro binding hbinding
    rcases List.mem_append.mp hbinding with hold | hnew
    · exact h.binding_origin binding (List.mem_filter.mp hold).1
    · exact Or.inl ⟨camera, hnew⟩
  capability_origin := by
    intro capability hcapability
    rcases List.mem_append.mp hcapability with hold | hnew
    · exact h.capability_origin capability (List.mem_filter.mp hold).1
    · exact Or.inl ⟨camera, hnew⟩
  streamProfile_origin := by
    intro profile hprofile
    rcases List.mem_append.mp hprofile with hold | hnew
    · exact h.streamProfile_origin profile (List.mem_filter.mp hold).1
    · exact ⟨camera, List.mem_singleton.mp hnew⟩
  streamProfile_endpoint := fun _ hprofile => h.streamProfile_endpoint_upsert camera hprofile

end CameraUpsert

section HomeAssistantUpsert

variable (s : DeviceRegistrySnapshot) (deviceId : String)
  (entity : HomeAssistantRegistryEntity) (syncAt : String) {id : String}

theorem bindings_upsertHomeAssistantDevice :
    (upsertHomeAssistantDevice s deviceId entity syncAt).providerBindings =
      (s.providerBindings.filter fun binding =>
        !(binding.deviceId = deviceId && binding.providerKey = "home_assistant")) ++
      [homeAssistantBinding deviceId entity syncAt] := rfl

theorem capabilities_upsertHomeAssistantDevice :
    (upsertHomeAssistantDevice s deviceId entity syncAt).capabilities =
      (s.capabilities.filter fun capability =>
        !(capability.deviceId = deviceId &&
          capability.sourceBindingId = some (homeAssistantBindingId deviceId))) ++
      [homeAssistantCapability deviceId entity] := rfl

theorem mem_deviceIds_upsertHomeAssistantDevice :
    id ∈ deviceIds (upsertHomeAssistantDevice s deviceId entity syncAt) ↔
      id ∈ deviceIds s ∨ id = deviceId :=
  mem_map_key_upsertKey (by intro _; rfl) (by rfl)

theorem mem_deviceIds_of_upsertHomeAssistantDevice (hid : id ∈ deviceIds s) :
    id ∈ deviceIds (upsertHomeAssistantDevice s deviceId entity syncAt) :=
  (mem_deviceIds_upsertHomeAssistantDevice s deviceId entity syncAt).mpr (Or.inl hid)

theorem entity_mem_deviceIds :
    deviceId ∈ deviceIds (upsertHomeAssistantDevice s deviceId entity syncAt) :=
  (mem_deviceIds_upsertHomeAssistantDevice s deviceId entity syncAt).mpr (Or.inr rfl)

theorem BindingOrigin.key_homeAssistant {binding : ProviderBinding} (h : BindingOrigin binding)
    (hid : binding.bindingId = binding.deviceId ++ "::binding::home_assistant") :
    binding.providerKey = "home_assistant" := by
  rcases h with ⟨camera, hcamera⟩ | ⟨deviceId, entity, syncAt, rfl⟩
  · obtain ⟨slot, hslot, heq⟩ :=
      List.mem_map.mp (bindingIds_fromCamera.subset (List.mem_map_of_mem hcamera))
    have hsame := (eq_of_append_slot independent_bindingSlots (List.mem_append_left _ hslot)
      (List.mem_append_right _ List.mem_cons_self) (heq.trans hid)).2
    rw [hsame] at hslot
    exact absurd hslot (by decide)
  · rfl

theorem CapabilityOrigin.source_homeAssistant {capability : CapabilityRecord}
    (h : CapabilityOrigin capability)
    (hid : capability.capabilityId = capability.deviceId ++ "::capability::ha_state") :
    capability.sourceBindingId = some (homeAssistantBindingId capability.deviceId) := by
  rcases h with ⟨camera, hcamera⟩ | ⟨deviceId, entity, rfl⟩
  · obtain ⟨slot, hslot, heq⟩ :=
      List.mem_map.mp (capabilityIds_fromCamera.subset (List.mem_map_of_mem hcamera))
    have hsame := (eq_of_append_slot independent_capabilitySlots (List.mem_append_left _ hslot)
      (List.mem_append_right _ List.mem_cons_self) (heq.trans hid)).2
    rw [hsame] at hslot
    exact absurd hslot (by decide)
  · rfl

variable {parseUrl : UrlParser} {s}

theorem Sound.bindings_upsertHomeAssistant (h : Sound parseUrl s) :
    Owned ProviderBinding.deviceId ProviderBinding.bindingId bindingSlots
      (deviceIds (upsertHomeAssistantDevice s deviceId entity syncAt))
      (upsertHomeAssistantDevice s deviceId entity syncAt).providerBindings := by
  rw [bindings_upsertHomeAssistantDevice]
  refine (h.bindings.mono fun id hid =>
      mem_deviceIds_of_upsertHomeAssistantDevice s deviceId entity syncAt hid).replace
    independent_bindingSlots
    (fun _ hslot => List.mem_append_right managedBindingSlots hslot) (by decide)
    (entity_mem_deviceIds s deviceId entity syncAt) ?_ (List.Sublist.refl _) ?_
  · intro binding hbinding
    rw [List.mem_singleton.mp hbinding]
    rfl
  · intro binding hbinding hkeep howner slot hslot heq
    rw [List.mem_singleton.mp hslot, ← howner] at heq
    have hkey := (h.binding_origin binding hbinding).key_homeAssistant heq
    simp [howner, hkey] at hkeep

theorem Sound.capabilities_upsertHomeAssistant (h : Sound parseUrl s) :
    Owned CapabilityRecord.deviceId CapabilityRecord.capabilityId capabilitySlots
      (deviceIds (upsertHomeAssistantDevice s deviceId entity syncAt))
      (upsertHomeAssistantDevice s deviceId entity syncAt).capabilities := by
  rw [capabilities_upsertHomeAssistantDevice]
  refine (h.capabilities.mono fun id hid =>
      mem_deviceIds_of_upsertHomeAssistantDevice s deviceId entity syncAt hid).replace
    independent_capabilitySlots
    (fun _ hslot => List.mem_append_right managedCapabilitySlots hslot) (by decide)
    (entity_mem_deviceIds s deviceId entity syncAt) ?_ (List.Sublist.refl _) ?_
  · intro capability hcapability
    rw [List.mem_singleton.mp hcapability]
    rfl
  · intro capability hcapability hkeep howner slot hslot heq
    rw [List.mem_singleton.mp hslot, ← howner] at heq
    have hsource := (h.capability_origin capability hcapability).source_homeAssistant heq
    simp [howner, hsource] at hkeep

theorem Sound.upsertHomeAssistantDevice (h : Sound parseUrl s) :
    Sound parseUrl (upsertHomeAssistantDevice s deviceId entity syncAt) where
  devices := h.devices.upsertKey (fun _ => rfl) rfl
  endpoints := h.endpoints.mono fun _ hid =>
    mem_deviceIds_of_upsertHomeAssistantDevice s deviceId entity syncAt hid
  bindings := h.bindings_upsertHomeAssistant deviceId entity syncAt
  capabilities := h.capabilities_upsertHomeAssistant deviceId entity syncAt
  streamProfiles := h.streamProfiles.mono fun _ hid =>
    mem_deviceIds_of_upsertHomeAssistantDevice s deviceId entity syncAt hid
  twins := h.twins.upsertKey (fun _ => rfl) rfl
  twin_device := by
    intro id hid
    rcases (mem_map_key_upsertKey (by intro _; rfl) (by rfl)).mp hid with hold | rfl
    · exact mem_deviceIds_of_upsertHomeAssistantDevice s deviceId entity syncAt
        (h.twin_device id hold)
    · exact entity_mem_deviceIds s _ entity syncAt
  cameraProfiles := h.cameraProfiles
  cameraProfile_device := fun id hid =>
    mem_deviceIds_of_upsertHomeAssistantDevice s deviceId entity syncAt
      (h.cameraProfile_device id hid)
  cameraProfile_default := h.cameraProfile_default
  endpoint_origin := h.endpoint_origin
  binding_origin := by
    intro binding hbinding
    rcases List.mem_append.mp hbinding with hold | hnew
    · exact h.binding_origin binding (List.mem_filter.mp hold).1
    · exact Or.inr ⟨deviceId, entity, syncAt, List.mem_singleton.mp hnew⟩
  capability_origin := by
    intro capability hcapability
    rcases List.mem_append.mp hcapability with hold | hnew
    · exact h.capability_origin capability (List.mem_filter.mp hold).1
    · exact Or.inr ⟨deviceId, entity, List.mem_singleton.mp hnew⟩
  streamProfile_origin := h.streamProfile_origin
  streamProfile_endpoint := h.streamProfile_endpoint

end HomeAssistantUpsert

section Prune

variable {parseUrl : UrlParser} {s : DeviceRegistrySnapshot} (remove : ControlDeviceRecord → Bool)

def removedIds (s : DeviceRegistrySnapshot) (remove : ControlDeviceRecord → Bool) : List String :=
  (s.devices.filter remove).map ControlDeviceRecord.deviceId

def restrict (s : DeviceRegistrySnapshot) (keep : String → Bool) : DeviceRegistrySnapshot :=
  { s with
    devices := s.devices.filter fun device => keep device.deviceId
    deviceEndpoints := s.deviceEndpoints.filter fun endpoint => keep endpoint.deviceId
    providerBindings := s.providerBindings.filter fun binding => keep binding.deviceId
    capabilities := s.capabilities.filter fun capability => keep capability.deviceId
    deviceTwins := s.deviceTwins.filter fun twin => keep twin.deviceId
    cameraProfiles := s.cameraProfiles.filter fun profile => keep profile.deviceId
    streamProfiles := s.streamProfiles.filter fun profile => keep profile.deviceId }

theorem pruneDevices_eq :
    pruneDevices s remove = restrict s fun id => id ∉ removedIds s remove := by
  rw [pruneDevices]
  split
  · rename_i hempty
    rw [removedIds, List.isEmpty_iff.mp hempty]
    simp [restrict]
  · rfl

theorem mem_deviceIds_restrict {keep : String → Bool} {id : String} :
    id ∈ deviceIds (restrict s keep) ↔ id ∈ deviceIds s ∧ keep id = true := by
  simp only [deviceIds, restrict, List.mem_map, List.mem_filter]
  constructor
  · rintro ⟨device, ⟨hmem, hkeep⟩, rfl⟩
    exact ⟨⟨device, hmem, rfl⟩, hkeep⟩
  · rintro ⟨⟨device, hmem, rfl⟩, hkeep⟩
    exact ⟨device, ⟨hmem, hkeep⟩, rfl⟩

theorem Sound.restrict (h : Sound parseUrl s) (keep : String → Bool) :
    Sound parseUrl (restrict s keep) := by
  have hdevice : ∀ {id : String}, id ∈ deviceIds s → keep id = true →
      id ∈ deviceIds (RegistryIntegrity.restrict s keep) := fun hid hkeep =>
    mem_deviceIds_restrict.mpr ⟨hid, hkeep⟩
  exact {
    devices := h.devices.filter _
    endpoints := h.endpoints.prune fun endpoint hmem hkeep =>
      hdevice (h.endpoints.owner_mem endpoint hmem) hkeep
    bindings := h.bindings.prune fun binding hmem hkeep =>
      hdevice (h.bindings.owner_mem binding hmem) hkeep
    capabilities := h.capabilities.prune fun capability hmem hkeep =>
      hdevice (h.capabilities.owner_mem capability hmem) hkeep
    streamProfiles := h.streamProfiles.prune fun profile hmem hkeep =>
      hdevice (h.streamProfiles.owner_mem profile hmem) hkeep
    twins := h.twins.filter _
    twin_device := by
      intro id hid
      obtain ⟨twin, htwin, rfl⟩ := List.mem_map.mp hid
      obtain ⟨hmem, hkeep⟩ := List.mem_filter.mp htwin
      exact hdevice (h.twin_device _ (List.mem_map_of_mem hmem)) hkeep
    cameraProfiles := h.cameraProfiles.filter _
    cameraProfile_device := by
      intro id hid
      obtain ⟨profile, hprofile, rfl⟩ := List.mem_map.mp hid
      obtain ⟨hmem, hkeep⟩ := List.mem_filter.mp hprofile
      exact hdevice (h.cameraProfile_device _ (List.mem_map_of_mem hmem)) hkeep
    cameraProfile_default := fun profile hprofile =>
      h.cameraProfile_default profile (List.mem_filter.mp hprofile).1
    endpoint_origin := fun endpoint hendpoint =>
      h.endpoint_origin endpoint (List.mem_filter.mp hendpoint).1
    binding_origin := fun binding hbinding =>
      h.binding_origin binding (List.mem_filter.mp hbinding).1
    capability_origin := fun capability hcapability =>
      h.capability_origin capability (List.mem_filter.mp hcapability).1
    streamProfile_origin := fun profile hprofile =>
      h.streamProfile_origin profile (List.mem_filter.mp hprofile).1
    streamProfile_endpoint := by
      intro profile hprofile
      obtain ⟨hmem, hkeep⟩ := List.mem_filter.mp hprofile
      obtain ⟨endpoint, hendpoint, heq⟩ := List.mem_map.mp (h.streamProfile_endpoint profile hmem)
      have hid := StreamProfile.endpointId_fromCamera (h.streamProfile_origin profile hmem)
      -- the endpoint goes only with the device of the profile
      have howner : endpoint.deviceId = profile.deviceId :=
        h.endpoints.owner_eq independent_endpointSlots hendpoint
          (List.mem_cons_of_mem _ List.mem_cons_self) (heq.trans hid)
      rw [← heq]
      refine List.mem_map_of_mem (List.mem_filter.mpr ⟨hendpoint, ?_⟩)
      rw [howner]
      exact hkeep }

theorem Sound.pruneDevices (h : Sound parseUrl s) : Sound parseUrl (pruneDevices s remove) := by
  rw [pruneDevices_eq]
  exact h.restrict _

end Prune

section Runs

variable (parseUrl : UrlParser)

inductive RegistryOperation where
  | upsertCameraDevices (devices : List CameraDevice)
  | replaceCameraDevices (devices : List CameraDevice)
  | upsertHomeAssistant (entities : List HomeAssistantRegistryEntity) (syncAt : String)

def applyOperation (s : DeviceRegistrySnapshot) : RegistryOperation → DeviceRegistrySnapshot
  | .upsertCameraDevices devices =>
      upsertCameraDevicesPreservingPlatformRecords parseUrl s devices
  | .replaceCameraDevices devices =>
      replaceCameraDevicesPreservingPlatformRecords parseUrl s devices
  | .upsertHomeAssistant entities syncAt => upsertHomeAssistantEntities s syncAt entities

def registryAfter (operations : List RegistryOperation) : DeviceRegistrySnapshot :=
  operations.foldl (applyOperation parseUrl) emptyRegistrySnapshot

variable {parseUrl} {s : DeviceRegistrySnapshot}

theorem Sound.foldl {α : Type} {f : DeviceRegistrySnapshot → α → DeviceRegistrySnapshot}
    (hf : ∀ s a, Sound parseUrl s → Sound parseUrl (f s a)) (items : List α)
    (h : Sound parseUrl s) : Sound parseUrl (items.foldl f s) := by
  induction items generalizing s with
  | nil => exact h
  | cons a rest ih => exact ih (hf s a h)

theorem Sound.upsertCameraDevices (h : Sound parseUrl s) (devices : List CameraDevice) :
    Sound parseUrl (upsertCameraDevicesPreservingPlatformRecords parseUrl s devices) :=
  h.foldl (fun _ _ hs => hs.upsertCameraDevice _) _

theorem Sound.applyOperation (h : Sound parseUrl s) (operation : RegistryOperation) :
    Sound parseUrl (applyOperation parseUrl s operation) := by
  cases operation with
  | upsertCameraDevices devices => exact h.upsertCameraDevices devices
  | replaceCameraDevices devices => exact (h.upsertCameraDevices _).pruneDevices _
  | upsertHomeAssistant entities syncAt =>
      exact (h.foldl (fun _ _ hs => hs.upsertHomeAssistantDevice _ _ _) entities).pruneDevices _

theorem sound_registryAfter (operations : List RegistryOperation) :
    Sound parseUrl (registryAfter parseUrl operations) :=
  (sound_emptyRegistrySnapshot parseUrl).foldl (fun _ operation hs => hs.applyOperation operation)
    operations

/-- After any calls the ids of each table are unique, every record refers to a device that
exists, and every stream profile to an endpoint that exists. -/
theorem integrity_registryAfter (parseUrl : UrlParser) (operations : List RegistryOperation) :
    Integrity (registryAfter parseUrl operations) :=
  (sound_registryAfter operations).integrity

end Runs

end HarborBeacon.RegistryIntegrity
