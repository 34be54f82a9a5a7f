import HarborBeacon.FilledTables
import HarborBeacon.RegistryViews

/-!
A list of cameras written into the tables of the registry and read back. Every record of a camera
carries its device id, so each camera is read from its own records; all of it comes back but the
EZVIZ camera number of a camera without an EZVIZ serial.
-/

namespace HarborBeacon.RegistryRoundTrip

open DeviceRegistry Json Json.Value OwnedTables RegistryIntegrity RegistryViews Text

section Tables

variable (parseUrl : UrlParser) (cameras : List CameraDevice)

theorem fromCameraDevices_eq :
    fromCameraDevices parseUrl cameras =
      { schemaVersion := defaultRegistrySchemaVersion
        devices := cameras.map fun camera => deviceRecordFromCamera camera camera.discoverySource
        deviceEndpoints := cameras.flatMap (endpointsFromCamera parseUrl)
        providerBindings := cameras.flatMap providerBindingsFromCamera
        capabilities := cameras.flatMap capabilityRecordsFromCamera
        deviceTwins := cameras.map twinFromCamera
        cameraProfiles := cameras.map cameraProfileFromCamera
        streamProfiles := cameras.map streamProfileFromCamera } := by
  induction cameras using List.reverseRecOn with
  | nil => rfl
  | append_singleton cameras camera ih =>
      rw [fromCameraDevices, List.foldl_concat]
      rw [fromCameraDevices] at ih
      rw [ih]
      simp only [List.map_append, List.map_singleton, List.flatMap_append, List.flatMap_singleton]

end Tables

section OneCamera

structure BindingReads (camera : CameraDevice) (bindings : List ProviderBinding) : Prop where
  stream : bindings.find? (fun binding =>
    binding.providerKey ∈ ["rtsp", "hls", "webrtc", "stream"]) =
      some (streamBindingFromCamera camera)
  onvif : bindings.find? (fun binding => binding.providerKey = "onvif") =
    camera.onvifDeviceServiceUrl.map (onvifBindingFromCamera camera)
  ezviz : bindings.find? (fun binding => binding.providerKey = "ezviz") =
    camera.ezvizDeviceSerial.map (ezvizBindingFromCamera camera)

variable {parseUrl : UrlParser} {camera : CameraDevice}

theorem find?_streamBinding_ne {key : String} (hkey : key ∉ ["rtsp", "hls", "webrtc", "stream"])
    (rest : List ProviderBinding) :
    (streamBindingFromCamera camera :: rest).find? (fun binding => binding.providerKey = key) =
      rest.find? fun binding => binding.providerKey = key := by
  rw [List.find?_cons_of_neg]
  intro heq
  exact hkey (of_decide_eq_true heq ▸ providerKey_streamBinding)

theorem bindingReads_providerBindingsFromCamera :
    BindingReads camera (providerBindingsFromCamera camera) := by
  constructor
  · exact List.find?_cons_of_pos (decide_eq_true providerKey_streamBinding)
  · rw [providerBindingsFromCamera, List.append_assoc, List.singleton_append,
      find?_streamBinding_ne (by decide)]
    cases camera.onvifDeviceServiceUrl <;> cases camera.ezvizDeviceSerial <;> rfl
  · rw [providerBindingsFromCamera, List.append_assoc, List.singleton_append,
      find?_streamBinding_ne (by decide)]
    cases camera.onvifDeviceServiceUrl <;> cases camera.ezvizDeviceSerial <;> rfl

theorem capabilities_readBack :
    cameraCapabilitiesFromRecords (capabilityRecordsFromCamera camera) = camera.capabilities := by
  rw [capabilityRecordsFromCamera]
  obtain ⟨snapshot, stream, ptz, audio⟩ := camera.capabilities
  cases snapshot <;> cases stream <;> cases ptz <;> cases audio <;> rfl

theorem status_readBack (status : DeviceStatus) :
    connectivityToLegacyStatus (legacyStatusToConnectivity status) = status := by
  cases status <;> rfl

theorem transport_readBack (transport : StreamTransport) :
    controlStreamTransportToLegacy (legacyStreamTransportToControl transport) = transport := by
  cases transport <;> rfl

theorem vendorFeatures_of_no_snapshotUrl (h : camera.snapshotUrl = none) :
    ∃ fields, tapoVendorFeatures camera none = .object fields ∧
      lookupField "native_snapshot_url" fields = none ∧
      lookupField "native_snapshot" fields = none := by
  rw [tapoVendorFeatures, h]
  refine ⟨_, rfl, ?_⟩
  split
  · exact ⟨by simp [lookupField], by simp [lookupField]⟩
  · exact ⟨rfl, rfl⟩

theorem snapshotUrl_readBack :
    (((streamBindingFromCamera camera).metadata.get "snapshot_url").bind asStr).or
      (nativeSnapshotUrlFromCameraProfile (some (cameraProfileFromCamera camera))) =
    camera.snapshotUrl := by
  have hstored : (streamBindingFromCamera camera).metadata.get "snapshot_url" =
      some (Value.ofOption camera.snapshotUrl) := by
    simp [streamBindingFromCamera, obj, Value.get]
  rw [hstored, Option.bind_some]
  cases hurl : camera.snapshotUrl with
  | some url => rfl
  | none =>
      obtain ⟨fields, hfeatures, hnative, hnested⟩ := vendorFeatures_of_no_snapshotUrl hurl
      have hread : nativeSnapshotUrlFromCameraProfile (some (cameraProfileFromCamera camera)) =
          none := by
        rw [nativeSnapshotUrlFromCameraProfile, Option.bind_some, cameraProfileFromCamera,
          hfeatures, Value.get, hnative, pointer_cons_object, hnested]
        rfl
      rw [hread]
      rfl

theorem onvif_readBack :
    ((camera.onvifDeviceServiceUrl.map (onvifBindingFromCamera camera)).bind fun binding =>
      (binding.metadata.get "device_service_url").bind asStr) = camera.onvifDeviceServiceUrl := by
  cases camera.onvifDeviceServiceUrl with
  | none => rfl
  | some url => simp [onvifBindingFromCamera, obj, Value.get, asStr]

theorem ezvizSerial_readBack :
    (camera.ezvizDeviceSerial.map (ezvizBindingFromCamera camera)).bind (·.remoteDeviceId) =
      camera.ezvizDeviceSerial := by
  cases camera.ezvizDeviceSerial <;> rfl

theorem ezvizCameraNo_readBack :
    ((camera.ezvizDeviceSerial.map (ezvizBindingFromCamera camera)).bind fun binding =>
      ((binding.metadata.get "camera_no").bind asU64).map UInt64.toUInt32) =
    camera.ezvizDeviceSerial.bind fun _ => camera.ezvizCameraNo := by
  cases camera.ezvizDeviceSerial with
  | none => rfl
  | some serial =>
      have hstored : (ezvizBindingFromCamera camera serial).metadata.get "camera_no" =
          some (ofOptionU64 (camera.ezvizCameraNo.map UInt32.toUInt64)) := by
        simp [ezvizBindingFromCamera, obj, Value.get]
      rw [Option.map_some, Option.bind_some, Option.bind_some, hstored, Option.bind_some]
      cases camera.ezvizCameraNo with
      | none => rfl
      | some number => exact congrArg some number.toUInt32_toUInt64

theorem ipAddress_readBack :
    ((endpointsFromCamera parseUrl camera).find? fun item =>
      item.deviceId = camera.deviceId && item.endpointKind = .ipv4).map (·.host) =
      camera.ipAddress := by
  rw [endpointsFromCamera]
  cases camera.ipAddress with
  | none =>
      have hkind : (streamEndpointFromCamera parseUrl camera
          (managedCameraPrimaryStreamEndpointId camera.deviceId)).endpointKind ≠ .ipv4 := by
        simp only [streamEndpointFromCamera]
        cases camera.primaryStream.transport <;> simp
      simp [hkind]
  | some address => simp [ipv4EndpointFromCamera]

theorem streamEndpoint_readBack :
    (endpointsFromCamera parseUrl camera).find? (fun item =>
      item.endpointId = managedCameraPrimaryStreamEndpointId camera.deviceId) =
      some (streamEndpointFromCamera parseUrl camera
        (managedCameraPrimaryStreamEndpointId camera.deviceId)) := by
  have hfound : (streamEndpointFromCamera parseUrl camera
      (managedCameraPrimaryStreamEndpointId camera.deviceId)).endpointId =
      managedCameraPrimaryStreamEndpointId camera.deviceId := rfl
  rw [endpointsFromCamera]
  cases camera.ipAddress with
  | none => exact List.find?_cons_of_pos (decide_eq_true hfound)
  | some address =>
      have hother : managedCameraIpv4EndpointId camera.deviceId ≠
          managedCameraPrimaryStreamEndpointId camera.deviceId := by
        intro heq
        have hslot := eq_of_append_slot independent_endpointSlots List.mem_cons_self
          (List.mem_cons_of_mem _ List.mem_cons_self) heq
        exact absurd hslot.2 (by decide)
      rw [Option.map_some, Option.toList_some, List.singleton_append, List.find?_cons_of_neg]
      · exact List.find?_cons_of_pos (decide_eq_true hfound)
      · rw [decide_eq_true_iff]
        exact hother

def readBack (camera : CameraDevice) : CameraDevice :=
  { camera with ezvizCameraNo := camera.ezvizDeviceSerial.bind fun _ => camera.ezvizCameraNo }

theorem readBack_eq_self_iff :
    readBack camera = camera ↔ (camera.ezvizDeviceSerial = none → camera.ezvizCameraNo = none) := by
  have hnumber : readBack camera = camera ↔
      (camera.ezvizDeviceSerial.bind fun _ => camera.ezvizCameraNo) = camera.ezvizCameraNo :=
    ⟨congrArg CameraDevice.ezvizCameraNo, fun h => by rw [readBack, h]⟩
  rw [hnumber]
  cases camera.ezvizDeviceSerial with
  | none => simp [eq_comm]
  | some serial => simp

end OneCamera

section AllCameras

variable {parseUrl : UrlParser} {cameras : List CameraDevice} {camera : CameraDevice}
  {deviceId : String}

section Found

variable (hids : (cameras.map CameraDevice.deviceId).Nodup) (hcamera : camera ∈ cameras)
include hids hcamera

theorem streamProfile_found :
    preferredStreamProfile (cameras.map streamProfileFromCamera) deviceId
        (cameraProfileFromCamera camera).defaultStreamProfileId =
      some (streamProfileFromCamera camera) := by
  have howner : ∀ other, (streamProfileFromCamera other).deviceId = other.deviceId := fun _ => rfl
  have hfound : (cameras.map streamProfileFromCamera).find? (fun profile =>
      profile.streamProfileId = managedCameraPrimaryStreamProfileId camera.deviceId) =
      some (streamProfileFromCamera camera) := by
    refine find?_row howner hids hcamera ?_ (decide_eq_true rfl)
    intro other _ hother
    exact (eq_of_append_slot independent_streamProfileSlots List.mem_cons_self
      List.mem_cons_self (of_decide_eq_true hother)).1
  rw [preferredStreamProfile, cameraProfileFromCamera, Option.bind_some, hfound]

theorem endpoint_found :
    (cameras.flatMap (endpointsFromCamera parseUrl)).find? (fun item =>
      item.endpointId = (streamProfileFromCamera camera).endpointId) =
      some (streamEndpointFromCamera parseUrl camera
        (managedCameraPrimaryStreamEndpointId camera.deviceId)) := by
  show (cameras.flatMap (endpointsFromCamera parseUrl)).find? (fun item =>
    item.endpointId = managedCameraPrimaryStreamEndpointId camera.deviceId) = _
  rw [find?_spread (fun _ _ => endpoint_deviceId_fromCamera) hids hcamera,
    streamEndpoint_readBack]
  intro item hitem hid
  obtain ⟨other, -, hmem⟩ := List.mem_flatMap.mp hitem
  have hslot := endpointIds_fromCamera.subset (List.mem_map_of_mem hmem)
  obtain ⟨slot, hslot, heq⟩ := List.mem_map.mp hslot
  have hsame := eq_of_append_slot independent_endpointSlots hslot
    (List.mem_cons_of_mem _ List.mem_cons_self) (heq.trans (of_decide_eq_true hid))
  rw [endpoint_deviceId_fromCamera hmem, hsame.1]

theorem ipAddress_found (hid : deviceId = camera.deviceId) :
    ((cameras.flatMap (endpointsFromCamera parseUrl)).find? fun item =>
      item.deviceId = deviceId && item.endpointKind = .ipv4).map (·.host) = camera.ipAddress := by
  subst hid
  rw [find?_spread (fun _ _ => endpoint_deviceId_fromCamera) hids hcamera, ipAddress_readBack]
  intro item _ haccept
  exact of_decide_eq_true (Bool.and_eq_true_iff.mp haccept).1

theorem twin_found
    (hid : deviceId = camera.deviceId) :
    (cameras.map twinFromCamera).find? (fun item => item.deviceId = deviceId) =
      some (twinFromCamera camera) := by
  have howner : ∀ other, (twinFromCamera other).deviceId = other.deviceId := fun _ => rfl
  subst hid
  exact find?_row howner hids hcamera (fun _ _ => of_decide_eq_true) (decide_eq_true rfl)

theorem cameraProfile_found (hid : deviceId = camera.deviceId) :
    (cameras.map cameraProfileFromCamera).find? (fun item => item.deviceId = deviceId) =
      some (cameraProfileFromCamera camera) := by
  have howner : ∀ other, (cameraProfileFromCamera other).deviceId = other.deviceId := fun _ => rfl
  subst hid
  exact find?_row howner hids hcamera (fun _ _ => of_decide_eq_true) (decide_eq_true rfl)

theorem bindings_found (hid : deviceId = camera.deviceId) :
    (cameras.flatMap providerBindingsFromCamera).filter (fun binding =>
      binding.deviceId = deviceId) = providerBindingsFromCamera camera := by
  subst hid
  exact filter_spread (fun _ _ hmem => (binding_fromCamera hmem).1) hids hcamera

theorem capabilities_found (hid : deviceId = camera.deviceId) :
    (cameras.flatMap capabilityRecordsFromCamera).filter (fun capability =>
      capability.deviceId = deviceId) = capabilityRecordsFromCamera camera := by
  subst hid
  exact filter_spread (fun _ _ hmem => (capability_fromCamera hmem).1) hids hcamera

theorem into_resolvedCameraTarget (hsource : isBlank camera.discoverySource = false)
    (hkind : camera.kind = .camera) :
    (resolvedCameraTarget (fromCameraDevices parseUrl cameras)
        (deviceRecordFromCamera camera camera.discoverySource)).map ResolvedCameraTarget.into =
      some (readBack camera) := by
  have hid : (deviceRecordFromCamera camera camera.discoverySource).deviceId = camera.deviceId :=
    rfl
  have hdevice : (deviceRecordFromCamera camera camera.discoverySource).kind = .camera := by
    rw [deviceRecordFromCamera, hkind]
    rfl
  have hblank : isBlank (deviceRecordFromCamera camera camera.discoverySource).source = false :=
    hsource
  have hreads : BindingReads camera _ := bindingReads_providerBindingsFromCamera
  rw [fromCameraDevices_eq, resolvedCameraTarget, if_pos hdevice]
  simp only [cameraProfile_found hids hcamera hid, Option.bind_some, Option.bind_eq_bind,
    streamProfile_found hids hcamera, endpoint_found hids hcamera, twin_found hids hcamera hid,
    bindings_found hids hcamera hid, capabilities_found hids hcamera hid,
    ipAddress_found hids hcamera hid, hreads.stream, hreads.onvif, hreads.ezviz, hblank,
    onvif_readBack, ezvizSerial_readBack, ezvizCameraNo_readBack, capabilities_readBack,
    snapshotUrl_readBack, streamUrlFromEndpoint_fromCamera]
  simp only [twinFromCamera, streamProfileFromCamera, Option.map_some, Option.getD_some,
    status_readBack, transport_readBack]
  refine congrArg some ?_
  rw [ResolvedCameraTarget.into, readBack, hkind]
  rfl

end Found

theorem toCameraDevices_fromCameraDevices (hids : (cameras.map CameraDevice.deviceId).Nodup)
    (hsources : ∀ camera ∈ cameras, isBlank camera.discoverySource = false) :
    toCameraDevices (fromCameraDevices parseUrl cameras) =
      cameras.filterMap fun camera =>
        if camera.kind = .camera then some (readBack camera) else none := by
  have hdevices : (fromCameraDevices parseUrl cameras).devices =
      cameras.map fun camera => deviceRecordFromCamera camera camera.discoverySource := by
    rw [fromCameraDevices_eq]
  rw [toCameraDevices, cameraTargets, hdevices, List.filterMap_map, List.map_filterMap]
  apply List.filterMap_congr
  intro camera hcamera
  by_cases hkind : camera.kind = .camera
  · rw [if_pos hkind]
    exact into_resolvedCameraTarget hids hcamera (hsources camera hcamera) hkind
  · have hother : (deviceRecordFromCamera camera camera.discoverySource).kind ≠ .camera := by
      rw [deviceRecordFromCamera]
      cases h : camera.kind <;> simp_all [legacyDeviceKindToControl]
    rw [if_neg hkind, Function.comp_apply, resolvedCameraTarget, if_neg hother, Option.map_none]

def frontDoorUrl : UrlParser := fun text =>
  if text = "rtsp://192.168.1.10/live" then
    some
      { scheme := "rtsp"
        hostStr := some "192.168.1.10"
        portOrKnownDefault := none
        path := "/live"
        query := none }
  else none

def frontDoor : CameraDevice :=
  .new "cam-1" "Front Door" "rtsp://192.168.1.10/live"

end AllCameras

end HarborBeacon.RegistryRoundTrip
