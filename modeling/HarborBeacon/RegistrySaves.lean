import HarborBeacon.RegistryViews

/-!
Cameras are read from the registry and saved again. The write of a camera goes to the first camera
with its id or its address, and afterwards every device of the kind of a camera to which no camera
was written is removed.
-/

namespace HarborBeacon.RegistrySaves

open DeviceRegistry OwnedTables RegistryIntegrity RegistryViews Text

section Saves

variable (parseUrl : UrlParser) (s : DeviceRegistrySnapshot)

def savedRegistry : DeviceRegistrySnapshot :=
  let file := some (DeviceRegistryPayload.snapshot s)
  loadSnapshot parseUrl (saveDevices parseUrl file (loadDevices parseUrl file))

def writeOf (camera : CameraDevice) : CameraDevice :=
  redirect (viewUrls s) (normalizeCameraMetadata (normalizeCameraMetadata camera))

def writes : List CameraDevice :=
  (toCameraDevices s).map (writeOf s)

def keepIds : List String :=
  (toCameraDevices s).map (matchingId (viewUrls s))

def written : DeviceRegistrySnapshot :=
  (writes s).foldl (upsertCameraDevice parseUrl) s

def prunedIds : List String :=
  removedIds (written parseUrl s) fun device =>
    device.kind = .camera && device.deviceId ∉ keepIds s

variable {parseUrl s} {camera : CameraDevice} {id : String}

theorem deviceId_of_mem_writes (h : camera ∈ writes s) :
    camera.deviceId ∈ keepIds s := by
  obtain ⟨view, hview, rfl⟩ := List.mem_map.mp h
  exact List.mem_map.mpr ⟨view, hview, rfl⟩

theorem mem_viewUrls_of_mem (h : camera ∈ toCameraDevices s) :
    (camera.deviceId, camera.primaryStream.url) ∈ viewUrls s :=
  List.mem_map_of_mem (f := fun camera => (camera.deviceId, camera.primaryStream.url)) h

theorem kind_of_mem_toCameraDevices (h : camera ∈ toCameraDevices s) :
    camera.kind = .camera := by
  obtain ⟨target, -, rfl⟩ := List.mem_map.mp h
  rfl

theorem savedRegistry_eq (h : Sound parseUrl s) (hschema : s.schemaVersion ≠ 0) :
    savedRegistry parseUrl s = restrict (written parseUrl s) fun id => id ∉ prunedIds parseUrl s := by
  have hloop : upsertCameraDevicesPreservingPlatformRecords parseUrl s
      ((toCameraDevices s).map normalizeCameraMetadata) = written parseUrl s := by
    rw [upsertCameraDevicesPreservingPlatformRecords, foldl_upsertIncomingCamera h, written, writes,
      List.map_map, List.map_map]
    · rfl
    · intro camera hcamera
      simp only [List.map_map, List.mem_map] at hcamera
      obtain ⟨view, hview, rfl⟩ := hcamera
      exact ⟨(kind_of_mem_toCameraDevices hview :), (mem_viewUrls_of_mem hview :)⟩
  have hkeep : ((toCameraDevices s).map normalizeCameraMetadata).map (resolvedDeviceId s) =
      keepIds s := by
    rw [List.map_map, keepIds]
    refine List.map_congr_left ?_
    intro camera _
    rw [Function.comp_apply, resolvedDeviceId_eq]
    rfl
  have hload : loadSnapshotForWrite parseUrl (some (.snapshot s)) = s := if_neg hschema
  rw [savedRegistry]
  simp only [saveDevices, hload, loadDevices, loadSnapshot, intoCameraDevices,
    replaceCameraDevicesPreservingPlatformRecords]
  rw [hloop, hkeep, pruneMissingCameraDevices, pruneDevices_eq]
  rfl

theorem written_eq {left right : List CameraDevice} (hsplit : toCameraDevices s = left ++ right) :
    written parseUrl s = (right.map (writeOf s)).foldl (upsertCameraDevice parseUrl)
      ((left.map (writeOf s)).foldl (upsertCameraDevice parseUrl) s) := by
  rw [written, writes, hsplit, List.map_append, List.foldl_append]

theorem exists_view_of_mem_keepIds (h : Sound parseUrl s) (hid : id ∈ keepIds s) :
    ∃ camera ∈ toCameraDevices s, matchingId (viewUrls s) camera = id ∧
      (id, camera.primaryStream.url) ∈ viewUrls s := by
  obtain ⟨camera, hcamera, rfl⟩ := List.mem_map.mp hid
  exact ⟨camera, hcamera, rfl, matchingId_mem h (mem_viewUrls_of_mem hcamera)⟩

theorem slice_written (h : Sound parseUrl s) (hid : id ∉ keepIds s) :
    slice (written parseUrl s) id = slice s id := by
  refine slice_foldl_upsertCameraDevice h ?_
  intro camera hcamera heq
  exact hid (heq ▸ deviceId_of_mem_writes hcamera)

theorem slice_saved_of_not_pruned (h : Sound parseUrl s) (hschema : s.schemaVersion ≠ 0)
    (hid : id ∉ prunedIds parseUrl s) :
    slice (savedRegistry parseUrl s) id = slice (written parseUrl s) id := by
  rw [savedRegistry_eq h hschema]
  exact slice_restrict_of_keep (decide_eq_true hid)

variable {device : ControlDeviceRecord}

theorem slice_saved_of_kind (h : Sound parseUrl s) (hschema : s.schemaVersion ≠ 0)
    (hdevice : device ∈ s.devices) (hkind : device.kind ≠ .camera) :
    slice (savedRegistry parseUrl s) device.deviceId = slice s device.deviceId := by
  have hkeep : device.deviceId ∉ keepIds s := by
    intro hmem
    obtain ⟨camera, -, -, hview⟩ := exists_view_of_mem_keepIds h hmem
    obtain ⟨other, hother, hid, hcamera, -⟩ := (mem_viewUrls h).mp hview
    rw [h.devices.eq_of_key hother hdevice hid] at hcamera
    exact hkind hcamera
  rw [slice_saved_of_not_pruned h hschema, slice_written h hkeep]
  intro hpruned
  obtain ⟨other, hother, hid⟩ := List.mem_map.mp hpruned
  obtain ⟨hmem, hremove⟩ := List.mem_filter.mp hother
  have hslice : other ∈ (slice (written parseUrl s) device.deviceId).devices :=
    mem_slice_devices.mpr ⟨hmem, hid⟩
  rw [slice_written h hkeep] at hslice
  obtain ⟨hold, -⟩ := mem_slice_devices.mp hslice
  rw [Bool.and_eq_true, decide_eq_true_eq] at hremove
  rw [h.devices.eq_of_key hold hdevice hid] at hremove
  exact hkind hremove.1

theorem not_mem_saved (h : Sound parseUrl s) (hschema : s.schemaVersion ≠ 0)
    (hdevice : device ∈ s.devices) (hkind : device.kind = .camera)
    (hkeep : device.deviceId ∉ keepIds s) :
    device.deviceId ∉ deviceIds (savedRegistry parseUrl s) := by
  rw [savedRegistry_eq h hschema, mem_deviceIds_restrict]
  rintro ⟨-, hkept⟩
  refine of_decide_eq_true hkept (List.mem_map.mpr ⟨device, List.mem_filter.mpr ⟨?_, ?_⟩, rfl⟩)
  · have hslice : device ∈ (slice s device.deviceId).devices :=
      mem_slice_devices.mpr ⟨hdevice, rfl⟩
    rw [← slice_written h hkeep] at hslice
    exact (mem_slice_devices.mp hslice).1
  · simp [hkind, hkeep]

end Saves

section PlatformRecords

/-- A Home Assistant device is still there, and so are its endpoints, capabilities and
bindings. -/
structure DeviceKept (s saved : DeviceRegistrySnapshot) (device : ControlDeviceRecord) : Prop where
  record : ∃ kept ∈ saved.devices, kept.deviceId = device.deviceId ∧ kept.source = "home_assistant"
  endpoints : ∀ endpoint ∈ s.deviceEndpoints, endpoint.deviceId = device.deviceId →
    ∃ kept ∈ saved.deviceEndpoints, kept.deviceId = device.deviceId ∧
      kept.endpointId = endpoint.endpointId
  capabilities : ∀ capability ∈ s.capabilities, capability.deviceId = device.deviceId →
    ∃ kept ∈ saved.capabilities, kept.deviceId = device.deviceId ∧
      kept.capabilityId = capability.capabilityId
  bindings : ∀ binding ∈ s.providerBindings, binding.deviceId = device.deviceId →
    ∃ kept ∈ saved.providerBindings, kept.deviceId = device.deviceId ∧
      kept.bindingId = binding.bindingId

/-- The records of the devices that are no cameras are still there, and so are the Home Assistant
devices with all that belongs to them. -/
structure PlatformRecordsKept (s saved : DeviceRegistrySnapshot) : Prop where
  devices : ∀ device ∈ s.devices, resolvedCameraTarget s device = none → device ∈ saved.devices
  homeAssistant : ∀ device ∈ s.devices, device.source = "home_assistant" →
    DeviceKept s saved device

/-- Every device of the kind of a camera has a stream, and no Home Assistant device of that kind
has the address of another one. -/
structure SaveSafe (s : DeviceRegistrySnapshot) : Prop where
  streams : ∀ device ∈ s.devices, device.kind = .camera →
    ∃ profile ∈ s.streamProfiles, profile.deviceId = device.deviceId
  addresses : ∀ device ∈ s.devices, device.kind = .camera → device.source = "home_assistant" →
    ∀ other ∈ s.devices, other.kind = .camera → other.deviceId ≠ device.deviceId →
    ∀ endpoint ∈ s.deviceEndpoints,
      endpoint.endpointId = managedCameraPrimaryStreamEndpointId device.deviceId →
    ∀ otherEndpoint ∈ s.deviceEndpoints,
      otherEndpoint.endpointId = managedCameraPrimaryStreamEndpointId other.deviceId →
      streamUrlFromEndpoint otherEndpoint ≠ streamUrlFromEndpoint endpoint

variable {parseUrl : UrlParser} {s : DeviceRegistrySnapshot} {device : ControlDeviceRecord}
  {target : ResolvedCameraTarget} {id : String}

theorem exists_endpoint_of_streamUrl {id url : String} (h : streamUrl s id = some url) :
    ∃ endpoint ∈ s.deviceEndpoints,
      endpoint.endpointId = managedCameraPrimaryStreamEndpointId id ∧
        streamUrlFromEndpoint endpoint = url := by
  obtain ⟨profile, -, hrest⟩ := Option.bind_eq_some_iff.mp h
  obtain ⟨endpoint, hfind, rfl⟩ := Option.map_eq_some_iff.mp hrest
  exact ⟨endpoint, List.mem_of_find?_eq_some hfind, by simpa using List.find?_some hfind, rfl⟩

theorem streamUrl_of_endpoint (h : Sound parseUrl s)
    (hprofile : ∃ profile ∈ s.streamProfiles, profile.deviceId = id) {endpoint : DeviceEndpoint}
    (hendpoint : endpoint ∈ s.deviceEndpoints)
    (hid : endpoint.endpointId = managedCameraPrimaryStreamEndpointId id) :
    streamUrl s id = some (streamUrlFromEndpoint endpoint) := by
  obtain ⟨profile, hmem, howner⟩ := hprofile
  have hsome : (s.streamProfiles.find? fun profile => profile.deviceId = id).isSome := by
    rw [List.find?_isSome]
    exact ⟨profile, hmem, decide_eq_true howner⟩
  obtain ⟨first, hfirst⟩ := Option.isSome_iff_exists.mp hsome
  rw [streamUrl, hfirst, h.endpoints.unique.find?_eq_some hendpoint hid]
  rfl

theorem exists_target (h : Sound parseUrl s) (hkind : device.kind = .camera)
    (hprofile : ∃ profile ∈ s.streamProfiles, profile.deviceId = device.deviceId) :
    ∃ target, resolvedCameraTarget s device = some target := by
  obtain ⟨profile, hmem, howner⟩ := hprofile
  obtain ⟨endpoint, hendpoint, heq⟩ := List.mem_map.mp (h.streamProfile_endpoint profile hmem)
  have hid := StreamProfile.endpointId_fromCamera (h.streamProfile_origin profile hmem)
  rw [howner] at hid
  have hurl := streamUrl_of_endpoint h ⟨profile, hmem, howner⟩ hendpoint (heq.trans hid)
  have hentry := map_resolvedCameraTarget h device
  rw [viewEntry_eq_some_iff.mpr ⟨rfl, hkind, hurl⟩] at hentry
  obtain ⟨target, htarget, -⟩ := Option.map_eq_some_iff.mp hentry
  exact ⟨target, htarget⟩

theorem profile_of_target (h : Sound parseUrl s) (ht : resolvedCameraTarget s device = some target)
    :
    target.deviceId = device.deviceId ∧ device.kind = .camera ∧
      streamUrl s target.deviceId = some target.primaryStream.url := by
  have hentry := map_resolvedCameraTarget h device
  rw [ht] at hentry
  obtain ⟨hid, hkind, hurl⟩ := viewEntry_eq_some_iff.mp hentry.symm
  exact ⟨hid.symm, hkind, hurl⟩

theorem mem_toCameraDevices_of_target (hdevice : device ∈ s.devices)
    (ht : resolvedCameraTarget s device = some target) : target.into ∈ toCameraDevices s :=
  List.mem_map_of_mem (List.mem_filterMap.mpr ⟨device, hdevice, ht⟩)

theorem nodup_toCameraDevices (h : Sound parseUrl s) :
    ((toCameraDevices s).map CameraDevice.deviceId).Nodup := by
  have hnodup := nodup_viewUrls h
  rw [viewUrls, List.map_map] at hnodup
  exact hnodup

theorem exists_single_write (h : Sound parseUrl s) {camera : CameraDevice}
    (hcamera : camera ∈ toCameraDevices s)
    (honly : ∀ other ∈ toCameraDevices s, matchingId (viewUrls s) other = id → other = camera) :
    ∃ before, Sound parseUrl before ∧ slice before id = slice s id ∧
      slice (written parseUrl s) id =
        slice (upsertCameraDevice parseUrl before (writeOf s camera)) id := by
  obtain ⟨left, right, hsplit⟩ := List.append_of_mem hcamera
  have hnodup := (nodup_toCameraDevices h).of_map
  rw [hsplit] at hnodup
  have hothers : ∀ other ∈ left ++ right, (writeOf s other).deviceId ≠ id := by
    intro other hother heq
    have hmem : other ∈ toCameraDevices s := by
      rw [hsplit]
      rcases List.mem_append.mp hother with hleft | hright
      · exact List.mem_append_left _ hleft
      · exact List.mem_append_right _ (List.mem_cons_of_mem _ hright)
    rw [honly other hmem heq] at hother
    exact (List.nodup_middle.mp hnodup).notMem hother
  rw [written, writes, hsplit, List.map_append, List.map_cons]
  refine exists_only_upsert h _ ?_
  rw [← List.map_append]
  intro camera hmem
  obtain ⟨other, hother, rfl⟩ := List.mem_map.mp hmem
  exact hothers other hother

theorem source_writeOf (ht : resolvedCameraTarget s device = some target)
    (hsource : device.source = "home_assistant") :
    (writeOf s target.into).discoverySource = "home_assistant" := by
  have hdiscovery : target.discoverySource = "home_assistant" := by
    rw [(fields_of_resolvedCameraTarget ht).2.1, hsource]
    rfl
  show normalizeDiscoverySource (normalizeDiscoverySource target.discoverySource) = _
  rw [hdiscovery]
  rfl

theorem DeviceKept.of_slice {saved other : DeviceRegistrySnapshot} (h : DeviceKept s saved device)
    (hslice : slice other device.deviceId = slice saved device.deviceId) :
    DeviceKept s other device where
  record := by
    obtain ⟨kept, hmem, hid, hsource⟩ := h.record
    have hin := mem_slice_devices.mpr ⟨hmem, hid⟩
    rw [← hslice] at hin
    exact ⟨kept, (mem_slice_devices.mp hin).1, hid, hsource⟩
  endpoints := by
    intro endpoint hendpoint howner
    obtain ⟨kept, hmem, hkept, hid⟩ := h.endpoints endpoint hendpoint howner
    have hin := mem_slice_endpoints.mpr ⟨hmem, hkept⟩
    rw [← hslice] at hin
    exact ⟨kept, (mem_slice_endpoints.mp hin).1, hkept, hid⟩
  capabilities := by
    intro capability hcapability howner
    obtain ⟨kept, hmem, hkept, hid⟩ := h.capabilities capability hcapability howner
    have hin := mem_slice_capabilities.mpr ⟨hmem, hkept⟩
    rw [← hslice] at hin
    exact ⟨kept, (mem_slice_capabilities.mp hin).1, hkept, hid⟩
  bindings := by
    intro binding hbinding howner
    obtain ⟨kept, hmem, hkept, hid⟩ := h.bindings binding hbinding howner
    have hin := mem_slice_bindings.mpr ⟨hmem, hkept⟩
    rw [← hslice] at hin
    exact ⟨kept, (mem_slice_bindings.mp hin).1, hkept, hid⟩

theorem deviceKept_self (hdevice : device ∈ s.devices) (hsource : device.source = "home_assistant") :
    DeviceKept s s device where
  record := ⟨device, hdevice, rfl, hsource⟩
  endpoints := fun endpoint hendpoint howner => ⟨endpoint, hendpoint, howner, rfl⟩
  capabilities := fun capability hcapability howner => ⟨capability, hcapability, howner, rfl⟩
  bindings := fun binding hbinding howner => ⟨binding, hbinding, howner, rfl⟩

/-- The write of a Home Assistant camera to its own device keeps the device. -/
theorem deviceKept_upsert {before : DeviceRegistrySnapshot} (h : Sound parseUrl s)
    (hbefore : Sound parseUrl before)
    (hslice : slice before device.deviceId = slice s device.deviceId) (hdevice : device ∈ s.devices)
    (hsource : device.source = "home_assistant") (ht : resolvedCameraTarget s device = some target)
    (hid : (writeOf s target.into).deviceId = device.deviceId) :
    DeviceKept s (upsertCameraDevice parseUrl before (writeOf s target.into)) device where
  record := by
    have hin : device ∈ (slice before device.deviceId).devices := by
      rw [hslice]
      exact mem_slice_devices.mpr ⟨hdevice, rfl⟩
    have hmem := (mem_slice_devices.mp hin).1
    refine ⟨updateCameraRecord (writeOf s target.into) device, ?_, rfl, ?_⟩
    · rw [devices_upsertCameraDevice, hbefore.devices.upsertKey_eq_map
        (hid ▸ List.mem_map_of_mem hmem)]
      exact List.mem_map.mpr ⟨device, hmem, if_pos hid.symm⟩
    · rw [updateCameraRecord, source_writeOf ht hsource]
      rfl
  endpoints := by
    intro endpoint hendpoint howner
    obtain ⟨kept, hkept, heq⟩ :=
      List.mem_map.mp (endpointId_written h ht hid rfl hendpoint howner)
    refine ⟨kept, ?_, (endpoint_deviceId_fromCamera hkept).trans hid, heq⟩
    rw [endpoints_upsertCameraDevice]
    exact List.mem_append_right _ hkept
  capabilities := by
    intro capability hcapability howner
    rw [capabilities_upsertCameraDevice]
    rcases capabilityId_written h ht hid rfl hcapability howner with hnew | hold
    · obtain ⟨kept, hkept, heq⟩ := List.mem_map.mp hnew
      exact ⟨kept, List.mem_append_right _ hkept, (capability_fromCamera hkept).1.trans hid, heq⟩
    · have hin : capability ∈ (slice before device.deviceId).capabilities := by
        rw [hslice]
        exact mem_slice_capabilities.mpr ⟨hcapability, howner⟩
      refine ⟨capability, List.mem_append_left _ (List.mem_filter.mpr ⟨?_, ?_⟩), howner, rfl⟩
      · exact (mem_slice_capabilities.mp hin).1
      · simp [hold]
  bindings := by
    intro binding hbinding howner
    rw [bindings_upsertCameraDevice]
    rcases bindingId_written h ht hid rfl rfl hbinding howner with hnew | hold
    · obtain ⟨kept, hkept, heq⟩ := List.mem_map.mp hnew
      exact ⟨kept, List.mem_append_right _ hkept, (binding_fromCamera hkept).1.trans hid, heq⟩
    · have hin : binding ∈ (slice before device.deviceId).providerBindings := by
        rw [hslice]
        exact mem_slice_bindings.mpr ⟨hbinding, howner⟩
      refine ⟨binding, List.mem_append_left _ (List.mem_filter.mpr ⟨?_, ?_⟩), howner, rfl⟩
      · exact (mem_slice_bindings.mp hin).1
      · simpa using hold

theorem SaveSafe.eq_of_url (hsafe : SaveSafe s) (h : Sound parseUrl s) (hdevice : device ∈ s.devices)
    (hsource : device.source = "home_assistant") {url id : String}
    (hview : (device.deviceId, url) ∈ viewUrls s) (hother : (id, url) ∈ viewUrls s) :
    id = device.deviceId := by
  obtain ⟨same, hsame, heq, hkind, hurl⟩ := (mem_viewUrls h).mp hview
  obtain rfl := h.devices.eq_of_key hsame hdevice heq
  obtain ⟨other, hmem, rfl, hotherKind, hotherUrl⟩ := (mem_viewUrls h).mp hother
  obtain ⟨endpoint, hendpoint, hid, rfl⟩ := exists_endpoint_of_streamUrl hurl
  obtain ⟨otherEndpoint, hotherEndpoint, hotherId, hshared⟩ := exists_endpoint_of_streamUrl hotherUrl
  by_contra hne
  exact hsafe.addresses _ hdevice hkind hsource other hmem hotherKind hne endpoint hendpoint hid
    otherEndpoint hotherEndpoint hotherId hshared

theorem SaveSafe.deviceKept (hsafe : SaveSafe s) (h : Sound parseUrl s)
    (hschema : s.schemaVersion ≠ 0) (hdevice : device ∈ s.devices)
    (hsource : device.source = "home_assistant") :
    DeviceKept s (savedRegistry parseUrl s) device := by
  by_cases hkind : device.kind = .camera
  · obtain ⟨target, ht⟩ := exists_target h hkind (hsafe.streams device hdevice hkind)
    obtain ⟨hid, -, -⟩ := profile_of_target h ht
    have hcamera := mem_toCameraDevices_of_target hdevice ht
    have hview : (device.deviceId, target.primaryStream.url) ∈ viewUrls s :=
      hid ▸ mem_viewUrls_of_mem hcamera
    have hmatching : matchingId (viewUrls s) target.into = device.deviceId :=
      hsafe.eq_of_url h hdevice hsource hview (matchingId_mem h (mem_viewUrls_of_mem hcamera))
    have honly : ∀ other ∈ toCameraDevices s,
        matchingId (viewUrls s) other = device.deviceId → other = target.into := by
      intro other hother hsame
      have hmatched := matchingId_mem h (mem_viewUrls_of_mem hother)
      rw [hsame] at hmatched
      have hotherId := hsafe.eq_of_url h hdevice hsource hmatched (mem_viewUrls_of_mem hother)
      exact List.inj_on_of_nodup_map (nodup_toCameraDevices h) hother hcamera
        (hotherId.trans hid.symm)
    obtain ⟨before, hbefore, hslice, hwritten⟩ := exists_single_write h hcamera honly
    have hkept := deviceKept_upsert h hbefore hslice hdevice hsource ht hmatching
    refine hkept.of_slice (Eq.trans ?_ hwritten)
    refine slice_saved_of_not_pruned h hschema ?_
    intro hpruned
    obtain ⟨other, hother, heq⟩ := List.mem_map.mp hpruned
    obtain ⟨-, hremove⟩ := List.mem_filter.mp hother
    have hkeep : device.deviceId ∈ keepIds s := List.mem_map.mpr ⟨_, hcamera, hmatching⟩
    simp [heq, hkeep] at hremove
  · exact (deviceKept_self hdevice hsource).of_slice (slice_saved_of_kind h hschema hdevice hkind)

theorem SaveSafe.platformRecordsKept (hsafe : SaveSafe s) (h : Sound parseUrl s)
    (hschema : s.schemaVersion ≠ 0) : PlatformRecordsKept s (savedRegistry parseUrl s) where
  devices := by
    intro device hdevice hnone
    have hkind : device.kind ≠ .camera := by
      intro hkind
      obtain ⟨target, ht⟩ := exists_target h hkind (hsafe.streams device hdevice hkind)
      rw [hnone] at ht
      exact absurd ht (by simp)
    have hin : device ∈ (slice (savedRegistry parseUrl s) device.deviceId).devices := by
      rw [slice_saved_of_kind h hschema hdevice hkind]
      exact mem_slice_devices.mpr ⟨hdevice, rfl⟩
    exact (mem_slice_devices.mp hin).1
  homeAssistant := fun _ hdevice hsource => hsafe.deviceKept h hschema hdevice hsource

end PlatformRecords

section Sources

variable {parseUrl : UrlParser} {s : DeviceRegistrySnapshot}

def SourcesSet (s : DeviceRegistrySnapshot) : Prop :=
  ∀ device ∈ s.devices, isBlank device.source = true →
    ∀ binding ∈ s.providerBindings, binding.deviceId = device.deviceId →
      binding.providerKey ≠ "home_assistant"

theorem isBlank_normalizeDiscoverySource (value : String) :
    isBlank (normalizeDiscoverySource value) = isBlank value := by
  rw [normalizeDiscoverySource]
  split
  · rename_i heq
    rw [heq]
    decide
  · rfl

theorem normalizeDiscoverySource_eq_homeAssistant {value : String}
    (h : normalizeDiscoverySource value = "home_assistant") : value = "home_assistant" := by
  rw [normalizeDiscoverySource] at h
  split at h
  · exact absurd h (by decide)
  · exact h

theorem SourcesSet.upsertCameraDevice (hsources : SourcesSet s) (h : Sound parseUrl s)
    (camera : CameraDevice) : SourcesSet (upsertCameraDevice parseUrl s camera) := by
  intro device hdevice hblank binding hbinding howner
  rw [bindings_upsertCameraDevice] at hbinding
  rcases List.mem_append.mp hbinding with hold | hnew
  · have hmem := (List.mem_filter.mp hold).1
    rw [devices_upsertCameraDevice] at hdevice
    by_cases hid : device.deviceId = camera.deviceId
    · rcases mem_upsertKey_of_eq h.devices hdevice hid with
        ⟨rfl, hnone⟩ | ⟨existing, hexisting, -, rfl⟩
      · -- a new device has no bindings yet
        have hbound := h.bindings.owner_mem binding hmem
        rw [howner] at hbound
        exact absurd hbound hnone
      · refine hsources existing hexisting ?_ binding hmem howner
        have hkept : (if isBlank camera.discoverySource then existing.source
            else normalizeDiscoverySource camera.discoverySource) =
            (updateCameraRecord camera existing).source := rfl
        rw [← hkept] at hblank
        split at hblank
        · exact hblank
        · rename_i hset
          rw [isBlank_normalizeDiscoverySource] at hblank
          exact absurd hblank hset
    · exact hsources device ((mem_upsertKey_of_ne (by intro _; rfl) (by rfl) hid).mp hdevice)
        hblank binding hmem howner
  · exact (binding_fromCamera hnew).2

theorem SourcesSet.upsertHomeAssistantDevice (hsources : SourcesSet s) (deviceId : String)
    (entity : HomeAssistantRegistryEntity) (syncAt : String) (h : Sound parseUrl s) :
    SourcesSet (upsertHomeAssistantDevice s deviceId entity syncAt) := by
  intro device hdevice hblank binding hbinding howner
  by_cases hid : device.deviceId = deviceId
  · -- the device of an entity has a source
    have hsource : device.source = "home_assistant" := by
      rcases mem_upsertKey_of_eq h.devices hdevice hid with ⟨rfl, -⟩ | ⟨existing, -, -, rfl⟩ <;> rfl
    rw [hsource] at hblank
    exact absurd hblank (by decide)
  · rw [bindings_upsertHomeAssistantDevice] at hbinding
    have hmem : binding ∈ s.providerBindings := by
      rcases List.mem_append.mp hbinding with hold | hnew
      · exact (List.mem_filter.mp hold).1
      · rw [List.mem_singleton.mp hnew] at howner
        exact absurd howner.symm hid
    exact hsources device ((mem_upsertKey_of_ne (by intro _; rfl) (by rfl) hid).mp hdevice) hblank
      binding hmem howner

theorem SourcesSet.restrict (hsources : SourcesSet s) (keep : String → Bool) :
    SourcesSet (restrict s keep) := by
  intro device hdevice hblank binding hbinding howner
  exact hsources device (List.mem_filter.mp hdevice).1 hblank binding
    (List.mem_filter.mp hbinding).1 howner

structure Stable (parseUrl : UrlParser) (s : DeviceRegistrySnapshot) : Prop where
  sound : Sound parseUrl s
  sources : SourcesSet s
  schema : s.schemaVersion = defaultRegistrySchemaVersion

theorem Stable.foldl {α : Type} {f : DeviceRegistrySnapshot → α → DeviceRegistrySnapshot}
    (hf : ∀ s a, Stable parseUrl s → Stable parseUrl (f s a)) (items : List α)
    (h : Stable parseUrl s) : Stable parseUrl (items.foldl f s) := by
  induction items generalizing s with
  | nil => exact h
  | cons a rest ih => exact ih (hf s a h)

theorem Stable.pruneDevices (h : Stable parseUrl s) (remove : ControlDeviceRecord → Bool) :
    Stable parseUrl (pruneDevices s remove) := by
  rw [pruneDevices_eq]
  exact ⟨h.sound.restrict _, h.sources.restrict _, h.schema⟩

theorem Stable.upsertCameraDevices (h : Stable parseUrl s) (devices : List CameraDevice) :
    Stable parseUrl (upsertCameraDevicesPreservingPlatformRecords parseUrl s devices) := by
  refine h.foldl ?_ _
  intro s camera hs
  exact ⟨hs.sound.upsertCameraDevice _, hs.sources.upsertCameraDevice hs.sound _, hs.schema⟩

theorem Stable.applyOperation (h : Stable parseUrl s) (operation : RegistryOperation) :
    Stable parseUrl (applyOperation parseUrl s operation) := by
  cases operation with
  | upsertCameraDevices devices => exact h.upsertCameraDevices devices
  | replaceCameraDevices devices => exact (h.upsertCameraDevices _).pruneDevices _
  | upsertHomeAssistant entities syncAt =>
      refine Stable.pruneDevices (h.foldl ?_ entities) _
      intro s entity hs
      exact ⟨hs.sound.upsertHomeAssistantDevice _ _ _,
        hs.sources.upsertHomeAssistantDevice _ _ _ hs.sound, hs.schema⟩

theorem stable_registryAfter (operations : List RegistryOperation) :
    Stable parseUrl (registryAfter parseUrl operations) := by
  refine Stable.foldl (fun _ operation hs => hs.applyOperation operation) operations ?_
  exact ⟨sound_emptyRegistrySnapshot parseUrl, by simp [SourcesSet, emptyRegistrySnapshot], rfl⟩

end Sources

section Losses

variable {parseUrl : UrlParser} {s : DeviceRegistrySnapshot} {device : ControlDeviceRecord}
  {camera other : CameraDevice}

theorem exists_profile_of_streamUrl {id url : String} (h : streamUrl s id = some url) :
    ∃ profile ∈ s.streamProfiles, profile.deviceId = id := by
  obtain ⟨profile, hfind, -⟩ := Option.bind_eq_some_iff.mp h
  exact ⟨profile, List.mem_of_find?_eq_some hfind, by simpa using List.find?_some hfind⟩

theorem streams_of_platformRecordsKept (hkept : PlatformRecordsKept s (savedRegistry parseUrl s))
    (h : Stable parseUrl s) (hdevice : device ∈ s.devices) (hkind : device.kind = .camera) :
    ∃ profile ∈ s.streamProfiles, profile.deviceId = device.deviceId := by
  by_contra hnone
  have hurl : ∀ url, streamUrl s device.deviceId ≠ some url := fun url heq =>
    hnone (exists_profile_of_streamUrl heq)
  have htarget : resolvedCameraTarget s device = none := by
    cases ht : resolvedCameraTarget s device with
    | none => rfl
    | some target =>
        obtain ⟨hid, -, heq⟩ := profile_of_target h.sound ht
        rw [hid] at heq
        exact absurd heq (hurl _)
  have hkeep : device.deviceId ∉ keepIds s := by
    intro hmem
    obtain ⟨camera, -, -, hview⟩ := exists_view_of_mem_keepIds h.sound hmem
    obtain ⟨-, -, -, -, heq⟩ := (mem_viewUrls h.sound).mp hview
    exact hurl _ heq
  have hschema : s.schemaVersion ≠ 0 := by
    rw [h.schema]
    decide
  exact not_mem_saved h.sound hschema hdevice hkind hkeep
    (List.mem_map_of_mem (hkept.devices device hdevice htarget))

theorem matchingId_eq_of_url (h : Sound parseUrl s)
    (hcamera : (camera.deviceId, camera.primaryStream.url) ∈ viewUrls s)
    (hother : (other.deviceId, other.primaryStream.url) ∈ viewUrls s)
    (hurl : camera.primaryStream.url = other.primaryStream.url) :
    matchingId (viewUrls s) camera = matchingId (viewUrls s) other := by
  have hfirst := find?_matchingId h hcamera
  rw [hurl, find?_matchingId h hother] at hfirst
  exact (Prod.mk.inj (Option.some.inj hfirst)).1.symm

theorem source_foldl_upsertCameraDevice (h : Sound parseUrl s) {cameras : List CameraDevice}
    {id : String}
    (hcameras : ∀ camera ∈ cameras, camera.deviceId = id →
      isBlank camera.discoverySource = false ∧ camera.discoverySource ≠ "home_assistant")
    (hwritten : (∃ camera ∈ cameras, camera.deviceId = id) ∨
      ∀ device ∈ s.devices, device.deviceId = id → device.source ≠ "home_assistant") :
    ∀ device ∈ (cameras.foldl (upsertCameraDevice parseUrl) s).devices,
      device.deviceId = id → device.source ≠ "home_assistant" := by
  induction cameras generalizing s with
  | nil =>
      rcases hwritten with ⟨camera, hcamera, -⟩ | hstart
      · exact absurd hcamera (by simp)
      · exact hstart
  | cons camera rest ih =>
      refine ih (h.upsertCameraDevice camera)
        (fun other hother => hcameras other (List.mem_cons_of_mem _ hother)) ?_
      by_cases hid : camera.deviceId = id
      · right
        obtain ⟨hset, hsource⟩ := hcameras camera List.mem_cons_self hid
        have hnormalized : normalizeDiscoverySource camera.discoverySource ≠ "home_assistant" :=
          fun heq => hsource (normalizeDiscoverySource_eq_homeAssistant heq)
        intro device hdevice howner
        rw [devices_upsertCameraDevice] at hdevice
        rcases mem_upsertKey_of_eq h.devices hdevice (howner.trans hid.symm) with
          ⟨rfl, -⟩ | ⟨existing, -, -, rfl⟩
        · exact hnormalized
        · rw [updateCameraRecord, hset]
          exact hnormalized
      · rcases hwritten with ⟨other, hother, howner⟩ | hstart
        · rcases List.mem_cons.mp hother with rfl | hrest
          · exact absurd howner hid
          · exact Or.inl ⟨other, hrest, howner⟩
        · right
          intro device hdevice howner
          rw [devices_upsertCameraDevice] at hdevice
          have hne : device.deviceId ≠ camera.deviceId := fun heq => hid (heq.symm.trans howner)
          exact hstart device ((mem_upsertKey_of_ne (by intro _; rfl) (by rfl) hne).mp hdevice) howner

theorem providerKey_of_origin {binding : ProviderBinding} (h : BindingOrigin binding) :
    isBlank binding.providerKey = false := by
  rcases h with ⟨origin, horigin⟩ | ⟨deviceId, entity, syncAt, rfl⟩
  · rcases mem_providerBindingsFromCamera.mp horigin with rfl | ⟨url, -, rfl⟩ | ⟨serial, -, rfl⟩
    · have hkeys : ∀ key ∈ ["rtsp", "hls", "webrtc", "stream"], isBlank key = false := by decide
      exact hkeys _ providerKey_streamBinding
    · exact (by decide : isBlank "onvif" = false)
    · exact (by decide : isBlank "ezviz" = false)
  · exact (by decide : isBlank "home_assistant" = false)

theorem discoverySource_of_target (h : Stable parseUrl s) (hdevice : device ∈ s.devices)
    (hsource : device.source ≠ "home_assistant") {target : ResolvedCameraTarget}
    (ht : resolvedCameraTarget s device = some target) :
    isBlank target.discoverySource = false ∧ target.discoverySource ≠ "home_assistant" := by
  rw [(fields_of_resolvedCameraTarget ht).2.1]
  split
  · rename_i hblank
    have hkeys : ∀ binding ∈ s.providerBindings.filter fun binding =>
        binding.deviceId = device.deviceId,
        isBlank binding.providerKey = false ∧ binding.providerKey ≠ "home_assistant" := by
      intro binding hbinding
      obtain ⟨hmem, howner⟩ := List.mem_filter.mp hbinding
      exact ⟨providerKey_of_origin (h.sound.binding_origin binding hmem),
        h.sources device hdevice hblank binding hmem (of_decide_eq_true howner)⟩
    rw [inferDiscoverySource]
    split
    · decide
    · split
      · rename_i binding hhead
        exact hkeys binding (List.mem_of_mem_head? hhead)
      · decide
  · rename_i hset
    exact ⟨Bool.eq_false_iff.mpr hset, hsource⟩

theorem matchingId_of_deviceKept (h : Stable parseUrl s) (hdevice : device ∈ s.devices)
    (hkept : DeviceKept s (savedRegistry parseUrl s) device) {camera : CameraDevice}
    (hcamera : camera ∈ toCameraDevices s)
    (hview : (device.deviceId, camera.primaryStream.url) ∈ viewUrls s) :
    matchingId (viewUrls s) camera = device.deviceId := by
  obtain ⟨same, hsame, heq, hkind, hurl⟩ := (mem_viewUrls h.sound).mp hview
  obtain rfl := h.sound.devices.eq_of_key hsame hdevice heq
  obtain ⟨kept, hmem, hid, -⟩ := hkept.record
  have hkeep : same.deviceId ∈ keepIds s := by
    by_contra hkeep
    refine not_mem_saved h.sound ?_ hdevice hkind hkeep (hid ▸ List.mem_map_of_mem hmem)
    rw [h.schema]
    decide
  obtain ⟨writer, hwriter, hmatched, hwriterView⟩ := exists_view_of_mem_keepIds h.sound hkeep
  obtain ⟨-, -, -, -, hwriterUrl⟩ := (mem_viewUrls h.sound).mp hwriterView
  rw [hurl] at hwriterUrl
  rw [← hmatched]
  exact matchingId_eq_of_url h.sound (mem_viewUrls_of_mem hcamera) (mem_viewUrls_of_mem hwriter)
    (Option.some.inj hwriterUrl)

theorem not_mem_left_of_matchingId (h : Sound parseUrl s) {left right : List CameraDevice}
    (hsplit : toCameraDevices s = left ++ camera :: right)
    (hmatching : matchingId (viewUrls s) camera = camera.deviceId)
    (hurl : other.primaryStream.url = camera.primaryStream.url) : other ∉ left := by
  intro hother
  have hnodup := nodup_toCameraDevices h
  rw [hsplit, List.map_append, List.map_cons] at hnodup
  have hfirst := find?_matchingId h (mem_viewUrls_of_mem (hsplit ▸ List.mem_append_right left List.mem_cons_self))
  rw [hmatching, viewUrls, hsplit, List.map_append, List.find?_append] at hfirst
  have hfound : ((left.map fun camera => (camera.deviceId, camera.primaryStream.url)).find?
      fun view => view.2 = camera.primaryStream.url).isSome := by
    rw [List.find?_isSome]
    exact ⟨_, List.mem_map_of_mem hother, decide_eq_true hurl⟩
  obtain ⟨view, hview⟩ := Option.isSome_iff_exists.mp hfound
  rw [hview, Option.some_or] at hfirst
  obtain rfl := Option.some.inj hfirst
  obtain ⟨same, hsame, heq⟩ := List.mem_map.mp (List.mem_of_find?_eq_some hview)
  refine (List.nodup_cons.mp (List.nodup_middle.mp hnodup)).1 (List.mem_append_left _ ?_)
  rw [← (Prod.mk.inj heq).1]
  exact List.mem_map_of_mem hsame

/-- A Home Assistant camera is lost if it shares its address with another camera: either nothing is
written to it, or the other camera is written over it. -/
theorem addresses_of_platformRecordsKept (hkept : PlatformRecordsKept s (savedRegistry parseUrl s))
    (h : Stable parseUrl s) (hdevice : device ∈ s.devices)
    (hsource : device.source = "home_assistant") {url id : String}
    (hview : (device.deviceId, url) ∈ viewUrls s) (hother : (id, url) ∈ viewUrls s) :
    id = device.deviceId := by
  obtain ⟨camera, hcamera, hcameraEq⟩ := List.mem_map.mp hview
  obtain ⟨hcameraId, rfl⟩ := Prod.mk.inj hcameraEq
  obtain ⟨writer, hwriter, hwriterEq⟩ := List.mem_map.mp hother
  obtain ⟨rfl, hwriterUrl⟩ := Prod.mk.inj hwriterEq
  by_contra hne
  have hmatching : matchingId (viewUrls s) camera = device.deviceId :=
    matchingId_of_deviceKept h hdevice (hkept.homeAssistant device hdevice hsource) hcamera hview
  obtain ⟨left, right, hsplit⟩ := List.append_of_mem hcamera
  have hnodup := nodup_toCameraDevices h.sound
  rw [hsplit, List.map_append, List.map_cons] at hnodup
  have hwriterRight : writer ∈ right := by
    rw [hsplit, List.mem_append, List.mem_cons] at hwriter
    rcases hwriter with hleft | rfl | hright
    · exact absurd hleft (not_mem_left_of_matchingId h.sound hsplit
        (hmatching.trans hcameraId.symm) hwriterUrl)
    · exact absurd hcameraId hne
    · exact hright
  -- every camera that is written over the device is from elsewhere
  have hforeign : ∀ other ∈ right, matchingId (viewUrls s) other = device.deviceId →
      isBlank other.discoverySource = false ∧ other.discoverySource ≠ "home_assistant" := by
    intro other hright hmatched
    have hmem : other ∈ toCameraDevices s := by
      rw [hsplit]
      exact List.mem_append_right _ (List.mem_cons_of_mem _ hright)
    obtain ⟨target, htarget, rfl⟩ := List.mem_map.mp hmem
    obtain ⟨owner, howner, ht⟩ := List.mem_filterMap.mp htarget
    refine discoverySource_of_target h howner ?_ ht
    intro hownerSource
    have hid : owner.deviceId = target.deviceId := (profile_of_target h.sound ht).1.symm
    have hkeptOwner := matchingId_of_deviceKept h howner
      (hkept.homeAssistant owner howner hownerSource) hmem (hid ▸ mem_viewUrls_of_mem hmem)
    refine (List.nodup_cons.mp (List.nodup_middle.mp hnodup)).1 (List.mem_append_right _ ?_)
    rw [hcameraId, ← hmatched, hkeptOwner, hid]
    exact List.mem_map_of_mem (f := CameraDevice.deviceId) hright
  obtain ⟨kept, hkeptMem, hid, hkeptSource⟩ := (hkept.homeAssistant device hdevice hsource).record
  have hschema : s.schemaVersion ≠ 0 := by
    rw [h.schema]
    decide
  rw [savedRegistry_eq h.sound hschema, written_eq hsplit, List.map_cons, List.foldl_cons] at hkeptMem
  refine source_foldl_upsertCameraDevice
    ((sound_foldl_upsertCameraDevice h.sound _).upsertCameraDevice _) ?_ ?_ kept
    (List.mem_filter.mp hkeptMem).1 hid hkeptSource
  · intro write hwrite hwriteId
    obtain ⟨other, hright, rfl⟩ := List.mem_map.mp hwrite
    obtain ⟨hset, hforeignSource⟩ := hforeign other hright hwriteId
    constructor
    · exact (isBlank_normalizeDiscoverySource _).trans
        ((isBlank_normalizeDiscoverySource _).trans hset)
    · exact fun heq => hforeignSource (normalizeDiscoverySource_eq_homeAssistant
        (normalizeDiscoverySource_eq_homeAssistant heq))
  · left
    refine ⟨_, List.mem_map_of_mem hwriterRight, ?_⟩
    exact (matchingId_eq_of_url h.sound (mem_viewUrls_of_mem hwriter)
      (mem_viewUrls_of_mem hcamera) hwriterUrl).trans hmatching

theorem saveSafe_of_platformRecordsKept
    (hkept : PlatformRecordsKept s (savedRegistry parseUrl s)) (h : Stable parseUrl s) :
    SaveSafe s where
  streams := fun _ hdevice hkind => streams_of_platformRecordsKept hkept h hdevice hkind
  addresses := by
    intro device hdevice hkind hsource other hother hotherKind hne endpoint hendpoint hid
      otherEndpoint hotherEndpoint hotherId hshared
    have hurl := streamUrl_of_endpoint h.sound
      (streams_of_platformRecordsKept hkept h hdevice hkind) hendpoint hid
    have hotherUrl := streamUrl_of_endpoint h.sound
      (streams_of_platformRecordsKept hkept h hother hotherKind) hotherEndpoint hotherId
    rw [hshared] at hotherUrl
    exact hne (addresses_of_platformRecordsKept hkept h hdevice hsource
      ((mem_viewUrls h.sound).mpr ⟨device, hdevice, rfl, hkind, hurl⟩)
      ((mem_viewUrls h.sound).mpr ⟨other, hother, rfl, hotherKind, hotherUrl⟩))

end Losses

/-- After any calls, loading the cameras and saving them keeps the records of the platform exactly
if every device of the kind of a camera has a stream and no Home Assistant camera has the address
of another one. -/
theorem platformRecordsKept_iff (parseUrl : UrlParser) (operations : List RegistryOperation) :
    PlatformRecordsKept (registryAfter parseUrl operations)
        (savedRegistry parseUrl (registryAfter parseUrl operations)) ↔
      SaveSafe (registryAfter parseUrl operations) := by
  have h : Stable parseUrl (registryAfter parseUrl operations) := stable_registryAfter operations
  have hschema : (registryAfter parseUrl operations).schemaVersion ≠ 0 := by
    rw [h.schema]
    decide
  exact ⟨fun hkept => saveSafe_of_platformRecordsKept hkept h,
    fun hsafe => hsafe.platformRecordsKept h.sound hschema⟩

def porchCamera : HomeAssistantRegistryEntity where
  entityId := "camera.porch"
  domain := "camera"
  displayName := "Porch"
  state := "idle"
  areaId := none
  deviceClass := none
  lastChanged := none
  lastUpdated := none
  attributes := .object []

/-- The camera entity of a bridge is gone after a load and a save. -/
theorem porch_camera_lost :
    ¬ ∀ (parseUrl : UrlParser) (operations : List RegistryOperation),
      PlatformRecordsKept (registryAfter parseUrl operations)
        (savedRegistry parseUrl (registryAfter parseUrl operations)) := by
  intro hall
  have hkept := hall (fun _ => none) [.upsertHomeAssistant [porchCamera] "2026-04-15T08:00:00Z"]
  obtain ⟨device, hdevice, hsource, hsaved⟩ :
      ∃ device ∈ (registryAfter (fun _ => none)
          [.upsertHomeAssistant [porchCamera] "2026-04-15T08:00:00Z"]).devices,
        device.source = "home_assistant" ∧
        (savedRegistry (fun _ => none) (registryAfter (fun _ => none)
          [.upsertHomeAssistant [porchCamera] "2026-04-15T08:00:00Z"])).devices = [] := by
    decide +kernel
  obtain ⟨kept, hmem, -⟩ := (hkept.homeAssistant device hdevice hsource).record
  rw [hsaved] at hmem
  exact absurd hmem (by simp)

end HarborBeacon.RegistrySaves
