import HarborBeacon.RegistryIntegrity

/-!
The registry seen by device: all that belongs to one device, the camera that is read from it, and
what the write of a camera changes.
-/

namespace HarborBeacon.RegistryViews

open DeviceRegistry Json Json.Value OwnedTables RegistryIntegrity Text

section Slices

def slice (s : DeviceRegistrySnapshot) (id : String) : DeviceRegistrySnapshot :=
  restrict s fun other => other = id

variable {parseUrl : UrlParser} {s : DeviceRegistrySnapshot} {camera : CameraDevice} {id : String}

theorem slice_upsertCameraDevice (h : Sound parseUrl s) (hne : camera.deviceId ≠ id) :
    slice (upsertCameraDevice parseUrl s camera) id = slice s id := by
  have hother : ∀ owner : String, owner = camera.deviceId → decide (owner = id) = false := by
    rintro owner rfl
    exact decide_eq_false hne
  rw [slice, slice, RegistryIntegrity.restrict, RegistryIntegrity.restrict]
  congr 1
  · exact filter_upsertKey (by intro _; rfl) (by rfl) fun device hdevice => hother _ hdevice
  · refine filter_replace ?_ fun endpoint hnew => hother _ (endpoint_deviceId_fromCamera hnew)
    intro endpoint hendpoint howner
    rw [decide_eq_true_eq]
    intro hmanaged
    obtain ⟨slot, hslot, heq⟩ : ∃ slot ∈ endpointSlots,
        camera.deviceId ++ slot = endpoint.endpointId := List.mem_map.mp hmanaged
    rw [hother _ (h.endpoints.owner_eq independent_endpointSlots hendpoint hslot heq.symm)] at howner
    exact absurd howner (by decide)
  · refine filter_replace ?_ fun binding hnew => hother _ (binding_fromCamera hnew).1
    intro binding hbinding howner
    rw [decide_eq_true_eq]
    intro hmanaged
    obtain ⟨slot, hslot, heq⟩ : ∃ slot ∈ managedBindingSlots,
        camera.deviceId ++ slot = binding.bindingId := List.mem_map.mp hmanaged
    rw [hother _ (h.bindings.owner_eq independent_bindingSlots hbinding
      (List.mem_append_left _ hslot) heq.symm)] at howner
    exact absurd howner (by decide)
  · refine filter_replace ?_ fun capability hnew => hother _ (capability_fromCamera hnew).1
    intro capability _ howner
    have hdiffers : capability.deviceId ≠ camera.deviceId := fun heq =>
      absurd howner (by simp [hother _ heq])
    simp [hdiffers]
  · exact filter_upsertKey (by intro _; rfl) (by rfl) fun twin htwin => hother _ htwin
  · exact filter_upsertKey (by intro _; rfl) (by rfl) fun profile hprofile => hother _ hprofile
  · refine filter_replace ?_ fun profile hnew => ?_
    · intro profile _ howner
      have hdiffers : profile.deviceId ≠ camera.deviceId := fun heq =>
        absurd howner (by simp [hother _ heq])
      simp [hdiffers]
    · rw [List.mem_singleton.mp hnew]
      exact hother _ rfl

theorem slice_restrict_of_keep {keep : String → Bool} (hkeep : keep id = true) :
    slice (restrict s keep) id = slice s id := by
  have hfilter : ∀ {α : Type} (owner : α → String) (items : List α),
      (items.filter fun item => keep (owner item)).filter (fun item => owner item = id) =
        items.filter fun item => owner item = id := by
    intro α owner items
    rw [List.filter_filter]
    refine List.filter_congr ?_
    intro item _
    by_cases howner : owner item = id
    · simp [howner, hkeep]
    · simp [howner]
  simp only [slice, RegistryIntegrity.restrict, hfilter]

theorem mem_slice_devices {device : ControlDeviceRecord} :
    device ∈ (slice s id).devices ↔ device ∈ s.devices ∧ device.deviceId = id := by
  simp [slice, RegistryIntegrity.restrict]

theorem mem_slice_endpoints {endpoint : DeviceEndpoint} :
    endpoint ∈ (slice s id).deviceEndpoints ↔
      endpoint ∈ s.deviceEndpoints ∧ endpoint.deviceId = id := by
  simp [slice, RegistryIntegrity.restrict]

theorem mem_slice_bindings {binding : ProviderBinding} :
    binding ∈ (slice s id).providerBindings ↔
      binding ∈ s.providerBindings ∧ binding.deviceId = id := by
  simp [slice, RegistryIntegrity.restrict]

theorem mem_slice_capabilities {capability : CapabilityRecord} :
    capability ∈ (slice s id).capabilities ↔
      capability ∈ s.capabilities ∧ capability.deviceId = id := by
  simp [slice, RegistryIntegrity.restrict]

theorem mem_slice_streamProfiles {profile : StreamProfile} :
    profile ∈ (slice s id).streamProfiles ↔ profile ∈ s.streamProfiles ∧ profile.deviceId = id := by
  simp [slice, RegistryIntegrity.restrict]

end Slices

section Views

variable {parseUrl : UrlParser} {s : DeviceRegistrySnapshot}

def streamUrl (s : DeviceRegistrySnapshot) (id : String) : Option String :=
  (s.streamProfiles.find? fun profile => profile.deviceId = id).bind fun _ =>
    (s.deviceEndpoints.find? fun endpoint =>
      endpoint.endpointId = managedCameraPrimaryStreamEndpointId id).map streamUrlFromEndpoint

def viewUrls (s : DeviceRegistrySnapshot) : List (String × String) :=
  (toCameraDevices s).map fun camera => (camera.deviceId, camera.primaryStream.url)

theorem find?_primaryStreamProfile (h : Sound parseUrl s) (id : String) :
    (s.streamProfiles.find? fun profile =>
        profile.streamProfileId = managedCameraPrimaryStreamProfileId id) =
      s.streamProfiles.find? fun profile => profile.deviceId = id := by
  refine List.find?_congr ?_
  intro profile hprofile
  obtain ⟨camera, rfl⟩ := h.streamProfile_origin profile hprofile
  rw [decide_eq_decide]
  constructor
  · intro hid
    exact (eq_of_append_slot independent_streamProfileSlots List.mem_cons_self
      List.mem_cons_self hid).1
  · intro howner
    exact congrArg managedCameraPrimaryStreamProfileId howner

theorem preferredStreamProfile_eq (h : Sound parseUrl s) (id : String) :
    preferredStreamProfile s.streamProfiles id
        ((s.cameraProfiles.find? fun profile => profile.deviceId = id).bind
          (·.defaultStreamProfileId)) =
      s.streamProfiles.find? fun profile => profile.deviceId = id := by
  have hdefault : (s.streamProfiles.find? fun profile => profile.deviceId = id && profile.isDefault) =
      s.streamProfiles.find? fun profile => profile.deviceId = id := by
    refine List.find?_congr ?_
    intro profile hprofile
    obtain ⟨camera, rfl⟩ := h.streamProfile_origin profile hprofile
    exact Bool.and_true _
  rw [preferredStreamProfile, hdefault, Option.or_self]
  cases hprofile : s.cameraProfiles.find? fun profile => profile.deviceId = id with
  | none => rfl
  | some profile =>
      have hid : profile.deviceId = id := by simpa using List.find?_some hprofile
      have hpreferred := h.cameraProfile_default profile (List.mem_of_find?_eq_some hprofile)
      simp only [Option.bind_some, hpreferred, hid, find?_primaryStreamProfile h]
      split
      · rename_i heq
        exact heq.symm
      · rfl

def viewEntry (s : DeviceRegistrySnapshot) (device : ControlDeviceRecord) :
    Option (String × String) :=
  if device.kind = .camera then
    (streamUrl s device.deviceId).map fun url => (device.deviceId, url)
  else none

theorem viewEntry_eq_some_iff {device : ControlDeviceRecord} {id url : String} :
    viewEntry s device = some (id, url) ↔
      device.deviceId = id ∧ device.kind = .camera ∧ streamUrl s id = some url := by
  rw [viewEntry]
  constructor
  · intro hentry
    split at hentry
    · rename_i hkind
      obtain ⟨other, hurl, heq⟩ := Option.map_eq_some_iff.mp hentry
      obtain ⟨rfl, rfl⟩ := Prod.mk.inj heq
      exact ⟨rfl, hkind, hurl⟩
    · exact absurd hentry (by simp)
  · rintro ⟨rfl, hkind, hurl⟩
    rw [if_pos hkind, hurl]
    rfl

theorem map_resolvedCameraTarget (h : Sound parseUrl s) (device : ControlDeviceRecord) :
    (resolvedCameraTarget s device).map (fun t => (t.deviceId, t.primaryStream.url)) =
      viewEntry s device := by
  rw [resolvedCameraTarget, viewEntry]
  split
  · simp only [preferredStreamProfile_eq h, streamUrl]
    cases hprofile : s.streamProfiles.find? fun profile => profile.deviceId = device.deviceId with
    | none => rfl
    | some profile =>
        have hmem := List.mem_of_find?_eq_some hprofile
        have howner : profile.deviceId = device.deviceId := by
          simpa using List.find?_some hprofile
        have hid := StreamProfile.endpointId_fromCamera (h.streamProfile_origin profile hmem)
        rw [howner] at hid
        simp only [Option.bind_eq_bind, Option.bind_some, hid]
        cases s.deviceEndpoints.find? fun endpoint =>
          endpoint.endpointId = managedCameraPrimaryStreamEndpointId device.deviceId <;> rfl
  · rfl

theorem viewUrls_eq (h : Sound parseUrl s) : viewUrls s = s.devices.filterMap (viewEntry s) := by
  rw [viewUrls, toCameraDevices, cameraTargets, List.map_map, List.map_filterMap]
  refine List.filterMap_congr ?_
  intro device _
  exact map_resolvedCameraTarget h device

theorem mem_viewUrls (h : Sound parseUrl s) {id url : String} :
    (id, url) ∈ viewUrls s ↔
      ∃ device ∈ s.devices, device.deviceId = id ∧ device.kind = .camera ∧
        streamUrl s id = some url := by
  simp only [viewUrls_eq h, List.mem_filterMap, viewEntry_eq_some_iff]

theorem nodup_viewUrls (h : Sound parseUrl s) : ((viewUrls s).map Prod.fst).Nodup := by
  rw [viewUrls_eq h]
  refine List.Nodup.sublist ?_ h.devices
  induction s.devices with
  | nil => exact List.Sublist.slnil
  | cons device rest ih =>
      rw [List.map_cons]
      cases hentry : viewEntry s device with
      | none =>
          rw [List.filterMap_cons_none hentry]
          exact ih.cons _
      | some entry =>
          rw [List.filterMap_cons_some hentry, List.map_cons,
            ← (viewEntry_eq_some_iff.mp hentry).1]
          exact ih.cons_cons _

theorem streamUrl_slice (h : Sound parseUrl s) (id : String) :
    streamUrl (slice s id) id = streamUrl s id := by
  have hprofile : ((slice s id).streamProfiles.find? fun profile => profile.deviceId = id) =
      s.streamProfiles.find? fun profile => profile.deviceId = id := by
    rw [slice, RegistryIntegrity.restrict, List.find?_filter]
    refine List.find?_congr ?_
    intro profile _
    simp
  have hendpoint : ((slice s id).deviceEndpoints.find? fun endpoint =>
        endpoint.endpointId = managedCameraPrimaryStreamEndpointId id) =
      s.deviceEndpoints.find? fun endpoint =>
        endpoint.endpointId = managedCameraPrimaryStreamEndpointId id := by
    rw [slice, RegistryIntegrity.restrict, List.find?_filter]
    refine List.find?_congr ?_
    intro endpoint hmem
    by_cases hid : endpoint.endpointId = managedCameraPrimaryStreamEndpointId id
    · have howner := h.endpoints.owner_eq independent_endpointSlots hmem
        (List.mem_cons_of_mem _ List.mem_cons_self) hid
      simp [howner]
    · simp [hid]
  rw [streamUrl, streamUrl, hprofile, hendpoint]

variable {camera : CameraDevice}

theorem streamUrlFromEndpoint_fromCamera (endpointId : String) :
    streamUrlFromEndpoint (streamEndpointFromCamera parseUrl camera endpointId) =
      camera.primaryStream.url := by
  simp [streamUrlFromEndpoint, streamEndpointFromCamera, obj, Value.get, lookupField, insertField,
    asStr]

theorem streamUrl_upsert_self (h : Sound parseUrl s) :
    streamUrl (upsertCameraDevice parseUrl s camera) camera.deviceId =
      some camera.primaryStream.url := by
  have hprofile : streamProfileFromCamera camera ∈
      (upsertCameraDevice parseUrl s camera).streamProfiles := by
    rw [streamProfiles_upsertCameraDevice]
    exact List.mem_append_right _ List.mem_cons_self
  have hfind : ((upsertCameraDevice parseUrl s camera).streamProfiles.find? fun profile =>
      profile.deviceId = camera.deviceId).isSome := by
    rw [List.find?_isSome]
    exact ⟨_, hprofile, decide_eq_true rfl⟩
  have hendpoint : ((upsertCameraDevice parseUrl s camera).deviceEndpoints.find? fun endpoint =>
        endpoint.endpointId = managedCameraPrimaryStreamEndpointId camera.deviceId) =
      some (streamEndpointFromCamera parseUrl camera
        (managedCameraPrimaryStreamEndpointId camera.deviceId)) := by
    have hmem : streamEndpointFromCamera parseUrl camera
        (managedCameraPrimaryStreamEndpointId camera.deviceId) ∈
        (upsertCameraDevice parseUrl s camera).deviceEndpoints := by
      rw [endpoints_upsertCameraDevice, endpointsFromCamera]
      exact List.mem_append_right _ (List.mem_append_right _ List.mem_cons_self)
    exact (h.upsertCameraDevice camera).endpoints.unique.find?_eq_some hmem rfl
  obtain ⟨profile, hfirst⟩ := Option.isSome_iff_exists.mp hfind
  rw [streamUrl, hfirst, hendpoint, Option.bind_some, Option.map_some,
    streamUrlFromEndpoint_fromCamera]

theorem streamUrl_upsert_of_ne (h : Sound parseUrl s) {id : String} (hne : camera.deviceId ≠ id) :
    streamUrl (upsertCameraDevice parseUrl s camera) id = streamUrl s id := by
  rw [← streamUrl_slice (h.upsertCameraDevice camera) id, slice_upsertCameraDevice h hne,
    streamUrl_slice h id]

end Views

section Writes

variable {parseUrl : UrlParser} {s : DeviceRegistrySnapshot} {camera : CameraDevice}
  {cameras : List CameraDevice}

theorem viewUrls_upsertCameraDevice (h : Sound parseUrl s) (hkind : camera.kind = .camera)
    (hview : (camera.deviceId, camera.primaryStream.url) ∈ viewUrls s) :
    viewUrls (upsertCameraDevice parseUrl s camera) = viewUrls s := by
  obtain ⟨known, hknown, hid, hknownKind, hurl⟩ := (mem_viewUrls h).mp hview
  have hmem : camera.deviceId ∈ s.devices.map ControlDeviceRecord.deviceId :=
    hid ▸ List.mem_map_of_mem hknown
  rw [viewUrls_eq (h.upsertCameraDevice camera), viewUrls_eq h, devices_upsertCameraDevice,
    h.devices.upsertKey_eq_map hmem, List.filterMap_map]
  refine List.filterMap_congr ?_
  intro device hdevice
  rw [Function.comp_apply]
  by_cases hsame : device.deviceId = camera.deviceId
  · have hdeviceKind : device.kind = .camera := by
      rw [h.devices.eq_of_key hdevice hknown (hsame.trans hid.symm)]
      exact hknownKind
    have hwrittenKind : (updateCameraRecord camera device).kind = .camera := by
      rw [updateCameraRecord, hkind]
      rfl
    have hwrittenId : (updateCameraRecord camera device).deviceId = device.deviceId := rfl
    rw [if_pos hsame, viewEntry, viewEntry, if_pos hwrittenKind, if_pos hdeviceKind, hwrittenId,
      hsame, streamUrl_upsert_self h, hurl]
  · rw [if_neg hsame, viewEntry, viewEntry,
      streamUrl_upsert_of_ne h fun heq => hsame heq.symm]

def matchingId (views : List (String × String)) (camera : CameraDevice) : String :=
  ((views.find? fun view =>
    view.1 = camera.deviceId || view.2 = camera.primaryStream.url).map Prod.fst).getD camera.deviceId

theorem resolvedDeviceId_eq (s : DeviceRegistrySnapshot) (camera : CameraDevice) :
    resolvedDeviceId s camera = matchingId (viewUrls s) camera := by
  rw [resolvedDeviceId, findMatchingCameraDeviceId, matchingId, viewUrls, List.find?_map,
    Option.map_map]
  rfl

theorem find?_matchingId (h : Sound parseUrl s)
    (hview : (camera.deviceId, camera.primaryStream.url) ∈ viewUrls s) :
    (viewUrls s).find? (fun view => view.2 = camera.primaryStream.url) =
      some (matchingId (viewUrls s) camera, camera.primaryStream.url) := by
  have hsame : (viewUrls s).find? (fun view =>
        view.1 = camera.deviceId || view.2 = camera.primaryStream.url) =
      (viewUrls s).find? fun view => view.2 = camera.primaryStream.url := by
    refine List.find?_congr ?_
    rintro ⟨id, url⟩ hmem
    by_cases hid : id = camera.deviceId
    · obtain ⟨-, -, -, -, hleft⟩ := (mem_viewUrls h).mp hmem
      obtain ⟨-, -, -, -, hright⟩ := (mem_viewUrls h).mp hview
      have hurl : url = camera.primaryStream.url := by
        rw [hid, hright] at hleft
        exact (Option.some.inj hleft).symm
      simp [hid, hurl]
    · simp [hid]
  have hfound : ((viewUrls s).find? fun view => view.2 = camera.primaryStream.url).isSome := by
    rw [List.find?_isSome]
    exact ⟨_, hview, decide_eq_true rfl⟩
  obtain ⟨⟨id, url⟩, hfirst⟩ := Option.isSome_iff_exists.mp hfound
  have hurl : url = camera.primaryStream.url := by simpa using List.find?_some hfirst
  rw [matchingId, hsame, hfirst, hurl]
  rfl

theorem matchingId_mem (h : Sound parseUrl s)
    (hview : (camera.deviceId, camera.primaryStream.url) ∈ viewUrls s) :
    (matchingId (viewUrls s) camera, camera.primaryStream.url) ∈ viewUrls s :=
  List.mem_of_find?_eq_some (find?_matchingId h hview)

def redirect (views : List (String × String)) (camera : CameraDevice) : CameraDevice :=
  { camera with deviceId := matchingId views camera }

theorem foldl_upsertIncomingCamera (h : Sound parseUrl s)
    (hcameras : ∀ camera ∈ cameras, camera.kind = .camera ∧
      (camera.deviceId, camera.primaryStream.url) ∈ viewUrls s) :
    cameras.foldl (upsertIncomingCamera parseUrl) s =
      (cameras.map (redirect (viewUrls s))).foldl (upsertCameraDevice parseUrl) s := by
  induction cameras generalizing s with
  | nil => rfl
  | cons camera rest ih =>
      obtain ⟨hkind, hview⟩ := hcameras camera List.mem_cons_self
      have hstep : upsertIncomingCamera parseUrl s camera =
          upsertCameraDevice parseUrl s (redirect (viewUrls s) camera) := by
        rw [upsertIncomingCamera, resolvedDeviceId_eq]
        rfl
      have hviews : viewUrls (upsertCameraDevice parseUrl s (redirect (viewUrls s) camera)) =
          viewUrls s :=
        viewUrls_upsertCameraDevice h hkind (matchingId_mem h hview)
      rw [List.foldl_cons, List.map_cons, List.foldl_cons, hstep,
        ih (h.upsertCameraDevice _) (by
          rw [hviews]
          exact fun other hother => hcameras other (List.mem_cons_of_mem _ hother)), hviews]

theorem sound_foldl_upsertCameraDevice (h : Sound parseUrl s) (cameras : List CameraDevice) :
    Sound parseUrl (cameras.foldl (upsertCameraDevice parseUrl) s) :=
  h.foldl (fun _ camera hs => hs.upsertCameraDevice camera) cameras

theorem slice_foldl_upsertCameraDevice (h : Sound parseUrl s) {id : String}
    (hne : ∀ camera ∈ cameras, camera.deviceId ≠ id) :
    slice (cameras.foldl (upsertCameraDevice parseUrl) s) id = slice s id := by
  induction cameras generalizing s with
  | nil => rfl
  | cons camera rest ih =>
      rw [List.foldl_cons, ih (h.upsertCameraDevice camera) fun other hother =>
        hne other (List.mem_cons_of_mem _ hother)]
      exact slice_upsertCameraDevice h (hne camera List.mem_cons_self)

theorem exists_only_upsert (h : Sound parseUrl s) {left right : List CameraDevice}
    (camera : CameraDevice) {id : String} (hothers : ∀ other ∈ left ++ right, other.deviceId ≠ id) :
    ∃ before, Sound parseUrl before ∧ slice before id = slice s id ∧
      slice ((left ++ camera :: right).foldl (upsertCameraDevice parseUrl) s) id =
        slice (upsertCameraDevice parseUrl before camera) id := by
  have hbefore := sound_foldl_upsertCameraDevice h left
  refine ⟨_, hbefore, slice_foldl_upsertCameraDevice h fun other hother =>
    hothers other (List.mem_append_left _ hother), ?_⟩
  rw [List.foldl_append, List.foldl_cons]
  exact slice_foldl_upsertCameraDevice (hbefore.upsertCameraDevice _) fun other hother =>
    hothers other (List.mem_append_right _ hother)

end Writes

section Descriptions

variable {parseUrl : UrlParser} {s : DeviceRegistrySnapshot} {device : ControlDeviceRecord}
  {target : ResolvedCameraTarget}

theorem fields_of_resolvedCameraTarget (h : resolvedCameraTarget s device = some target) :
    target.deviceId = device.deviceId ∧
      target.discoverySource = (if isBlank device.source then
        inferDiscoverySource (s.providerBindings.filter fun binding =>
          binding.deviceId = device.deviceId) else device.source) ∧
      target.ipAddress = (s.deviceEndpoints.find? fun item =>
        item.deviceId = device.deviceId && item.endpointKind = .ipv4).map (·.host) ∧
      target.onvifDeviceServiceUrl =
        ((s.providerBindings.filter fun binding => binding.deviceId = device.deviceId).find?
            fun binding => binding.providerKey = "onvif").bind (fun binding =>
          (binding.metadata.get "device_service_url").bind asStr) ∧
      target.ezvizDeviceSerial =
        ((s.providerBindings.filter fun binding => binding.deviceId = device.deviceId).find?
            fun binding => binding.providerKey = "ezviz").bind (·.remoteDeviceId) ∧
      target.capabilities = cameraCapabilitiesFromRecords
        (s.capabilities.filter fun capability => capability.deviceId = device.deviceId) := by
  rw [resolvedCameraTarget] at h
  split at h
  · obtain ⟨profile, -, h⟩ := Option.bind_eq_some_iff.mp h
    obtain ⟨endpoint, -, h⟩ := Option.bind_eq_some_iff.mp h
    obtain rfl := Option.some.inj h
    exact ⟨rfl, rfl, rfl, rfl, rfl, rfl⟩
  · exact absurd h (by simp)

theorem cameraCapabilitiesFromRecords_eq (records : List CapabilityRecord) :
    cameraCapabilitiesFromRecords records =
      { snapshot := records.any fun record => record.capabilityCode = "snapshot"
        stream := records.any fun record => record.capabilityCode = "stream_live"
        ptz := records.any fun record => record.capabilityCode = "ptz"
        audio := records.any fun record => record.capabilityCode = "audio" } := by
  suffices hgeneral : ∀ capabilities : CameraCapabilities, records.foldl _ capabilities =
      { snapshot := capabilities.snapshot ||
          records.any fun record => record.capabilityCode = "snapshot"
        stream := capabilities.stream ||
          records.any fun record => record.capabilityCode = "stream_live"
        ptz := capabilities.ptz || records.any fun record => record.capabilityCode = "ptz"
        audio := capabilities.audio || records.any fun record => record.capabilityCode = "audio" } by
    exact (hgeneral {}).trans (by simp)
  induction records with
  | nil => simp
  | cons record rest ih =>
      intro capabilities
      rw [List.foldl_cons, ih]
      split_ifs with hsnapshot hstream hptz haudio <;>
        simp_all

variable {camera : CameraDevice} {binding : ProviderBinding}

theorem endpointId_written (h : Sound parseUrl s) (ht : resolvedCameraTarget s device = some target)
    (hid : camera.deviceId = device.deviceId) (hip : camera.ipAddress = target.ipAddress)
    {endpoint : DeviceEndpoint} (hmem : endpoint ∈ s.deviceEndpoints)
    (howner : endpoint.deviceId = device.deviceId) :
    endpoint.endpointId ∈ (endpointsFromCamera parseUrl camera).map DeviceEndpoint.endpointId := by
  obtain ⟨origin, horigin⟩ := h.endpoint_origin endpoint hmem
  have hsame : origin.deviceId = camera.deviceId := by
    rw [hid, ← howner, endpoint_deviceId_fromCamera horigin]
  rw [endpointsFromCamera, List.mem_append, Option.mem_toList, Option.map_eq_some_iff,
    List.mem_singleton] at horigin
  rw [endpointsFromCamera, List.map_append]
  rcases horigin with ⟨ip, -, rfl⟩ | rfl
  · have hfound : target.ipAddress.isSome := by
      rw [(fields_of_resolvedCameraTarget ht).2.2.1, Option.isSome_map, List.find?_isSome]
      exact ⟨_, hmem, by simpa using ⟨howner, rfl⟩⟩
    obtain ⟨address, haddress⟩ := Option.isSome_iff_exists.mp (hip ▸ hfound)
    refine List.mem_append_left _ ?_
    rw [haddress]
    exact List.mem_singleton.mpr (congrArg managedCameraIpv4EndpointId hsame)
  · exact List.mem_append_right _
      (List.mem_singleton.mpr (congrArg managedCameraPrimaryStreamEndpointId hsame))

theorem mem_providerBindingsFromCamera :
    binding ∈ providerBindingsFromCamera camera ↔
      binding = streamBindingFromCamera camera ∨
        (∃ url, camera.onvifDeviceServiceUrl = some url ∧
          onvifBindingFromCamera camera url = binding) ∨
        ∃ serial, camera.ezvizDeviceSerial = some serial ∧
          ezvizBindingFromCamera camera serial = binding := by
  simp only [providerBindingsFromCamera, List.mem_append, List.mem_singleton, Option.mem_toList,
    Option.map_eq_some_iff, or_assoc]

theorem providerKey_streamBinding :
    (streamBindingFromCamera camera).providerKey ∈ ["rtsp", "hls", "webrtc", "stream"] := by
  simp only [streamBindingFromCamera]
  cases camera.primaryStream.transport <;> decide

theorem reads_of_bindingOrigin (h : BindingOrigin binding) :
    (binding.providerKey = "onvif" →
        ((binding.metadata.get "device_service_url").bind asStr).isSome) ∧
      (binding.providerKey = "ezviz" → binding.remoteDeviceId.isSome) := by
  rcases h with ⟨origin, horigin⟩ | ⟨deviceId, entity, syncAt, rfl⟩
  · rcases mem_providerBindingsFromCamera.mp horigin with rfl | ⟨url, -, rfl⟩ | ⟨serial, -, rfl⟩
    · have hkey : (streamBindingFromCamera origin).providerKey ∈ _ := providerKey_streamBinding
      constructor <;>
      · intro heq
        rw [heq] at hkey
        exact absurd hkey (by decide)
    · constructor
      · intro _
        simp [onvifBindingFromCamera, obj, Value.get, asStr]
      · intro heq
        exact absurd heq (by simp [onvifBindingFromCamera])
    · constructor
      · intro heq
        exact absurd heq (by simp [ezvizBindingFromCamera])
      · intro _
        rfl
  · constructor <;>
    · intro heq
      exact absurd heq (by simp [homeAssistantBinding])

theorem isSome_find?_bind {β : Type} {read : ProviderBinding → Option β} {key : String}
    (h : Sound parseUrl s)
    (hread : ∀ binding, BindingOrigin binding → binding.providerKey = key → (read binding).isSome)
    (hmem : binding ∈ s.providerBindings) {id : String} (howner : binding.deviceId = id)
    (hkey : binding.providerKey = key) :
    (((s.providerBindings.filter fun binding => binding.deviceId = id).find? fun binding =>
      binding.providerKey = key).bind read).isSome := by
  have hfound : ((s.providerBindings.filter fun binding => binding.deviceId = id).find?
      fun binding => binding.providerKey = key).isSome := by
    rw [List.find?_isSome]
    exact ⟨binding, List.mem_filter.mpr ⟨hmem, decide_eq_true howner⟩, decide_eq_true hkey⟩
  obtain ⟨first, hfirst⟩ := Option.isSome_iff_exists.mp hfound
  have hsame : first.providerKey = key := by simpa using List.find?_some hfirst
  have horigin := h.binding_origin first (List.mem_filter.mp (List.mem_of_find?_eq_some hfirst)).1
  rw [hfirst]
  exact hread first horigin hsame

theorem bindingId_written (h : Sound parseUrl s) (ht : resolvedCameraTarget s device = some target)
    (hid : camera.deviceId = device.deviceId)
    (honvif : camera.onvifDeviceServiceUrl = target.onvifDeviceServiceUrl)
    (hezviz : camera.ezvizDeviceSerial = target.ezvizDeviceSerial)
    (hmem : binding ∈ s.providerBindings) (howner : binding.deviceId = device.deviceId) :
    binding.bindingId ∈ (providerBindingsFromCamera camera).map ProviderBinding.bindingId ∨
      binding.bindingId ∉ managedProviderBindingIds camera.deviceId := by
  obtain ⟨-, -, -, htargetOnvif, htargetEzviz, -⟩ := fields_of_resolvedCameraTarget ht
  rcases h.binding_origin binding hmem with ⟨origin, horigin⟩ | ⟨deviceId, entity, syncAt, rfl⟩
  · left
    have hsame : origin.deviceId = camera.deviceId := by
      rw [hid, ← howner, (binding_fromCamera horigin).1]
    rcases mem_providerBindingsFromCamera.mp horigin with rfl | ⟨url, -, rfl⟩ | ⟨serial, -, rfl⟩
    · exact List.mem_map.mpr ⟨_, mem_providerBindingsFromCamera.mpr (Or.inl rfl),
        congrArg (· ++ "::binding::stream") hsame.symm⟩
    · have hsome := isSome_find?_bind h (fun _ hfrom => (reads_of_bindingOrigin hfrom).1) hmem howner rfl
      rw [← htargetOnvif, ← honvif] at hsome
      obtain ⟨found, hfound⟩ := Option.isSome_iff_exists.mp hsome
      exact List.mem_map.mpr
        ⟨_, mem_providerBindingsFromCamera.mpr (Or.inr (Or.inl ⟨found, hfound, rfl⟩)),
          congrArg (· ++ "::binding::onvif") hsame.symm⟩
    · have hsome := isSome_find?_bind h (fun _ hfrom => (reads_of_bindingOrigin hfrom).2) hmem howner rfl
      rw [← htargetEzviz, ← hezviz] at hsome
      obtain ⟨found, hfound⟩ := Option.isSome_iff_exists.mp hsome
      exact List.mem_map.mpr
        ⟨_, mem_providerBindingsFromCamera.mpr (Or.inr (Or.inr ⟨found, hfound, rfl⟩)),
          congrArg (· ++ "::binding::ezviz") hsame.symm⟩
  · right
    intro hmanaged
    obtain ⟨slot, hslot, heq⟩ : ∃ slot ∈ managedBindingSlots,
        camera.deviceId ++ slot = homeAssistantBindingId deviceId := List.mem_map.mp hmanaged
    have hclash := (eq_of_append_slot independent_bindingSlots (List.mem_append_left _ hslot)
      (List.mem_append_right _ List.mem_cons_self) heq).2
    rw [hclash] at hslot
    exact absurd hslot (by decide)

theorem homeAssistant_code_not_managed (deviceId : String) (entity : HomeAssistantRegistryEntity) :
    (homeAssistantCapability deviceId entity).capabilityCode ∉ managedCapabilityCodes := by
  intro hmem
  have hhead : ∀ code ∈ managedCapabilityCodes, code.toList.head? ≠ some 'h' := by decide
  refine hhead _ hmem ?_
  rw [homeAssistantCapability, String.toList_append, String.toList_append]
  rfl

/-- Every capability of a camera is written again or is not one of those that a write clears. -/
theorem capabilityId_written (h : Sound parseUrl s)
    (ht : resolvedCameraTarget s device = some target) (hid : camera.deviceId = device.deviceId)
    (hcapabilities : camera.capabilities = target.capabilities)
    {capability : CapabilityRecord} (hmem : capability ∈ s.capabilities)
    (howner : capability.deviceId = device.deviceId) :
    capability.capabilityId ∈
        (capabilityRecordsFromCamera camera).map CapabilityRecord.capabilityId ∨
      capability.capabilityCode ∉ managedCapabilityCodes := by
  obtain ⟨-, -, -, -, -, hset⟩ := fields_of_resolvedCameraTarget ht
  rw [cameraCapabilitiesFromRecords_eq, ← hcapabilities] at hset
  have hany : ∀ code, capability.capabilityCode = code →
      ((s.capabilities.filter fun capability => capability.deviceId = device.deviceId).any
        fun record => record.capabilityCode = code) = true := by
    intro code hcode
    rw [List.any_eq_true]
    exact ⟨capability, List.mem_filter.mpr ⟨hmem, decide_eq_true howner⟩, decide_eq_true hcode⟩
  rcases h.capability_origin capability hmem with ⟨origin, horigin⟩ | ⟨deviceId, entity, rfl⟩
  · left
    have hsame : camera.deviceId = origin.deviceId := by
      rw [hid, ← howner, (capability_fromCamera horigin).1]
    have hcode : ∀ code category, (capabilityFromCamera camera code category).capabilityId =
        (capabilityFromCamera origin code category).capabilityId := by
      intro code category
      show camera.deviceId ++ "::capability::" ++ code = origin.deviceId ++ "::capability::" ++ code
      rw [hsame]
    rw [List.mem_map]
    rcases mem_capabilityRecordsFromCamera.mp horigin with
      ⟨-, rfl⟩ | ⟨-, rfl⟩ | ⟨-, rfl⟩ | ⟨-, rfl⟩
    · have hflag : camera.capabilities.snapshot = true := by
        rw [hset]
        exact hany _ rfl
      exact ⟨_, mem_capabilityRecordsFromCamera.mpr (Or.inl ⟨hflag, rfl⟩), hcode _ _⟩
    · have hflag : camera.capabilities.stream = true := by
        rw [hset]
        exact hany _ rfl
      exact ⟨_, mem_capabilityRecordsFromCamera.mpr (Or.inr (Or.inl ⟨hflag, rfl⟩)), hcode _ _⟩
    · have hflag : camera.capabilities.ptz = true := by
        rw [hset]
        exact hany _ rfl
      exact ⟨_, mem_capabilityRecordsFromCamera.mpr (Or.inr (Or.inr (Or.inl ⟨hflag, rfl⟩))),
        hcode _ _⟩
    · have hflag : camera.capabilities.audio = true := by
        rw [hset]
        exact hany _ rfl
      exact ⟨_, mem_capabilityRecordsFromCamera.mpr (Or.inr (Or.inr (Or.inr ⟨hflag, rfl⟩))),
        hcode _ _⟩
  · exact Or.inr (homeAssistant_code_not_managed deviceId entity)

end Descriptions

end HarborBeacon.RegistryViews
