import HarborBeacon.RegistryRoundTrip
import HarborBeacon.RegistrySaves
import HarborBeacon.UpsertRuns
import Mathlib.Data.List.Pairwise

/-!
A list of cameras replaces the cameras of the registry. Every camera of the list has its entry among
the projected cameras exactly if each of them is written to a device of its own: a camera of the
registry that has the id of one of them and the address of another one is lost.
-/

namespace HarborBeacon.CameraReplacement

open DeviceRegistry OwnedTables RegistryIntegrity RegistrySaves RegistryViews Text UpsertRuns

section Statements

structure CameraEntry where
  deviceId : String
  name : String
  primaryStream : CameraStreamRef
  capabilities : CameraCapabilities
deriving DecidableEq

def entryOf (camera : CameraDevice) : CameraEntry where
  deviceId := camera.deviceId
  name := camera.name
  primaryStream := camera.primaryStream
  capabilities := camera.capabilities

variable (parseUrl : UrlParser) (s : DeviceRegistrySnapshot)

def writeTo (camera : CameraDevice) : CameraDevice :=
  { normalizeCameraMetadata (normalizeCameraMetadata camera) with
    deviceId := resolvedDeviceId s camera }

def expectedEntry (camera : CameraDevice) : CameraEntry :=
  entryOf { normalizeCameraMetadata camera with deviceId := resolvedDeviceId s camera }

/-- The projected cameras are those of the list, one by one. -/
def KeepsEveryCamera (cameras : List CameraDevice) : Prop :=
  ((toCameraDevices (replaceCameraDevicesPreservingPlatformRecords parseUrl s cameras)).map
    entryOf).Perm (cameras.map (expectedEntry s))

def SeparateMatches (cameras : List CameraDevice) : Prop :=
  ∀ first ∈ cameras, ∀ second ∈ cameras, ∀ existing,
    (toCameraDevices s).find? (fun view => sameCameraView view first) = some existing →
    (toCameraDevices s).find? (fun view => sameCameraView view second) = some existing →
    first = second

def NameStands (camera : CameraDevice) : Prop :=
  isBlank camera.name = true → ∀ device ∈ s.devices,
    device.deviceId = resolvedDeviceId s camera → device.displayName = camera.name

end Statements

section Resolutions

variable {parseUrl : UrlParser} {s : DeviceRegistrySnapshot} {camera other : CameraDevice}

def matchesDevice (s : DeviceRegistrySnapshot) (camera : CameraDevice)
    (device : ControlDeviceRecord) : Bool :=
  (viewEntry s device).any fun view =>
    view.1 = camera.deviceId || view.2 = camera.primaryStream.url

theorem matchesDevice_iff {device : ControlDeviceRecord} :
    matchesDevice s camera device = true ↔ device.kind = .camera ∧
      ∃ url, streamUrl s device.deviceId = some url ∧
        (device.deviceId = camera.deviceId ∨ url = camera.primaryStream.url) := by
  rw [matchesDevice, Option.any_eq_true]
  constructor
  · rintro ⟨⟨id, url⟩, hentry, hmatch⟩
    obtain ⟨rfl, hkind, hurl⟩ := viewEntry_eq_some_iff.mp hentry
    exact ⟨hkind, url, hurl, by simpa using hmatch⟩
  · rintro ⟨hkind, url, hurl, hmatch⟩
    exact ⟨(device.deviceId, url), viewEntry_eq_some_iff.mpr ⟨rfl, hkind, hurl⟩, by simpa using hmatch⟩

theorem resolvedDeviceId_devices (h : Sound parseUrl s) (camera : CameraDevice) :
    resolvedDeviceId s camera =
      ((s.devices.find? (matchesDevice s camera)).map ControlDeviceRecord.deviceId).getD
        camera.deviceId := by
  rw [resolvedDeviceId_eq, matchingId, viewUrls_eq h, List.find?_filterMap]
  change (((s.devices.find? (matchesDevice s camera)).bind (viewEntry s)).map Prod.fst).getD
    camera.deviceId = _
  rcases hfound : s.devices.find? (matchesDevice s camera) with _ | device
  · rfl
  · obtain ⟨hkind, url, hurl, -⟩ := matchesDevice_iff.mp (List.find?_some hfound)
    rw [Option.bind_some, viewEntry_eq_some_iff.mpr ⟨rfl, hkind, hurl⟩]
    rfl

theorem resolvedDeviceId_of_none (h : s.devices.find? (matchesDevice s camera) = none)
    (hs : Sound parseUrl s) : resolvedDeviceId s camera = camera.deviceId := by
  rw [resolvedDeviceId_devices hs, h]
  rfl

/-- The write of a camera does not change what another one, which is written elsewhere, is resolved
to. -/
theorem resolvedDeviceId_upsert (h : Sound parseUrl s) (hview : sameCameraView camera other = false)
    (hne : resolvedDeviceId s camera ≠ resolvedDeviceId s other) :
    resolvedDeviceId (upsertIncomingCamera parseUrl s camera) other = resolvedDeviceId s other := by
  simp only [sameCameraView, Bool.or_eq_false_iff, decide_eq_false_iff_not] at hview
  -- where the id of the other one is written, the camera has met a device with that id
  have hmet : resolvedDeviceId s camera = other.deviceId → ∃ device ∈ s.devices,
      device.deviceId = resolvedDeviceId s camera ∧ matchesDevice s camera device = true := by
    intro hid
    rcases hfound : s.devices.find? (matchesDevice s camera) with _ | device
    · rw [resolvedDeviceId_of_none hfound h] at hid
      exact absurd hid hview.1
    · refine ⟨device, List.mem_of_find?_eq_some hfound, ?_, List.find?_some hfound⟩
      rw [resolvedDeviceId_devices h, hfound]
      rfl
  have hwritten : ∀ device : ControlDeviceRecord, device.deviceId = resolvedDeviceId s camera →
      matchesDevice (upsertIncomingCamera parseUrl s camera) other device = true →
      resolvedDeviceId s camera = other.deviceId := by
    intro device hid hmatch
    obtain ⟨-, url, hurl, hsame⟩ := matchesDevice_iff.mp hmatch
    rw [hid, upsertIncomingCamera] at hurl
    have hself : streamUrl (upsertCameraDevice parseUrl s
        { camera with deviceId := resolvedDeviceId s camera }) (resolvedDeviceId s camera) =
          some camera.primaryStream.url := streamUrl_upsert_self h
    rw [hself, Option.some.injEq] at hurl
    rcases hsame with hsame | hsame
    · exact hid.symm.trans hsame
    · exact absurd (hurl.trans hsame) hview.2
  have hdevices : (upsertIncomingCamera parseUrl s camera).devices.find?
      (matchesDevice (upsertIncomingCamera parseUrl s camera) other) =
        s.devices.find? (matchesDevice s other) := by
    apply find?_upsertKey_congr h.devices
    · intro device hother
      have hurl : streamUrl (upsertIncomingCamera parseUrl s camera) device.deviceId =
          streamUrl s device.deviceId := streamUrl_upsert_of_ne h (Ne.symm hother)
      rw [matchesDevice, matchesDevice, viewEntry, viewEntry, hurl]
    · intro device hmem hid hmatch
      have hother := hwritten (updateCameraRecord _ device) hid hmatch
      obtain ⟨met, hmetMem, hmetId, hmetMatch⟩ := hmet hother
      obtain rfl := h.devices.eq_of_key hmem hmetMem (hid.trans hmetId.symm)
      obtain ⟨hkind, url, hurl, -⟩ := matchesDevice_iff.mp hmetMatch
      exact matchesDevice_iff.mpr ⟨hkind, url, hurl, Or.inl (hid.trans hother)⟩
    · intro hnone
      refine Bool.eq_false_iff.mpr fun hmatch => hnone ?_
      obtain ⟨met, hmetMem, hmetId, -⟩ := hmet (hwritten _ rfl hmatch)
      exact List.mem_map.mpr ⟨met, hmetMem, hmetId⟩
    · intro device hfound hid
      refine hne ?_
      rw [resolvedDeviceId_devices h other, hfound]
      exact hid.symm
  have hafter : Sound parseUrl (upsertIncomingCamera parseUrl s camera) := h.upsertCameraDevice _
  rw [resolvedDeviceId_devices hafter, resolvedDeviceId_devices h, hdevices]

theorem foldl_upsertIncomingCamera_of_separate (h : Sound parseUrl s) {cameras : List CameraDevice}
    (hviews : cameras.Pairwise fun first second => sameCameraView first second = false)
    (hids : cameras.Pairwise fun first second =>
      resolvedDeviceId s first ≠ resolvedDeviceId s second) :
    cameras.foldl (upsertIncomingCamera parseUrl) s =
      (cameras.map fun camera => { camera with deviceId := resolvedDeviceId s camera }).foldl
        (upsertCameraDevice parseUrl) s := by
  induction cameras generalizing s with
  | nil => rfl
  | cons camera rest ih =>
      obtain ⟨hview, hviewsRest⟩ := List.pairwise_cons.mp hviews
      obtain ⟨hid, hidsRest⟩ := List.pairwise_cons.mp hids
      have hsame : ∀ other ∈ rest, resolvedDeviceId (upsertIncomingCamera parseUrl s camera) other =
          resolvedDeviceId s other := fun other hother =>
        resolvedDeviceId_upsert h (hview other hother) (hid other hother)
      have hafter : Sound parseUrl (upsertIncomingCamera parseUrl s camera) := h.upsertCameraDevice _
      rw [List.foldl_cons, ih hafter hviewsRest, List.map_cons, List.foldl_cons]
      · refine congrArg (List.foldl _ _) (List.map_congr_left fun other hother => ?_)
        rw [hsame other hother]
      · refine hidsRest.imp_of_mem fun hfirst hsecond hne => ?_
        rw [hsame _ hfirst, hsame _ hsecond]
        exact hne

/-- Cameras are resolved to different devices exactly if no camera of the registry is the first match
of two of them. -/
theorem separateMatches_iff (h : Sound parseUrl s) {cameras : List CameraDevice}
    (hviews : cameras.Pairwise fun first second => sameCameraView first second = false) :
    SeparateMatches s cameras ↔ cameras.Pairwise fun first second =>
      resolvedDeviceId s first ≠ resolvedDeviceId s second := by
  have hresolved : ∀ {camera existing : CameraDevice},
      (toCameraDevices s).find? (fun view => sameCameraView view camera) = some existing →
      resolvedDeviceId s camera = existing.deviceId := by
    intro camera existing hfound
    rw [resolvedDeviceId, findMatchingCameraDeviceId, hfound]
    rfl
  have hunresolved : ∀ {camera : CameraDevice},
      (toCameraDevices s).find? (fun view => sameCameraView view camera) = none →
      resolvedDeviceId s camera = camera.deviceId := by
    intro camera hfound
    rw [resolvedDeviceId, findMatchingCameraDeviceId, hfound]
    rfl
  -- a camera that matches nothing is not written to the device of another one's match
  have hmissed : ∀ {first second existing : CameraDevice},
      (toCameraDevices s).find? (fun view => sameCameraView view first) = some existing →
      (toCameraDevices s).find? (fun view => sameCameraView view second) = none →
      resolvedDeviceId s first ≠ resolvedDeviceId s second := by
    intro first second existing hfirst hsecond heq
    rw [hresolved hfirst, hunresolved hsecond] at heq
    refine List.find?_eq_none.mp hsecond existing (List.mem_of_find?_eq_some hfirst) ?_
    simp [sameCameraView, heq]
  constructor
  · intro hseparate
    refine hviews.imp_of_mem fun {first second} hfirst hsecond hview heq => ?_
    simp only [sameCameraView, Bool.or_eq_false_iff, decide_eq_false_iff_not] at hview
    rcases hfoundFirst : (toCameraDevices s).find? (fun view => sameCameraView view first)
      with _ | existing
    · rcases hfoundSecond : (toCameraDevices s).find? (fun view => sameCameraView view second)
        with _ | existing
      · rw [hunresolved hfoundFirst, hunresolved hfoundSecond] at heq
        exact hview.1 heq
      · exact hmissed hfoundSecond hfoundFirst heq.symm
    · rcases hfoundSecond : (toCameraDevices s).find? (fun view => sameCameraView view second)
        with _ | second'
      · exact hmissed hfoundFirst hfoundSecond heq
      · rw [hresolved hfoundFirst, hresolved hfoundSecond] at heq
        have hsame := List.inj_on_of_nodup_map (nodup_toCameraDevices h)
          (List.mem_of_find?_eq_some hfoundFirst) (List.mem_of_find?_eq_some hfoundSecond) heq
        rw [hsame] at hfoundFirst
        exact hview.1 (congrArg _ (hseparate first hfirst second hsecond _ hfoundFirst hfoundSecond))
  · intro hids first hfirst second hsecond existing hfoundFirst hfoundSecond
    by_contra hne
    have hsymmetric : Std.Symm fun first second : CameraDevice =>
        resolvedDeviceId s first ≠ resolvedDeviceId s second := ⟨fun _ _ hne => hne.symm⟩
    refine hids.forall hfirst hsecond hne ?_
    rw [hresolved hfoundFirst, hresolved hfoundSecond]

end Resolutions

section Writes

variable {parseUrl : UrlParser} {s after before : DeviceRegistrySnapshot}
  {camera : CameraDevice} {device : ControlDeviceRecord}

theorem capabilities_upsert_self :
    cameraCapabilitiesFromRecords ((upsertCameraDevice parseUrl s camera).capabilities.filter
      fun capability => capability.deviceId = camera.deviceId) = camera.capabilities := by
  have hold : ∀ code ∈ managedCapabilityCodes, ((s.capabilities.filter fun capability =>
      !(capability.deviceId = camera.deviceId && capability.capabilityCode ∈ managedCapabilityCodes)
        ).filter fun capability => capability.deviceId = camera.deviceId).any
          (fun record => record.capabilityCode = code) = false := by
    intro code hcode
    rw [List.any_eq_false]
    intro record hrecord hsame
    obtain ⟨hmem, howner⟩ := List.mem_filter.mp hrecord
    have hkept := (List.mem_filter.mp hmem).2
    rw [← of_decide_eq_true hsame] at hcode
    simp [of_decide_eq_true howner, hcode] at hkept
  have hnew : (capabilityRecordsFromCamera camera).filter
      (fun capability => capability.deviceId = camera.deviceId) =
        capabilityRecordsFromCamera camera :=
    List.filter_eq_self.mpr fun record hrecord => decide_eq_true (capability_fromCamera hrecord).1
  rw [capabilities_upsertCameraDevice, List.filter_append, hnew,
    ← RegistryRoundTrip.capabilities_readBack, cameraCapabilitiesFromRecords_eq,
    cameraCapabilitiesFromRecords_eq]
  simp only [List.any_append, hold "snapshot" (by decide), hold "stream_live" (by decide),
    hold "ptz" (by decide), hold "audio" (by decide), Bool.false_or]

theorem record_of_write (camera : CameraDevice) (h : Sound parseUrl before)
    (hbefore : slice before camera.deviceId = slice s camera.deviceId)
    (hafter : slice after camera.deviceId =
      slice (upsertCameraDevice parseUrl before camera) camera.deviceId)
    (hdevice : device ∈ after.devices) (hid : device.deviceId = camera.deviceId) :
    (device.kind = .camera ↔ camera.kind = .camera) ∧
      (device.displayName = camera.name ↔ (isBlank camera.name = true →
        ∀ old ∈ s.devices, old.deviceId = camera.deviceId → old.displayName = camera.name)) := by
  have hkind : ∀ kind : DeviceKind, legacyDeviceKindToControl kind = .camera ↔ kind = .camera := by
    intro kind
    cases kind <;> decide
  have hold : ∀ old : ControlDeviceRecord, old.deviceId = camera.deviceId →
      (old ∈ s.devices ↔ old ∈ before.devices) := by
    intro old howner
    have hs : old ∈ (slice s camera.deviceId).devices ↔ _ := mem_slice_devices
    have hb : old ∈ (slice before camera.deviceId).devices ↔ _ := mem_slice_devices
    rw [hbefore, hs] at hb
    simpa only [howner, and_true] using hb
  have hwritten : device ∈ (upsertCameraDevice parseUrl before camera).devices := by
    have hmem := mem_slice_devices.mpr ⟨hdevice, hid⟩
    rw [hafter] at hmem
    exact (mem_slice_devices.mp hmem).1
  rw [devices_upsertCameraDevice] at hwritten
  rcases mem_upsertKey_of_eq h.devices hwritten hid with ⟨rfl, hnone⟩ | ⟨old, hmem, howner, rfl⟩
  · refine ⟨hkind _, iff_of_true rfl fun _ old hs howner => ?_⟩
    exact absurd (List.mem_map.mpr ⟨old, (hold old howner).mp hs, howner⟩) hnone
  · refine ⟨hkind _, ?_⟩
    have hname : (updateCameraRecord camera old).displayName =
        if isBlank camera.name then old.displayName else camera.name := rfl
    rw [hname]
    split
    · rename_i hblank
      constructor
      · intro hsame _ other hs hother
        rw [h.devices.eq_of_key ((hold other hother).mp hs) hmem (hother.trans howner.symm)]
        exact hsame
      · exact fun hall => hall hblank old ((hold old howner).mpr hmem) howner
    · rename_i hblank
      exact iff_of_true rfl fun h => absurd h hblank

/-- What is projected of a written device, if it is a camera. -/
theorem entry_of_write (camera : CameraDevice) (h : Sound parseUrl after)
    (hafter : slice after camera.deviceId =
      slice (upsertCameraDevice parseUrl before camera) camera.deviceId)
    (hid : device.deviceId = camera.deviceId) (hkind : device.kind = .camera) :
    ∃ target, resolvedCameraTarget after device = some target ∧
      entryOf target.into = ⟨camera.deviceId, device.displayName, camera.primaryStream,
        camera.capabilities⟩ := by
  have hprofile : streamProfileFromCamera camera ∈ after.streamProfiles := by
    have hmem : streamProfileFromCamera camera ∈ (slice after camera.deviceId).streamProfiles := by
      rw [hafter]
      refine mem_slice_streamProfiles.mpr ⟨?_, rfl⟩
      rw [streamProfiles_upsertCameraDevice]
      exact List.mem_append_right _ List.mem_cons_self
    exact (mem_slice_streamProfiles.mp hmem).1
  have hendpoint : streamEndpointFromCamera parseUrl camera
      (managedCameraPrimaryStreamEndpointId camera.deviceId) ∈ after.deviceEndpoints := by
    have hmem : streamEndpointFromCamera parseUrl camera
        (managedCameraPrimaryStreamEndpointId camera.deviceId) ∈
          (slice after camera.deviceId).deviceEndpoints := by
      rw [hafter]
      refine mem_slice_endpoints.mpr ⟨?_, rfl⟩
      rw [endpoints_upsertCameraDevice, endpointsFromCamera]
      exact List.mem_append_right _ (List.mem_append_right _ List.mem_cons_self)
    exact (mem_slice_endpoints.mp hmem).1
  have hfirst : (after.streamProfiles.find? fun profile => profile.deviceId = device.deviceId) =
      some (streamProfileFromCamera camera) := by
    rw [hid, ← find?_primaryStreamProfile h]
    exact h.streamProfiles.unique.find?_eq_some hprofile rfl
  have hstream : (after.deviceEndpoints.find? fun endpoint =>
      endpoint.endpointId = (streamProfileFromCamera camera).endpointId) =
        some (streamEndpointFromCamera parseUrl camera
          (managedCameraPrimaryStreamEndpointId camera.deviceId)) :=
    h.endpoints.unique.find?_eq_some hendpoint rfl
  obtain ⟨target, htarget, hname, hprimary⟩ : ∃ target,
      resolvedCameraTarget after device = some target ∧
      target.displayName = device.displayName ∧ target.primaryStream = camera.primaryStream := by
    rw [resolvedCameraTarget, if_pos hkind]
    simp only [preferredStreamProfile_eq h, hfirst, hstream, Option.bind_eq_bind, Option.bind_some]
    refine ⟨_, rfl, rfl, ?_⟩
    rw [streamUrlFromEndpoint_fromCamera]
    simp only [streamProfileFromCamera, streamEndpointFromCamera, RegistryRoundTrip.transport_readBack]
  refine ⟨target, htarget, ?_⟩
  obtain ⟨htargetId, -, -, -, -, hcapabilities⟩ := fields_of_resolvedCameraTarget htarget
  have hrecords : after.capabilities.filter (fun capability => capability.deviceId = device.deviceId) =
      (upsertCameraDevice parseUrl before camera).capabilities.filter
        fun capability => capability.deviceId = camera.deviceId := by
    rw [hid]
    exact congrArg DeviceRegistrySnapshot.capabilities hafter
  rw [hrecords, capabilities_upsert_self] at hcapabilities
  simp [entryOf, ResolvedCameraTarget.into, htargetId, hid, hname, hprimary, hcapabilities]

end Writes

section Replacements

variable {parseUrl : UrlParser} {s : DeviceRegistrySnapshot} {cameras : List CameraDevice}
  {camera : CameraDevice} {device : ControlDeviceRecord}

theorem exists_camera_of_kept (hkind : device.kind = .camera)
    (h : device ∈ (replaceCameraDevicesPreservingPlatformRecords parseUrl s cameras).devices) :
    ∃ camera ∈ cameras, resolvedDeviceId s camera = device.deviceId := by
  rw [replaceCameraDevicesPreservingPlatformRecords, pruneMissingCameraDevices, pruneDevices_eq] at h
  obtain ⟨hmem, hkeep⟩ := List.mem_filter.mp h
  by_contra hnone
  refine of_decide_eq_true hkeep (List.mem_map_of_mem (List.mem_filter.mpr ⟨hmem, ?_⟩))
  rw [List.map_map, hkind, decide_eq_true rfl, Bool.true_and, decide_eq_true_eq, List.mem_map]
  rintro ⟨camera, hcamera, heq⟩
  exact hnone ⟨camera, hcamera, heq⟩

theorem slice_replace (h : Sound parseUrl s)
    (hviews : cameras.Pairwise fun first second => sameCameraView first second = false)
    (hids : cameras.Pairwise fun first second =>
      resolvedDeviceId s first ≠ resolvedDeviceId s second) (hcamera : camera ∈ cameras) :
    ∃ before, Sound parseUrl before ∧
      slice before (resolvedDeviceId s camera) = slice s (resolvedDeviceId s camera) ∧
      slice (replaceCameraDevicesPreservingPlatformRecords parseUrl s cameras)
          (resolvedDeviceId s camera) =
        slice (upsertCameraDevice parseUrl before (writeTo s camera))
          (resolvedDeviceId s camera) := by
  have hwrites : upsertCameraDevicesPreservingPlatformRecords parseUrl s
      (cameras.map normalizeCameraMetadata) =
        (cameras.map (writeTo s)).foldl (upsertCameraDevice parseUrl) s := by
    have hincoming : (cameras.map (normalizeCameraMetadata ∘ normalizeCameraMetadata)).Pairwise
        fun first second => sameCameraView first second = false := List.pairwise_map.mpr hviews
    have hresolved : (cameras.map (normalizeCameraMetadata ∘ normalizeCameraMetadata)).Pairwise
        fun first second => resolvedDeviceId s first ≠ resolvedDeviceId s second :=
      List.pairwise_map.mpr hids
    rw [upsertCameraDevicesPreservingPlatformRecords, List.map_map,
      foldl_upsertIncomingCamera_of_separate h hincoming hresolved, List.map_map]
    rfl
  have hkept : resolvedDeviceId s camera ∈
      (cameras.map normalizeCameraMetadata).map (resolvedDeviceId s) := by
    rw [List.map_map]
    exact List.mem_map.mpr ⟨camera, hcamera, rfl⟩
  obtain ⟨left, right, rfl⟩ := List.append_of_mem hcamera
  obtain ⟨-, hright, hleft⟩ := List.pairwise_append.mp hids
  have hothers : ∀ write ∈ left.map (writeTo s) ++ right.map (writeTo s),
      write.deviceId ≠ resolvedDeviceId s camera := by
    rw [← List.map_append]
    intro write hwrite
    obtain ⟨other, hother, rfl⟩ := List.mem_map.mp hwrite
    rcases List.mem_append.mp hother with hmem | hmem
    · exact hleft other hmem camera List.mem_cons_self
    · exact ((List.pairwise_cons.mp hright).1 other hmem).symm
  obtain ⟨before, hbefore, hsame, hslice⟩ :=
    exists_only_upsert h (writeTo s camera) hothers
  refine ⟨before, hbefore, hsame, ?_⟩
  rw [← hslice, ← List.map_cons, ← List.map_append, ← hwrites,
    replaceCameraDevicesPreservingPlatformRecords, pruneMissingCameraDevices, pruneDevices_eq]
  refine slice_restrict_of_keep (decide_eq_true fun hremoved => ?_)
  obtain ⟨device, hdevice, hid⟩ := List.mem_map.mp hremoved
  have hpruned := (List.mem_filter.mp hdevice).2
  rw [Bool.and_eq_true, decide_eq_true_eq, hid] at hpruned
  exact of_decide_eq_true hpruned.2 hkept

theorem exists_device_of_camera (h : Sound parseUrl s)
    (hviews : cameras.Pairwise fun first second => sameCameraView first second = false)
    (hids : cameras.Pairwise fun first second =>
      resolvedDeviceId s first ≠ resolvedDeviceId s second) (hcamera : camera ∈ cameras) :
    ∃ device ∈ (replaceCameraDevicesPreservingPlatformRecords parseUrl s cameras).devices,
      device.deviceId = resolvedDeviceId s camera ∧
      (device.kind = .camera ↔ camera.kind = .camera) ∧
      (device.displayName = camera.name ↔ NameStands s camera) ∧
      (device.kind = .camera → ∃ target, resolvedCameraTarget
          (replaceCameraDevicesPreservingPlatformRecords parseUrl s cameras) device = some target ∧
        entryOf target.into = { expectedEntry s camera with name := device.displayName }) := by
  have hsound : Sound parseUrl (replaceCameraDevicesPreservingPlatformRecords parseUrl s cameras) :=
    h.applyOperation (.replaceCameraDevices cameras)
  obtain ⟨before, hbefore, hsame, hslice⟩ := slice_replace h hviews hids hcamera
  obtain ⟨device, hdevice, hid⟩ :=
    List.mem_map.mp (camera_mem_deviceIds parseUrl before (writeTo s camera))
  have hmem : device ∈ (slice (upsertCameraDevice parseUrl before (writeTo s camera))
      (resolvedDeviceId s camera)).devices := mem_slice_devices.mpr ⟨hdevice, hid⟩
  rw [← hslice] at hmem
  have hkept := (mem_slice_devices.mp hmem).1
  obtain ⟨hkind, hname⟩ := record_of_write (writeTo s camera) hbefore hsame hslice hkept hid
  refine ⟨device, hkept, hid, hkind, hname, fun hdeviceKind => ?_⟩
  obtain ⟨target, htarget, hentry⟩ :=
    entry_of_write (writeTo s camera) hsound hslice hid hdeviceKind
  refine ⟨target, htarget, hentry.trans ?_⟩
  have hstream : (normalizeCameraMetadata (normalizeCameraMetadata camera)).primaryStream =
      (normalizeCameraMetadata camera).primaryStream := by
    simp only [normalizeCameraMetadata]
    split <;> simp_all
  change CameraEntry.mk _ _ (normalizeCameraMetadata (normalizeCameraMetadata camera)).primaryStream _
    = _
  rw [hstream]
  rfl

end Replacements

end HarborBeacon.CameraReplacement
