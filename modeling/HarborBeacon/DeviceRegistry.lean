import HarborBeacon.Json
import HarborBeacon.OwnedTables
import HarborBeacon.Text

/-!
The device registry. Devices, their endpoints, provider bindings, capabilities, twins and media
profiles stand in seven tables; a camera as the rest of the program sees it is read from these
tables, and cameras and Home Assistant entities are written back into them.
-/

namespace HarborBeacon.DeviceRegistry

open Json Json.Value OwnedTables Text

inductive ControlDeviceKind where
  | camera | light | sensor | lock | gateway | nas | service | unknown
deriving DecidableEq

inductive DeviceLifecycleState where
  | discovered | registered | active | disabled | retired
deriving DecidableEq

structure ControlDeviceRecord where
  deviceId : String
  workspaceId : String
  kind : ControlDeviceKind
  subtype : Option String
  displayName : String
  aliases : List String
  vendor : Option String
  model : Option String
  serialNumber : Option String
  macAddress : Option String
  primaryRoomId : Option String
  lifecycleState : DeviceLifecycleState
  source : String
  metadata : Value
deriving DecidableEq

inductive DeviceEndpointKind where
  | ipv4 | ipv6 | mac | rtsp | onvif | matter | http | websocket
deriving DecidableEq

inductive ReachabilityStatus where
  | online | offline | degraded | unknown
deriving DecidableEq

structure DeviceEndpoint where
  endpointId : String
  deviceId : String
  endpointKind : DeviceEndpointKind
  scheme : String
  host : String
  port : Option UInt16
  path : Option String
  requiresAuth : Bool
  reachabilityStatus : ReachabilityStatus
  lastSeenAt : Option String
  metadata : Value
deriving DecidableEq

inductive ProviderKind where
  | aiCloud | vendorCloud | vendorLocal | bridge | harborOs | standard
deriving DecidableEq

inductive DeviceSupportMode where
  | native | cloud | bridge | lab | unsupported
deriving DecidableEq

inductive ProviderBindingStatus where
  | active | invalid | pending | revoked
deriving DecidableEq

structure ProviderBinding where
  bindingId : String
  deviceId : String
  providerAccountId : Option String
  providerKey : String
  providerKind : ProviderKind
  remoteDeviceId : Option String
  credentialRef : Option String
  bindingStatus : ProviderBindingStatus
  supportMode : DeviceSupportMode
  metadata : Value
  lastSyncAt : Option String
deriving DecidableEq

inductive CapabilityCategory where
  | state | control | stream | media | event
deriving DecidableEq

inductive CapabilityAccessMode where
  | read | write | invoke | subscribe
deriving DecidableEq

inductive CapabilityAvailability where
  | available | unavailable | degraded
deriving DecidableEq

structure CapabilityRecord where
  capabilityId : String
  deviceId : String
  capabilityCode : String
  category : CapabilityCategory
  accessMode : CapabilityAccessMode
  supportMode : DeviceSupportMode
  availability : CapabilityAvailability
  sourceBindingId : Option String
  metadata : Value
deriving DecidableEq

inductive ConnectivityState where
  | online | offline | degraded | unknown
deriving DecidableEq

structure DeviceTwin where
  deviceId : String
  connectivityState : ConnectivityState
  reportedState : Value
  desiredState : Value
  healthState : Value
  lastEventId : Option String
  lastSeenAt : Option String
deriving DecidableEq

inductive ControlStreamTransport where
  | rtsp | hls | webrtc | file | unknown
deriving DecidableEq

structure CameraProfile where
  deviceId : String
  defaultStreamProfileId : Option String
  audioSupported : Bool
  ptzSupported : Bool
  privacySupported : Bool
  playbackSupported : Bool
  recordingPolicyId : Option String
  vendorFeatures : Value
deriving DecidableEq

/-- A stream profile; the frame rate is given by the bits of its `f32`. -/
structure StreamProfile where
  streamProfileId : String
  deviceId : String
  profileName : String
  transport : ControlStreamTransport
  endpointId : String
  videoCodec : Option String
  audioCodec : Option String
  width : Option UInt32
  height : Option UInt32
  fps : Option UInt32
  bitrateKbps : Option UInt32
  isDefault : Bool
deriving DecidableEq

/-- The kinds of devices that a camera view can name. -/
inductive DeviceKind where
  | camera | light | sensor | lock | gateway | unknown
deriving DecidableEq

inductive DeviceStatus where
  | online | offline | degraded | unknown
deriving DecidableEq

inductive StreamTransport where
  | rtsp | hls | webrtc | unknown
deriving DecidableEq

structure CameraStreamRef where
  transport : StreamTransport
  url : String
  requiresAuth : Bool
deriving DecidableEq

structure CameraCapabilities where
  snapshot : Bool := false
  stream : Bool := false
  ptz : Bool := false
  audio : Bool := false
deriving DecidableEq

structure CameraDevice where
  deviceId : String
  name : String
  kind : DeviceKind
  status : DeviceStatus
  room : Option String
  vendor : Option String
  model : Option String
  ipAddress : Option String
  macAddress : Option String
  discoverySource : String
  primaryStream : CameraStreamRef
  snapshotUrl : Option String
  onvifDeviceServiceUrl : Option String
  ezvizDeviceSerial : Option String
  ezvizCameraNo : Option UInt32
  capabilities : CameraCapabilities
  lastSeenAt : Option String
deriving DecidableEq

def CameraDevice.new (deviceId name url : String) : CameraDevice where
  deviceId := deviceId
  name := name
  kind := .camera
  status := .unknown
  room := none
  vendor := none
  model := none
  ipAddress := none
  macAddress := none
  discoverySource := "unknown"
  primaryStream := { transport := .rtsp, url := url, requiresAuth := false }
  snapshotUrl := none
  onvifDeviceServiceUrl := none
  ezvizDeviceSerial := none
  ezvizCameraNo := none
  capabilities := {}
  lastSeenAt := none

structure ResolvedCameraTarget where
  deviceId : String
  displayName : String
  status : DeviceStatus
  roomName : Option String
  vendor : Option String
  model : Option String
  ipAddress : Option String
  macAddress : Option String
  discoverySource : String
  primaryStream : CameraStreamRef
  snapshotUrl : Option String
  onvifDeviceServiceUrl : Option String
  ezvizDeviceSerial : Option String
  ezvizCameraNo : Option UInt32
  capabilities : CameraCapabilities
  lastSeenAt : Option String
deriving DecidableEq

def ResolvedCameraTarget.into (target : ResolvedCameraTarget) : CameraDevice where
  deviceId := target.deviceId
  name := target.displayName
  kind := .camera
  status := target.status
  room := target.roomName
  vendor := target.vendor
  model := target.model
  ipAddress := target.ipAddress
  macAddress := target.macAddress
  discoverySource := target.discoverySource
  primaryStream := target.primaryStream
  snapshotUrl := target.snapshotUrl
  onvifDeviceServiceUrl := target.onvifDeviceServiceUrl
  ezvizDeviceSerial := target.ezvizDeviceSerial
  ezvizCameraNo := target.ezvizCameraNo
  capabilities := target.capabilities
  lastSeenAt := target.lastSeenAt

structure HomeAssistantRegistryEntity where
  entityId : String
  domain : String
  displayName : String
  state : String
  areaId : Option String
  deviceClass : Option String
  lastChanged : Option String
  lastUpdated : Option String
  attributes : Value
deriving DecidableEq

structure DeviceRegistrySnapshot where
  schemaVersion : UInt32
  devices : List ControlDeviceRecord
  deviceEndpoints : List DeviceEndpoint
  providerBindings : List ProviderBinding
  capabilities : List CapabilityRecord
  deviceTwins : List DeviceTwin
  cameraProfiles : List CameraProfile
  streamProfiles : List StreamProfile
deriving DecidableEq

def defaultRegistrySchemaVersion : UInt32 :=
  1

def emptyRegistrySnapshot : DeviceRegistrySnapshot where
  schemaVersion := defaultRegistrySchemaVersion
  devices := []
  deviceEndpoints := []
  providerBindings := []
  capabilities := []
  deviceTwins := []
  cameraProfiles := []
  streamProfiles := []

def isTpLinkTapoVendor (vendor model : Option String) : Bool :=
  let vendor := toAsciiLowercase (vendor.getD "")
  let model := toAsciiLowercase (model.getD "")
  containsText vendor "tapo" || containsText vendor "tp-link" || containsText vendor "tplink" ||
    containsText model "tapo"

def normalizeOptionalString (value : Option String) : Option String :=
  value.bind fun value =>
    let trimmed := trim value
    if trimmed ≠ "" then some trimmed else none

def normalizeRtspCandidate (value : String) : Option String :=
  let trimmed := trim value
  if trimmed = "" then none
  else some (if startsWithText trimmed "/" then trimmed else "/" ++ trimmed)

def asObject : Value → Option Fields
  | .object fields => some fields
  | _ => none

def pushCandidate (candidates : List String) : Option String → List String
  | some candidate =>
      if candidate ∈ candidates then candidates else candidates ++ [candidate]
  | none => candidates

def mergeTapoRtspPathCandidates (existing : Option Value) : Value :=
  let candidates := pushCandidate [] (normalizeRtspCandidate "/stream1")
  let candidates := pushCandidate candidates (normalizeRtspCandidate "/stream2")
  let entries :=
    ((existing.bind asObject).bind (lookupField "rtsp_path_candidates")).bind asArray
  ofStrings (((entries.getD []).filterMap asStr).foldl
    (fun candidates entry => pushCandidate candidates (normalizeRtspCandidate entry)) candidates)

def tapoVendorFeatures (camera : CameraDevice) (existing : Option Value) : Value :=
  let features := (existing.bind asObject).getD []
  let features :=
    if isTpLinkTapoVendor camera.vendor camera.model then
      insertField "rtsp_path_candidates" (mergeTapoRtspPathCandidates existing)
        (insertField "profile" (.string "tp-link/tapo") features)
    else features
  match normalizeOptionalString camera.snapshotUrl with
  | some snapshotUrl => .object (insertField "native_snapshot_url" (.string snapshotUrl) features)
  | none => .object features

def nativeSnapshotUrlFromCameraProfile (cameraProfile : Option CameraProfile) : Option String :=
  cameraProfile.bind fun profile =>
    ((profile.vendorFeatures.get "native_snapshot_url").bind asStr).or
      ((profile.vendorFeatures.pointer ["native_snapshot", "url"]).bind asStr)

def slugPush (slug : List Char) (ch : Char) : List Char :=
  if ch.isAlphanum then slug ++ [ch.toLower]
  else if slug.getLast? = some '-' then slug else slug ++ ['-']

def homeAssistantDeviceId (entityId : String) : String :=
  let slug := entityId.toList.foldl slugPush []
  let slug := String.ofList ((slug.dropWhile (· = '-')).rdropWhile (· = '-'))
  if slug = "" then "ha-entity" else "ha-" ++ slug

def homeAssistantBindingId (deviceId : String) : String :=
  deviceId ++ "::binding::home_assistant"

def managedCameraIpv4EndpointId (deviceId : String) : String :=
  deviceId ++ "::endpoint::ipv4"

def managedCameraPrimaryStreamEndpointId (deviceId : String) : String :=
  deviceId ++ "::endpoint::primary_stream"

def managedCameraPrimaryStreamProfileId (deviceId : String) : String :=
  deviceId ++ "::stream::primary"

def managedCameraEndpointIds (deviceId : String) : List String :=
  [managedCameraIpv4EndpointId deviceId, managedCameraPrimaryStreamEndpointId deviceId]

def managedProviderBindingIds (deviceId : String) : List String :=
  [deviceId ++ "::binding::stream", deviceId ++ "::binding::onvif",
    deviceId ++ "::binding::ezviz"]

def normalizeDiscoverySource (value : String) : String :=
  if value = "rtspprobe" then "rtsp_probe" else value

def homeAssistantDeviceKind (domain : String) : ControlDeviceKind :=
  if domain = "camera" then .camera
  else if domain = "light" then .light
  else if domain ∈ ["sensor", "binary_sensor"] then .sensor
  else if domain = "lock" then .lock
  else if domain ∈ ["media_player", "scene", "script", "automation", "climate", "cover", "fan",
      "switch"] then .service
  else .unknown

def homeAssistantConnectivityState (state : String) : ConnectivityState :=
  if state = "unavailable" then .offline else if state = "unknown" then .unknown else .online

def homeAssistantCapabilityAvailability (state : String) : CapabilityAvailability :=
  if state = "unavailable" then .unavailable
  else if state = "unknown" then .degraded
  else .available

def legacyDeviceKindToControl : DeviceKind → ControlDeviceKind
  | .camera => .camera
  | .light => .light
  | .sensor => .sensor
  | .lock => .lock
  | .gateway => .gateway
  | .unknown => .unknown

def legacyStatusToConnectivity : DeviceStatus → ConnectivityState
  | .online => .online
  | .offline => .offline
  | .degraded => .degraded
  | .unknown => .unknown

def connectivityToLegacyStatus : ConnectivityState → DeviceStatus
  | .online => .online
  | .offline => .offline
  | .degraded => .degraded
  | .unknown => .unknown

def legacyStatusToReachability : DeviceStatus → ReachabilityStatus
  | .online => .online
  | .offline => .offline
  | .degraded => .degraded
  | .unknown => .unknown

def legacyStreamTransportToControl : StreamTransport → ControlStreamTransport
  | .rtsp => .rtsp
  | .hls => .hls
  | .webrtc => .webrtc
  | .unknown => .unknown

def controlStreamTransportToLegacy : ControlStreamTransport → StreamTransport
  | .rtsp => .rtsp
  | .hls => .hls
  | .webrtc => .webrtc
  | .file | .unknown => .unknown

def legacyStreamTransportScheme : StreamTransport → String
  | .rtsp => "rtsp"
  | .hls => "hls"
  | .webrtc => "webrtc"
  | .unknown => "unknown"

/-- The parts of a parsed address that the registry reads. -/
structure Url where
  scheme : String
  hostStr : Option String
  portOrKnownDefault : Option UInt16
  path : String
  query : Option String
deriving DecidableEq

/-- The address parser of the `url` package; an unreadable address has no result. -/
abbrev UrlParser := String → Option Url

def streamEndpointFromCamera (parseUrl : UrlParser) (camera : CameraDevice)
    (endpointId : String) : DeviceEndpoint :=
  let parsed := parseUrl camera.primaryStream.url
  { endpointId := endpointId
    deviceId := camera.deviceId
    endpointKind :=
      match camera.primaryStream.transport with
      | .rtsp => .rtsp
      | .hls => .http
      | .webrtc => .websocket
      | .unknown => .http
    scheme := (parsed.map (·.scheme)).getD
      (legacyStreamTransportScheme camera.primaryStream.transport)
    host := (parsed.bind (·.hostStr)).getD camera.primaryStream.url
    port := parsed.bind (·.portOrKnownDefault)
    path := parsed.map fun url =>
      match url.query with
      | some query => url.path ++ "?" ++ query
      | none => url.path
    requiresAuth := camera.primaryStream.requiresAuth
    reachabilityStatus := legacyStatusToReachability camera.status
    lastSeenAt := camera.lastSeenAt
    metadata := obj [("url", .string camera.primaryStream.url)] }

def ipv4EndpointFromCamera (camera : CameraDevice) (ipAddress : String) : DeviceEndpoint where
  endpointId := managedCameraIpv4EndpointId camera.deviceId
  deviceId := camera.deviceId
  endpointKind := .ipv4
  scheme := "ipv4"
  host := ipAddress
  port := none
  path := none
  requiresAuth := false
  reachabilityStatus := legacyStatusToReachability camera.status
  lastSeenAt := camera.lastSeenAt
  metadata := obj []

def endpointsFromCamera (parseUrl : UrlParser) (camera : CameraDevice) : List DeviceEndpoint :=
  (camera.ipAddress.map (ipv4EndpointFromCamera camera)).toList ++
    [streamEndpointFromCamera parseUrl camera
      (managedCameraPrimaryStreamEndpointId camera.deviceId)]

def streamBindingFromCamera (camera : CameraDevice) : ProviderBinding where
  bindingId := camera.deviceId ++ "::binding::stream"
  deviceId := camera.deviceId
  providerAccountId := none
  providerKey :=
    match camera.primaryStream.transport with
    | .rtsp => "rtsp"
    | .hls => "hls"
    | .webrtc => "webrtc"
    | .unknown => "stream"
  providerKind := .standard
  remoteDeviceId := none
  credentialRef := none
  bindingStatus := .active
  supportMode := .native
  metadata := obj [
    ("discovery_source", .string camera.discoverySource),
    ("transport", .string (legacyStreamTransportScheme camera.primaryStream.transport)),
    ("snapshot_url", ofOption camera.snapshotUrl)]
  lastSyncAt := camera.lastSeenAt

def onvifBindingFromCamera (camera : CameraDevice) (deviceServiceUrl : String) :
    ProviderBinding where
  bindingId := camera.deviceId ++ "::binding::onvif"
  deviceId := camera.deviceId
  providerAccountId := none
  providerKey := "onvif"
  providerKind := .standard
  remoteDeviceId := none
  credentialRef := none
  bindingStatus := .active
  supportMode := .native
  metadata := obj [
    ("device_service_url", .string deviceServiceUrl),
    ("discovery_source", .string camera.discoverySource)]
  lastSyncAt := camera.lastSeenAt

def ezvizBindingFromCamera (camera : CameraDevice) (deviceSerial : String) :
    ProviderBinding where
  bindingId := camera.deviceId ++ "::binding::ezviz"
  deviceId := camera.deviceId
  providerAccountId := none
  providerKey := "ezviz"
  providerKind := .vendorCloud
  remoteDeviceId := some deviceSerial
  credentialRef := none
  bindingStatus := .active
  supportMode := .cloud
  metadata := obj [
    ("camera_no", ofOptionU64 (camera.ezvizCameraNo.map UInt32.toUInt64))]
  lastSyncAt := camera.lastSeenAt

def providerBindingsFromCamera (camera : CameraDevice) : List ProviderBinding :=
  [streamBindingFromCamera camera] ++
    (camera.onvifDeviceServiceUrl.map (onvifBindingFromCamera camera)).toList ++
    (camera.ezvizDeviceSerial.map (ezvizBindingFromCamera camera)).toList

def capabilityFromCamera (camera : CameraDevice) (code : String)
    (category : CapabilityCategory) : CapabilityRecord where
  capabilityId := camera.deviceId ++ "::capability::" ++ code
  deviceId := camera.deviceId
  capabilityCode := code
  category := category
  accessMode :=
    match category with
    | .state => .read
    | .control => .invoke
    | .stream | .media => .read
    | .event => .subscribe
  supportMode := .native
  availability := .available
  sourceBindingId := some (camera.deviceId ++ "::binding::stream")
  metadata := obj []

def capabilityRecordsFromCamera (camera : CameraDevice) : List CapabilityRecord :=
  (if camera.capabilities.snapshot then [capabilityFromCamera camera "snapshot" .media] else []) ++
    (if camera.capabilities.stream then [capabilityFromCamera camera "stream_live" .stream]
      else []) ++
    (if camera.capabilities.ptz then [capabilityFromCamera camera "ptz" .control] else []) ++
    (if camera.capabilities.audio then [capabilityFromCamera camera "audio" .media] else [])

def deviceRecordFromCamera (camera : CameraDevice) (source : String) : ControlDeviceRecord where
  deviceId := camera.deviceId
  workspaceId := ""
  kind := legacyDeviceKindToControl camera.kind
  subtype := if camera.capabilities.ptz then some "ptz_camera" else none
  displayName := camera.name
  aliases := []
  vendor := camera.vendor
  model := camera.model
  serialNumber := none
  macAddress := camera.macAddress
  primaryRoomId := camera.room
  lifecycleState := .registered
  source := source
  metadata := obj []

def twinFromCamera (camera : CameraDevice) : DeviceTwin where
  deviceId := camera.deviceId
  connectivityState := legacyStatusToConnectivity camera.status
  reportedState := obj []
  desiredState := obj []
  healthState := obj []
  lastEventId := none
  lastSeenAt := camera.lastSeenAt

def streamProfileFromCamera (camera : CameraDevice) : StreamProfile where
  streamProfileId := managedCameraPrimaryStreamProfileId camera.deviceId
  deviceId := camera.deviceId
  profileName := "primary"
  transport := legacyStreamTransportToControl camera.primaryStream.transport
  endpointId := managedCameraPrimaryStreamEndpointId camera.deviceId
  videoCodec := none
  audioCodec := if camera.capabilities.audio then some "unknown" else none
  width := none
  height := none
  fps := none
  bitrateKbps := none
  isDefault := true

def cameraProfileFromCamera (camera : CameraDevice) : CameraProfile where
  deviceId := camera.deviceId
  defaultStreamProfileId := some (managedCameraPrimaryStreamProfileId camera.deviceId)
  audioSupported := camera.capabilities.audio
  ptzSupported := camera.capabilities.ptz
  privacySupported := false
  playbackSupported := false
  recordingPolicyId := none
  vendorFeatures := tapoVendorFeatures camera none

def sameCameraView (existing incoming : CameraDevice) : Bool :=
  existing.deviceId = incoming.deviceId ||
    existing.primaryStream.url = incoming.primaryStream.url

def normalizeCameraMetadata (device : CameraDevice) : CameraDevice :=
  { device with
    discoverySource := normalizeDiscoverySource device.discoverySource
    primaryStream :=
      { device.primaryStream with
        transport := if device.primaryStream.transport = .unknown then .rtsp
          else device.primaryStream.transport }
    snapshotUrl := normalizeOptionalString device.snapshotUrl }

section Views

def preferredStreamProfile (streamProfiles : List StreamProfile) (deviceId : String)
    (preferredStreamProfileId : Option String) : Option StreamProfile :=
  let preferred := preferredStreamProfileId.bind fun streamProfileId =>
    streamProfiles.find? fun profile => profile.streamProfileId = streamProfileId
  match preferred with
  | some profile => some profile
  | none =>
      (streamProfiles.find? fun profile => profile.deviceId = deviceId && profile.isDefault).or
        (streamProfiles.find? fun profile => profile.deviceId = deviceId)

def rebuildUrlFromEndpoint (endpoint : DeviceEndpoint) : String :=
  let url := endpoint.scheme ++ "://" ++ endpoint.host
  let url :=
    match endpoint.port with
    | some port => url ++ ":" ++ toString port.toNat
    | none => url
  match endpoint.path with
  | some path =>
      if path = "" then url
      else if startsWithText path "/" then url ++ path
      else url ++ "/" ++ path
  | none => url

def streamUrlFromEndpoint (endpoint : DeviceEndpoint) : String :=
  ((endpoint.metadata.get "url").bind asStr).getD (rebuildUrlFromEndpoint endpoint)

def cameraCapabilitiesFromRecords (records : List CapabilityRecord) : CameraCapabilities :=
  records.foldl
    (fun capabilities record =>
      if record.capabilityCode = "snapshot" then { capabilities with snapshot := true }
      else if record.capabilityCode = "stream_live" then { capabilities with stream := true }
      else if record.capabilityCode = "ptz" then { capabilities with ptz := true }
      else if record.capabilityCode = "audio" then { capabilities with audio := true }
      else capabilities)
    {}

def inferDiscoverySource (bindings : List ProviderBinding) : String :=
  if bindings.any fun binding => binding.providerKey = "onvif" then "onvif"
  else
    match bindings.head? with
    | some binding => binding.providerKey
    | none => "unknown"

variable (self : DeviceRegistrySnapshot)

def resolvedCameraTarget (device : ControlDeviceRecord) : Option ResolvedCameraTarget :=
  if device.kind = .camera then do
    let cameraProfile := self.cameraProfiles.find? fun profile =>
      profile.deviceId = device.deviceId
    let streamProfile ← preferredStreamProfile self.streamProfiles device.deviceId
      (cameraProfile.bind (·.defaultStreamProfileId))
    let endpoint ← self.deviceEndpoints.find? fun item =>
      item.endpointId = streamProfile.endpointId
    let twin := self.deviceTwins.find? fun item => item.deviceId = device.deviceId
    let bindingSet := self.providerBindings.filter fun binding =>
      binding.deviceId = device.deviceId
    let capabilitySet := self.capabilities.filter fun capability =>
      capability.deviceId = device.deviceId
    return {
      deviceId := device.deviceId
      displayName := device.displayName
      status := (twin.map fun item => connectivityToLegacyStatus item.connectivityState).getD
        .unknown
      roomName := device.primaryRoomId
      vendor := device.vendor
      model := device.model
      ipAddress := (self.deviceEndpoints.find? fun item =>
        item.deviceId = device.deviceId && item.endpointKind = .ipv4).map (·.host)
      macAddress := device.macAddress
      discoverySource :=
        if isBlank device.source then inferDiscoverySource bindingSet else device.source
      primaryStream := {
        transport := controlStreamTransportToLegacy streamProfile.transport
        url := streamUrlFromEndpoint endpoint
        requiresAuth := endpoint.requiresAuth }
      snapshotUrl :=
        ((bindingSet.find? fun binding =>
            binding.providerKey ∈ ["rtsp", "hls", "webrtc", "stream"]).bind fun binding =>
          (binding.metadata.get "snapshot_url").bind asStr).or
        (nativeSnapshotUrlFromCameraProfile cameraProfile)
      onvifDeviceServiceUrl :=
        (bindingSet.find? fun binding => binding.providerKey = "onvif").bind fun binding =>
          (binding.metadata.get "device_service_url").bind asStr
      ezvizDeviceSerial :=
        (bindingSet.find? fun binding => binding.providerKey = "ezviz").bind fun binding =>
          binding.remoteDeviceId
      ezvizCameraNo :=
        (bindingSet.find? fun binding => binding.providerKey = "ezviz").bind fun binding =>
          ((binding.metadata.get "camera_no").bind asU64).map UInt64.toUInt32
      capabilities := cameraCapabilitiesFromRecords capabilitySet
      lastSeenAt := twin.bind (·.lastSeenAt) }
  else none

def cameraTarget (deviceId : String) : Option ResolvedCameraTarget :=
  (self.devices.find? fun device => device.deviceId = deviceId && device.kind = .camera).bind
    (resolvedCameraTarget self)

def cameraTargets : List ResolvedCameraTarget :=
  self.devices.filterMap (resolvedCameraTarget self)

def toCameraDevices : List CameraDevice :=
  (cameraTargets self).map ResolvedCameraTarget.into

def intoCameraDevices : List CameraDevice :=
  toCameraDevices self

def findMatchingCameraDeviceId (incoming : CameraDevice) : Option String :=
  ((toCameraDevices self).find? fun existing => sameCameraView existing incoming).map (·.deviceId)

end Views

section Upserts

variable (parseUrl : UrlParser) (self : DeviceRegistrySnapshot)

def updateCameraRecord (camera : CameraDevice) (existing : ControlDeviceRecord) :
    ControlDeviceRecord :=
  { existing with
    kind := legacyDeviceKindToControl camera.kind
    displayName := if isBlank camera.name then existing.displayName else camera.name
    subtype :=
      if camera.capabilities.ptz && existing.subtype.isNone then some "ptz_camera"
      else existing.subtype
    vendor := camera.vendor.or existing.vendor
    model := camera.model.or existing.model
    macAddress := camera.macAddress.or existing.macAddress
    primaryRoomId := camera.room.or existing.primaryRoomId
    lifecycleState := .registered
    source :=
      if isBlank camera.discoverySource then existing.source
      else normalizeDiscoverySource camera.discoverySource }

def upsertCameraRecord (camera : CameraDevice) : DeviceRegistrySnapshot :=
  { self with
    devices := upsertKey ControlDeviceRecord.deviceId camera.deviceId (updateCameraRecord camera)
      (deviceRecordFromCamera camera (normalizeDiscoverySource camera.discoverySource))
      self.devices }

def upsertCameraTwin (camera : CameraDevice) : DeviceRegistrySnapshot :=
  { self with
    deviceTwins := upsertKey DeviceTwin.deviceId camera.deviceId
      (fun existing =>
        { existing with
          connectivityState := legacyStatusToConnectivity camera.status
          lastSeenAt := camera.lastSeenAt.or existing.lastSeenAt })
      (twinFromCamera camera) self.deviceTwins }

def replaceManagedCameraEndpoints (camera : CameraDevice) : DeviceRegistrySnapshot :=
  { self with
    deviceEndpoints :=
      (self.deviceEndpoints.filter fun endpoint =>
        endpoint.endpointId ∉ managedCameraEndpointIds camera.deviceId) ++
      endpointsFromCamera parseUrl camera }

def replaceManagedCameraStreamProfiles (camera : CameraDevice) : DeviceRegistrySnapshot :=
  { self with
    streamProfiles :=
      (self.streamProfiles.filter fun profile =>
        !(profile.deviceId = camera.deviceId &&
          profile.streamProfileId = managedCameraPrimaryStreamProfileId camera.deviceId)) ++
      [streamProfileFromCamera camera] }

def upsertCameraProfile (camera : CameraDevice) : DeviceRegistrySnapshot :=
  { self with
    cameraProfiles := upsertKey CameraProfile.deviceId camera.deviceId
      (fun existing =>
        { existing with
          defaultStreamProfileId := some (managedCameraPrimaryStreamProfileId camera.deviceId)
          audioSupported := existing.audioSupported || camera.capabilities.audio
          ptzSupported := existing.ptzSupported || camera.capabilities.ptz
          vendorFeatures := tapoVendorFeatures camera (some existing.vendorFeatures) })
      (cameraProfileFromCamera camera) self.cameraProfiles }

def managedCapabilityCodes : List String :=
  ["snapshot", "stream_live", "ptz", "audio"]

def replaceManagedCameraCapabilities (camera : CameraDevice) : DeviceRegistrySnapshot :=
  { self with
    capabilities :=
      (self.capabilities.filter fun capability =>
        !(capability.deviceId = camera.deviceId &&
          capability.capabilityCode ∈ managedCapabilityCodes)) ++
      capabilityRecordsFromCamera camera }

def replaceManagedProviderBindings (camera : CameraDevice) : DeviceRegistrySnapshot :=
  { self with
    providerBindings :=
      (self.providerBindings.filter fun binding =>
        binding.bindingId ∉ managedProviderBindingIds camera.deviceId) ++
      providerBindingsFromCamera camera }

def upsertCameraDevice (camera : CameraDevice) : DeviceRegistrySnapshot :=
  let self := upsertCameraRecord self camera
  let self := upsertCameraTwin self camera
  let self := replaceManagedCameraEndpoints parseUrl self camera
  let self := replaceManagedCameraStreamProfiles self camera
  let self := upsertCameraProfile self camera
  let self := replaceManagedCameraCapabilities self camera
  replaceManagedProviderBindings self camera

def resolvedDeviceId (incoming : CameraDevice) : String :=
  (findMatchingCameraDeviceId self incoming).getD incoming.deviceId

def upsertIncomingCamera (incoming : CameraDevice) : DeviceRegistrySnapshot :=
  upsertCameraDevice parseUrl self { incoming with deviceId := resolvedDeviceId self incoming }

def upsertCameraDevicesPreservingPlatformRecords (devices : List CameraDevice) :
    DeviceRegistrySnapshot :=
  (devices.map normalizeCameraMetadata).foldl (upsertIncomingCamera parseUrl) self

def pruneDevices (remove : ControlDeviceRecord → Bool) : DeviceRegistrySnapshot :=
  let removeDeviceIds := (self.devices.filter remove).map (·.deviceId)
  if removeDeviceIds.isEmpty then self
  else
    { self with
      devices := self.devices.filter fun device => device.deviceId ∉ removeDeviceIds
      deviceEndpoints := self.deviceEndpoints.filter fun endpoint =>
        endpoint.deviceId ∉ removeDeviceIds
      providerBindings := self.providerBindings.filter fun binding =>
        binding.deviceId ∉ removeDeviceIds
      capabilities := self.capabilities.filter fun capability =>
        capability.deviceId ∉ removeDeviceIds
      deviceTwins := self.deviceTwins.filter fun twin => twin.deviceId ∉ removeDeviceIds
      cameraProfiles := self.cameraProfiles.filter fun profile =>
        profile.deviceId ∉ removeDeviceIds
      streamProfiles := self.streamProfiles.filter fun profile =>
        profile.deviceId ∉ removeDeviceIds }

def pruneMissingCameraDevices (keepDeviceIds : List String) : DeviceRegistrySnapshot :=
  pruneDevices self fun device => device.kind = .camera && device.deviceId ∉ keepDeviceIds

def pruneMissingHomeAssistantEntities (keepDeviceIds : List String) : DeviceRegistrySnapshot :=
  pruneDevices self fun device =>
    device.source = "home_assistant" && device.deviceId ∉ keepDeviceIds

def replaceCameraDevicesPreservingPlatformRecords (devices : List CameraDevice) :
    DeviceRegistrySnapshot :=
  let normalizedDevices := devices.map normalizeCameraMetadata
  let keepDeviceIds := normalizedDevices.map (resolvedDeviceId self)
  pruneMissingCameraDevices
    (upsertCameraDevicesPreservingPlatformRecords parseUrl self normalizedDevices) keepDeviceIds

end Upserts

section HomeAssistant

variable (self : DeviceRegistrySnapshot) (deviceId : String)
  (entity : HomeAssistantRegistryEntity) (syncAt : String)

def homeAssistantRecordMetadata (entity : HomeAssistantRegistryEntity) : Value :=
  obj [
    ("provider_key", .string "home_assistant"),
    ("provider_kind", .string "bridge"),
    ("remote_device_id", .string entity.entityId),
    ("domain", .string entity.domain),
    ("device_class", ofOption entity.deviceClass),
    ("read_only_mvp", .bool true),
    ("camera_role", .string (if entity.domain = "camera" then "discovery_status_fallback"
      else "state_projection"))]

def upsertHomeAssistantRecord : DeviceRegistrySnapshot :=
  { self with
    devices := upsertKey ControlDeviceRecord.deviceId deviceId
      (fun existing =>
        { existing with
          kind := homeAssistantDeviceKind entity.domain
          displayName := entity.displayName
          primaryRoomId := entity.areaId
          lifecycleState := .registered
          source := "home_assistant"
          metadata := homeAssistantRecordMetadata entity })
      { deviceId := deviceId
        workspaceId := ""
        kind := homeAssistantDeviceKind entity.domain
        subtype := some entity.domain
        displayName := entity.displayName
        aliases := []
        vendor := some "Home Assistant"
        model := entity.deviceClass
        serialNumber := none
        macAddress := none
        primaryRoomId := entity.areaId
        lifecycleState := .registered
        source := "home_assistant"
        metadata := homeAssistantRecordMetadata entity }
      self.devices }

def upsertHomeAssistantTwin : DeviceRegistrySnapshot :=
  let connectivityState := homeAssistantConnectivityState entity.state
  let reportedState := obj [
    ("state", .string entity.state),
    ("attributes", entity.attributes),
    ("domain", .string entity.domain),
    ("entity_id", .string entity.entityId)]
  let lastSeenAt := entity.lastUpdated.or entity.lastChanged
  { self with
    deviceTwins := upsertKey DeviceTwin.deviceId deviceId
      (fun existing =>
        { existing with
          connectivityState := connectivityState
          reportedState := reportedState
          lastSeenAt := lastSeenAt })
      { deviceId := deviceId
        connectivityState := connectivityState
        reportedState := reportedState
        desiredState := obj []
        healthState := obj []
        lastEventId := none
        lastSeenAt := lastSeenAt }
      self.deviceTwins }

def homeAssistantBinding : ProviderBinding where
  bindingId := homeAssistantBindingId deviceId
  deviceId := deviceId
  providerAccountId := none
  providerKey := "home_assistant"
  providerKind := .bridge
  remoteDeviceId := some entity.entityId
  credentialRef := none
  bindingStatus := .active
  supportMode := .bridge
  metadata := obj [
    ("domain", .string entity.domain),
    ("device_class", ofOption entity.deviceClass),
    ("read_only_mvp", .bool true),
    ("service_calls_exposed", .bool false)]
  lastSyncAt := some syncAt

def replaceHomeAssistantBinding : DeviceRegistrySnapshot :=
  { self with
    providerBindings :=
      (self.providerBindings.filter fun binding =>
        !(binding.deviceId = deviceId && binding.providerKey = "home_assistant")) ++
      [homeAssistantBinding deviceId entity syncAt] }

def homeAssistantCapability : CapabilityRecord where
  capabilityId := deviceId ++ "::capability::ha_state"
  deviceId := deviceId
  capabilityCode := "ha." ++ entity.domain ++ ".state"
  category := .state
  accessMode := .read
  supportMode := .bridge
  availability := homeAssistantCapabilityAvailability entity.state
  sourceBindingId := some (homeAssistantBindingId deviceId)
  metadata := obj [
    ("entity_id", .string entity.entityId),
    ("domain", .string entity.domain),
    ("read_only_mvp", .bool true)]

def replaceHomeAssistantCapabilities : DeviceRegistrySnapshot :=
  { self with
    capabilities :=
      (self.capabilities.filter fun capability =>
        !(capability.deviceId = deviceId &&
          capability.sourceBindingId = some (homeAssistantBindingId deviceId))) ++
      [homeAssistantCapability deviceId entity] }

def upsertHomeAssistantDevice : DeviceRegistrySnapshot :=
  let self := upsertHomeAssistantRecord self deviceId entity
  let self := upsertHomeAssistantTwin self deviceId entity
  let self := replaceHomeAssistantBinding self deviceId entity syncAt
  replaceHomeAssistantCapabilities self deviceId entity

def upsertHomeAssistantEntities (entities : List HomeAssistantRegistryEntity) :
    DeviceRegistrySnapshot :=
  pruneMissingHomeAssistantEntities
    (entities.foldl
      (fun self entity =>
        upsertHomeAssistantDevice self (homeAssistantDeviceId entity.entityId) entity syncAt) self)
    (entities.map fun entity => homeAssistantDeviceId entity.entityId)

end HomeAssistant

section Store

variable (parseUrl : UrlParser)

def fromCameraDevices (devices : List CameraDevice) : DeviceRegistrySnapshot :=
  devices.foldl
    (fun snapshot camera =>
      { snapshot with
        devices := snapshot.devices ++ [deviceRecordFromCamera camera camera.discoverySource]
        deviceTwins := snapshot.deviceTwins ++ [twinFromCamera camera]
        deviceEndpoints := snapshot.deviceEndpoints ++ endpointsFromCamera parseUrl camera
        streamProfiles := snapshot.streamProfiles ++ [streamProfileFromCamera camera]
        cameraProfiles := snapshot.cameraProfiles ++ [cameraProfileFromCamera camera]
        capabilities := snapshot.capabilities ++ capabilityRecordsFromCamera camera
        providerBindings := snapshot.providerBindings ++ providerBindingsFromCamera camera })
    emptyRegistrySnapshot

inductive DeviceRegistryPayload where
  | legacy (devices : List CameraDevice)
  | snapshot (snapshot : DeviceRegistrySnapshot)

def loadSnapshot : Option DeviceRegistryPayload → DeviceRegistrySnapshot
  | none => emptyRegistrySnapshot
  | some (.legacy devices) => fromCameraDevices parseUrl devices
  | some (.snapshot snapshot) => snapshot

def loadDevices (file : Option DeviceRegistryPayload) : List CameraDevice :=
  intoCameraDevices (loadSnapshot parseUrl file)

def loadSnapshotForWrite (file : Option DeviceRegistryPayload) : DeviceRegistrySnapshot :=
  let snapshot := loadSnapshot parseUrl file
  if snapshot.schemaVersion = 0 then
    { snapshot with schemaVersion := defaultRegistrySchemaVersion }
  else snapshot

def saveDevices (file : Option DeviceRegistryPayload) (devices : List CameraDevice) :
    Option DeviceRegistryPayload :=
  some (.snapshot (replaceCameraDevicesPreservingPlatformRecords parseUrl
    (loadSnapshotForWrite parseUrl file) devices))

def upsertDevices (file : Option DeviceRegistryPayload) (devices : List CameraDevice) :
    Option DeviceRegistryPayload :=
  some (.snapshot (upsertCameraDevicesPreservingPlatformRecords parseUrl
    (loadSnapshotForWrite parseUrl file) devices))

end Store

end HarborBeacon.DeviceRegistry
