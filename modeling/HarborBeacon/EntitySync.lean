import HarborBeacon.GroupedRows
import HarborBeacon.RegistryViews
import HarborBeacon.UpsertRuns

/-!
The Home Assistant entities in the registry. Each entity is written to the device whose id is made
of the words of its entity id, and the Home Assistant devices without an entity are removed.
-/

namespace HarborBeacon.EntitySync

open DeviceRegistry GroupedRows Json Json.Value OwnedTables RegistryIntegrity RegistryViews
open UpsertRuns

def entityDeviceId (entity : HomeAssistantRegistryEntity) : String :=
  homeAssistantDeviceId entity.entityId

def fromHomeAssistant (device : ControlDeviceRecord) : Bool :=
  device.source = "home_assistant"

def homeAssistantDevices (s : DeviceRegistrySnapshot) : List ControlDeviceRecord :=
  s.devices.filter fromHomeAssistant

def foreignDevices (s : DeviceRegistrySnapshot) : List ControlDeviceRecord :=
  s.devices.filter fun device => !fromHomeAssistant device

/-- The device carries the data of the entity; a device that is new also the fields that a later
sync leaves alone. -/
structure DeviceOf (s : DeviceRegistrySnapshot) (entity : HomeAssistantRegistryEntity)
    (device : ControlDeviceRecord) : Prop where
  deviceId : device.deviceId = entityDeviceId entity
  kind : device.kind = homeAssistantDeviceKind entity.domain
  displayName : device.displayName = entity.displayName
  primaryRoomId : device.primaryRoomId = entity.areaId
  lifecycleState : device.lifecycleState = .registered
  metadata : device.metadata = homeAssistantRecordMetadata entity
  fresh : (∀ known ∈ s.devices, known.deviceId ≠ entityDeviceId entity) →
    device.subtype = some entity.domain ∧ device.model = entity.deviceClass

structure TwinOf (entity : HomeAssistantRegistryEntity) (twin : DeviceTwin) : Prop where
  deviceId : twin.deviceId = entityDeviceId entity
  connectivityState : twin.connectivityState = homeAssistantConnectivityState entity.state
  reportedState : twin.reportedState = obj [
    ("state", .string entity.state),
    ("attributes", entity.attributes),
    ("domain", .string entity.domain),
    ("entity_id", .string entity.entityId)]
  lastSeenAt : twin.lastSeenAt = entity.lastUpdated.or entity.lastChanged

/-- Every entity has a device of its own with its twin and its binding, there are no other Home
Assistant devices, and the devices of other sources are as they were with all their records. -/
structure EachItsOwn (s synced : DeviceRegistrySnapshot)
    (entities : List HomeAssistantRegistryEntity) (syncAt : String) : Prop where
  devices : ∃ devices, devices.Perm (homeAssistantDevices synced) ∧
    List.Forall₂ (DeviceOf s) entities devices
  twins : ∀ entity ∈ entities, ∃ twin,
    (synced.deviceTwins.find? fun twin => twin.deviceId = entityDeviceId entity) = some twin ∧
      TwinOf entity twin
  bindings : ∀ entity ∈ entities,
    (synced.providerBindings.filter fun binding =>
      binding.deviceId = entityDeviceId entity && binding.providerKey = "home_assistant") =
        [homeAssistantBinding (entityDeviceId entity) entity syncAt]
  foreign : foreignDevices synced = foreignDevices s
  records : ∀ id ∉ entities.map entityDeviceId,
    (∀ device ∈ homeAssistantDevices s, device.deviceId ≠ id) → slice synced id = slice s id

/-- The ids of the entities are different and not those of other devices: under each of them the
registry finds no device of another source and has at most one Home Assistant device, and no Home
Assistant device that is to be removed has the id of a device of another source. -/
structure Separate (s : DeviceRegistrySnapshot) (entities : List HomeAssistantRegistryEntity) :
    Prop where
  ids : (entities.map entityDeviceId).Nodup
  found : ∀ entity ∈ entities, ∀ device,
    (s.devices.find? fun device => device.deviceId = entityDeviceId entity) = some device →
      fromHomeAssistant device = true
  single : ∀ entity ∈ entities, (s.devices.filter fun device =>
    fromHomeAssistant device && device.deviceId = entityDeviceId entity).length ≤ 1
  apart : ∀ device ∈ homeAssistantDevices s, device.deviceId ∉ entities.map entityDeviceId →
    ∀ other ∈ foreignDevices s, other.deviceId ≠ device.deviceId

section Writes

def syncedRecord (entity : HomeAssistantRegistryEntity) (existing : ControlDeviceRecord) :
    ControlDeviceRecord :=
  { existing with
    kind := homeAssistantDeviceKind entity.domain
    displayName := entity.displayName
    primaryRoomId := entity.areaId
    lifecycleState := .registered
    source := "home_assistant"
    metadata := homeAssistantRecordMetadata entity }

def newRecord (entity : HomeAssistantRegistryEntity) : ControlDeviceRecord where
  deviceId := entityDeviceId entity
  workspaceId := ""
  kind := homeAssistantDeviceKind entity.domain
  subtype := some entity.domain
  displayName := entity.displayName
  aliases := []
  vendor := some "Home Assistant"
  model := entity.deviceClass
  serialNumber := none
  macAddress := none
  primaryRoomId := entity.areaId
  lifecycleState := .registered
  source := "home_assistant"
  metadata := homeAssistantRecordMetadata entity

def reportedState (entity : HomeAssistantRegistryEntity) : Value :=
  obj [
    ("state", .string entity.state),
    ("attributes", entity.attributes),
    ("domain", .string entity.domain),
    ("entity_id", .string entity.entityId)]

def syncedTwin (entity : HomeAssistantRegistryEntity) (existing : DeviceTwin) : DeviceTwin :=
  { existing with
    connectivityState := homeAssistantConnectivityState entity.state
    reportedState := reportedState entity
    lastSeenAt := entity.lastUpdated.or entity.lastChanged }

def newTwin (entity : HomeAssistantRegistryEntity) : DeviceTwin where
  deviceId := entityDeviceId entity
  connectivityState := homeAssistantConnectivityState entity.state
  reportedState := reportedState entity
  desiredState := obj []
  healthState := obj []
  lastEventId := none
  lastSeenAt := entity.lastUpdated.or entity.lastChanged

theorem deviceId_syncedRecord (entity : HomeAssistantRegistryEntity)
    (existing : ControlDeviceRecord) : (syncedRecord entity existing).deviceId = existing.deviceId :=
  rfl

theorem deviceId_newRecord (entity : HomeAssistantRegistryEntity) :
    (newRecord entity).deviceId = entityDeviceId entity := by
  rw [newRecord]

theorem deviceId_syncedTwin (entity : HomeAssistantRegistryEntity) (existing : DeviceTwin) :
    (syncedTwin entity existing).deviceId = existing.deviceId := rfl

theorem deviceId_newTwin (entity : HomeAssistantRegistryEntity) :
    (newTwin entity).deviceId = entityDeviceId entity := by
  rw [newTwin]

theorem deviceId_homeAssistantBinding (deviceId : String) (entity : HomeAssistantRegistryEntity)
    (syncAt : String) : (homeAssistantBinding deviceId entity syncAt).deviceId = deviceId := rfl

theorem deviceId_homeAssistantCapability (deviceId : String)
    (entity : HomeAssistantRegistryEntity) :
    (homeAssistantCapability deviceId entity).deviceId = deviceId := rfl

def syncEntity (syncAt : String) (self : DeviceRegistrySnapshot)
    (entity : HomeAssistantRegistryEntity) : DeviceRegistrySnapshot :=
  upsertHomeAssistantDevice self (homeAssistantDeviceId entity.entityId) entity syncAt

def written (syncAt : String) (s : DeviceRegistrySnapshot)
    (entities : List HomeAssistantRegistryEntity) : DeviceRegistrySnapshot :=
  entities.foldl (syncEntity syncAt) s

def abandoned (syncAt : String) (s : DeviceRegistrySnapshot)
    (entities : List HomeAssistantRegistryEntity) : List String :=
  removedIds (written syncAt s entities) fun device =>
    device.source = "home_assistant" && device.deviceId ∉ entities.map entityDeviceId

variable {syncAt : String} {s : DeviceRegistrySnapshot} {entity : HomeAssistantRegistryEntity}
  {entities : List HomeAssistantRegistryEntity} {id : String}

theorem upsertHomeAssistantEntities_eq : upsertHomeAssistantEntities s syncAt entities =
    restrict (written syncAt s entities) fun id => id ∉ abandoned syncAt s entities := by
  rw [upsertHomeAssistantEntities, pruneMissingHomeAssistantEntities, pruneDevices_eq]
  rfl

theorem devices_syncEntity : (syncEntity syncAt s entity).devices =
    upsertKey ControlDeviceRecord.deviceId (entityDeviceId entity) (syncedRecord entity)
      (newRecord entity) s.devices := rfl

theorem deviceTwins_syncEntity : (syncEntity syncAt s entity).deviceTwins =
    upsertKey DeviceTwin.deviceId (entityDeviceId entity) (syncedTwin entity) (newTwin entity)
      s.deviceTwins := rfl

theorem written_cons : written syncAt s (entity :: entities) =
    written syncAt (syncEntity syncAt s entity) entities := rfl

theorem devices_written : (written syncAt s entities).devices =
    upsertAll ControlDeviceRecord.deviceId entityDeviceId syncedRecord newRecord entities
      s.devices := by
  induction entities generalizing s with
  | nil => rfl
  | cons entity rest ih =>
      rw [written_cons, ih, devices_syncEntity]
      rfl

theorem deviceTwins_written : (written syncAt s entities).deviceTwins =
    upsertAll DeviceTwin.deviceId entityDeviceId syncedTwin newTwin entities s.deviceTwins := by
  induction entities generalizing s with
  | nil => rfl
  | cons entity rest ih =>
      rw [written_cons, ih, deviceTwins_syncEntity]
      rfl

theorem providerBindings_syncEntity : (syncEntity syncAt s entity).providerBindings =
    (s.providerBindings.filter fun binding =>
      !(binding.deviceId = entityDeviceId entity && binding.providerKey = "home_assistant")) ++
    [homeAssistantBinding (entityDeviceId entity) entity syncAt] := rfl

theorem bindings_syncEntity_of_ne (hne : entityDeviceId entity ≠ id) :
    ((syncEntity syncAt s entity).providerBindings.filter fun binding =>
        binding.deviceId = id && binding.providerKey = "home_assistant") =
      s.providerBindings.filter fun binding =>
        binding.deviceId = id && binding.providerKey = "home_assistant" := by
  rw [providerBindings_syncEntity]
  apply filter_replace
  · intro binding _ hbinding
    simp only [Bool.and_eq_true, decide_eq_true_eq] at hbinding
    simp [hbinding.1, hne.symm]
  · intro binding hbinding
    rw [List.mem_singleton.mp hbinding]
    simp [homeAssistantBinding, hne]

theorem bindings_syncEntity_self :
    ((syncEntity syncAt s entity).providerBindings.filter fun binding =>
        binding.deviceId = entityDeviceId entity && binding.providerKey = "home_assistant") =
      [homeAssistantBinding (entityDeviceId entity) entity syncAt] := by
  rw [providerBindings_syncEntity, List.filter_append, List.filter_filter]
  simp [homeAssistantBinding]

theorem bindings_written_of_notMem (hid : id ∉ entities.map entityDeviceId) :
    ((written syncAt s entities).providerBindings.filter fun binding =>
        binding.deviceId = id && binding.providerKey = "home_assistant") =
      s.providerBindings.filter fun binding =>
        binding.deviceId = id && binding.providerKey = "home_assistant" := by
  induction entities generalizing s with
  | nil => rfl
  | cons first rest ih =>
      rw [List.map_cons, List.mem_cons, not_or] at hid
      rw [written_cons, ih hid.2, bindings_syncEntity_of_ne (Ne.symm hid.1)]

theorem bindings_written (hids : (entities.map entityDeviceId).Nodup) (hentity : entity ∈ entities) :
    ((written syncAt s entities).providerBindings.filter fun binding =>
        binding.deviceId = entityDeviceId entity && binding.providerKey = "home_assistant") =
      [homeAssistantBinding (entityDeviceId entity) entity syncAt] := by
  induction entities generalizing s with
  | nil => exact absurd hentity List.not_mem_nil
  | cons first rest ih =>
      obtain ⟨hfirst, hrest⟩ := List.nodup_cons.mp hids
      rw [written_cons]
      rcases List.mem_cons.mp hentity with rfl | hlater
      · rw [bindings_written_of_notMem hfirst, bindings_syncEntity_self]
      · exact ih hrest hlater

theorem capabilities_syncEntity : (syncEntity syncAt s entity).capabilities =
    (s.capabilities.filter fun capability =>
      !(capability.deviceId = entityDeviceId entity &&
        capability.sourceBindingId = some (homeAssistantBindingId (entityDeviceId entity)))) ++
    [homeAssistantCapability (entityDeviceId entity) entity] := rfl

/-- The write of an entity leaves all that belongs to other devices. -/
theorem slice_syncEntity (hne : entityDeviceId entity ≠ id) :
    slice (syncEntity syncAt s entity) id = slice s id := by
  have hother : ∀ owner : String, owner = entityDeviceId entity → decide (owner = id) = false := by
    rintro owner rfl
    exact decide_eq_false hne
  have hdevices : ((syncEntity syncAt s entity).devices.filter fun device => device.deviceId = id) =
      s.devices.filter fun device => device.deviceId = id := by
    rw [devices_syncEntity]
    apply filter_upsertKey (deviceId_syncedRecord entity) (deviceId_newRecord entity)
    intro device hdevice
    exact hother device.deviceId hdevice
  have hbindings : ((syncEntity syncAt s entity).providerBindings.filter fun binding =>
      binding.deviceId = id) = s.providerBindings.filter fun binding => binding.deviceId = id := by
    rw [providerBindings_syncEntity]
    apply filter_replace
    · intro binding _ howner
      have hdiffers : binding.deviceId ≠ entityDeviceId entity := fun heq =>
        absurd howner (by simp [hother _ heq])
      simp [hdiffers]
    · intro binding hbinding
      apply hother
      rw [List.mem_singleton.mp hbinding, deviceId_homeAssistantBinding]
  have hcapabilities : ((syncEntity syncAt s entity).capabilities.filter fun capability =>
      capability.deviceId = id) = s.capabilities.filter fun capability =>
        capability.deviceId = id := by
    rw [capabilities_syncEntity]
    apply filter_replace
    · intro capability _ howner
      have hdiffers : capability.deviceId ≠ entityDeviceId entity := fun heq =>
        absurd howner (by simp [hother _ heq])
      simp [hdiffers]
    · intro capability hcapability
      apply hother
      rw [List.mem_singleton.mp hcapability, deviceId_homeAssistantCapability]
  have htwins : ((syncEntity syncAt s entity).deviceTwins.filter fun twin => twin.deviceId = id) =
      s.deviceTwins.filter fun twin => twin.deviceId = id := by
    rw [deviceTwins_syncEntity]
    apply filter_upsertKey (deviceId_syncedTwin entity) (deviceId_newTwin entity)
    intro twin htwin
    exact hother twin.deviceId htwin
  rw [slice, slice, RegistryIntegrity.restrict, RegistryIntegrity.restrict, hdevices, hbindings,
    hcapabilities, htwins]
  rfl

theorem slice_written (hid : id ∉ entities.map entityDeviceId) :
    slice (written syncAt s entities) id = slice s id := by
  induction entities generalizing s with
  | nil => rfl
  | cons first rest ih =>
      rw [List.map_cons, List.mem_cons, not_or] at hid
      rw [written_cons, ih hid.2, slice_syncEntity (Ne.symm hid.1)]

theorem mem_abandoned_iff : id ∈ abandoned syncAt s entities ↔
    id ∉ entities.map entityDeviceId ∧ ∃ device ∈ homeAssistantDevices s, device.deviceId = id := by
  rw [abandoned, removedIds, List.mem_map]
  constructor
  · rintro ⟨device, hdevice, rfl⟩
    rw [List.mem_filter, Bool.and_eq_true, decide_eq_true_eq, decide_eq_true_eq] at hdevice
    obtain ⟨hmem, hsource, hid⟩ := hdevice
    have hslice : device ∈ (slice (written syncAt s entities) device.deviceId).devices :=
      mem_slice_devices.mpr ⟨hmem, rfl⟩
    rw [slice_written hid] at hslice
    exact ⟨hid, device,
      List.mem_filter.mpr ⟨(mem_slice_devices.mp hslice).1, decide_eq_true hsource⟩, rfl⟩
  · rintro ⟨hid, device, hdevice, rfl⟩
    obtain ⟨hmem, hsource⟩ := List.mem_filter.mp hdevice
    have hslice : device ∈ (slice s device.deviceId).devices := mem_slice_devices.mpr ⟨hmem, rfl⟩
    have hsame : slice (written syncAt s entities) device.deviceId = slice s device.deviceId :=
      slice_written hid
    rw [← hsame] at hslice
    refine ⟨device, List.mem_filter.mpr ⟨(mem_slice_devices.mp hslice).1, ?_⟩, rfl⟩
    rw [Bool.and_eq_true, decide_eq_true_eq, decide_eq_true_eq]
    exact ⟨of_decide_eq_true hsource, hid⟩

end Writes

section Sync

variable {syncAt : String} {s : DeviceRegistrySnapshot} {entity : HomeAssistantRegistryEntity}
  {entities : List HomeAssistantRegistryEntity}

abbrev synced (syncAt : String) (s : DeviceRegistrySnapshot)
    (entities : List HomeAssistantRegistryEntity) : DeviceRegistrySnapshot :=
  upsertHomeAssistantEntities s syncAt entities

/-- The record of an entity: the one that was found under its id with the data of the entity, or a
new one. -/
def recordOf (s : DeviceRegistrySnapshot) (entity : HomeAssistantRegistryEntity) :
    ControlDeviceRecord :=
  ((s.devices.find? fun device => device.deviceId = entityDeviceId entity).map
    (syncedRecord entity)).getD (newRecord entity)

def twinOf (s : DeviceRegistrySnapshot) (entity : HomeAssistantRegistryEntity) : DeviceTwin :=
  ((s.deviceTwins.find? fun twin => twin.deviceId = entityDeviceId entity).map
    (syncedTwin entity)).getD (newTwin entity)

theorem deviceOf_recordOf (s : DeviceRegistrySnapshot) (entity : HomeAssistantRegistryEntity) :
    DeviceOf s entity (recordOf s entity) := by
  rw [recordOf]
  generalize hfound : (s.devices.find? fun device => device.deviceId = entityDeviceId entity) = found
  rcases found with _ | known
  · rw [Option.map_none, Option.getD_none]
    exact ⟨deviceId_newRecord entity, rfl, rfl, rfl, rfl, rfl, fun _ => ⟨rfl, rfl⟩⟩
  · rw [Option.map_some, Option.getD_some]
    have hid : known.deviceId = entityDeviceId entity := by simpa using List.find?_some hfound
    refine ⟨hid, rfl, rfl, rfl, rfl, rfl, fun hfresh => ?_⟩
    exact absurd hid (hfresh known (List.mem_of_find?_eq_some hfound))

theorem twinOf_twinOf (s : DeviceRegistrySnapshot) (entity : HomeAssistantRegistryEntity) :
    TwinOf entity (twinOf s entity) := by
  rw [twinOf]
  generalize hfound : (s.deviceTwins.find? fun twin => twin.deviceId = entityDeviceId entity) = found
  rcases found with _ | known
  · rw [Option.map_none, Option.getD_none]
    exact ⟨deviceId_newTwin entity, rfl, rfl, rfl⟩
  · rw [Option.map_some, Option.getD_some]
    have hid : known.deviceId = entityDeviceId entity := by simpa using List.find?_some hfound
    exact ⟨hid, rfl, rfl, rfl⟩

theorem mem_entityIds (hentity : entity ∈ entities) :
    entityDeviceId entity ∈ entities.map entityDeviceId :=
  List.mem_map_of_mem hentity

theorem notMem_abandoned (hentity : entity ∈ entities) :
    entityDeviceId entity ∉ abandoned syncAt s entities := fun hmem =>
  (mem_abandoned_iff.mp hmem).1 (mem_entityIds hentity)

theorem devices_synced : (synced syncAt s entities).devices =
    (upsertAll ControlDeviceRecord.deviceId entityDeviceId syncedRecord newRecord entities
      s.devices).filter fun device => device.deviceId ∉ abandoned syncAt s entities := by
  rw [synced, upsertHomeAssistantEntities_eq, RegistryIntegrity.restrict, devices_written]

theorem find?_deviceTwins_synced (hentity : entity ∈ entities) :
    ((synced syncAt s entities).deviceTwins.find? fun twin =>
        twin.deviceId = entityDeviceId entity) =
      (written syncAt s entities).deviceTwins.find? fun twin =>
        twin.deviceId = entityDeviceId entity := by
  rw [synced, upsertHomeAssistantEntities_eq, RegistryIntegrity.restrict, List.find?_filter]
  apply List.find?_congr
  intro twin _
  rcases eq_or_ne twin.deviceId (entityDeviceId entity) with heq | hne
  · simp [heq, notMem_abandoned hentity]
  · simp [hne]

theorem filter_providerBindings_synced (hentity : entity ∈ entities) :
    ((synced syncAt s entities).providerBindings.filter fun binding =>
        binding.deviceId = entityDeviceId entity && binding.providerKey = "home_assistant") =
      (written syncAt s entities).providerBindings.filter fun binding =>
        binding.deviceId = entityDeviceId entity && binding.providerKey = "home_assistant" := by
  rw [synced, upsertHomeAssistantEntities_eq, RegistryIntegrity.restrict, List.filter_filter]
  apply List.filter_congr
  intro binding _
  rcases eq_or_ne binding.deviceId (entityDeviceId entity) with heq | hne
  · simp [heq, notMem_abandoned hentity]
  · simp [hne]

theorem foreignDevices_synced : foreignDevices (synced syncAt s entities) =
    ((upsertAll ControlDeviceRecord.deviceId entityDeviceId syncedRecord newRecord entities
      s.devices).filter fun device => !fromHomeAssistant device).filter fun device =>
        device.deviceId ∉ abandoned syncAt s entities := by
  rw [foreignDevices, devices_synced, List.filter_filter, List.filter_filter]
  congr 1
  funext device
  exact Bool.and_comm _ _

theorem foreignDevices_written_sublist :
    ((upsertAll ControlDeviceRecord.deviceId entityDeviceId syncedRecord newRecord entities
      s.devices).filter fun device => !fromHomeAssistant device).Sublist (foreignDevices s) :=
  filter_upsertAll_sublist (fun _ _ => rfl) fun _ => rfl

theorem foreignDevices_synced_iff :
    foreignDevices (synced syncAt s entities) = foreignDevices s ↔
      (∀ entity ∈ entities, ∀ device,
        (s.devices.find? fun device => device.deviceId = entityDeviceId entity) = some device →
          fromHomeAssistant device = true) ∧
      ∀ device ∈ homeAssistantDevices s, device.deviceId ∉ entities.map entityDeviceId →
        ∀ other ∈ foreignDevices s, other.deviceId ≠ device.deviceId := by
  have hwritten : (upsertAll ControlDeviceRecord.deviceId entityDeviceId syncedRecord newRecord
      entities s.devices).filter (fun device => !fromHomeAssistant device) = foreignDevices s ↔
      ∀ entity ∈ entities, ∀ device,
        (s.devices.find? fun device => device.deviceId = entityDeviceId entity) = some device →
          fromHomeAssistant device = true := by
    refine (filter_upsertAll_iff deviceId_syncedRecord deviceId_newRecord (fun _ _ => rfl)
      fun _ => rfl).trans ?_
    simp only [Bool.not_eq_false']
  rw [foreignDevices_synced, ← hwritten]
  constructor
  · intro hsame
    have hall : (upsertAll ControlDeviceRecord.deviceId entityDeviceId syncedRecord newRecord
        entities s.devices).filter (fun device => !fromHomeAssistant device) = foreignDevices s := by
      apply foreignDevices_written_sublist.eq_of_length_le
      rw [← hsame]
      exact List.length_filter_le _ _
    rw [hall] at hsame
    refine ⟨hall, ?_⟩
    intro device hdevice hid other hother heq
    have hkept := List.filter_eq_self.mp hsame other hother
    rw [decide_eq_true_iff, heq] at hkept
    exact hkept (mem_abandoned_iff.mpr ⟨hid, device, hdevice, rfl⟩)
  · rintro ⟨hall, hapart⟩
    rw [hall, List.filter_eq_self]
    intro other hother
    rw [decide_eq_true_iff, mem_abandoned_iff]
    rintro ⟨hid, device, hdevice, heq⟩
    exact hapart device hdevice (heq ▸ hid) other hother heq.symm

theorem filter_devices_synced (hentity : entity ∈ entities) :
    ((synced syncAt s entities).devices.filter fun device =>
        fromHomeAssistant device && decide (device.deviceId = entityDeviceId entity)) =
      (upsertAll ControlDeviceRecord.deviceId entityDeviceId syncedRecord newRecord entities
        s.devices).filter fun device =>
          fromHomeAssistant device && decide (device.deviceId = entityDeviceId entity) := by
  rw [devices_synced, List.filter_filter]
  congr 1
  funext device
  rcases eq_or_ne device.deviceId (entityDeviceId entity) with heq | hne
  · simp [heq, notMem_abandoned hentity]
  · simp [hne]

theorem slice_synced {id : String} (hid : id ∉ entities.map entityDeviceId)
    (hnone : ∀ device ∈ homeAssistantDevices s, device.deviceId ≠ id) :
    slice (synced syncAt s entities) id = slice s id := by
  have hkept : id ∉ abandoned syncAt s entities := by
    rw [mem_abandoned_iff]
    rintro ⟨-, device, hdevice, heq⟩
    exact hnone device hdevice heq
  rw [synced, upsertHomeAssistantEntities_eq, slice_restrict_of_keep (decide_eq_true hkept),
    slice_written hid]

theorem mem_entityIds_of_mem {device : ControlDeviceRecord}
    (h : device ∈ homeAssistantDevices (synced syncAt s entities)) :
    device.deviceId ∈ entities.map entityDeviceId := by
  rw [homeAssistantDevices, devices_synced, List.mem_filter, List.mem_filter] at h
  obtain ⟨⟨hmem, hkept⟩, hsource⟩ := h
  rw [decide_eq_true_iff] at hkept
  rcases Decidable.em (device.deviceId ∈ entities.map entityDeviceId) with hid | hid
  · exact hid
  · refine absurd (mem_abandoned_iff.mpr ⟨hid, device, ?_, rfl⟩) hkept
    have hslice : device ∈ (slice (written syncAt s entities) device.deviceId).devices :=
      mem_slice_devices.mpr ⟨devices_written ▸ hmem, rfl⟩
    rw [slice_written hid] at hslice
    exact List.mem_filter.mpr ⟨(mem_slice_devices.mp hslice).1, hsource⟩

theorem Separate.devices_perm (h : Separate s entities) :
    (entities.map (recordOf s)).Perm (homeAssistantDevices (synced syncAt s entities)) := by
  have hcovered : ∀ device ∈ homeAssistantDevices (synced syncAt s entities),
      device.deviceId ∈ entities.map entityDeviceId := fun _ hdevice => mem_entityIds_of_mem hdevice
  have hgroup : ∀ entity ∈ entities, ((homeAssistantDevices (synced syncAt s entities)).filter
      fun device => device.deviceId = entityDeviceId entity) = [recordOf s entity] := by
    intro entity hentity
    rw [homeAssistantDevices, List.filter_filter]
    refine (List.filter_congr fun device _ => Bool.and_comm _ _).trans ?_
    refine (filter_devices_synced hentity).trans ?_
    exact filter_upsertAll_self deviceId_syncedRecord deviceId_newRecord (fun _ _ => rfl)
      (fun _ => rfl) h.ids hentity (h.found entity hentity) (h.single entity hentity)
  refine List.Perm.trans (List.Perm.of_eq ?_) (flatMap_groups_perm h.ids hcovered)
  rw [List.flatMap_map, List.flatMap_congr hgroup, List.map_eq_flatMap]

theorem Separate.eachItsOwn (h : Separate s entities) :
    EachItsOwn s (synced syncAt s entities) entities syncAt where
  devices := by
    refine ⟨entities.map (recordOf s), h.devices_perm, ?_⟩
    rw [List.forall₂_map_right_iff, List.forall₂_same]
    exact fun entity _ => deviceOf_recordOf s entity
  twins := by
    intro entity hentity
    refine ⟨twinOf s entity, ?_, twinOf_twinOf s entity⟩
    rw [find?_deviceTwins_synced hentity, deviceTwins_written]
    exact find?_upsertAll deviceId_syncedTwin deviceId_newTwin h.ids hentity
  bindings := fun entity hentity =>
    (filter_providerBindings_synced hentity).trans (bindings_written h.ids hentity)
  foreign := foreignDevices_synced_iff.mpr ⟨h.found, h.apart⟩
  records := fun id hid hnone => slice_synced hid hnone

theorem map_deviceId_of_forall₂ {devices : List ControlDeviceRecord}
    (h : List.Forall₂ (DeviceOf s) entities devices) :
    devices.map ControlDeviceRecord.deviceId = entities.map entityDeviceId := by
  induction h with
  | nil => rfl
  | cons hdevice _ ih => rw [List.map_cons, List.map_cons, hdevice.deviceId, ih]

theorem EachItsOwn.ids_nodup (h : EachItsOwn s (synced syncAt s entities) entities syncAt)
    (hentities : (entities.map fun entity => entity.entityId).Nodup) :
    (entities.map entityDeviceId).Nodup := by
  apply List.Nodup.map_on _ hentities.of_map
  intro first hfirst second hsecond hsame
  -- the one binding under the id carries the entity id of both
  have hbindings := h.bindings second hsecond
  rw [← hsame, h.bindings first hfirst, List.cons.injEq] at hbindings
  have hremote := congrArg ProviderBinding.remoteDeviceId hbindings.1
  exact List.inj_on_of_nodup_map hentities hfirst hsecond (Option.some.inj hremote)

theorem EachItsOwn.separate (h : EachItsOwn s (synced syncAt s entities) entities syncAt)
    (hentities : (entities.map fun entity => entity.entityId).Nodup) : Separate s entities := by
  have hids := h.ids_nodup hentities
  obtain ⟨hfound, hapart⟩ := foreignDevices_synced_iff.mp h.foreign
  refine ⟨hids, hfound, ?_, hapart⟩
  intro entity hentity
  obtain ⟨devices, hperm, hcarry⟩ := h.devices
  have hunique : ((homeAssistantDevices (synced syncAt s entities)).map
      ControlDeviceRecord.deviceId).Nodup := by
    rw [← (hperm.map _).nodup_iff, map_deviceId_of_forall₂ hcarry]
    exact hids
  have hlater := length_filter_key_le hunique (entityDeviceId entity)
  rw [homeAssistantDevices, List.filter_filter,
    List.filter_congr fun device _ => Bool.and_comm _ (fromHomeAssistant device),
    filter_devices_synced hentity] at hlater
  refine le_trans ?_ hlater
  apply length_filter_le_upsertAll
  intro source device hdevice
  rw [Bool.and_eq_true, decide_eq_true_eq] at hdevice ⊢
  exact ⟨rfl, hdevice.2⟩

/-- After a sync of entities with different ids each has a device of its own, and nothing of the
other sources is touched, exactly if the ids of their devices are different and no others'. -/
theorem each_its_own_iff (s : DeviceRegistrySnapshot) (entities : List HomeAssistantRegistryEntity)
    (syncAt : String) (hentities : (entities.map fun entity => entity.entityId).Nodup) :
    EachItsOwn s (upsertHomeAssistantEntities s syncAt entities) entities syncAt ↔
      Separate s entities := by
  constructor
  · intro h
    exact h.separate hentities
  · intro h
    exact h.eachItsOwn

def namedEntity (entityId domain : String) : HomeAssistantRegistryEntity where
  entityId := entityId
  domain := domain
  displayName := entityId
  state := "on"
  areaId := none
  deviceClass := none
  lastChanged := none
  lastUpdated := none
  attributes := .object []

theorem each_its_own_kitchen :
    EachItsOwn emptyRegistrySnapshot
      (upsertHomeAssistantEntities emptyRegistrySnapshot "1700000000"
        [namedEntity "light.kitchen" "light", namedEntity "camera.porch" "camera"])
      [namedEntity "light.kitchen" "light", namedEntity "camera.porch" "camera"] "1700000000" := by
  apply (each_its_own_iff emptyRegistrySnapshot
    [namedEntity "light.kitchen" "light", namedEntity "camera.porch" "camera"] "1700000000"
    (by decide)).mpr
  constructor
  · decide +kernel
  · intro entity _ device hdevice
    exact absurd hdevice (by simp [emptyRegistrySnapshot])
  · intro entity _
    exact Nat.zero_le 1
  · intro device hdevice
    exact absurd hdevice List.not_mem_nil

theorem separators_share_device :
    ¬ EachItsOwn emptyRegistrySnapshot
      (upsertHomeAssistantEntities emptyRegistrySnapshot "1700000000"
        [namedEntity "light.living_room" "light", namedEntity "light.living-room" "light"])
      [namedEntity "light.living_room" "light", namedEntity "light.living-room" "light"]
      "1700000000" := by
  intro h
  have hfirst := h.bindings (namedEntity "light.living_room" "light") List.mem_cons_self
  have hsecond := h.bindings (namedEntity "light.living-room" "light")
    (List.mem_cons_of_mem _ List.mem_cons_self)
  have hids : entityDeviceId (namedEntity "light.living_room" "light") =
      entityDeviceId (namedEntity "light.living-room" "light") := by decide +kernel
  rw [← hids, hfirst, List.cons.injEq] at hsecond
  have hremote := congrArg ProviderBinding.remoteDeviceId hsecond.1
  exact absurd (Option.some.inj hremote) (by decide)

end Sync

end HarborBeacon.EntitySync
