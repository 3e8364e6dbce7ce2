import Ares.Data.Sorted
import Ares.StorageEvidence.Probes

/-! `build_storage_snapshot`: the entities of the storage evidence, which refer to one another by
ids that are hashes of paths, identities and mount targets. -/

namespace Ares.StorageEvidence

open Data

abbrev Float64 := UInt64

structure ToolAvailability where
  tool : Text
  available : Bool
  reason : Option Text
deriving DecidableEq

structure UsageProbe where
  source : Text
  target : Text
  totalBytes : Nat
  usedBytes : Nat
  availableBytes : Nat
  usedPercent : Float64
deriving DecidableEq

structure SmartProbe where
  device : Text
  status : Text
  passed : Option Bool
  temperatureCelsius : Option Float64
  reason : Option Text
deriving DecidableEq

structure OperatingSystemProbe where
  source : Text
  mountpoint : Text
  name : Text
  version : Option Text
  osId : Option Text
deriving DecidableEq

set_option linter.dupNamespace false in
structure StorageEvidence where
  devices : List BlockDeviceProbe
  mounts : List MountProbe
  usage : List UsageProbe
  smart : List SmartProbe
  operatingSystems : List OperatingSystemProbe
  toolAvailability : List ToolAvailability
  warnings : List Text
  errors : List Text
deriving DecidableEq

inductive StorageHealth
  | ok | warning | error | unknown | unavailable
deriving DecidableEq

def StorageHealth.value : StorageHealth → String
  | ok => "ok"
  | warning => "warning"
  | error => "error"
  | unknown => "unknown"
  | unavailable => "unavailable"

structure FilesystemSnapshot where
  id : Text
  devicePath : Text
  filesystemType : Option Text
  version : Option Text
  uuid : Option Text
  label : Option Text
deriving DecidableEq

structure MountPointSnapshot where
  id : Text
  source : Text
  path : Text
  filesystemType : Option Text
  options : List Text
  totalBytes : Option Nat
  usedBytes : Option Nat
  availableBytes : Option Nat
  usedPercent : Option Float64
deriving DecidableEq

structure SmartSnapshot where
  id : Text
  diskId : Text
  status : StorageHealth
  passed : Option Bool
  temperatureCelsius : Option Float64
  reason : Option Text
deriving DecidableEq

structure PartitionSnapshot where
  id : Text
  diskId : Option Text
  name : Text
  path : Text
  sizeBytes : Nat
  readOnly : Bool
  filesystemId : Option Text
  mountPointIds : List Text
deriving DecidableEq

structure DiskSnapshot where
  id : Text
  name : Text
  path : Text
  sizeBytes : Nat
  model : Option Text
  vendor : Option Text
  transport : Option Text
  readOnly : Bool
  removable : Bool
  hardwareIdentity : Option Text
  partitionIds : List Text
  smartId : Option Text
deriving DecidableEq

structure OperatingSystemSnapshot where
  id : Text
  name : Text
  version : Option Text
  osId : Option Text
  source : Text
  mountpoint : Text
  diskId : Option Text
deriving DecidableEq

structure StorageSummary where
  diskCount : Nat
  partitionCount : Nat
  filesystemCount : Nat
  mountedFilesystemCount : Nat
  totalCapacityBytes : Nat
deriving DecidableEq

/-- What the defaults of a snapshot are at the moment it is built. -/
structure Stamp where
  id : Text
  timestamp : Text
  hostname : Text

structure SystemStorageSnapshot where
  stamp : Stamp
  sessionId : Text
  evidenceSha256 : Text
  summary : StorageSummary
  disks : List DiskSnapshot
  partitions : List PartitionSnapshot
  filesystems : List FilesystemSnapshot
  mounts : List MountPointSnapshot
  operatingSystems : List OperatingSystemSnapshot
  smart : List SmartSnapshot
  warnings : List Text
  errors : List Text
  toolAvailability : List ToolAvailability

structure SnapshotLibrary extends ProbeLibrary where
  evidenceSha256 : StorageEvidence → Text

variable (lib : SnapshotLibrary)

/-- `_resource_id`. -/
def resourceId (kind : String) (identity : Text) : Text :=
  Text.ofString kind ++ Text.ofString ":" ++ (lib.sha256 identity).take 24

/-! ### Mounts -/

/-- `_build_mounts`. -/
def buildMounts (evidence : StorageEvidence) : List MountPointSnapshot :=
  let usageByTarget := Dict.index UsageProbe.target evidence.usage
  evidence.mounts.map fun item =>
    let usage := usageByTarget.get? item.target
    { id := resourceId lib "mount" item.target
      source := item.source
      path := item.target
      filesystemType := item.filesystemType
      options := item.options
      totalBytes := usage.map (·.totalBytes)
      usedBytes := usage.map (·.usedBytes)
      availableBytes := usage.map (·.availableBytes)
      usedPercent := usage.map (·.usedPercent) }

def mountByPath (evidence : StorageEvidence) : Dict Text MountPointSnapshot :=
  Dict.index MountPointSnapshot.path (buildMounts lib evidence)

/-! ### Disks -/

def isDisk (device : BlockDeviceProbe) : Bool := device.deviceType = Text.ofString "disk"

/-- `device.hardware_identity or device.path`. -/
def diskIdentity (device : BlockDeviceProbe) : Text :=
  (device.hardwareIdentity.bind nonempty).getD device.path

def diskSnapshot (device : BlockDeviceProbe) : DiskSnapshot where
  id := resourceId lib "disk" (diskIdentity device)
  name := device.name
  path := device.path
  sizeBytes := device.sizeBytes
  model := device.model
  vendor := device.vendor
  transport := device.transport
  readOnly := device.readOnly
  removable := device.removable
  hardwareIdentity := device.hardwareIdentity
  partitionIds := []
  smartId := none

def disksByPath (devices : List BlockDeviceProbe) : Dict Text DiskSnapshot :=
  Dict.index DiskSnapshot.path ((devices.filter isDisk).map (diskSnapshot lib))

/-! ### Volumes -/

/-- `device.device_type in {"part", "lvm", "crypt", "raid"}`. -/
def isVolume (device : BlockDeviceProbe) : Bool :=
  ["part", "lvm", "crypt", "raid"].any fun type => device.deviceType = Text.ofString type

/-- What the loop over the devices builds. -/
structure Volumes where
  partitionIdsByDisk : Dict Text (List Text)
  sourceToDisk : Dict Text Text
  filesystems : List FilesystemSnapshot
  partitions : List PartitionSnapshot

def Volumes.empty : Volumes := ⟨.empty, .empty, [], []⟩

/-- `value` is neither `None` nor empty. -/
def present (value : Option Text) : Bool := (value.bind nonempty).isSome

def filesystemOf (device : BlockDeviceProbe) : Option FilesystemSnapshot :=
  if present device.filesystemType || present device.filesystemUuid ||
      present device.filesystemLabel then
    some {
      id := resourceId lib "filesystem" device.path
      devicePath := device.path
      filesystemType := device.filesystemType
      version := device.filesystemVersion
      uuid := device.filesystemUuid
      label := device.filesystemLabel }
  else none

def diskIdOf (disks : Dict Text DiskSnapshot) (device : BlockDeviceProbe) : Option Text :=
  (disks.get? (device.parentPath.getD [])).map (·.id)

def partitionOf (disks : Dict Text DiskSnapshot) (mounts : Dict Text MountPointSnapshot)
    (device : BlockDeviceProbe) : PartitionSnapshot where
  id := resourceId lib "partition" device.path
  diskId := diskIdOf disks device
  name := device.name
  path := device.path
  sizeBytes := device.sizeBytes
  readOnly := device.readOnly
  filesystemId := (filesystemOf lib device).map (·.id)
  mountPointIds := device.mountpoints.filterMap fun path => (mounts.get? path).map (·.id)

def addDevice (disks : Dict Text DiskSnapshot) (mounts : Dict Text MountPointSnapshot)
    (v : Volumes) (device : BlockDeviceProbe) : Volumes :=
  if isDisk device then
    match disks.get? device.path with
    | some disk => { v with sourceToDisk := v.sourceToDisk.set device.path disk.id }
    | none => v
  else if isVolume device then
    let partition := partitionOf lib disks mounts device
    { partitionIdsByDisk :=
        match partition.diskId with
        | some diskId => v.partitionIdsByDisk.append diskId partition.id
        | none => v.partitionIdsByDisk
      sourceToDisk := v.sourceToDisk.set device.path (partition.diskId.getD [])
      filesystems := v.filesystems ++ (filesystemOf lib device).toList
      partitions := v.partitions ++ [partition] }
  else v

def volumesOf (evidence : StorageEvidence) : Volumes :=
  evidence.devices.foldl (addDevice lib (disksByPath lib evidence.devices)
    (mountByPath lib evidence)) .empty

/-! ### SMART -/

def healthOf (item : SmartProbe) : StorageHealth :=
  if item.passed = some true then .ok
  else if item.passed = some false then .error
  else if item.status = Text.ofString "unavailable" then .unavailable
  else .unknown

def smartOf (disks : Dict Text DiskSnapshot) (item : SmartProbe) : Option SmartSnapshot :=
  (disks.get? item.device).map fun disk =>
    { id := resourceId lib "smart" disk.id
      diskId := disk.id
      status := healthOf item
      passed := item.passed
      temperatureCelsius := item.temperatureCelsius
      reason := item.reason }

def smartEntries (evidence : StorageEvidence) : List SmartSnapshot :=
  evidence.smart.filterMap (smartOf lib (disksByPath lib evidence.devices))

def smartIdByDisk (evidence : StorageEvidence) : Dict Text Text :=
  (smartEntries lib evidence).foldl (fun d entry => d.set entry.diskId entry.id) .empty

/-! ### The snapshot -/

def normalizedDisks (evidence : StorageEvidence) : List DiskSnapshot :=
  (disksByPath lib evidence.devices).values.map fun disk =>
    { disk with
      partitionIds := ((volumesOf lib evidence).partitionIdsByDisk.get? disk.id).getD []
      smartId := (smartIdByDisk lib evidence).get? disk.id }

def operatingSystemOf (sourceToDisk : Dict Text Text) (item : OperatingSystemProbe) :
    OperatingSystemSnapshot where
  id := resourceId lib "os" (item.source ++ Text.ofString ":" ++ item.name)
  name := item.name
  version := item.version
  osId := item.osId
  source := item.source
  mountpoint := item.mountpoint
  diskId := (sourceToDisk.get? item.source).bind nonempty

/-- The identities that `_resource_id` encodes; the ids of disks are ASCII. -/
def identities (evidence : StorageEvidence) : List Text :=
  evidence.mounts.map (·.target) ++ (evidence.devices.filter isDisk).map diskIdentity ++
    (evidence.devices.filter fun device => !isDisk device && isVolume device).map (·.path) ++
    evidence.operatingSystems.map fun item => item.source ++ Text.ofString ":" ++ item.name

/-- `none` is the `UnicodeEncodeError` of an identity with a lone surrogate. -/
def buildStorageSnapshot (evidence : StorageEvidence) (sessionId : Text) (stamp : Stamp) :
    Option SystemStorageSnapshot :=
  if (identities evidence).all encodable then
    let disks := normalizedDisks lib evidence
    let volumes := volumesOf lib evidence
    let mounts := (mountByPath lib evidence).values
    some {
      stamp
      sessionId
      evidenceSha256 := lib.evidenceSha256 evidence
      summary := {
        diskCount := disks.length
        partitionCount := volumes.partitions.length
        filesystemCount := volumes.filesystems.length
        mountedFilesystemCount := mounts.length
        totalCapacityBytes := (disks.map (·.sizeBytes)).sum }
      disks
      partitions := volumes.partitions
      filesystems := volumes.filesystems
      mounts
      operatingSystems := evidence.operatingSystems.map (operatingSystemOf lib volumes.sourceToDisk)
      smart := smartEntries lib evidence
      warnings := evidence.warnings
      errors := evidence.errors
      toolAvailability := evidence.toolAvailability }
  else none

theorem nonempty_eq_some {text value : Text} :
    nonempty text = some value ↔ text ≠ [] ∧ text = value := by
  rw [nonempty]
  split <;> simp_all

/-! ### What the loop over the devices builds -/

theorem isDisk_of_isVolume {device : BlockDeviceProbe} (h : isVolume device) :
    isDisk device = false := by
  rw [isVolume, List.any_eq_true] at h
  obtain ⟨type, htype, h⟩ := h
  rw [decide_eq_true_eq] at h
  rw [isDisk, decide_eq_false_iff_not, h, Text.ofString_inj]
  rintro rfl
  simp at htype

variable {lib} {disks : Dict Text DiskSnapshot} {mounts : Dict Text MountPointSnapshot}

theorem addDevice_volume {v : Volumes} {device : BlockDeviceProbe} (h : isVolume device) :
    addDevice lib disks mounts v device =
      { partitionIdsByDisk :=
          match diskIdOf disks device with
          | some diskId => v.partitionIdsByDisk.append diskId (resourceId lib "partition" device.path)
          | none => v.partitionIdsByDisk
        sourceToDisk := v.sourceToDisk.set device.path ((diskIdOf disks device).getD [])
        filesystems := v.filesystems ++ (filesystemOf lib device).toList
        partitions := v.partitions ++ [partitionOf lib disks mounts device] } := by
  rw [addDevice, isDisk_of_isVolume h, h]
  rfl

theorem addDevice_other {v : Volumes} {device : BlockDeviceProbe} (h : isVolume device = false) :
    addDevice lib disks mounts v device =
      if isDisk device then
        match disks.get? device.path with
        | some disk => { v with sourceToDisk := v.sourceToDisk.set device.path disk.id }
        | none => v
      else v := by
  rw [addDevice, h]
  rfl

theorem foldl_addDevice (devices : List BlockDeviceProbe) (v : Volumes) :
    (devices.foldl (addDevice lib disks mounts) v).partitions =
        v.partitions ++ (devices.filter isVolume).map (partitionOf lib disks mounts) ∧
      (devices.foldl (addDevice lib disks mounts) v).filesystems =
        v.filesystems ++ (devices.filter isVolume).filterMap (filesystemOf lib) := by
  induction devices generalizing v with
  | nil => simp
  | cons device devices ih =>
    obtain ⟨hpartitions, hfilesystems⟩ := ih (addDevice lib disks mounts v device)
    rw [List.foldl_cons, hpartitions, hfilesystems]
    by_cases h : isVolume device
    · rw [addDevice_volume h, List.filter_cons_of_pos h]
      cases hfilesystem : filesystemOf lib device <;> simp [hfilesystem]
    · rw [addDevice_other (Bool.not_eq_true _ ▸ h), List.filter_cons_of_neg h]
      split
      · split <;> exact ⟨rfl, rfl⟩
      · exact ⟨rfl, rfl⟩

theorem partitions_volumesOf (evidence : StorageEvidence) :
    (volumesOf lib evidence).partitions =
      (evidence.devices.filter isVolume).map
        (partitionOf lib (disksByPath lib evidence.devices) (mountByPath lib evidence)) :=
  (foldl_addDevice evidence.devices .empty).1

theorem filesystems_volumesOf (evidence : StorageEvidence) :
    (volumesOf lib evidence).filesystems =
      (evidence.devices.filter isVolume).filterMap (filesystemOf lib) :=
  (foldl_addDevice evidence.devices .empty).2

theorem get?_disksByPath {devices : List BlockDeviceProbe} {path : Text} {disk : DiskSnapshot}
    (h : (disksByPath lib devices).get? path = some disk) :
    ∃ device ∈ devices, isDisk device ∧ device.path = path ∧ disk = diskSnapshot lib device := by
  obtain ⟨hm, hpath⟩ := Dict.get?_index h
  obtain ⟨device, hdevice, rfl⟩ := List.mem_map.mp hm
  exact ⟨device, List.mem_of_mem_filter hdevice, (List.mem_filter.mp hdevice).2, hpath, rfl⟩

end Ares.StorageEvidence
