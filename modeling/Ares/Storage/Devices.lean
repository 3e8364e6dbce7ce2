import Ares.Storage.Integrity

/-! The block devices as the kernel shows them, the identity of a device and the gate in front of
every write of a partition table. -/

namespace Ares.Storage

/-- What `is_symlink`, `resolve(strict=True)` and `stat` find at a path. -/
inductive Target
  | symlink
  | notFound
  | unavailable
  | regular (canonical : String) (dev ino size : Nat) (writable : Bool)
  | block (canonical : String) (major minor : Nat)
  | other (canonical : String)

/-- The attributes under `/sys/dev/block/<major>:<minor>`; `none` is an attribute that cannot be
read, is empty, or is no number where a number is wanted. -/
structure Sysfs where
  backingFile : Option String
  size : Option Int
  logicalBlockSize : Option Int
  physicalBlockSize : Option Int
  holders : List String
  slaves : List String
  ro : Option Int
  removable : Option Int
  serial : Option String
  wwid : Option String
  model : Option String

/-- The true state of the files and block devices. -/
structure Devices where
  target : String → Target
  sysfs : Nat → Nat → Sysfs
  /-- The components of `Path(value).resolve(strict=False)`. -/
  resolve : String → List String

/-- `candidate == root or root in candidate.parents` for one of the roots. -/
def underControlledRoot (dev : Devices) (value : String) (roots : List (List String)) : Bool :=
  roots.any fun root => root.isPrefixOf (dev.resolve value)

structure ProductionStorageWriteGate where
  testMode : Bool
  controlledImageRoots : List (List String)

def ProductionStorageWriteGate.evaluate (gate : ProductionStorageWriteGate) (dev : Devices)
    (d : StorageDeviceIdentity) : StorageWriteGateDecision :=
  match d.deviceKind with
  | .regularFile =>
    if gate.testMode then
      { allowed := true
        targetClass := .testImage
        reason := "Regular-file image explicitly allowed by the test environment." }
    else if underControlledRoot dev d.canonicalPath gate.controlledImageRoots then
      { allowed := true
        targetClass := .testImage
        reason := "Disk image is inside the root-owned controlled image workspace." }
    else
      { allowed := false
        targetClass := .unknown
        reason := "Regular-file target is outside the controlled storage-image workspace." }
  | .loop =>
    if gate.testMode || d.topology.backingFile.any fun backing =>
        underControlledRoot dev backing gate.controlledImageRoots then
      { allowed := true
        targetClass := .controlledLoop
        reason := "Loop device is bound to an explicitly controlled test image." }
    else
      { allowed := false
        targetClass := .unknown
        reason := "Loop device backing file is not an approved controlled image." }
  | .block =>
    { allowed := false
      targetClass := .physicalDisk
      reason := "Physical-disk partition writes are disabled by ProductionStorageWriteGate " ++
        "for this increment, regardless of caller or channel." }

theorem deviceKind_ne_block_of_allowed {gate : ProductionStorageWriteGate} {dev : Devices}
    {d : StorageDeviceIdentity} (h : (gate.evaluate dev d).allowed = true) :
    d.deviceKind ≠ .block := by
  intro hkind
  simp [ProductionStorageWriteGate.evaluate, hkind] at h

theorem evaluate_congr {gate : ProductionStorageWriteGate} {dev : Devices}
    {d d' : StorageDeviceIdentity} (h : d.content = d'.content) :
    gate.evaluate dev d = gate.evaluate dev d' := by
  have hkind : d.deviceKind = d'.deviceKind := congrArg (·.deviceKind) h
  have hpath : d.canonicalPath = d'.canonicalPath := congrArg (·.canonicalPath) h
  have htopology : d.topology = d'.topology := congrArg (·.topology) h
  simp only [ProductionStorageWriteGate.evaluate, hkind, hpath, htopology]

structure DiskIdentityTool where
  allowRegularFileTargets : Bool
  controlledImageRoots : List (List String)

inductive IdentityError
  | tool (code : String)
  | validation
deriving DecidableEq

def pathName (path : String) : List Char := (path.toList.reverse.takeWhile (· ≠ '/')).reverse

/-- `value or default` for an optional number. -/
def orElse (value : Option Int) (default : Int) : Int :=
  match value with
  | none => default
  | some i => if i = 0 then default else i

/-- The bounds that the identity model puts on its fields. -/
def StorageDeviceIdentity.valid (d : StorageDeviceIdentity) : Bool :=
  1 ≤ d.requestedPath.length && d.requestedPath.length ≤ 4096 && 1 ≤ d.canonicalPath.length &&
  d.canonicalPath.length ≤ 4096 && d.majorMinor.all (·.length ≤ 64) &&
  d.model.all (·.length ≤ 256) && 0 ≤ d.sizeBytes && 512 ≤ d.logicalSectorSize &&
  d.logicalSectorSize ≤ 65536 && 512 ≤ d.physicalSectorSize && d.physicalSectorSize ≤ 65536

namespace DiskIdentityTool

variable (tool : DiskIdentityTool) (lib : Library) (dev : Devices)

def controlled (path : String) : Bool := underControlledRoot dev path tool.controlledImageRoots

/-- `"0" * 64`. -/
def draftFingerprint : String := String.ofList (List.replicate 64 '0')

/-- The draft with its own fingerprint. -/
def stamp (draft : StorageDeviceIdentity) : Except IdentityError StorageDeviceIdentity :=
  if draft.valid then
    .ok { draft with fingerprintSha256 := deviceIdentityFingerprint lib draft }
  else
    .error .validation

def identify (requested : String) : Except IdentityError StorageDeviceIdentity :=
  if requested.toList.contains '\x00' || requested.toList.head? ≠ some '/' then
    .error (.tool "STORAGE_TARGET_INVALID")
  else
    match dev.target requested with
    | .symlink => .error (.tool "STORAGE_TARGET_SYMLINK_REJECTED")
    | .notFound => .error (.tool "STORAGE_TARGET_NOT_FOUND")
    | .unavailable => .error (.tool "STORAGE_TARGET_UNAVAILABLE")
    | .other _ => .error (.tool "STORAGE_TARGET_NOT_DISK_OR_IMAGE")
    | .regular canonical device ino size writable =>
      if !tool.allowRegularFileTargets && !tool.controlled dev canonical then
        .error (.tool "STORAGE_IMAGE_OUTSIDE_CONTROLLED_ROOT")
      else
        stamp lib {
          requestedPath := requested
          canonicalPath := canonical
          deviceKind := .regularFile
          majorMinor := some ("file:" ++ toString device ++ ":" ++ toString ino)
          serialSha256 := none
          wwnSha256 := none
          model := some "disk-image"
          sizeBytes := size
          logicalSectorSize := 512
          physicalSectorSize := 512
          topology := {}
          readOnly := !writable
          removable := false
          controlledTestTarget := tool.allowRegularFileTargets || tool.controlled dev canonical
          fingerprintSha256 := draftFingerprint }
    | .block canonical major minor =>
      let sysfs := dev.sysfs major minor
      let kind : DeviceKind :=
        if sysfs.backingFile.isSome || "loop".toList.isPrefixOf (pathName canonical) then .loop
        else .block
      let backing := sysfs.backingFile.map fun b =>
        "/" ++ String.ofList (b.toList.dropWhile (· = '/'))
      let logical := orElse sysfs.logicalBlockSize 512
      stamp lib {
        requestedPath := requested
        canonicalPath := canonical
        deviceKind := kind
        majorMinor := some (toString major ++ ":" ++ toString minor)
        serialSha256 := sysfs.serial.map lib.tokenSha256
        wwnSha256 := sysfs.wwid.map lib.tokenSha256
        model := sysfs.model
        sizeBytes := orElse sysfs.size 0 * 512
        logicalSectorSize := logical
        physicalSectorSize := orElse sysfs.physicalBlockSize logical
        topology := { backingFile := backing, holders := sysfs.holders, slaves := sysfs.slaves }
        readOnly := orElse sysfs.ro 0 ≠ 0
        removable := orElse sysfs.removable 0 ≠ 0
        controlledTestTarget := kind = .loop && backing.any fun b =>
          tool.allowRegularFileTargets || tool.controlled dev b
        fingerprintSha256 := draftFingerprint }

def revalidate (expected : StorageDeviceIdentity) : Except IdentityError StorageDeviceIdentity :=
  match tool.identify lib dev expected.requestedPath with
  | .error e => .error e
  | .ok current =>
    if current.fingerprintSha256 ≠ expected.fingerprintSha256 then
      .error (.tool "STORAGE_DEVICE_IDENTITY_CHANGED")
    else
      .ok current

variable {tool lib dev}

theorem stamp_fingerprint {draft d : StorageDeviceIdentity} (h : stamp lib draft = .ok d) :
    d.fingerprintSha256 = deviceIdentityFingerprint lib d := by
  rw [stamp] at h
  split at h
  · obtain rfl := Except.ok.inj h
    rfl
  · cases h

theorem identify_fingerprint {requested : String} {d : StorageDeviceIdentity}
    (h : tool.identify lib dev requested = .ok d) :
    d.fingerprintSha256 = deviceIdentityFingerprint lib d := by
  rw [identify] at h
  split at h
  · cases h
  · cases htarget : dev.target requested with
    | symlink | notFound | unavailable | other => simp [htarget] at h
    | regular canonical device ino size writable =>
      simp only [htarget] at h
      split at h
      · cases h
      · exact stamp_fingerprint h
    | block canonical major minor =>
      simp only [htarget] at h
      exact stamp_fingerprint h

theorem revalidate_spec {expected d : StorageDeviceIdentity}
    (h : tool.revalidate lib dev expected = .ok d) :
    tool.identify lib dev expected.requestedPath = .ok d ∧
      d.fingerprintSha256 = expected.fingerprintSha256 := by
  rw [revalidate] at h
  split at h
  · cases h
  · next current hid =>
    split at h
    · cases h
    · next hfp =>
      obtain rfl := Except.ok.inj h
      exact ⟨hid, not_not.mp hfp⟩

end DiskIdentityTool

/-! ### A sample device and a plan for it -/

def sampleSha (first second : Char) : String :=
  String.ofList (first :: second :: List.replicate 62 '0')

/-- A library that tells the identities of the samples apart. -/
def sampleDigests : Library where
  canonicalSha256
    | .identity d => sampleSha (if d.deviceKind = .block then 'b' else 'c')
        (if d.canonicalPath = "/dev/sda" then '1' else '2')
    | .plan _ => sampleSha 'd' '0'
    | _ => sampleSha 'e' '0'
  tokenSha256 _ := sampleSha 'f' '0'
  casefold text := text

def sampleRoot : List String := ["var", "lib", "ares", "storage-images"]

def sampleImage : String := "/var/lib/ares/storage-images/test.img"

def sampleSysfs (backing : Option String) : Sysfs where
  backingFile := backing
  size := some 131072
  logicalBlockSize := some 512
  physicalBlockSize := some 512
  holders := []
  slaves := []
  ro := some 0
  removable := some 0
  serial := none
  wwid := none
  model := none

/-- A disk `/dev/sda` and a loop device `/dev/loop0` over a controlled image. -/
def sampleDevices : Devices where
  target path :=
    if path = "/dev/sda" then .block "/dev/sda" 8 0
    else if path = "/dev/loop0" then .block "/dev/loop0" 7 0
    else .notFound
  sysfs major _ := sampleSysfs (if major = 7 then some sampleImage else none)
  resolve path := if path = sampleImage then sampleRoot ++ ["test.img"] else []

def sampleIdentity : StorageDeviceIdentity where
  requestedPath := "/dev/loop0"
  canonicalPath := "/dev/loop0"
  deviceKind := .loop
  majorMinor := some "7:0"
  serialSha256 := none
  wwnSha256 := none
  model := none
  sizeBytes := 67108864
  logicalSectorSize := 512
  physicalSectorSize := 512
  topology := { backingFile := some sampleImage }
  readOnly := false
  removable := false
  controlledTestTarget := true
  fingerprintSha256 := sampleSha 'c' '2'

def samplePartition : PartitionResource where
  id := "partition"
  number := 1
  path := "/dev/loop0p1"
  startSector := 2048
  endSector := 4095
  sizeSectors := 2048
  sizeBytes := 1048576
  typeCode := none
  partuuid := none
  name := none
  bootable := false
  attrs := none
  role := .normal
  filesystemId := none
  mountPointIds := []
  operatingSystemIds := []
  volumeIds := []
  encryptionStatus := .none

def sampleTable (partitions : List PartitionResource) : PartitionTable where
  type := .gpt
  guid := none
  sectorSize := 512
  firstUsableSector := 2048
  lastUsableSector := 131038
  totalSectors := 131072
  partitions := partitions
  freeRegions := []
  fingerprintSha256 := sampleSha 'a' '0'

/-- The layout of `target` with the partitions `partitions`. -/
def sampleLayout (target : StorageDeviceIdentity) (partitions : List PartitionResource) :
    StorageLayout where
  id := "layout"
  observedAt := 0
  disk := {
    id := target.resourceId
    identity := target
    partitionTableId :=
      "partition-table:" ++ String.ofList (target.fingerprintSha256.toList.take 24) }
  partitionTable := sampleTable partitions
  filesystems := []
  mountPoints := []
  volumes := []
  operatingSystems := []
  bootDependencies := []
  swapPartitions := []
  recoveryPartitions := []
  warnings := []
  evidenceSha256 := sampleSha 'e' '0'

def sampleCheckpoint (target : StorageDeviceIdentity) : ProtectionCheckpoint where
  id := "checkpoint"
  createdAt := 0
  status := .ready
  protectedResources := [target.resourceId]
  resourceFingerprints := [(target.resourceId, target.fingerprintSha256)]
  providerCapabilityId := "storage.partition.inspect"
  protectionKind := .snapshot
  backupId := none
  verificationId := some "partition-table:dump"
  sessionId := "session1"
  evidenceSha256 := sampleSha 'e' '0'
  limitations := []

def sampleArtifact : PartitionTableCheckpointArtifact where
  checkpointId := "checkpoint"
  operationId := "operation"
  targetFingerprintSha256 := sampleSha 'c' '2'
  partitionTableFingerprintSha256 := sampleSha 'a' '0'
  dumpSha256 := sampleSha 'f' '0'
  sfdiskDump := "dump"
  createdAt := 0

/-- The plan to create one partition on `target`. -/
def samplePlan (target : StorageDeviceIdentity) : StorageOperationPlan where
  id := "plan-one"
  operationId := "operation"
  capability := .create
  operation := .create
  createdAt := 0
  expiresAt := minutes 20
  sessionId := "session1"
  targetDisk := target
  targetPartition := none
  originalLayout := sampleLayout target []
  proposedLayout := sampleLayout target [samplePartition]
  requiredOperations := []
  affectedResources := []
  risk := .low
  estimatedDurationSeconds := none
  dataLossPossible := false
  dataImpact := { level := .low, executable := true }
  bootImpact := { level := .none, executable := true }
  filesystemImpact := "none"
  protectionCheckpoint := some (sampleCheckpoint target)
  verificationPlan := []
  dryRun := some ⟨sampleSha 'e' '0', sampleSha 'e' '0', sampleSha 'f' '0', 0, true, []⟩
  writeGate := ⟨true, .controlledLoop, "controlled"⟩
  executable := true
  limitations := []
  fingerprintSha256 := sampleSha 'd' '0'

end Ares.Storage
