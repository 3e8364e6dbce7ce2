import Ares.Data.Json

/-! The typed contracts of the partition operations, as the models of `storage_operations` and
`protection` declare them.  A value of these types is what `model_validate` returns for an accepted
document; times are microseconds. -/

namespace Ares

/-- A point in time, in microseconds. -/
abbrev DateTime := Nat

def minutes (n : Nat) : Nat := n * 60000000

inductive ProtectionCheckpointStatus
  | planned | ready | invalid
deriving DecidableEq

inductive ProtectionKind
  | backup | snapshot
deriving DecidableEq

structure ProtectionCheckpoint where
  id : String
  createdAt : DateTime
  status : ProtectionCheckpointStatus
  protectedResources : List String
  resourceFingerprints : List (String × String)
  providerCapabilityId : String
  protectionKind : ProtectionKind
  backupId : Option String
  verificationId : Option String
  sessionId : String
  evidenceSha256 : String
  limitations : List String
deriving DecidableEq

namespace Storage

inductive PartitionTableType
  | gpt | mbr | unknown
deriving DecidableEq

def PartitionTableType.value : PartitionTableType → String
  | gpt => "GPT"
  | mbr => "MBR"
  | unknown => "UNKNOWN"

inductive StorageOperationType
  | inspect | create | delete | resize | move
deriving DecidableEq

def StorageOperationType.value : StorageOperationType → String
  | inspect => "inspect"
  | create => "create"
  | delete => "delete"
  | resize => "resize"
  | move => "move"

inductive StorageTransactionStatus
  | planned | validated | protected_ | authorized | executing | verifying
  | committed | failed | aborted | unknown
deriving DecidableEq

inductive StorageVerificationStatus
  | verified | partial_ | failed | unknown
deriving DecidableEq

inductive DataImpactLevel
  | none | low | medium | high | critical | unknown
deriving DecidableEq

def DataImpactLevel.value : DataImpactLevel → String
  | none => "NONE"
  | low => "LOW"
  | medium => "MEDIUM"
  | high => "HIGH"
  | critical => "CRITICAL"
  | unknown => "UNKNOWN"

inductive BootImpactLevel
  | none | possible | likely | critical | unknown
deriving DecidableEq

def BootImpactLevel.value : BootImpactLevel → String
  | none => "NONE"
  | possible => "POSSIBLE"
  | likely => "LIKELY"
  | critical => "CRITICAL"
  | unknown => "UNKNOWN"

inductive EncryptionStatus
  | none | luks | bitlocker | unknown
deriving DecidableEq

inductive PartitionRole
  | normal | efi | boot | recovery | swap | windows | linux | lvm | raid | unknown
deriving DecidableEq

def PartitionRole.value : PartitionRole → String
  | normal => "NORMAL"
  | efi => "EFI"
  | boot => "BOOT"
  | recovery => "RECOVERY"
  | swap => "SWAP"
  | windows => "WINDOWS"
  | linux => "LINUX"
  | lvm => "LVM"
  | raid => "RAID"
  | unknown => "UNKNOWN"

inductive VolumeKind
  | lvmPv | lvmVg | lvmLv | mdraid | hardwareRaid | crypt
deriving DecidableEq

inductive DeviceKind
  | regularFile | loop | block
deriving DecidableEq

def DeviceKind.value : DeviceKind → String
  | regularFile => "regular_file"
  | loop => "loop"
  | block => "block"

structure StorageDeviceTopology where
  parentPath : Option String := none
  backingFile : Option String := none
  holders : List String := []
  slaves : List String := []
deriving DecidableEq

/-- The multi-attribute identity bound to a storage operation plan. -/
structure StorageDeviceIdentity where
  requestedPath : String
  canonicalPath : String
  deviceKind : DeviceKind
  majorMinor : Option String
  serialSha256 : Option String
  wwnSha256 : Option String
  model : Option String
  sizeBytes : Int
  logicalSectorSize : Int
  physicalSectorSize : Int
  topology : StorageDeviceTopology
  readOnly : Bool
  removable : Bool
  controlledTestTarget : Bool
  fingerprintSha256 : String
deriving DecidableEq

def StorageDeviceIdentity.resourceId (d : StorageDeviceIdentity) : String :=
  "disk:" ++ d.fingerprintSha256

structure FreeRegion where
  startSector : Nat
  endSector : Nat
  sizeSectors : Nat
  sizeBytes : Nat
deriving DecidableEq

inductive ResizeSupport
  | grow | shrinkAndGrow | unsupported | unknown
deriving DecidableEq

structure FilesystemResource where
  id : String
  devicePath : String
  filesystemType : Option String
  uuid : Option String
  label : Option String
  totalBytes : Option Nat
  usedBytes : Option Nat
  availableBytes : Option Nat
  resizeSupport : ResizeSupport
deriving DecidableEq

structure MountPointResource where
  id : String
  source : String
  path : String
  filesystemType : Option String
  options : List String
deriving DecidableEq

structure VolumeResource where
  id : String
  kind : VolumeKind
  name : String
  memberPaths : List String
deriving DecidableEq

structure OperatingSystemResource where
  id : String
  name : String
  version : Option String
  source : String
  mountPoint : String
deriving DecidableEq

structure BootDependency where
  id : String
  kind : String
  partitionNumber : Option Nat
  resourcePath : Option String
  reason : String
  critical : Bool
deriving DecidableEq

structure PartitionResource where
  id : String
  number : Nat
  path : String
  startSector : Nat
  endSector : Nat
  sizeSectors : Nat
  sizeBytes : Nat
  typeCode : Option String
  partuuid : Option String
  name : Option String
  bootable : Bool
  attrs : Option String
  role : PartitionRole
  filesystemId : Option String
  mountPointIds : List String
  operatingSystemIds : List String
  volumeIds : List String
  encryptionStatus : EncryptionStatus
deriving DecidableEq

structure PartitionTable where
  type : PartitionTableType
  guid : Option String
  sectorSize : Nat
  firstUsableSector : Nat
  lastUsableSector : Nat
  totalSectors : Nat
  partitions : List PartitionResource
  freeRegions : List FreeRegion
  fingerprintSha256 : String
deriving DecidableEq

structure PhysicalDisk where
  id : String
  identity : StorageDeviceIdentity
  partitionTableId : String
deriving DecidableEq

/-- The exact storage state used as evidence before and after an operation. -/
structure StorageLayout where
  id : String
  observedAt : DateTime
  disk : PhysicalDisk
  partitionTable : PartitionTable
  filesystems : List FilesystemResource
  mountPoints : List MountPointResource
  volumes : List VolumeResource
  operatingSystems : List OperatingSystemResource
  bootDependencies : List BootDependency
  swapPartitions : List Nat
  recoveryPartitions : List Nat
  warnings : List String
  evidenceSha256 : String
deriving DecidableEq

structure DataImpactAssessment where
  level : DataImpactLevel
  affectedResources : List String := []
  reasons : List String := []
  mounted : Bool := false
  filesystemChangeRequired : Bool := false
  lvmDetected : Bool := false
  raidDetected : Bool := false
  encryptionDetected : Bool := false
  dataLossPossible : Bool := false
  executable : Bool
deriving DecidableEq

structure BootImpactAssessment where
  level : BootImpactLevel
  affectedDependencies : List String := []
  reasons : List String := []
  recoveryStrategyAvailable : Bool := false
  executable : Bool
deriving DecidableEq

inductive PrimitiveKind
  | writePartitionTable | rereadPartitionTable | verifyPartitionTable | resizePartition
  | movePartition
deriving DecidableEq

structure StoragePrimitiveOperation where
  id : String
  kind : PrimitiveKind
  description : String
  partitionNumber : Option Nat
  mutatesTarget : Bool
  enabled : Bool
deriving DecidableEq

structure StorageVerificationStep where
  id : String
  description : String
  required : Bool := true
deriving DecidableEq

structure StorageDryRunResult where
  originalLayoutSha256 : String
  proposedLayoutSha256 : String
  scriptSha256 : String
  exitCode : Int
  valid : Bool
  warnings : List String
deriving DecidableEq

inductive TargetClass
  | testImage | controlledLoop | physicalDisk | unknown
deriving DecidableEq

structure StorageWriteGateDecision where
  allowed : Bool
  targetClass : TargetClass
  reason : String
deriving DecidableEq

inductive StorageCapability
  | create | delete | resize | move
deriving DecidableEq

def StorageCapability.value : StorageCapability → String
  | create => "storage.partition.create"
  | delete => "storage.partition.delete"
  | resize => "storage.partition.resize"
  | move => "storage.partition.move"

inductive PlanRisk
  | low | medium | high | critical
deriving DecidableEq

def PlanRisk.value : PlanRisk → String
  | low => "low"
  | medium => "medium"
  | high => "high"
  | critical => "critical"

structure StorageOperationPlan where
  id : String
  operationId : String
  capability : StorageCapability
  operation : StorageOperationType
  createdAt : DateTime
  expiresAt : DateTime
  sessionId : String
  targetDisk : StorageDeviceIdentity
  targetPartition : Option PartitionResource
  originalLayout : StorageLayout
  proposedLayout : StorageLayout
  requiredOperations : List StoragePrimitiveOperation
  affectedResources : List String
  risk : PlanRisk
  estimatedDurationSeconds : Option String
  dataLossPossible : Bool
  dataImpact : DataImpactAssessment
  bootImpact : BootImpactAssessment
  filesystemImpact : String
  protectionCheckpoint : Option ProtectionCheckpoint
  verificationPlan : List StorageVerificationStep
  dryRun : Option StorageDryRunResult
  writeGate : StorageWriteGateDecision
  executable : Bool
  limitations : List String
  fingerprintSha256 : String
deriving DecidableEq

def StorageOperationPlan.protectedResourceId (plan : StorageOperationPlan) : String :=
  plan.targetDisk.resourceId

structure PartitionTableCheckpointArtifact where
  checkpointId : String
  operationId : String
  targetFingerprintSha256 : String
  partitionTableFingerprintSha256 : String
  dumpSha256 : String
  sfdiskDump : String
  createdAt : DateTime
deriving DecidableEq

structure StorageCheckpointBundle where
  checkpoint : ProtectionCheckpoint
  artifact : PartitionTableCheckpointArtifact
deriving DecidableEq

structure StorageAuthorizationGrant where
  id : String
  challengeId : String
  operationId : String
  planId : String
  sessionId : String
  targetFingerprintSha256 : String
  planFingerprintSha256 : String
  operatorUid : Option Int
  expiresAt : DateTime
deriving DecidableEq

structure StorageTransaction where
  id : String
  operationId : String
  planId : String
  sessionId : String
  status : StorageTransactionStatus
  createdAt : DateTime
  startedAt : Option DateTime
  finishedAt : Option DateTime
  checkpointId : Option String
  authorizationChallengeId : Option String
  lastKnownStage : Option String
  beforeLayoutSha256 : Option String
  afterLayoutSha256 : Option String
  verificationId : Option String
  reconciliationRequired : Bool
  errorCode : Option String
  metadata : Data.Fields

structure StorageVerification where
  id : String
  operationId : String
  createdAt : DateTime
  status : StorageVerificationStatus
  identityVerified : Bool
  partitionTableVerified : Bool
  partitionGeometryVerified : Bool
  filesystemVerified : Option Bool
  mountabilityVerified : Option Bool
  operatingSystemVerified : Option Bool
  bootDependenciesVerified : Option Bool
  before : StorageLayout
  after : Option StorageLayout
  evidence : List String
  limitations : List String
  message : String
deriving DecidableEq

structure StorageOperationRecord where
  plan : StorageOperationPlan
  transaction : StorageTransaction
  verification : Option StorageVerification

structure StorageOperationOutcome where
  operationId : String
  operation : StorageOperationType
  exitCode : Int
  kernelReread : Option Bool
  before : StorageLayout
  after : StorageLayout
  evidence : List String
deriving DecidableEq

end Storage

end Ares
