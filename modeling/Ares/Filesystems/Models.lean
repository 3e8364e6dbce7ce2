import Ares.Storage.Models

/-! The typed contracts of filesystem inspection and repair.  A value of these types is what
`model_validate` returns for an accepted document. -/

namespace Ares.Filesystems

inductive FilesystemType
  | ext2 | ext3 | ext4 | xfs | btrfs | ntfs
deriving DecidableEq

def FilesystemType.value : FilesystemType → String
  | ext2 => "ext2"
  | ext3 => "ext3"
  | ext4 => "ext4"
  | xfs => "xfs"
  | btrfs => "btrfs"
  | ntfs => "ntfs"

inductive FilesystemHealth
  | healthy | inconsistent | corrupted | unknown | unsupported
deriving DecidableEq

def FilesystemHealth.value : FilesystemHealth → String
  | healthy => "HEALTHY"
  | inconsistent => "INCONSISTENT"
  | corrupted => "CORRUPTED"
  | unknown => "UNKNOWN"
  | unsupported => "UNSUPPORTED"

structure ToolRequirement where
  tool : String
  available : Bool
  reason : Option String
deriving DecidableEq

structure DeviceIdentity where
  requestedPath : String
  canonicalPath : String
  majorMinor : String
  uuid : Option String
  filesystemUuid : Option String
  partuuid : Option String
  serial : Option String
  model : Option String
  sizeBytes : Nat
  blockDevice : Bool
  fingerprintSha256 : String
deriving DecidableEq

/-- The bounds that the model puts on its fields. -/
def DeviceIdentity.valid (d : DeviceIdentity) : Bool :=
  1 ≤ d.requestedPath.length && d.requestedPath.length ≤ 4096 && 1 ≤ d.canonicalPath.length &&
  d.canonicalPath.length ≤ 4096 && 3 ≤ d.majorMinor.length && d.majorMinor.length ≤ 64 &&
  [d.uuid, d.filesystemUuid, d.partuuid, d.serial, d.model].all fun text =>
    text.all (·.length ≤ 256)

structure MountRecord where
  mountPoint : String
  root : String
  source : String
  filesystemType : String
  options : List String
  bindMount : Bool
deriving DecidableEq

structure MountSafetyReport where
  mounted : Bool
  busy : Bool
  swap : Bool
  mounts : List MountRecord
  nestedMounts : List String
  activeProcesses : List Nat
  unsupportedMountOptions : List String
  safeToUnmount : Bool
  safeToRemount : Bool
  reasons : List String
deriving DecidableEq

structure FilesystemCheckResult where
  filesystem : FilesystemType
  health : FilesystemHealth
  tool : String
  exitCode : Int
  problems : List String
  evidence : List String
  limitations : List String
deriving DecidableEq

structure FilesystemInspection where
  id : String
  inspectedAt : DateTime
  identity : DeviceIdentity
  filesystem : Option FilesystemType
  health : FilesystemHealth
  mount : MountSafetyReport
  check : Option FilesystemCheckResult
  requiredTools : List ToolRequirement
  writable : Bool
  supported : Bool
  repairSupported : Bool
  limitations : List String
deriving DecidableEq

structure RepairAction where
  id : String
  description : String
  mutatesTarget : Bool
deriving DecidableEq

structure FilesystemRepairPlan where
  id : String
  repairId : String
  createdAt : DateTime
  expiresAt : DateTime
  sessionId : String
  target : DeviceIdentity
  filesystem : FilesystemType
  mount : MountSafetyReport
  detectedProblems : List String
  evidence : List String
  requiredTools : List ToolRequirement
  requiredPermissions : List String
  estimatedDurationSeconds : Option String
  protectionCheckpoint : Option ProtectionCheckpoint
  repairActions : List RepairAction
  verificationSteps : List String
  rollbackStrategy : String
  limitations : List String
  executable : Bool
  fingerprintSha256 : String
deriving DecidableEq

def FilesystemRepairPlan.protectedResourceId (plan : FilesystemRepairPlan) : String :=
  "filesystem:" ++ plan.target.fingerprintSha256

structure FilesystemAuthorizationGrant where
  id : String
  challengeId : String
  planId : String
  repairId : String
  sessionId : String
  targetFingerprintSha256 : String
  planFingerprintSha256 : String
  operatorUid : Option Int
  expiresAt : DateTime
deriving DecidableEq

structure FilesystemRepairOutcome where
  before : FilesystemCheckResult
  repairTool : String
  repairExitCode : Int
  repairEvidence : List String
  after : FilesystemCheckResult
  remounted : Option Bool
  limitations : List String
deriving DecidableEq

/-! ### Fingerprints -/

/-- What `identify` puts into the fingerprint of a device. -/
structure IdentityBody where
  canonicalPath : String
  majorMinor : String
  filesystemUuid : Option String
  partuuid : Option String
  serial : Option String
  model : Option String
  sizeBytes : Nat
deriving DecidableEq

def DeviceIdentity.body (d : DeviceIdentity) : IdentityBody where
  canonicalPath := d.canonicalPath
  majorMinor := d.majorMinor
  filesystemUuid := d.filesystemUuid
  partuuid := d.partuuid
  serial := d.serial
  model := d.model
  sizeBytes := d.sizeBytes

/-- The library functions that the broker and its tools use. -/
structure Library where
  identitySha256 : IdentityBody → String
  planSha256 : FilesystemRepairPlan → String
  /-- `hashlib.sha256(value.encode("utf-8")).hexdigest()`. -/
  tokenSha256 : String → String
  /-- `str.isalnum` of a character. -/
  isalnum : Char → Bool
  /-- `str.casefold`. -/
  casefold : String → String

def repairPlanFingerprint (lib : Library) (plan : FilesystemRepairPlan) : String :=
  lib.planSha256 { plan with fingerprintSha256 := "" }

def repairPlanIntegrityValid (lib : Library) (plan : FilesystemRepairPlan) : Bool :=
  repairPlanFingerprint lib plan = plan.fingerprintSha256

end Ares.Filesystems
