import Mathlib.Algebra.GroupWithZero.Nat
import Ares.Data.Path
import Ares.Storage.Models

/-! The typed contracts of the backup capabilities.  A value of these types is what `model_validate`
returns for an accepted document; fields that can have one value only are left out. -/

namespace Ares.Backups

inductive BackupStatus
  | planned | validating | running | verifying | completed | failed | cancelled | corrupted
deriving DecidableEq

def BackupStatus.value : BackupStatus → String
  | planned => "PLANNED"
  | validating => "VALIDATING"
  | running => "RUNNING"
  | verifying => "VERIFYING"
  | completed => "COMPLETED"
  | failed => "FAILED"
  | cancelled => "CANCELLED"
  | corrupted => "CORRUPTED"

inductive BackupVerificationStatus
  | notRun | running | verified | failed | corrupted
deriving DecidableEq

def BackupVerificationStatus.value : BackupVerificationStatus → String
  | notRun => "NOT_RUN"
  | running => "RUNNING"
  | verified => "VERIFIED"
  | failed => "FAILED"
  | corrupted => "CORRUPTED"

inductive BackupDestinationKind
  | localFilesystem | mountedExternalDisk | usbStorage
deriving DecidableEq

def BackupDestinationKind.value : BackupDestinationKind → String
  | localFilesystem => "local_filesystem"
  | mountedExternalDisk => "mounted_external_disk"
  | usbStorage => "usb_storage"

inductive BackupEntryType
  | file | directory
deriving DecidableEq

structure BackupSource where
  path : String
  deviceId : String
  physicalDeviceId : Option String
  mountPoint : String
  filesystemType : String
  estimatedSizeBytes : Nat
  estimatedFileCount : Nat
  estimatedDirectoryCount : Nat
deriving DecidableEq

structure BackupDestination where
  rootPath : String
  backupPath : String
  deviceId : String
  physicalDeviceId : Option String
  mountPoint : String
  filesystemType : String
  kind : BackupDestinationKind
  availableBytes : Nat
deriving DecidableEq

structure BackupExclusion where
  relativePath : String
  reason : String
deriving DecidableEq

structure BackupPolicy where
  excludedNames : List String
deriving DecidableEq

/-- The excluded names of `BackupPolicy()`. -/
def builtinExcludedNames : List String :=
  ["$RECYCLE.BIN", "System Volume Information", "lost+found"]

/-- The fields of a plan that its fingerprint covers. -/
structure PlanPayload where
  id : String
  backupId : String
  source : BackupSource
  destination : BackupDestination
  policy : BackupPolicy
  requiredBytes : Nat
  includedFileCount : Nat
  includedDirectoryCount : Nat
  exclusions : List BackupExclusion
  estimatedDurationSeconds : Option UInt64
deriving DecidableEq

structure BackupPlan extends PlanPayload where
  createdAt : DateTime
  expiresAt : DateTime
  fingerprintSha256 : String
deriving DecidableEq

structure BackupEntry where
  relativePath : String
  sizeBytes : Nat
  mtimeNs : Nat
  mode : Nat
  entryType : BackupEntryType
  checksumSha256 : Option String
deriving DecidableEq

/-- The fields of a manifest that its checksum covers. -/
structure ManifestPayload where
  backupId : String
  source : BackupSource
  entries : List BackupEntry
  fileCount : Nat
  directoryCount : Nat
  totalSizeBytes : Nat
deriving DecidableEq

structure BackupManifest extends ManifestPayload where
  createdAt : DateTime
  manifestChecksumSha256 : String
deriving DecidableEq

structure BackupVerification where
  id : String
  backupId : String
  createdAt : DateTime
  status : BackupVerificationStatus
  expectedFileCount : Nat
  verifiedFileCount : Nat
  expectedSizeBytes : Nat
  verifiedSizeBytes : Nat
  manifestValid : Bool
  checksumMismatches : List String
  missingEntries : List String
  unexpectedEntries : List String
  sourceChangedEntries : List String
  message : String
deriving DecidableEq

structure BackupExecution where
  id : String
  backupId : String
  workflowExecutionId : Option String
  status : BackupStatus
  startedAt : Option DateTime
  finishedAt : Option DateTime
  authorizationChallengeId : Option String
  errorCode : Option String
deriving DecidableEq

structure Backup where
  id : String
  createdAt : DateTime
  source : BackupSource
  destination : BackupDestination
  size : Nat
  fileCount : Nat
  status : BackupStatus
  checksum : Option String
  verificationStatus : BackupVerificationStatus
  metadata : Data.Fields
  createdBy : String
  sessionId : String
  planId : String
  execution : BackupExecution

structure AuthorizationGrant where
  id : String
  challengeId : String
  planId : String
  sessionId : String
  planFingerprintSha256 : String
  expiresAt : DateTime
deriving DecidableEq

/-- SHA-256 of the canonical JSON of a document, and the encoding of a manifest. -/
structure Library where
  planSha256 : PlanPayload → String
  manifestSha256 : ManifestPayload → String
  contentSha256 : List UInt8 → String
  /-- `hexdigest()[:24]` of a text. -/
  token : String → String
  /-- The UTF-8 bytes of `json.dumps` of a manifest. -/
  dumpsManifest : BackupManifest → List UInt8
  /-- `BackupManifest.model_validate_json`. -/
  loadsManifest : List UInt8 → Option BackupManifest

end Ares.Backups
