import Ares.Audit.Port
import Ares.Backups.Models
import Ares.Coop.Proc

/-! The filesystem tools for planning, creating and verifying backups.  Every look at the disk, the
clock or the mounts, and every change of the disk, is a call; what the disk makes of it is its
answer.  A walk and the reads of an open file answer with all that they will yield, and with the
exception that ends them early. -/

namespace Ares.Backups

open Coop Data Audit

/-- The exceptions, by the handlers that tell them apart. -/
inductive Error
  | tool (code : String)
  | permission
  | audit
  | os
  | value
  | other
  | cancelled
deriving DecidableEq

/-- `except OSError` catches it. -/
def Error.isOsError : Error → Bool
  | permission | os => true
  | tool _ | audit | value | other | cancelled => false

inductive FileKind
  | directory | regular | symlink | special
deriving DecidableEq

/-- What `lstat` says about a path; `mode` is `S_IMODE`. -/
structure Stat where
  kind : FileKind
  mode : Nat
  size : Nat
  mtimeNs : Int
  device : String
  inode : Nat
deriving DecidableEq

/-- A line of `mountinfo` as `_parse_mountinfo` reads it. -/
structure MountInfo where
  deviceId : String
  mountPoint : Path
  filesystemType : String
  source : String
  options : List String
deriving DecidableEq

structure Scan where
  bytesTotal : Nat
  fileCount : Nat
  directoryCount : Nat
  exclusions : List BackupExclusion
deriving DecidableEq

inductive Call
  | now
  | send
  | randomId
  /- `_reject_symlink_components(path)` and `path.resolve(strict=True)`. -/
  | resolve (path : Path)
  | mounts
  | statDevice (path : Path)
  | physicalDeviceId (deviceId : String)
  | isRemovable (deviceId : String)
  | access (path : Path)
  | available (path : Path)
  /- `_path_exists_or_symlink`. -/
  | lexists (path : Path)
  | scanSource (root : Path) (deviceId : String) (policy : BackupPolicy)
  | walkCopyEntries (root : Path) (deviceId : String) (policy : BackupPolicy)
  | lstat (path : Path)
  | mkdir (path : Path) (mode : Nat) (parents existOk : Bool)
  /- `path.is_symlink() or path.resolve(strict=True) != path`. -/
  | unsafeDirectory (path : Path)
  | openSource (path : Path)
  /- `fstat` of the source file that is open. -/
  | fstat (path : Path)
  | create (path : Path)
  | write (path : Path) (block : List UInt8)
  /- `fchmod`, `fsync` and `utime`. -/
  | finish (path : Path) (info : Stat)
  /- A new file with a content, synced. -/
  | writeNew (path : Path) (content : List UInt8)
  | replace (source target : Path)
  | fsyncDirectory (path : Path)
  | removePartial (path : Path)
  | readRegular (path : Path)
  /- The regular file at the path, unless it cannot be opened or is larger than the limit. -/
  | readBounded (path : Path) (limit : Nat)
  | walkTree (root : Path)
  | requestConsent (plan : BackupPlan) (sessionId : String)
  | waitConsent (challengeId : String)

@[reducible] def Call.Answer : Call → Type
  | .now => DateTime
  | .send | .mkdir _ _ _ _ | .create _ | .write _ _ | .finish _ _ | .writeNew _ _ | .replace _ _
  | .fsyncDirectory _ | .removePartial _ => Unit
  | .randomId | .statDevice _ => String
  | .resolve _ => Path
  | .mounts => List MountInfo
  | .physicalDeviceId _ => Option String
  | .isRemovable _ | .access _ | .lexists _ | .unsafeDirectory _ => Bool
  | .available _ => Nat
  | .scanSource _ _ _ => Scan
  /- Each item with its relative path. -/
  | .walkCopyEntries _ _ _ => List (Path × Path) × Option Error
  | .lstat _ | .fstat _ => Stat
  | .openSource _ => Stat × List (List UInt8) × Option Error
  | .readRegular _ => List UInt8
  | .readBounded _ _ => Option (List UInt8)
  | .walkTree _ => List Path
  | .requestConsent _ _ | .waitConsent _ => Option String

inductive Op
  | lock
  | append (entry : AuditEntry)
  | thread
  | call (c : Call)

@[reducible] def Res : Op → Type
  | .lock | .thread => Except Error Unit
  | .append _ => AwaitedAppend
  | .call c => Except Error c.Answer

abbrev Tool (σ : Type) := Proc σ Res Error

section Tools

variable {σ : Type}

/-- A call whose exception goes on. -/
def attempt (c : Call) : Tool σ c.Answer := Proc.attempt (Op.call c) fun r => r

/-- `p`, with every `OSError` turned into an error of the tools. -/
def osAs {α : Type} (code : String) (p : Tool σ α) : Tool σ α :=
  Proc.handle p fun e => throw (if e.isOsError then .tool code else e)

def raiseIf : Option Error → Tool σ Unit
  | some e => throw e
  | none => pure ()

/-! ### Places -/

def canonicalExisting (raw code : String) : Tool σ Path := do
  require (!raw.toList.contains (Char.ofNat 0)) (.tool code)
  require (isAbsolute raw && !(components raw).contains "..") (.tool code)
  osAs code (attempt (.resolve (components raw)))

def innermost (path : Path) (mounts : List MountInfo) : Option MountInfo :=
  (mounts.filter (·.mountPoint.isPrefixOf path)).foldl (fun best m =>
    match best with
    | some b => if b.mountPoint.length < m.mountPoint.length then some m else some b
    | none => some m) none

def mountFor (path : Path) : Tool σ (Option MountInfo) := do
  match ← (attempt .mounts).observe with
  | .ok mounts => pure (innermost path mounts)
  | .error e =>
    if e.isOsError then do
      let deviceId ← attempt (.statDevice path)
      pure (some {
        deviceId
        mountPoint := []
        filesystemType := "unknown"
        source := "unknown"
        options := [] })
    else throw e

def rejectSameStorage (sourceId destinationId : String)
    (sourcePhysical destinationPhysical : Option String) : Tool σ Unit := do
  require (sourceId ≠ destinationId) (.tool "BACKUP_SAME_FILESYSTEM")
  require (sourcePhysical = none || destinationPhysical = none ||
    sourcePhysical ≠ destinationPhysical) (.tool "BACKUP_SAME_DEVICE")

def incompatibleDestinationFilesystems : List String :=
  ["proc", "sysfs", "devtmpfs", "devpts", "tmpfs", "overlay", "squashfs", "iso9660", "cgroup",
    "cgroup2", "efivarfs", "securityfs", "tracefs", "debugfs"]

def validateDestination (path : Path) (info : MountInfo) : Tool σ Unit := do
  require (!info.options.contains "ro") (.tool "BACKUP_DESTINATION_READ_ONLY")
  require (!incompatibleDestinationFilesystems.contains info.filesystemType)
    (.tool "BACKUP_DESTINATION_FILESYSTEM_INCOMPATIBLE")
  let writable ← attempt (.access path)
  require writable (.tool "BACKUP_DESTINATION_NOT_WRITABLE")

def availableBytes (path : Path) : Tool σ Nat :=
  osAs "BACKUP_DESTINATION_SPACE_UNKNOWN" (attempt (.available path))

def destinationKind (info : MountInfo) : Tool σ BackupDestinationKind := do
  let removable ← attempt (.isRemovable info.deviceId)
  if removable then pure .usbStorage
  else if "/dev/".toList.isPrefixOf info.source.toList && info.mountPoint ≠ [] then
    pure .mountedExternalDisk
  else pure .localFilesystem

/-! ### Plans -/

def minHeadroomBytes : Nat := 16 * 1024 * 1024

/-- The bounds that the models put on texts. -/
def within (low high : Nat) (text : String) : Bool := low ≤ text.length && text.length ≤ high

def BackupSource.valid (s : BackupSource) : Bool :=
  within 1 4096 s.path && within 3 64 s.deviceId && s.physicalDeviceId.all (within 3 256) &&
  within 1 4096 s.mountPoint && within 1 64 s.filesystemType

def BackupDestination.valid (d : BackupDestination) : Bool :=
  within 1 4096 d.rootPath && within 1 4096 d.backupPath && within 3 64 d.deviceId &&
  d.physicalDeviceId.all (within 3 256) && within 1 4096 d.mountPoint &&
  within 1 64 d.filesystemType

def buildPlan (lib : Library) (sourcePath destinationPath : String) (policy : BackupPolicy) :
    Tool σ BackupPlan := do
  let sourceRoot ← canonicalExisting sourcePath "BACKUP_SOURCE_INVALID"
  let destinationRoot ← canonicalExisting destinationPath "BACKUP_DESTINATION_INVALID"
  let sourceMount ← mountFor sourceRoot
  let destinationMount ← mountFor destinationRoot
  let sourceInfo ← ofOption (.tool "BACKUP_SOURCE_FILESYSTEM_UNKNOWN") sourceMount
  let destinationInfo ← ofOption (.tool "BACKUP_DESTINATION_FILESYSTEM_UNKNOWN")
    destinationMount
  require (!sourceRoot.isPrefixOf destinationRoot) (.tool "BACKUP_DESTINATION_INSIDE_SOURCE")
  let sourcePhysical ← attempt (.physicalDeviceId sourceInfo.deviceId)
  let destinationPhysical ← attempt (.physicalDeviceId destinationInfo.deviceId)
  rejectSameStorage sourceInfo.deviceId destinationInfo.deviceId sourcePhysical destinationPhysical
  validateDestination destinationRoot destinationInfo
  let scan ← attempt (.scanSource sourceRoot sourceInfo.deviceId policy)
  let available ← availableBytes destinationRoot
  let required := scan.bytesTotal + max minHeadroomBytes (scan.bytesTotal / 50)
  require (required ≤ available) (.tool "BACKUP_INSUFFICIENT_SPACE")
  let backupId ← attempt .randomId
  let planId ← attempt .randomId
  let finalPath := (destinationRoot.join "ARES").join backupId
  let taken ← attempt (.lexists finalPath)
  require (!taken) (.tool "BACKUP_DESTINATION_EXISTS")
  let source : BackupSource := {
    path := sourceRoot.str
    deviceId := sourceInfo.deviceId
    physicalDeviceId := sourcePhysical
    mountPoint := sourceInfo.mountPoint.str
    filesystemType := sourceInfo.filesystemType
    estimatedSizeBytes := scan.bytesTotal
    estimatedFileCount := scan.fileCount
    estimatedDirectoryCount := scan.directoryCount }
  require source.valid .value
  let kind ← destinationKind destinationInfo
  let destination : BackupDestination := {
    rootPath := destinationRoot.str
    backupPath := finalPath.str
    deviceId := destinationInfo.deviceId
    physicalDeviceId := destinationPhysical
    mountPoint := destinationInfo.mountPoint.str
    filesystemType := destinationInfo.filesystemType
    kind
    availableBytes := available }
  require destination.valid .value
  let payload : PlanPayload := {
    id := planId
    backupId
    source
    destination
    policy
    requiredBytes := required
    includedFileCount := scan.fileCount
    includedDirectoryCount := scan.directoryCount
    exclusions := scan.exclusions
    estimatedDurationSeconds := none }
  let createdAt ← attempt .now
  let expires ← attempt .now
  pure { payload with
    createdAt
    expiresAt := expires + minutes 15
    fingerprintSha256 := lib.planSha256 payload }

/-- `revalidate_plan`, with the time that it reads off the clock. -/
def revalidatePlan (lib : Library) (plan : BackupPlan) : Tool σ DateTime := do
  let now ← attempt .now
  require (now < plan.expiresAt) (.tool "BACKUP_PLAN_EXPIRED")
  let source ← canonicalExisting plan.source.path "BACKUP_SOURCE_INVALID"
  let destination ← canonicalExisting plan.destination.rootPath "BACKUP_DESTINATION_INVALID"
  let sourceMount ← mountFor source
  let destinationMount ← mountFor destination
  let sourceChanged := Error.tool "BACKUP_SOURCE_IDENTITY_CHANGED"
  let destinationChanged := Error.tool "BACKUP_DESTINATION_IDENTITY_CHANGED"
  let sourceInfo ← ofOption sourceChanged sourceMount
  require (sourceInfo.deviceId = plan.source.deviceId) sourceChanged
  let destinationInfo ← ofOption destinationChanged destinationMount
  require (destinationInfo.deviceId = plan.destination.deviceId) destinationChanged
  let sourcePhysical ← attempt (.physicalDeviceId sourceInfo.deviceId)
  let destinationPhysical ← attempt (.physicalDeviceId destinationInfo.deviceId)
  require (sourcePhysical = plan.source.physicalDeviceId) sourceChanged
  require (destinationPhysical = plan.destination.physicalDeviceId) destinationChanged
  rejectSameStorage sourceInfo.deviceId destinationInfo.deviceId sourcePhysical destinationPhysical
  validateDestination destination destinationInfo
  let expectedPath := (destination.join "ARES").join plan.backupId
  require (expectedPath.str = plan.destination.backupPath)
    (.tool "BACKUP_DESTINATION_PLAN_MISMATCH")
  let taken ← attempt (.lexists expectedPath)
  require (!taken) (.tool "BACKUP_DESTINATION_EXISTS")
  let scan ← attempt (.scanSource source sourceInfo.deviceId plan.policy)
  require (scan.bytesTotal = plan.source.estimatedSizeBytes &&
    scan.fileCount = plan.includedFileCount &&
    scan.directoryCount = plan.includedDirectoryCount && scan.exclusions = plan.exclusions)
    (.tool "BACKUP_SOURCE_CHANGED")
  let available ← availableBytes destination
  require (plan.requiredBytes ≤ available) (.tool "BACKUP_INSUFFICIENT_SPACE")
  require (plan.fingerprintSha256 = lib.planSha256 plan.toPlanPayload)
    (.tool "BACKUP_PLAN_FINGERPRINT_MISMATCH")
  pure now

end Tools

end Ares.Backups
