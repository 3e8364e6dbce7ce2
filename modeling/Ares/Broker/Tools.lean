import Ares.Audit.Port
import Ares.Coop.Journal
import Ares.Storage.Devices

/-! The partition tools as the storage broker runs them: the state of the broker, the calls at which
its requests wait, and the tool suite up to the command that writes a partition table. -/

namespace Ares.Broker

open Coop Data Audit Storage

/-- A request as `dispatch` reads it: `none` stands for a document that `model_validate` refuses,
and for a target that is no string. -/
inductive Request
  | inspect (targetDisk : Option String)
  | dryRun (plan : Option StorageOperationPlan)
  | checkpoint (plan : Option StorageOperationPlan)
  | authorize (plan : Option StorageOperationPlan)
  | execute (plan : Option StorageOperationPlan) (grant : Option StorageAuthorizationGrant)
  | verify (plan : Option StorageOperationPlan)
  | rejected

/-- The exceptions, by the handlers that tell them apart. -/
inductive Error
  | permission
  | tool (code : String)
  | audit
  | timeout
  | os
  | runtime
  | value
  | cancelled
deriving DecidableEq

/-- A step of the task `task`. -/
inductive Event
  | received (task : Nat) (request : Request) (peerUid : Int)
  | drawn (task number : Nat)
  /-- The ledger holds the record; `acked` says that the broker knows. -/
  | audited (task : Nat) (entry : AuditEntry) (acked : Bool)
  | interrupted (task : Nat) (entry : AuditEntry) (written : Bool)
  | challenged (task : Nat) (plan : StorageOperationPlan) (challengeId : String)
  | answered (task : Nat) (challengeId : String) (decision : Option String)
      (operatorUid : Option Int)
  | granted (task : Nat) (grant : StorageAuthorizationGrant)
  | popped (task : Nat) (grantId : String) (stored : Option StorageAuthorizationGrant)
  | accepted (task : Nat) (plan : StorageOperationPlan) (grant : StorageAuthorizationGrant)
      (time : DateTime)
  /-- `tools.execute(plan)` is called. -/
  | invoked (task : Nat) (plan : StorageOperationPlan)
  | gated (task : Nat) (devices : Devices)
  | identified (task : Nat) (fresh : StorageDeviceIdentity) (devices : Devices)
  | wrote (task : Nat) (plan : StorageOperationPlan) (path script : String)
  | observerLost (task : Nat)
  | emergency (task : Nat) (event operationId : String)

def Event.task : Event → Nat
  | received t _ _ | drawn t _ | audited t _ _ | interrupted t _ _ | challenged t _ _
  | answered t _ _ _ | granted t _ | popped t _ _ | accepted t _ _ _ | invoked t _ | gated t _
  | identified t _ _ | wrote t _ _ _ | observerLost t | emergency t _ _ => t

instance : Tasked Event := ⟨Event.task⟩

@[simp] theorem task_eq (e : Event) : Tasked.task e = e.task := rfl

structure State where
  now : DateTime
  devices : Devices
  /-- How many values `uuid4` has given. -/
  drawn : Nat
  grants : String → Option StorageAuthorizationGrant
  observerLost : Nat → Bool
  history : List Event

structure Config where
  allowedClientUids : List Int
  gate : ProductionStorageWriteGate
  toolsGate : ProductionStorageWriteGate
  identity : DiskIdentityTool
  lib : Library
  uuid4 : Nat → String

/-- What `sfdisk --json`, `blkid` and the mount table say about a device. -/
structure Observation where
  id : String
  observedAt : DateTime
  partitionTable : PartitionTable
  filesystems : List FilesystemResource
  mountPoints : List MountPointResource
  volumes : List VolumeResource
  operatingSystems : List OperatingSystemResource
  bootDependencies : List BootDependency
  swapPartitions : List Nat
  recoveryPartitions : List Nat
  evidenceSha256 : String

/-- The calls that answer or raise. -/
inductive Call
  | send
  | table (identity : StorageDeviceIdentity)
  | dump (path : String)
  | dryRun (path script : String)
  | write (path script : String)
  | reread (path : String)
  | verify (path : String)
  | checkpoint (id : String)
  | artifact (id : String)
  | requestStorage (plan : StorageOperationPlan)
  | wait (challengeId : String)

@[reducible] def Call.Answer : Call → Type
  | .send => Unit
  | .table _ => Observation
  | .dump _ => String
  /- The exit code and the lines of `stderr`. -/
  | .dryRun _ _ => Int × List String
  | .write _ _ | .verify _ => Int
  /- `none` where `blockdev` is not installed. -/
  | .reread _ => Option Int
  | .checkpoint _ => Option ProtectionCheckpoint
  | .artifact _ => Option PartitionTableCheckpointArtifact
  | .requestStorage _ => Option String
  /- The decision and the operator's uid. -/
  | .wait _ => Option String × Option Int

inductive Op
  | lock
  | thread
  | append (entry : AuditEntry)
  | call (c : Call)

@[reducible] def Res : Op → Type
  | .lock | .thread => Except Error Unit
  | .append _ => AwaitedAppend
  | .call c => Except Error c.Answer

abbrev Task := Proc State Res Error

def State.note (e : Event) (s : State) : State := { s with history := e :: s.history }

@[simp] theorem State.note_history (e : Event) (s : State) : (s.note e).history = e :: s.history :=
  rfl

def lock : Task Unit := Proc.attempt Op.lock fun r => r

def thread : Task Unit := Proc.attempt Op.thread fun r => r

/-- A call whose exception goes on. -/
def attempt (c : Call) : Task c.Answer := Proc.attempt (Op.call c) fun r => r

/-- A call with `TimeoutError` and the other errors of a process given their codes. -/
def attemptTool (c : Call) (timedOut failed : String) : Task c.Answer :=
  Proc.handle (attempt c) fun
    | .timeout => throw (.tool timedOut)
    | .os | .value => throw (.tool failed)
    | e => throw e

def ofIdentity {α : Type} : Except IdentityError α → Task α
  | .ok a => pure a
  | .error (.tool code) => throw (.tool code)
  | .error .validation => throw .value

/-- `asyncio.to_thread(self.identity.identify, target)`. -/
def identify (cfg : Config) (target : String) : Task StorageDeviceIdentity := do
  thread
  let found ← reading fun s => cfg.identity.identify cfg.lib s.devices target
  thread
  ofIdentity found

/-- `asyncio.to_thread(self.identity.revalidate, expected)`. -/
def revalidate (cfg : Config) (task : Nat) (expected : StorageDeviceIdentity) :
    Task StorageDeviceIdentity := do
  thread
  let s ← Proc.state
  match cfg.identity.revalidate cfg.lib s.devices expected with
  | .ok fresh =>
    Proc.modify (State.note (.identified task fresh s.devices))
    thread
    pure fresh
  | .error e =>
    thread
    ofIdentity (.error e)

def layoutOf (identity : StorageDeviceIdentity) (o : Observation) : StorageLayout where
  id := o.id
  observedAt := o.observedAt
  disk := {
    id := identity.resourceId
    identity
    partitionTableId := "partition-table:" ++ takeChars 24 identity.fingerprintSha256 }
  partitionTable := o.partitionTable
  filesystems := o.filesystems
  mountPoints := o.mountPoints
  volumes := o.volumes
  operatingSystems := o.operatingSystems
  bootDependencies := o.bootDependencies
  swapPartitions := o.swapPartitions
  recoveryPartitions := o.recoveryPartitions
  warnings := []
  evidenceSha256 := o.evidenceSha256

def inspect (cfg : Config) (target : String) : Task StorageLayout := do
  let identity ← identify cfg target
  let observed ← attempt (.table identity)
  pure (layoutOf identity observed)

/-! ### The script for `sfdisk` -/

/-- `_SAFE_NAME.fullmatch(name) is not None`. -/
def safeName (name : String) : Bool :=
  1 ≤ name.length && name.length ≤ 96 && name.toList.all fun c =>
    ('A' ≤ c && c ≤ 'Z') || ('a' ≤ c && c ≤ 'z') || ('0' ≤ c && c ≤ '9') ||
      [' ', '.', '_', '+', ':', '-'].contains c

def given (text : Option String) : Option String := text.filter (· ≠ "")

def partitionFields (type : PartitionTableType) (p : PartitionResource) :
    Except Error (List String) := do
  let gpt := type = .gpt
  let name ← match given p.name with
    | some name =>
      if gpt then
        if safeName name then pure ["name=\"" ++ name ++ "\""]
        else throw (.tool "STORAGE_PARTITION_NAME_UNSAFE")
      else pure []
    | none => pure []
  pure (["start=" ++ toString p.startSector, "size=" ++ toString p.sizeSectors] ++
    ((given p.typeCode).map ("type=" ++ ·)).toList ++
    (if gpt then ((given p.partuuid).map ("uuid=" ++ ·)).toList else []) ++ name ++
    (if gpt then ((given p.attrs).map ("attrs=" ++ ·)).toList else []) ++
    (if p.bootable && type = .mbr then ["bootable"] else []))

def maxInputBytes : Nat := 1000000

def renderSfdiskScript (table : PartitionTable) : Except Error String := do
  if table.type = .unknown then throw (.tool "STORAGE_PARTITION_TABLE_TYPE_REQUIRED")
  let header := ["label: " ++ (if table.type = .gpt then "gpt" else "dos"), "unit: sectors",
      "sector-size: " ++ toString table.sectorSize] ++
    ((given table.guid).map ("label-id: " ++ ·)).toList ++
    (if table.type = .gpt then
      ["first-lba: " ++ toString table.firstUsableSector,
        "last-lba: " ++ toString table.lastUsableSector]
    else []) ++ [""]
  let rows ← (table.partitions.insertionSort (·.number ≤ ·.number)).mapM fun p => do
    let fields ← partitionFields table.type p
    pure (String.intercalate ", " fields)
  let script := String.intercalate "\n" (header ++ rows) ++ "\n"
  if script.utf8ByteSize > maxInputBytes then throw (.tool "STORAGE_PARTITION_SCRIPT_TOO_LARGE")
  pure script

/-! ### The tool suite -/

def dryRun (cfg : Config) (task : Nat) (plan : StorageOperationPlan) :
    Task StorageDryRunResult := do
  let _ ← revalidate cfg task plan.targetDisk
  let script ← Proc.ofExcept (renderSfdiskScript plan.proposedLayout.partitionTable)
  let (exitCode, warnings) ← attemptTool (.dryRun plan.targetDisk.canonicalPath script)
    "STORAGE_DRY_RUN_TIMEOUT" "STORAGE_DRY_RUN_FAILED"
  pure {
    originalLayoutSha256 := layoutFingerprint cfg.lib plan.originalLayout
    proposedLayoutSha256 := layoutFingerprint cfg.lib plan.proposedLayout
    scriptSha256 := cfg.lib.tokenSha256 script
    exitCode
    valid := exitCode = 0
    warnings := warnings.take 32 }

def createCheckpoint (cfg : Config) (task : Nat) (plan : StorageOperationPlan)
    (checkpointId : String) : Task PartitionTableCheckpointArtifact := do
  let _ ← revalidate cfg task plan.targetDisk
  let _ ← revalidate cfg task plan.targetDisk
  let dump ← attempt (.dump plan.targetDisk.canonicalPath)
  let now ← reading State.now
  pure {
    checkpointId
    operationId := plan.operationId
    targetFingerprintSha256 := plan.targetDisk.fingerprintSha256
    partitionTableFingerprintSha256 := plan.originalLayout.partitionTable.fingerprintSha256
    dumpSha256 := cfg.lib.tokenSha256 dump
    sfdiskDump := dump
    createdAt := now }

/-- `_write_table`: the mutating `sfdisk --lock --wipe never --wipe-partitions never`. -/
def writeTable (task : Nat) (plan : StorageOperationPlan) : Task Int := do
  let script ← Proc.ofExcept (renderSfdiskScript plan.proposedLayout.partitionTable)
  let path := plan.targetDisk.canonicalPath
  Proc.modify (State.note (.wrote task plan path script))
  attemptTool (.write path script) "STORAGE_PARTITION_TABLE_WRITE_TIMEOUT"
    "STORAGE_PARTITION_TABLE_WRITE_FAILED"

def applyOperation (task : Nat) (plan : StorageOperationPlan) : Task Int :=
  match plan.operation with
  | .create | .delete => writeTable task plan
  | .resize => throw (.tool "STORAGE_PARTITION_RESIZE_DISABLED")
  | .inspect | .move => throw (.tool "STORAGE_PARTITION_MOVE_DISABLED")

def rereadKernel (identity : StorageDeviceIdentity) : Task Bool := do
  match ← attemptTool (.reread identity.canonicalPath) "STORAGE_KERNEL_REREAD_FAILED"
      "STORAGE_KERNEL_REREAD_FAILED" with
  | none => throw (.tool "BLOCKDEV_UNAVAILABLE")
  | some exitCode =>
    require (exitCode = 0) (.tool "STORAGE_KERNEL_REREAD_FAILED")
    pure true

def rereadDevice (identity : StorageDeviceIdentity) : Task (Option Bool) :=
  match identity.deviceKind with
  | .loop | .block => do
    let done ← rereadKernel identity
    pure (some done)
  | .regularFile => pure none

def verifyTable (cfg : Config) (plan : StorageOperationPlan) : Task StorageLayout := do
  let current ← inspect cfg plan.targetDisk.requestedPath
  require (current.disk.identity.fingerprintSha256 = plan.targetDisk.fingerprintSha256)
    (.tool "STORAGE_DEVICE_IDENTITY_CHANGED")
  require (partitionGeometrySignature cfg.lib plan.proposedLayout.partitionTable =
      partitionGeometrySignature cfg.lib current.partitionTable)
    (.tool "STORAGE_PARTITION_GEOMETRY_MISMATCH")
  let exitCode ← attempt (.verify plan.targetDisk.canonicalPath)
  require (exitCode = 0) (.tool "STORAGE_PARTITION_TABLE_VERIFY_FAILED")
  pure current

def writeStarted : String := "storage.partition-table.write.started"

def writeCompleted : String := "storage.partition-table.write.completed"

/-- `StoragePartitionToolSuite.execute`. -/
def toolsExecute (cfg : Config) (task : Nat) (plan : StorageOperationPlan)
    (onStage : String → Fields → Task Unit) : Task StorageOperationOutcome := do
  let s ← Proc.state
  require (cfg.toolsGate.evaluate s.devices plan.targetDisk).allowed
    (.tool "PRODUCTION_STORAGE_WRITE_GATE_BLOCKED")
  Proc.modify (State.note (.gated task s.devices))
  let _ ← revalidate cfg task plan.targetDisk
  let before ← inspect cfg plan.targetDisk.requestedPath
  require (partitionGeometrySignature cfg.lib before.partitionTable =
      partitionGeometrySignature cfg.lib plan.originalLayout.partitionTable)
    (.tool "STORAGE_LAYOUT_CHANGED")
  onStage writeStarted [("operation", .str plan.operation.value),
    ("target_fingerprint", .str plan.targetDisk.fingerprintSha256)]
  let exitCode ← applyOperation task plan
  require (exitCode = 0) (.tool "STORAGE_PARTITION_TABLE_WRITE_FAILED")
  onStage writeCompleted [("operation", .str plan.operation.value), ("exit_code", .int exitCode)]
  let kernelReread ← rereadDevice plan.targetDisk
  let after ← verifyTable cfg plan
  pure {
    operationId := plan.operationId
    operation := plan.operation
    exitCode
    kernelReread
    before
    after
    evidence := ["before=" ++ layoutFingerprint cfg.lib before,
      "after=" ++ layoutFingerprint cfg.lib after,
      "partition_table=" ++ after.partitionTable.fingerprintSha256] }

end Ares.Broker
