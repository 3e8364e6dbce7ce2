import Ares.Audit.Port
import Ares.Coop.Journal
import Ares.Filesystems.Adapters

/-! The filesystem tools as the broker runs them: the state of the broker, the calls at which its
requests wait, and the tool suite up to the command that repairs a filesystem. -/

namespace Ares.FilesystemBroker

open Coop Data Audit Filesystems

/-- A request as `dispatch` reads it: `none` stands for a document that `model_validate` refuses,
and for a device that is no string. -/
inductive Request
  | inspect (device : Option String)
  | authorize (plan : Option FilesystemRepairPlan)
  | execute (plan : Option FilesystemRepairPlan) (grant : Option FilesystemAuthorizationGrant)
  | rejected

/-- The exceptions, by the handlers that tell them apart. -/
inductive Error
  | permission
  | tool (code : String)
  | audit
  | timeout
  | notFound
  | os
  | runtime
  | value
  | cancelled
deriving DecidableEq

/-- `except OSError` catches it. -/
def Error.isOsError : Error → Bool
  | permission | timeout | notFound | os => true
  | tool _ | audit | runtime | value | cancelled => false

/-- A step of the task `task`. -/
inductive Event
  | received (task : Nat) (request : Request) (peerUid : Int)
  | drawn (task number : Nat)
  /-- The ledger holds the record; `acked` says that the broker knows. -/
  | audited (task : Nat) (entry : AuditEntry) (acked : Bool)
  | challenged (task : Nat) (plan : FilesystemRepairPlan) (challengeId : String)
  | answered (task : Nat) (challengeId : String) (decision : Option String)
      (operatorUid : Option Int)
  | granted (task : Nat) (grant : FilesystemAuthorizationGrant)
  | popped (task : Nat) (grantId : String) (stored : Option FilesystemAuthorizationGrant)
  | accepted (task : Nat) (plan : FilesystemRepairPlan) (grant : FilesystemAuthorizationGrant)
      (time : DateTime)
  | validated (task : Nat) (plan : FilesystemRepairPlan) (time : DateTime)
  | confirmed (task : Nat) (checkpoint : ProtectionCheckpoint)
  /-- `identify(requested)` returned. -/
  | identified (task : Nat) (requested : String) (fresh : DeviceIdentity)
  /-- `mount_checker.inspect(identity)` returned. -/
  | mounted (task : Nat) (identity : DeviceIdentity) (report : MountSafetyReport)
  /-- `tools.execute_repair(plan)` is called. -/
  | invoked (task : Nat) (plan : FilesystemRepairPlan) (time : DateTime)
  | repaired (task : Nat) (plan : FilesystemRepairPlan) (tool : String) (args : List String)
  | emergency (task : Nat) (event repairId : String)

def Event.task : Event → Nat
  | received t _ _ | drawn t _ | audited t _ _ | challenged t _ _ | answered t _ _ _ | granted t _
  | popped t _ _ | accepted t _ _ _ | validated t _ _ | confirmed t _ | identified t _ _
  | mounted t _ _ | invoked t _ _ | repaired t _ _ _ | emergency t _ _ => t

instance : Tasked Event := ⟨Event.task⟩

@[simp] theorem task_eq (e : Event) : Tasked.task e = e.task := rfl

structure State where
  now : DateTime
  /-- How many values `uuid4` has given. -/
  drawn : Nat
  grants : String → Option FilesystemAuthorizationGrant
  history : List Event

structure Config where
  allowedClientUids : List Int
  allowRegularFileTargets : Bool
  lib : Library
  uuid4 : Nat → String

/-- What `stat` says about a path. -/
inductive Stat
  | block (major minor : Nat)
  | regular (dev ino size : Nat)
  | other

/-- The fields of a device in the answer of `lsblk`, as `_string` and `_integer` read them. -/
structure Lsblk where
  uuid : Option String
  partuuid : Option String
  serial : Option String
  model : Option String
  size : Option Nat

/-- The calls that answer or raise. -/
inductive Call
  | send
  | resolve (requested : String)
  | blkid (target : String)
  | lsblk (target : String)
  | mount (identity : DeviceIdentity)
  | access (path : String)
  | availability (tool : String)
  | run (tool : String) (args : List String)
  | checkpoint (id : String)
  | requestFilesystem (plan : FilesystemRepairPlan)
  | wait (challengeId : String)

@[reducible] def Call.Answer : Call → Type
  | .send => Unit
  /- The canonical path, and what `stat` says about it. -/
  | .resolve _ => String × Stat
  /- The dictionary that `_blkid` returns. -/
  | .blkid _ => List (String × String)
  | .lsblk _ => Lsblk
  | .mount _ => MountSafetyReport
  | .access _ => Bool
  | .availability _ => ToolRequirement
  | .run _ _ => ProcessResult
  | .checkpoint _ => Option ProtectionCheckpoint
  | .requestFilesystem _ => Option String
  /- The decision and the operator's uid. -/
  | .wait _ => Option String × Option Int

inductive Op
  | lock
  | thread
  | append (entry : AuditEntry)
  | call (c : Call)

@[reducible] def Res : Op → Type
  | .lock | .thread => Unit
  | .append _ => AppendOutcome
  | .call c => Except Error c.Answer

abbrev Task := Proc State Res Error

def State.note (e : Event) (s : State) : State := { s with history := e :: s.history }

def lock : Task Unit := perform Op.lock

def thread : Task Unit := perform Op.thread

/-- A call whose exception goes on. -/
def attempt (c : Call) : Task c.Answer := Proc.attempt (Op.call c) fun r => r

/-- `runner.run`, with `FileNotFoundError` and `TimeoutError` given their codes. -/
def runTool (tool : String) (args : List String) (unavailable timedOut : String) :
    Task ProcessResult :=
  Proc.handle (attempt (.run tool args)) fun
    | .notFound => throw (.tool unavailable)
    | .timeout => throw (.tool timedOut)
    | e => throw e

/-! ### The identity of a device -/

/-- The components of `Path(text).parts` after the root. -/
def pathParts (text : String) : List (List Char) :=
  (text.toList.splitOn '/').filter fun part => part ≠ [] && part ≠ ['.']

/-- The root of the path is `/`; POSIX keeps two slashes apart. -/
def plainRoot (text : String) : Bool :=
  (text.toList.takeWhile (· = '/')).length ≠ 2

/-- `_valid_device_request`. -/
def validDeviceRequest (lib : Library) (requested : String) : Bool :=
  requested.length ≤ 4096 && plainRoot requested && match pathParts requested with
  | dev :: rest => dev = "dev".toList && rest ≠ [] && rest.all fun part =>
      part ≠ ['.', '.'] && part.length ≤ 255 && part.all fun c =>
        lib.isalnum c || ['_', '.', ':', '+', '@', '-'].contains c
  | [] => false

/-- `canonical.relative_to("/dev")` does not raise. -/
def underDev (canonical : String) : Bool :=
  match pathParts canonical with
  | dev :: _ => dev = "dev".toList
  | [] => false

/-- `value or default` for an optional text. -/
def orText (value default : Option String) : Option String :=
  match value with
  | some "" | none => default
  | some text => some text

def majorMinor : Stat → String
  | .block major minor => toString major ++ ":" ++ toString minor
  | .regular dev ino _ => "file:" ++ toString dev ++ ":" ++ toString ino
  | .other => ""

/-- The identity that `identify` builds, with its own fingerprint. -/
def identityOf (lib : Library) (requested canonical : String) (info : Stat)
    (blkid : List (String × String)) (lsblk : Lsblk) : DeviceIdentity :=
  let block := match info with
    | .block _ _ => true
    | _ => false
  let size := match info with
    | .regular _ _ size => lsblk.size.getD size
    | _ => lsblk.size.getD 0
  let filesystemUuid := orText (blkid.lookup "UUID") lsblk.uuid
  let d : DeviceIdentity := {
    requestedPath := requested
    canonicalPath := canonical
    majorMinor := majorMinor info
    uuid := filesystemUuid
    filesystemUuid
    partuuid := orText (blkid.lookup "PARTUUID") lsblk.partuuid
    serial := lsblk.serial
    model := lsblk.model
    sizeBytes := size
    blockDevice := block
    fingerprintSha256 := "" }
  { d with fingerprintSha256 := lib.identitySha256 d.body }

def repairable (cfg : Config) : Stat → Bool
  | .block _ _ => true
  | .regular _ _ _ => cfg.allowRegularFileTargets
  | .other => false

/-- `_lsblk` of a block device; a file has none. -/
def lsblkOf (info : Stat) (canonical : String) : Task Lsblk :=
  match info with
  | .block _ _ => attempt (.lsblk canonical)
  | _ => pure ⟨none, none, none, none, none⟩

def identify (cfg : Config) (task : Nat) (requested : String) : Task DeviceIdentity := do
  let invalid := Error.tool "FILESYSTEM_TARGET_INVALID"
  require (requested.toList.head? = some '/' && !requested.toList.contains '\x00') invalid
  require (cfg.allowRegularFileTargets || validDeviceRequest cfg.lib requested) invalid
  let (canonical, info) ← Proc.handle (attempt (.resolve requested)) fun e =>
    throw (if e.isOsError then .tool "FILESYSTEM_TARGET_NOT_FOUND" else e)
  require (cfg.allowRegularFileTargets || underDev canonical) invalid
  require (repairable cfg info) (.tool "FILESYSTEM_TARGET_NOT_BLOCK_DEVICE")
  let blkid ← attempt (.blkid canonical)
  let lsblk ← lsblkOf info canonical
  let fresh := identityOf cfg.lib requested canonical info blkid lsblk
  require fresh.valid .value
  Proc.modify (State.note (.identified task requested fresh))
  pure fresh

def revalidate (cfg : Config) (task : Nat) (expected : DeviceIdentity) : Task DeviceIdentity := do
  let current ← Proc.handle (identify cfg task expected.requestedPath) fun e =>
    throw (if e = .tool "FILESYSTEM_TARGET_NOT_FOUND" then .tool "FILESYSTEM_DEVICE_DISAPPEARED"
      else e)
  require (current.fingerprintSha256 = expected.fingerprintSha256)
    (.tool "FILESYSTEM_DEVICE_IDENTITY_CHANGED")
  pure current

/-- `asyncio.to_thread(self.mount_checker.inspect, identity)`. -/
def inspectMount (task : Nat) (identity : DeviceIdentity) : Task MountSafetyReport := do
  let report ← attempt (.mount identity)
  Proc.modify (State.note (.mounted task identity report))
  pure report

/-! ### The tool suite -/

def check (identity : DeviceIdentity) (filesystem : FilesystemType) :
    Task FilesystemCheckResult := do
  let adapter := adapterFor filesystem
  let (tool, args) := adapter.checkInvocation identity.canonicalPath (!identity.blockDevice)
  let result ← runTool tool args "FILESYSTEM_TOOL_UNAVAILABLE" "FILESYSTEM_CHECK_TIMEOUT"
  pure (adapter.parseCheck result filesystem)

/-- `_detect_filesystem`. -/
def detectFilesystem (lib : Library) (identity : DeviceIdentity) :
    Task (Option FilesystemType) := do
  let values ← attempt (.blkid identity.canonicalPath)
  pure (match lib.casefold ((values.lookup "TYPE").getD "") with
    | "ext2" => some .ext2
    | "ext3" => some .ext3
    | "ext4" => some .ext4
    | "xfs" => some .xfs
    | "btrfs" => some .btrfs
    | "ntfs" | "ntfs3" | "fuseblk" => some .ntfs
    | _ => none)

/-- `_requirements`. -/
def requirements : List String → Task (List ToolRequirement)
  | [] => pure []
  | name :: names => do
    let requirement ← attempt (.availability name)
    let rest ← requirements names
    pure (requirement :: rest)

/-- The check of an inspection, where the tools are there and the filesystem is not in use. -/
def inspectionCheck (identity : DeviceIdentity) (filesystem : FilesystemType)
    (missing : List String) (mounted : Bool) :
    Task (Option FilesystemCheckResult × List String) :=
  if missing ≠ [] then
    pure (none, ["required_tools_unavailable:" ++ String.intercalate "," missing])
  else if mounted then
    pure (none, ["dry_run_deferred_until_safe_unmount"])
  else do
    let result ← check identity filesystem
    pure (some result, [])

def inspectFilesystem (id : String) (now : DateTime) (identity : DeviceIdentity)
    (filesystem : FilesystemType) (mount : MountSafetyReport) (writable : Bool) :
    Task FilesystemInspection := do
  let adapter := adapterFor filesystem
  let requirements ← requirements (["blkid", adapter.tool] ++
    (if mount.mounted then ["umount", "mount"] else []))
  let missing := (requirements.filter (!·.available)).map (·.tool)
  let (result, notes) ← inspectionCheck identity filesystem missing mount.mounted
  pure {
    id
    inspectedAt := now
    identity
    filesystem := some filesystem
    health := (result.map (·.health)).getD .unknown
    mount
    check := result
    requiredTools := requirements
    writable
    supported := true
    repairSupported := adapter.repairSupported
    limitations := (adapter.limitations ++ notes ++
      (if writable then [] else ["target_not_writable"])).eraseDups }

/-- `_unmount`. -/
def unmount (mount : MountSafetyReport) : Task Unit := do
  match mount.mounts with
  | [record] => do
    let result ← runTool "umount" ["--", record.mountPoint] "FILESYSTEM_UNMOUNT_FAILED"
      "FILESYSTEM_UNMOUNT_FAILED"
    require (result.exitCode = 0) (.tool "FILESYSTEM_UNMOUNT_FAILED")
  | _ => throw (.tool "FILESYSTEM_REPAIR_BLOCKED")

def safeMountOptions : List String :=
  ["rw", "ro", "relatime", "noatime", "nodiratime", "lazytime", "sync", "dirsync"]

def remountArgs (plan : FilesystemRepairPlan) (record : MountRecord) : List String :=
  match record.options.filter safeMountOptions.contains with
  | [] => ["-t", plan.filesystem.value, plan.target.canonicalPath, record.mountPoint]
  | options => ["-t", plan.filesystem.value, "-o", String.intercalate "," options,
      plan.target.canonicalPath, record.mountPoint]

/-- `_remount`. -/
def remount (plan : FilesystemRepairPlan) : Task Bool := do
  match plan.mount.mounts with
  | [record] =>
    Proc.handle (do
      let result ← attempt (.run "mount" (remountArgs plan record))
      pure (decide (result.exitCode = 0))) fun
      | .notFound | .timeout => pure false
      | e => throw e
  | _ => pure false

abbrev OnEvent := String → Fields → Task Unit

def unmountFirst (onEvent : OnEvent) (mount : MountSafetyReport) : Task Unit := do
  require (mount.safeToUnmount && mount.safeToRemount) (.tool "FILESYSTEM_REPAIR_BLOCKED")
  onEvent "filesystem.unmount.started" []
  unmount mount
  onEvent "filesystem.unmounted" []

/-- What the repair command did: the tool, its exit code, the evidence and the limitations. -/
structure Repaired where
  tool : String
  exitCode : Int
  evidence : List String
  limitations : List String

def flagText (b : Bool) : String := if b then "true" else "false"

def repairTarget (task : Nat) (plan : FilesystemRepairPlan) (onEvent : OnEvent) :
    Task Repaired := do
  let adapter := adapterFor plan.filesystem
  let (tool, args) ← ofOption .permission
    (adapter.repairInvocation plan.target.canonicalPath (!plan.target.blockDevice))
  onEvent "filesystem.repair-command.started" [("tool", .str tool)]
  Proc.modify (State.note (.repaired task plan tool args))
  let result ← runTool tool args "FILESYSTEM_TOOL_UNAVAILABLE" "FILESYSTEM_REPAIR_TIMEOUT"
  onEvent "filesystem.repair-command.completed" [("tool", .str tool),
    ("exit_code", .int result.exitCode)]
  pure {
    tool
    exitCode := result.exitCode
    evidence := ["tool=" ++ tool, "exit_code=" ++ toString result.exitCode,
      "stdout_present=" ++ flagText (result.stdout ≠ ""),
      "stderr_present=" ++ flagText (result.stderr ≠ "")]
    limitations :=
      if adapter.repairSucceeded result then []
      else if adapter.repairPartial result then ["repair_tool_reported_unresolved_errors"]
      else ["repair_tool_failed"] }

def repairUnlessHealthy (task : Nat) (plan : FilesystemRepairPlan) (onEvent : OnEvent)
    (before : FilesystemCheckResult) : Task Repaired :=
  if before.health = .healthy then pure ⟨"none", 0, ["no_mutation_needed=true"], []⟩
  else repairTarget task plan onEvent

def remountAfter (plan : FilesystemRepairPlan) (onEvent : OnEvent)
    (after : FilesystemCheckResult) : Task (Option Bool × List String) :=
  if !plan.mount.mounted then pure (none, [])
  else if after.health = .healthy then do
    onEvent "filesystem.remount.started" []
    let remounted ← remount plan
    onEvent "filesystem.remounted" [("success", .bool remounted)]
    pure (some remounted, [])
  else pure (some false, ["filesystem_left_unmounted_after_failed_verification"])

def unmountWhere (plan : FilesystemRepairPlan) (onEvent : OnEvent) (mount : MountSafetyReport) :
    Task Unit :=
  if plan.mount.mounted then unmountFirst onEvent mount else pure ()

/-- `FilesystemToolSuite.execute_repair`. -/
def executeRepair (cfg : Config) (task : Nat) (plan : FilesystemRepairPlan) (onEvent : OnEvent) :
    Task FilesystemRepairOutcome := do
  let adapter := adapterFor plan.filesystem
  require adapter.repairSupported (.tool "FILESYSTEM_REPAIR_UNSUPPORTED")
  let current ← revalidate cfg task plan.target
  let mount ← inspectMount task current
  require (mount = plan.mount) (.tool "FILESYSTEM_MOUNT_STATE_CHANGED")
  unmountWhere plan onEvent mount
  let _ ← revalidate cfg task plan.target
  let before ← check plan.target plan.filesystem
  let repaired ← repairUnlessHealthy task plan onEvent before
  onEvent "filesystem.verification.started" []
  let after ← check plan.target plan.filesystem
  onEvent "filesystem.verification.completed" [("health", .str after.health.value),
    ("exit_code", .int after.exitCode)]
  let (remounted, notes) ← remountAfter plan onEvent after
  pure {
    before
    repairTool := repaired.tool
    repairExitCode := repaired.exitCode
    repairEvidence := repaired.evidence
    after
    remounted
    limitations := (adapter.limitations ++ repaired.limitations ++ notes).eraseDups }

end Ares.FilesystemBroker
