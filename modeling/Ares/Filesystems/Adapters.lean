import Ares.Filesystems.Models

/-! The repair policies of the filesystems: the fixed commands, and what their results mean. -/

namespace Ares.Filesystems

structure ProcessResult where
  tool : String
  exitCode : Int
  stdout : String
  stderr : String
deriving DecidableEq

inductive Adapter
  | ext | xfs | btrfs | ntfs
deriving DecidableEq

def adapterFor : FilesystemType → Adapter
  | .ext2 | .ext3 | .ext4 => .ext
  | .xfs => .xfs
  | .btrfs => .btrfs
  | .ntfs => .ntfs

namespace Adapter

/-- `capabilities.repair_supported`. -/
def repairSupported : Adapter → Bool
  | ext | xfs | ntfs => true
  | btrfs => false

/-- `capabilities.limitations`. -/
def limitations : Adapter → List String
  | ext => ["ARES usa e2fsck -p: solo corrige problemas que e2fsck considera " ++
      "seguros para reparación automática.",
      "No se implementa e2undo ni reparación interactiva en esta versión."]
  | xfs => ["ARES no usa xfs_repair -L; un dirty log que requiera borrado " ++
      "bloquea la reparación automática.",
      "xfs_repair -n no detecta todas las inconsistencias posibles."]
  | btrfs => ["btrfs check --repair no se automatiza: la documentación upstream " ++
      "exige criterio experto y puede agravar corrupción.",
      "ARES limita Btrfs 1.0 a inspección estructural read-only."]
  | ntfs => ["ntfsfix solo corrige inconsistencias NTFS fundamentales y solicita " ++
      "comprobación posterior de Windows.",
      "Un exit code exitoso de ntfsfix no equivale a una verificación completa de CHKDSK."]

/-- The one tool of an adapter, which is also its `required_tools`. -/
def tool : Adapter → String
  | ext => "e2fsck"
  | xfs => "xfs_repair"
  | btrfs => "btrfs"
  | ntfs => "ntfsfix"

def checkInvocation (target : String) (image : Bool) : Adapter → String × List String
  | ext => ("e2fsck", ["-f", "-n", target])
  | xfs => ("xfs_repair", if image then ["-n", "-f", target] else ["-n", target])
  | btrfs => ("btrfs", ["check", "--readonly", target])
  | ntfs => ("ntfsfix", ["-n", target])

/-- The mutating command; `none` is the `PermissionError` of the Btrfs adapter. -/
def repairInvocation (target : String) (image : Bool) : Adapter → Option (String × List String)
  | ext => some ("e2fsck", ["-f", "-p", target])
  | xfs => some ("xfs_repair", if image then ["-f", target] else [target])
  | btrfs => none
  | ntfs => some ("ntfsfix", [target])

/-- `code & mask` is not zero, for a mask of one bit or several. -/
def bits (code : Int) (mask : Nat) : Bool := (code % 256).toNat &&& mask ≠ 0

/-- The health and the problems that an exit code of the check stands for. -/
def verdict (code : Int) : Adapter → FilesystemHealth × List String
  | ext =>
    if code = 0 then (.healthy, [])
    else if bits code 4 then (.inconsistent, ["filesystem_errors_detected"])
    else if bits code (8 ||| 16 ||| 32 ||| 128) then
      (.unknown, ["filesystem_check_operational_failure"])
    else (.inconsistent, ["filesystem_changes_would_be_required"])
  | xfs =>
    if code = 0 then (.healthy, [])
    else if code = 1 then (.inconsistent, ["filesystem_corruption_detected"])
    else if code = 2 then (.inconsistent, ["xfs_dirty_log_requires_safe_replay"])
    else (.unknown, ["filesystem_check_operational_failure"])
  | btrfs =>
    if code = 0 then (.healthy, []) else (.inconsistent, ["filesystem_structural_errors_detected"])
  | ntfs =>
    if code = 0 then (.healthy, []) else (.inconsistent, ["ntfs_common_errors_detected"])

/-- `_evidence`. -/
def evidence (result : ProcessResult) : List String :=
  ["tool=" ++ result.tool, "exit_code=" ++ toString result.exitCode] ++
    (if result.stderr ≠ "" then ["stderr_present=true"] else []) ++
    (if result.stdout ≠ "" then ["stdout_present=true"] else [])

def parseCheck (adapter : Adapter) (result : ProcessResult) (filesystem : FilesystemType) :
    FilesystemCheckResult where
  filesystem
  health := (adapter.verdict result.exitCode).1
  tool := adapter.tool
  exitCode := result.exitCode
  problems := (adapter.verdict result.exitCode).2
  evidence := evidence result
  limitations := adapter.limitations

def repairSucceeded (result : ProcessResult) : Adapter → Bool
  | ext => result.exitCode = 0 || result.exitCode = 1 || result.exitCode = 2
  | xfs | ntfs => result.exitCode = 0
  | btrfs => false

def repairPartial (result : ProcessResult) : Adapter → Bool
  | ext => bits result.exitCode 4
  | xfs | btrfs | ntfs => false

theorem repairInvocation_target {adapter : Adapter} {target tool : String} {image : Bool}
    {args : List String} (h : adapter.repairInvocation target image = some (tool, args)) :
    args.getLast? = some target := by
  cases adapter with
  | ext | ntfs =>
    obtain ⟨-, rfl⟩ := Prod.mk.inj (Option.some.inj h)
    rfl
  | xfs =>
    obtain ⟨-, rfl⟩ := Prod.mk.inj (Option.some.inj h)
    cases image <;> rfl
  | btrfs => cases h

end Adapter

end Ares.Filesystems
