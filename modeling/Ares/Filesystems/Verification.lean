import Ares.Filesystems.Adapters

/-! What a repair comes to: the verdict on its outcome, and the record that it ends in. -/

namespace Ares.Filesystems

inductive RepairVerificationStatus
  | success | partially | failed | unknown
deriving DecidableEq

inductive RepairExecutionStatus
  | planned | authorizing | running | verifying | completed | partially | failed | cancelled
  | aborted
deriving DecidableEq

structure RepairVerification where
  repairId : String
  status : RepairVerificationStatus
  before : Option FilesystemCheckResult
  after : Option FilesystemCheckResult
  targetIdentityVerified : Bool
  checkpointVerified : Bool
  remounted : Option Bool
  evidence : List String
  limitations : List String
  message : String
deriving DecidableEq

/-- The fields of an execution that change at its end. -/
structure RepairExecution where
  status : RepairExecutionStatus
  finishedAt : Option DateTime
  tool : Option String
  errorCode : Option String
deriving DecidableEq

structure FilesystemRepairRecord where
  plan : FilesystemRepairPlan
  execution : RepairExecution
  verification : Option RepairVerification
deriving DecidableEq

/-- `_verification_status`. -/
def verificationStatus (plan : FilesystemRepairPlan) (outcome : FilesystemRepairOutcome) :
    RepairVerificationStatus × String :=
  if outcome.after.health ≠ .healthy then
    if outcome.after.health = .unknown then
      (.unknown, "La verificación posterior no fue concluyente.")
    else (.failed, "La comprobación posterior aún detecta inconsistencias.")
  else if ["repair_tool_failed", "repair_tool_reported_unresolved_errors"].any
      outcome.limitations.contains then
    (.partially,
      "La herramienta de reparación reportó errores no resueltos; no se declara éxito total.")
  else if plan.filesystem = .ntfs ∧ outcome.repairTool ≠ "none" then
    (.partially, "ntfsfix terminó y el check Linux no detecta errores comunes, " ++
      "pero Windows CHKDSK sigue siendo necesario.")
  else if plan.mount.mounted ∧ outcome.remounted ≠ some true then
    (.partially, "El filesystem verificó sano pero no pudo remontarse.")
  else (.success, "La comprobación posterior demuestra consistencia según el adapter.")

/-- The record and the verification that `VerifyFilesystemRepairAction.run` returns. -/
def verifyRepair (plan : FilesystemRepairPlan) (outcome : FilesystemRepairOutcome)
    (record : FilesystemRepairRecord) : FilesystemRepairRecord × RepairVerification :=
  let (status, message) := verificationStatus plan outcome
  let verification : RepairVerification := {
    repairId := plan.repairId
    status
    before := some outcome.before
    after := some outcome.after
    targetIdentityVerified := true
    checkpointVerified := plan.protectionCheckpoint.isSome
    remounted := outcome.remounted
    evidence := outcome.repairEvidence
    limitations := outcome.limitations
    message }
  let execution := { record.execution with
    status := .verifying
    tool := some outcome.repairTool
    errorCode := none }
  ({ record with execution, verification := some verification }, verification)

/-- The status, the error code and the event of a repair with this verdict. -/
def terminalOf : RepairVerificationStatus → RepairExecutionStatus × Option String × String
  | .success => (.completed, none, "repair.completed")
  | .partially | .unknown => (.partially, some "FILESYSTEM_REPAIR_PARTIAL", "repair.failed")
  | .failed => (.failed, some "FILESYSTEM_VERIFICATION_FAILED", "repair.failed")

/-- The record that `ProjectFilesystemRepairGraphAction.run` stores. -/
def projectRepair (now : DateTime) (record : FilesystemRepairRecord)
    (verification : RepairVerification) : FilesystemRepairRecord :=
  let (status, errorCode, _) := terminalOf verification.status
  { record with execution := { record.execution with status, finishedAt := some now, errorCode } }

variable {plan : FilesystemRepairPlan} {outcome : FilesystemRepairOutcome}

theorem terminalOf_completed {status : RepairVerificationStatus} :
    (terminalOf status).1 = .completed ↔ status = .success := by
  cases status <;> decide

theorem projectRepair_completed (now : DateTime) (record : FilesystemRepairRecord) :
    (projectRepair now (verifyRepair plan outcome record).1
      (verifyRepair plan outcome record).2).execution.status = .completed ↔
        (verificationStatus plan outcome).1 = .success :=
  terminalOf_completed

theorem verificationStatus_success (h : (verificationStatus plan outcome).1 = .success) :
    outcome.after.health = .healthy ∧ "repair_tool_failed" ∉ outcome.limitations ∧
      "repair_tool_reported_unresolved_errors" ∉ outcome.limitations ∧
      (plan.filesystem = .ntfs → outcome.repairTool = "none") ∧
      (plan.mount.mounted = true → outcome.remounted = some true) := by
  unfold verificationStatus at h
  by_cases hhealth : outcome.after.health = .healthy
  · rw [if_neg (not_not.mpr hhealth)] at h
    split at h
    · cases h
    · next hlimitations =>
      split at h
      · cases h
      · next hntfs =>
        split at h
        · cases h
        · next hmounted =>
          simp only [List.any_cons, List.any_nil, Bool.or_false, Bool.or_eq_true,
            List.contains_iff_mem, not_or] at hlimitations
          refine ⟨hhealth, hlimitations.1, hlimitations.2, fun hfilesystem => ?_, fun hplan => ?_⟩
          · by_contra hne
            exact hntfs ⟨hfilesystem, hne⟩
          · by_contra hne
            exact hmounted ⟨hplan, hne⟩
  · rw [if_pos hhealth] at h
    split at h <;> cases h

namespace Adapter

theorem verdict_healthy (adapter : Adapter) (code : Int) :
    (adapter.verdict code).1 = .healthy ↔ code = 0 := by
  by_cases hzero : code = 0
  · subst hzero
    cases adapter <;> simp [verdict]
  · cases adapter with
    | ext | xfs =>
      simp only [verdict, hzero, if_false, iff_false]
      split_ifs <;> simp
    | btrfs | ntfs => simp [verdict, hzero]

theorem tool_ne_none (adapter : Adapter) : adapter.tool ≠ "none" := by
  cases adapter <;> decide

theorem repairInvocation_tool {adapter : Adapter} {target tool : String} {image : Bool}
    {args : List String} (h : adapter.repairInvocation target image = some (tool, args)) :
    tool = adapter.tool := by
  cases adapter with
  | ext | xfs | ntfs => exact (Prod.mk.inj (Option.some.inj h)).1.symm
  | btrfs => cases h

theorem checkInvocation_tool (adapter : Adapter) (target : String) (image : Bool) :
    (adapter.checkInvocation target image).1 = adapter.tool := by
  cases adapter <;> rfl

end Adapter

end Ares.Filesystems
