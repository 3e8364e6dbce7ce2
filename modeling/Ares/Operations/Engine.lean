import Ares.Operations.State

/-! The storage operation engine: planning, validation, authorization, execution, verification and
the reconciliation of an unknown outcome. -/

namespace Ares.Operations

open Coop Data Storage

variable (cfg : Config)

def asEngine {α : Type} (p : Task α) : Task α :=
  Proc.handle p fun
    | .executor code => throw (.engine code)
    | e => throw e

def inspect (target : String) : Task StorageLayout := asEngine (attempt (.inspect target))

/-! ### Plans -/

def stampPlan (draft : StorageOperationPlan) : StorageOperationPlan :=
  { draft with fingerprintSha256 := storagePlanFingerprint cfg.lib draft }

def operationEnum : StorageCapability → StorageOperationType
  | .create => .create
  | .delete => .delete
  | .resize => .resize
  | .move => .move

def planRisk : StorageCapability → PlanRisk
  | .create => .medium
  | .delete | .resize => .high
  | .move => .critical

def adapterEnabled (operation : StorageOperationType) : Bool :=
  operation = .create || operation = .delete

def requiredOperations (operation : StorageCapability) (partitionNumber : Option Nat) :
    List StoragePrimitiveOperation :=
  match operation with
  | .create | .delete =>
    [ { id := "storage.partition-table.write"
        kind := .writePartitionTable
        description := "Write the exact approved partition-table geometry with sfdisk."
        partitionNumber
        mutatesTarget := true
        enabled := true },
      { id := "storage.partition-table.reread"
        kind := .rereadPartitionTable
        description := "Ask the kernel to reread the table for block/loop devices."
        partitionNumber
        mutatesTarget := false
        enabled := true },
      { id := "storage.partition-table.verify"
        kind := .verifyPartitionTable
        description := "Reinspect identity and exact geometry after the write."
        partitionNumber
        mutatesTarget := false
        enabled := true } ]
  | .resize | .move =>
    [ { id := operation.value
        kind := if operation = .resize then .resizePartition else .movePartition
        description := "Architecture is modeled, but the executable adapter is disabled until " ++
          "filesystem-aware recovery exists."
        partitionNumber
        mutatesTarget := true
        enabled := false } ]

def verificationPlan : List StorageVerificationStep :=
  [ { id := "storage.verify-device-identity"
      description :=
        "Compare current multi-attribute device fingerprint with the approved target." },
    { id := "storage.verify-partition-table"
      description := "Run sfdisk verification and compare table type/GUID." },
    { id := "storage.verify-partition-geometry"
      description := "Compare exact partition numbers, starts, sizes, types and PARTUUIDs." },
    { id := "storage.verify-filesystem-impact"
      description := "Confirm no filesystem mutation was required by this executable slice." },
    { id := "storage.verify-boot-impact"
      description := "Confirm the operation did not modify a detected boot dependency." } ]

def affectedResources (original : StorageLayout) (target : Option PartitionResource) :
    List String :=
  let own := match target with
    | none => []
    | some t => t.id :: t.mountPointIds ++ t.operatingSystemIds ++ t.volumeIds ++
        t.filesystemId.toList
  ([original.disk.id, original.disk.partitionTableId] ++ own).eraseDups

def filesystemImpact (impact : DataImpactAssessment) : String :=
  if impact.filesystemChangeRequired then "filesystem_change_required_and_not_supported"
  else if impact.level = .critical || impact.level = .unknown then
    "filesystem_or_data_impact_blocks_execution"
  else "no_filesystem_content_change_planned"

def preflightLimitation : String := "validation_and_dry_run_required_before_authorization"

/-- What stands against an operation: the data, the boot path, the gate and the adapter. -/
def planLimitations (operation : StorageCapability) (data : DataImpactAssessment)
    (boot : BootImpactAssessment) (gate : StorageWriteGateDecision) : List String :=
  let designed := match operation with
    | .resize => ["storage.partition.resize is designed but disabled in this increment"]
    | .move => ["storage.partition.move is designed but disabled in this increment"]
    | _ => []
  ([preflightLimitation] ++ designed ++ (if data.executable then [] else data.reasons) ++
    (if boot.executable then [] else boot.reasons) ++
    (if gate.allowed then [] else [gate.reason]) ++
    (if adapterEnabled (operationEnum operation) then [] else ["operation_adapter_disabled"])
    ).eraseDups

def draftPlan (task : Nat) (request : DeclarativeStorageOperationRequest)
    (sessionId : String) (now : DateTime) (dev : Devices) (original proposed : StorageLayout)
    (target : Option PartitionResource) : StorageOperationPlan :=
  let operation := operationEnum request.operation
  let data := analyzeDataImpact operation original target
  let boot := analyzeBootImpact operation original target
  let gate := cfg.gate.evaluate dev original.disk.identity
  { id := cfg.uuid4 task 0
    operationId := cfg.uuid4 task 1
    capability := request.operation
    operation
    createdAt := now
    expiresAt := now + minutes 20
    sessionId
    targetDisk := original.disk.identity
    targetPartition := target
    originalLayout := original
    proposedLayout := proposed
    requiredOperations := requiredOperations request.operation request.partitionNumber
    affectedResources := affectedResources original target
    risk := planRisk request.operation
    estimatedDurationSeconds := none
    dataLossPossible := data.dataLossPossible
    dataImpact := data
    bootImpact := boot
    filesystemImpact := filesystemImpact data
    protectionCheckpoint := none
    verificationPlan := verificationPlan
    dryRun := none
    writeGate := gate
    executable := false
    limitations := planLimitations request.operation data boot gate
    fingerprintSha256 := DiskIdentityTool.draftFingerprint }

def plannedTransaction (plan : StorageOperationPlan) (createdBy : String)
    (now : DateTime) : StorageTransaction where
  id := plan.operationId
  operationId := plan.operationId
  planId := plan.id
  sessionId := plan.sessionId
  status := .planned
  createdAt := now
  startedAt := none
  finishedAt := none
  checkpointId := none
  authorizationChallengeId := none
  lastKnownStage := none
  beforeLayoutSha256 := some (layoutFingerprint cfg.lib plan.originalLayout)
  afterLayoutSha256 := none
  verificationId := none
  reconciliationRequired := false
  errorCode := none
  metadata := [("created_by", .str createdBy)]

def plan (task : Nat) (request : DeclarativeStorageOperationRequest)
    (sessionId createdBy : String) : Task StorageOperationPlan := do
  let original ← inspect request.targetDisk
  let s ← Proc.state
  let (proposed, target) ←
    Proc.ofExcept ((cfg.propose request original task s.now).mapError Error.engine)
  require (8 ≤ sessionId.length && sessionId.length ≤ 128) .exception
  let plan := stampPlan cfg
    (draftPlan cfg task request sessionId s.now s.devices original proposed target)
  put task .planned (.plan plan) none
  putTransaction task .planned none (plannedTransaction cfg plan createdBy s.now)
  pure plan

/-! ### Transactions -/

/-- `value or default` for an optional text. -/
def orText (value : Option String) (default : String) : String :=
  match value with
  | none => default
  | some text => if text = "" then default else text

def markUnknown (task : Nat) (operationId code : String) : Task Unit := do
  let record ← getRecord cfg task operationId
  match record with
  | none => pure ()
  | some record =>
    putTransaction task .markUnknown (some record)
      { record.transaction with
        status := .unknown
        finishedAt := none
        reconciliationRequired := true
        errorCode := some code
        lastKnownStage := some (orText record.transaction.lastKnownStage "communication-lost") }

/-- `_set_status`. -/
def setStatus (task : Nat) (writer : Writer) (operationId : String)
    (status : StorageTransactionStatus) (errorCode lastKnownStage : Option String)
    (finished : Bool) : Task Unit := do
  let record ← getRecord cfg task operationId
  match record with
  | none => pure ()
  | some record =>
    let now ← reading State.now
    putTransaction task writer (some record)
      { record.transaction with
        status
        errorCode
        lastKnownStage
        finishedAt := if finished then some now else record.transaction.finishedAt }

def markFailed (task : Nat) (writer : Writer) (operationId code : String) :
    Task Unit :=
  setStatus cfg task writer operationId .failed (some code) (some "storage-transaction-failed") true

def markAborted (task : Nat) (operationId code : String) : Task Unit :=
  setStatus cfg task .markAborted operationId .aborted (some code)
    (some "storage-transaction-aborted") true

/-! ### Reconciliation -/

/-- What a layout that was observed after an unknown outcome says about it. -/
structure Verdict where
  status : StorageTransactionStatus
  errorCode : Option String
  verification : StorageVerification

/-- The layout is that of the device and the table that a plan names. -/
def identityOk (plan : StorageOperationPlan) (current : StorageLayout) : Bool :=
  current.disk.identity.fingerprintSha256 = plan.targetDisk.fingerprintSha256

def sameGeometry (current expected : StorageLayout) : Bool :=
  partitionGeometrySignature cfg.lib current.partitionTable =
    partitionGeometrySignature cfg.lib expected.partitionTable

/-- `True if c else None`. -/
def trueOrNone (c : Bool) : Option Bool := if c then some true else none

def noOperatingSystem (plan : StorageOperationPlan) : Bool :=
  plan.targetPartition.all (·.operatingSystemIds.isEmpty)

def judge (operationId id : String) (now : DateTime) (plan : StorageOperationPlan)
    (current : StorageLayout) : Verdict :=
  let identity := identityOk plan current
  let proposed := sameGeometry cfg current plan.proposedLayout
  let original := sameGeometry cfg current plan.originalLayout
  if identity && proposed then
    { status := .committed
      errorCode := none
      verification :=
        { id, operationId
          createdAt := now
          status := .verified
          identityVerified := true
          partitionTableVerified := true
          partitionGeometryVerified := true
          filesystemVerified := trueOrNone !plan.dataImpact.filesystemChangeRequired
          mountabilityVerified := trueOrNone !plan.dataImpact.mounted
          operatingSystemVerified := trueOrNone (noOperatingSystem plan)
          bootDependenciesVerified := trueOrNone (plan.bootImpact.level = .none)
          before := plan.originalLayout
          after := some current
          evidence := ["reconciled_after_unknown=proposed_layout"]
          limitations := []
          message := "Reinspection proved the approved proposed layout is present." } }
  else if identity && original then
    { status := .aborted
      errorCode := some "STORAGE_UNKNOWN_RECONCILED_NO_CHANGE"
      verification :=
        { id, operationId
          createdAt := now
          status := .partial_
          identityVerified := true
          partitionTableVerified := true
          partitionGeometryVerified := true
          filesystemVerified := none
          mountabilityVerified := none
          operatingSystemVerified := none
          bootDependenciesVerified := none
          before := plan.originalLayout
          after := some current
          evidence := ["reconciled_after_unknown=original_layout"]
          limitations := ["No committed partition-table change was observed."]
          message :=
            "Reinspection found the original layout; transaction is aborted, not retried." } }
  else
    { status := .unknown
      errorCode := some "STORAGE_TRANSACTION_RECONCILIATION_REQUIRED"
      verification :=
        { id, operationId
          createdAt := now
          status := .unknown
          identityVerified := identity
          partitionTableVerified := false
          partitionGeometryVerified := false
          filesystemVerified := none
          mountabilityVerified := none
          operatingSystemVerified := none
          bootDependenciesVerified := none
          before := plan.originalLayout
          after := some current
          evidence := ["reconciled_after_unknown=unexpected_layout"]
          limitations := ["Manual inspection is required; automatic continuation is forbidden."]
          message := "Current layout matches neither approved BEFORE nor approved AFTER state." } }

/-- The transaction after a verdict at the time `now`. -/
def reconciledTransaction (t : StorageTransaction) (verdict : Verdict)
    (current : StorageLayout) (now : DateTime) : StorageTransaction :=
  { t with
    status := verdict.status
    finishedAt := if verdict.status ≠ .unknown then some now else none
    verificationId := some verdict.verification.id
    afterLayoutSha256 := some (layoutFingerprint cfg.lib current)
    reconciliationRequired := verdict.status = .unknown
    errorCode := verdict.errorCode
    lastKnownStage := some "unknown-reinspection-completed" }

def reinspect (task : Nat) (operationId : String) (record : StorageOperationRecord) :
    Task StorageVerification := do
  let current ← inspect record.plan.targetDisk.requestedPath
  let now ← reading State.now
  let verdict := judge cfg operationId (cfg.uuid4 task 2) now record.plan current
  put task .reconciled (.verification verdict.verification) none
  let now ← reading State.now
  putTransaction task .reconciled (some record)
    (reconciledTransaction cfg record.transaction verdict current now)
  pure verdict.verification

def reconcileUnknown (task : Nat) (operationId sessionId : String) :
    Task StorageVerification := do
  let record ← ofOption (.engine "STORAGE_OPERATION_NOT_FOUND")
    (← getRecord cfg task operationId)
  if record.transaction.status ≠ .unknown then
    ofOption (.engine "STORAGE_TRANSACTION_NOT_UNKNOWN") record.verification
  else
    require (record.transaction.sessionId = sessionId)
      (.engine "STORAGE_OPERATION_SESSION_MISMATCH")
    reinspect cfg task operationId record

end Ares.Operations
