import Ares.Operations.Engine

/-! The way of a planned operation through the engine: validation with a dry run and a checkpoint,
the operator's authorization, and the execution of the write. -/

namespace Ares.Operations

open Coop Data Storage

variable (cfg : Config)

/-! ### Validation -/

/-- The checkpoint is ready, bound to the session and to the target of the plan. -/
def checkpointReady (plan : StorageOperationPlan) (c : ProtectionCheckpoint) : Bool :=
  c.status = .ready && c.sessionId = plan.sessionId && c.verificationId.isSome &&
  c.protectedResources.contains plan.protectedResourceId &&
  c.resourceFingerprints.lookup plan.protectedResourceId = some plan.targetDisk.fingerprintSha256

/-- What a validation finds out before its dry run. -/
structure Preflight where
  current : StorageLayout
  gate : StorageWriteGateDecision
  data : DataImpactAssessment
  boot : BootImpactAssessment

def preflightOf (dev : Devices) (plan : StorageOperationPlan)
    (current : StorageLayout) : Preflight where
  current
  gate := cfg.gate.evaluate dev current.disk.identity
  data := analyzeDataImpact plan.operation current plan.targetPartition
  boot := analyzeBootImpact plan.operation current plan.targetPartition

def Preflight.candidate (f : Preflight) (plan : StorageOperationPlan) : Bool :=
  f.gate.allowed && f.data.executable && f.boot.executable && adapterEnabled plan.operation

def preflightPlan (plan : StorageOperationPlan) (f : Preflight) :
    StorageOperationPlan :=
  stampPlan cfg
    { plan with
      targetDisk := f.current.disk.identity
      originalLayout := f.current
      dataImpact := f.data
      bootImpact := f.boot
      writeGate := f.gate
      protectionCheckpoint := none
      dryRun := none
      executable := false }

def validatedLimitations (plan : StorageOperationPlan) (f : Preflight)
    (dryRun : StorageDryRunResult) : List String :=
  (plan.limitations.filter (· ≠ preflightLimitation) ++
    (if dryRun.valid then [] else ["dry_run_rejected_proposed_layout"]) ++
    (if f.gate.allowed then [] else [f.gate.reason]) ++
    (if f.data.executable then [] else f.data.reasons) ++
    (if f.boot.executable then [] else f.boot.reasons) ++
    (if adapterEnabled plan.operation then [] else ["operation_adapter_disabled"])).eraseDups

def validatedPlan (plan : StorageOperationPlan) (f : Preflight)
    (dryRun : StorageDryRunResult) (checkpoint : Option ProtectionCheckpoint) :
    StorageOperationPlan :=
  stampPlan cfg
    { preflightPlan cfg plan f with
      dryRun := some dryRun
      protectionCheckpoint := checkpoint
      executable := f.candidate plan && dryRun.valid && checkpoint.isSome
      limitations := validatedLimitations plan f dryRun }

def protect (task : Nat) (plan : StorageOperationPlan) (f : Preflight)
    (dryRun : StorageDryRunResult) : Task (Option ProtectionCheckpoint) :=
  if f.candidate plan && dryRun.valid then do
    let bundle ← asEngine (attempt (.createCheckpoint
      (stampPlan cfg { preflightPlan cfg plan f with dryRun := some dryRun })))
    require (checkpointReady plan bundle.checkpoint &&
        bundle.artifact.partitionTableFingerprintSha256 =
          plan.originalLayout.partitionTable.fingerprintSha256)
      (.engine "STORAGE_PROTECTION_CHECKPOINT_INVALID")
    put task .validated (.artifact bundle.artifact) none
    put task .validated (.checkpoint bundle.checkpoint) none
    pure (some bundle.checkpoint)
  else
    pure none

def validatable (status : StorageTransactionStatus) : Bool :=
  status = .planned || status = .validated || status = .protected_

def storeValidated (task : Nat) (record : StorageOperationRecord)
    (validated : StorageOperationPlan) : Task StorageOperationPlan := do
  put task .validated (.plan validated) none
  putTransaction task .validated (some { record with plan := validated })
    { record.transaction with
      status := if validated.protectionCheckpoint.isSome then .protected_ else .validated
      checkpointId := validated.protectionCheckpoint.map (·.id)
      lastKnownStage := some "preflight-completed" }
  pure validated

def validateRecord (task : Nat) (record : StorageOperationRecord) :
    Task StorageOperationPlan := do
  require (validatable record.transaction.status)
    (.engine "STORAGE_OPERATION_NOT_VALIDATABLE")
  let plan := record.plan
  let now ← reading State.now
  require (now < plan.expiresAt) (.engine "STORAGE_OPERATION_PLAN_EXPIRED")
  let current ← inspect plan.targetDisk.requestedPath
  require (identityOk plan current) (.engine "STORAGE_DEVICE_IDENTITY_CHANGED")
  require (sameGeometry cfg current plan.originalLayout) (.engine "STORAGE_LAYOUT_CHANGED")
  let dev ← reading State.devices
  let f := preflightOf cfg dev plan current
  let dryRun ← asEngine (attempt (.dryRun (preflightPlan cfg plan f)))
  let checkpoint ← protect cfg task plan f dryRun
  storeValidated task record (validatedPlan cfg plan f dryRun checkpoint)

/-- An operation whose outcome is unknown is reconciled in place of a validation. -/
def validateUnknown (task : Nat) (operationId sessionId : String) :
    Task StorageOperationPlan := do
  let _ ← reconcileUnknown cfg task operationId sessionId
  let required := Error.engine "STORAGE_TRANSACTION_RECONCILIATION_REQUIRED"
  let refreshed ← ofOption required (← getRecord cfg task operationId)
  require (refreshed.transaction.status ≠ .unknown) required
  pure refreshed.plan

def validate (task : Nat) (operationId sessionId : String) :
    Task StorageOperationPlan := do
  let record ← ofOption (.engine "STORAGE_OPERATION_NOT_FOUND")
    (← getRecord cfg task operationId)
  require (record.transaction.sessionId = sessionId)
    (.engine "STORAGE_OPERATION_SESSION_MISMATCH")
  if record.transaction.status = .unknown then
    validateUnknown cfg task operationId sessionId
  else
    validateRecord cfg task record

/-! ### Authorization -/

def authorizationMessages (plan : StorageOperationPlan) (onChallenge : String → Task Unit) :
    Nat → Task StorageAuthorizationGrant
  | 0 => attempt (.grant plan)
  | n + 1 => do
    let challengeId ← attempt .challenge
    challengeId.elim (pure ()) onChallenge
    authorizationMessages plan onChallenge n

def executorRequestAuthorization (plan : StorageOperationPlan)
    (onChallenge : String → Task Unit) : Task StorageAuthorizationGrant := do
  attempt .connect
  let n ← perform Op.rounds
  authorizationMessages plan onChallenge n

/-- The plan can be authorized: it is executable, unchanged and protected. -/
def authorizable (record : StorageOperationRecord) : Bool :=
  record.transaction.status = .protected_ && record.plan.executable &&
  record.plan.protectionCheckpoint.isSome && storagePlanIntegrityValid cfg.lib record.plan

/-- The grant of the broker, stored with the transaction and then held by the engine. -/
def obtainGrant (task : Nat) (operationId : String) (record : StorageOperationRecord)
    (onChallenge : String → Task Unit) : Task StorageAuthorizationGrant := do
  let grant ← asEngine (executorRequestAuthorization record.plan onChallenge)
  putTransaction task .authorized (some record)
    { record.transaction with
      status := .authorized
      authorizationChallengeId := some grant.challengeId
      lastKnownStage := some "authorization-granted" }
  Proc.modify (State.setGrant operationId (some grant))
  pure grant

def requestAuthorization (task : Nat) (operationId sessionId : String)
    (onChallenge : String → Task Unit) : Task StorageAuthorizationGrant := do
  let record ← ofOption (.engine "STORAGE_OPERATION_NOT_FOUND")
    (← getRecord cfg task operationId)
  let plan := record.plan
  let notAuthorizable := Error.engine "STORAGE_OPERATION_NOT_AUTHORIZABLE"
  require (authorizable cfg record) notAuthorizable
  let checkpoint ← ofOption notAuthorizable plan.protectionCheckpoint
  require (plan.sessionId = sessionId) (.engine "STORAGE_OPERATION_SESSION_MISMATCH")
  let durable ← getProtection cfg checkpoint.id
  let artifact ← getCheckpoint cfg checkpoint.id
  require (durable = some checkpoint && artifact.isSome)
    (.engine "STORAGE_PROTECTION_CHECKPOINT_INVALID")
  obtainGrant task operationId record onChallenge

/-! ### Execution -/

def requireCheckpoint (plan : StorageOperationPlan) : Task Unit := do
  let invalid := Error.engine "STORAGE_PROTECTION_CHECKPOINT_INVALID"
  let checkpoint ← ofOption invalid plan.protectionCheckpoint
  require (checkpointReady plan checkpoint) invalid
  let durable ← getProtection cfg checkpoint.id
  let artifact ← getCheckpoint cfg checkpoint.id
  let artifact ← ofOption invalid artifact
  require (durable = some checkpoint && artifact.operationId = plan.operationId &&
    artifact.targetFingerprintSha256 = plan.targetDisk.fingerprintSha256 &&
    artifact.partitionTableFingerprintSha256 =
      plan.originalLayout.partitionTable.fingerprintSha256) invalid

/-- The last known stage of the stored transaction becomes `name`. -/
def restage (task : Nat) (operationId name : String) : Task Unit := do
  let record ← getRecord cfg task operationId
  match record with
  | none => pure ()
  | some record =>
    putTransaction task .stage (some record)
      { record.transaction with lastKnownStage := some name }

/-- The callback `stage` of `execute`. -/
def stage (task : Nat) (operationId : String)
    (onStage : String → Fields → Task Unit) (name : String) (payload : Fields) : Task Unit := do
  restage cfg task operationId name
  onStage name payload

def onMessage (onStage : String → Fields → Task Unit) : Message → Task Unit
  | .stage name payload => onStage name payload
  | .other => pure ()

def executionMessages (plan : StorageOperationPlan) (onStage : String → Fields → Task Unit) :
    Nat → Task StorageOperationOutcome
  | 0 => attempt (.outcome plan)
  | n + 1 => do
    let message ← attempt .message
    onMessage onStage message
    executionMessages plan onStage n

/-- The broker answers with an outcome after it compared the layout behind the write with the
plan. -/
def executorExecute (task : Nat) (plan : StorageOperationPlan)
    (onStage : String → Fields → Task Unit) : Task StorageOperationOutcome := do
  attempt .connect
  Proc.modify (State.setWrite task .working)
  let n ← perform Op.rounds
  let outcome ← executionMessages plan onStage n
  Proc.modify (State.setWrite task .compared)
  pure outcome

def uncertainCodes : List String :=
  ["STORAGE_BROKER_TIMEOUT", "STORAGE_BROKER_DISCONNECTED", "STORAGE_KERNEL_REREAD_FAILED",
    "STORAGE_RECONCILIATION_REQUIRED"]

def recordFailure (task : Nat) (operationId : String) : Error → Task Unit
  | .executor code =>
    if uncertainCodes.contains code then markUnknown cfg task operationId code
    else markFailed cfg task .markFailed operationId code
  | _ => pure ()

def verifyOutcome (id : String) (now : DateTime) (plan : StorageOperationPlan)
    (outcome : StorageOperationOutcome) : StorageVerification :=
  let identity := identityOk plan outcome.after
  let geometry := sameGeometry cfg outcome.after plan.proposedLayout
  let verified := identity && geometry
  { id
    operationId := plan.operationId
    createdAt := now
    status := if verified then .verified else .failed
    identityVerified := identity
    partitionTableVerified := geometry
    partitionGeometryVerified := geometry
    filesystemVerified := trueOrNone !plan.dataImpact.filesystemChangeRequired
    mountabilityVerified := trueOrNone !plan.dataImpact.mounted
    operatingSystemVerified := trueOrNone (noOperatingSystem plan)
    bootDependenciesVerified := trueOrNone (plan.bootImpact.level = .none)
    before := outcome.before
    after := some outcome.after
    evidence := outcome.evidence
    limitations :=
      [if plan.dataImpact.filesystemChangeRequired then "Filesystem-aware resize is not enabled."
        else "Filesystem verification is not applicable when no filesystem content was modified."]
    message :=
      if verified then "Device identity and proposed partition geometry were verified after write."
      else "Post-write identity or partition geometry differs from the approved plan." }

def terminalStatus : StorageVerificationStatus → StorageTransactionStatus
  | .verified => .committed
  | .failed => .failed
  | .partial_ | .unknown => .unknown

def terminalError : StorageTransactionStatus → Option String
  | .committed => none
  | .failed => some "STORAGE_VERIFICATION_FAILED"
  | _ => some "STORAGE_VERIFICATION_UNKNOWN"

def finishExecution (task : Nat) (operationId : String)
    (plan : StorageOperationPlan) (outcome : StorageOperationOutcome) :
    Task StorageVerification := do
  setStatus cfg task .verifying operationId .verifying none
    (some "storage-verification-started") false
  let now ← reading State.now
  let verification := verifyOutcome cfg (cfg.uuid4 task 2) now plan outcome
  put task .verified (.verification verification) none
  let terminal := terminalStatus verification.status
  let record ← ofOption (.engine "STORAGE_OPERATION_NOT_FOUND")
    (← getRecord cfg task operationId)
  let now ← reading State.now
  putTransaction task .verified (some record)
    { record.transaction with
      status := terminal
      finishedAt := if terminal ≠ .unknown then some now else none
      afterLayoutSha256 := some (layoutFingerprint cfg.lib outcome.after)
      verificationId := some verification.id
      lastKnownStage := some "storage-verification-completed"
      reconciliationRequired := terminal = .unknown
      errorCode := terminalError terminal }
  pure verification

def executeWrite (task : Nat) (operationId : String) (plan : StorageOperationPlan)
    (onStage : String → Fields → Task Unit) : Task StorageVerification := do
  let outcome ← asEngine (Proc.handle
    (executorExecute task plan (stage cfg task operationId onStage)) fun e => do
      recordFailure cfg task operationId e
      throw e)
  finishExecution cfg task operationId plan outcome

def executingTransaction (t : StorageTransaction) (now : DateTime) : StorageTransaction :=
  { t with
    status := .executing
    startedAt := some now
    lastKnownStage := some "storage-transaction-started"
    reconciliationRequired := false
    errorCode := none }

def execute (task : Nat) (operationId : String) (grant : StorageAuthorizationGrant)
    (sessionId : String) (onStage : String → Fields → Task Unit) : Task StorageVerification := do
  let record ← ofOption (.engine "STORAGE_OPERATION_NOT_FOUND")
    (← getRecord cfg task operationId)
  let plan := record.plan
  require (record.transaction.status = .authorized)
    (.engine "STORAGE_OPERATION_NOT_AUTHORIZED")
  require (plan.sessionId = sessionId && grant.sessionId = sessionId)
    (.engine "STORAGE_OPERATION_SESSION_MISMATCH")
  require (storagePlanIntegrityValid cfg.lib plan) (.engine "STORAGE_OPERATION_PLAN_TAMPERED")
  let dev ← reading State.devices
  require (cfg.gate.evaluate dev plan.targetDisk).allowed
    (.engine "PRODUCTION_STORAGE_WRITE_GATE_BLOCKED")
  requireCheckpoint cfg plan
  let now ← reading State.now
  putTransaction task .executing (some record) (executingTransaction record.transaction now)
  executeWrite cfg task operationId plan onStage

def executeAuthorized (task : Nat) (operationId sessionId : String)
    (onStage : String → Fields → Task Unit) : Task StorageVerification := do
  let s ← Proc.state
  Proc.modify (State.setGrant operationId none)
  let grant ← ofOption (.engine "STORAGE_AUTHORIZATION_GRANT_UNAVAILABLE")
    (s.grants operationId)
  execute cfg task operationId grant sessionId onStage

end Ares.Operations
