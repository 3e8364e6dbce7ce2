import Ares.Broker.Tools

/-! The storage broker: its six requests, the grants it keeps and the records it asks the ledger to
append. -/

namespace Ares.Broker

open Coop Data Audit Storage

variable (plan : StorageOperationPlan)

inductive Response
  | layout (l : StorageLayout)
  | dryRun (r : StorageDryRunResult)
  | bundle (b : StorageCheckpointBundle)
  | grant (g : StorageAuthorizationGrant)
  | outcome (o : StorageOperationOutcome)

namespace State

def draw (task : Nat) (s : State) : State :=
  { s with drawn := s.drawn + 1 }.note (.drawn task s.drawn)

/-- `self._grants[grant.id] = grant`. -/
def grant (task : Nat) (g : StorageAuthorizationGrant) (s : State) : State :=
  { s with grants := Function.update s.grants g.id (some g) }.note (.granted task g)

/-- `self._grants.pop(id, None)`. -/
def pop (task : Nat) (id : String) (s : State) : State :=
  { s with grants := Function.update s.grants id none }.note (.popped task id (s.grants id))

def loseObserver (task : Nat) (s : State) : State :=
  { s with observerLost := Function.update s.observerLost task true }.note (.observerLost task)

end State

/-! ### The records -/

def entryOf (eventType : String) (payload : Fields) : AuditEntry where
  eventType := eventType
  source := "ares-tool-broker"
  correlationId := plan.operationId
  sessionId := plan.sessionId
  payload := payload

def auditPlan : Fields :=
  [("plan_id", .str plan.id), ("plan_fingerprint", .str plan.fingerprintSha256),
    ("operation", .str plan.operation.value), ("target", .str plan.targetDisk.canonicalPath),
    ("target_fingerprint", .str plan.targetDisk.fingerprintSha256),
    ("device_kind", .str plan.targetDisk.deviceKind.value),
    ("original_layout", .str plan.originalLayout.partitionTable.fingerprintSha256),
    ("proposed_layout", .str plan.proposedLayout.partitionTable.fingerprintSha256),
    ("dry_run_script_sha256", .optStr (plan.dryRun.map (·.scriptSha256))),
    ("checkpoint_id", .optStr (plan.protectionCheckpoint.map (·.id))),
    ("data_impact", .str plan.dataImpact.level.value),
    ("boot_impact", .str plan.bootImpact.level.value), ("risk", .str plan.risk.value),
    ("write_gate", .bool plan.writeGate.allowed)]

def authorizationIntent : AuditEntry :=
  entryOf plan "storage.authorization.intent" (auditPlan plan)

def transactionIntent (g : StorageAuthorizationGrant) : AuditEntry :=
  entryOf plan "storage.transaction.intent" ((auditPlan plan).update
    [("operator_uid", .optInt g.operatorUid), ("tool", .str "sfdisk")])

def sanitizeStage (payload : Fields) : Fields :=
  ["operation", "target_fingerprint", "exit_code", "kernel_reread"].filterMap fun key =>
    match (payload.get? key).getD .null with
    | .str s => some (key, .str s)
    | .int i => some (key, .int i)
    | .bool b => some (key, .bool b)
    | .null => some (key, .null)
    | _ => none

def stageEntry (name : String) (payload : Fields) : AuditEntry :=
  entryOf plan name (Fields.update
    [("target_fingerprint", .str plan.targetDisk.fingerprintSha256)] (sanitizeStage payload))

def completedEntry (outcome : StorageOperationOutcome)
    (observerLost : Bool) : AuditEntry :=
  entryOf plan "storage.transaction.completed"
    [("target_fingerprint", .str plan.targetDisk.fingerprintSha256),
      ("operation", .str plan.operation.value), ("exit_code", .int outcome.exitCode),
      ("kernel_reread", match outcome.kernelReread with
        | some b => .bool b
        | none => .null),
      ("before_layout", .str plan.originalLayout.partitionTable.fingerprintSha256),
      ("after_layout", .str outcome.after.partitionTable.fingerprintSha256),
      ("observer_lost", .bool observerLost)]

def safeCode : Error → String
  | .tool code => code
  | .audit => "AUDIT_LEDGER_UNAVAILABLE"
  | .cancelled => "STORAGE_BROKER_CANCELLED"
  | _ => "STORAGE_BROKER_FAILED"

def failedEntry (e : Error) : AuditEntry :=
  entryOf plan "storage.transaction.failed"
    [("target_fingerprint", .str plan.targetDisk.fingerprintSha256),
      ("operation", .str plan.operation.value), ("error_code", .str (safeCode e))]

/-- `audit.append`. -/
def append (task : Nat) (entry : AuditEntry) : Task Unit := do
  match ← perform (Op.append entry) with
  | .acked => Proc.modify (State.note (.audited task entry true))
  | .lost =>
    Proc.modify (State.note (.audited task entry false))
    throw .audit
  | .failed => throw .audit
  | .cancelled written =>
    Proc.modify (State.note (.interrupted task entry written))
    throw .cancelled

/-- `asyncio.to_thread(self._emergency, record)`.  The thread goes on when the request that waits
for it is cancelled. -/
def emergency (task : Nat) (plan : StorageOperationPlan) (event : String) : Task Unit := do
  Proc.modify (State.note (.emergency task event plan.operationId))
  thread

/-- `uuid4().hex`. -/
def draw (cfg : Config) (task : Nat) : Task String := do
  let n ← reading State.drawn
  Proc.modify (State.draw task)
  pure (cfg.uuid4 n)

/-! ### The checks -/

/-- The checkpoint of a plan is ready, bound to its session and to its target. -/
def checkpointReady (c : ProtectionCheckpoint) : Bool :=
  c.status = .ready && c.sessionId = plan.sessionId && c.verificationId.isSome &&
  c.protectedResources.contains plan.protectedResourceId &&
  c.resourceFingerprints.lookup plan.protectedResourceId = some plan.targetDisk.fingerprintSha256

def validateCheckpoint : Task Unit := do
  let invalid := Error.tool "STORAGE_PROTECTION_CHECKPOINT_INVALID"
  let checkpoint ← ofOption invalid plan.protectionCheckpoint
  require (checkpointReady plan checkpoint) invalid
  let durable ← attempt (.checkpoint checkpoint.id)
  let artifact ← attempt (.artifact checkpoint.id)
  let artifact ← ofOption invalid artifact
  require (durable = some checkpoint && artifact.operationId = plan.operationId &&
    artifact.partitionTableFingerprintSha256 =
      plan.originalLayout.partitionTable.fingerprintSha256) invalid

/-- `plan.executable`, with a dry run that was valid. -/
def dryRunValid : Bool :=
  plan.executable && plan.dryRun.any (·.valid)

def validatePreflightPlan (cfg : Config) (plan : StorageOperationPlan)
    (checkpointRequired : Bool) : Task Unit := do
  let s ← Proc.state
  require (storagePlanIntegrityValid cfg.lib plan && s.now < plan.expiresAt)
    (.tool "STORAGE_OPERATION_PLAN_INVALID")
  require (cfg.gate.evaluate s.devices plan.targetDisk).allowed
    (.tool "PRODUCTION_STORAGE_WRITE_GATE_BLOCKED")
  let current ← inspect cfg plan.targetDisk.requestedPath
  require (current.disk.identity.fingerprintSha256 = plan.targetDisk.fingerprintSha256)
    (.tool "STORAGE_DEVICE_IDENTITY_CHANGED")
  require (partitionGeometrySignature cfg.lib current.partitionTable =
      partitionGeometrySignature cfg.lib plan.originalLayout.partitionTable)
    (.tool "STORAGE_LAYOUT_CHANGED")
  if checkpointRequired then
    require (dryRunValid plan) (.tool "STORAGE_OPERATION_NOT_EXECUTABLE")
    validateCheckpoint plan
  else
    pure ()

def validatePostwritePlan (cfg : Config) (plan : StorageOperationPlan) : Task Unit := do
  let s ← Proc.state
  require (storagePlanIntegrityValid cfg.lib plan && s.now < plan.expiresAt)
    (.tool "STORAGE_OPERATION_PLAN_INVALID")
  require (dryRunValid plan) (.tool "STORAGE_OPERATION_NOT_EXECUTABLE")
  require (cfg.gate.evaluate s.devices plan.targetDisk).allowed
    (.tool "PRODUCTION_STORAGE_WRITE_GATE_BLOCKED")
  let current ← identify cfg plan.targetDisk.requestedPath
  require (current.fingerprintSha256 = plan.targetDisk.fingerprintSha256)
    (.tool "STORAGE_DEVICE_IDENTITY_CHANGED")
  validateCheckpoint plan

/-! ### The requests -/

def checkpoint (cfg : Config) (task : Nat) (plan : StorageOperationPlan) : Task Response := do
  validatePreflightPlan cfg plan false
  let checkpointId ← draw cfg task
  let artifact ← createCheckpoint cfg task plan checkpointId
  let target := plan.targetDisk.fingerprintSha256
  let evidence := cfg.lib.canonicalSha256 (.fields [("checkpoint_id", .str checkpointId),
    ("operation_id", .str plan.operationId), ("target_fingerprint", .str target),
    ("partition_table_fingerprint", .str artifact.partitionTableFingerprintSha256),
    ("dump_sha256", .str artifact.dumpSha256)])
  let now ← reading State.now
  let checkpoint : ProtectionCheckpoint := {
    id := checkpointId
    createdAt := now
    status := .ready
    protectedResources := [plan.protectedResourceId]
    resourceFingerprints := [(plan.protectedResourceId, target)]
    providerCapabilityId := "storage.partition.inspect"
    protectionKind := .snapshot
    backupId := none
    verificationId := some ("partition-table:" ++ takeChars 24 artifact.dumpSha256)
    sessionId := plan.sessionId
    evidenceSha256 := evidence
    limitations := [
      "Checkpoint restores partition-table metadata only; it is not a data backup.",
      "Execution is limited to table-only create/delete where impact policy permits it."] }
  append task (entryOf plan "storage.checkpoint.created" [("checkpoint_id", .str checkpoint.id),
    ("target_fingerprint", .str target),
    ("partition_table_fingerprint", .str artifact.partitionTableFingerprintSha256),
    ("dump_sha256", .str artifact.dumpSha256)])
  pure (.bundle { checkpoint, artifact })

def grantValid (g : StorageAuthorizationGrant) : Bool :=
  [g.id, g.challengeId, g.operationId, g.planId, g.sessionId].all fun text =>
    8 ≤ text.length && text.length ≤ 128

def grantFor (id challengeId : String) (operatorUid : Int)
    (now : DateTime) : StorageAuthorizationGrant where
  id := id
  challengeId := challengeId
  operationId := plan.operationId
  planId := plan.id
  sessionId := plan.sessionId
  targetFingerprintSha256 := plan.targetDisk.fingerprintSha256
  planFingerprintSha256 := plan.fingerprintSha256
  operatorUid := some operatorUid
  expiresAt := min plan.expiresAt (now + minutes 5)

def consent (task : Nat) (plan : StorageOperationPlan) :
    Task (String × Option String × Option Int) := do
  let failed := Error.tool "STORAGE_AUTHORIZATION_FAILED"
  Proc.handle (do
    let challengeId ← ofOption failed (← attempt (.requestStorage plan))
    Proc.modify (State.note (.challenged task plan challengeId))
    attempt .send
    let (decision, operatorUid) ← attempt (.wait challengeId)
    Proc.modify (State.note (.answered task challengeId decision operatorUid))
    pure (challengeId, decision, operatorUid)) fun
    | .runtime => throw failed
    | e => throw e

def authorize (cfg : Config) (task : Nat) (plan : StorageOperationPlan) : Task Response := do
  validatePreflightPlan cfg plan true
  append task (authorizationIntent plan)
  let (challengeId, decision, operatorUid) ← consent task plan
  require (decision = some "approved") (.tool "STORAGE_AUTHORIZATION_DENIED")
  let operatorUid ← ofOption (.tool "STORAGE_AUTHORIZATION_INVALID") operatorUid
  require (0 ≤ operatorUid) (.tool "STORAGE_AUTHORIZATION_INVALID")
  validatePreflightPlan cfg plan true
  let id ← draw cfg task
  let now ← reading State.now
  let g := grantFor plan id challengeId operatorUid now
  require (grantValid g) .value
  lock
  Proc.modify (State.grant task g)
  append task (entryOf plan "storage.authorization.granted" [("challenge_id", .str challengeId),
    ("grant_id_hash", .str (takeChars 24 (cfg.lib.tokenSha256 g.id))),
    ("operator_uid", .int operatorUid), ("plan_id", .str plan.id),
    ("plan_fingerprint", .str plan.fingerprintSha256),
    ("target_fingerprint", .str plan.targetDisk.fingerprintSha256),
    ("checkpoint_id", .optStr (plan.protectionCheckpoint.map (·.id))), ("one_use", .bool true)])
  pure (.grant g)

/-- `_grant_matches`. -/
def grantMatches (g : StorageAuthorizationGrant)
    (stored : Option StorageAuthorizationGrant) (now : DateTime) : Bool :=
  stored = some g && now < g.expiresAt && g.operationId = plan.operationId && g.planId = plan.id &&
  g.sessionId = plan.sessionId &&
  g.targetFingerprintSha256 = plan.targetDisk.fingerprintSha256 &&
  g.planFingerprintSha256 = plan.fingerprintSha256

/-- The callback `stage` of `_execute`. -/
def stage (task : Nat) (plan : StorageOperationPlan) (name : String) (payload : Fields) :
    Task Unit := do
  let lost ← reading fun s => s.observerLost task
  if lost then
    pure ()
  else
    Proc.handle (attempt .send) fun
      | .os | .timeout | .runtime => Proc.modify (State.loseObserver task)
      | e => throw e
  append task (stageEntry plan name payload)

def auditFailure (task : Nat) (plan : StorageOperationPlan) (e : Error) : Task Unit :=
  Proc.handle (append task (failedEntry plan e)) fun
    | .audit => emergency task plan "storage.transaction.failed"
    | e => throw e

def auditCompleted (task : Nat) (plan : StorageOperationPlan) (outcome : StorageOperationOutcome) :
    Task Unit := do
  let lost ← reading fun s => s.observerLost task
  Proc.handle (append task (completedEntry plan outcome lost)) fun
    | .audit => do
      emergency task plan "storage.transaction.completed"
      throw (.tool "STORAGE_RECONCILIATION_REQUIRED")
    | e => throw e

def execute (cfg : Config) (task : Nat) (plan : StorageOperationPlan)
    (g : StorageAuthorizationGrant) : Task Response := do
  lock
  let s ← Proc.state
  Proc.modify (State.pop task g.id)
  require (grantMatches plan g (s.grants g.id) s.now) (.tool "STORAGE_AUTHORIZATION_INVALID")
  Proc.modify (State.note (.accepted task plan g s.now))
  validatePreflightPlan cfg plan true
  append task (transactionIntent plan g)
  Proc.modify (State.note (.invoked task plan))
  let outcome ← Proc.handle (toolsExecute cfg task plan (stage task plan)) fun e => do
    auditFailure task plan e
    throw e
  auditCompleted task plan outcome
  pure (.outcome outcome)

def verify (cfg : Config) (task : Nat) (plan : StorageOperationPlan) : Task Response := do
  validatePostwritePlan cfg plan
  let layout ← verifyTable cfg plan
  append task (entryOf plan "storage.verification.completed"
    [("target_fingerprint", .str plan.targetDisk.fingerprintSha256),
      ("expected_layout", .str plan.proposedLayout.partitionTable.fingerprintSha256),
      ("actual_layout", .str layout.partitionTable.fingerprintSha256), ("verified", .bool true)])
  pure (.layout layout)

def dispatch (cfg : Config) (task : Nat) (request : Request) (peerUid : Int) : Task Response := do
  Proc.modify (State.note (.received task request peerUid))
  require (cfg.allowedClientUids.contains peerUid) .permission
  match request with
  | .inspect target =>
    let target ← ofOption (.tool "STORAGE_TARGET_INVALID") target
    let layout ← inspect cfg target
    pure (.layout layout)
  | .dryRun plan =>
    let plan ← ofOption .value plan
    validatePreflightPlan cfg plan false
    let result ← dryRun cfg task plan
    pure (.dryRun result)
  | .checkpoint plan =>
    let plan ← ofOption .value plan
    checkpoint cfg task plan
  | .authorize plan =>
    let plan ← ofOption .value plan
    authorize cfg task plan
  | .execute plan grant =>
    let plan ← ofOption .value plan
    let grant ← ofOption .value grant
    execute cfg task plan grant
  | .verify plan =>
    let plan ← ofOption .value plan
    verify cfg task plan
  | .rejected => throw (.tool "STORAGE_BROKER_ACTION_REJECTED")

/-- The broker with any clients.  The environment answers every call as it likes, and the clock and
the devices may change at any time. -/
def system (cfg : Config) :
    System State Res Error Response (Request × Int) (DateTime × Devices) where
  handler task t := dispatch cfg task t.1 t.2
  admits _ _ := True
  answers _ _ _ := True
  moves _ _ := True
  world w s := { s with now := w.1, devices := w.2 }

/-- A broker that has just been made. -/
def State.start (now : DateTime) (devices : Devices) : State where
  now
  devices
  drawn := 0
  grants _ := none
  observerLost _ := false
  history := []

end Ares.Broker
