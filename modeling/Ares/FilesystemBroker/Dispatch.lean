import Ares.FilesystemBroker.Tools

/-! The filesystem broker: its three requests, the grants it keeps and the records it asks the ledger
to append. -/

namespace Ares.FilesystemBroker

open Coop Data Audit Filesystems

variable (plan : FilesystemRepairPlan) (cfg : Config)

inductive Response
  | inspection (i : FilesystemInspection)
  | grant (g : FilesystemAuthorizationGrant)
  | outcome (o : FilesystemRepairOutcome)

namespace State

def draw (task : Nat) (s : State) : State :=
  { s with drawn := s.drawn + 1 }.note (.drawn task s.drawn)

/-- `self._grants[grant.id] = grant`. -/
def grant (task : Nat) (g : FilesystemAuthorizationGrant) (s : State) : State :=
  { s with grants := Function.update s.grants g.id (some g) }.note (.granted task g)

/-- `self._grants.pop(id, None)`. -/
def pop (task : Nat) (id : String) (s : State) : State :=
  { s with grants := Function.update s.grants id none }.note (.popped task id (s.grants id))

end State

/-! ### The records -/

def entryOf (eventType : String) (payload : Fields) :
    AuditEntry where
  eventType := eventType
  source := "ares-tool-broker"
  correlationId := plan.repairId
  sessionId := plan.sessionId
  payload := payload

def auditPlan (checkpoint : ProtectionCheckpoint) : Fields :=
  [("plan_id", .str plan.id), ("plan_fingerprint", .str plan.fingerprintSha256),
    ("target", .str plan.target.canonicalPath),
    ("target_fingerprint", .str plan.target.fingerprintSha256),
    ("major_minor", .str plan.target.majorMinor),
    ("filesystem_uuid", .optStr plan.target.filesystemUuid),
    ("partuuid", .optStr plan.target.partuuid), ("filesystem", .str plan.filesystem.value),
    ("checkpoint_id", .str checkpoint.id)]

def authorizationIntent (checkpoint : ProtectionCheckpoint) :
    AuditEntry :=
  entryOf plan "repair.authorization.intent" (auditPlan plan checkpoint ++ [("risk", .str "high")])

def executionIntent (checkpoint : ProtectionCheckpoint)
    (g : FilesystemAuthorizationGrant) (tool : String) (args : List String) : AuditEntry :=
  entryOf plan "repair.execution.intent" (auditPlan plan checkpoint ++
    [("operator_uid", .optInt g.operatorUid), ("tool", .str tool), ("safe_arguments", .strs args)])

def sanitizeStage (payload : Fields) : Fields :=
  ["tool", "exit_code", "health", "success"].filterMap fun key =>
    match (payload.get? key).getD .null with
    | .str s => some (key, .str s)
    | .int i => some (key, .int i)
    | .bool b => some (key, .bool b)
    | .null => some (key, .null)
    | _ => none

def auditedStages : List String :=
  ["filesystem.unmounted", "filesystem.repair-command.started",
    "filesystem.repair-command.completed", "filesystem.verification.started",
    "filesystem.verification.completed", "filesystem.remounted"]

def stageEntry (name : String) (payload : Fields) : AuditEntry :=
  entryOf plan name (Fields.update
    [("target_fingerprint", .str plan.target.fingerprintSha256)] (sanitizeStage payload))

def completedEntry (outcome : FilesystemRepairOutcome) :
    AuditEntry :=
  entryOf plan "repair.execution.completed"
    [("target_fingerprint", .str plan.target.fingerprintSha256),
      ("filesystem", .str plan.filesystem.value), ("tool", .str outcome.repairTool),
      ("repair_exit_code", .int outcome.repairExitCode),
      ("after_health", .str outcome.after.health.value),
      ("remounted", match outcome.remounted with
        | some b => .bool b
        | none => .null)]

def safeCode : Error → String
  | .tool code => code
  | .audit => "AUDIT_LEDGER_UNAVAILABLE"
  | _ => "FILESYSTEM_BROKER_FAILED"

def failedEntry (e : Error) : AuditEntry :=
  entryOf plan "repair.execution.failed"
    [("target_fingerprint", .str plan.target.fingerprintSha256),
      ("filesystem", .str plan.filesystem.value), ("error_code", .str (safeCode e))]

/-- `audit.append`. -/
def append (task : Nat) (entry : AuditEntry) : Task Unit := do
  match ← perform (Op.append entry) with
  | .acked => Proc.modify (State.note (.audited task entry true))
  | .lost =>
    Proc.modify (State.note (.audited task entry false))
    throw .audit
  | .failed => throw .audit

/-- `asyncio.to_thread(self._emergency, record)`. -/
def emergency (task : Nat) (plan : FilesystemRepairPlan) (event : String) : Task Unit := do
  thread
  Proc.modify (State.note (.emergency task event plan.repairId))
  thread

/-- `uuid4().hex`. -/
def draw (task : Nat) : Task String := do
  let n ← reading State.drawn
  Proc.modify (State.draw task)
  pure (cfg.uuid4 n)

/-! ### The checks -/

/-- The checkpoint of a plan is ready, bound to its session and to its target. -/
def checkpointReady (c : ProtectionCheckpoint) : Bool :=
  c.status = .ready && c.sessionId = plan.sessionId &&
  c.protectedResources.contains plan.protectedResourceId &&
  c.resourceFingerprints.lookup plan.protectedResourceId = some plan.target.fingerprintSha256 &&
  c.verificationId.isSome

/-- The part of `_validate_plan` that needs no store. -/
def planValid (plan : FilesystemRepairPlan) (checkpoint : ProtectionCheckpoint)
    (now : DateTime) : Bool :=
  repairPlanIntegrityValid cfg.lib plan && plan.executable && checkpointReady plan checkpoint &&
    now < plan.expiresAt

/-- `_validate_plan`, with the checkpoint that it found. -/
def validatePlan (task : Nat) (plan : FilesystemRepairPlan) :
    Task ProtectionCheckpoint := do
  let invalid := Error.tool "FILESYSTEM_PROTECTION_CHECKPOINT_INVALID"
  let checkpoint ← ofOption invalid plan.protectionCheckpoint
  let now ← reading State.now
  require (planValid cfg plan checkpoint now) invalid
  Proc.modify (State.note (.validated task plan now))
  let durable ← attempt (.checkpoint checkpoint.id)
  require (durable = some checkpoint) invalid
  Proc.modify (State.note (.confirmed task checkpoint))
  pure checkpoint

def validateTarget (task : Nat) (plan : FilesystemRepairPlan) : Task Unit := do
  let _ ← revalidate cfg task plan.target
  let mount ← inspectMount task plan.target
  require (mount = plan.mount) (.tool "FILESYSTEM_MOUNT_STATE_CHANGED")

/-! ### The requests -/

/-- `tools.inspect`. -/
def toolsInspect (task : Nat) (device : String) : Task FilesystemInspection := do
  let identity ← identify cfg task device
  let filesystem ← detectFilesystem cfg.lib identity
  let mount ← inspectMount task identity
  let writable ← attempt (.access identity.canonicalPath)
  let id ← draw cfg task
  let now ← reading State.now
  match filesystem with
  | some filesystem => inspectFilesystem id now identity filesystem mount writable
  | none =>
    pure {
      id
      inspectedAt := now
      identity
      filesystem := none
      health := .unknown
      mount
      check := none
      requiredTools := []
      writable
      supported := false
      repairSupported := false
      limitations := ["filesystem_type_unsupported_or_unknown"] }

def inspect (task : Nat) (device : String) : Task Response := do
  let inspection ← toolsInspect cfg task device
  append task {
    eventType := "filesystem.inspection.completed"
    source := "ares-tool-broker"
    correlationId := inspection.id
    sessionId := inspection.id
    payload := [("target_fingerprint", .str inspection.identity.fingerprintSha256),
      ("filesystem", .optStr (inspection.filesystem.map (·.value))),
      ("health", .str inspection.health.value), ("mounted", .bool inspection.mount.mounted)] }
  pure (.inspection inspection)

def grantValid (g : FilesystemAuthorizationGrant) : Bool :=
  8 ≤ g.sessionId.length && g.sessionId.length ≤ 128

def grantFor (id challengeId : String) (operatorUid : Int)
    (now : DateTime) : FilesystemAuthorizationGrant where
  id := id
  challengeId := challengeId
  planId := plan.id
  repairId := plan.repairId
  sessionId := plan.sessionId
  targetFingerprintSha256 := plan.target.fingerprintSha256
  planFingerprintSha256 := plan.fingerprintSha256
  operatorUid := some operatorUid
  expiresAt := min plan.expiresAt (now + minutes 5)

def consent (task : Nat) (plan : FilesystemRepairPlan) :
    Task (String × Option String × Option Int) := do
  let failed := Error.tool "FILESYSTEM_AUTHORIZATION_FAILED"
  Proc.handle (do
    let challengeId ← ofOption failed (← attempt (.requestFilesystem plan))
    Proc.modify (State.note (.challenged task plan challengeId))
    attempt .send
    let (decision, operatorUid) ← attempt (.wait challengeId)
    Proc.modify (State.note (.answered task challengeId decision operatorUid))
    pure (challengeId, decision, operatorUid)) fun
    | .runtime => throw failed
    | e => throw e

def authorize (task : Nat) (plan : FilesystemRepairPlan) : Task Response := do
  let checkpoint ← validatePlan cfg task plan
  validateTarget cfg task plan
  append task (authorizationIntent plan checkpoint)
  let (challengeId, decision, operatorUid) ← consent task plan
  require (decision = some "approved") (.tool "FILESYSTEM_AUTHORIZATION_DENIED")
  let operatorUid ← ofOption (.tool "FILESYSTEM_AUTHORIZATION_INVALID") operatorUid
  require (0 ≤ operatorUid) (.tool "FILESYSTEM_AUTHORIZATION_INVALID")
  let _ ← validatePlan cfg task plan
  validateTarget cfg task plan
  let id ← draw cfg task
  let now ← reading State.now
  let g := grantFor plan id challengeId operatorUid now
  require (grantValid g) .value
  lock
  Proc.modify (State.grant task g)
  append task (entryOf plan "repair.authorization.granted"
    [("grant_id_hash", .str (takeChars 24 (cfg.lib.tokenSha256 g.id))),
      ("challenge_id", .str challengeId), ("operator_uid", .int operatorUid),
      ("plan_id", .str plan.id), ("plan_fingerprint", .str plan.fingerprintSha256),
      ("target_fingerprint", .str plan.target.fingerprintSha256), ("one_use", .bool true)])
  pure (.grant g)

/-- `_grant_matches`. -/
def grantMatches (g : FilesystemAuthorizationGrant)
    (stored : Option FilesystemAuthorizationGrant) (now : DateTime) : Bool :=
  stored = some g && now < g.expiresAt && g.planId = plan.id && g.repairId = plan.repairId &&
  g.sessionId = plan.sessionId && g.targetFingerprintSha256 = plan.target.fingerprintSha256 &&
  g.planFingerprintSha256 = plan.fingerprintSha256

/-- The callback `stage` of `_execute`. -/
def stage (task : Nat) (plan : FilesystemRepairPlan) (name : String) (payload : Fields) :
    Task Unit := do
  attempt .send
  if auditedStages.contains name then append task (stageEntry plan name payload) else pure ()

def auditFailure (task : Nat) (plan : FilesystemRepairPlan) (e : Error) : Task Unit :=
  Proc.handle (append task (failedEntry plan e)) fun
    | .audit => emergency task plan "repair.execution.failed"
    | e => throw e

def auditCompleted (task : Nat) (plan : FilesystemRepairPlan) (outcome : FilesystemRepairOutcome) :
    Task Unit :=
  Proc.handle (append task (completedEntry plan outcome)) fun
    | .audit => do
      emergency task plan "repair.execution.completed"
      throw (.tool "FILESYSTEM_RECONCILIATION_REQUIRED")
    | e => throw e

def execute (task : Nat) (plan : FilesystemRepairPlan)
    (g : FilesystemAuthorizationGrant) : Task Response := do
  lock
  let s ← Proc.state
  Proc.modify (State.pop task g.id)
  require (grantMatches plan g (s.grants g.id) s.now) (.tool "FILESYSTEM_AUTHORIZATION_INVALID")
  Proc.modify (State.note (.accepted task plan g s.now))
  let checkpoint ← validatePlan cfg task plan
  validateTarget cfg task plan
  let (tool, args) ← ofOption .permission ((adapterFor plan.filesystem).repairInvocation
    plan.target.canonicalPath (!plan.target.blockDevice))
  append task (executionIntent plan checkpoint g tool args)
  let now ← reading State.now
  Proc.modify (State.note (.invoked task plan now))
  let outcome ← Proc.handle (executeRepair cfg task plan (stage task plan)) fun e => do
    auditFailure task plan e
    throw e
  auditCompleted task plan outcome
  pure (.outcome outcome)

def dispatch (task : Nat) (request : Request) (peerUid : Int) : Task Response := do
  Proc.modify (State.note (.received task request peerUid))
  require (cfg.allowedClientUids.contains peerUid) .permission
  match request with
  | .inspect device =>
    let device ← ofOption (.tool "FILESYSTEM_TARGET_INVALID") device
    inspect cfg task device
  | .authorize plan =>
    let plan ← ofOption .value plan
    authorize cfg task plan
  | .execute plan grant =>
    let plan ← ofOption .value plan
    let grant ← ofOption .value grant
    execute cfg task plan grant
  | .rejected => throw (.tool "FILESYSTEM_BROKER_ACTION_REJECTED")

/-- The broker with any clients.  The environment answers every call as it likes, and the clock may
change at any time. -/
def system : System State Res Error Response (Request × Int) DateTime where
  handler task t := dispatch cfg task t.1 t.2
  admits _ _ := True
  answers _ _ _ := True
  moves _ _ := True
  world now s := { s with now }

/-- A broker that has just been made. -/
def State.start (now : DateTime) : State where
  now
  drawn := 0
  grants _ := none
  history := []

end Ares.FilesystemBroker
