import Ares.Backups.Create
import Ares.Coop.Journal

/-! The backup broker: its three requests, the grants it keeps and the records it asks the ledger to
append. -/

namespace Ares.BackupBroker

open Coop Data Audit Backups

/-- A request as `dispatch` reads it: `none` stands for a document that `model_validate` refuses,
and for a session that is no string. -/
inductive Request
  | authorize (plan : Option BackupPlan) (sessionId : Option String)
  | create (plan : Option BackupPlan) (grant : Option AuthorizationGrant)
  | verify (backup : Option Backup) (manifest : Option BackupManifest)
  | rejected

inductive Response
  | grant (g : AuthorizationGrant)
  | manifest (m : BackupManifest)
  | verification (v : BackupVerification)

/-- A step of the task `task`. -/
inductive Event
  | received (task : Nat) (request : Request) (peerUid : Int)
  | drawn (task number : Nat)
  /-- The ledger holds the record; `acked` says that the broker knows. -/
  | audited (task : Nat) (entry : AuditEntry) (acked : Bool)
  | interrupted (task : Nat) (entry : AuditEntry) (written : Bool)
  /-- `revalidate_plan` has accepted the plan, with the clock at `time`. -/
  | revalidated (task : Nat) (plan : BackupPlan) (time : DateTime)
  | challenged (task : Nat) (plan : BackupPlan) (sessionId challengeId : String)
  | answered (task : Nat) (challengeId : String) (decision : Option String)
  | granted (task : Nat) (grant : AuthorizationGrant)
  | popped (task : Nat) (grantId : String) (stored : Option AuthorizationGrant)
  | accepted (task : Nat) (plan : BackupPlan) (grant : AuthorizationGrant) (time : DateTime)
  /-- `tools.create_backup(plan)` is called. -/
  | invoked (task : Nat) (plan : BackupPlan)
  /-- Its own revalidation, with the clock at `time`, has accepted the plan, and it starts to copy. -/
  | started (task : Nat) (plan : BackupPlan) (time : DateTime)
  | emergency (task : Nat) (event backupId : String)

def Event.task : Event → Nat
  | received t _ _ | drawn t _ | audited t _ _ | interrupted t _ _ | revalidated t _ _
  | challenged t _ _ _ | answered t _ _ | granted t _ | popped t _ _ | accepted t _ _ _
  | invoked t _ | started t _ _ | emergency t _ _ => t

instance : Tasked Event := ⟨Event.task⟩

@[simp] theorem task_eq (e : Event) : Tasked.task e = e.task := rfl

structure State where
  now : DateTime
  /-- How many values `uuid4` has given. -/
  drawn : Nat
  grants : String → Option AuthorizationGrant
  history : List Event

structure Config where
  allowedClientUids : List Int
  lib : Library
  uuid4 : Nat → String

abbrev Task := Proc State Res Error

namespace State

def note (e : Event) (s : State) : State := { s with history := e :: s.history }

def draw (task : Nat) (s : State) : State :=
  { s with drawn := s.drawn + 1 }.note (.drawn task s.drawn)

/-- `self._grants[grant.id] = grant`. -/
def grant (task : Nat) (g : AuthorizationGrant) (s : State) : State :=
  { s with grants := Function.update s.grants g.id (some g) }.note (.granted task g)

/-- `self._grants.pop(id, None)`. -/
def pop (task : Nat) (id : String) (s : State) : State :=
  { s with grants := Function.update s.grants id none }.note (.popped task id (s.grants id))

end State

/-! ### The records -/

def entryOf (plan : BackupPlan) (sessionId eventType : String) (payload : Fields) :
    AuditEntry where
  eventType := eventType
  source := "ares-tool-broker"
  correlationId := plan.backupId
  sessionId := sessionId
  payload := payload

def authorizationIntent (plan : BackupPlan) (sessionId : String) : AuditEntry :=
  entryOf plan sessionId "backup.authorization.intent"
    [("plan_id", .str plan.id), ("plan_fingerprint", .str plan.fingerprintSha256),
      ("source_device", .str plan.source.deviceId),
      ("destination_device", .str plan.destination.deviceId),
      ("estimated_bytes", .nat plan.source.estimatedSizeBytes),
      ("file_count", .nat plan.includedFileCount),
      ("excluded_count", .nat plan.exclusions.length), ("risk", .str "medium")]

def executionIntent (plan : BackupPlan) (sessionId : String) : AuditEntry :=
  entryOf plan sessionId "backup.execution.intent"
    [("plan_id", .str plan.id), ("plan_fingerprint", .str plan.fingerprintSha256),
      ("source_device", .str plan.source.deviceId),
      ("destination_device", .str plan.destination.deviceId),
      ("destination_kind", .str plan.destination.kind.value),
      ("required_bytes", .nat plan.requiredBytes), ("overwrite", .bool false)]

def safeCode : Error → String
  | .tool code => code
  | .audit => "AUDIT_LEDGER_UNAVAILABLE"
  | .cancelled => "BROKER_CANCELLED"
  | _ => "BROKER_FAILED"

def failedEntry (plan : BackupPlan) (sessionId : String) (e : Error) : AuditEntry :=
  entryOf plan sessionId "backup.execution.failed"
    [("plan_id", .str plan.id), ("error_code", .str (safeCode e))]

def completedEntry (plan : BackupPlan) (sessionId : String) (m : BackupManifest) : AuditEntry :=
  entryOf plan sessionId "backup.execution.completed"
    [("plan_id", .str plan.id), ("file_count", .nat m.fileCount),
      ("size_bytes", .nat m.totalSizeBytes), ("manifest_checksum", .str m.manifestChecksumSha256)]

def lock : Task Unit := do
  Proc.ofExcept (← perform Op.lock)

/-- `audit.append`. -/
def append (task : Nat) (entry : AuditEntry) : Task Unit := do
  match ← perform (Op.append entry) with
  | .acked => Proc.modify (State.note (.audited task entry true))
  | .lost =>
    Proc.modify (State.note (.audited task entry false))
    throw .audit
  | .failed => throw .audit
  | .cancelled written =>
    Proc.modify (State.note (.interrupted task entry written))
    throw .cancelled

/-- `asyncio.to_thread(self._emergency, record)`.  The thread goes on when the request that waits
for it is cancelled. -/
def emergency (task : Nat) (plan : BackupPlan) (event : String) : Task Unit := do
  Proc.modify (State.note (.emergency task event plan.backupId))
  Proc.ofExcept (← perform Op.thread)

/-- `uuid4().hex`. -/
def draw (cfg : Config) (task : Nat) : Task String := do
  let n ← reading State.drawn
  Proc.modify (State.draw task)
  pure (cfg.uuid4 n)

/-! ### The requests -/

def revalidate (cfg : Config) (task : Nat) (plan : BackupPlan) : Task Unit := do
  let time ← revalidatePlan cfg.lib plan
  Proc.modify (State.note (.revalidated task plan time))

def grantValid (g : AuthorizationGrant) : Bool := within 8 128 g.sessionId

def grantFor (plan : BackupPlan) (sessionId id challengeId : String) (now : DateTime) :
    AuthorizationGrant where
  id := id
  challengeId := challengeId
  planId := plan.id
  sessionId := sessionId
  planFingerprintSha256 := plan.fingerprintSha256
  expiresAt := now + minutes 5

def authorize (cfg : Config) (task : Nat) (plan : BackupPlan) (sessionId : String) :
    Task Response := do
  revalidate cfg task plan
  append task (authorizationIntent plan sessionId)
  let challenge ← attempt (.requestConsent plan sessionId)
  let challengeId ← ofOption (.tool "BACKUP_AUTHORIZATION_FAILED") challenge
  Proc.modify (State.note (.challenged task plan sessionId challengeId))
  attempt .send
  let decision ← attempt (.waitConsent challengeId)
  Proc.modify (State.note (.answered task challengeId decision))
  require (decision = some "approved") (.tool "BACKUP_AUTHORIZATION_DENIED")
  revalidate cfg task plan
  let id ← draw cfg task
  let now ← reading State.now
  let g := grantFor plan sessionId id challengeId now
  require (grantValid g) .value
  lock
  Proc.modify (State.grant task g)
  append task (entryOf plan sessionId "backup.authorization.granted"
    [("grant_id_hash", .str (cfg.lib.token g.id)), ("challenge_id", .str challengeId),
      ("plan_id", .str plan.id), ("plan_fingerprint", .str plan.fingerprintSha256),
      ("one_use", .bool true)])
  pure (.grant g)

/-- The stored grant is the one presented, it is unexpired, and it is for the plan. -/
def grantMatches (plan : BackupPlan) (g : AuthorizationGrant) (stored : Option AuthorizationGrant)
    (now : DateTime) : Bool :=
  stored = some g && now < g.expiresAt && g.planId = plan.id &&
  g.planFingerprintSha256 = plan.fingerprintSha256

/-- `tools.create_backup`, with its start noted. -/
def toolsCreateBackup (cfg : Config) (task : Nat) (plan : BackupPlan) : Task BackupManifest := do
  let time ← revalidatePlan cfg.lib plan
  Proc.modify (State.note (.started task plan time))
  copyBackup cfg.lib plan

def auditFailure (task : Nat) (plan : BackupPlan) (sessionId : String) (e : Error) : Task Unit :=
  Proc.handle (append task (failedEntry plan sessionId e)) fun
    | .audit => emergency task plan "backup.execution.failed"
    | e => throw e

def auditCompleted (task : Nat) (plan : BackupPlan) (sessionId : String) (m : BackupManifest) :
    Task Unit :=
  Proc.handle (append task (completedEntry plan sessionId m)) fun
    | .audit => do
      emergency task plan "backup.execution.completed"
      throw (.tool "BACKUP_RECONCILIATION_REQUIRED")
    | e => throw e

def create (cfg : Config) (task : Nat) (plan : BackupPlan) (g : AuthorizationGrant) :
    Task Response := do
  lock
  let s ← Proc.state
  Proc.modify (State.pop task g.id)
  require (grantMatches plan g (s.grants g.id) s.now) (.tool "BACKUP_AUTHORIZATION_INVALID")
  Proc.modify (State.note (.accepted task plan g s.now))
  revalidate cfg task plan
  append task (executionIntent plan g.sessionId)
  Proc.modify (State.note (.invoked task plan))
  let manifest ← Proc.handle (toolsCreateBackup cfg task plan) fun e => do
    auditFailure task plan g.sessionId e
    throw e
  auditCompleted task plan g.sessionId manifest
  pure (.manifest manifest)

def verify (cfg : Config) (task : Nat) (backup : Backup) (manifest : BackupManifest) :
    Task Response := do
  let verification ← verifyBackup cfg.lib backup manifest
  append task {
    eventType := "backup.verification.completed"
    source := "ares-tool-broker"
    correlationId := backup.id
    sessionId := backup.sessionId
    payload := [("backup_id", .str backup.id), ("status", .str verification.status.value),
      ("verified_file_count", .nat verification.verifiedFileCount),
      ("verified_size_bytes", .nat verification.verifiedSizeBytes),
      ("mismatch_count", .nat verification.checksumMismatches.length),
      ("missing_count", .nat verification.missingEntries.length)] }
  pure (.verification verification)

def dispatch (cfg : Config) (task : Nat) (request : Request) (peerUid : Int) : Task Response := do
  Proc.modify (State.note (.received task request peerUid))
  require (cfg.allowedClientUids.contains peerUid) .permission
  match request with
  | .authorize plan sessionId =>
    let plan ← ofOption .value plan
    let sessionId ← ofOption (.tool "BACKUP_SESSION_INVALID") sessionId
    require (8 ≤ sessionId.length) (.tool "BACKUP_SESSION_INVALID")
    authorize cfg task plan sessionId
  | .create plan grant =>
    let plan ← ofOption .value plan
    let grant ← ofOption .value grant
    create cfg task plan grant
  | .verify backup manifest =>
    let backup ← ofOption .value backup
    let manifest ← ofOption .value manifest
    verify cfg task backup manifest
  | .rejected => throw (.tool "BACKUP_BROKER_ACTION_REJECTED")

/-- The clock of the broker answers with the time; everything else is free. -/
def answers (s : State) : (o : Op) → Res o → Prop
  | .call .now, r => r = .ok s.now
  | _, _ => True

/-- The broker with any clients.  The environment answers every call as it likes, and the clock may
change at any time. -/
def system (cfg : Config) : System State Res Error Response (Request × Int) DateTime where
  handler task t := dispatch cfg task t.1 t.2
  admits _ _ := True
  answers := answers
  moves _ _ := True
  world now s := { s with now }

/-- A broker that has just been made. -/
def State.start (now : DateTime) : State where
  now
  drawn := 0
  grants _ := none
  history := []

end Ares.BackupBroker
