import Ares.Audit.Port
import Ares.Coop.Journal
import Ares.Storage.Models

/-! The consent authority: the challenges it holds and the seven requests it answers.  The mutable
fields of a challenge object stand in maps keyed by the object's number `ref`; every step that
matters to a decision is noted in a history. -/

namespace Ares.Consent

open Coop Data Audit Storage

/-- The fields of a `BackupPlan` that the authority reads. -/
structure BackupPlan where
  id : String
  backupId : String
  expiresAt : DateTime
  sourcePath : String
  sourceEstimatedSizeBytes : Nat
  destinationBackupPath : String
  destinationAvailableBytes : Nat
  requiredBytes : Nat
  includedFileCount : Nat
  exclusions : List (String × String)
  fingerprintSha256 : String

/-- The fields of a `FilesystemRepairPlan` that the authority reads. -/
structure FilesystemRepairPlan where
  id : String
  repairId : String
  capabilityId : String
  expiresAt : DateTime
  sessionId : String
  targetCanonicalPath : String
  targetFingerprintSha256 : String
  targetMajorMinor : Option String
  targetFilesystemUuid : Option String
  targetPartuuid : Option String
  filesystem : String
  mounted : Bool
  protectionCheckpoint : Option ProtectionCheckpoint
  repairActionIds : List String
  limitations : List String
  fingerprintSha256 : String

inductive Decision
  | pending | approved | denied | expired
deriving DecidableEq

def Decision.value : Decision → String
  | pending => "pending"
  | approved => "approved"
  | denied => "denied"
  | expired => "expired"

inductive ChallengeKind
  | backup | filesystemRepair | storageOperation
deriving DecidableEq

/-- The fields of a `_Challenge` that are set once, and the number of the object. -/
structure Challenge where
  ref : Nat
  id : String
  kind : ChallengeKind
  planId : String
  fingerprint : String
  sessionId : String
  correlationId : String
  capabilityId : String
  risk : String
  confirmationPhrase : String
  publicPayload : Fields
  expiresAt : DateTime

/-- What `_Challenge.public` shows. -/
structure PublicView where
  challengeId : String
  kind : ChallengeKind
  capabilityId : String
  planId : String
  planFingerprintSha256 : String
  risk : String
  expiresAt : DateTime
  decision : Decision
  operatorUid : Option Int
  confirmationPhrase : String
  publicPayload : Fields

/-- A request as `dispatch` reads it: `none` stands for a plan that `model_validate` refuses, and
for a field that is no string. -/
inductive Request
  | create (plan : Option BackupPlan) (sessionId : Option String)
  | filesystemCreate (plan : Option FilesystemRepairPlan)
  | storageCreate (plan : Option StorageOperationPlan)
  | wait (challengeId : Option String)
  | get (challengeId : Option String)
  | approve (challengeId confirmation : Option String)
  | deny (challengeId confirmation : Option String)
  | unsupported

inductive Error
  | permission (message : String)
  | value (message : String)
  | audit
deriving DecidableEq

/-- A step of the task `task`. -/
inductive Event
  | received (task : Nat) (request : Request) (peerUid : Int)
  | drawn (task number : Nat)
  | stored (task : Nat) (challenge : Challenge)
  | requested (task : Nat) (entry : AuditEntry)
  | checked (task ref : Nat) (decision : Decision) (time : DateTime)
  | recorded (task ref : Nat) (decision : Decision) (entry : AuditEntry) (acked : Bool)
  | unaudited (task ref : Nat)
  | decided (task ref : Nat) (decision : Decision) (operatorUid : Int)
  | expired (task ref : Nat)
  | returned (task ref : Nat) (decision : Decision)

def Event.task : Event → Nat
  | received t _ _ | drawn t _ | stored t _ | requested t _ | checked t _ _ _ | recorded t _ _ _ _
  | unaudited t _ | decided t _ _ _ | expired t _ | returned t _ _ => t

instance : Tasked Event := ⟨Event.task⟩

@[simp] theorem task_eq (e : Event) : Tasked.task e = e.task := rfl

structure State where
  now : DateTime
  /-- How many values `uuid4` has given. -/
  drawn : Nat
  challenges : String → Option Challenge
  decision : Nat → Decision
  operatorUid : Nat → Option Int
  event : Nat → Bool
  history : List Event

structure Config where
  brokerUid : Int
  operatorUid : Int
  uuid4 : Nat → String

inductive Op
  | lock
  | append (entry : AuditEntry)
  | wait (ref : Nat)

inductive WaitOutcome
  | set | timeout
deriving DecidableEq

@[reducible] def Res : Op → Type
  | .lock => Unit
  | .append _ => AppendOutcome
  | .wait _ => WaitOutcome

abbrev Task := Proc State Res Error

/-- `async with self._lock`. -/
def lock : Task Unit := perform Op.lock

def awaitAppend (entry : AuditEntry) : Task AppendOutcome := perform (Op.append entry)

/-- `asyncio.wait_for(challenge.event.wait(), timeout=remaining)`. -/
def awaitEvent (ref : Nat) : Task WaitOutcome := perform (Op.wait ref)

namespace State

def note (e : Event) (s : State) : State := { s with history := e :: s.history }

def draw (task : Nat) (s : State) : State :=
  { s with drawn := s.drawn + 1 }.note (.drawn task s.drawn)

/-- `self._challenges[challenge.id] = challenge`. -/
def store (task : Nat) (c : Challenge) (s : State) : State :=
  { s with challenges := Function.update s.challenges c.id (some c) }.note (.stored task c)

def expire (task ref : Nat) (s : State) : State :=
  { s with decision := Function.update s.decision ref .expired }.note (.expired task ref)

def decide (task ref : Nat) (d : Decision) (peerUid : Int) (s : State) : State :=
  { s with
    decision := Function.update s.decision ref d
    operatorUid := Function.update s.operatorUid ref (some peerUid)
    event := Function.update s.event ref true }.note (.decided task ref d peerUid)

@[simp] theorem note_history (e : Event) (s : State) : (s.note e).history = e :: s.history := rfl

@[simp] theorem draw_history (t : Nat) (s : State) :
    (s.draw t).history = .drawn t s.drawn :: s.history := rfl

@[simp] theorem store_history (t : Nat) (c : Challenge) (s : State) :
    (s.store t c).history = .stored t c :: s.history := rfl

@[simp] theorem expire_history (t ref : Nat) (s : State) :
    (s.expire t ref).history = .expired t ref :: s.history := rfl

@[simp] theorem decide_history (t ref : Nat) (d : Decision) (uid : Int) (s : State) :
    (s.decide t ref d uid).history = .decided t ref d uid :: s.history := rfl

/-- `challenge.public()`. -/
def publicView (s : State) (c : Challenge) : PublicView where
  challengeId := c.id
  kind := c.kind
  capabilityId := c.capabilityId
  planId := c.planId
  planFingerprintSha256 := c.fingerprint
  risk := c.risk
  expiresAt := c.expiresAt
  decision := s.decision c.ref
  operatorUid := s.operatorUid c.ref
  confirmationPhrase := c.confirmationPhrase
  publicPayload := c.publicPayload

end State

def eventPrefix : ChallengeKind → String
  | .backup => "backup"
  | .storageOperation => "storage"
  | .filesystemRepair => "repair"

/-- `audit.append`, with what the history notes of a written record. -/
def append (entry : AuditEntry) (note : Bool → Event) : Task Unit := do
  match ← awaitAppend entry with
  | .acked => Proc.modify (State.note (note true))
  | .lost =>
    Proc.modify (State.note (note false))
    throw .audit
  | .failed => throw .audit

def storeAndAuditRequested (task : Nat) (c : Challenge) (details : Fields) : Task Unit := do
  lock
  Proc.modify (State.store task c)
  let entry : AuditEntry := {
    eventType := eventPrefix c.kind ++ ".authorization.requested"
    source := "ares-consent-agent"
    correlationId := c.correlationId
    sessionId := c.sessionId
    payload := [("challenge_id", .str c.id), ("capability_id", .str c.capabilityId),
      ("plan_id", .str c.planId), ("plan_fingerprint", .str c.fingerprint),
      ("risk", .str c.risk)] ++ details }
  append entry fun _ => .requested task entry

/-- `uuid4().hex`: the number of the value and its text. -/
def draw (cfg : Config) (task : Nat) : Task (Nat × String) := do
  let n ← reading State.drawn
  Proc.modify (State.draw task)
  pure (n, cfg.uuid4 n)

def createBackup (cfg : Config) (task : Nat) (plan : Option BackupPlan)
    (sessionId : Option String) : Task PublicView := do
  let plan ← ofOption (.value "invalid plan") plan
  let sessionId ← ofOption (.value "invalid session") sessionId
  require (8 ≤ sessionId.length) (.value "invalid session")
  let (ref, id) ← draw cfg task
  let now ← reading State.now
  let c : Challenge := {
    ref, id
    kind := .backup
    planId := plan.id
    fingerprint := plan.fingerprintSha256
    sessionId
    correlationId := plan.backupId
    capabilityId := "backup.create"
    risk := "medium"
    confirmationPhrase := "APPROVE " ++ takeChars 12 plan.fingerprintSha256
    publicPayload := [("source", .str plan.sourcePath),
      ("destination", .str plan.destinationBackupPath),
      ("estimated_bytes", .nat plan.sourceEstimatedSizeBytes),
      ("required_bytes", .nat plan.requiredBytes),
      ("available_bytes", .nat plan.destinationAvailableBytes),
      ("file_count", .nat plan.includedFileCount),
      ("exclusions", .arr (plan.exclusions.map fun (path, reason) =>
        .obj [("relative_path", .str path), ("reason", .str reason)])),
      ("excluded_count", .nat plan.exclusions.length),
      ("overwrite", .bool false), ("verification", .str "sha256")]
    expiresAt := min plan.expiresAt (now + minutes 10) }
  storeAndAuditRequested task c [("estimated_bytes", .nat plan.sourceEstimatedSizeBytes),
    ("required_bytes", .nat plan.requiredBytes),
    ("available_bytes", .nat plan.destinationAvailableBytes),
    ("file_count", .nat plan.includedFileCount),
    ("excluded_count", .nat plan.exclusions.length)]
  reading fun s => s.publicView c

def filesystemConfirmation : String := "I understand that this operation modifies the filesystem."

def createFilesystem (cfg : Config) (task : Nat) (plan : Option FilesystemRepairPlan) :
    Task PublicView := do
  let plan ← ofOption (.value "invalid plan") plan
  let (ref, id) ← draw cfg task
  let now ← reading State.now
  let checkpointId := Json.optStr (plan.protectionCheckpoint.map (·.id))
  let c : Challenge := {
    ref, id
    kind := .filesystemRepair
    planId := plan.id
    fingerprint := plan.fingerprintSha256
    sessionId := plan.sessionId
    correlationId := plan.repairId
    capabilityId := plan.capabilityId
    risk := "high"
    confirmationPhrase :=
      filesystemConfirmation ++ " APPROVE " ++ takeChars 12 plan.fingerprintSha256
    publicPayload := [("repair_id", .str plan.repairId), ("target", .str plan.targetCanonicalPath),
      ("target_fingerprint", .str plan.targetFingerprintSha256),
      ("major_minor", .optStr plan.targetMajorMinor),
      ("filesystem_uuid", .optStr plan.targetFilesystemUuid),
      ("partuuid", .optStr plan.targetPartuuid), ("filesystem", .str plan.filesystem),
      ("mounted", .bool plan.mounted), ("checkpoint_id", checkpointId),
      ("repair_actions", .strs plan.repairActionIds), ("limitations", .strs plan.limitations)]
    expiresAt := min plan.expiresAt (now + minutes 10) }
  storeAndAuditRequested task c [("repair_id", .str plan.repairId),
    ("target_fingerprint", .str plan.targetFingerprintSha256),
    ("major_minor", .optStr plan.targetMajorMinor), ("filesystem", .str plan.filesystem),
    ("checkpoint_id", checkpointId)]
  reading fun s => s.publicView c

def createStorage (cfg : Config) (task : Nat) (plan : Option StorageOperationPlan) :
    Task PublicView := do
  let plan ← ofOption (.value "invalid plan") plan
  let (ref, id) ← draw cfg task
  let now ← reading State.now
  let checkpointId := Json.optStr (plan.protectionCheckpoint.map (·.id))
  let original := plan.originalLayout.partitionTable.fingerprintSha256
  let proposed := plan.proposedLayout.partitionTable.fingerprintSha256
  let c : Challenge := {
    ref, id
    kind := .storageOperation
    planId := plan.id
    fingerprint := plan.fingerprintSha256
    sessionId := plan.sessionId
    correlationId := plan.operationId
    capabilityId := plan.capability.value
    risk := plan.risk.value
    confirmationPhrase := "I understand that this operation modifies the partition table. " ++
      "APPROVE " ++ takeChars 12 plan.fingerprintSha256
    publicPayload := [("operation_id", .str plan.operationId),
      ("operation", .str plan.operation.value), ("target", .str plan.targetDisk.canonicalPath),
      ("target_fingerprint", .str plan.targetDisk.fingerprintSha256),
      ("device_kind", .str plan.targetDisk.deviceKind.value),
      ("original_layout", .str original), ("proposed_layout", .str proposed),
      ("data_impact", .str plan.dataImpact.level.value),
      ("boot_impact", .str plan.bootImpact.level.value),
      ("data_loss_possible", .bool plan.dataLossPossible),
      ("affected_resources", .strs plan.affectedResources), ("checkpoint_id", checkpointId),
      ("dry_run_script_sha256", .optStr (plan.dryRun.map (·.scriptSha256))),
      ("physical_disk_writes_enabled", .bool false)]
    expiresAt := min plan.expiresAt (now + minutes 10) }
  storeAndAuditRequested task c [("operation_id", .str plan.operationId),
    ("operation", .str plan.operation.value),
    ("target_fingerprint", .str plan.targetDisk.fingerprintSha256),
    ("original_layout", .str original), ("proposed_layout", .str proposed),
    ("data_impact", .str plan.dataImpact.level.value),
    ("boot_impact", .str plan.bootImpact.level.value), ("checkpoint_id", checkpointId)]
  reading fun s => s.publicView c

def lookup (challengeId : Option String) : Task Challenge := do
  let id ← ofOption (.value "invalid challenge") challengeId
  lock
  let found ← reading fun s => s.challenges id
  ofOption (.value "challenge not found") found

def wait (task : Nat) (challengeId : Option String) : Task PublicView := do
  let c ← lookup challengeId
  let now ← reading State.now
  if c.expiresAt ≤ now then
    Proc.modify (State.expire task c.ref)
    throw (.value "authorization expired")
  else
    match ← awaitEvent c.ref with
    | .timeout =>
      Proc.modify (State.expire task c.ref)
      throw (.value "authorization expired")
    | .set =>
      Proc.modify fun s => s.note (.returned task c.ref (s.decision c.ref))
      reading fun s => s.publicView c

def get (challengeId : Option String) : Task PublicView := do
  let c ← lookup challengeId
  reading fun s => s.publicView c

def decisionEntry (c : Challenge) (d : Decision) (peerUid : Int) : AuditEntry where
  eventType := eventPrefix c.kind ++
    (if d = .approved then ".authorization.approved" else ".authorization.denied")
  source := "ares-consent-agent"
  correlationId := c.correlationId
  sessionId := c.sessionId
  payload := [("challenge_id", .str c.id), ("capability_id", .str c.capabilityId),
    ("plan_id", .str c.planId), ("plan_fingerprint", .str c.fingerprint),
    ("operator_uid", .int peerUid), ("decision", .str d.value)]

def decide (task : Nat) (challengeId confirmation : Option String) (d : Decision) (peerUid : Int) :
    Task PublicView := do
  let c ← lookup challengeId
  let s ← Proc.state
  require (s.decision c.ref = .pending && s.now < c.expiresAt)
    (.value "challenge is not pending")
  require (d ≠ .approved || confirmation = some c.confirmationPhrase)
    (.value "exact confirmation phrase required")
  Proc.modify (State.note (.checked task c.ref d s.now))
  let entry := decisionEntry c d peerUid
  Proc.handle (append entry (.recorded task c.ref d entry)) fun _ => do
    Proc.modify (State.note (.unaudited task c.ref))
    throw (.value "audit unavailable")
  Proc.modify (State.decide task c.ref d peerUid)
  reading fun s => s.publicView c

def requirePeer (actual expected : Int) : Task Unit :=
  require (actual = expected) (.permission "consent peer is not authorized")

def dispatch (cfg : Config) (task : Nat) (request : Request) (peerUid : Int) :
    Task PublicView := do
  Proc.modify (State.note (.received task request peerUid))
  match request with
  | .create plan sessionId =>
    requirePeer peerUid cfg.brokerUid
    createBackup cfg task plan sessionId
  | .filesystemCreate plan =>
    requirePeer peerUid cfg.brokerUid
    createFilesystem cfg task plan
  | .storageCreate plan =>
    requirePeer peerUid cfg.brokerUid
    createStorage cfg task plan
  | .wait challengeId =>
    requirePeer peerUid cfg.brokerUid
    wait task challengeId
  | .get challengeId =>
    requirePeer peerUid cfg.operatorUid
    get challengeId
  | .approve challengeId confirmation =>
    requirePeer peerUid cfg.operatorUid
    decide task challengeId confirmation .approved peerUid
  | .deny challengeId confirmation =>
    requirePeer peerUid cfg.operatorUid
    decide task challengeId confirmation .denied peerUid
  | .unsupported => throw (.value "unsupported consent action")

/-- The authority with any peers.  A waiting task goes on when the event is set, or at its timeout,
which the event loop may deliver even after the event was set; the clock may move at any time. -/
def system (cfg : Config) : System State Res Error PublicView (Request × Int) DateTime where
  handler task t := dispatch cfg task t.1 t.2
  admits _ _ := True
  answers
    | _, .lock, _ => True
    | _, .append _, _ => True
    | s, .wait ref, r => r = .set → s.event ref = true
  moves _ _ := True
  world now s := { s with now }

/-- An authority that has just been made. -/
def State.start (now : DateTime) : State where
  now
  drawn := 0
  challenges _ := none
  decision _ := .pending
  operatorUid _ := none
  event _ := false
  history := []

end Ares.Consent
