import Ares.Coop.Pool
import Ares.Storage.Devices
import Ares.Storage.Policy

/-! The state that the storage operation engine and its service share: the documents of the store,
the grants that the engine holds and the background tasks of the service.  Three fields record what
the code does not: what each task has seen of its transaction, how far the broker is with a write
and which changes of status were stored. -/

namespace Ares.Operations

open Coop Data Storage

/-- The desired state that a plan is made for. -/
structure DeclarativeStorageOperationRequest where
  operation : StorageCapability
  targetDisk : String
  partitionNumber : Option Nat
  sizeBytes : Option Nat
  newSizeBytes : Option Nat
  newStartSector : Option Nat
  tableType : Option PartitionTableType
  partitionType : Option String
  partitionName : Option String
  freeRegionIndex : Nat

structure Config where
  lib : Library
  gate : ProductionStorageWriteGate
  /-- `str.isalnum`. -/
  isalnum : Char → Bool
  /-- `uuid4().hex`, the identifiers that a task draws. -/
  uuid4 : Nat → Nat → String
  /-- The proposed layout of a request and its target partition, or the engine's error code; the
  task draws the identifiers. -/
  propose : DeclarativeStorageOperationRequest → StorageLayout → Nat → DateTime →
    Except String (StorageLayout × Option PartitionResource)

inductive Error
  /-- `StorageOperationEngineError`. -/
  | engine (code : String)
  /-- `StorageOperationServiceError`. -/
  | service (code : String)
  /-- `StorageExecutorError`. -/
  | executor (code : String)
  /-- `ActionError`. -/
  | action (code : String)
  | cancelled
  | timeout
  | stopped
  /-- `_StepFailed`. -/
  | stepFailed (code : String)
  | exception
  | detached
deriving DecidableEq

inductive Document
  | plan (p : StorageOperationPlan)
  | transaction (t : StorageTransaction)
  | verification (v : StorageVerification)
  | artifact (a : PartitionTableCheckpointArtifact)
  | checkpoint (c : ProtectionCheckpoint)

/-- The places of the code that store a document. -/
inductive Writer
  | planned | validated | authorized | challenge | executing | stage | verifying | verified
  | reconciled | markUnknown | markFailed | markAborted
  /-- `mark_failed` in the catch-all of `_execute_task`. -/
  | escaped
deriving DecidableEq

inductive Message
  | stage (name : String) (payload : Fields)
  | other

/-- What a task waits for, with an exception as one of the answers. -/
inductive Call
  | await
  | publish (event : String)
  | read
  | inspect (target : String)
  | dryRun (plan : StorageOperationPlan)
  | createCheckpoint (plan : StorageOperationPlan)
  | connect
  | challenge
  | grant (plan : StorageOperationPlan)
  | message
  | outcome (plan : StorageOperationPlan)
  /-- The checks of `CapabilityManager.execute`. -/
  | capability
  /-- `control.checkpoint()`. -/
  | control
  | work

@[reducible] def Call.Answer : Call → Type
  | .await | .publish _ | .connect | .capability | .control | .work => Unit
  | .read => Bool
  | .inspect _ => StorageLayout
  | .dryRun _ => StorageDryRunResult
  | .createCheckpoint _ => StorageCheckpointBundle
  | .challenge => Option String
  | .grant _ => StorageAuthorizationGrant
  | .message => Message
  | .outcome _ => StorageOperationOutcome

/-- The timeout of a step, the cancellation of its workflow, or the end of the whole task. -/
inductive Stop
  | timeout | workflow | task
deriving DecidableEq

inductive Op
  | call (c : Call)
  /-- The thread that writes a document: whether the document is in place afterwards.  A
  transaction comes with the record that it was made from. -/
  | write (task : Nat) (writer : Writer) (document : Document)
      (base : Option StorageOperationRecord)
  | rounds
  | stop

@[reducible] def Res : Op → Type
  | .call c => Except Error c.Answer
  | .write _ _ _ _ => Bool
  | .rounds => Nat
  | .stop => Stop

structure StorageOperationExecutionInput where
  operationId : String
  planId : String
  sessionId : String
  protectedResourceId : String
  protectedResourceFingerprintSha256 : String
deriving DecidableEq

/-- The transaction of a task, with the status that the task saw first or stored last. -/
abbrev Seen := Option (String × StorageTransactionStatus)

/-- The calls of the service and of the engine, and the tasks that the service creates. -/
inductive Request
  | plan (request : DeclarativeStorageOperationRequest) (sessionId createdBy : String)
  | validate (operationId sessionId : String)
  | authorize (operationId sessionId : String)
  | execute (operationId sessionId : String)
  | reconcile (operationId sessionId : String)
  | requestAuthorization (operationId sessionId : String)
  | executeAuthorized (operationId sessionId : String)
  /-- A background task, under the call that created it, with what that call had seen. -/
  | authorizeTask (handle : Nat) (operationId sessionId : String) (seen : Seen)
  | executeTask (handle : Nat) (input : StorageOperationExecutionInput) (seen : Seen)
  /-- The background task `task` is cancelled while it waits for its action. -/
  | interrupt (task handle : Nat) (operationId : String)

def Request.handle : Request → Option Nat
  | .authorizeTask handle _ _ _ | .executeTask handle _ _ => some handle
  | _ => none

/-- How far the broker is with the write that a task asked for: nothing was sent, the request was
sent, the mutating command was started, a layout inspected after the write was compared with the
plan, or the broker ended without a write. -/
inductive WriteState
  | idle | working | writing | compared | refused
deriving DecidableEq

inductive Event
  | received (task : Nat) (request : Request)
  | stored (task : Nat) (writer : Writer) (operationId : String)
      (old : Option StorageTransactionStatus) (new : StorageTransactionStatus)

structure State where
  now : DateTime
  devices : Devices
  plans : String → Option StorageOperationPlan
  transactions : String → Option StorageTransaction
  verifications : String → Option StorageVerification
  artifacts : String → Option PartitionTableCheckpointArtifact
  checkpoints : String → Option ProtectionCheckpoint
  /-- `StorageOperationEngine._grants`. -/
  grants : String → Option StorageAuthorizationGrant
  authorizationTasks : String → Option Nat
  executionTasks : String → Option Nat
  /-- `task.done()`. -/
  done : Nat → Bool
  pending : List Request
  /-- The tasks that wait for the action that executes a transaction, with their call and
  operation. -/
  acting : Nat → Option (Nat × String)
  interrupted : Nat → Bool
  seen : Nat → Seen
  writes : Nat → WriteState
  history : List Event

abbrev Task := Proc State Res Error

namespace State

def status (s : State) (operationId : String) : Option StorageTransactionStatus :=
  (s.transactions operationId).map (·.status)

def receive (task : Nat) (request : Request) (s : State) : State :=
  { s with history := .received task request :: s.history }

def see (task : Nat) (t : StorageTransaction) (s : State) : State :=
  if (s.seen task).isSome then s
  else { s with seen := Function.update s.seen task (some (t.operationId, t.status)) }

def storeTransaction (task : Nat) (writer : Writer) (t : StorageTransaction) (s : State) : State :=
  { s with
    transactions := Function.update s.transactions t.operationId (some t)
    seen := Function.update s.seen task (some (t.operationId, t.status))
    history :=
      .stored task writer t.operationId (s.status t.operationId) t.status :: s.history }

/-- `os.replace(temporary, path)`. -/
def store (task : Nat) (writer : Writer) : Document → State → State
  | .plan p, s => { s with plans := Function.update s.plans p.id (some p) }
  | .transaction t, s => s.storeTransaction task writer t
  | .verification v, s =>
    { s with verifications := Function.update s.verifications v.operationId (some v) }
  | .artifact a, s => { s with artifacts := Function.update s.artifacts a.checkpointId (some a) }
  | .checkpoint c, s => { s with checkpoints := Function.update s.checkpoints c.id (some c) }

/-- `self._grants[operation_id] = grant`. -/
def setGrant (operationId : String) (g : Option StorageAuthorizationGrant) (s : State) : State :=
  { s with grants := Function.update s.grants operationId g }

def setAuthorizationTask (operationId : String) (handle : Option Nat) (s : State) : State :=
  { s with authorizationTasks := Function.update s.authorizationTasks operationId handle }

def setExecutionTask (operationId : String) (handle : Option Nat) (s : State) : State :=
  { s with executionTasks := Function.update s.executionTasks operationId handle }

/-- `asyncio.create_task`. -/
def create (request : Request) (s : State) : State := { s with pending := request :: s.pending }

def begin (task handle : Nat) (seen : Seen) (s : State) : State :=
  { s with
    pending := s.pending.filter (·.handle ≠ some handle)
    seen := Function.update s.seen task seen }

def finish (handle : Nat) (s : State) : State :=
  { s with done := Function.update s.done handle true }

def setActing (task : Nat) (acting : Option (Nat × String)) (s : State) : State :=
  { s with acting := Function.update s.acting task acting }

def interrupt (task : Nat) (s : State) : State :=
  { s with interrupted := Function.update s.interrupted task true }

def setWrite (task : Nat) (w : WriteState) (s : State) : State :=
  { s with writes := Function.update s.writes task w }

section StoreTransaction

variable (task : Nat) (writer : Writer) (t : StorageTransaction) (s : State)

@[simp] theorem storeTransaction_transactions : (s.storeTransaction task writer t).transactions =
      Function.update s.transactions t.operationId (some t) := rfl

@[simp] theorem storeTransaction_seen : (s.storeTransaction task writer t).seen =
      Function.update s.seen task (some (t.operationId, t.status)) := rfl

@[simp] theorem storeTransaction_history : (s.storeTransaction task writer t).history =
      .stored task writer t.operationId (s.status t.operationId) t.status :: s.history := rfl

@[simp] theorem storeTransaction_plans : (s.storeTransaction task writer t).plans = s.plans := rfl

@[simp] theorem storeTransaction_grants : (s.storeTransaction task writer t).grants = s.grants := rfl

@[simp] theorem storeTransaction_pending :
    (s.storeTransaction task writer t).pending = s.pending := rfl

theorem storeTransaction_status (op : String) :
    (s.storeTransaction task writer t).status op =
      if op = t.operationId then some t.status else s.status op := by
  unfold status
  by_cases h : op = t.operationId
  · simp [h]
  · simp [h, Function.update_of_ne]

end StoreTransaction

/-- A service that has just been made, on the documents of a store. -/
def start (now : DateTime) (devices : Devices) (plans : String → Option StorageOperationPlan)
    (transactions : String → Option StorageTransaction)
    (verifications : String → Option StorageVerification)
    (artifacts : String → Option PartitionTableCheckpointArtifact)
    (checkpoints : String → Option ProtectionCheckpoint) : State where
  now
  devices
  plans
  transactions
  verifications
  artifacts
  checkpoints
  grants _ := none
  authorizationTasks _ := none
  executionTasks _ := none
  done _ := false
  pending := []
  acting _ := none
  interrupted _ := false
  seen _ := none
  writes _ := .idle
  history := []

end State

/-! ### The store -/

/-- A call whose exception goes on. -/
def attempt (c : Call) : Task c.Answer := Proc.attempt (Op.call c) fun r => r

def isSafeId (cfg : Config) (value : String) : Bool :=
  8 ≤ value.length && value.length ≤ 128 &&
    value.toList.all fun c => cfg.isalnum c || c = '-' || c = '_'

/-- `_safe_id`. -/
def safeId (cfg : Config) (value : String) : String :=
  if isSafeId cfg value then value else "invalid"

/-- What the thread of `_write` leaves. -/
def write (task : Nat) (writer : Writer) (document : Document) (written : Bool) : Task Unit :=
  if written then Proc.modify (State.store task writer document) else pure ()

/-- `StorageOperationStore._put`: under the lock, in a thread. -/
def put (task : Nat) (writer : Writer) (document : Document)
    (base : Option StorageOperationRecord) : Task Unit := do
  attempt .await
  let written ← perform (Op.write task writer document base)
  write task writer document written
  attempt .await
  require written .exception

/-- `StorageOperationStore._get`: the document that a thread finds under a key. -/
def get {α : Type} (find : State → Option α) : Task (Option α) := do
  let readable ← attempt .read
  if readable then reading find else pure none

def getTransaction (cfg : Config) (task : Nat) (operationId : String) :
    Task (Option StorageTransaction) := do
  let transaction ← get fun s => s.transactions (safeId cfg operationId)
  match transaction with
  | none => pure none
  | some t =>
    Proc.modify (State.see task t)
    pure (some t)

def getPlan (cfg : Config) (planId : String) : Task (Option StorageOperationPlan) :=
  get fun s => s.plans (safeId cfg planId)

def getVerification (cfg : Config) (operationId : String) : Task (Option StorageVerification) :=
  get fun s => s.verifications (safeId cfg operationId)

def getCheckpoint (cfg : Config) (checkpointId : String) :
    Task (Option PartitionTableCheckpointArtifact) :=
  get fun s => s.artifacts (safeId cfg checkpointId)

/-- `ProtectionCheckpointStore.get`. -/
def getProtection (cfg : Config) (checkpointId : String) : Task (Option ProtectionCheckpoint) :=
  if isSafeId cfg checkpointId then get fun s => s.checkpoints checkpointId else pure none

/-- The rest of `get_record`, after the transaction was read. -/
def getRest (cfg : Config) (operationId : String) (transaction : StorageTransaction) :
    Task (Option StorageOperationRecord) := do
  let plan ← getPlan cfg transaction.planId
  match plan with
  | none => pure none
  | some plan =>
    let verification ← getVerification cfg operationId
    pure (some { plan, transaction, verification })

def getRecord (cfg : Config) (task : Nat) (operationId : String) :
    Task (Option StorageOperationRecord) := do
  let transaction ← getTransaction cfg task operationId
  match transaction with
  | none => pure none
  | some transaction => getRest cfg operationId transaction

/-- `put_transaction` of a copy of the transaction of `base`. -/
def putTransaction (task : Nat) (writer : Writer) (base : Option StorageOperationRecord)
    (t : StorageTransaction) : Task Unit :=
  put task writer (.transaction t) base

end Ares.Operations
