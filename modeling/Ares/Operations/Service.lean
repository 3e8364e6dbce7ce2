import Ares.Operations.Execution

/-! The storage operation service: its calls, the background tasks that they create, and the
workflow in which a background task runs the execution. -/

namespace Ares.Operations

open Coop Data Storage

variable (cfg : Config)

structure Accepted where
  operationId : String
  status : StorageTransactionStatus
  authorizationChallengeId : Option String
deriving DecidableEq

inductive Response
  | plan (p : StorageOperationPlan)
  | accepted (a : Accepted)
  | verification (v : StorageVerification)
  | grant (g : StorageAuthorizationGrant)
  | done

def acceptedOf (record : StorageOperationRecord) : Accepted where
  operationId := record.plan.operationId
  status := record.transaction.status
  authorizationChallengeId := record.transaction.authorizationChallengeId

def asService {α : Type} (p : Task α) : Task α :=
  Proc.handle p fun
    | .engine code => throw (.service code)
    | e => throw e

/-- `_record`. -/
def recordOf (task : Nat) (operationId sessionId : String) :
    Task StorageOperationRecord := do
  let record ← ofOption (.service "STORAGE_OPERATION_NOT_FOUND")
    (← getRecord cfg task operationId)
  require (record.transaction.sessionId = sessionId)
    (.service "STORAGE_OPERATION_SESSION_MISMATCH")
  pure record

/-! ### The calls -/

def servicePlan (task : Nat) (request : DeclarativeStorageOperationRequest)
    (sessionId createdBy : String) : Task Response := do
  let plan ← asService (plan cfg task request sessionId createdBy)
  attempt (.publish "storage.plan.created")
  attempt (.publish "storage.impact.analyzed")
  attempt .work
  pure (.plan plan)

def publishCheckpoint (plan : StorageOperationPlan) : Task Unit :=
  if plan.protectionCheckpoint.isSome then attempt (.publish "storage.checkpoint.created")
  else pure ()

def serviceValidate (task : Nat) (operationId sessionId : String) :
    Task Response := do
  let plan ← asService (validate cfg task operationId sessionId)
  attempt (.publish "storage.preflight.completed")
  publishCheckpoint plan
  pure (.plan plan)

/-- The task is absent or done, so that another may be created. -/
def free (done : Nat → Bool) (existing : Option Nat) : Bool := existing.all done

def createAuthorization (task : Nat) (operationId sessionId : String) : Task Unit := do
  let s ← Proc.state
  if free s.done (s.authorizationTasks operationId) then
    Proc.modify fun s => (s.create
      (.authorizeTask task operationId sessionId (s.seen task))).setAuthorizationTask
        operationId (some task)
  else
    pure ()

def authorizeRecord (task : Nat) (operationId sessionId : String) :
    Task Response := do
  attempt .await
  createAuthorization task operationId sessionId
  attempt .await
  let refreshed ← recordOf cfg task operationId sessionId
  pure (.accepted (acceptedOf refreshed))

def authorize (task : Nat) (operationId sessionId : String) : Task Response := do
  let record ← recordOf cfg task operationId sessionId
  if record.transaction.status = .authorized then
    pure (.accepted (acceptedOf record))
  else
    require (record.transaction.status = .protected_)
      (.service "STORAGE_OPERATION_NOT_AUTHORIZABLE")
    authorizeRecord cfg task operationId sessionId

def executionInput (operationId sessionId : String) (plan : StorageOperationPlan) :
    StorageOperationExecutionInput where
  operationId
  planId := plan.id
  sessionId
  protectedResourceId := plan.protectedResourceId
  protectedResourceFingerprintSha256 := plan.targetDisk.fingerprintSha256

def serviceExecute (task : Nat) (operationId sessionId : String) :
    Task Response := do
  let record ← recordOf cfg task operationId sessionId
  require (record.transaction.status = .authorized)
    (.service "STORAGE_OPERATION_NOT_AUTHORIZED")
  require record.plan.protectionCheckpoint.isSome
    (.service "STORAGE_PROTECTION_CHECKPOINT_INVALID")
  attempt .await
  let s ← Proc.state
  require (free s.done (s.executionTasks operationId))
    (.service "STORAGE_OPERATION_ALREADY_RUNNING")
  Proc.modify fun s => (s.create (.executeTask task
    (executionInput operationId sessionId record.plan) (s.seen task))).setExecutionTask
      operationId (some task)
  pure (.accepted (acceptedOf record))

def serviceReconcile (task : Nat) (operationId sessionId : String) :
    Task Response := do
  let verification ← asService (reconcileUnknown cfg task operationId sessionId)
  attempt (.publish "storage.verification.completed")
  pure (.verification verification)

/-! ### The authorization task -/

/-- The challenge of the stored transaction becomes `challengeId`. -/
def rechallenge (task : Nat) (operationId challengeId : String) : Task Unit := do
  let record ← getRecord cfg task operationId
  match record with
  | none => pure ()
  | some record =>
    putTransaction task .challenge (some record)
      { record.transaction with authorizationChallengeId := some challengeId }

/-- The callback `challenge` of `_authorize_task`. -/
def challenge (task : Nat) (operationId challengeId : String) : Task Unit := do
  rechallenge cfg task operationId challengeId
  attempt (.publish "storage.authorization.requested")

def authorizeTask (task handle : Nat) (operationId sessionId : String) :
    Task Response :=
  let body : Task Response := do
    let grant ← requestAuthorization cfg task operationId sessionId (challenge cfg task operationId)
    pure (.grant grant)
  let guarded : Task Response := Proc.handle body fun
    | .cancelled => do
      markAborted cfg task operationId "STORAGE_AUTHORIZATION_INTERRUPTED"
      throw .cancelled
    | .engine code => do
      markAborted cfg task operationId code
      pure .done
    | e => throw e
  let released := guarded.andFinally (do
    attempt .await
    Proc.modify (State.setAuthorizationTask operationId none))
  released.andFinally (Proc.modify (State.finish handle))

/-! ### The workflow of an execution -/

inductive ExecutionStatus
  | succeeded | failed | cancelled
deriving DecidableEq

structure Execution where
  status : ExecutionStatus
  errorCode : Option String
deriving DecidableEq

/-- The action of `ValidateAuthorizedStorageOperationAction`. -/
def validateAction (task : Nat) (input : StorageOperationExecutionInput) :
    Task Unit := do
  let notFound := Error.action "STORAGE_OPERATION_NOT_FOUND"
  let record ← ofOption notFound (← getRecord cfg task input.operationId)
  let plan := record.plan
  require (plan.id = input.planId) notFound
  require (record.transaction.status = .authorized)
    (.action "STORAGE_OPERATION_NOT_AUTHORIZED")
  require (input.sessionId = plan.sessionId) (.action "STORAGE_OPERATION_SESSION_MISMATCH")
  require (storagePlanIntegrityValid cfg.lib plan) (.action "STORAGE_OPERATION_PLAN_TAMPERED")
  require (plan.executable && plan.protectionCheckpoint.isSome &&
      input.protectedResourceId = plan.protectedResourceId &&
      input.protectedResourceFingerprintSha256 = plan.targetDisk.fingerprintSha256)
    (.action "STORAGE_PROTECTION_CHECKPOINT_INVALID")
  attempt (.publish "storage.preflight.completed")

def failureEvent (record : Option StorageOperationRecord) : String :=
  if record.any (·.transaction.status = .unknown) then "storage.transaction.unknown"
  else "storage.transaction.failed"

/-- The action of `ExecuteStorageTransactionAction`. -/
def executeAction (task : Nat) (input : StorageOperationExecutionInput) :
    Task Unit := do
  attempt (.publish "storage.transaction.started")
  let _ ← Proc.handle
    (executeAuthorized cfg task input.operationId input.sessionId
      fun name _ => attempt (.publish name)) fun
    | .engine code => do
      let record ← getRecord cfg task input.operationId
      attempt (.publish (failureEvent record))
      throw (.action code)
    | e => throw e
  let record ← getRecord cfg task input.operationId
  require record.isSome (.action "STORAGE_OPERATION_NOT_FOUND")
  attempt (.publish "storage.transaction.committed")

/-- The action of `ProjectStorageTransactionGraphAction`. -/
def projectAction : Task Unit := do
  attempt .work
  attempt (.publish "knowledge.graph.updated")

/-- What `_run_action` makes of the end of its action. -/
def ended : Except Error Unit → Task Unit
  | .ok () => pure ()
  | .error .cancelled => do
    match ← perform Op.stop with
    | .timeout => throw .timeout
    | .workflow => throw .stopped
    | .task => throw .cancelled
  | .error e => throw e

/-- `_run_action`. -/
def runAction (action : Task Unit) : Task Unit := action.observe.bind ended

/-- `_run_action` for the action that executes the transaction: when the task that waits for it is
cancelled, the action goes on alone, and its end is nobody's. -/
def runExecution (task handle : Nat) (input : StorageOperationExecutionInput) :
    Task Unit := do
  Proc.modify (State.setActing task (some (handle, input.operationId)))
  let r ← (executeAction cfg task input).observe
  let s ← Proc.state
  Proc.modify (State.setActing task none)
  if s.interrupted task then throw .detached else ended r

def failStep (code : String) : Task Unit := do
  attempt (.publish "action.failed")
  throw (.stepFailed code)

/-- `_run_step`, for a step with one attempt. -/
def runStep (action postcheck : Task Unit) : Task Unit := do
  attempt .control
  attempt (.publish "action.started")
  let r ← (action.bind fun _ => postcheck).observe
  match r with
  | .ok () => attempt (.publish "action.completed")
  | .error .timeout => failStep "ACTION_TIMEOUT"
  | .error (.action code) => failStep code
  | .error .stopped => throw .stopped
  | .error .cancelled => throw .cancelled
  | .error .detached => throw .detached
  | .error _ => failStep "ACTION_FAILED"

def verificationPostcheck : Task Unit := do
  attempt .work
  attempt (.publish "workflow.postcheck.passed")

/-- The stages of a mutating partition capability. -/
def stages (task handle : Nat) (input : StorageOperationExecutionInput) :
    Task Unit := do
  attempt .control
  runStep (runAction (validateAction cfg task input)) (pure ())
  attempt .control
  runStep (runExecution cfg task handle input) verificationPostcheck
  attempt .control
  runStep (runAction projectAction) (pure ())

def executionOf : Except Error Unit → Task Execution
  | .ok () => do
    match ← (attempt .work).observe with
    | .ok () => pure ⟨.succeeded, none⟩
    | .error .cancelled => throw .cancelled
    | .error _ => pure ⟨.failed, some "WORKFLOW_RESULT_INVALID"⟩
  | .error (.stepFailed code) => pure ⟨.failed, some code⟩
  | .error .stopped => pure ⟨.cancelled, some "WORKFLOW_CANCELLED"⟩
  | .error e => throw e

def ExecutionStatus.workflowEvent : ExecutionStatus → String
  | succeeded => "workflow.completed"
  | cancelled => "workflow.cancelled"
  | failed => "workflow.failed"

def ExecutionStatus.capabilityEvent : ExecutionStatus → String
  | succeeded => "capability.completed"
  | cancelled | failed => "capability.failed"

/-- The output of an execution that succeeded is checked against its model. -/
def checkOutput (execution : Execution) : Task Unit :=
  if execution.status = .succeeded then attempt .work else pure ()

/-- `CapabilityManager.execute`. -/
def capabilitiesExecute (task handle : Nat)
    (input : StorageOperationExecutionInput) : Task Execution := do
  attempt .capability
  attempt (.publish "workflow.started")
  attempt (.publish "capability.started")
  let r ← (stages cfg task handle input).observe
  let execution ← executionOf r
  attempt (.publish execution.status.workflowEvent)
  attempt (.publish execution.status.capabilityEvent)
  checkOutput execution
  pure execution

/-! ### The execution task -/

def settleExecution (task : Nat) (operationId : String) (execution : Execution) :
    Task Unit :=
  if execution.status = .succeeded then pure ()
  else do
    let record ← getRecord cfg task operationId
    match record with
    | none => pure ()
    | some record =>
      if record.transaction.status = .unknown ∨ record.transaction.status = .committed then
        pure ()
      else
        markFailed cfg task .markFailed operationId
          (orText execution.errorCode "STORAGE_OPERATION_FAILED")

def crossed (status : StorageTransactionStatus) : Bool :=
  status = .executing || status = .verifying

/-- The branch of `_execute_task` for a cancelled task. -/
def afterCancellation (task : Nat) (operationId : String) : Task Unit := do
  let record ← getRecord cfg task operationId
  match record with
  | none => pure ()
  | some record =>
    if crossed record.transaction.status then
      markUnknown cfg task operationId "STORAGE_EXECUTION_INTERRUPTED"
    else
      pure ()

/-- The branch of `_execute_task` for every other exception. -/
def afterException (task : Nat) (operationId : String) : Task Unit := do
  let record ← getRecord cfg task operationId
  match record with
  | none => pure ()
  | some record =>
    if crossed record.transaction.status then
      markUnknown cfg task operationId "STORAGE_EXECUTION_OBSERVABILITY_LOST"
    else if record.transaction.status ≠ .committed then
      markFailed cfg task .escaped operationId "STORAGE_OPERATION_FAILED"
    else
      pure ()

def releaseExecution (operationId : String) : Task Unit := do
  attempt .await
  Proc.modify (State.setExecutionTask operationId none)

/-- The end of `_execute_task` after its `try` block. -/
def concludeExecution (task : Nat) (operationId : String) :
    Except Error Unit → Task Unit
  | .ok () => pure ()
  | .error .cancelled => do
    afterCancellation cfg task operationId
    throw .cancelled
  | .error _ => afterException cfg task operationId

def executeTask (task handle : Nat) (input : StorageOperationExecutionInput) :
    Task Response := do
  let body : Task Unit := do
    let execution ← capabilitiesExecute cfg task handle input
    settleExecution cfg task input.operationId execution
  let r ← body.observe
  match r with
  | .error .detached => pure .done
  | r =>
    ((concludeExecution cfg task input.operationId r).andFinally
      (releaseExecution input.operationId)).andFinally (Proc.modify (State.finish handle))
    pure .done

/-- The task `victim` is cancelled while its action runs: what the task still does. -/
def interrupt (task victim handle : Nat) (operationId : String) :
    Task Response := do
  Proc.modify (State.interrupt victim)
  ((afterCancellation cfg task operationId).andFinally
    (releaseExecution operationId)).andFinally (Proc.modify (State.finish handle))
  throw .cancelled

/-! ### The system -/

def dispatch (task : Nat) : Request → Task Response
  | .plan request sessionId createdBy => servicePlan cfg task request sessionId createdBy
  | .validate operationId sessionId => serviceValidate cfg task operationId sessionId
  | .authorize operationId sessionId => authorize cfg task operationId sessionId
  | .execute operationId sessionId => serviceExecute cfg task operationId sessionId
  | .reconcile operationId sessionId => serviceReconcile cfg task operationId sessionId
  | .requestAuthorization operationId sessionId => do
    let grant ← requestAuthorization cfg task operationId sessionId (challenge cfg task operationId)
    pure (.grant grant)
  | .executeAuthorized operationId sessionId => do
    let verification ← executeAuthorized cfg task operationId sessionId
      fun name _ => attempt (.publish name)
    pure (.verification verification)
  | .authorizeTask handle operationId sessionId seen => do
    Proc.modify (State.begin task handle seen)
    authorizeTask cfg task handle operationId sessionId
  | .executeTask handle input seen => do
    Proc.modify (State.begin task handle seen)
    executeTask cfg task handle input
  | .interrupt victim handle operationId => interrupt cfg task victim handle operationId

inductive World
  | clock (now : DateTime) (devices : Devices)
  | broker (task : Nat) (w : WriteState)

/-- The steps of the broker with one write. -/
def WriteState.next : WriteState → WriteState → Bool
  | .working, .writing | .working, .refused | .writing, .compared => true
  | _, _ => false

/-- The engine and its service.  A background task begins after it was created; the environment
answers every call as it likes, and the clock, the devices and the broker move at any time. -/
def system : System State Res Error Response Request World where
  handler task request := do
    Proc.modify (State.receive task request)
    dispatch cfg task request
  admits s
    | .authorizeTask handle operationId sessionId seen =>
      .authorizeTask handle operationId sessionId seen ∈ s.pending
    | .executeTask handle input seen => .executeTask handle input seen ∈ s.pending
    | .interrupt victim handle operationId =>
      s.acting victim = some (handle, operationId) ∧ s.interrupted victim = false
    | _ => True
  answers _ _ _ := True
  moves s
    | .clock _ _ => True
    | .broker task w => (s.writes task).next w
  world
    | .clock now devices, s => { s with now, devices }
    | .broker task w, s => s.setWrite task w

end Ares.Operations
