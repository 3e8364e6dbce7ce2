import Ares.Workflows.Models

/-! The workflow engine: `execute` with its stages, retries, postchecks and compensations, the tasks
that `asyncio.gather` runs for a parallel stage, and `pause`, `resume` and `cancel`.  Every write
also adds a note to a history, which the code does not keep. -/

namespace Ares.Workflows

open Coop

/-- The end of something that the engine calls. -/
inductive Called (α : Type)
  | returned (a : α)
  | raised (e : Exc)
deriving DecidableEq

/-- The end of the wait for an action: the action finished, its time was over, the workflow was
cancelled, or the wait itself was. -/
inductive Ended (V : Type)
  | finished (outcome : Called V)
  | timedOut
  | interrupted
  | stopped
deriving DecidableEq

/-- The task that the code runs in: that of `execute`, one that `asyncio.gather` made, or that of a
control call. -/
inductive Site
  | main | branch | control
deriving DecidableEq

/-- An execution as its code sees it; its task also names its `_ExecutionControl`. -/
structure Execution where
  owner : Nat
  id : String
  definition : WorkflowDefinition

abbrev Outputs (V : Type) := List (String × V)

abbrev StepResult (V : Type) := StepExecution × Option V

inductive Op (V : Type)
  /-- `EventSink.append`. -/
  | append (site : Site) (event : AresEvent)
  | notify (site : Site) (event : AresEvent)
  /-- `pause_gate.wait()`, with the gate and the number of `set` calls when the wait began. -/
  | gate (site : Site) (owner : Nat) (opened : Bool) (wakes : Nat)
  | condition (site : Site) (step : WorkflowStep) (state : Outputs V)
  | inputs (site : Site) (step : WorkflowStep) (state : Outputs V)
  | action (site : Site) (owner : Nat) (step : WorkflowStep) (attempt : Nat) (inputs : V)
  | postcheck (site : Site) (step : WorkflowStep) (attempt index : Nat) (output : V)
  | sleep (site : Site)
  | join (owner : Nat) (steps : List WorkflowStep)
  | result (outputs : Outputs V)
  | compensate (step : WorkflowStep) (output : V)

/-- A condition returns a value, which may raise when it is tested; a join that is cancelled returns
nothing. -/
@[reducible] def Res {V : Type} : Op V → Type
  | .append _ _ | .notify _ _ | .gate _ _ _ _ | .sleep _ | .compensate _ _ => Called Unit
  | .condition _ _ _ => Called (Called Bool)
  | .inputs _ _ _ | .result _ => Called V
  | .action _ _ _ _ _ => Ended V
  | .postcheck _ _ _ _ _ => Called Bool
  | .join _ _ => Option (List (Called (StepResult V)))

/-- A branch of a parallel stage. -/
inductive Branch (V : Type)
  | created (execution : Execution) (step : WorkflowStep) (snapshot : Outputs V)
  | running (task : Nat)
  | done (outcome : Called (StepResult V))

def Branch.outcome? {V : Type} : Option (Branch V) → Option (Called (StepResult V))
  | some (.done outcome) => some outcome
  | _ => none

inductive ControlCall
  | pause | resume | cancel
deriving DecidableEq

inductive Request
  /-- A call of `execute`, with the `uuid4().hex` that it would draw. -/
  | execute (definition : WorkflowDefinition) (executionId : Option String) (uuid : String)
  | control (call : ControlCall) (executionId : String)
  /-- A task that `asyncio.gather` made. -/
  | branch (owner : Nat) (stepId : String)
deriving DecidableEq

inductive Note (V : Type)
  | received (task : Nat) (request : Request)
  | opened (task : Nat) (executionId : String)
  | published (task owner : Nat) (event : AresEvent)
  | forked (task : Nat)
  | entered (task owner : Nat) (stepId : String)
  | left (task owner : Nat) (stepId : String)
  | attempted (task owner : Nat) (stepId : String) (attempt : Nat)
  | acted (task owner : Nat) (stepId : String) (output : V)
  | compensated (task : Nat) (stepId : String) (output : V)
  | controlled (task owner : Nat) (call : ControlCall)
  /-- `execute` returned, with whether its identifier was active then and what was stored under
  it. -/
  | settled (task : Nat) (execution : WorkflowExecution V) (active : Bool)
      (stored : Option (WorkflowExecution V))

structure State (V : Type) where
  /-- `_controls`. -/
  controls : List (String × Execution)
  /-- `pause_gate.is_set()`. -/
  gates : Nat → Bool
  /-- How often `pause_gate.set()` was called. -/
  wakes : Nat → Nat
  /-- `cancelled.is_set()`. -/
  cancelled : Nat → Bool
  /-- `_executions`, the oldest first. -/
  executions : List (String × WorkflowExecution V)
  branches : Nat → String → Option (Branch V)
  history : List (Note V)

variable {V : Type}

abbrev Task (V : Type) := Proc (State V) (Res (V := V)) Exc

structure Config (V : Type) where
  /-- `_result_receipt`. -/
  resultReceipt : V → Called ResultReceipt
  /-- `WorkflowExecution` takes the value as its `result`. -/
  accepts : V → Bool

def maxRetainedExecutions : Nat := 256

namespace State

def initial : State V where
  controls := []
  gates _ := false
  wakes _ := 0
  cancelled _ := false
  executions := []
  branches _ _ := none
  history := []

def note (n : Note V) (s : State V) : State V := { s with history := n :: s.history }

/-- The identifier is in `_controls`. -/
def active (s : State V) (executionId : String) : Bool := (s.controls.lookup executionId).isSome

/-- `get`. -/
def get (s : State V) (executionId : String) : Option (WorkflowExecution V) :=
  s.executions.lookup executionId

def register (e : Execution) (s : State V) : State V :=
  { s with
    controls := s.controls ++ [(e.id, e)]
    gates := Function.update s.gates e.owner true
    history := .opened e.owner e.id :: s.history }

/-- `asyncio.create_task` for every step of a parallel stage. -/
def fork (e : Execution) (steps : List WorkflowStep) (snapshot : Outputs V) (s : State V) :
    State V :=
  { s with
    branches := fun owner stepId =>
      if owner = e.owner then
        match steps.find? (·.id = stepId) with
        | some step => some (.created e step snapshot)
        | none => s.branches owner stepId
      else s.branches owner stepId
    history := .forked e.owner :: s.history }

def setBranch (owner : Nat) (stepId : String) (branch : Branch V) (n : Note V) (s : State V) :
    State V :=
  { s with
    branches := fun owner' stepId' =>
      if owner' = owner ∧ stepId' = stepId then some branch else s.branches owner' stepId'
    history := n :: s.history }

def control (task owner : Nat) (call : ControlCall) (s : State V) : State V :=
  match call with
  | .pause =>
      { s with
        gates := Function.update s.gates owner false
        history := .controlled task owner call :: s.history }
  | .resume =>
      { s with
        gates := Function.update s.gates owner true
        wakes := Function.update s.wakes owner (s.wakes owner + 1)
        history := .controlled task owner call :: s.history }
  | .cancel =>
      { s with
        gates := Function.update s.gates owner true
        wakes := Function.update s.wakes owner (s.wakes owner + 1)
        cancelled := Function.update s.cancelled owner true
        history := .controlled task owner call :: s.history }

/-- `_remember`: an assignment to the ordered dictionary, and the oldest entries go. -/
def remember (e : WorkflowExecution V) (executions : List (String × WorkflowExecution V)) :
    List (String × WorkflowExecution V) :=
  let assigned :=
    if (executions.lookup e.id).isSome then
      executions.map fun entry => if entry.1 = e.id then (e.id, e) else entry
    else executions ++ [(e.id, e)]
  assigned.drop (assigned.length - maxRetainedExecutions)

/-- The last lines of `execute`. -/
def settle (task : Nat) (e : WorkflowExecution V) (s : State V) : State V :=
  let s' := { s with
    controls := s.controls.filter (·.1 ≠ e.id)
    executions := remember e s.executions }
  s'.note (.settled task e (s'.active e.id) (s'.get e.id))

end State

/-! ### Events and controls -/

/-- The call of `o`, with its answer. -/
def ask (o : Op V) : Task V (Res o) := perform o

def ofCalled {α : Type} : Called α → Task V α
  | .returned a => .ret a
  | .raised e => .raise e

/-- `_event`; `task` runs the code. -/
def emit (task : Nat) (site : Site) (e : Execution) (event : Event) : Task V Unit := do
  let event : AresEvent := ⟨e.definition.capabilityId, e.id, e.definition.id, event⟩
  let appended ← ask (.append site event)
  ofCalled appended
  Proc.modify (State.note (.published task e.owner event))
  let notified ← ask (.notify site event)
  ofCalled notified

/-- `_ExecutionControl.checkpoint`. -/
def checkpoint (site : Site) (owner : Nat) : Task V Unit := do
  let opened ← reading (·.gates owner)
  let wakes ← reading (·.wakes owner)
  let waited ← ask (.gate site owner opened wakes)
  ofCalled waited
  let cancelled ← reading (·.cancelled owner)
  require (!cancelled) .executionCancelled

def ControlCall.event : ControlCall → Event
  | .pause => .workflowPaused
  | .resume => .workflowResumed
  | .cancel => .cancellationRequested

/-- `pause`, `resume` and `cancel`. -/
def control (task : Nat) (call : ControlCall) (executionId : String) : Task V Bool := do
  let found ← reading (·.controls.lookup executionId)
  match found with
  | none => .ret false
  | some e => do
      Proc.modify (State.control task e.owner call)
      emit task .control e call.event
      .ret true

/-! ### One step -/

/-- `_failed_record`. -/
def failedRecord (step : WorkflowStep) (attempts : Nat) (errorCode : String) : StepExecution :=
  ⟨step.id, step.actionId, .failed, attempts, some errorCode⟩

def skippedRecord (step : WorkflowStep) : StepExecution :=
  ⟨step.id, step.actionId, .skipped, 0, none⟩

def succeededRecord (step : WorkflowStep) (attempts : Nat) : StepExecution :=
  ⟨step.id, step.actionId, .succeeded, attempts, none⟩

section Step

variable (task : Nat) (site : Site) (e : Execution) (step : WorkflowStep)

/-- `_run_action`. -/
def runAction (attempt : Nat) (inputs : V) : Task V V := do
  Proc.modify (State.note (.attempted task e.owner step.id attempt))
  let ended ← ask (.action site e.owner step attempt inputs)
  match ended with
  | .finished (.returned output) => do
      Proc.modify (State.note (.acted task e.owner step.id output))
      .ret output
  | .finished (.raised exc) => .raise exc
  | .timedOut => .raise .timeoutError
  | .interrupted => .raise .executionCancelled
  | .stopped => .raise .cancelledError

/-- The loop over the postchecks, from the index `index` on. -/
def runPostchecks (attempt : Nat) (output : V) (index : Nat) : Nat → Task V Unit
  | 0 => .ret ()
  | remaining + 1 => do
      let answer ← ask (.postcheck site step attempt index output)
      let passed ← ofCalled answer
      require passed (.actionError (.text "POSTCHECK_FAILED"))
      emit task site e (.postcheckPassed step.id index)
      runPostchecks attempt output (index + 1) remaining

/-- The body of the `try` of an attempt. -/
def runAttempt (attempt : Nat) (inputs : V) : Task V V := do
  let output ← runAction task site e step attempt inputs
  runPostchecks task site e step attempt output 0 step.postchecks
  .ret output

/-- `last_error` after an exception of an attempt, unless the exception goes on. -/
def lastError : Exc → Option ErrorCode
  | .timeoutError => some (.text "ACTION_TIMEOUT")
  | .actionError code => some code
  | .executionCancelled | .cancelledError => none
  | .stepFailed _ | .typeError | .valueError | .exception => some (.text "ACTION_FAILED")

/-- The exception after the last attempt: `StepExecution` takes only a text as its code. -/
def exhausted (attempts : Nat) : ErrorCode → Exc
  | .text code => .stepFailed (failedRecord step attempts code)
  | .other => .valueError

/-- `asyncio.sleep(step.retry.delay_seconds)`, where another attempt follows. -/
def delayRetry (retrying : Bool) : Task V Unit :=
  if retrying && step.delays then do
    let slept ← ask (.sleep site)
    ofCalled slept
  else .ret ()

/-- The `while` of `_run_step`, after `attempts` attempts. -/
def runAttempts (inputs : V) (attempts : Nat) (error : ErrorCode) : Nat → Task V (StepResult V)
  | 0 => .raise (exhausted step attempts error)
  | remaining + 1 => do
      checkpoint site e.owner
      emit task site e (.actionStarted step.id step.actionId (attempts + 1))
      let outcome ← (runAttempt task site e step (attempts + 1) inputs).observe
      match outcome with
      | .ok output => do
          emit task site e (.actionCompleted step.id step.actionId (attempts + 1))
          .ret (succeededRecord step (attempts + 1), some output)
      | .error exc =>
          match lastError exc with
          | none => .raise exc
          | some error => do
              let retrying := decide (attempts + 1 < step.maxAttempts)
              emit task site e
                (.actionFailed step.id step.actionId (attempts + 1) error retrying)
              delayRetry site step retrying
              runAttempts inputs (attempts + 1) error remaining

/-- `step.condition is None or step.condition(state)`, and the test of the value. -/
def shouldRun (state : Outputs V) : Task V Bool :=
  if step.conditional then do
    let answer ← ask (.condition site step state)
    match answer with
    | .returned value => ofCalled value
    | .raised exc =>
        .raise (if exc.caught then .stepFailed (failedRecord step 0 "WORKFLOW_CONDITION_INVALID")
          else exc)
  else .ret true

def buildInputs (state : Outputs V) : Task V V := do
  let answer ← ask (.inputs site step state)
  match answer with
  | .returned inputs => .ret inputs
  | .raised exc =>
      .raise (if exc.caught then .stepFailed (failedRecord step 0 "WORKFLOW_INPUT_INVALID")
        else exc)

/-- `_run_step`. -/
def runStep (state : Outputs V) : Task V (StepResult V) := do
  let run ← shouldRun site step state
  if run then do
    let inputs ← buildInputs site step state
    runAttempts task site e step inputs 0 (.text "ACTION_FAILED") step.maxAttempts
  else do
    emit task site e (.stepSkipped step.id step.actionId)
    .ret (skippedRecord step, none)

end Step

/-! ### The stages -/

/-- What the stages have brought so far. -/
structure Progress (V : Type) where
  records : List StepExecution
  outputs : Outputs V
  compensations : List (WorkflowStep × V)

namespace Progress

def empty : Progress V := ⟨[], [], []⟩

def add (p : Progress V) (step : WorkflowStep) (result : StepResult V) : Progress V :=
  match result.2 with
  | none => { p with records := p.records ++ [result.1] }
  | some output =>
      { records := p.records ++ [result.1]
        outputs := p.outputs ++ [(step.id, output)]
        compensations :=
          if step.compensateOnFailure then p.compensations ++ [(step, output)]
          else p.compensations }

end Progress

/-- Why the stages ended early: `_StepFailed`, `_ParallelStageFailed`, `_ExecutionCancelled`, or an
exception that `execute` does not catch. -/
inductive Halt
  | step (record : StepExecution)
  | stage (errorCode : Option String)
  | cancelled
  | escaped (e : Exc)
deriving DecidableEq

def Halt.of : Exc → Halt
  | .stepFailed record => .step record
  | .executionCancelled => .cancelled
  | e => .escaped e

/-- What the loop over the results of a parallel stage collects. -/
structure Merged (V : Type) where
  progress : Progress V
  failures : List StepExecution
  cancelled : Bool

def Merged.add (m : Merged V) (step : WorkflowStep) : Called (StepResult V) → Merged V
  | .raised (.stepFailed record) => { m with failures := m.failures ++ [record] }
  | .raised .executionCancelled => { m with cancelled := true }
  | .raised _ =>
      { m with failures := m.failures ++ [failedRecord step 0 "WORKFLOW_STEP_INVALID"] }
  | .returned result => { m with progress := m.progress.add step result }

def merge (m : Merged V) : List (WorkflowStep × Called (StepResult V)) → Merged V
  | [] => m
  | (step, outcome) :: rest => merge (m.add step outcome) rest

def Merged.finish (m : Merged V) : Progress V × Option Halt :=
  if m.cancelled then (m.progress, some .cancelled)
  else
    match m.failures with
    | [] => (m.progress, none)
    | first :: rest =>
        ({ m.progress with records := m.progress.records ++ first :: rest },
          some (.stage first.errorCode))

section Stages

variable (task : Nat) (e : Execution)

def runSequential (p : Progress V) : List WorkflowStep → Task V (Progress V × Option Halt)
  | [] => .ret (p, none)
  | step :: rest => do
      let outcome ← (runStep task .main e step p.outputs).observe
      match outcome with
      | .error exc => .ret (p, some (.of exc))
      | .ok result => runSequential (p.add step result) rest

def runParallel (p : Progress V) (steps : List WorkflowStep) :
    Task V (Progress V × Option Halt) := do
  Proc.modify (State.fork e steps p.outputs)
  let joined ← ask (.join e.owner steps)
  match joined with
  | none => .ret (p, some (.escaped .cancelledError))
  | some outcomes => .ret (merge ⟨p, [], false⟩ (steps.zip outcomes)).finish

def runStage (p : Progress V) (stage : WorkflowStage) : Task V (Progress V × Option Halt) := do
  let passed ← (checkpoint .main e.owner).observe
  match passed with
  | .error exc => .ret (p, some (.of exc))
  | .ok () =>
      match stage.mode with
      | .sequential => runSequential task e p stage.steps
      | .parallel => runParallel e p stage.steps

def runStages (p : Progress V) : List WorkflowStage → Task V (Progress V × Option Halt)
  | [] => .ret (p, none)
  | stage :: rest => do
      let (p, halt) ← runStage task e p stage
      match halt with
      | some halt => .ret (p, some halt)
      | none => runStages p rest

end Stages

/-! ### The end of an execution -/

/-- `status`, `error_code`, `result` and `result_receipt`. -/
structure Verdict (V : Type) where
  status : ExecutionStatus
  errorCode : Option String
  result : Option V
  receipt : Option ResultReceipt

section Closing

variable (cfg : Config V) (task : Nat) (e : Execution)

/-- The `except` of the result: only `TypeError` and `ValueError` are caught. -/
def resultInvalid (result : Option V) : Exc → Task V (Verdict V)
  | .typeError | .valueError =>
      .ret ⟨.failed, some "WORKFLOW_RESULT_INVALID", result, none⟩
  | exc => .raise exc

def buildResult (outputs : Outputs V) : Task V (Verdict V) := do
  let answer ← ask (.result outputs)
  match answer with
  | .raised exc => resultInvalid none exc
  | .returned result =>
      match cfg.resultReceipt result with
      | .raised exc => resultInvalid (some result) exc
      | .returned receipt => .ret ⟨.succeeded, none, some result, some receipt⟩

/-- The loop of `_compensate`. -/
def compensateAll (complete : Bool) : List (WorkflowStep × V) → Task V Bool
  | [] => .ret complete
  | (step, output) :: rest => do
      Proc.modify (State.note (.compensated task step.id output))
      let answer ← ask (.compensate step output)
      match answer with
      | .returned () => do
          emit task .main e (.compensationCompleted step.id step.actionId)
          compensateAll complete rest
      | .raised exc =>
          if exc.caught then do
            emit task .main e (.compensationFailed step.id step.actionId)
            compensateAll false rest
          else .raise exc

/-- `_compensate`. -/
def compensate (completed : List (WorkflowStep × V)) : Task V Bool := do
  emit task .main e .rollbackStarted
  let complete ← compensateAll task e true completed.reverse
  emit task .main e (.rollbackCompleted complete)
  .ret true

def rollback (status : ExecutionStatus) (completed : List (WorkflowStep × V)) : Task V Bool :=
  if status ≠ .succeeded ∧ completed ≠ [] then compensate task e completed else .ret false

def conclude (records : List StepExecution) (verdict : Verdict V) (rollbackPerformed : Bool) :
    Task V (WorkflowExecution V) := do
  require (verdict.result.all cfg.accepts) .valueError
  let execution : WorkflowExecution V :=
    ⟨e.id, e.definition.id, e.definition.version, e.definition.capabilityId, verdict.status,
      records, verdict.result, verdict.errorCode, rollbackPerformed⟩
  emit task .main e (.terminal verdict.status verdict.errorCode)
  emit task .main e (.capabilityEnded verdict.status verdict.errorCode verdict.receipt)
  Proc.modify (State.settle task execution)
  .ret execution

/-- `execute` after the stages. -/
def close (p : Progress V) (verdict : Verdict V) : Task V (WorkflowExecution V) := do
  let rollbackPerformed ← rollback task e verdict.status p.compensations
  conclude cfg task e p.records verdict rollbackPerformed

/-- The `except` clauses of the stages, and what follows them. -/
def finish (p : Progress V) : Option Halt → Task V (WorkflowExecution V)
  | none => do
      let verdict ← buildResult cfg p.outputs
      close cfg task e p verdict
  | some (.step record) =>
      close cfg task e { p with records := p.records ++ [record] }
        ⟨.failed, record.errorCode, none, none⟩
  | some (.stage errorCode) => close cfg task e p ⟨.failed, errorCode, none, none⟩
  | some .cancelled => close cfg task e p ⟨.cancelled, some "WORKFLOW_CANCELLED", none, none⟩
  | some (.escaped exc) => .raise exc

/-- `execute`, once `workflow.started` is published. -/
def runDefinition : Task V (WorkflowExecution V) := do
  emit task .main e .capabilityStarted
  let (p, halt) ← runStages task e .empty e.definition.stages
  finish cfg task e p halt

/-- `execute`, once the identifier is known to be new. -/
def runExecution : Task V (WorkflowExecution V) := do
  Proc.modify (State.register e)
  emit task .main e (.workflowStarted e.definition.version)
  runDefinition cfg task e

/-- `execution_id or uuid4().hex`. -/
def chooseId (executionId : Option String) (uuid : String) : String :=
  match executionId with
  | none | some "" => uuid
  | some executionId => executionId

def execute (definition : WorkflowDefinition) (executionId : Option String) (uuid : String) :
    Task V (WorkflowExecution V) := do
  let id := chooseId executionId uuid
  let known ← reading fun s => s.active id || (s.get id).isSome
  require (!known) .valueError
  runExecution cfg task ⟨task, id, definition⟩

end Closing

/-! ### The system -/

inductive Reply (V : Type)
  | execution (e : WorkflowExecution V)
  | flag (b : Bool)
  | branch
deriving DecidableEq

def called : Except Exc (StepResult V) → Called (StepResult V)
  | .ok result => .returned result
  | .error exc => .raised exc

/-- A branch of a parallel stage runs its step and leaves the outcome for the join. -/
def runBranch (task owner : Nat) (stepId : String) : Task V Unit := do
  let found ← reading (·.branches owner stepId)
  match found with
  | some (.created e step snapshot) => do
      Proc.modify (State.setBranch owner stepId (.running task) (.entered task owner stepId))
      let outcome ← (runStep task .branch e step snapshot).observe
      Proc.modify
        (State.setBranch owner stepId (.done (called outcome)) (.left task owner stepId))
  | _ => .ret ()

def answer (cfg : Config V) (task : Nat) : Request → Task V (Reply V)
  | .execute definition executionId uuid => do
      let execution ← execute cfg task definition executionId uuid
      .ret (.execution execution)
  | .control call executionId => do
      let found ← control task call executionId
      .ret (.flag found)
  | .branch owner stepId => do
      runBranch task owner stepId
      .ret .branch

def handler (cfg : Config V) (task : Nat) (request : Request) : Task V (Reply V) := do
  Proc.modify (State.note (.received task request))
  answer cfg task request

def Branch.created? : Option (Branch V) → Bool
  | some (.created _ _ _) => true
  | _ => false

/-- The answers that a call may get: a wait at the gate ends where the gate was open or was set
since, an action is interrupted where its workflow is cancelled, and a join has the outcomes of all
its branches.  Where the engine does not look at an exception, it is not its own `_StepFailed`. -/
def Answers (s : State V) : (o : Op V) → Res o → Prop
  | .append _ _, .raised e | .notify _ _, .raised e | .gate _ _ _ _, .raised e
  | .sleep _, .raised e | .condition _ _ _, .returned (.raised e) => e.isStepFailed = false
  | .gate _ owner opened wakes, .returned () => opened = true ∨ wakes < s.wakes owner
  | .action _ owner _ _ _, .interrupted => s.cancelled owner = true
  | .join owner steps, some outcomes =>
      steps.map (fun step => s.branches owner step.id) =
        outcomes.map fun outcome => some (.done outcome)
  | _, _ => True

def engine (cfg : Config V) : System (State V) (Res (V := V)) Exc (Reply V) Request Empty where
  handler := handler cfg
  admits s
    | .branch owner stepId => Branch.created? (s.branches owner stepId) = true
    | _ => True
  answers := Answers
  moves _ _ := False
  world w _ := w.elim

end Ares.Workflows
