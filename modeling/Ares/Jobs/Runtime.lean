import Ares.Coop.Protocol
import Ares.Storage.Models
import Ares.Workflows.Engine

/-! Background jobs.  A service keeps documents in a store of files and runs its jobs in background
tasks, which execute workflows; the engine runs every action in a task of its own.  A cancelled task
gets `CancelledError` at its next wait, but a write that it has handed to a thread goes on without
it.  The history, which the code does not keep, has the marks of the service and the documents that
it hands to its store, the last first. -/

namespace Ares.Jobs

open Coop Workflows

variable (who : Handle)

/-- What the jobs of a service are about. -/
structure Kind where
  Doc : Type
  Key : Type
  key : Doc → Key
  sameKey : DecidableEq Key
  Value : Type
  Payload : Type
  Request : Type
  Reply : Type
  Mark : Type
  Call : Type
  Answer : Call → Type

/-- A task as the others know it: a call, a background task or the task of an action. -/
inductive Handle
  | call (task : Nat)
  | job (n : Nat)
  | action (n : Nat)
deriving DecidableEq

inductive Error
  | service (code : String)
  | executor (code : String)
  | exc (e : Exc)
deriving DecidableEq

/-- `asyncio.CancelledError`. -/
abbrev Error.cancelled : Error := .exc .cancelledError

/-- `ActionError`. -/
abbrev Error.action (code : String) : Error := .exc (.actionError (.text code))

/-- What an action finds in its context. -/
structure ActionContext where
  actionId : String
  executionId : String
deriving DecidableEq

/-- What has become of a write. -/
inductive Ticket
  | waiting | written | failed
deriving DecidableEq

/-- A task that was created with an `α` and ends with a `β`. -/
inductive Stage (α β : Type)
  | created (a : α)
  | entered
  | done (b : β)

def Stage.isDone {α β : Type} : Stage α β → Bool
  | done _ => true
  | _ => false

inductive Event (K : Kind)
  | marked (mark : K.Mark)
  | put (doc : K.Doc)

variable {K : Kind} {α : Type}

structure State (K : Kind) where
  now : DateTime
  disk : List K.Doc
  tickets : List (K.Doc × Ticket)
  /-- `self._tasks`. -/
  tasks : List (String × Nat)
  jobs : List (Stage K.Payload Unit)
  actions : List (ActionContext × Stage K.Value (Called K.Value))
  /-- The task is to get `CancelledError` at its next wait. -/
  cancelled : Handle → Bool
  engine : Workflows.State K.Value
  history : List (Event K)

inductive Wait (K : Kind)
  /-- A wait that may raise: an event is published, an entry appended to the audit ledger. -/
  | pause
  | thread
  | read
  | write (ticket : Nat)
  /-- `asyncio.wait` for an action. -/
  | action (n : Nat)
  /-- `asyncio.gather` of an action that was cancelled. -/
  | join (n : Nat)
  /-- `asyncio.gather` of background tasks. -/
  | gather (jobs : List Nat)
  | call (c : K.Call)

/-- The end of `asyncio.wait`. -/
inductive Watch
  | finished | timedOut | interrupted
deriving DecidableEq

@[reducible] def Wait.Value : Wait K → Type
  | pause => Called Unit
  | thread | join _ | gather _ => Unit
  | read | write _ => Bool
  | action _ => Watch
  | call c => K.Answer c

structure Op (K : Kind) where
  who : Handle
  wait : Wait K

inductive Reply (α : Type)
  | value (a : α)
  | cancelled

@[reducible] def Res (o : Op K) : Type := Reply o.wait.Value

abbrev Task (K : Kind) := Proc (State K) (Res (K := K)) Error

namespace State

def mark (m : K.Mark) (s : State K) : State K := { s with history := .marked m :: s.history }

def find (s : State K) (key : K.Key) : Option K.Doc :=
  have := K.sameKey
  s.disk.find? (K.key · = key)

def submit (doc : K.Doc) (s : State K) : State K :=
  { s with tickets := s.tickets ++ [(doc, .waiting)], history := .put doc :: s.history }

/-- `asyncio.create_task` for a job. -/
def create (payload : K.Payload) (s : State K) : State K :=
  { s with jobs := s.jobs ++ [.created payload] }

/-- `self._tasks[id] = task`. -/
def table (id : String) (job : Nat) (s : State K) : State K :=
  { s with tasks := (id, job) :: s.tasks.filter (·.1 ≠ id) }

/-- `self._tasks.pop(id, None)`. -/
def untable (id : String) (s : State K) : State K :=
  { s with tasks := s.tasks.filter (·.1 ≠ id) }

/-- `task.cancel()`. -/
def cancel (handle : Handle) (s : State K) : State K :=
  { s with cancelled := Function.update s.cancelled handle true }

/-- `CancelledError` is raised. -/
def deliver (handle : Handle) (s : State K) : State K :=
  { s with cancelled := Function.update s.cancelled handle false }

/-- `asyncio.create_task` for an action. -/
def launch (context : ActionContext) (value : K.Value) (s : State K) : State K :=
  { s with actions := s.actions ++ [(context, .created value)] }

def setJob (n : Nat) (stage : Stage K.Payload Unit) (s : State K) : State K :=
  { s with jobs := s.jobs.set n stage }

def setAction (n : Nat) (context : ActionContext) (stage : Stage K.Value (Called K.Value))
    (s : State K) : State K :=
  { s with actions := s.actions.set n (context, stage) }

def setEngine (engine : Workflows.State K.Value) (s : State K) : State K := { s with engine }

/-- `task.done()`. -/
def jobDone (s : State K) (n : Nat) : Bool := (s.jobs[n]?.map Stage.isDone).getD false

def actionDone (s : State K) (n : Nat) : Bool :=
  (s.actions[n]?.map fun action => action.2.isDone).getD false

/-- A service that has just been made, with the documents that its store holds. -/
def start (now : DateTime) (disk : List K.Doc) : State K where
  now
  disk
  tickets := []
  tasks := []
  jobs := []
  actions := []
  cancelled _ := false
  engine := .initial
  history := []

end State

/-! ### Waiting and the store -/

def mark (m : K.Mark) : Task K Unit := Proc.modify (State.mark m)

def await (w : Wait K) : Task K w.Value := do
  match ← perform (⟨who, w⟩ : Op K) with
  | .value a => pure a
  | .cancelled => do
    Proc.modify (State.deliver who)
    throw .cancelled

def ofCalled : Called α → Task K α
  | .returned a => .ret a
  | .raised e => .raise (.exc e)

def pause : Task K Unit := do
  let ended ← await who .pause
  ofCalled ended

/-- `_get`. -/
def fetch (key : K.Key) : Task K (Option K.Doc) := do
  let readable ← await who .read
  let stored ← reading (·.find key)
  await who .thread
  pure (if readable then stored else none)

/-- `_put`: the lock of the store, and the thread that writes. -/
def put (doc : K.Doc) : Task K Unit := do
  await who .thread
  let ticket ← reading (·.tickets.length)
  Proc.modify (State.submit doc)
  let ok ← await who (.write ticket)
  require ok (.exc .exception)

/-- `suppress(AuditLedgerError)` around a wait, of which no other exception is one. -/
def attempt : Task K Unit := do
  match ← await who .pause with
  | .raised .cancelledError => throw .cancelled
  | _ => pure ()

/-! ### The outside -/

/-- The end of a call of the tools or the executor: its result, its own error with the code, or
another exception. -/
inductive Returned (α : Type)
  | value (a : α)
  | failed (code : String)
  | raised (e : Exc)

def ofReturned : Returned α → Task K α
  | .value a => .ret a
  | .failed code => .raise (.executor code)
  | .raised e => .raise (.exc e)

/-- `ActionError` for an error of the tools or the executor. -/
def toActionError : Error → Task K α
  | .executor code => .raise (.action code)
  | e => .raise e

def toServiceError : Error → Task K α
  | .executor code => .raise (.service code)
  | e => .raise e

/-- `if found is not None`. -/
def whenSome (found : Option α) (f : α → Task K Unit) : Task K Unit :=
  match found with
  | some a => f a
  | none => pure ()

def attend (next : Task K α) (handle : α → Task K Unit) : Nat → Task K Unit
  | 0 => pure ()
  | n + 1 => do
    let message ← next
    handle message
    attend next handle n

/-- `code or default`. -/
def codeOr (code : Option String) (default : String) : String :=
  (code.filter (· ≠ "")).getD default

/-! ### Background tasks -/

/-- `self._tasks.get(id)`, where the task is not done. -/
def runningTask (id : String) : Task K (Option Nat) := do
  await who .thread
  reading fun s => (s.tasks.lookup id).filter fun n => !s.jobDone n

/-- `task.cancel()` for each task that is not done. -/
def cancelAll : List Nat → Task K Unit
  | [] => pure ()
  | n :: rest => do
    let done ← reading (·.jobDone n)
    (if done then pure () else Proc.modify (State.cancel (.job n)))
    cancelAll rest

/-- `shutdown`. -/
def shutdown : Task K Unit := do
  await who .thread
  let jobs ← reading (·.tasks.map (·.2))
  cancelAll jobs
  if jobs.isEmpty then pure () else await who (.gather jobs)

/-! ### The engine -/

/-- What a workflow definition calls, by the identifiers of its steps. -/
structure Calls (V : Type) where
  inputs : String → Outputs V → Called V
  postcheck : String → V → Bool
  result : Outputs V → Called V

structure Flow (V : Type) extends Calls V where
  definition : WorkflowDefinition

theorem one_attempt : 1 ≤ 1 ∧ 1 ≤ 5 := ⟨Nat.le_refl 1, Nat.le_add_left 1 4⟩

/-- `WorkflowStep` with the defaults of its policy. -/
def step (id actionId : String) (postchecks : Nat) (h : id ≠ "" ∧ id.length ≤ 96) : WorkflowStep :=
  ⟨id, actionId, 1, false, false, postchecks, false, h, one_attempt⟩

def stage (id : String) (first : WorkflowStep) (rest : List WorkflowStep) (h : id ≠ "") :
    WorkflowStage :=
  ⟨id, .sequential, first :: rest, h, List.cons_ne_nil _ _⟩

/-- `dict(state[id])`. -/
def stateOf {V : Type} (id : String) (state : Outputs V) : Called V :=
  match state.lookup id with
  | some value => .returned value
  | none => .raised .exception

/-- A control call does not come to any of them. -/
def Calls.none {V : Type} : Calls V :=
  ⟨fun _ _ => .raised .exception, fun _ _ => false, fun _ => .raised .exception⟩

/-- The wait for an action; the action of a wait that is given up is cancelled. -/
def watch (n : Nat) : Task K (Ended K.Value) := do
  match ← await who (.action n) with
  | .finished => do
    let action ← reading (·.actions[n]?)
    match action with
    | some (_, .done outcome) => pure (.finished outcome)
    | _ => pure .stopped
  | .timedOut => do
    Proc.modify (State.cancel (.action n))
    await who (.join n)
    pure .timedOut
  | .interrupted => do
    Proc.modify (State.cancel (.action n))
    await who (.join n)
    pure .interrupted

/-- `_run_action`; the task of an action goes on when the task that waits for it is cancelled. -/
def runAction (context : ActionContext) (inputs : K.Value) :
    Task K (Ended K.Value) := do
  let n ← reading (·.actions.length)
  Proc.modify (State.launch context inputs)
  let ended ← (watch who n).observe
  let closed ← (await who .thread).observe
  match ended, closed with
  | .ok ended, .ok () => pure ended
  | _, _ => pure .stopped

def enginePause : Task K (Called Unit) := do
  match ← (pause who).observe with
  | .ok () => pure (.returned ())
  | .error (.exc e) => pure (.raised e)
  | .error _ => pure (.raised .exception)

/-- The calls of the engine.  The steps of these workflows have no conditions, and their stages are
not parallel. -/
def carry (calls : Calls K.Value) (executionId : String) :
    (o : Workflows.Op K.Value) → Task K (Workflows.Res o)
  | .append _ _ | .notify _ _ | .gate _ _ _ _ | .sleep _ | .compensate _ _ => enginePause who
  | .condition _ _ _ => pure (.returned (.returned true))
  | .inputs _ step state => pure (calls.inputs step.id state)
  | .result outputs => pure (calls.result outputs)
  | .postcheck _ step _ _ output => pure (.returned (calls.postcheck step.id output))
  | .action _ _ step _ inputs => runAction who ⟨step.actionId, executionId⟩ inputs
  | .join _ _ => pure none

/-- `workflow_engine.execute`. -/
def executeWorkflow (cfg : Workflows.Config K.Value) (task : Nat) (who : Handle)
    (flow : Flow K.Value) (executionId : Option String) (uuid : String) :
    Task K (WorkflowExecution K.Value) :=
  (Workflows.execute cfg task flow.definition executionId uuid).interp State.engine
    State.setEngine (carry who flow.toCalls (chooseId executionId uuid)) .exc

/-- `workflow_engine.cancel`. -/
def cancelWorkflow (task : Nat) (who : Handle) (executionId : String) : Task K Bool :=
  (Workflows.control task .cancel executionId).interp State.engine State.setEngine
    (carry who .none executionId) .exc

/-- `CapabilityManager.execute`, with the exception of its checks and of the validation of the
output. -/
def executeCapability (cfg : Workflows.Config K.Value) (task : Nat) (who : Handle)
    (refused : Option Exc) (flow : Flow K.Value) (validates : K.Value → Bool)
    (executionId : Option String) (uuid : String) : Task K (WorkflowExecution K.Value) := do
  ofCalled (match refused with
    | some e => .raised e
    | none => .returned ())
  let execution ← executeWorkflow cfg task who flow executionId uuid
  require (execution.status ≠ .succeeded || execution.result.all validates)
    (.exc .valueError)
  pure execution

/-! ### The system -/

structure Service (K : Kind) where
  serve : Nat → K.Request → Task K K.Reply
  /-- The background task of the job `n`. -/
  job : (task n : Nat) → K.Payload → Task K Unit
  action : (n : Nat) → ActionContext → K.Value → Task K K.Value

inductive Request (K : Kind)
  | call (request : K.Request)
  | job (n : Nat)
  | action (n : Nat)

def orCancelled (handle : Handle) (body : Task K α) : Task K α := do
  let flagged ← reading (·.cancelled handle)
  if flagged then do
    Proc.modify (State.deliver handle)
    throw .cancelled
  else body

def Error.toExc : Error → Exc
  | exc e => e
  | service _ | executor _ => .exception

def outcomeOf {V : Type} : Except Error V → Called V
  | .ok value => .returned value
  | .error e => .raised e.toExc

def runJob (S : Service K) (task n : Nat) (payload : K.Payload) : Task K Unit := do
  Proc.modify (State.setJob n .entered)
  let _ ← (orCancelled (.job n) (S.job task n payload)).observe
  Proc.modify (State.setJob n (.done ()))

def runActionTask (S : Service K) (n : Nat) (context : ActionContext) (value : K.Value) :
    Task K Unit := do
  Proc.modify (State.setAction n context .entered)
  let outcome ← (orCancelled (.action n) (S.action n context value)).observe
  Proc.modify (State.setAction n context (.done (outcomeOf outcome)))

def handler (S : Service K) (task : Nat) : Request K → Task K (Option K.Reply)
  | .call request => do
    let reply ← S.serve task request
    pure (some reply)
  | .job n => do
    let found ← reading (·.jobs[n]?)
    match found with
    | some (.created payload) => do
      runJob S task n payload
      pure none
    | _ => pure none
  | .action n => do
    let found ← reading (·.actions[n]?)
    match found with
    | some (context, .created value) => do
      runActionTask S n context value
      pure none
    | _ => pure none

def settles (s : State K) : (w : Wait K) → w.Value → Bool
  | .write n, ok => (s.tickets[n]?.map (·.2)) = some (if ok then .written else .failed)
  | .action n, .finished | .join n, _ => s.actionDone n
  | .action n, _ => !s.actionDone n
  | .gather jobs, _ => jobs.all s.jobDone
  | _, _ => true

/-- A task that is cancelled gets `CancelledError`, and no other does. -/
def answers (s : State K) (o : Op K) : Res o → Bool
  | .cancelled => s.cancelled o.who
  | .value a => !s.cancelled o.who && settles s o.wait a

/-- What happens outside: the clock, the threads that write, and the cancellation of any task. -/
inductive Outside
  | clock (now : DateTime)
  | flush (ticket : Nat)
  | fail (ticket : Nat)
  | cancel (handle : Handle)

def moves (s : State K) : Outside → Bool
  | .clock _ | .cancel _ => true
  | .flush n | .fail n => (s.tickets[n]?.map (·.2)) = some .waiting

def world (w : Outside) (s : State K) : State K :=
  match w with
  | .clock now => { s with now }
  | .cancel handle => s.cancel handle
  | .flush n => match s.tickets[n]? with
    | some (doc, _) => { s with disk := doc :: s.disk, tickets := s.tickets.set n (doc, .written) }
    | none => s
  | .fail n => match s.tickets[n]? with
    | some (doc, _) => { s with tickets := s.tickets.set n (doc, .failed) }
    | none => s

/-- The service with any clients. -/
def system (S : Service K) :
    System (State K) (Res (K := K)) Error (Option K.Reply) (Request K) Outside where
  handler := handler S
  admits s
    | .call _ => True
    | .job n => ∃ payload, s.jobs[n]? = some (.created payload)
    | .action n => ∃ context value, s.actions[n]? = some (context, .created value)
  answers s o r := answers s o r = true
  moves s w := moves s w = true
  world

/-- The tasks of a service. -/
abbrev Tasks (K : Kind) := Pool (State K) (Res (K := K)) Error (Option K.Reply) (Request K)

def legalMove (p : Tasks K) :
    Move (Res (K := K)) (Request K) Outside → Bool
  | .start (.call _) => true
  | .start (.job n) => match p.state.jobs[n]? with
    | some (.created _) => true
    | _ => false
  | .start (.action n) => match p.state.actions[n]? with
    | some (_, .created _) => true
    | _ => false
  | .resume j answer => match p.tasks[j]? with
    | some (_, .call o _) => answers p.state o (answer o)
    | _ => false
  | .world w => moves p.state w

theorem legalMove_legal (S : Service K) (p : Tasks K)
    (m : Move (Res (K := K)) (Request K) Outside) (h : legalMove p m = true) :
    (system S).Legal p m := by
  cases m with
  | world w => exact h
  | start t =>
    cases t with
    | call request => trivial
    | job n =>
      simp only [legalMove] at h
      split at h
      · next payload hn => exact ⟨payload, hn⟩
      · cases h
    | action n =>
      simp only [legalMove] at h
      split at h
      · next context value hn => exact ⟨context, value, hn⟩
      · cases h
  | resume j answer =>
    simp only [legalMove] at h
    split at h
    · next t o k hj => exact ⟨t, o, k, hj, h⟩
    · cases h

/-- A move of a scheduler that lets the threads write, starts tasks and answers calls. -/
def nextMove (answer : (o : Op K) → Res o)
    (p : Tasks K) :
    Option (Move (Res (K := K)) (Request K) Outside) :=
  let flushes := (List.range p.state.tickets.length).map Outside.flush
  let jobs := (List.range p.state.jobs.length).map Request.job
  let actions := (List.range p.state.actions.length).map Request.action
  let resumed := (List.range p.tasks.length).map fun j => Move.resume j answer
  (flushes.map Move.world ++ (jobs ++ actions).map Move.start ++ resumed).find? (legalMove p)

def drive (S : Service K) (answer : (o : Op K) → Res o) :
    Nat → Tasks K → Tasks K
  | 0, p => p
  | n + 1, p => match nextMove answer p with
    | some m => drive S answer n ((system S).next p m)
    | none => p

theorem reachable_drive (S : Service K) (answer : (o : Op K) → Res o) (n : Nat) {s : State K}
    {p : Tasks K}
    (reach : (system S).Reachable s p) : (system S).Reachable s (drive S answer n p) := by
  induction n generalizing p with
  | zero => exact reach
  | succ n ih =>
    rw [drive]
    cases hm : nextMove answer p with
    | none => exact reach
    | some m => exact ih (reach.next (legalMove_legal S p m (List.find?_some hm)))

end Ares.Jobs
