import Ares.Agent.Plan
import Ares.Coop.Pool

/-! The agent orchestrator: the calls that start, authorize, execute and cancel a run.  A call reads
the stored run in one thread and writes its own copy in others, and gives up control at each of its
waits.  A thread goes on when its call is cancelled: the call counts as in progress until the thread
has ended.  Four fields of the state record what the code does not: which run each call is working on,
which call has read the authorization of a run as not consumed and whether it has still to store its
completed run, and the history. -/

namespace Ares.Agent

open Coop Data Storage

variable (cfg : Config) (task : Nat)

inductive Error
  /-- `AgentOrchestratorError`. -/
  | agent (code : String)
  /-- Every other exception, with its attribute `code`. -/
  | exception (code : Option String)
  | cancelled
deriving DecidableEq

/-- `getattr(exc, "code", None)`. -/
def Error.code : Error → Option String
  | .agent code => some code
  | .exception code => code
  | .cancelled => none

inductive Request
  | start (request : AgentRunRequest) (sessionId : String)
  | authorizeReadOnly (runId : String) (payload : AgentAuthorizationRequest)
      (sessionId operator : String)
  | execute (runId sessionId : String)
  | cancel (runId sessionId : String)
deriving DecidableEq

structure StorageAnalysisResponse where
  message : String
  snapshotId : String
  diagnosticId : String
deriving DecidableEq

structure CapabilityExecution where
  status : String
  result : Option Fields
  errorCode : Option String

/-- What a call waits for, with an exception as one of the answers. -/
inductive Call
  | thread
  | reading (request : Request)
  | read (request : Request)
  | loaded (request : Request) (run : Option AgentRun)
  | catalog (request : Request) (run : Option AgentRun)
  | plan (goal : String) (evidence : List EvidenceFact)
  | publish (event runId : String)
  | analyze
  | execute (capabilityId : String) (payload : Fields)

@[reducible] def Call.Answer : Call → Type
  | .thread | .reading _ | .loaded _ _ | .publish _ _ => Unit
  | .read _ => Bool
  | .catalog _ _ => List ResourceCandidate
  | .plan _ _ => Json
  | .analyze => StorageAnalysisResponse
  | .execute _ _ => CapabilityExecution

inductive Op
  | call (c : Call)
  | uuid4
  | write (task : Nat) (run : AgentRun)

@[reducible] def Res : Op → Type
  | .call c => Except Error c.Answer
  | .uuid4 => String
  | .write _ _ => Bool

inductive Event
  | received (task : Nat) (request : Request)
  | found (task : Nat) (now : DateTime) (run : AgentRun)
  | catalogued (task : Nat) (resources : List ResourceCandidate)
  | granted (task : Nat) (authorization : ReadOnlyAuthorization)
  | stored (task : Nat) (run : AgentRun)
  | started (task : Nat) (runId capabilityId : String)
  | finished (task : Nat) (capabilityId : String) (succeeded : Bool)

structure State where
  now : DateTime
  runs : String → Option AgentRun
  /-- The identifiers that `uuid4` has returned. -/
  drawn : List String
  /-- The run that a call is working on: it has drawn its identifier, or it has read the run before
  the run ended. -/
  working : Nat → Option String
  /-- The execution that was the last to read the authorization of a run as not consumed. -/
  spender : String → Option Nat
  spending : String → Bool
  history : List Event

abbrev Task := Proc State Res Error

/-- The states that `execute` leaves. -/
def finished : AgentRunState → Bool
  | .completed | .partiallyCompleted | .failed => true
  | _ => false

namespace State

def note (e : Event) (s : State) : State := { s with history := e :: s.history }

/-- The state of a stored run. -/
def status (s : State) (runId : String) : Option AgentRunState := (s.runs runId).map (·.state)

def draw (id : String) (s : State) : State := { s with drawn := id :: s.drawn }

/-- A new run is worked on under its identifier. -/
def create (id : String) (s : State) : State :=
  { s with drawn := id :: s.drawn, working := Function.update s.working task (some id) }

def read (request : Request) (runId : String) (s : State) : State :=
  { s with
    working :=
      if (s.runs runId).any fun run => !run.state.ended then
        Function.update s.working task (some runId)
      else s.working
    spender := match request with
      | .execute _ _ =>
        if (s.runs runId).any (·.unspent) then Function.update s.spender runId (some task)
        else s.spender
      | _ => s.spender
    spending := match request with
      | .execute _ _ =>
        if (s.runs runId).any (·.unspent) then Function.update s.spending runId true else s.spending
      | _ => s.spending }

/-- `os.replace(temporary, path)`. -/
def store (run : AgentRun) (s : State) : State :=
  { s with
    runs := Function.update s.runs run.id (some run)
    working := if run.state.ended then Function.update s.working task none else s.working
    spending := if finished run.state then Function.update s.spending run.id false else s.spending
    history := .stored task run :: s.history }

def finish (s : State) : State :=
  { s with working := Function.update s.working task none }

/-- An orchestrator on the runs of a directory. -/
def initial (now : DateTime) (runs : String → Option AgentRun) (drawn : List String) : State where
  now
  runs
  drawn
  working _ := none
  spender _ := none
  spending _ := false
  history := []

end State

/-- A call whose exception goes on. -/
def attempt (c : Call) : Task c.Answer := Proc.attempt (Op.call c) fun r => r

/-! ### The store -/

/-- `_safe_id`. -/
def safeId (value : String) : Bool :=
  value ≠ "" && value.length ≤ 64 &&
    value.toList.all fun c => cfg.isalnum c || c = '-' || c = '_'

/-- What the thread of `_write` leaves. -/
def write (run : AgentRun) (written : Bool) : Task Unit :=
  if written then Proc.modify (State.store task run) else pure ()

def put (run : AgentRun) : Task Unit := do
  attempt .thread
  let written ← perform (Op.write task run)
  write task run written
  attempt .thread
  require written (.exception none)

def readRun (request : Request) (runId : String) : Task (Option AgentRun) := do
  let readable ← attempt (.read request)
  if readable then
    Proc.modify (State.read task request runId)
    reading fun s => s.runs runId
  else pure none

def get (request : Request) (runId : String) :
    Task (Option AgentRun) := do
  if safeId cfg runId then
    attempt (.reading request)
    let run ← readRun task request runId
    attempt (.loaded request run)
    pure run
  else pure none

/-- `_required`. -/
def required (request : Request) (runId : String) : Task AgentRun := do
  let run ← get cfg task request runId
  let run ← ofOption (.agent "AGENT_RUN_NOT_FOUND") run
  let now ← reading (·.now)
  Proc.modify (State.note (.found task now run))
  pure run

/-! ### The calls -/

def catalog (request : Request) (run : Option AgentRun) :
    Task (List ResourceCandidate) := do
  let resources ← attempt (.catalog request run)
  Proc.modify (State.note (.catalogued task resources))
  pure resources

def newRun (request : AgentRunRequest) (selected : Option ResourceCandidate)
    (resources : List ResourceCandidate) (backendPlan : Json) (id : String) (now : DateTime) :
    AgentRun where
  id
  objective := request.objective
  state := .readOnlyAuthorizationRequired
  createdAt := now
  updatedAt := now
  selectedResourceId := selected.map (·.resourceId)
  selectedResourceFingerprint := selected.map (·.stableIdentity)
  resources
  backendPlan := some backendPlan
  steps := diagnosticSteps cfg request.objective (selected.map (·.resourceId))
    ((evidenceFromResources resources).map (·.id))
  authorization := none
  summary := "Plan propuesto. Todavía no se ha ejecutado ningún diagnóstico."
  limitations :=
    if mentionsBoot cfg request.objective then
      ["boot.repair.grub todavía no existe; ARES puede diagnosticar evidencia " ++
        "de arranque de solo lectura, pero no reparar GRUB en esta fase."]
    else []
  events := ["agent.run.created", "agent.authorization.read_only.required"]

def start (request : AgentRunRequest) (sessionId : String) :
    Task AgentRun := do
  let resources ← catalog task (.start request sessionId) none
  let named := selectResource resources request.resourceId
  require (named.isSome || request.resourceId.isNone) (.agent "AGENT_RESOURCE_NOT_FOUND")
  let selected := named <|> recommended resources
  let backendPlan ← attempt
    (.plan (plannerGoal cfg request.objective) (evidenceFromResources resources))
  let id ← perform Op.uuid4
  Proc.modify (State.create task id)
  let now ← reading (·.now)
  let run := newRun cfg request selected resources backendPlan id now
  put task run
  attempt (.publish "agent.run.created" run.id)
  pure run

def invalidatedRun (run : AgentRun) (reason : String) (now : DateTime) : AgentRun :=
  { run with
    state := .invalidated
    updatedAt := now
    steps := run.steps.map (AgentPlanStep.withState .invalidated)
    summary := "El plan fue invalidado antes de ejecutar: " ++ reason ++ "."
    events := run.events ++ ["agent.run.invalidated"] }

/-- `_invalidate`. -/
def invalidate (run : AgentRun) (reason : String) : Task AgentRun := do
  let now ← reading (·.now)
  let invalidated := invalidatedRun run reason now
  put task invalidated
  attempt (.publish "agent.run.invalidated" invalidated.id)
  pure invalidated

def identityChanged (run : AgentRun) (selected : Option ResourceCandidate) : Bool :=
  selected.any fun item =>
    run.selectedResourceFingerprint.any fun fingerprint => item.stableIdentity ≠ fingerprint

def newAuthorization (run : AgentRun) (selected : Option ResourceCandidate)
    (operator id : String) (now : DateTime) : ReadOnlyAuthorization where
  id
  runId := run.id
  stepIds := (run.steps.filter (·.requiresAuthorization)).map (·.id)
  capabilityIds := (run.steps.filter (·.requiresAuthorization)).filterMap (·.capabilityId)
  resourceFingerprints := (selected.map (·.stableIdentity)).toList
  grantedBy := operator
  objective := run.objective
  risk := "low"
  operationClass := "observe"
  targetResourceId := selected.map (·.resourceId)
  targetResourceName := selected.map (·.humanName)
  planFingerprint := runFingerprint cfg run selected
  grantedAt := now
  expiresAt := now + minutes 5
  consumed := false

def authorizedRun (run : AgentRun) (authorization : ReadOnlyAuthorization) (now : DateTime) :
    AgentRun :=
  { run with
    state := .planReady
    updatedAt := now
    authorization := some authorization
    steps := run.steps.map fun step =>
      if step.requiresAuthorization then step.withState .authorized else step
    summary :=
      "Autorización limitada de solo lectura concedida. Aún no hay mutaciones autorizadas."
    events := run.events ++ ["agent.authorization.read_only.granted"] }

def authorizationPhrase : String := "AUTORIZO SOLO LECTURA"

def AgentAuthorizationRequest.confirmed (payload : AgentAuthorizationRequest) : Bool :=
  payload.confirm && payload.understood = some authorizationPhrase

/-- The end of `authorize_read_only`, for the resource that the plan was made for. -/
def grant (run : AgentRun) (selected : Option ResourceCandidate)
    (operator : String) : Task AgentRun := do
  let id ← perform Op.uuid4
  Proc.modify (State.draw id)
  let now ← reading (·.now)
  let authorization := newAuthorization cfg run selected operator id now
  Proc.modify (State.note (.granted task authorization))
  let updated := authorizedRun run authorization now
  put task updated
  attempt (.publish "agent.authorization.read_only.granted" updated.id)
  pure updated

def authorizeReadOnly (runId : String)
    (payload : AgentAuthorizationRequest) (sessionId operator : String) : Task AgentRun := do
  let request := Request.authorizeReadOnly runId payload sessionId operator
  let run ← required cfg task request runId
  require (run.state = .readOnlyAuthorizationRequired)
    (.agent "AGENT_AUTHORIZATION_NOT_REQUIRED")
  require payload.confirmed (.agent "AGENT_AUTHORIZATION_CONFIRMATION_REQUIRED")
  let resources ← catalog task request (some run)
  let selected := selectResource resources run.selectedResourceId
  if selected.isNone && run.selectedResourceId.isSome then
    invalidate task run "selected_resource_missing"
  else if identityChanged run selected then
    invalidate task run "selected_resource_identity_changed"
  else grant cfg task run selected operator

/-! ### The diagnostics of a run -/

/-- What the loop of `execute` has done so far. -/
structure Progress where
  /-- `completed_steps`. -/
  steps : List AgentPlanStep
  snapshotId : Option String
  diagnosticId : Option String
  succeeded : List String
  failedCapabilities : List String
  storageFailed : Bool

namespace Progress

variable (p : Progress) (index : Nat) (step : AgentPlanStep) (capabilityId : String)

/-- The step is not run, because the storage evidence is missing. -/
def block : Progress :=
  { p with
    steps := p.steps.set index
      { step with state := .blocked, errorCode := some "DIAGNOSTIC_DEPENDENCY_FAILED" }
    failedCapabilities := p.failedCapabilities ++ [capabilityId] }

def succeed (result : Fields) : Progress :=
  { p with
    steps := p.steps.set index { step with state := .completed, result := some result }
    succeeded := p.succeeded ++ [capabilityId] }

def fail (errorCode : String) : Progress :=
  { p with
    steps := p.steps.set index { step with state := .failed, errorCode := some errorCode }
    failedCapabilities := p.failedCapabilities ++ [capabilityId]
    storageFailed := p.storageFailed || capabilityId = diskAnalysis }

end Progress

/-- The result of an execution that succeeded. -/
def CapabilityExecution.succeeded (execution : CapabilityExecution) : Except Error Fields :=
  match execution.result with
  | some result =>
    if execution.status = "succeeded" then .ok result
    else .error (.agent (errorCode execution))
  | none => .error (.agent (errorCode execution))
where
  /-- `execution.error_code or "DIAGNOSTIC_CAPABILITY_FAILED"`. -/
  errorCode (execution : CapabilityExecution) : String :=
    (execution.errorCode.filter (· ≠ "")).getD "DIAGNOSTIC_CAPABILITY_FAILED"

def invoke (running : AgentRun) (capabilityId : String) (p : Progress) :
    Task (Progress × Fields) := do
  Proc.modify (State.note (.started task running.id capabilityId))
  if capabilityId = diskAnalysis then
    let analysis ← attempt .analyze
    pure ({ p with
        snapshotId := some analysis.snapshotId, diagnosticId := some analysis.diagnosticId },
      [("snapshot_id", .str analysis.snapshotId), ("diagnostic_id", .str analysis.diagnosticId),
        ("message", .str analysis.message)])
  else
    let execution ← attempt (.execute capabilityId
      (capabilityPayload capabilityId p.snapshotId running.selectedResourceId))
    let result ← Proc.ofExcept execution.succeeded
    pure (p, result)

/-- The `try` of the loop: every exception but a cancellation is kept as the error of the step. -/
def runStep (running : AgentRun) (index : Nat) (step : AgentPlanStep)
    (capabilityId : String) (p : Progress) : Task Progress := do
  let outcome ← (invoke task running capabilityId p).observe
  match outcome with
  | .ok (p', result) =>
    Proc.modify (State.note (.finished task capabilityId true))
    pure (p'.succeed index step capabilityId result)
  | .error .cancelled => throw .cancelled
  | .error e =>
    Proc.modify (State.note (.finished task capabilityId false))
    pure (p.fail index step capabilityId (e.code.getD "DIAGNOSTIC_CAPABILITY_FAILED"))

def progressRun (running : AgentRun) (p : Progress) (now : DateTime) : AgentRun :=
  { running with
    updatedAt := now
    steps := p.steps
    summary := "Diagnósticos completados: " ++ toString p.succeeded.length ++ " de " ++
      toString running.steps.length ++ "." }

def diagnose (running : AgentRun) (authorization : ReadOnlyAuthorization) :
    Nat → List AgentPlanStep → Progress → Task Progress
  | _, [], p => pure p
  | index, step :: rest, p =>
    match step.capabilityId with
    | none => diagnose running authorization (index + 1) rest p
    | some capabilityId =>
      if !authorization.stepIds.contains step.id then
        diagnose running authorization (index + 1) rest p
      else if p.storageFailed then
        diagnose running authorization (index + 1) rest (p.block index step capabilityId)
      else do
        let p' ← runStep task running index step capabilityId p
        let now ← reading (·.now)
        put task (progressRun running p' now)
        diagnose running authorization (index + 1) rest p'

def runningRun (run : AgentRun) (authorization : ReadOnlyAuthorization) (now : DateTime) :
    AgentRun :=
  { run with
    state := .runningDiagnostic
    updatedAt := now
    steps := run.steps.map fun step =>
      if authorization.stepIds.contains step.id then step.withState .executing else step
    summary := "Ejecutando revisión de solo lectura mediante backend."
    events := run.events ++ ["agent.diagnostic.started"] }

def finalState (running : AgentRun) (p : Progress) : AgentRunState :=
  if p.succeeded.isEmpty then .failed
  else if !p.failedCapabilities.isEmpty || !running.limitations.isEmpty then .partiallyCompleted
  else .completed

def completedRun (running : AgentRun) (authorization : ReadOnlyAuthorization) (p : Progress)
    (refreshed : List ResourceCandidate) (now : DateTime) : AgentRun :=
  { running with
    state := finalState running p
    updatedAt := now
    resources := refreshed
    authorization := some { authorization with consumed := true }
    steps := p.steps
    summary := "Diagnóstico read-only: " ++ toString p.succeeded.length ++
      " capability(s) completada(s), " ++ toString p.failedCapabilities.length ++
      " fallida(s) o bloqueada(s). No se ejecutó ninguna reparación."
    events := running.events ++
      [if finalState running p = .failed then "agent.diagnostic.failed"
        else "agent.diagnostic.completed"] }

/-- The rest of `execute`, once the authorization was found valid. -/
def runDiagnostics (request : Request) (run : AgentRun)
    (authorization : ReadOnlyAuthorization) : Task AgentRun := do
  let now ← reading (·.now)
  let running := runningRun run authorization now
  put task running
  attempt (.publish "agent.diagnostic.started" running.id)
  let p ← diagnose task running authorization 0 running.steps
    { steps := running.steps, snapshotId := none, diagnosticId := none, succeeded := [],
      failedCapabilities := [], storageFailed := false }
  let refreshed ← catalog task request none
  let now ← reading (·.now)
  let completed := completedRun running authorization p refreshed now
  put task completed
  attempt (.publish
    (if completed.state = .failed then "agent.diagnostic.failed" else "agent.diagnostic.completed")
    completed.id)
  pure completed

def execute (runId sessionId : String) : Task AgentRun := do
  let request := Request.execute runId sessionId
  let run ← required cfg task request runId
  let authorization ← ofOption (.agent "AGENT_AUTHORIZATION_REQUIRED")
    (run.authorization.filter fun a => !a.consumed)
  let now ← reading (·.now)
  if authorization.expiresAt ≤ now then
    invalidate task run "authorization_expired"
  else
    let resources ← catalog task request (some run)
    let selected := selectResource resources run.selectedResourceId
    if identityChanged run selected then
      invalidate task run "selected_resource_identity_changed"
    else if authorization.planFingerprint ≠ runFingerprint cfg run selected then
      invalidate task run "authorized_plan_fingerprint_changed"
    else runDiagnostics task request run authorization

def cancelledRun (run : AgentRun) (now : DateTime) : AgentRun :=
  { run with
    state := .cancelled
    updatedAt := now
    steps := run.steps.map fun step =>
      match step.state with
      | .draft | .ready | .authorizationRequired | .authorized | .executing =>
        step.withState .cancelled
      | _ => step
    summary := "Operación cancelada. No se autorizó ni ejecutó ninguna mutación."
    events := run.events ++ ["agent.run.cancelled"] }

def cancel (runId sessionId : String) : Task AgentRun := do
  let run ← required cfg task (.cancel runId sessionId) runId
  match run.state with
  | .completed | .failed | .cancelled | .invalidated => pure run
  | _ =>
    let now ← reading (·.now)
    let cancelled := cancelledRun run now
    put task cancelled
    attempt (.publish "agent.run.cancelled" cancelled.id)
    pure cancelled

/-! ### The system -/

def dispatch : Request → Task AgentRun
  | .start request sessionId => start cfg task request sessionId
  | .authorizeReadOnly runId payload sessionId operator =>
    authorizeReadOnly cfg task runId payload sessionId operator
  | .execute runId sessionId => execute cfg task runId sessionId
  | .cancel runId sessionId => cancel cfg task runId sessionId

def handler (request : Request) : Task AgentRun := do
  Proc.modify (State.note (.received task request))
  (dispatch cfg task request).andFinally (Proc.modify (State.finish task))

/-- The calls of the orchestrator in any order, with any answers from outside; the world sets the
clock. -/
def system : System State Res Error AgentRun Request DateTime where
  handler := handler cfg
  admits _ _ := True
  answers s o r := match o with
    | .uuid4 => (r : String) ∉ s.drawn
    | _ => True
  moves _ _ := True
  world now s := { s with now }

end Ares.Agent
