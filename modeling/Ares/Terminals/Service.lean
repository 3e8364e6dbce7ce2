import Ares.Coop.Protocol
import Ares.Terminals.Models

/-! The terminal service and the broker behind it.  The calls of the service work on stored copies
of plans and sessions, read and written in threads, and send requests to the broker; the broker
handles each request in a task of its own, on a table of sessions of its own.  A restart of the broker
empties that table and loses the requests that were not answered.  Two fields of the state record what
the code does not: the calls in progress, and how far each session has been taken by one of them. -/

namespace Ares.Terminals

open Coop Data Audit
open TerminalBroker (TerminalContextKind TerminalAuthorizationGrant Response)

variable (plan : TerminalPlan) (session : TerminalSession)

inductive Error
  /-- `TerminalServiceError`. -/
  | service (code : String)
  /-- `TerminalExecutorError`. -/
  | executor (code : String)
  | broker (e : TerminalBroker.Error)
  /-- `AuditLedgerError`. -/
  | audit
  | value
  | other
  | cancelled
deriving DecidableEq

inductive Document
  | plan (planId : String)
  | session (sessionId : String)
deriving DecidableEq

/-- What a call waits for, with an exception as one of the answers. -/
inductive Call
  /-- The thread of `_get`: whether there is a file that it can take.  `starting` tells the reading
  of `authorize_and_start` from the others. -/
  | read (document : Document) (starting : Bool)
  /-- The thread of `_put`. -/
  | writePlan (plan : TerminalPlan)
  | writeSession (session : TerminalSession)
  | joined
  | writeRequest (sessionId planId : String)
  | catalog
  | connect
  | reply (n : Nat)
  | append (entry : AuditEntry)

@[reducible] def Call.Answer : Call → Type
  | .read _ _ => Bool
  | .writePlan _ | .writeSession _ | .joined | .writeRequest _ _ | .connect | .append _ => Unit
  | .catalog => List ResourceCandidate
  | .reply _ => Response

inductive Op
  | call (c : Call)
  /-- A call of the broker, in the process that is the broker for this many restarts. -/
  | broker (epoch : Nat) (o : TerminalBroker.Op)

@[reducible] def Res : Op → Type
  | .call c => Except Error c.Answer
  | .broker _ o => TerminalBroker.Res o

/-- A request that was sent to the broker. -/
structure Sent where
  epoch : Nat
  request : TerminalBroker.Request

/-- How far a session has been taken: a call has read that it may be started, it has asked the broker
to start it, it has stored it as started. -/
inductive Standing
  | free
  | checked (task : Nat)
  | asked (task n : Nat)
  | settled (task : Nat)
deriving DecidableEq

def Standing.holder : Standing → Option Nat
  | free | settled _ => none
  | checked task | asked task _ => some task

structure State where
  plans : String → Option TerminalPlan
  sessions : String → Option TerminalSession
  /-- How many values `uuid4` has given to the service. -/
  drawn : Nat
  broker : TerminalBroker.State
  epoch : Nat
  sent : List Sent
  taken : Nat → Option Nat
  answered : Nat → Option (Except String Response)
  working : List Nat
  standing : String → Standing

structure Config where
  broker : TerminalBroker.Config
  lib : Library
  uuid4 : Nat → String
  apiUid : Int
  /-- `settings.environment is Environment.TEST`. -/
  test : Bool

abbrev Task := Proc State Res Error

namespace State

def storePlan (s : State) : State :=
  { s with plans := Function.update s.plans plan.id (some plan) }

def storeSession (s : State) : State :=
  { s with sessions := Function.update s.sessions session.id (some session) }

def draw (s : State) : State := { s with drawn := s.drawn + 1 }

def send (request : TerminalBroker.Request) (s : State) : State :=
  { s with sent := s.sent ++ [⟨s.epoch, request⟩] }

def take (task n : Nat) (s : State) : State :=
  { s with taken := Function.update s.taken n (some task) }

def answer (n : Nat) (reply : Except String Response) (s : State) : State :=
  { s with answered := Function.update s.answered n (some reply) }

def stand (sessionId : String) (standing : Standing) (s : State) : State :=
  { s with standing := Function.update s.standing sessionId standing }

def startable (s : State) (sessionId : String) : Bool :=
  (s.sessions sessionId).any (·.status.startable)

def check (task : Nat) (sessionId : String) (there : Bool) (s : State) : State :=
  if there && s.startable sessionId then s.stand sessionId (.checked task) else s

def begin (task : Nat) (s : State) : State := { s with working := task :: s.working }

def leave (task : Nat) (s : State) : State :=
  { s with
    working := s.working.filter (· ≠ task)
    standing := fun sessionId =>
      if (s.standing sessionId).holder = some task then .free else s.standing sessionId }

/-- The broker's process ends and another one takes its place. -/
def restart (s : State) : State :=
  { s with
    epoch := s.epoch + 1
    broker := { s.broker with grants := fun _ => none, sessions := fun _ => none } }

/-- A service and a broker on what is stored. -/
def initial (plans : String → Option TerminalPlan) (sessions : String → Option TerminalSession)
    (broker : TerminalBroker.State) : State where
  plans
  sessions
  drawn := 0
  broker
  epoch := 0
  sent := []
  taken _ := none
  answered _ := none
  working := []
  standing _ := .free

end State

/-- A call whose exception goes on. -/
def attempt (c : Call) : Task c.Answer := Proc.attempt (Op.call c) fun r => r

/-! ### The store -/

/-- `_safe_id`. -/
def safeId (value : String) : Bool :=
  value ≠ "" && value.toList.all fun c => c.isAlphanum || c = '_' || c = '-'

def getPlan (planId : String) : Task (Option TerminalPlan) := do
  require (safeId planId) .value
  let there ← attempt (.read (.plan planId) false)
  let plan ← reading fun s => if there then s.plans planId else none
  attempt .joined
  pure plan

/-- `get_session`; the state also keeps what `mark` makes of the reading. -/
def getSession (starting : Bool) (mark : Bool → State → State) (sessionId : String) :
    Task (Option TerminalSession) := do
  require (safeId sessionId) .value
  let there ← attempt (.read (.session sessionId) starting)
  let session ← reading fun s => if there then s.sessions sessionId else none
  Proc.modify (mark there)
  attempt .joined
  pure session

def putPlan : Task Unit := do
  require (safeId plan.id) .value
  attempt (.writePlan plan)
  Proc.modify (State.storePlan plan)
  attempt .joined

def putSession (mark : State → State) : Task Unit := do
  require (safeId session.id) .value
  attempt (.writeSession session)
  Proc.modify fun s => mark (s.storeSession session)
  attempt .joined

/-! ### The executor -/

/-- `_request`; the state also keeps what `mark` makes of the number of the request. -/
def ask (request : TerminalBroker.Request) (mark : Nat → State → State) : Task Response := do
  attempt .connect
  let n ← reading fun s => s.sent.length
  Proc.modify fun s => mark n (s.send request)
  attempt (.reply n)

def responseInvalid : Error := .executor "TERMINAL_BROKER_RESPONSE_INVALID"

def grantOf : Response → Task TerminalAuthorizationGrant
  | .grant grant => pure grant
  | _ => throw responseInvalid

def sessionOf : Response → Task TerminalSession
  | .session session => pure (.ofBroker session)
  | _ => throw responseInvalid

def authorizeRequest (operatorUid : Int) : TerminalBroker.Request where
  forbidden := false
  action := .authorize (some plan.toTerminalPlan) (some operatorUid)

def startRequest (grant : TerminalAuthorizationGrant) :
    TerminalBroker.Request where
  forbidden := false
  action := .start (some plan.toTerminalPlan) (some grant)

def closeRequest (sessionId : String) : TerminalBroker.Request where
  forbidden := false
  action := .close (some sessionId)

/-! ### The calls -/

variable (cfg : Config) (task : Nat) (plan : TerminalPlan) (session : TerminalSession)

/-- `_audit`. -/
def audit (eventType sessionId : String) (payload : Fields) : Task Unit :=
  Proc.handle
    (attempt (.append {
      eventType
      source := "ares-api"
      correlationId := sessionId
      sessionId
      payload }))
    fun e => if e = .audit && cfg.test then pure () else throw e

def isSystem (resource : ResourceCandidate) : Bool := resource.kind = .operatingSystem

/-- What `_resolve_installed_target` finds in the catalog. -/
def installedTarget (resourceId : Option String) (catalog : List ResourceCandidate) :
    Except Error ResourceCandidate :=
  let installed := catalog.filter isSystem
  match resourceId with
  | some resourceId =>
    (installed.find? (·.resourceId = resourceId)).elim
      (.error (.service "TERMINAL_TARGET_NOT_FOUND")) .ok
  | none =>
    match installed with
    | [resource] => .ok resource
    | [] => .error (.service "TERMINAL_TARGET_NOT_FOUND")
    | _ => .error (.service "TERMINAL_TARGET_AMBIGUOUS")

/-- `_resolve_installed_target`. -/
def resolveInstalledTarget (resourceId : Option String) : Task ResourceCandidate := do
  let catalog ← attempt .catalog
  let resource ← Proc.ofExcept (installedTarget resourceId catalog)
  require (!unsafePath resource.technicalPath) (.service "TERMINAL_TARGET_UNSAFE")
  pure resource

def planTarget (request : TerminalPlanRequest) : Task (Option ResourceCandidate) :=
  match request.contextKind with
  | .aresLocal => pure none
  | .installedSystemReadOnly => do
    let resource ← resolveInstalledTarget request.resourceId
    pure (some resource)
  | _ => throw (.service "TERMINAL_CONTEXT_BLOCKED")

/-- `uuid4().hex`. -/
def draw : Task String := do
  let n ← reading State.drawn
  Proc.modify State.draw
  pure (cfg.uuid4 n)

def plannedSession (now : DateTime) : TerminalSession where
  id := plan.sessionId
  planId := plan.id
  contextKind := plan.contextKind
  status := if plan.requiresAuthorization then .authorizationRequired else .planned
  createdAt := now
  authorizedAt := none
  startedAt := none
  closedAt := none
  expiresAt := plan.expiresAt
  cleanupStatus := .notStarted
  errorCode := none
  technicalDetails := []

def createPlan (request : TerminalPlanRequest) : Task TerminalPlanResult := do
  let target ← planTarget request
  let sessionId ← draw cfg
  let id ← draw cfg
  let now ← reading (·.broker.now)
  let plan := planFor cfg.lib cfg.broker.lib.fingerprint id sessionId request.contextKind target now
  let session := plannedSession plan now
  putPlan plan
  putSession session fun s => s
  audit cfg "terminal.plan.created" plan.sessionId
    [("plan_id", .str plan.id), ("context_kind", .str plan.contextKind.value),
      ("target_resource_id", .optStr (target.map (·.resourceId))),
      ("target_fingerprint", .optStr plan.targetFingerprint),
      ("plan_fingerprint", .str plan.fingerprintSha256)]
  pure { plan, session }

/-- `_revalidate_target`. -/
def revalidateTarget : Task Unit := do
  require plan.target.isSome (.service "TERMINAL_TARGET_NOT_FOUND")
  let catalog ← attempt .catalog
  let resource ← ofOption (.service "TERMINAL_TARGET_NOT_FOUND")
    (catalog.find? fun resource => some resource.resourceId = plan.targetResourceId)
  let current := targetOf cfg.lib resource
  require (some current.fingerprint = plan.targetFingerprint)
    (.service "TERMINAL_TARGET_FINGERPRINT_CHANGED")
  require (!unsafePath current.technicalPath) (.service "TERMINAL_TARGET_UNSAFE")

def localSession (now : DateTime) : TerminalSession :=
  { session with
    status := .active
    authorizedAt := some now
    startedAt := some now
    cleanupStatus := .notRequired
    technicalDetails := [("launcher_request", session.id ++ ".json")] }

/-- `_start_local`. -/
def startLocal : Task TerminalSession := do
  attempt (.writeRequest session.id plan.id)
  let now ← reading (·.broker.now)
  pure (localSession session now)

/-- The authorization and the start by the executor. -/
def execute (operatorUid : Int) : Task TerminalSession := do
  let granted ← ask (authorizeRequest plan operatorUid) fun _ s => s
  let grant ← grantOf granted
  let started ← ask (startRequest plan grant) fun n => State.stand plan.sessionId (.asked task n)
  sessionOf started

def failedSession (code : String) : TerminalSession :=
  { session with status := .failed, errorCode := some code }

def failStart : Error → Task TerminalSession
  | .executor code => do
    putSession (failedSession session code) id
    throw (.service code)
  | e => throw e

def startInstalled (operatorUid : Int) :
    Task TerminalSession := do
  revalidateTarget cfg plan
  Proc.handle (execute task plan operatorUid) (failStart session)

def startSession (operatorUid : Int) :
    Task TerminalSession :=
  match plan.contextKind with
  | .aresLocal => startLocal plan session
  | .installedSystemReadOnly => startInstalled cfg task plan session operatorUid
  | _ => throw (.service "TERMINAL_CONTEXT_BLOCKED")

def expireSession : Task TerminalStartResult := do
  putSession { session with status := .expired } id
  throw (.service "TERMINAL_PLAN_EXPIRED")

def confirmed (payload : TerminalAuthorizationRequest) : Bool :=
  !plan.requiresAuthorization ||
    payload.confirm && payload.understood = some plan.confirmationPhrase

/-- The end of `authorize_and_start`, for a plan that has not expired. -/
def startPlan
    (payload : TerminalAuthorizationRequest) (operatorUid : Int) : Task TerminalStartResult := do
  require (confirmed plan payload)
    (.service "TERMINAL_AUTHORIZATION_CONFIRMATION_REQUIRED")
  let started ← startSession cfg task plan session operatorUid
  putSession started (State.stand plan.sessionId (.settled task))
  audit cfg "terminal.session.started" started.id
    [("plan_id", .str plan.id), ("context_kind", .str plan.contextKind.value),
      ("plan_fingerprint", .str plan.fingerprintSha256),
      ("target_fingerprint", .optStr plan.targetFingerprint)]
  pure {
    accepted := true
    session := started
    plan
    message := "Terminal autorizada e iniciada. La interacción ocurre fuera del navegador." }

def authorizeAndStart (planId : String) (payload : TerminalAuthorizationRequest)
    (operatorUid : Int) : Task TerminalStartResult := do
  let plan ← getPlan planId
  let plan ← ofOption (.service "TERMINAL_PLAN_NOT_FOUND") plan
  let session ← getSession true (State.check task plan.sessionId) plan.sessionId
  let session ← ofOption (.service "TERMINAL_SESSION_NOT_FOUND") session
  require session.status.startable (.service "TERMINAL_SESSION_STATE_INVALID")
  let now ← reading (·.broker.now)
  if plan.expiresAt ≤ now then expireSession session
  else startPlan cfg task plan session payload operatorUid

def closedLocally (now : DateTime) : TerminalSession :=
  { session with status := .closed, closedAt := some now, cleanupStatus := .verified }

def uncleanSession (code : String) : TerminalSession :=
  { session with
    status := .cleanupRequired
    errorCode := some code
    cleanupStatus := .required }

/-- `executor.close`. -/
def executorClose (sessionId : String) : Task TerminalSession := do
  let closed ← ask (closeRequest sessionId) fun _ s => s
  sessionOf closed

def failClose : Error → Task TerminalSession
  | .executor code => pure (uncleanSession session code)
  | e => throw e

def closeSession (sessionId : String) :
    Task TerminalSession :=
  match plan.contextKind with
  | .aresLocal => do
    let now ← reading (·.broker.now)
    pure (closedLocally session now)
  | _ => Proc.handle (executorClose sessionId) (failClose session)

/-- The end of `close`, for a session that is not stored as closed. -/
def closePlan (sessionId : String) :
    Task TerminalStartResult := do
  let closed ← closeSession plan session sessionId
  putSession closed id
  audit cfg "terminal.session.closed" sessionId
    [("plan_id", .str plan.id), ("status", .str closed.status.value),
      ("cleanup_status", .str closed.cleanupStatus.value)]
  pure {
    accepted := closed.status = .closed
    session := closed
    plan
    message := "Cierre de terminal procesado." }

def close (sessionId : String) : Task TerminalStartResult := do
  let session ← getSession false (fun _ s => s) sessionId
  let session ← ofOption (.service "TERMINAL_SESSION_NOT_FOUND") session
  let plan ← getPlan session.planId
  let plan ← ofOption (.service "TERMINAL_PLAN_NOT_FOUND") plan
  if session.status = .closed then
    pure {
      accepted := true
      session
      plan
      message := "La terminal ya estaba cerrada y reconciliada." }
  else closePlan cfg plan session sessionId

/-! ### The requests of the broker -/

/-- The client reads what `handle` sends; a cancelled task sends nothing and closes the connection. -/
def codeOf : TerminalBroker.Error → String
  | .broker code => code
  | .permission => "BROKER_FORBIDDEN"
  | .audit => "AUDIT_LEDGER_UNAVAILABLE"
  | .cancelled => "TERMINAL_BROKER_DISCONNECTED"
  | _ => "BROKER_FAILED"

def replyOf : Except Error Response → Except String Response
  | .ok response => .ok response
  | .error (.broker e) => .error (codeOf e)
  | .error _ => .error "BROKER_FAILED"

def dispatched (sent : Sent) : Task Response :=
  (TerminalBroker.dispatch cfg.broker task sent.request cfg.apiUid).interp State.broker
    (fun broker s => { s with broker }) (fun o => perform (Op.broker sent.epoch o)) Error.broker

def handleSent (n : Nat) : Option Sent → Task Unit
  | none => pure ()
  | some sent => do
    let r ← (dispatched cfg task sent).observe
    Proc.modify (State.answer n (replyOf r))

def serve (n : Nat) : Task Unit := do
  Proc.modify (State.take task n)
  let sent ← reading fun s => s.sent[n]?
  handleSent cfg task n sent

/-! ### The service and the broker -/

inductive Request
  | createPlan (request : TerminalPlanRequest)
  | authorizeAndStart (planId : String) (payload : TerminalAuthorizationRequest)
      (operatorUid : Int)
  | close (sessionId : String)
  | serve (n : Nat)
deriving DecidableEq

inductive Outcome
  | planned (result : TerminalPlanResult)
  | started (result : TerminalStartResult)
  | closed (result : TerminalStartResult)
  | served
deriving DecidableEq

def inProgress (p : Task Outcome) : Task Outcome := do
  Proc.modify (State.begin task)
  Proc.andFinally p (Proc.modify (State.leave task))

def handler : Request → Task Outcome
  | .createPlan request => inProgress task do
    let result ← createPlan cfg request
    pure (.planned result)
  | .authorizeAndStart planId payload operatorUid => inProgress task do
    let result ← authorizeAndStart cfg task planId payload operatorUid
    pure (.started result)
  | .close sessionId => inProgress task do
    let result ← close cfg sessionId
    pure (.closed result)
  | .serve n => do
    serve cfg task n
    pure .served

/-- What happens outside: the clock and the machine of the broker, and its restarts. -/
inductive World
  | outside (now : DateTime) (machine : TerminalBroker.Machine)
  | restart

def State.open (s : State) (n : Nat) : Prop :=
  ∃ sent, s.sent[n]? = some sent ∧ sent.epoch = s.epoch ∧ s.taken n = none

/-- The service and the broker: a reply is what the broker has answered, or an exception. -/
def system : System State Res Error Outcome Request World where
  handler := handler cfg
  admits s
    | .serve n => s.open n
    | _ => True
  answers s
    | .call (.reply n), .ok response => s.answered n = some (.ok response)
    | .call _, _ => True
    | .broker epoch _, _ => epoch = s.epoch
  moves _ _ := True
  world
    | .outside now machine, s => { s with broker := { s.broker with now, machine } }
    | .restart, s => s.restart

end Ares.Terminals
