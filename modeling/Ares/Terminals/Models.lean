import Ares.Agent.Models
import Ares.TerminalBroker.Dispatch

/-! The typed contracts of the terminal service: the plans and sessions that it stores, what it reads
of the resources, and which sessions block an exit. -/

namespace Ares.Terminals

open Data
open Agent (ResourceKind)
open TerminalBroker (TerminalContextKind TerminalTarget TerminalAuthorizationGrant PlanPayload)

inductive TerminalSessionStatus
  | planned | authorizationRequired | authorized | starting | active | closing | closed | expired
  | blocked | failed | orphaned | cleanupRequired | cleanupFailed
deriving DecidableEq

def TerminalSessionStatus.value : TerminalSessionStatus → String
  | planned => "PLANNED"
  | authorizationRequired => "AUTHORIZATION_REQUIRED"
  | authorized => "AUTHORIZED"
  | starting => "STARTING"
  | active => "ACTIVE"
  | closing => "CLOSING"
  | closed => "CLOSED"
  | expired => "EXPIRED"
  | blocked => "BLOCKED"
  | failed => "FAILED"
  | orphaned => "ORPHANED"
  | cleanupRequired => "CLEANUP_REQUIRED"
  | cleanupFailed => "CLEANUP_FAILED"

/-- The states of `authorize_and_start`: a session in one of them may be started. -/
def TerminalSessionStatus.startable : TerminalSessionStatus → Bool
  | planned | authorizationRequired => true
  | _ => false

/-- The states of `blocking_sessions`. -/
def TerminalSessionStatus.blocking : TerminalSessionStatus → Bool
  | starting | active | closing | orphaned | cleanupRequired | cleanupFailed => true
  | _ => false

theorem TerminalSessionStatus.not_blocking_of_startable {status : TerminalSessionStatus}
    (h : status.startable = true) : status.blocking = false := by
  cases status <;> first | rfl | cases h

def TerminalSessionStatus.ofBroker : TerminalBroker.TerminalSessionStatus → TerminalSessionStatus
  | .active => active
  | .closing => closing
  | .closed => closed
  | .cleanupRequired => cleanupRequired

inductive TerminalCleanupStatus
  | notStarted | notRequired | verified | required
deriving DecidableEq

def TerminalCleanupStatus.value : TerminalCleanupStatus → String
  | notStarted => "NOT_STARTED"
  | notRequired => "NOT_REQUIRED"
  | verified => "VERIFIED"
  | required => "REQUIRED"

def TerminalCleanupStatus.ofBroker : TerminalBroker.TerminalCleanupStatus → TerminalCleanupStatus
  | .verified => verified
  | .required => required

/-- `rest` is what the fingerprint and the description of a target cover and the service does not
read. -/
structure ResourceCandidate where
  resourceId : String
  humanName : String
  kind : ResourceKind
  operatingSystem : Option String
  technicalPath : Option String
  technicalDetails : List (String × String)
  rest : String
deriving DecidableEq

/-- What the broker reads of a plan, and what only the service reads. -/
structure TerminalPlan extends TerminalBroker.TerminalPlan where
  /-- `target.resource_id`. -/
  targetResourceId : Option String
  requiresAuthorization : Bool
  confirmationPhrase : String
deriving DecidableEq

structure TerminalSession where
  id : String
  planId : String
  contextKind : TerminalContextKind
  status : TerminalSessionStatus
  createdAt : DateTime
  authorizedAt : Option DateTime
  startedAt : Option DateTime
  closedAt : Option DateTime
  expiresAt : DateTime
  cleanupStatus : TerminalCleanupStatus
  errorCode : Option String
  technicalDetails : List (String × String)
deriving DecidableEq

/-- `TerminalSession.model_validate`, for a session that the broker has answered with. -/
def TerminalSession.ofBroker (b : TerminalBroker.TerminalSession) : TerminalSession where
  id := b.id
  planId := b.planId
  contextKind := b.contextKind
  status := .ofBroker b.status
  createdAt := b.createdAt
  authorizedAt := some b.authorizedAt
  startedAt := some b.startedAt
  closedAt := b.closedAt
  expiresAt := b.expiresAt
  cleanupStatus := .ofBroker b.cleanupStatus
  errorCode := none
  technicalDetails := [("runtime_dir_token", b.runtimeDirToken), ("mode", "read-only")]

structure TerminalPlanRequest where
  contextKind : TerminalContextKind
  resourceId : Option String
deriving DecidableEq

structure TerminalAuthorizationRequest where
  confirm : Bool
  understood : Option String
deriving DecidableEq

structure TerminalPlanResult where
  plan : TerminalPlan
  session : TerminalSession
deriving DecidableEq

structure TerminalStartResult where
  accepted : Bool
  session : TerminalSession
  plan : TerminalPlan
  message : String
deriving DecidableEq

/-- `_target_fingerprint`, and the fields of a target and of a plan that the broker only hashes. -/
structure Library where
  targetFingerprint : ResourceCandidate → String
  targetRest : ResourceCandidate → String
  planRest : Bool → String → Option ResourceCandidate → DateTime → String

/-- `TerminalTarget.from_resource`. -/
def targetOf (lib : Library) (resource : ResourceCandidate) : TerminalTarget where
  humanName := resource.humanName
  operatingSystem := resource.operatingSystem
  technicalPath := resource.technicalPath
  technicalDetails := resource.technicalDetails
  fingerprint := lib.targetFingerprint resource
  rest := lib.targetRest resource

/-- `technical_path in {None, "/"}`. -/
def unsafePath (technicalPath : Option String) : Bool :=
  technicalPath = none || technicalPath = some "/"

section Plans

variable (lib : Library) (fingerprint : PlanPayload → String) (id sessionId : String)
  (contextKind : TerminalContextKind) (target : Option ResourceCandidate) (now : DateTime)

def requiresAuthorization : Bool := contextKind ≠ .aresLocal

def confirmationPhrase : String :=
  if requiresAuthorization contextKind then "AUTORIZO TERMINAL DE SOLO LECTURA" else ""

def payloadFor : PlanPayload where
  id
  sessionId
  contextKind
  target := target.map (targetOf lib)
  targetFingerprint := target.map lib.targetFingerprint
  readOnly := true
  executeTargetBinaries := false
  networkPolicy := .disabled
  devicePolicy := .minimal
  expiresAt := now + minutes 5
  rest := lib.planRest (requiresAuthorization contextKind) (confirmationPhrase contextKind) target now

/-- `TerminalPlan.build`. -/
def planFor : TerminalPlan where
  toPlanPayload := payloadFor lib id sessionId contextKind target now
  fingerprintSha256 := fingerprint (payloadFor lib id sessionId contextKind target now)
  targetResourceId := target.map (·.resourceId)
  requiresAuthorization := requiresAuthorization contextKind
  confirmationPhrase := confirmationPhrase contextKind

end Plans

/-- `blocking_sessions`, for the stored sessions. -/
def blockingSessions (sessions : List TerminalSession) : List String :=
  (sessions.filter (·.status.blocking)).map fun session =>
    "terminal:" ++ session.id ++ ":" ++ session.status.value

end Ares.Terminals
