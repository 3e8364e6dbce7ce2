import Ares.Audit.Port
import Ares.Coop.Logic
import Ares.TerminalBroker.Models

/-! The terminal broker: its five requests, the grants and sessions it keeps, and what it asks of the
machine.  Every call is noted before it is made. -/

namespace Ares.TerminalBroker

open Coop Data Audit

variable (plan : TerminalPlan)

/-- The exceptions, by the handlers that tell them apart. -/
inductive Error
  | broker (code : String)
  | permission
  | processLookup
  | fileNotFound
  | fileExists
  | os
  | value
  | timeout
  | audit
  | other
  | cancelled
deriving DecidableEq

/-- `suppress(OSError)` catches it. -/
def Error.isOsError : Error → Bool
  | permission | processLookup | fileNotFound | fileExists | os => true
  | broker _ | value | timeout | audit | other | cancelled => false

/-- `suppress(Exception)` catches it. -/
def Error.isException : Error → Bool
  | cancelled => false
  | _ => true

inductive Op
  | lock
  | thread
  | append (entry : AuditEntry)
  | isDir (path : String)
  | pathExists (path : Path)
  | isFile (path : Path)
  /- `int(pid_file.read_text().strip())`. -/
  | readPid (path : Path)
  | mkdir (path : Path) (mode : Nat) (parents existOk : Bool)
  | chown (path : Path)
  | writeText (path : Path) (document : Fields)
  | chmod (path : Path) (mode : Nat)
  | replace (source target : Path)
  | mount (source : String) (root : Path)
  | umount (root : Path)
  | findmnt (path : Path)
  | unlink (path : Path)
  | rmtree (path : Path)
  | killpg (pid : Int) (signal : String)
  /- The loop on `_pid_alive`: the process is gone before the deadline. -/
  | awaitExit (pid : Int)
  | pidAlive (pid : Int)

@[reducible] def Op.Answer : Op → Type
  | lock | thread | append _ | mkdir _ _ _ _ | chown _ | writeText _ _ | chmod _ _ | replace _ _
  | unlink _ | rmtree _ | killpg _ _ => Unit
  | isDir _ | pathExists _ | isFile _ | awaitExit _ | pidAlive _ => Bool
  | readPid _ => Option Int
  /- The return code. -/
  | mount _ _ | umount _ | findmnt _ => Int

@[reducible] def Res (o : Op) : Type := Except Error o.Answer

inductive Action
  | authorize (plan : Option TerminalPlan) (operatorUid : Option Int)
  | start (plan : Option TerminalPlan) (grant : Option TerminalAuthorizationGrant)
  | status (sessionId : Option String)
  | close (sessionId : Option String)
  | cleanup (sessionId : Option String)
  | rejected

/-- A request as `dispatch` reads it: `none` stands for a document that `model_validate` refuses,
and for a value of another type. -/
structure Request where
  /-- It has a field of `_FORBIDDEN_REQUEST_FIELDS`. -/
  forbidden : Bool
  action : Action

inductive Response
  | grant (g : TerminalAuthorizationGrant)
  | session (s : TerminalSession)
  | evidence (e : TerminalCleanupEvidence)

/-- A step of the task `task`. -/
inductive Event
  | received (task : Nat) (request : Request) (peerUid : Int)
  /-- The start has passed its checks and goes on to prepare the directory of the session. -/
  | starting (task : Nat) (sessionId : String)
  | called (task : Nat) (op : Op)

/-- The files and the mounts that the calls change.  The broker reads nothing of it but what the calls
answer. -/
structure Machine where
  directories : Path → Bool
  files : Path → Bool
  mounted : Path → Bool
  calls : Nat

structure State where
  now : DateTime
  /-- How many values `uuid4` has given. -/
  drawn : Nat
  grants : String → Option TerminalAuthorizationGrant
  sessions : String → Option TerminalSession
  history : List Event
  machine : Machine

structure Config where
  runtimeRoot : Path
  guiRequestRoot : Path
  allowedClientUids : List Int
  lib : Library
  uuid4 : Nat → String

abbrev Task := Proc State Res Error

namespace State

def note (e : Event) (s : State) : State := { s with history := e :: s.history }

def draw (s : State) : State := { s with drawn := s.drawn + 1 }

/-- `self._grants[grant.id] = grant`. -/
def grant (g : TerminalAuthorizationGrant) (s : State) : State :=
  { s with grants := Function.update s.grants g.id (some g) }

/-- `self._grants.pop(id, None)`. -/
def pop (id : String) (s : State) : State := { s with grants := Function.update s.grants id none }

/-- `self._sessions[id] = session`. -/
def store (id : String) (session : TerminalSession) (s : State) : State :=
  { s with sessions := Function.update s.sessions id (some session) }

end State

section Calls

variable (task : Nat)

/-- A call, noted; its exception goes on. -/
def attempt (o : Op) : Task o.Answer := do
  Proc.modify (State.note (.called task o))
  Proc.ofExcept (← perform o)

/-- `with suppress(..)`. -/
def suppress (suppressed : Error → Bool) (p : Task Unit) : Task Unit :=
  Proc.handle p fun e => if suppressed e then pure () else throw e

/-- The lines of evidence for a step whose exceptions of a kind are suppressed. -/
def evidenceOf (suppressed : Error → Bool) (line : String) (p : Task Unit) : Task (List String) :=
  Proc.handle (do p; pure [line]) fun e => if suppressed e then pure [] else throw e

def audit (eventType sessionId : String) (payload : Fields) : Task Unit :=
  attempt task (.append {
    eventType
    source := "ares-tool-broker"
    correlationId := sessionId
    sessionId
    payload })

end Calls

/-! ### The directory of a session -/

variable (cfg : Config) (task : Nat) (plan : TerminalPlan)

/-- What `_validate_plan` checks of the plan as a whole. -/
def validatePolicy : Task Unit := do
  require (plan.fingerprintSha256 = cfg.lib.fingerprint plan.toPlanPayload)
    (.broker "TERMINAL_PLAN_FINGERPRINT_INVALID")
  require (plan.readOnly && !plan.executeTargetBinaries)
    (.broker "TERMINAL_PLAN_POLICY_REJECTED")
  require (plan.networkPolicy = .disabled && plan.devicePolicy = .minimal)
    (.broker "TERMINAL_PLAN_POLICY_REJECTED")

/-- What `_validate_plan` checks of its target. -/
def validateTarget : Task Unit := do
  let target ← ofOption (.broker "TERMINAL_TARGET_INVALID") plan.target
  let technicalPath ← ofOption (.broker "TERMINAL_TARGET_INVALID") target.path?
  require (technicalPath ≠ "/") (.broker "TERMINAL_TARGET_UNSAFE")
  let source := target.source technicalPath
  require (source ≠ "/") (.broker "TERMINAL_TARGET_UNSAFE")
  let usable ← (if isDevice source then pure true else attempt task (.isDir source))
  require usable (.broker "TERMINAL_TARGET_SOURCE_UNSUPPORTED")
  require (plan.targetFingerprint = some target.fingerprint)
    (.broker "TERMINAL_TARGET_FINGERPRINT_CHANGED")

/-- `_validate_plan`. -/
def validatePlan : Task Unit := do
  validatePolicy cfg plan
  validateTarget task plan

def mountReadOnly (source : String) (sessionDir : Path) : Task (String × Bool) := do
  require (isDevice source) (.broker "TERMINAL_TARGET_SOURCE_UNSUPPORTED")
  let root := sessionDir ++ ["root"]
  attempt task (.mkdir root 0o700 false false)
  let returncode ← attempt task (.mount source root)
  require (returncode = 0) (.broker "TERMINAL_TARGET_READ_ONLY_MOUNT_FAILED")
  pure (root.str, true)

/-- `_prepare_read_only_source`. -/
def prepareReadOnlySource (sessionDir : Path) : Task (String × Bool) := do
  let target ← ofOption (.broker "TERMINAL_TARGET_INVALID") plan.target
  let technicalPath ← ofOption (.broker "TERMINAL_TARGET_INVALID") target.technicalPath
  let existing ← (if target.mountpoint ≠ "" && target.mountpoint ≠ "/" then
    attempt task (.isDir (pathText target.mountpoint)) else pure false)
  if existing then pure (pathText target.mountpoint, false)
  else do
    let source := pathText technicalPath
    let there ← attempt task (.isDir source)
    if there && source ≠ "/" then pure (source, false)
    else mountReadOnly task source sessionDir

def humanName (fallback : String) : String :=
  (plan.target.map (·.humanName)).getD fallback

def publicDocument (sourcePath : String) (mounted : Bool) : Fields :=
  [("session_id", .str plan.sessionId), ("plan_id", .str plan.id),
    ("context_kind", .str plan.contextKind.value),
    ("title", .str ("ARES — Terminal de solo lectura — " ++ humanName plan "sistema instalado")),
    ("system", .optStr (plan.target.bind (·.operatingSystem))),
    ("target", .optStr (plan.target.map (·.humanName))), ("mode", .str "Solo lectura"),
    ("network", .str "Deshabilitada"), ("history", .str "disabled"),
    ("plan_fingerprint", .str plan.fingerprintSha256),
    ("source_token", .str (cfg.lib.token sourcePath)), ("mounted_by_broker", .bool mounted)]

def internalDocument (sourcePath : String) (mounted : Bool) (controlDir : Path) : Fields :=
  [("source_path", .str sourcePath), ("mounted_by_broker", .bool mounted),
    ("control_dir", .str controlDir.str)]

def guiDocument (sourcePath : String) (controlDir : Path) : Fields :=
  [("request_id", .str plan.sessionId), ("context", .str plan.contextKind.value),
    ("label", .str ("Sistema instalado: " ++ humanName plan "detectado")),
    ("privilege", .str "solo lectura; namespace privado; sin binarios del sistema instalado"),
    ("plan_id", .str plan.id), ("source_path", .str sourcePath),
    ("control_dir", .str controlDir.str)]

def sessionDirOf (sessionId : String) : Path := cfg.runtimeRoot.join sessionId

def guiRequestOf (sessionId : String) : Path := cfg.guiRequestRoot.join (sessionId ++ ".json")

def guiTemporaryOf (sessionId : String) : Path :=
  cfg.guiRequestRoot.join ("." ++ sessionId ++ ".json.tmp")

/-- `_write_gui_request`. -/
def writeGuiRequest (sourcePath : String) (controlDir : Path) : Task Unit := do
  attempt task (.mkdir cfg.guiRequestRoot 0o770 true true)
  let tmp := guiTemporaryOf cfg plan.sessionId
  attempt task (.writeText tmp (guiDocument plan sourcePath controlDir))
  attempt task (.chmod tmp 0o660)
  attempt task (.replace tmp (guiRequestOf cfg plan.sessionId))

def makeControlDir (sessionDir : Path) : Task Unit := do
  attempt task (.mkdir (sessionDir ++ ["control"]) 0o770 false false)
  suppress Error.isException (attempt task (.chown (sessionDir ++ ["control"])))

/-- The writes of `_prepare_session_dir`, for a source and whether the broker has mounted it. -/
def writeSessionFiles (sessionDir : Path) (source : String × Bool) :
    Task Unit := do
  let controlDir := sessionDir ++ ["control"]
  attempt task (.writeText (sessionDir ++ ["public.json"]) (publicDocument cfg plan source.1 source.2))
  attempt task (.chmod (sessionDir ++ ["public.json"]) 0o644)
  attempt task (.writeText (sessionDir ++ ["internal.json"])
    (internalDocument source.1 source.2 controlDir))
  attempt task (.chmod (sessionDir ++ ["internal.json"]) 0o600)
  writeGuiRequest cfg task plan source.1 controlDir

/-- What `_prepare_session_dir` does in the directory that it has made. -/
def fillSessionDir (sessionDir : Path) : Task Unit := do
  makeControlDir task sessionDir
  let source ← prepareReadOnlySource task plan sessionDir
  writeSessionFiles cfg task plan sessionDir source

/-- `_prepare_session_dir`. -/
def prepareSessionDir : Task Path := do
  let sessionDir := sessionDirOf cfg plan.sessionId
  attempt task (.mkdir sessionDir 0o700 true false)
  fillSessionDir cfg task plan sessionDir
  pure sessionDir

/-- `_terminate_launcher`: whether the process is still there, and the evidence. -/
def terminateLauncher (pidFile : Path) : Task (Bool × List String) := do
  match ← attempt task (.readPid pidFile) with
  | none => pure (false, ["launcher-pid-invalid"])
  | some pid =>
    if pid ≤ 1 then pure (false, ["launcher-pid-rejected"])
    else do
      let gone := fun e => e = Error.processLookup || e = Error.permission
      let asked ← evidenceOf gone "terminal-processgroup-sigterm"
        (attempt task (.killpg pid "SIGTERM"))
      let ended ← attempt task (.awaitExit pid)
      if ended then pure (false, asked)
      else do
        let killed ← evidenceOf gone "terminal-processgroup-sigkill"
          (attempt task (.killpg pid "SIGKILL"))
        let alive ← attempt task (.pidAlive pid)
        pure (alive, asked ++ killed)

def unmountRoot (root : Path) : Task (Bool × List String) := do
  let found ← attempt task (.findmnt root)
  if found = 0 then do
    let returncode ← attempt task (.umount root)
    let still ← attempt task (.findmnt root)
    pure (still = 0, if returncode = 0 then ["unmounted:root"] else [])
  else pure (false, [])

/-- What `_cleanup_session_dir` does with a directory that is there. -/
def emptySessionDir (sessionId : String) : Task (Bool × Bool × List String) := do
  let sessionDir := sessionDirOf cfg sessionId
  let pidFile := sessionDir ++ ["control", "launcher.pid"]
  let hasPid ← attempt task (.isFile pidFile)
  let (processActive, ended) ← (if hasPid then terminateLauncher task pidFile
    else pure (false, []))
  let root := sessionDir ++ ["root"]
  let hasRoot ← attempt task (.pathExists root)
  let (mountActive, unmounted) ← (if hasRoot then unmountRoot task root else pure (false, []))
  let request ← evidenceOf (· = .fileNotFound) "removed:gui-request"
    (attempt task (.unlink (guiRequestOf cfg sessionId)))
  let directory ← evidenceOf Error.isOsError "removed:session-dir"
    (attempt task (.rmtree sessionDir))
  pure (processActive, mountActive, ended ++ unmounted ++ request ++ directory)

/-- `_cleanup_session_dir`. -/
def cleanupSessionDir (sessionId : String) : Task TerminalCleanupEvidence := do
  let there ← attempt task (.pathExists (sessionDirOf cfg sessionId))
  let (processActive, mountActive, evidence) ←
    (if there then emptySessionDir cfg task sessionId else pure (false, false, []))
  let active ← attempt task (.pathExists (sessionDirOf cfg sessionId))
  pure {
    sessionId
    status := if active then .required else .verified
    processActive
    mountActive
    cleanupVerified := !active && !processActive && !mountActive
    evidence }

/-! ### The requests -/

def lock : Task Unit := attempt task .lock

/-- `uuid4().hex`. -/
def draw : Task String := do
  let n ← reading State.drawn
  Proc.modify State.draw
  pure (cfg.uuid4 n)

def grantFor (id : String) (operatorUid : Int) : TerminalAuthorizationGrant where
  id := id
  planId := plan.id
  sessionId := plan.sessionId
  contextKind := plan.contextKind
  targetFingerprint := plan.targetFingerprint
  planFingerprintSha256 := plan.fingerprintSha256
  operatorUid := operatorUid
  expiresAt := plan.expiresAt
  consumed := false

def authorize (operatorUid : Option Int) : Task Response := do
  let uid ← ofOption (.broker "TERMINAL_OPERATOR_UID_INVALID") (operatorUid.filter (0 ≤ ·))
  validatePlan cfg task plan
  let id ← draw cfg
  let g := grantFor plan id uid
  lock task
  Proc.modify (State.grant g)
  audit task "terminal.authorization.granted" plan.sessionId
    [("plan_id", .str plan.id), ("plan_fingerprint", .str plan.fingerprintSha256),
      ("target_fingerprint", .optStr plan.targetFingerprint),
      ("grant_id_hash", .str (cfg.lib.token g.id)), ("operator_uid", .int uid),
      ("one_use", .bool true)]
  pure (.grant g)

def sessionFor (now : DateTime) : TerminalSession where
  id := plan.sessionId
  planId := plan.id
  contextKind := plan.contextKind
  status := .active
  createdAt := now
  authorizedAt := now
  startedAt := now
  closedAt := none
  expiresAt := plan.expiresAt
  cleanupStatus := .required
  runtimeDirToken := cfg.lib.token (sessionDirOf cfg plan.sessionId).str

/-- What `_start` does once the directory of the session is prepared. -/
def enterSession (sessionDir : Path) : Task TerminalSession := do
  attempt task .thread
  audit task "terminal.session.starting" plan.sessionId
    [("plan_id", .str plan.id), ("plan_fingerprint", .str plan.fingerprintSha256),
      ("target_fingerprint", .optStr plan.targetFingerprint),
      ("runtime_dir_token", .str (cfg.lib.token sessionDir.str))]
  let now ← reading State.now
  let session := sessionFor cfg plan now
  lock task
  Proc.modify (State.store session.id session)
  pure session

/-- The checks of `_start`. -/
def redeem (g : TerminalAuthorizationGrant) : Task Unit := do
  lock task
  let s ← Proc.state
  Proc.modify (State.pop g.id)
  require (s.grants g.id = some g && !g.consumed) (.broker "TERMINAL_AUTHORIZATION_INVALID")
  require (s.now < g.expiresAt) (.broker "TERMINAL_AUTHORIZATION_EXPIRED")
  require (g.planId = plan.id && g.planFingerprintSha256 = plan.fingerprintSha256)
    (.broker "TERMINAL_AUTHORIZATION_INVALID")
  validatePlan cfg task plan

/-- `_start`. -/
def start (g : TerminalAuthorizationGrant) : Task TerminalSession := do
  redeem cfg task plan g
  Proc.modify (State.note (.starting task plan.sessionId))
  let sessionDir ← prepareSessionDir cfg task plan
  enterSession cfg task plan sessionDir

/-- `_session_id`. -/
def sessionIdOf (sessionId : Option String) : Task String :=
  ofOption (.broker "TERMINAL_SESSION_INVALID") (sessionId.filter (8 ≤ ·.length))

def findSession (sessionId : Option String) : Task (String × TerminalSession) := do
  let id ← sessionIdOf sessionId
  let s ← Proc.state
  let session ← ofOption (.broker "TERMINAL_SESSION_NOT_FOUND") (s.sessions id)
  pure (id, session)

def status (sessionId : Option String) : Task Response := do
  let (_, session) ← findSession sessionId
  pure (.session session)

def close (sessionId : Option String) : Task Response := do
  let (id, session) ← findSession sessionId
  let closing := { session with status := .closing }
  Proc.modify (State.store id closing)
  let evidence ← cleanupSessionDir cfg task id
  attempt task .thread
  let now ← reading State.now
  let closed := { closing with
    status := if evidence.cleanupVerified then .closed else .cleanupRequired
    closedAt := some now
    cleanupStatus := evidence.status }
  Proc.modify (State.store id closed)
  audit task "terminal.session.closed" id
    [("status", .str closed.status.value), ("cleanup_status", .str closed.cleanupStatus.value),
      ("cleanup_verified", .bool evidence.cleanupVerified)]
  pure (.session closed)

def cleanup (sessionId : Option String) : Task Response := do
  let id ← sessionIdOf sessionId
  let evidence ← cleanupSessionDir cfg task id
  attempt task .thread
  pure (.evidence evidence)

def dispatch (request : Request) (peerUid : Int) : Task Response := do
  Proc.modify (State.note (.received task request peerUid))
  require (cfg.allowedClientUids.contains peerUid) .permission
  require (!request.forbidden) (.broker "TERMINAL_BROKER_FORBIDDEN_FIELD")
  match request.action with
  | .authorize plan operatorUid =>
    let plan ← ofOption .value plan
    authorize cfg task plan operatorUid
  | .start plan grant =>
    let plan ← ofOption .value plan
    let grant ← ofOption .value grant
    let session ← start cfg task plan grant
    pure (.session session)
  | .status sessionId => status sessionId
  | .close sessionId => close cfg task sessionId
  | .cleanup sessionId => cleanup cfg task sessionId
  | .rejected => throw (.broker "TERMINAL_BROKER_ACTION_REJECTED")

/-- The broker with any clients.  The environment answers every call as it likes, and the clock and
the machine may change at any time. -/
def system : System State Res Error Response (Request × Int) (DateTime × Machine) where
  handler task t := dispatch cfg task t.1 t.2
  admits _ _ := True
  answers _ _ _ := True
  moves _ _ := True
  world w s := { s with now := w.1, machine := w.2 }

/-- A broker that has just been made. -/
def State.start (now : DateTime) (machine : Machine) : State where
  now
  drawn := 0
  grants _ := none
  sessions _ := none
  history := []
  machine

end Ares.TerminalBroker
