import Ares.Data.Path
import Ares.Storage.Models

/-! The typed contracts of terminal sessions: plans, grants, sessions and what a cleanup found. -/

namespace Ares.TerminalBroker

open Data

inductive TerminalContextKind
  | aresLocal | installedSystemReadOnly | installedSystemChrootReadOnly | installedSystemAdmin
deriving DecidableEq

def TerminalContextKind.value : TerminalContextKind → String
  | aresLocal => "ares_local"
  | installedSystemReadOnly => "installed_system_read_only"
  | installedSystemChrootReadOnly => "installed_system_chroot_read_only"
  | installedSystemAdmin => "installed_system_admin"

inductive TerminalSessionStatus
  | active | closing | closed | cleanupRequired
deriving DecidableEq

def TerminalSessionStatus.value : TerminalSessionStatus → String
  | active => "ACTIVE"
  | closing => "CLOSING"
  | closed => "CLOSED"
  | cleanupRequired => "CLEANUP_REQUIRED"

inductive TerminalCleanupStatus
  | verified | required
deriving DecidableEq

def TerminalCleanupStatus.value : TerminalCleanupStatus → String
  | verified => "VERIFIED"
  | required => "REQUIRED"

/-- `rest` is what the fingerprint of the plan covers and the broker does not read. -/
structure TerminalTarget where
  humanName : String
  operatingSystem : Option String
  technicalPath : Option String
  technicalDetails : List (String × String)
  fingerprint : String
  rest : String
deriving DecidableEq

/-- The policies that a plan can name: `Literal["disabled"]` and `Literal["minimal"]`. -/
inductive NetworkPolicy
  | disabled
deriving DecidableEq

inductive DevicePolicy
  | minimal
deriving DecidableEq

structure PlanPayload where
  id : String
  sessionId : String
  contextKind : TerminalContextKind
  target : Option TerminalTarget
  targetFingerprint : Option String
  readOnly : Bool
  executeTargetBinaries : Bool
  networkPolicy : NetworkPolicy
  devicePolicy : DevicePolicy
  expiresAt : DateTime
  rest : String
deriving DecidableEq

structure TerminalPlan extends PlanPayload where
  fingerprintSha256 : String
deriving DecidableEq

structure TerminalAuthorizationGrant where
  id : String
  planId : String
  sessionId : String
  contextKind : TerminalContextKind
  targetFingerprint : Option String
  planFingerprintSha256 : String
  operatorUid : Int
  expiresAt : DateTime
  consumed : Bool
deriving DecidableEq

structure TerminalSession where
  id : String
  planId : String
  contextKind : TerminalContextKind
  status : TerminalSessionStatus
  createdAt : DateTime
  authorizedAt : DateTime
  startedAt : DateTime
  closedAt : Option DateTime
  expiresAt : DateTime
  cleanupStatus : TerminalCleanupStatus
  runtimeDirToken : String
deriving DecidableEq

structure TerminalCleanupEvidence where
  sessionId : String
  status : TerminalCleanupStatus
  processActive : Bool
  mountActive : Bool
  cleanupVerified : Bool
  evidence : List String
deriving DecidableEq

/-- `terminal_plan_fingerprint` and `_token`. -/
structure Library where
  fingerprint : PlanPayload → String
  token : String → String

/-- `technical_details.get("mountpoint") or ""`. -/
def TerminalTarget.mountpoint (t : TerminalTarget) : String :=
  (t.technicalDetails.lookup "mountpoint").getD ""

/-- `technical_path`, where there is one that is not empty. -/
def TerminalTarget.path? (t : TerminalTarget) : Option String :=
  t.technicalPath.filter (· ≠ "")

/-- `str(Path(technical_details.get("mountpoint") or technical_path))`. -/
@[irreducible] def TerminalTarget.source (t : TerminalTarget) (technicalPath : String) : String :=
  pathText (if t.mountpoint = "" then technicalPath else t.mountpoint)

/-- `text.startswith("/dev/")`. -/
@[irreducible] def isDevice (text : String) : Bool := "/dev/".toList.isPrefixOf text.toList

end Ares.TerminalBroker
