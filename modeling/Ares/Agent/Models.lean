import Ares.Storage.Models

/-! Operational agent runs: their plan steps, the read-only authorization of a plan and the resources
that a run is about. -/

namespace Ares.Agent

open Data Storage

inductive ResourceKind
  | disk | partition | filesystem | operatingSystem | mount | recoveryEnvironment
deriving DecidableEq

/-- A selectable resource, as far as the agent reads it. -/
structure ResourceCandidate where
  resourceId : String
  humanName : String
  kind : ResourceKind
  stableIdentity : String
  recommended : Bool
deriving DecidableEq

inductive AgentRunState
  | understanding | collectingEvidence | planning | planReady | readOnlyAuthorizationRequired
  | runningDiagnostic | userInputRequired | protectionRequired | mutationAuthorizationRequired
  | executing | verifying | completed | partiallyCompleted | blocked | failed | cancelled
  | invalidated
deriving DecidableEq

inductive AgentStepState
  | draft | validating | ready | authorizationRequired | authorized | executing | verifying
  | completed | partiallyCompleted | blocked | failed | cancelled | invalidated
deriving DecidableEq

structure AgentRunRequest where
  objective : String
  resourceId : Option String
deriving DecidableEq

structure AgentAuthorizationRequest where
  confirm : Bool
  understood : Option String
deriving DecidableEq

structure TechnicalAction where
  capabilityId : String
  operationClass : String
  risk : String
  privileged : Bool
  commandsVisible : Bool
  commandSummary : List String
  expectedChanges : String
deriving DecidableEq

structure AgentPlanStep where
  id : String
  objective : String
  state : AgentStepState
  capabilityId : Option String
  targetResourceId : Option String
  prerequisites : List String
  risk : String
  requiresAuthorization : Bool
  requiresProtection : Bool
  action : Option TechnicalAction
  expectedResult : String
  verification : String
  rollbackStrategy : String
  dependencies : List String
  evidence : List String
  result : Option Fields
  errorCode : Option String

structure ReadOnlyAuthorization where
  id : String
  runId : String
  stepIds : List String
  capabilityIds : List String
  resourceFingerprints : List String
  grantedBy : String
  objective : String
  risk : String
  operationClass : String
  targetResourceId : Option String
  targetResourceName : Option String
  planFingerprint : String
  grantedAt : DateTime
  expiresAt : DateTime
  consumed : Bool
deriving DecidableEq

structure AgentRun where
  id : String
  objective : String
  state : AgentRunState
  createdAt : DateTime
  updatedAt : DateTime
  selectedResourceId : Option String
  selectedResourceFingerprint : Option String
  resources : List ResourceCandidate
  backendPlan : Option Json
  steps : List AgentPlanStep
  authorization : Option ReadOnlyAuthorization
  summary : String
  limitations : List String
  events : List String

/-- The states that end a run. -/
def AgentRunState.ended : AgentRunState → Bool
  | completed | partiallyCompleted | failed | cancelled | invalidated => true
  | _ => false

def AgentRun.unspent (run : AgentRun) : Bool := run.authorization.any fun a => !a.consumed

def AgentPlanStep.withState (state : AgentStepState) (step : AgentPlanStep) : AgentPlanStep :=
  { step with state }

end Ares.Agent
