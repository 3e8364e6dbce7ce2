import Mathlib.Data.List.Nodup
import Ares.Coop.Pool

/-! Workflow definitions, the records of their executions and the events that the engine publishes.
`V` is the type of the dictionaries that actions and result factories return.  What a definition
calls (conditions, input factories, actions, postchecks and the result factory) is not a part of it
here: the answers of these calls come from outside.  Times are left out. -/

namespace Ares.Workflows

inductive StageMode
  | sequential | parallel
deriving DecidableEq

inductive StepStatus
  | succeeded | failed | skipped | cancelled
deriving DecidableEq

inductive ExecutionStatus
  | succeeded | failed | cancelled
deriving DecidableEq

structure WorkflowStep where
  id : String
  actionId : String
  /-- `retry.max_attempts`. -/
  maxAttempts : Nat
  /-- `retry.delay_seconds` is not zero. -/
  delays : Bool
  /-- `condition` is not `None`. -/
  conditional : Bool
  postchecks : Nat
  compensateOnFailure : Bool
  id_length : id ≠ "" ∧ id.length ≤ 96
  attempts_le : 1 ≤ maxAttempts ∧ maxAttempts ≤ 5
deriving DecidableEq

structure WorkflowStage where
  id : String
  mode : StageMode
  steps : List WorkflowStep
  nonempty : id ≠ "" ∧ steps ≠ []
deriving DecidableEq

structure WorkflowDefinition where
  id : String
  version : String
  capabilityId : String
  stages : List WorkflowStage
  nonempty : id ≠ "" ∧ stages ≠ []
  distinct : ((stages.flatMap (·.steps)).map (·.id)).Nodup
deriving DecidableEq

/-- The steps in the order of the definition. -/
def WorkflowDefinition.steps (definition : WorkflowDefinition) : List WorkflowStep :=
  definition.stages.flatMap (·.steps)

structure StepExecution where
  stepId : String
  actionId : String
  status : StepStatus
  attempts : Nat
  errorCode : Option String
deriving DecidableEq

structure WorkflowExecution (V : Type) where
  id : String
  workflowId : String
  workflowVersion : String
  capabilityId : String
  status : ExecutionStatus
  steps : List StepExecution
  result : Option V
  errorCode : Option String
  rollbackPerformed : Bool
deriving DecidableEq

/-- What `ActionError` was given as its code: the annotation says `str`, and nothing checks it. -/
inductive ErrorCode
  | text (code : String)
  | other
deriving DecidableEq

/-- `_result_receipt`. -/
structure ResultReceipt where
  sha256 : String
  bytes : Nat
  topLevelFields : List String
deriving DecidableEq

/-- The names of the engine's events, with what their payloads carry. -/
inductive Event
  | workflowStarted (version : String)
  | capabilityStarted
  | stepSkipped (stepId actionId : String)
  | actionStarted (stepId actionId : String) (attempt : Nat)
  | postcheckPassed (stepId : String) (index : Nat)
  | actionCompleted (stepId actionId : String) (attempts : Nat)
  | actionFailed (stepId actionId : String) (attempt : Nat) (errorCode : ErrorCode)
      (retrying : Bool)
  | rollbackStarted
  | compensationFailed (stepId actionId : String)
  | compensationCompleted (stepId actionId : String)
  | rollbackCompleted (complete : Bool)
  /-- `workflow.completed`, `workflow.failed` or `workflow.cancelled`. -/
  | terminal (status : ExecutionStatus) (errorCode : Option String)
  /-- `capability.completed` or `capability.failed`. -/
  | capabilityEnded (status : ExecutionStatus) (errorCode : Option String)
      (receipt : Option ResultReceipt)
  | workflowPaused
  | workflowResumed
  | cancellationRequested
deriving DecidableEq

/-- `AresEvent`, as `_event` builds it. -/
structure AresEvent where
  source : String
  correlationId : String
  workflowId : String
  event : Event
deriving DecidableEq

/-- The exceptions that the engine tells apart. -/
inductive Exc
  | actionError (code : ErrorCode)
  | timeoutError
  /-- `_ExecutionCancelled`. -/
  | executionCancelled
  /-- `_StepFailed`. -/
  | stepFailed (record : StepExecution)
  | typeError
  | valueError
  /-- Every other `Exception`. -/
  | exception
  /-- `asyncio.CancelledError`, which is no `Exception`. -/
  | cancelledError
deriving DecidableEq

/-- The exception is the engine's own `_StepFailed`. -/
def Exc.isStepFailed : Exc → Bool
  | stepFailed _ => true
  | _ => false

/-- `except Exception` catches it. -/
def Exc.caught : Exc → Bool
  | cancelledError => false
  | _ => true

end Ares.Workflows
