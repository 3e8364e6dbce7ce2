import Ares.Coop.Logic
import Ares.Operations.Service

/-! The parts of the engine, of the service and of the workflow that write nothing, and the parts
that keep what their parts keep. -/

namespace Ares.Operations

open Coop Data Storage

variable {cfg : Config} {L : Logic State Res} {P : State → Prop} {α : Type}

theorem get_quiet {α : Type} (find : State → Option α) : (get find).Quiet := by
  refine quiet_attempt.bind fun readable => ?_
  cases readable
  · exact quiet_ret
  · exact quiet_reading

theorem getProtection_quiet (checkpointId : String) : (getProtection cfg checkpointId).Quiet := by
  unfold getProtection
  split
  · exact get_quiet _
  · exact quiet_ret

theorem requireCheckpoint_quiet (plan : StorageOperationPlan) :
    (requireCheckpoint cfg plan).Quiet := by
  refine quiet_ofOption.bind fun checkpoint => quiet_require.bind fun _ => ?_
  exact (getProtection_quiet _).bind fun durable => (get_quiet _).bind fun artifact =>
    quiet_ofOption.bind fun artifact => quiet_require

theorem asEngine_keeps {α : Type} {p : Task α} {L : Logic State Res} {P : State → Prop}
    (hp : p.Keeps L P) : (asEngine p).Keeps L P := by
  refine hp.handle fun e => ?_
  cases e <;> exact keeps_raise _

theorem inspect_quiet (target : String) : (inspect target).Quiet := by
  refine quiet_attempt.handle fun e => ?_
  cases e <;> exact quiet_raise

theorem asService_keeps {p : Task α} (hp : p.Keeps L P) : (asService p).Keeps L P := by
  refine hp.handle fun e => ?_
  cases e <;> exact keeps_raise _

theorem publishCheckpoint_quiet (plan : StorageOperationPlan) : (publishCheckpoint plan).Quiet := by
  unfold publishCheckpoint
  split
  · exact quiet_attempt
  · exact quiet_ret

/-! ### The workflow -/

theorem ended_quiet (r : Except Error Unit) : (ended r).Quiet := by
  cases r with
  | ok => exact quiet_ret
  | error e =>
    cases e with
    | cancelled =>
      refine quiet_perform.bind fun stop => ?_
      cases stop <;> exact quiet_raise
    | _ => exact quiet_raise

theorem projectAction_quiet : projectAction.Quiet :=
  quiet_attempt.bind fun _ => quiet_attempt

theorem verificationPostcheck_quiet : verificationPostcheck.Quiet :=
  quiet_attempt.bind fun _ => quiet_attempt

theorem failStep_quiet (code : String) : (failStep code).Quiet :=
  quiet_attempt.bind fun _ => quiet_raise

theorem checkOutput_quiet (execution : Execution) : (checkOutput execution).Quiet := by
  unfold checkOutput
  split
  · exact quiet_attempt
  · exact quiet_ret

theorem executionOf_quiet (r : Except Error Unit) : (executionOf r).Quiet := by
  cases r with
  | ok =>
    refine quiet_attempt.observe.bind fun checked => ?_
    cases checked with
    | ok => exact quiet_ret
    | error e => cases e <;> first | exact quiet_ret | exact quiet_raise
  | error e => cases e <;> first | exact quiet_ret | exact quiet_raise

section Keeps

variable (stable : ∀ s s', L.rely s s' → P s → P s')
include stable

theorem runAction_keeps {action : Task Unit} (h : action.Keeps L P) :
    (runAction action).Keeps L P :=
  h.observe.bind fun r => (ended_quiet r).keeps stable

theorem runStep_keeps {action postcheck : Task Unit} (h : action.Keeps L P)
    (h' : postcheck.Keeps L P) : (runStep action postcheck).Keeps L P := by
  refine (quiet_attempt.keeps stable).bind fun _ => (quiet_attempt.keeps stable).bind fun _ =>
    (h.bind fun _ => h').observe.bind fun r => ?_
  refine Proc.Quiet.keeps ?_ stable
  cases r with
  | ok => exact quiet_attempt
  | error e => cases e <;> first | exact failStep_quiet _ | exact quiet_raise

theorem stages_keeps {task handle : Nat} {input : StorageOperationExecutionInput}
    (hvalidate : (validateAction cfg task input).Keeps L P)
    (hexecute : (runExecution cfg task handle input).Keeps L P) :
    (stages cfg task handle input).Keeps L P := by
  refine (quiet_attempt.keeps stable).bind fun _ => ?_
  refine (runStep_keeps stable (runAction_keeps stable hvalidate) (keeps_ret _)).bind fun _ => ?_
  refine (quiet_attempt.keeps stable).bind fun _ => ?_
  refine (runStep_keeps stable hexecute (verificationPostcheck_quiet.keeps stable)).bind fun _ => ?_
  refine (quiet_attempt.keeps stable).bind fun _ => ?_
  exact runStep_keeps stable (runAction_keeps stable (projectAction_quiet.keeps stable))
    (keeps_ret _)

theorem capabilitiesExecute_keeps {task handle : Nat} {input : StorageOperationExecutionInput}
    (h : (stages cfg task handle input).Keeps L P) :
    (capabilitiesExecute cfg task handle input).Keeps L P := by
  refine (quiet_attempt.keeps stable).bind fun _ => (quiet_attempt.keeps stable).bind fun _ =>
    (quiet_attempt.keeps stable).bind fun _ => h.observe.bind fun r => ?_
  refine Proc.Quiet.keeps ?_ stable
  exact (executionOf_quiet r).bind fun execution => quiet_attempt.bind fun _ =>
    quiet_attempt.bind fun _ => (checkOutput_quiet execution).bind fun _ => quiet_ret

end Keeps

end Ares.Operations
