import Ares.Agent.Service
import Ares.Coop.Logic

/-! What the calls leave of a run when they store a copy of it, and the parts of a call that write
nothing. -/

namespace Ares.Agent

open Coop Data Storage

section Shapes

variable {run : AgentRun} {cfg : Config}

theorem shapes_map {f : AgentPlanStep → AgentPlanStep} (hf : ∀ step, (f step).shape = step.shape)
    (steps : List AgentPlanStep) :
    (steps.map f).map AgentPlanStep.shape = steps.map AgentPlanStep.shape := by
  simp [Function.comp_def, hf]

@[simp] theorem shapes_invalidatedRun (reason : String) (now : DateTime) :
    (invalidatedRun run reason now).shapes = run.shapes :=
  shapes_map (f := AgentPlanStep.withState .invalidated) (fun _ => rfl) run.steps

@[simp] theorem shapes_authorizedRun (a : ReadOnlyAuthorization) (now : DateTime) :
    (authorizedRun run a now).shapes = run.shapes := by
  refine shapes_map (fun step => ?_) run.steps
  split <;> rfl

@[simp] theorem shapes_runningRun (a : ReadOnlyAuthorization) (now : DateTime) :
    (runningRun run a now).shapes = run.shapes := by
  refine shapes_map (fun step => ?_) run.steps
  split <;> rfl

@[simp] theorem shapes_cancelledRun (now : DateTime) :
    (cancelledRun run now).shapes = run.shapes := by
  refine shapes_map (fun step => ?_) run.steps
  split <;> rfl

theorem shapes_set {steps : List AgentPlanStep} {index : Nat} {step step' : AgentPlanStep}
    (hstep : (steps.map AgentPlanStep.shape)[index]? = some step.shape)
    (hshape : step'.shape = step.shape) :
    (steps.set index step').map AgentPlanStep.shape = steps.map AgentPlanStep.shape := by
  rw [List.map_set, hshape]
  obtain ⟨hlt, heq⟩ := List.getElem?_eq_some_iff.mp hstep
  rw [← heq, List.set_getElem_self]

end Shapes

/-! ### Assertions that diagnosing keeps -/

section Diagnosing

variable {L : Logic State Res} {P : State → Prop} {j : Nat} (running : AgentRun)
  (hrely : ∀ s s', L.rely s s' → P s → P s')
  (hstarted : ∀ c, (Proc.modify (State.note (.started j running.id c)) : Task Unit).Keeps L P)
  (hfinished : ∀ c b, (Proc.modify (State.note (.finished j c b)) : Task Unit).Keeps L P)
include hrely hstarted hfinished

theorem runStep_keeps (index : Nat) (step : AgentPlanStep) (c : String) (p : Progress) :
    (runStep j running index step c p).Keeps L P := by
  have hattempt : ∀ call, (attempt call).Keeps L P := fun _ => quiet_attempt.keeps hrely
  have hinvoke : (invoke j running c p).Keeps L P := by
    refine Proc.Keeps.bind (hstarted c) fun _ => ?_
    split
    · exact (hattempt _).bind fun _ => keeps_ret _
    · exact (hattempt _).bind fun _ => (quiet_ofExcept.keeps hrely).bind fun _ => keeps_ret _
  refine hinvoke.observe.bind fun r => ?_
  match r with
  | .ok _ => exact (hfinished c true).bind fun _ => keeps_ret _
  | .error .cancelled => exact keeps_raise _
  | .error (.agent _) => exact (hfinished c false).bind fun _ => keeps_ret _
  | .error (.exception _) => exact (hfinished c false).bind fun _ => keeps_ret _

theorem diagnose_keeps (hput : ∀ p now, (put j (progressRun running p now)).Keeps L P)
    (a : ReadOnlyAuthorization) (index : Nat) (steps : List AgentPlanStep) (p : Progress) :
    (diagnose j running a index steps p).Keeps L P := by
  induction steps generalizing index p with
  | nil => exact keeps_ret _
  | cons step rest ih =>
    rw [diagnose]
    split
    · exact ih _ _
    · split
      · exact ih _ _
      · split
        · exact ih _ _
        · exact (runStep_keeps running hrely hstarted hfinished index step _ p).bind fun p' =>
            (quiet_reading.keeps hrely).bind fun now => (hput p' now).bind fun _ => ih _ _

end Diagnosing

end Ares.Agent
