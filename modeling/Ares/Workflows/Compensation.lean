import Ares.Workflows.Executions

/-! Which compensations an execution calls. -/

namespace Ares.Workflows

open Coop

variable {V : Type}

def Note.compensation? : Note V → Option (String × V)
  | .compensated _ stepId output => some (stepId, output)
  | _ => none

/-- The steps whose compensations a task has called, in the order of the calls, with the outputs
that it passed. -/
def compensationsOf (j : Nat) (h : List (Note V)) : List (String × V) :=
  (own j h).reverse.filterMap Note.compensation?

theorem filterMap_filter_closing (h : List (Note V)) :
    (h.filter Note.milestone).filterMap Note.compensation? = h.filterMap Note.compensation? := by
  induction h with
  | nil => rfl
  | cons n h ih =>
    have hopen : n.milestone = false → n.compensation? = none := by
      cases n <;> simp [Note.milestone, Note.compensation?]
    cases hn : n.milestone with
    | true => simp [hn, List.filterMap_cons, ih]
    | false => simp [hn, hopen hn, ih]

theorem compensationsOf_eq (j : Nat) (s : State V) :
    compensationsOf j s.history = ((trail j s).filterMap Note.compensation?).reverse := by
  rw [trail, filterMap_filter_closing, compensationsOf, List.filterMap_reverse]

theorem filterMap_compensatedNote (j : Nat) (l : List (WorkflowStep × V)) :
    (l.map (compensatedNote j)).filterMap Note.compensation? = l.map fun c => (c.1.id, c.2) := by
  induction l with
  | nil => rfl
  | cons c l ih => simp [compensatedNote, Note.compensation?, ih]

/-- An execution that returned has called the compensation of every step that succeeded and asks
for one, and of no other, once each and with the last output of the step, from the last step of the
definition to the first; an execution that succeeded has called none. -/
theorem compensations_exact (cfg : Config V) (p : Tasks V)
    (reach : (engine cfg).Reachable .initial p) (j : Nat) (definition : WorkflowDefinition)
    (executionId : Option String) (uuid : String) (ex : WorkflowExecution V)
    (hj : p.tasks[j]? = some (.execute definition executionId uuid, .ret (.execution ex))) :
    (ex.status = .succeeded → compensationsOf j p.state.history = []) ∧
      (ex.status ≠ .succeeded → compensationsOf j p.state.history =
        definition.steps.reverse.filterMap fun step =>
          if step.compensateOnFailure && succeeded ex.steps step.id then
            (finalOutput j step.id p.state.history).map (step.id, ·)
          else none) ∧
      ∀ step ∈ definition.steps, succeeded ex.steps step.id = true →
        ∃ output, finalOutput j step.id p.state.history = some output := by
  have settled := settled_of_reachable reach hj
  have hclosing : compensationsOf j p.state.history = ((if ex.status = .succeeded then []
      else owed ex.steps j p.state.history definition.steps).map
        fun c => (c.1.id, c.2)).reverse := by
    have htrail := settled.trail
    rw [compensationsOf_eq, htrail]
    simp only [List.filterMap_cons, List.filterMap_append, Note.compensation?, terminalNote,
      List.filterMap_nil, List.append_nil]
    split
    · rfl
    · rw [filterMap_compensatedNote]
  refine ⟨?_, ?_, ?_⟩
  · intro hstatus
    rw [hclosing, if_pos hstatus]
    rfl
  · intro hstatus
    rw [hclosing, if_neg hstatus, owed, List.map_filterMap, ← List.filterMap_reverse]
    apply List.filterMap_congr
    intro step _
    unfold compensation
    split
    · rw [Option.map_map]
      rfl
    · rfl
  · intro step hstep hsucceeded
    exact Option.isSome_iff_exists.mp (settled.outputs step hstep hsucceeded)

/-! ### Samples -/

def answerable [DecidableEq V] (s : State V) : (o : Op V) → Res o → Bool
  | .append _ _, .raised e | .notify _ _, .raised e | .gate _ _ _ _, .raised e
  | .sleep _, .raised e | .condition _ _ _, .returned (.raised e) => !e.isStepFailed
  | .gate _ owner opened wakes, .returned () => opened || wakes < s.wakes owner
  | .action _ owner _ _ _, .interrupted => s.cancelled owner
  | .join owner steps, some outcomes =>
      steps.map (fun step => Branch.outcome? (s.branches owner step.id)) = outcomes.map some
  | _, _ => true

theorem outcomes_eq {branches : List (Option (Branch V))} {outcomes : List (Called (StepResult V))}
    (h : branches.map Branch.outcome? = outcomes.map some) :
    branches = outcomes.map fun outcome => some (.done outcome) := by
  induction branches generalizing outcomes with
  | nil => cases outcomes <;> simp_all
  | cons branch branches ih =>
    cases outcomes with
    | nil => simp at h
    | cons outcome outcomes =>
      rw [List.map_cons, List.map_cons, List.cons.injEq] at h
      rw [List.map_cons, ← ih h.2]
      congr 1
      cases branch with
      | none => cases h.1
      | some b => cases b <;> simp_all [Branch.outcome?]

theorem answers_of_answerable [DecidableEq V] {s : State V} {o : Op V} {r : Res o}
    (h : answerable s o r = true) : Answers s o r := by
  cases o with
  | join owner steps =>
    cases r with
    | none => trivial
    | some outcomes =>
      refine outcomes_eq ?_
      rw [List.map_map]
      exact of_decide_eq_true h
  | action site owner step attempt inputs =>
    cases r with
    | interrupted => exact h
    | _ => trivial
  | gate site owner opened wakes =>
    cases r with
    | returned => simpa [answerable, Answers] using h
    | raised e => simpa [answerable, Answers] using h
  | condition site step state =>
    cases r with
    | raised e => trivial
    | returned value =>
      cases value with
      | returned b => trivial
      | raised e => simpa [answerable, Answers] using h
  | append | notify | sleep =>
    cases r with
    | returned => trivial
    | raised e => simpa [answerable, Answers] using h
  | _ => trivial

def playableMove [DecidableEq V] (p : Tasks V) : Move (Res (V := V)) Request Empty → Bool
  | .start (.branch owner stepId) => Branch.created? (p.state.branches owner stepId)
  | .start _ => true
  | .resume j answer => match p.tasks[j]? with
    | some (_, .call o _) => answerable p.state o (answer o)
    | _ => false
  | .world _ => false

theorem playableMove_legal [DecidableEq V] (cfg : Config V) (p : Tasks V)
    (m : Move (Res (V := V)) Request Empty) (h : playableMove p m = true) :
    (engine cfg).Legal p m := by
  cases m with
  | world w => cases h
  | start t =>
    cases t with
    | branch owner stepId => exact h
    | _ => trivial
  | resume j answer =>
    simp only [playableMove] at h
    split at h
    · next t o k hj => exact ⟨t, o, k, hj, answers_of_answerable h⟩
    · cases h

def sampleConfig : Config Nat := ⟨fun _ => .returned ⟨"sha", 1, []⟩, fun _ => true⟩

/-- The answers of a bus, a gate and callables that do what they should; an action ends as given,
and a join finds what is given. -/
def sampleAnswer (ended : Ended Nat) (outcomes : List (Called (StepResult Nat))) :
    (o : Op Nat) → Res o
  | .append _ _ | .notify _ _ | .gate _ _ _ _ | .sleep _ | .compensate _ _ => .returned ()
  | .condition _ _ _ => .returned (.returned true)
  | .inputs _ _ _ | .result _ => .returned 0
  | .action _ _ _ _ _ => ended
  | .postcheck _ _ _ _ _ => .returned true
  | .join _ _ => some outcomes

def firstStep : WorkflowStep := ⟨"a", "act", 1, false, false, 0, true, by decide, by decide⟩

def leftStep : WorkflowStep := ⟨"b", "act", 1, false, false, 0, true, by decide, by decide⟩

def rightStep : WorkflowStep := ⟨"c", "act", 1, false, false, 0, true, by decide, by decide⟩

theorem firstStage_nonempty : "one" ≠ "" ∧ [firstStep] ≠ [] := by decide

def sampleDefinition : WorkflowDefinition where
  id := "w"
  version := "1"
  capabilityId := "cap"
  stages := [⟨"one", .sequential, [firstStep], firstStage_nonempty⟩,
    ⟨"two", .parallel, [leftStep, rightStep], by decide⟩]
  nonempty := by decide
  distinct := by decide

/-- The first step and one branch succeed, the other branch fails. -/
def sampleMoves : List (Move (Res (V := Nat)) Request Empty) :=
  .start (.execute sampleDefinition (some "run-one") "uuid") ::
    List.replicate 13 (.resume 0 (sampleAnswer (.finished (.returned 7)) [])) ++
    .start (.branch 0 "b") ::
    List.replicate 7 (.resume 1 (sampleAnswer (.finished (.returned 8)) [])) ++
    .start (.branch 0 "c") ::
    List.replicate 7 (.resume 2 (sampleAnswer (.finished (.raised .exception)) [])) ++
    List.replicate 15 (.resume 0 (sampleAnswer .timedOut
      [.returned (succeededRecord leftStep 1, some 8),
        .raised (.stepFailed (failedRecord rightStep 1 "ACTION_FAILED"))]))

def sampleRun : Tasks Nat := (engine sampleConfig).play (System.initial .initial) sampleMoves

def sampleExecution : WorkflowExecution Nat where
  id := "run-one"
  workflowId := "w"
  workflowVersion := "1"
  capabilityId := "cap"
  status := .failed
  steps := [succeededRecord firstStep 1, succeededRecord leftStep 1,
    failedRecord rightStep 1 "ACTION_FAILED"]
  result := none
  errorCode := some "ACTION_FAILED"
  rollbackPerformed := true

set_option maxRecDepth 20000 in
/-- The branch that succeeded is compensated first, and the step before it second. -/
theorem compensations_exact_run :
    sampleRun.ended 0 = some (.execute sampleDefinition (some "run-one") "uuid",
      some (.ok (.execution sampleExecution))) ∧
    compensationsOf 0 sampleRun.state.history = [("b", 8), ("a", 7)] := by
  have ended : sampleRun.ended 0 = some (.execute sampleDefinition (some "run-one") "uuid",
      some (.ok (.execution sampleExecution))) := by decide +kernel
  have reach : (engine sampleConfig).Reachable .initial sampleRun :=
    ⟨sampleMoves, System.run_of_checked (playableMove_legal sampleConfig) (by decide +kernel)⟩
  have exact := compensations_exact sampleConfig sampleRun reach 0 _ _ _ _
    (Pool.task_of_ended ended)
  exact ⟨ended, (exact.2.1 (by decide)).trans (by decide +kernel)⟩

end Ares.Workflows
