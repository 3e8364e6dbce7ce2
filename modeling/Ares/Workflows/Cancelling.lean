import Ares.Coop.Paced
import Ares.Workflows.Executions

/-! What a cancelled execution still starts.  A task looks at the flag at its checkpoint; then it
publishes `action.started`, and then it starts the action. -/

namespace Ares.Workflows

open Coop

variable {V : Type}

/-- The attempt whose `action.started` a call publishes. -/
def Op.starting? : Op V → Option (String × Nat)
  | .append _ event | .notify _ event => match event.event with
    | .actionStarted stepId _ attempt => some (stepId, attempt)
    | _ => none
  | _ => none

def Event.isActionStart : Event → Bool
  | .actionStarted _ _ _ => true
  | _ => false

def Request.owner? (task : Nat) : Request → Option Nat
  | .execute _ _ _ => some task
  | .branch owner _ => some owner
  | .control _ _ => none

/-- The task waits for the publication of `action.started` of the attempt. -/
def Starts (last : Option (Op V)) (x : String × Nat) : Prop :=
  ∃ call, last = some call ∧ call.starting? = some x

/-- A task starts an action only where it has published that it does, and it begins to publish that
only where its execution is not cancelled.  A cancellation stands. -/
def pace (task : Nat) (owner : Option Nat) : Pace (State V) (Op V) where
  write last s s' := (∀ o, s.cancelled o = true → s'.cancelled o = true) ∧
    ∃ n, s'.history = n :: s.history ∧
      (∀ i o, n = .controlled i o .cancel → s'.cancelled o = true) ∧
      ∀ i o stepId attempt, n = .attempted i o stepId attempt →
        i = task ∧ owner = some o ∧ Starts last (stepId, attempt)
  ask last s o := ∀ x, o.starting? = some x →
    (∃ j, owner = some j ∧ s.cancelled j = false) ∨ Starts last x

section Parts

variable {task j : Nat} {owner : Option Nat} {last : Option (Op V)} {s s' : State V} {site : Site}
  {e : Execution} {step : WorkflowStep} {α : Type}

def Note.idle : Note V → Bool
  | .attempted _ _ _ _ | .controlled _ _ .cancel => false
  | _ => true

theorem write_of_note {n : Note V} (hn : n.idle = true) (hhistory : s'.history = n :: s.history)
    (hcancelled : s'.cancelled = s.cancelled) : (pace task owner).write last s s' := by
  refine ⟨fun o h => hcancelled ▸ h, n, hhistory, ?_, ?_⟩
  · rintro i o rfl
    cases hn
  · rintro i o stepId attempt rfl
    cases hn

theorem write_note {n : Note V} (hn : n.idle = true) :
    (pace task owner).write last s (s.note n) := write_of_note hn rfl rfl

theorem ask_other {o : Op V} (h : o.starting? = none) : (pace task owner).ask last s o := by
  intro x hx
  rw [h] at hx
  cases hx

theorem keeping_ofCalled (c : Called α) :
    (ofCalled c : Task V α).Keeping (pace task owner) last s := by
  cases c <;> trivial

theorem keeping_ask {o : Op V} {f : Res o → Task V α} (h : o.starting? = none)
    (hf : ∀ r s, (f r).Keeping (pace task owner) (some o) s) :
    ((ask o).bind f).Keeping (pace task owner) last s :=
  paced_bind.mpr ⟨ask_other h, fun r s => hf r s⟩

theorem keeping_modify {f : State V → State V} {g : Unit → Task V α}
    (h : ∀ s, (pace task owner).write last s (f s))
    (hg : ∀ s, (g ()).Keeping (pace task owner) last s) :
    ((Proc.modify f).bind g).Keeping (pace task owner) last s :=
  paced_bind.mpr ⟨h s, hg (f s)⟩

theorem starting_other {event : Event} (h : event.isActionStart = false) (site : Site)
    (e : Execution) :
    (Op.append site ⟨e.definition.capabilityId, e.id, e.definition.id, event⟩ : Op V).starting? =
      none ∧
    (Op.notify site ⟨e.definition.capabilityId, e.id, e.definition.id, event⟩ : Op V).starting? =
      none := by
  cases event with
  | actionStarted => cases h
  | _ => exact ⟨rfl, rfl⟩

theorem emit_keeping {event : Event} (h : event.isActionStart = false) :
    (emit task site e event : Task V Unit).Keeping (pace task owner) last s := by
  obtain ⟨happend, hnotify⟩ := starting_other (V := V) h site e
  refine keeping_ask happend fun appended s => ?_
  refine (keeping_ofCalled appended).bind_keeping fun _ last s => ?_
  refine keeping_modify (fun s => write_note rfl) fun s => ?_
  exact keeping_ask hnotify fun notified s => keeping_ofCalled notified

theorem emit_starts {stepId actionId : String} {attempt : Nat} (hcancelled : s.cancelled j = false) :
    (emit task site e (.actionStarted stepId actionId attempt) : Task V Unit).Paced
      (pace task (some j)) (fun _ last _ => Starts last (stepId, attempt)) (fun _ _ _ => True)
      last s := by
  refine paced_bind.mpr ⟨?_, fun appended s => ?_⟩
  · exact fun _ _ => Or.inl ⟨j, rfl, hcancelled⟩
  · cases appended with
    | raised exc => trivial
    | returned =>
      refine ⟨write_note rfl, ?_, fun notified s => ?_⟩
      · rintro x hx
        exact Or.inr ⟨_, rfl, hx⟩
      · cases notified with
        | raised exc => trivial
        | returned => exact ⟨_, rfl, rfl⟩

theorem checkpoint_open : (checkpoint site j : Task V Unit).Paced (pace task owner)
      (fun _ _ s => s.cancelled j = false) (fun _ _ _ => True) last s := by
  refine ⟨ask_other rfl, fun waited s => ?_⟩
  cases waited with
  | raised exc => trivial
  | returned =>
    show Proc.Paced _ (require (!s.cancelled j) _) _ _ _ _
    cases hcancelled : s.cancelled j with
    | false => exact hcancelled
    | true => trivial

/-! ### One step -/

theorem runAction_keeping {attempt : Nat} (hstarts : Starts last (step.id, attempt)) (inputs : V) :
    (runAction task site e step attempt inputs).Keeping (pace task (some e.owner)) last s := by
  refine ⟨⟨fun _ h => h, _, rfl, by simp, ?_⟩, ask_other rfl, fun ended s => ?_⟩
  · rintro i o stepId n heq
    obtain ⟨rfl, rfl, rfl, rfl⟩ := Note.attempted.inj heq
    exact ⟨rfl, rfl, hstarts⟩
  · cases ended with
    | timedOut | interrupted | stopped => trivial
    | finished outcome =>
      cases outcome with
      | raised exc => trivial
      | returned output => exact ⟨write_note rfl, trivial⟩

theorem runPostchecks_keeping (attempt : Nat) (output : V) (index remaining : Nat) :
    (runPostchecks task site e step attempt output index remaining).Keeping (pace task owner)
      last s := by
  induction remaining generalizing index last s with
  | zero => trivial
  | succ remaining ih =>
    refine keeping_ask rfl fun answer s => ?_
    refine (keeping_ofCalled answer).bind_keeping fun passed last s => ?_
    refine (keeping_require _ _).bind_keeping fun _ last s => ?_
    exact (emit_keeping rfl).bind_keeping fun _ last s => ih (index + 1)

theorem delayRetry_keeping (retrying : Bool) :
    (delayRetry site step retrying : Task V Unit).Keeping (pace task owner) last s := by
  unfold delayRetry
  split
  · exact keeping_ask rfl fun slept s => keeping_ofCalled slept
  · trivial

theorem runAttempts_keeping (inputs : V) (attempts : Nat) (error : ErrorCode) (remaining : Nat) :
    (runAttempts task site e step inputs attempts error remaining).Keeping
      (pace task (some e.owner)) last s := by
  induction remaining generalizing attempts error last s with
  | zero => trivial
  | succ remaining ih =>
    refine paced_bind.mpr (checkpoint_open.mono ?_ fun _ _ _ h => h)
    intro _ last s hcancelled
    refine paced_bind.mpr ((emit_starts hcancelled).mono ?_ fun _ _ _ h => h)
    intro _ last s hstarts
    have hattempt : (runAttempt task site e step (attempts + 1) inputs).Keeping
        (pace task (some e.owner)) last s :=
      (runAction_keeping hstarts inputs).bind_keeping fun output last s =>
        (runPostchecks_keeping _ output 0 _).bind_keeping fun _ last s => trivial
    refine hattempt.observe_keeping.bind_keeping fun outcome last s => ?_
    cases outcome with
    | ok output => exact (emit_keeping rfl).bind_keeping fun _ last s => trivial
    | error exc =>
      dsimp only
      cases lastError exc with
      | none => trivial
      | some error' =>
        refine (emit_keeping rfl).bind_keeping fun _ last s => ?_
        exact (delayRetry_keeping _).bind_keeping fun _ last s => ih (attempts + 1) error'

theorem runStep_keeping (state : Outputs V) :
    (runStep task site e step state).Keeping (pace task (some e.owner)) last s := by
  have hshould : (shouldRun site step state).Keeping (pace task (some e.owner)) last s := by
    unfold shouldRun
    split
    · refine keeping_ask rfl fun answer s => ?_
      cases answer with
      | returned value => exact keeping_ofCalled value
      | raised exc => trivial
    · trivial
  refine hshould.bind_keeping fun run last s => ?_
  cases run with
  | false => exact (emit_keeping rfl).bind_keeping fun _ last s => trivial
  | true =>
    refine Proc.Paced.bind_keeping (keeping_ask rfl fun answer s => ?_) fun inputs last s =>
      runAttempts_keeping inputs 0 _ _
    cases answer <;> trivial

/-! ### The stages and the end -/

theorem runSequential_keeping (p : Progress V) (steps : List WorkflowStep) :
    (runSequential task e p steps).Keeping (pace task (some e.owner)) last s := by
  induction steps generalizing p last s with
  | nil => trivial
  | cons step steps ih =>
    refine (runStep_keeping _).observe_keeping.bind_keeping fun outcome last s => ?_
    cases outcome with
    | ok result => exact ih (p.add step result)
    | error exc => trivial

theorem runParallel_keeping (p : Progress V) (steps : List WorkflowStep) :
    (runParallel e p steps).Keeping (pace task owner) last s := by
  refine keeping_modify (fun s => ?_) fun s => keeping_ask rfl fun joined s => ?_
  · exact write_of_note (n := .forked e.owner) rfl rfl rfl
  · cases joined <;> trivial

theorem runStages_keeping (p : Progress V) (stages : List WorkflowStage) :
    (runStages task e p stages).Keeping (pace task (some e.owner)) last s := by
  induction stages generalizing p last s with
  | nil => trivial
  | cons stage stages ih =>
    have hstage : ∀ last s, (runStage task e p stage).Keeping (pace task (some e.owner)) last s := by
      intro last s
      have hcheckpoint : (checkpoint .main e.owner : Task V Unit).Keeping
          (pace task (some e.owner)) last s :=
        checkpoint_open.mono (fun _ _ _ _ => trivial) fun _ _ _ h => h
      refine hcheckpoint.observe_keeping.bind_keeping fun passed last s => ?_
      cases passed with
      | error exc => trivial
      | ok _ =>
        dsimp only
        cases stage.mode with
        | sequential => exact runSequential_keeping p stage.steps
        | parallel => exact runParallel_keeping p stage.steps
    refine (hstage last s).bind_keeping fun r last s => ?_
    obtain ⟨p', halt⟩ := r
    cases halt with
    | none => exact ih p'
    | some halt => trivial

theorem compensateAll_keeping (complete : Bool) (l : List (WorkflowStep × V)) :
    (compensateAll task e complete l).Keeping (pace task owner) last s := by
  induction l generalizing complete last s with
  | nil => trivial
  | cons c l ih =>
    refine keeping_modify (fun s => write_note rfl) fun s => keeping_ask rfl fun answer s => ?_
    cases answer with
    | returned => exact (emit_keeping rfl).bind_keeping fun _ last s => ih complete
    | raised exc =>
      show Proc.Keeping _ (if exc.caught = true then _ else _) _ _
      split
      · exact (emit_keeping rfl).bind_keeping fun _ last s => ih false
      · trivial

variable {cfg : Config V}

theorem close_keeping (p : Progress V) (verdict : Verdict V) :
    (close cfg task e p verdict).Keeping (pace task owner) last s := by
  refine Proc.Paced.bind_keeping ?_ fun rollbackPerformed last s => ?_
  · unfold rollback
    split
    · refine (emit_keeping rfl).bind_keeping fun _ last s => ?_
      refine (compensateAll_keeping true _).bind_keeping fun _ last s => ?_
      exact (emit_keeping rfl).bind_keeping fun _ last s => trivial
    · trivial
  · refine (keeping_require _ _).bind_keeping fun _ last s => ?_
    refine (emit_keeping rfl).bind_keeping fun _ last s => ?_
    refine (emit_keeping rfl).bind_keeping fun _ last s => ?_
    exact keeping_modify (fun s => write_of_note (n := .settled task _ _ _) rfl rfl rfl)
      fun s => trivial

theorem finish_keeping (p : Progress V) (halt : Option Halt) :
    (finish cfg task e p halt).Keeping (pace task owner) last s := by
  have hinvalid : ∀ (result : Option V) exc last s,
      (resultInvalid result exc).Keeping (pace task owner) last s := by
    intro result exc last s
    cases exc <;> trivial
  cases halt with
  | none =>
    refine Proc.Paced.bind_keeping (keeping_ask rfl fun answer s => ?_) fun verdict last s =>
      close_keeping p verdict
    cases answer with
    | raised exc => exact hinvalid none exc _ s
    | returned result =>
      dsimp only
      cases cfg.resultReceipt result with
      | raised exc => exact hinvalid (some result) exc _ s
      | returned receipt => trivial
  | some halt =>
    cases halt with
    | escaped exc => trivial
    | _ => exact close_keeping _ _

theorem execute_keeping (definition : WorkflowDefinition) (executionId : Option String)
    (uuid : String) :
    (execute cfg task definition executionId uuid).Keeping (pace task (some task)) last s := by
  refine (keeping_require _ _).bind_keeping fun _ last s => ?_
  refine keeping_modify (fun s => ?_) fun s => ?_
  · exact write_of_note (n := .opened task _) rfl rfl rfl
  refine (emit_keeping rfl).bind_keeping fun _ last s => ?_
  refine (emit_keeping rfl).bind_keeping fun _ last s => ?_
  refine (runStages_keeping (e := ⟨task, _, definition⟩) .empty _).bind_keeping fun r last s => ?_
  exact finish_keeping r.1 r.2

theorem control_keeping (call : ControlCall) (executionId : String) :
    (control task call executionId : Task V Bool).Keeping (pace task owner) last s := by
  refine Proc.keeping_reading ?_
  cases s.controls.lookup executionId with
  | none => trivial
  | some e =>
    refine keeping_modify (fun s => ?_) fun s => ?_
    · cases call with
      | pause => exact write_of_note (n := .controlled task e.owner .pause) rfl rfl rfl
      | resume => exact write_of_note (n := .controlled task e.owner .resume) rfl rfl rfl
      | cancel =>
        refine ⟨fun o h => ?_, .controlled task e.owner .cancel, rfl, ?_, by simp⟩
        · show Function.update s.cancelled e.owner true o = true
          by_cases ho : o = e.owner
          · simp [ho]
          · simpa [ho] using h
        · rintro i o heq
          obtain ⟨-, rfl, -⟩ := Note.controlled.inj heq
          exact Function.update_self _ _ _
    · refine (emit_keeping ?_).bind_keeping fun _ last s => trivial
      cases call <;> rfl

theorem runBranch_keeping {stepId : String}
    (h : ∀ e step snapshot, s.branches j stepId = some (.created e step snapshot) → e.owner = j) :
    (runBranch task j stepId).Keeping (pace task (some j)) last s := by
  refine Proc.keeping_reading ?_
  cases hfound : s.branches j stepId with
  | none => trivial
  | some b =>
    cases b with
    | created e step snapshot =>
      obtain rfl := h e step snapshot hfound
      refine keeping_modify (fun s => ?_) fun s => ?_
      · exact write_of_note (n := .entered task e.owner stepId) rfl rfl rfl
      refine (runStep_keeping snapshot).observe_keeping.bind_keeping fun outcome last s => ?_
      exact ⟨write_of_note (n := .left task e.owner stepId) rfl rfl rfl, trivial⟩
    | _ => trivial

theorem handler_keeping {t : Request} (hi : Inv s) :
    (handler cfg task t).Keeping (pace task (t.owner? task)) none s := by
  refine ⟨write_note rfl, ?_⟩
  cases t with
  | execute definition executionId uuid =>
    exact (execute_keeping definition executionId uuid).bind_keeping fun _ _ _ => trivial
  | control call executionId =>
    exact (control_keeping call executionId).bind_keeping fun _ _ _ => trivial
  | branch owner stepId =>
    refine (runBranch_keeping ?_).bind_keeping fun _ _ _ => trivial
    exact fun e step snapshot h => (hi.created owner stepId e step snapshot h).1

end Parts

/-! ### Runs -/

/-- A task of the execution `j` publishes `action.started` of the attempt. -/
def Publishing (p : Tasks V) (j task : Nat) (stepId : String) (attempt : Nat) : Prop :=
  ∃ t o k, p.tasks[task]? = some (t, .call o k) ∧ t.owner? task = some j ∧
    o.starting? = some (stepId, attempt)

/-- What a run from `p` on has come to, where the execution `j` was cancelled in `p`: it has started
only actions whose `action.started` was being published in `p`, and it publishes no other. -/
structure Late (j : Nat) (p p' : Tasks V) : Prop where
  cancelled : p'.state.cancelled j = true
  newer : ∃ newer, p'.state.history = newer ++ p.state.history ∧
    ∀ i stepId attempt, .attempted i j stepId attempt ∈ newer → Publishing p j i stepId attempt
  publishing : ∀ (i : Nat) (t : Request) (q : Task V (Reply V)), p'.tasks[i]? = some (t, q) →
    t.owner? i = some j → ∀ o k, q = .call o k → ∀ x, o.starting? = some x →
      Publishing p j i x.1 x.2

section Runs

variable {cfg : Config V} {p p' : Tasks V} {j : Nat}

theorem writes_chain {task : Nat} {owner : Option Nat} {last : Option (Op V)} {s s' : State V}
    (h : Relation.ReflTransGen ((pace task owner).write last) s s') :
    (∀ o, s.cancelled o = true → s'.cancelled o = true) ∧
      ∃ newer, s'.history = newer ++ s.history ∧
        (∀ i o, .controlled i o .cancel ∈ newer → s'.cancelled o = true) ∧
        ∀ i o stepId attempt, .attempted i o stepId attempt ∈ newer →
          i = task ∧ owner = some o ∧ Starts last (stepId, attempt) := by
  induction h with
  | refl => exact ⟨fun _ h => h, [], rfl, by simp, by simp⟩
  | tail _ hlast ih =>
    obtain ⟨hcancelled, newer, heq, hcancels, hnewer⟩ := ih
    obtain ⟨hcancelled', n, hhistory, hcancels', hn⟩ := hlast
    refine ⟨fun o ho => hcancelled' o (hcancelled o ho), n :: newer, by rw [hhistory, heq]; rfl,
      ?_, ?_⟩
    · intro i o hmem
      rcases List.mem_cons.mp hmem with heq | hmem
      · exact hcancels' i o heq.symm
      · exact hcancelled' o (hcancels i o hmem)
    · intro i o stepId attempt hmem
      rcases List.mem_cons.mp hmem with heq | hmem
      · exact hn i o stepId attempt heq.symm
      · exact hnewer i o stepId attempt hmem

theorem handler_paced (p : Tasks V) (t : Request) (reach : (engine cfg).Reachable .initial p) :
    (handler cfg p.tasks.length t).Keeping (pace p.tasks.length (t.owner? p.tasks.length)) none
      p.state :=
  handler_keeping (holds_of_reachable reach).inv

theorem cancelled_of_controlled (reach : (engine cfg).Reachable .initial p) {c : Nat}
    (h : .controlled c j .cancel ∈ p.state.history) : p.state.cancelled j = true := by
  obtain ⟨ms, run⟩ := reach
  have hboth := run.invariant (P := fun p => (engine cfg).Reachable .initial p ∧
    ∀ c j, .controlled c j .cancel ∈ p.state.history → p.state.cancelled j = true) ?_
    ⟨⟨[], .nil _⟩, by simp [System.initial, State.initial]⟩
  · exact hboth.2 c j h
  rintro p m legal ⟨reach, hknown⟩
  refine ⟨reach.next legal, fun c j hmem => ?_⟩
  have hpaced := System.paced_next (A := fun i t => pace i (t.owner? i))
    (fun p t reach _ => handler_paced p t reach) reach legal
  obtain ⟨w, -⟩ | ⟨i, t, last, q, -, hwrites, -⟩ := hpaced
  · exact w.elim
  obtain ⟨hcancelled, newer, heq, hcancels, -⟩ := writes_chain hwrites
  rw [heq] at hmem
  rcases List.mem_append.mp hmem with hmem | hmem
  · exact hcancels c j hmem
  · exact hcancelled j (hknown c j hmem)

theorem late_next (hlate : Late j p p') (reach : (engine cfg).Reachable .initial p')
    {m : Move (Res (V := V)) Request Empty} (legal : (engine cfg).Legal p' m) :
    Late j p ((engine cfg).next p' m) := by
  have hpaced := System.paced_next (A := fun i t => pace i (t.owner? i))
    (fun p t reach _ => handler_paced p t reach) reach legal
  obtain ⟨w, -⟩ | ⟨i, t, last, q, hsegment, hwrites, hasks⟩ := hpaced
  · exact w.elim
  obtain ⟨hcancelled, newer, heq, -, hnewer⟩ := writes_chain hwrites
  -- What the segment was resumed from was being published in `p`.
  have hlast : t.owner? i = some j → ∀ x, Starts last x → Publishing p j i x.1 x.2 := by
    rintro howner x ⟨call, rfl, hcall⟩
    cases hsegment with
    | resume hi => exact hlate.publishing i t _ hi howner call _ rfl x hcall
  obtain ⟨before, hbefore, hknown⟩ := hlate.newer
  refine ⟨hcancelled j hlate.cancelled, ⟨newer ++ before, ?_, ?_⟩, ?_⟩
  · rw [heq, hbefore, List.append_assoc]
  · intro i' stepId attempt hmem
    rcases List.mem_append.mp hmem with hmem | hmem
    · obtain ⟨rfl, howner, hstarts⟩ := hnewer i' j stepId attempt hmem
      exact hlast howner _ hstarts
    · exact hknown i' stepId attempt hmem
  · intro i' t' q' hi' howner o k hq x hx
    rcases System.task_or_segment legal hi' with hold | ⟨last', hsegment'⟩
    · exact hlate.publishing i' t' q' hold howner o k hq x hx
    · have hsame : i' = i ∧ t' = t ∧ last' = last ∧ q' = q := by
        cases hsegment with
        | start =>
          cases hsegment'
          exact ⟨rfl, rfl, rfl, rfl⟩
        | resume hi =>
          cases hsegment' with
          | resume hi'' =>
            rw [hi] at hi''
            cases hi''
            exact ⟨rfl, rfl, rfl, rfl⟩
      obtain ⟨rfl, rfl, rfl, rfl⟩ := hsame
      rcases hasks o k hq x hx with ⟨j', hj', hnot⟩ | hstarts
      · obtain rfl : j' = j := Option.some.inj (hj'.symm.trans howner)
        rw [hcancelled j' hlate.cancelled] at hnot
        cases hnot
      · exact hlast howner x hstarts

/-- After an execution was cancelled, it starts only actions whose `action.started` was being
published then. -/
theorem late_of_run {ms : List (Move (Res (V := V)) Request Empty)}
    (reach : (engine cfg).Reachable .initial p) (hcancelled : p.state.cancelled j = true)
    (run : (engine cfg).Run p ms p') : Late j p p' := by
  have hboth := run.invariant (P := fun p' => (engine cfg).Reachable .initial p' ∧ Late j p p')
    (fun q m legal h => ⟨h.1.next legal, late_next h.2 h.1 legal⟩)
    ⟨reach, hcancelled, ⟨[], rfl, by simp⟩, ?_⟩
  · exact hboth.2
  · rintro i t q hi howner o k rfl x hx
    exact ⟨t, o, k, hi, howner, hx⟩

end Runs

end Ares.Workflows
