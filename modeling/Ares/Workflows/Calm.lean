import Ares.Workflows.Executions

/-! Runs in which nothing escapes the `except` clauses of `execute`.  `Calm` says which answers the
task of an `execute` may get there; the tasks of a parallel stage may get any. -/

namespace Ares.Workflows

open Coop

variable {V : Type}

/-- The `except` clauses of an attempt take the exception and make a text of it. -/
def Exc.coded (e : Exc) : Bool := e.caught && e != .actionError .other

/-- The exceptions of a step that the `except` clauses of `execute` take. -/
def Exc.halts : Exc → Bool
  | .stepFailed _ | .executionCancelled => true
  | _ => false

/-- The exceptions that the `except` of the result takes. -/
def Exc.invalidates : Exc → Bool
  | .typeError | .valueError => true
  | _ => false

def Event.isStart : Event → Bool
  | .workflowStarted _ => true
  | _ => false

def Event.isPostcheck : Event → Bool
  | .postcheckPassed _ _ => true
  | _ => false

/-- An attempt may end with the exception: only the code of the last attempt goes into a record. -/
def Handled (step : WorkflowStep) (attempt : Nat) (e : Exc) : Prop :=
  e.caught = true ∧ (attempt = step.maxAttempts → e.coded = true)

/-- An answer whose exception does not escape from `execute`: nothing cancels the task; events are
published; a condition's value can be tested; no exception but an `Exception` comes from a
condition, an input factory, an action, a postcheck or a compensation, and the last one of a step
has a text as its code; a result factory raises only what the `except` names, and `execute` can
store what it returns. -/
def Calm (cfg : Config V) : (o : Op V) → Res o → Prop
  | .append .main event, .raised e =>
      event.event.isStart = true ∨ event.event.isPostcheck = true ∧ e.coded = true
  | .notify .main event, .raised e => event.event.isPostcheck = true ∧ e.coded = true
  | .gate .main _ _ _, .raised _ | .sleep .main, .raised _ => False
  | .condition .main _ _, .raised e | .inputs .main _ _, .raised e => e.caught = true
  | .condition .main _ _, .returned (.raised e) => e = .executionCancelled
  | .action .main _ step attempt _, .finished (.raised e) => Handled step attempt e
  | .action .main _ _ _ _, .stopped => False
  | .postcheck .main step attempt _ _, .raised e => Handled step attempt e
  | .join _ _, none => False
  | .result _, .raised e => e.invalidates = true
  | .result _, .returned v =>
      cfg.accepts v = true ∧ ∀ e, cfg.resultReceipt v = .raised e → e.invalidates = true
  | .compensate _ _, .raised e => e.caught = true
  | _, _ => True

/-! ### How the parts of an execution end -/

/-- The other tasks may do anything. -/
def free (cfg : Config V) : Logic (State V) (Res (V := V)) :=
  ⟨fun _ => True, fun _ _ => True, fun _ _ => True, fun _ => Calm cfg⟩

/-- With calm answers, `p` returns in `Q` or raises in `E`. -/
def Ends {α : Type} (cfg : Config V) (p : Task V α) (Q : α → Prop) (E : Exc → Prop) : Prop :=
  ∀ s, p.Spec (free cfg) (fun a _ => Q a) (fun e _ => E e) s

section Rules

variable {cfg : Config V} {α β : Type} {p : Task V α} {f : α → Task V β} {Q Q' : α → Prop}
  {R : β → Prop} {E E' : Exc → Prop}

theorem ends_ret {a : α} (h : Q a) : Ends cfg (.ret a) Q E := fun _ => h

theorem ends_raise {e : Exc} (h : E e) : Ends cfg (.raise e : Task V α) Q E := fun _ => h

theorem Ends.bind (hp : Ends cfg p Q E) (hf : ∀ a, Q a → Ends cfg (f a) R E) :
    Ends cfg (p.bind f) R E :=
  fun s => spec_bind.mpr ((hp s).mono (fun a s' ha => hf a ha s') fun _ _ he => he)

theorem Ends.mono (hp : Ends cfg p Q E) (hQ : ∀ a, Q a → Q' a) (hE : ∀ e, E e → E' e) :
    Ends cfg p Q' E' :=
  fun s => (hp s).mono (fun a _ => hQ a) fun e _ => hE e

theorem Ends.raises (hp : Ends cfg p Q E) (hE : ∀ e, E e → E' e) : Ends cfg p Q E' :=
  hp.mono (fun _ ha => ha) hE

theorem Ends.observe_bind {g : Except Exc α → Task V β} (hp : Ends cfg p Q E')
    (hok : ∀ a, Q a → Ends cfg (g (.ok a)) R E)
    (herror : ∀ e, E' e → Ends cfg (g (.error e)) R E) : Ends cfg (p.observe.bind g) R E :=
  fun s => spec_bind.mpr (spec_observe.mpr
    ((hp s).mono (fun a s' ha => hok a ha s') fun e s' he => herror e he s'))

theorem ends_ask {o : Op V} {g : Res o → Task V β} (hg : ∀ r, Calm cfg o r → Ends cfg (g r) R E) :
    Ends cfg ((ask o).bind g) R E :=
  fun _ => spec_bind.mpr fun s' _ _ r hr => hg r hr s'

theorem ends_modify_bind {g : State V → State V} {f : Unit → Task V β}
    (hf : Ends cfg (f ()) R E) : Ends cfg ((Proc.modify g).bind f) R E :=
  fun s => ⟨trivial, trivial, hf (g s)⟩

theorem ends_reading_bind {g : State V → α} (hf : ∀ a, Ends cfg (f a) R E) :
    Ends cfg ((reading g).bind f) R E :=
  fun s => hf (g s) s

theorem ends_require {c : Bool} {e : Exc} {Q : Unit → Prop} (h : c = true → Q ())
    (he : c = false → E e) : Ends cfg (require c e : Task V Unit) Q E := by
  cases c with
  | true => exact ends_ret (h rfl)
  | false => exact ends_raise (he rfl)

end Rules

section Parts

variable {cfg : Config V} {task : Nat} {e : Execution} {step : WorkflowStep}

theorem emit_ends {event : Event} {E : Exc → Prop}
    (happend : ∀ exc, event.isStart = true ∨ event.isPostcheck = true ∧ exc.coded = true → E exc) :
    Ends cfg (emit task .main e event : Task V Unit) (fun _ => True) E := by
  refine ends_ask fun appended hcalm => ?_
  cases appended with
  | raised exc => exact ends_raise (happend exc hcalm)
  | returned =>
    refine ends_modify_bind (ends_ask fun notified hcalm => ?_)
    cases notified with
    | returned => exact ends_ret trivial
    | raised exc => exact ends_raise (happend exc (Or.inr hcalm))

theorem emit_silent {event : Event} (hstart : event.isStart = false)
    (hpostcheck : event.isPostcheck = false) (E : Exc → Prop) :
    Ends cfg (emit task .main e event : Task V Unit) (fun _ => True) E := by
  refine emit_ends fun exc h => ?_
  rcases h with h | ⟨h, -⟩
  · rw [hstart] at h
    cases h
  · rw [hpostcheck] at h
    cases h

theorem checkpoint_ends (owner : Nat) :
    Ends cfg (checkpoint .main owner : Task V Unit) (fun _ => True)
      fun exc => exc = .executionCancelled := by
  refine ends_reading_bind fun opened => ends_reading_bind fun wakes =>
    ends_ask fun waited hcalm => ?_
  cases waited with
  | raised exc => exact hcalm.elim
  | returned =>
    exact ends_reading_bind fun cancelled => ends_require (fun _ => trivial) fun _ => rfl

theorem handled_of_coded {exc : Exc} (attempt : Nat) (h : exc.coded = true) :
    Handled step attempt exc := by
  have hcaught : exc.caught = true := by
    unfold Exc.coded at h
    exact (Bool.and_eq_true _ _ ▸ h).1
  exact ⟨hcaught, fun _ => h⟩

theorem runAction_ends (attempt : Nat) (inputs : V) :
    Ends cfg (runAction task .main e step attempt inputs) (fun _ => True)
      (Handled step attempt) := by
  refine ends_modify_bind (ends_ask fun ended hcalm => ?_)
  cases ended with
  | timedOut => exact ends_raise (handled_of_coded attempt rfl)
  | interrupted => exact ends_raise (handled_of_coded attempt rfl)
  | stopped => exact hcalm.elim
  | finished outcome =>
    cases outcome with
    | returned output => exact ends_modify_bind (ends_ret trivial)
    | raised exc => exact ends_raise hcalm

theorem runPostchecks_ends (attempt : Nat) (output : V) (index remaining : Nat) :
    Ends cfg (runPostchecks task .main e step attempt output index remaining) (fun _ => True)
      (Handled step attempt) := by
  induction remaining generalizing index with
  | zero => exact ends_ret trivial
  | succ remaining ih =>
    refine ends_ask fun answer hcalm => ?_
    cases answer with
    | raised exc => exact ends_raise hcalm
    | returned passed =>
      refine (ends_require (Q := fun _ => True) (fun _ => trivial) fun _ =>
        handled_of_coded attempt rfl).bind fun _ _ => ?_
      refine (emit_ends fun exc h => ?_).bind fun _ _ => ih (index + 1)
      rcases h with h | ⟨-, h⟩
      · cases h
      · exact handled_of_coded attempt h

theorem runAttempt_ends (attempt : Nat) (inputs : V) :
    Ends cfg (runAttempt task .main e step attempt inputs) (fun _ => True)
      (Handled step attempt) :=
  (runAction_ends attempt inputs).bind fun output _ =>
    (runPostchecks_ends attempt output 0 step.postchecks).bind fun _ _ => ends_ret trivial

theorem halts_of_lastError {exc : Exc} (hcaught : exc.caught = true) (h : lastError exc = none) :
    exc.halts = true := by
  cases exc with
  | executionCancelled => rfl
  | cancelledError => cases hcaught
  | _ => cases h

theorem lastError_of_coded {exc : Exc} {error : ErrorCode} (hcoded : exc.coded = true)
    (h : lastError exc = some error) : error ≠ .other := by
  cases exc with
  | actionError code =>
    obtain rfl := Option.some.inj h
    rintro rfl
    cases hcoded
  | executionCancelled | cancelledError => cases h
  | _ =>
    obtain rfl := Option.some.inj h
    simp

theorem runAttempts_ends (inputs : V) (attempts : Nat) (error : ErrorCode) (remaining : Nat)
    (hattempts : attempts + remaining = step.maxAttempts)
    (herror : remaining = 0 → error ≠ .other) :
    Ends cfg (runAttempts task .main e step inputs attempts error remaining) (fun _ => True)
      fun exc => exc.halts = true := by
  induction remaining generalizing attempts error with
  | zero =>
    cases error with
    | text code => exact ends_raise rfl
    | other => exact absurd rfl (herror rfl)
  | succ remaining ih =>
    refine ((checkpoint_ends e.owner).raises ?_).bind fun _ _ => ?_
    · rintro exc rfl
      rfl
    refine (emit_silent rfl rfl _).bind fun _ _ => ?_
    refine (runAttempt_ends (attempts + 1) inputs).observe_bind (fun output _ => ?_) ?_
    · exact (emit_silent rfl rfl _).bind fun _ _ => ends_ret trivial
    · rintro exc ⟨hcaught, hcoded⟩
      dsimp only
      cases hlast : lastError exc with
      | none => exact ends_raise (halts_of_lastError hcaught hlast)
      | some error' =>
        refine (emit_silent rfl rfl _).bind fun _ _ => ?_
        have hdelay : Ends cfg (delayRetry .main step (decide (attempts + 1 < step.maxAttempts)) :
            Task V Unit) (fun _ => True) fun exc => exc.halts = true := by
          unfold delayRetry
          split
          · refine ends_ask fun slept hcalm => ?_
            cases slept with
            | returned => exact ends_ret trivial
            | raised exc => exact hcalm.elim
          · exact ends_ret trivial
        refine hdelay.bind fun _ _ => ih (attempts + 1) error' (by omega) fun hzero => ?_
        exact lastError_of_coded (hcoded (by omega)) hlast

theorem runStep_ends (state : Outputs V) :
    Ends cfg (runStep task .main e step state) (fun _ => True) fun exc => exc.halts = true := by
  have hcaught : ∀ exc code, exc.caught = true →
      (if exc.caught then .stepFailed (failedRecord step 0 code) else exc : Exc).halts = true := by
    intro exc code h
    rw [if_pos h]
    rfl
  have hshould : Ends cfg (shouldRun .main step state) (fun _ => True)
      fun exc => exc.halts = true := by
    unfold shouldRun
    split
    · refine ends_ask fun answer hcalm => ?_
      cases answer with
      | raised exc => exact ends_raise (hcaught exc _ hcalm)
      | returned value =>
        cases value with
        | returned b => exact ends_ret trivial
        | raised exc =>
          have heq : exc = .executionCancelled := hcalm
          exact ends_raise (heq ▸ rfl)
    · exact ends_ret trivial
  refine hshould.bind fun run _ => ?_
  cases run with
  | false => exact (emit_silent rfl rfl _).bind fun _ _ => ends_ret trivial
  | true =>
    have hinputs : Ends cfg (buildInputs .main step state) (fun _ => True)
        fun exc => exc.halts = true := by
      refine ends_ask fun answer hcalm => ?_
      cases answer with
      | returned inputs => exact ends_ret trivial
      | raised exc => exact ends_raise (hcaught exc _ hcalm)
    refine hinputs.bind fun inputs _ => ?_
    refine runAttempts_ends inputs 0 _ step.maxAttempts (by omega) fun hzero => ?_
    have := step.attempts_le.1
    omega

end Parts

/-! ### The stages and the end -/

section Stages

variable {cfg : Config V} {task : Nat} {e : Execution}

/-- The stages did not end with an exception that `execute` lets through. -/
def Contained (r : Progress V × Option Halt) : Prop := ∀ exc, r.2 ≠ some (.escaped exc)

theorem contained_of_halts {exc : Exc} (p : Progress V) (h : exc.halts = true) :
    Contained (p, some (.of exc)) := by
  cases exc with
  | stepFailed record => simp [Contained, Halt.of]
  | executionCancelled => simp [Contained, Halt.of]
  | _ => cases h

theorem runSequential_ends (p : Progress V) (steps : List WorkflowStep) :
    Ends cfg (runSequential task e p steps) Contained fun _ => False := by
  induction steps generalizing p with
  | nil => exact ends_ret (by simp [Contained])
  | cons step steps ih =>
    refine (runStep_ends p.outputs).observe_bind (fun result _ => ih (p.add step result)) ?_
    exact fun exc h => ends_ret (contained_of_halts p h)

theorem runParallel_ends (p : Progress V) (steps : List WorkflowStep) :
    Ends cfg (runParallel e p steps) Contained fun _ => False := by
  refine ends_modify_bind (ends_ask fun joined hcalm => ?_)
  cases joined with
  | none => exact hcalm.elim
  | some outcomes =>
    refine ends_ret ?_
    intro exc
    unfold Merged.finish
    split
    · simp
    · split <;> simp

theorem runStage_ends (p : Progress V) (stage : WorkflowStage) :
    Ends cfg (runStage task e p stage) Contained fun _ => False := by
  refine (checkpoint_ends e.owner).observe_bind (fun _ _ => ?_) ?_
  · dsimp only
    cases stage.mode with
    | sequential => exact runSequential_ends p stage.steps
    | parallel => exact runParallel_ends p stage.steps
  · rintro exc rfl
    exact ends_ret (contained_of_halts p rfl)

theorem runStages_ends (p : Progress V) (stages : List WorkflowStage) :
    Ends cfg (runStages task e p stages) Contained fun _ => False := by
  induction stages generalizing p with
  | nil => exact ends_ret (by simp [Contained])
  | cons stage stages ih =>
    refine (runStage_ends p stage).bind fun r hr => ?_
    obtain ⟨p', halt⟩ := r
    cases halt with
    | none => exact ih p'
    | some halt => exact ends_ret hr

/-- `WorkflowExecution` takes the result. -/
def Storable (cfg : Config V) (verdict : Verdict V) : Prop :=
  verdict.result.all cfg.accepts = true

theorem buildResult_ends (outputs : Outputs V) :
    Ends cfg (buildResult cfg outputs) (Storable cfg) fun _ => False := by
  have hinvalid : ∀ (result : Option V) exc, exc.invalidates = true →
      result.all cfg.accepts = true →
      Ends cfg (resultInvalid result exc) (Storable cfg) fun _ => False := by
    intro result exc hexc hresult
    cases exc with
    | typeError => exact ends_ret hresult
    | valueError => exact ends_ret hresult
    | _ => cases hexc
  refine ends_ask fun answer hcalm => ?_
  cases answer with
  | raised exc => exact hinvalid none exc hcalm rfl
  | returned result =>
    obtain ⟨haccepts, hreceipt⟩ := hcalm
    dsimp only
    cases hcase : cfg.resultReceipt result with
    | raised exc => exact hinvalid (some result) exc (hreceipt exc hcase) haccepts
    | returned receipt => exact ends_ret haccepts

theorem compensateAll_ends (complete : Bool) (l : List (WorkflowStep × V)) :
    Ends cfg (compensateAll task e complete l) (fun _ => True) fun _ => False := by
  induction l generalizing complete with
  | nil => exact ends_ret trivial
  | cons c l ih =>
    refine ends_modify_bind (ends_ask fun answer hcalm => ?_)
    cases answer with
    | returned => exact (emit_silent rfl rfl _).bind fun _ _ => ih complete
    | raised exc =>
      have hcaught : exc.caught = true := hcalm
      show Ends cfg (if exc.caught = true then _ else _) _ _
      rw [if_pos hcaught]
      exact (emit_silent rfl rfl _).bind fun _ _ => ih false

theorem rollback_ends (status : ExecutionStatus) (completed : List (WorkflowStep × V)) :
    Ends cfg (rollback task e status completed) (fun _ => True) fun _ => False := by
  unfold rollback
  split
  · refine (emit_silent rfl rfl _).bind fun _ _ => ?_
    refine (compensateAll_ends true completed.reverse).bind fun complete _ => ?_
    exact (emit_silent rfl rfl _).bind fun _ _ => ends_ret trivial
  · exact ends_ret trivial

theorem close_ends (p : Progress V) {verdict : Verdict V} (h : Storable cfg verdict) :
    Ends cfg (close cfg task e p verdict) (fun _ => True) fun _ => False := by
  refine (rollback_ends verdict.status p.compensations).bind fun rollbackPerformed _ => ?_
  refine (ends_require (Q := fun _ => True) (fun _ => trivial) fun hfalse => ?_).bind fun _ _ => ?_
  · rw [show verdict.result.all cfg.accepts = true from h] at hfalse
    cases hfalse
  refine (emit_silent rfl rfl _).bind fun _ _ => (emit_silent rfl rfl _).bind fun _ _ => ?_
  exact ends_modify_bind (ends_ret trivial)

theorem finish_ends (p : Progress V) {halt : Option Halt} (h : Contained (p, halt)) :
    Ends cfg (finish cfg task e p halt) (fun _ => True) fun _ => False := by
  cases halt with
  | none => exact (buildResult_ends p.outputs).bind fun verdict hverdict => close_ends p hverdict
  | some halt =>
    cases halt with
    | escaped exc => exact absurd rfl (h exc)
    | _ => exact close_ends _ rfl

theorem runDefinition_ends :
    Ends cfg (runDefinition cfg task e) (fun _ => True) fun _ => False := by
  refine (emit_silent rfl rfl _).bind fun _ _ => ?_
  refine (runStages_ends .empty e.definition.stages).bind fun r hr => ?_
  exact finish_ends r.1 hr

end Stages

/-! ### The contract -/

/-- The engine, where every answer is calm. -/
def calmEngine (cfg : Config V) :
    System (State V) (Res (V := V)) Exc (Reply V) Request Empty :=
  (engine cfg).restrict (fun _ _ => True) fun _ => Calm cfg

/-- The logic of the task `j` of a calm run. -/
def calmLogic (cfg : Config V) (j : Nat) : Logic (State V) (Res (V := V)) :=
  ⟨Inv, Rely j, Guar j, fun s o r => Answers s o r ∧ Calm cfg o r⟩

/-- The task `j` has published no event. -/
def Unheard (j : Nat) (s : State V) : Prop :=
  ∀ owner event, .published j owner event ∉ own j s.history

theorem Unheard.rely {j : Nat} {s s' : State V} (h : Unheard j s) (hr : Rely j s s') :
    Unheard j s' := by
  unfold Unheard
  rw [hr.kept.2]
  exact h

section Contract

variable {cfg : Config V} {j : Nat} {s : State V}

theorem runExecution_calm {e : Execution} {T : List (Note V)} (hT : Known e T) (hi : Inv s)
    (htrail : trail e.owner s = T) (habsent : ∀ id, s.branches e.owner id = none)
    (hunheard : Unheard e.owner s) :
    (runExecution cfg e.owner e).Spec (calmLogic cfg e.owner)
      (fun ex s' => Settled e T ex s') (fun _ s' => Unheard e.owner s') s := by
  refine spec_bind.mpr (spec_modify.mpr ⟨register_guar e s, hi.register e, ?_⟩)
  have htrail' : trail e.owner (s.register e) = T :=
    (trail_quiet (n := .opened e.owner e.id) rfl rfl s).trans htrail
  have hunheard' : Unheard e.owner (s.register e) := by
    intro owner event hmem
    have hown : own e.owner (s.register e).history =
        .opened e.owner e.id :: own e.owner s.history := own_cons_self _ rfl
    rw [hown] at hmem
    rcases List.mem_cons.mp hmem with heq | hold
    · cases heq
    · exact hunheard owner event hold
  have habsent' : ∀ id, (s.register e).branches e.owner id = none := habsent
  generalize s.register e = s0 at htrail' hunheard' habsent'
  have hrest : Resting (s0.branches e.owner) := fun id => Or.inl (habsent' id)
  refine spec_bind.mpr (spec_bind.mpr fun s1 hi1 hr1 appended hanswer => ?_)
  have h1 := (⟨htrail', rfl, fun _ => rfl⟩ : Fixed e.owner T (s0.branches e.owner)
    (fun id => finalOutput e.owner id s0.history) s0).rely hrest hr1
  cases appended with
  | raised exc => exact hunheard'.rely hr1
  | returned =>
    have hquiet : ∀ event : AresEvent, event.event = .workflowStarted e.definition.version →
        (Note.published e.owner e.owner event : Note V).quiet = true := by
      intro event heq
      simp [Note.quiet, Note.milestone, heq, Event.isTerminal]
    have h2 := (framed_fixed hrest T _).note (n := .published e.owner e.owner
      ⟨e.definition.capabilityId, e.id, e.definition.id, .workflowStarted e.definition.version⟩)
      rfl (hquiet _ rfl) h1
    refine spec_bind.mpr ⟨note_guar rfl (plain_of_quiet (hquiet _ rfl)),
      hi1.note (plain_of_quiet (hquiet _ rfl)), ?_⟩
    refine spec_bind.mpr fun s3 hi3 hr3 notified hanswer3 => ?_
    have h3 := h2.rely hrest hr3
    cases notified with
    | raised exc => exact absurd hanswer3.2.1 (by simp [Event.isPostcheck])
    | returned =>
      have habsent3 : ∀ id, s3.branches e.owner id = none := by
        rw [h3.branches]
        exact habsent'
      have hspec : (runDefinition cfg e.owner e).Spec (logic e.owner)
          (fun ex s' => Inv s' ∧ Settled e T ex s') (fun _ _ => True) s3 :=
        runDefinition_spec hT hi3 h3.trail habsent3
      exact (hspec.and_answers (runDefinition_ends s3) (fun _ => trivial)
        fun _ _ => trivial).mono (fun _ _ hs => hs.1.2) fun _ _ hs => hs.2.elim

theorem execute_calm {definition : WorkflowDefinition} {executionId : Option String}
    {uuid : String} (hi : Inv s)
    (htrail : trail j s = [.received j (.execute definition executionId uuid)])
    (habsent : ∀ id, s.branches j id = none) (hunheard : Unheard j s) :
    (execute cfg j definition executionId uuid).Spec (calmLogic cfg j)
      (fun ex s' => Settled ⟨j, chooseId executionId uuid, definition⟩
        [.received j (.execute definition executionId uuid)] ex s')
      (fun _ s' => Unheard j s') s := by
  refine spec_bind.mpr (spec_bind.mpr
    (spec_require.mpr ⟨fun _ => ?_, fun _ => hunheard⟩))
  exact runExecution_calm (e := ⟨j, chooseId executionId uuid, definition⟩)
    ⟨executionId, uuid, List.mem_singleton.mpr rfl⟩ hi htrail habsent hunheard

/-- What an exception of a request leaves: an `execute` that raised has published nothing. -/
def CalmRaised (j : Nat) (t : Request) (s : State V) : Prop :=
  match t with
  | .execute _ _ _ => Unheard j s
  | .branch _ _ => False
  | .control _ _ => True

theorem CalmRaised.rely {t : Request} {s' : State V} (h : CalmRaised j t s) (hr : Rely j s s') :
    CalmRaised j t s' := by
  cases t with
  | execute => exact Unheard.rely h hr
  | branch => exact h
  | control => trivial

theorem handler_calm {t : Request} (hi : Inv s) (hfresh : Fresh j s)
    (hadmits : (engine cfg).admits s t) :
    (handler cfg j t).Spec (calmLogic cfg j) (Returned j t) (fun _ => CalmRaised j t) s := by
  cases t with
  | execute definition executionId uuid =>
    have hinv := hi.receive hfresh (.execute definition executionId uuid)
    refine spec_bind.mpr ⟨received_guar j _ s, hinv, ?_⟩
    refine spec_bind.mpr (execute_calm hinv (trail_received hfresh _) hfresh.2 ?_)
    intro owner event hmem
    have hown : own j (s.note (.received j (.execute definition executionId uuid))).history =
        [.received j (.execute definition executionId uuid)] := by
      rw [← hfresh.1]
      exact own_cons_self _ rfl
    rw [hown] at hmem
    cases List.mem_singleton.mp hmem
  | branch owner stepId =>
    exact (handler_spec hi hfresh hadmits).answers_mono fun _ _ _ ha => ha.1
  | control call executionId =>
    exact (handler_spec hi hfresh hadmits).answers_mono fun _ _ _ ha => ha.1

end Contract

def calmContract (cfg : Config V) : Contract (calmEngine cfg) where
  inv := Inv
  rely := Rely
  guar := Guar
  fresh := Fresh
  post := Returned
  postE j t _ := CalmRaised j t
  refl := Rely.refl
  trans _ _ _ _ := Rely.trans
  guar_rely _ _ _ _ := Guar.rely
  fresh_rely _ _ _ := Fresh.rely
  post_rely _ _ _ _ _ := Returned.rely
  postE_rely _ _ _ _ _ := CalmRaised.rely
  world _ w := w.elim
  handler _ _ _ hi hfresh hadmits := handler_calm hi hfresh hadmits.1

theorem calm_holds {cfg : Config V} {p : Tasks V}
    (reach : (calmEngine cfg).Reachable .initial p) : (calmContract cfg).Holds p :=
  (calmContract cfg).sound inv_initial (fun _ => ⟨rfl, fun _ => rfl⟩) reach

end Ares.Workflows
