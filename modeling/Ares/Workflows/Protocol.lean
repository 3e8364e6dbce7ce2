import Ares.Coop.Protocol
import Ares.Workflows.Engine

/-! What the engine passes on.  A value that it hands to a condition, an input factory, an action, a
postcheck, a compensation or the result factory is one that an action or a factory returned to it
before: the phase of the protocol is the set of these values, which grows with every answer. -/

namespace Ares.Workflows

open Coop

variable {V : Type}

/-- Every value that a call is given is in `Φ`. -/
def Given (Φ : V → Prop) : Op V → Prop
  | .condition _ _ state | .inputs _ _ state | .result state => ∀ entry ∈ state, Φ entry.2
  | .action _ _ _ _ value | .postcheck _ _ _ _ value | .compensate _ value => Φ value
  | _ => True

/-- Every value that a call returns is in `Φ`. -/
def Gives (Φ : V → Prop) : (o : Op V) → Res o → Prop
  | .inputs _ _ _, .returned value | .action _ _ _ _ _, .finished (.returned value) => Φ value
  | .join _ _, some outcomes =>
      ∀ record value, .returned (record, some value) ∈ outcomes → Φ value
  | _, _ => True

/-- The values of `Φ` are values of `Φ'`. -/
def Widens (Φ Φ' : V → Prop) : Prop := ∀ value, Φ value → Φ' value

theorem Given.imp {Φ Φ' : V → Prop} {o : Op V} (h : Given Φ o)
    (hsub : Widens Φ Φ') : Given Φ' o := by
  cases o with
  | condition | inputs | result => exact fun entry hentry => hsub _ (h entry hentry)
  | action | postcheck | compensate => exact hsub _ h
  | append | notify | gate | sleep | join => trivial

def protocol : Protocol (V → Prop) (Res (V := V)) where
  ask Φ o := Given Φ o
  next Φ o r Φ' := Widens Φ Φ' ∧ Gives Φ' o r

/-- `p` passes on only what it knows, which is `Φ` at its start; its result is in `R` of what it knows
at its end. -/
def Passes {α : Type} (Φ : V → Prop) (p : Task V α) (R : α → (V → Prop) → Prop) : Prop :=
  p.Obeys protocol (fun a Φ' => Widens Φ Φ' ∧ R a Φ') (fun _ Φ' => Widens Φ Φ') Φ

section Rules

variable {Φ Φ' : V → Prop} {α β : Type} {p : Task V α} {f : α → Task V β}
  {R R' : α → (V → Prop) → Prop} {T : β → (V → Prop) → Prop}

theorem Widens.refl (Φ : V → Prop) : Widens Φ Φ := fun _ => id

theorem Widens.trans {Φ'' : V → Prop} (h : Widens Φ Φ') (h' : Widens Φ' Φ'') : Widens Φ Φ'' :=
  fun value hvalue => h' value (h value hvalue)

theorem passes_ret {a : α} (h : R a Φ) : Passes Φ (.ret a) R := ⟨.refl Φ, h⟩

theorem passes_raise (e : Exc) : Passes Φ (.raise e) R := Widens.refl Φ

theorem passes_get {k : State V → Task V α} (h : ∀ s, Passes Φ (k s) R) : Passes Φ (.get k) R := h

theorem Passes.mono (h : Passes Φ p R) (hR : ∀ a Φ', Widens Φ Φ' → R a Φ' → R' a Φ') :
    Passes Φ p R' :=
  Proc.Obeys.mono h (fun a Φ' hΦ' => ⟨hΦ'.1, hR a Φ' hΦ'.1 hΦ'.2⟩) fun _ _ hΦ' => hΦ'

theorem Passes.since (h : Passes Φ' p R) (hsub : Widens Φ Φ') :
    p.Obeys protocol (fun a Φ'' => Widens Φ Φ'' ∧ R a Φ'') (fun _ Φ'' => Widens Φ Φ'') Φ' :=
  Proc.Obeys.mono h (fun _ _ hΦ'' => ⟨hsub.trans hΦ''.1, hΦ''.2⟩) fun _ _ hΦ'' => hsub.trans hΦ''

theorem Passes.bind (h : Passes Φ p R)
    (hf : ∀ a Φ', Widens Φ Φ' → R a Φ' → Passes Φ' (f a) T) : Passes Φ (p.bind f) T :=
  obeys_bind.mpr (Proc.Obeys.mono h
    (fun a Φ' hΦ' => (hf a Φ' hΦ'.1 hΦ'.2).since hΦ'.1) fun _ _ hΦ' => hΦ')

theorem Passes.observe {T : Except Exc α → (V → Prop) → Prop} (h : Passes Φ p R)
    (hok : ∀ a Φ', R a Φ' → T (.ok a) Φ') (herror : ∀ e Φ', T (.error e) Φ') :
    Passes Φ p.observe T :=
  Proc.obeys_observe.mpr (Proc.Obeys.mono h (fun a Φ' hΦ' => ⟨hΦ'.1, hok a Φ' hΦ'.2⟩)
    fun e Φ' hΦ' => ⟨hΦ', herror e Φ'⟩)

theorem passes_modify (g : State V → State V) :
    Passes Φ (Proc.modify g : Task V Unit) fun _ _ => True :=
  obeys_modify ⟨.refl Φ, trivial⟩

theorem passes_ofCalled (r : Called α) :
    Passes Φ (ofCalled r) fun a _ => r = .returned a := by
  cases r with
  | returned a => exact passes_ret rfl
  | raised e => exact passes_raise e

theorem passes_require (c : Bool) (e : Exc) :
    Passes Φ (require c e : Task V Unit) fun _ _ => True :=
  obeys_require.mpr ⟨fun _ => ⟨.refl Φ, trivial⟩, fun _ => .refl Φ⟩

theorem passes_ask {o : Op V} {f : Res o → Task V β} (h : Given Φ o)
    (hf : ∀ r Φ', Widens Φ Φ' → Gives Φ' o r → Passes Φ' (f r) T) :
    Passes Φ ((ask o).bind f) T :=
  obeys_bind.mpr (Proc.obeys_perform.mpr
    ⟨h, fun r Φ' hnext => (hf r Φ' hnext.1 hnext.2).since hnext.1⟩)

variable (task : Nat) (site : Site) (e : Execution)

theorem passes_emit (event : Event) : Passes Φ (emit task site e event) fun _ _ => True := by
  refine passes_ask trivial fun appended _ _ _ => ?_
  refine (passes_ofCalled appended).bind fun _ _ _ _ => ?_
  refine (passes_modify _).bind fun _ _ _ _ => ?_
  refine passes_ask trivial fun notified _ _ _ => ?_
  exact (passes_ofCalled notified).mono fun _ _ _ _ => trivial

theorem passes_checkpoint (owner : Nat) : Passes Φ (checkpoint site owner) fun _ _ => True := by
  refine passes_get fun s => passes_get fun s' => ?_
  refine passes_ask trivial fun waited _ _ _ => ?_
  refine (passes_ofCalled waited).bind fun _ _ _ _ => ?_
  exact passes_get fun s => passes_require _ _

end Rules

/-! ### One step -/

section Step

variable {Φ : V → Prop} (task : Nat) (site : Site) (e : Execution) (step : WorkflowStep)

/-- The outputs are in `Φ`. -/
def OutputsIn (Φ : V → Prop) (state : Outputs V) : Prop := ∀ entry ∈ state, Φ entry.2

/-- The output of a result is in `Φ`. -/
def OutputIn (Φ : V → Prop) (result : StepResult V) : Prop := ∀ value, result.2 = some value → Φ value

theorem passes_runAction {attempt : Nat} {inputs : V} (h : Φ inputs) :
    Passes Φ (runAction task site e step attempt inputs) fun value Φ' => Φ' value := by
  refine (passes_modify _).bind fun _ Φ1 hsub _ => ?_
  refine passes_ask (hsub _ h) fun ended Φ2 _ hgives => ?_
  cases ended with
  | finished outcome =>
    cases outcome with
    | returned value =>
      exact (passes_modify _).bind fun _ Φ3 hsub3 _ => passes_ret (hsub3 _ hgives)
    | raised exc => exact passes_raise exc
  | timedOut | interrupted | stopped => exact passes_raise _

theorem passes_runPostchecks {attempt : Nat} {output : V} (h : Φ output) (index remaining : Nat) :
    Passes Φ (runPostchecks task site e step attempt output index remaining) fun _ _ => True := by
  induction remaining generalizing index Φ with
  | zero => exact passes_ret trivial
  | succ remaining ih =>
    refine passes_ask h fun answer Φ1 h1 _ => ?_
    refine (passes_ofCalled answer).bind fun passed Φ2 h2 _ => ?_
    refine (passes_require _ _).bind fun _ Φ3 h3 _ => ?_
    refine (passes_emit task site e _).bind fun _ Φ4 h4 _ => ?_
    exact ih (((h1.trans h2).trans (h3.trans h4)) _ h) (index + 1)

theorem passes_runAttempt {attempt : Nat} {inputs : V} (h : Φ inputs) :
    Passes Φ (runAttempt task site e step attempt inputs) fun value Φ' => Φ' value := by
  refine (passes_runAction task site e step h).bind fun value Φ1 _ hvalue => ?_
  exact (passes_runPostchecks task site e step hvalue 0 _).bind fun _ Φ2 h2 _ =>
    passes_ret (h2 _ hvalue)

theorem passes_delayRetry (retrying : Bool) :
    Passes Φ (delayRetry site step retrying) fun _ _ => True := by
  rw [delayRetry]
  split
  · refine passes_ask trivial fun slept _ _ _ => ?_
    exact (passes_ofCalled slept).mono fun _ _ _ _ => trivial
  · exact passes_ret trivial

theorem passes_runAttempts {inputs : V} (h : Φ inputs) (attempts : Nat) (error : ErrorCode)
    (remaining : Nat) :
    Passes Φ (runAttempts task site e step inputs attempts error remaining) fun result Φ' =>
      OutputIn Φ' result := by
  induction remaining generalizing attempts error Φ with
  | zero => exact passes_raise _
  | succ remaining ih =>
    refine (passes_checkpoint site e.owner).bind fun _ Φ1 h1 _ => ?_
    refine (passes_emit task site e _).bind fun _ Φ2 h2 _ => ?_
    have h2 := (h1.trans h2) _ h
    refine ((passes_runAttempt task site e step h2).observe
      (T := fun outcome Φ' => ∀ output, outcome = .ok output → Φ' output)
      (fun output Φ' houtput _ heq => Except.ok.inj heq ▸ houtput)
      fun _ _ _ h => by cases h).bind fun outcome Φ3 h3 houtcome => ?_
    cases outcome with
    | ok output =>
      refine (passes_emit task site e _).bind fun _ Φ4 h4 _ => passes_ret ?_
      exact fun value heq => Option.some.inj heq ▸ h4 _ (houtcome output rfl)
    | error exc =>
      -- A cancelled attempt is not tried again.
      cases hlast : lastError exc with
      | none =>
        simp only [hlast]
        exact passes_raise exc
      | some error =>
        simp only [hlast]
        refine (passes_emit task site e _).bind fun _ Φ4 h4 _ => ?_
        refine (passes_delayRetry site step _).bind fun _ Φ5 h5 _ => ?_
        exact ih ((h3.trans (h4.trans h5)) _ h2) (attempts + 1) error

theorem passes_shouldRun {state : Outputs V} (h : OutputsIn Φ state) :
    Passes Φ (shouldRun site step state) fun _ _ => True := by
  rw [shouldRun]
  split
  · refine passes_ask h fun answer _ _ _ => ?_
    cases answer with
    | returned value => exact (passes_ofCalled value).mono fun _ _ _ _ => trivial
    | raised exc => exact passes_raise _
  · exact passes_ret trivial

theorem passes_buildInputs {state : Outputs V} (h : OutputsIn Φ state) :
    Passes Φ (buildInputs site step state) fun inputs Φ' => Φ' inputs := by
  refine passes_ask h fun answer Φ' _ hgives => ?_
  cases answer with
  | returned inputs => exact passes_ret hgives
  | raised exc => exact passes_raise _

theorem passes_runStep {state : Outputs V} (h : OutputsIn Φ state) :
    Passes Φ (runStep task site e step state) fun result Φ' => OutputIn Φ' result := by
  refine (passes_shouldRun site step h).bind fun run Φ1 h1 _ => ?_
  cases run with
  | false =>
    refine (passes_emit task site e _).bind fun _ Φ2 _ _ => passes_ret ?_
    rintro value ⟨⟩
  | true =>
    refine (passes_buildInputs site step fun entry hentry => h1 _ (h entry hentry)).bind ?_
    exact fun inputs Φ2 _ hinputs => passes_runAttempts task site e step hinputs 0 _ _

end Step

/-! ### The stages -/

section Stages

variable {Φ Φ' : V → Prop}

/-- Every output and every compensation is in `Φ`. -/
def ProgressIn (Φ : V → Prop) (p : Progress V) : Prop :=
  OutputsIn Φ p.outputs ∧ ∀ entry ∈ p.compensations, Φ entry.2

theorem ProgressIn.mono {p : Progress V} (h : ProgressIn Φ p) (hsub : Widens Φ Φ') :
    ProgressIn Φ' p :=
  ⟨fun entry hentry => hsub _ (h.1 entry hentry), fun entry hentry => hsub _ (h.2 entry hentry)⟩

theorem progressIn_empty : ProgressIn Φ (Progress.empty : Progress V) :=
  ⟨fun _ hentry => absurd hentry List.not_mem_nil, fun _ hentry => absurd hentry List.not_mem_nil⟩

theorem ProgressIn.add {p : Progress V} (h : ProgressIn Φ p) (step : WorkflowStep)
    {result : StepResult V} (hresult : OutputIn Φ result) : ProgressIn Φ (p.add step result) := by
  obtain ⟨record, output⟩ := result
  cases output with
  | none => exact h
  | some value =>
    have hvalue : Φ value := hresult value rfl
    refine ⟨fun entry hentry => ?_, fun entry hentry => ?_⟩
    · simp only [Progress.add, List.mem_append, List.mem_singleton] at hentry
      rcases hentry with hentry | rfl
      · exact h.1 entry hentry
      · exact hvalue
    · simp only [Progress.add] at hentry
      split at hentry
      · rcases List.mem_append.mp hentry with hentry | hentry
        · exact h.2 entry hentry
        · obtain rfl := List.mem_singleton.mp hentry
          exact hvalue
      · exact h.2 entry hentry

theorem merged_in {m : Merged V} (h : ProgressIn Φ m.progress)
    {l : List (WorkflowStep × Called (StepResult V))}
    (hl : ∀ step record value, (step, .returned (record, some value)) ∈ l → Φ value) :
    ProgressIn Φ (merge m l).progress := by
  induction l generalizing m with
  | nil => exact h
  | cons entry rest ih =>
    obtain ⟨step, outcome⟩ := entry
    refine ih (m := m.add step outcome) ?_ fun step' record value hmem =>
      hl step' record value (List.mem_cons_of_mem _ hmem)
    cases outcome with
    | returned result =>
      refine h.add step fun value hvalue => hl step result.1 value ?_
      rw [← hvalue]
      exact List.mem_cons_self
    | raised exc => cases exc <;> exact h

theorem Merged.finish_in {m : Merged V} (h : ProgressIn Φ m.progress) :
    ProgressIn Φ m.finish.1 := by
  rw [Merged.finish]
  split
  · exact h
  · split <;> exact h

variable (task : Nat) (e : Execution)

abbrev Halts (r : Progress V × Option Halt) (Φ : V → Prop) : Prop := ProgressIn Φ r.1

theorem passes_runSequential {p : Progress V} (h : ProgressIn Φ p) (steps : List WorkflowStep) :
    Passes Φ (runSequential task e p steps) Halts := by
  induction steps generalizing p Φ with
  | nil => exact passes_ret h
  | cons step rest ih =>
    refine ((passes_runStep task .main e step h.1).observe
      (T := fun outcome Φ' => ∀ result, outcome = .ok result → OutputIn Φ' result)
      (fun result Φ' hresult _ heq => Except.ok.inj heq ▸ hresult)
      fun _ _ _ h => by cases h).bind fun outcome Φ1 h1 houtcome => ?_
    cases outcome with
    | error exc => exact passes_ret (h.mono h1)
    | ok result => exact ih ((h.mono h1).add step (houtcome result rfl))

theorem passes_runParallel {p : Progress V} (h : ProgressIn Φ p) (steps : List WorkflowStep) :
    Passes Φ (runParallel e p steps) Halts := by
  refine (passes_modify _).bind fun _ Φ1 h1 _ => ?_
  refine passes_ask trivial fun joined Φ2 h2 hgives => ?_
  have hp := (h.mono h1).mono h2
  cases joined with
  | none => exact passes_ret hp
  | some outcomes =>
    refine passes_ret (Merged.finish_in (merged_in hp fun step record value hmem => ?_))
    exact hgives record value (List.of_mem_zip hmem).2

theorem passes_runStage {p : Progress V} (h : ProgressIn Φ p) (stage : WorkflowStage) :
    Passes Φ (runStage task e p stage) Halts := by
  refine ((passes_checkpoint .main e.owner).observe (T := fun _ _ => True) (fun _ _ _ => trivial)
    fun _ _ => trivial).bind fun passed Φ1 h1 _ => ?_
  cases passed with
  | error exc => exact passes_ret (h.mono h1)
  | ok =>
    cases stage.mode with
    | sequential => exact passes_runSequential task e (h.mono h1) stage.steps
    | parallel => exact passes_runParallel e (h.mono h1) stage.steps

theorem passes_runStages {p : Progress V} (h : ProgressIn Φ p) (stages : List WorkflowStage) :
    Passes Φ (runStages task e p stages) Halts := by
  induction stages generalizing p Φ with
  | nil => exact passes_ret h
  | cons stage rest ih =>
    refine (passes_runStage task e h stage).bind ?_
    rintro ⟨p', halt⟩ Φ1 _ hp'
    cases halt with
    | some halt => exact passes_ret hp'
    | none => exact ih hp'

end Stages

/-! ### The end of an execution -/

section Closing

variable {Φ : V → Prop} (cfg : Config V) (task : Nat) (e : Execution)

theorem passes_compensateAll {complete : Bool} {completed : List (WorkflowStep × V)}
    (h : ∀ entry ∈ completed, Φ entry.2) :
    Passes Φ (compensateAll task e complete completed) fun _ _ => True := by
  induction completed generalizing complete Φ with
  | nil => exact passes_ret trivial
  | cons entry rest ih =>
    obtain ⟨step, output⟩ := entry
    have hrest : ∀ Φ' complete, Widens Φ Φ' →
        Passes Φ' (compensateAll task e complete rest) fun _ _ => True := fun Φ' _ hsub =>
      ih fun entry hentry => hsub _ (h entry (List.mem_cons_of_mem _ hentry))
    refine (passes_modify _).bind fun _ Φ1 h1 _ => ?_
    refine passes_ask (h1 _ (h _ List.mem_cons_self)) fun answer Φ2 h2 _ => ?_
    cases answer with
    | returned =>
      exact (passes_emit task .main e _).bind fun _ Φ3 h3 _ =>
        hrest Φ3 complete (h1.trans (h2.trans h3))
    | raised exc =>
      cases hcaught : exc.caught with
      | true =>
        simp only [hcaught, if_true]
        exact (passes_emit task .main e _).bind fun _ Φ3 h3 _ =>
          hrest Φ3 false (h1.trans (h2.trans h3))
      | false =>
        simp only [hcaught, Bool.false_eq_true, if_false]
        exact passes_raise exc

theorem passes_rollback {status : ExecutionStatus} {completed : List (WorkflowStep × V)}
    (h : ∀ entry ∈ completed, Φ entry.2) :
    Passes Φ (rollback task e status completed) fun _ _ => True := by
  rw [rollback]
  split
  · refine (passes_emit task .main e _).bind fun _ Φ1 h1 _ => ?_
    refine (passes_compensateAll task e fun entry hentry =>
      h1 _ (h entry (List.mem_reverse.mp hentry))).bind fun _ _ _ _ => ?_
    exact (passes_emit task .main e _).bind fun _ _ _ _ => passes_ret trivial
  · exact passes_ret trivial

theorem passes_close {p : Progress V} (h : ProgressIn Φ p) (verdict : Verdict V) :
    Passes Φ (close cfg task e p verdict) fun _ _ => True := by
  refine (passes_rollback task e h.2).bind fun _ _ _ _ => ?_
  refine (passes_require _ _).bind fun _ _ _ _ => ?_
  refine (passes_emit task .main e _).bind fun _ _ _ _ => ?_
  refine (passes_emit task .main e _).bind fun _ _ _ _ => ?_
  exact (passes_modify _).bind fun _ _ _ _ => passes_ret trivial

theorem passes_resultInvalid (result : Option V) (exc : Exc) :
    Passes Φ (resultInvalid result exc) fun _ _ => True := by
  cases exc <;> first | exact passes_ret trivial | exact passes_raise _

theorem passes_buildResult {outputs : Outputs V} (h : OutputsIn Φ outputs) :
    Passes Φ (buildResult cfg outputs) fun _ _ => True := by
  refine passes_ask h fun answer _ _ _ => ?_
  cases answer with
  | raised exc => exact passes_resultInvalid none exc
  | returned result =>
    cases hreceipt : cfg.resultReceipt result with
    | raised exc =>
      simp only [hreceipt]
      exact passes_resultInvalid (some result) exc
    | returned receipt =>
      simp only [hreceipt]
      exact passes_ret trivial

theorem passes_finish {p : Progress V} (h : ProgressIn Φ p) (halt : Option Halt) :
    Passes Φ (finish cfg task e p halt) fun _ _ => True := by
  cases halt with
  | none =>
    refine (passes_buildResult cfg h.1).bind fun verdict Φ1 h1 _ => ?_
    exact passes_close cfg task e (h.mono h1) verdict
  | some halt =>
    cases halt with
    | escaped exc => exact passes_raise exc
    | step record =>
      exact passes_close (p := { p with records := p.records ++ [record] }) cfg task e h _
    | stage errorCode => exact passes_close cfg task e h _
    | cancelled => exact passes_close cfg task e h _

theorem passes_execute (definition : WorkflowDefinition) (executionId : Option String)
    (uuid : String) :
    Passes Φ (execute cfg task definition executionId uuid) fun _ _ => True := by
  refine passes_get fun s => ?_
  refine (passes_require _ _).bind fun _ _ _ _ => ?_
  refine (passes_modify _).bind fun _ _ _ _ => ?_
  refine (passes_emit task .main _ _).bind fun _ _ _ _ => ?_
  refine (passes_emit task .main _ _).bind fun _ _ _ _ => ?_
  refine (passes_runStages task _ progressIn_empty _).bind ?_
  rintro ⟨p, halt⟩ Φ1 _ hp
  exact passes_finish cfg task _ hp halt

theorem passes_control (call : ControlCall) (executionId : String) :
    Passes Φ (control task call executionId) fun _ _ => True := by
  refine passes_get fun s => ?_
  cases hfound : s.controls.lookup executionId with
  | none =>
    simp only [hfound]
    exact passes_ret trivial
  | some e =>
    simp only [hfound]
    refine (passes_modify _).bind fun _ _ _ _ => ?_
    exact (passes_emit task .control e _).bind fun _ _ _ _ => passes_ret trivial

end Closing

end Ares.Workflows
