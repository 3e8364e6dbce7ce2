import Ares.Workflows.Accounting
import Ares.Workflows.Cancelling
import Ares.Workflows.Completeness

/-! What a cancelled execution comes to.  A succeeded record names an attempt that was started, and
an execution that succeeded has such a record or a skipped one for every step; so it depends on the
attempts that were started or being published when it was cancelled. -/

namespace Ares.Workflows

open Coop

variable {V : Type}

/-- A record of a step that was skipped, or that succeeded in an attempt which was started. -/
def Attested (owner : Nat) (stepId : String) (h : List (Note V)) (r : StepExecution) : Prop :=
  r.stepId = stepId ∧ (r.status = .skipped ∨
    r.status = .succeeded ∧ ∃ i, .attempted i owner stepId r.attempts ∈ h)

def BranchesAttested (s : State V) : Prop :=
  ∀ owner id result, s.branches owner id = some (.done (.returned result)) →
    Attested owner id s.history result.1

def AllAttested (owner : Nat) (steps : List WorkflowStep) (records : List StepExecution)
    (s : State V) : Prop :=
  ∀ step ∈ steps, ∃ r ∈ records, Attested owner step.id s.history r

def Lasting (P : State V → Prop) : Prop := ∀ s s', s.history <:+ s'.history → P s → P s'

theorem Attested.grow {owner : Nat} {id : String} {h h' : List (Note V)} {r : StepExecution}
    (hr : Attested owner id h r) (hs : h <:+ h') : Attested owner id h' r := by
  refine ⟨hr.1, hr.2.imp_right fun hok => ⟨hok.1, ?_⟩⟩
  obtain ⟨i, hi⟩ := hok.2
  exact ⟨i, hs.subset hi⟩

theorem lasting_attempted (owner : Nat) (id : String) (attempt : Nat) :
    Lasting (V := V) fun s => ∃ i, .attempted i owner id attempt ∈ s.history :=
  fun _ _ hs ⟨i, hi⟩ => ⟨i, hs.subset hi⟩

theorem lasting_all (owner : Nat) (steps : List WorkflowStep) (records : List StepExecution) :
    Lasting (V := V) (AllAttested owner steps records) :=
  fun _ _ hs h step hstep =>
    let ⟨r, hr, hok⟩ := h step hstep
    ⟨r, hr, hok.grow hs⟩

theorem Lasting.and {P Q : State V → Prop} (hP : Lasting P) (hQ : Lasting Q) :
    Lasting fun s => P s ∧ Q s :=
  fun s s' hs h => ⟨hP s s' hs h.1, hQ s s' hs h.2⟩

def attestLogic (j : Nat) : Logic (State V) (Res (V := V)) :=
  ⟨BranchesAttested, Rely j, fun _ _ => True, Answers⟩

section Keeps

variable {j : Nat} {P : State V → Prop} {s s' : State V} {e : Execution} {site : Site}
  {step : WorkflowStep} {α : Type}

theorem BranchesAttested.congr (h : BranchesAttested s) (hbranches : s'.branches = s.branches)
    (hs : s.history <:+ s'.history) : BranchesAttested s' := by
  intro owner id result hb
  rw [hbranches] at hb
  exact (h owner id result hb).grow hs

theorem lasting_ask (hP : Lasting P) (o : Op V) : (ask o).Keeps (attestLogic j) P :=
  quiet_perform.keeps fun s s' hr h => hP s s' hr.kept.1 h

theorem lasting_note (hP : Lasting P) (n : Note V) :
    (Proc.modify (State.note n) : Task V Unit).Keeps (attestLogic j) P :=
  keeps_modify fun _ hi h =>
    ⟨trivial, hi.congr rfl (List.suffix_cons _ _), hP _ _ (List.suffix_cons _ _) h⟩

theorem lasting_ofCalled (c : Called α) : (ofCalled c : Task V α).Keeps (attestLogic j) P := by
  cases c with
  | returned a => exact keeps_ret a
  | raised e => exact keeps_raise e

theorem lasting_require (c : Bool) (exc : Exc) :
    (require c exc : Task V Unit).Keeps (attestLogic j) P := by
  cases c with
  | true => exact keeps_ret ()
  | false => exact keeps_raise exc

theorem emit_lasting (hP : Lasting P) (event : Event) :
    (emit j site e event : Task V Unit).Keeps (attestLogic j) P :=
  (lasting_ask hP _).bind fun appended => (lasting_ofCalled appended).bind fun _ =>
    (lasting_note hP _).bind fun _ => (lasting_ask hP _).bind fun notified =>
      lasting_ofCalled notified

theorem checkpoint_lasting (hP : Lasting P) (owner : Nat) :
    (checkpoint site owner : Task V Unit).Keeps (attestLogic j) P :=
  Proc.Keeps.bind (fun _ hi h => ⟨hi, h⟩) fun _ => Proc.Keeps.bind (fun _ hi h => ⟨hi, h⟩) fun _ =>
    (lasting_ask hP _).bind fun waited => (lasting_ofCalled waited).bind fun _ =>
      Proc.Keeps.bind (fun _ hi h => ⟨hi, h⟩) fun _ => lasting_require _ _

theorem delayRetry_lasting (hP : Lasting P) (retrying : Bool) :
    (delayRetry site step retrying : Task V Unit).Keeps (attestLogic j) P := by
  unfold delayRetry
  split
  · exact (lasting_ask hP _).bind fun slept => lasting_ofCalled slept
  · exact keeps_ret ()

theorem runPostchecks_lasting (hP : Lasting P) (attempt : Nat) (output : V)
    (index remaining : Nat) :
    (runPostchecks j site e step attempt output index remaining).Keeps (attestLogic j) P := by
  induction remaining generalizing index with
  | zero => exact keeps_ret ()
  | succ remaining ih =>
    refine (lasting_ask hP _).bind fun answer => (lasting_ofCalled answer).bind fun passed => ?_
    refine (lasting_require _ _).bind fun _ => (emit_lasting hP _).bind fun _ => ?_
    exact ih (index + 1)

end Keeps

/-! ### One step -/

section Step

variable {j : Nat} {P : State V → Prop} {s : State V} {e : Execution} {site : Site}
  {step : WorkflowStep}

theorem runAttempt_attests (hP : Lasting P) (hi : BranchesAttested s) (h : P s) (attempt : Nat)
    (inputs : V) :
    (runAttempt j site e step attempt inputs).Spec (attestLogic j)
      (fun _ s' => BranchesAttested s' ∧ P s' ∧
        ∃ i, .attempted i e.owner step.id attempt ∈ s'.history)
      (fun _ s' => BranchesAttested s' ∧ P s') s := by
  have hboth := hP.and (lasting_attempted e.owner step.id attempt)
  have hact : (runAction j site e step attempt inputs).Spec (attestLogic j)
      (fun _ s' => BranchesAttested s' ∧ P s' ∧
        ∃ i, .attempted i e.owner step.id attempt ∈ s'.history)
      (fun _ s' => BranchesAttested s' ∧ P s') s := by
    have hnoted := hP s (s.note (.attempted j e.owner step.id attempt)) (List.suffix_cons _ _) h
    refine spec_bind.mpr ⟨trivial, hi.congr rfl (List.suffix_cons _ _), ?_⟩
    refine (lasting_ask hboth _).spec_bind (hi.congr rfl (List.suffix_cons _ _))
      ⟨hnoted, j, List.mem_cons_self⟩ ?_ fun _ _ hi h => ⟨hi, h.1⟩
    intro ended s' hi' h'
    cases ended with
    | timedOut | interrupted | stopped => exact ⟨hi', h'.1⟩
    | finished outcome =>
      cases outcome with
      | raised exc => exact ⟨hi', h'.1⟩
      | returned output =>
        exact (lasting_note hboth _).spec_bind hi' h' (fun _ _ hi h => ⟨hi, h⟩)
          fun _ _ hi h => ⟨hi, h.1⟩
  refine spec_bind.mpr (hact.mono ?_ fun _ _ hs => hs)
  rintro output s' ⟨hi', h'⟩
  exact (runPostchecks_lasting hboth attempt output 0 _).spec_bind hi' h'
    (fun _ _ hi h => ⟨hi, h⟩) fun _ _ hi h => ⟨hi, h.1⟩

abbrev AttestSpec (j : Nat) (e : Execution) (step : WorkflowStep) (P : State V → Prop)
    (p : Task V (StepResult V)) (s : State V) : Prop :=
  p.Spec (attestLogic j)
    (fun result s' => (BranchesAttested s' ∧ P s') ∧ Attested e.owner step.id s'.history result.1)
    (fun _ s' => BranchesAttested s' ∧ P s') s

theorem runAttempts_attests (hP : Lasting P) (hi : BranchesAttested s) (h : P s) (inputs : V)
    (attempts : Nat) (error : ErrorCode) (remaining : Nat) :
    AttestSpec j e step P (runAttempts j site e step inputs attempts error remaining) s := by
  have hescaped : ∀ (exc : Exc) s', BranchesAttested s' → P s' →
      BranchesAttested s' ∧ P s' := fun _ _ hi h => ⟨hi, h⟩
  induction remaining generalizing attempts error s with
  | zero => exact ⟨hi, h⟩
  | succ remaining ih =>
    refine (checkpoint_lasting hP e.owner).spec_bind hi h ?_ hescaped
    intro _ s1 hi1 h1
    refine (emit_lasting hP _).spec_bind hi1 h1 ?_ hescaped
    intro _ s2 hi2 h2
    refine spec_bind.mpr (spec_observe.mpr
      ((runAttempt_attests hP hi2 h2 (attempts + 1) inputs).mono ?_ ?_))
    · rintro output s3 ⟨hi3, h3⟩
      refine (emit_lasting (hP.and (lasting_attempted e.owner step.id (attempts + 1))) _).spec_bind
        hi3 h3 ?_ fun _ _ hi h => ⟨hi, h.1⟩
      exact fun _ s4 hi4 h4 => ⟨⟨hi4, h4.1⟩, rfl, Or.inr ⟨rfl, h4.2⟩⟩
    · rintro exc s3 ⟨hi3, h3⟩
      dsimp only
      cases lastError exc with
      | none => exact ⟨hi3, h3⟩
      | some error' =>
        refine (emit_lasting hP _).spec_bind hi3 h3 ?_ hescaped
        intro _ s4 hi4 h4
        refine (delayRetry_lasting hP _).spec_bind hi4 h4 ?_ hescaped
        exact fun _ s5 hi5 h5 => ih hi5 h5 (attempts + 1) error'

theorem runStep_attests (hP : Lasting P) (hi : BranchesAttested s) (h : P s) (state : Outputs V) :
    AttestSpec j e step P (runStep j site e step state) s := by
  have hescaped : ∀ (exc : Exc) s', BranchesAttested s' → P s' →
      BranchesAttested s' ∧ P s' := fun _ _ hi h => ⟨hi, h⟩
  have hshould : (shouldRun site step state).Keeps (attestLogic j) P := by
    unfold shouldRun
    split
    · refine (lasting_ask hP _).bind fun answer => ?_
      cases answer with
      | returned value => exact lasting_ofCalled value
      | raised exc => exact keeps_raise _
    · exact keeps_ret true
  refine hshould.spec_bind hi h ?_ hescaped
  intro run s1 hi1 h1
  cases run with
  | false =>
    refine (emit_lasting hP _).spec_bind hi1 h1 ?_ hescaped
    exact fun _ s2 hi2 h2 => ⟨⟨hi2, h2⟩, rfl, Or.inl rfl⟩
  | true =>
    have hinputs : (buildInputs site step state).Keeps (attestLogic j) P := by
      refine (lasting_ask hP _).bind fun answer => ?_
      cases answer with
      | returned inputs => exact keeps_ret inputs
      | raised exc => exact keeps_raise _
    refine hinputs.spec_bind hi1 h1 ?_ hescaped
    exact fun inputs s2 hi2 h2 => runAttempts_attests hP hi2 h2 inputs 0 _ _

end Step

/-! ### The stages -/

section Stages

variable {e : Execution} {done steps : List WorkflowStep} {p : Progress V} {s s' : State V}

theorem AllAttested.add (h : AllAttested e.owner done p.records s) {step : WorkflowStep}
    {result : StepResult V} (hr : Attested e.owner step.id s.history result.1) :
    AllAttested e.owner (done ++ [step]) (p.add step result).records s := by
  rw [add_records]
  intro step' hstep'
  rcases List.mem_append.mp hstep' with hstep' | hstep'
  · obtain ⟨r, hr', hok⟩ := h step' hstep'
    exact ⟨r, List.mem_append_left _ hr', hok⟩
  · obtain rfl := List.mem_singleton.mp hstep'
    exact ⟨result.1, List.mem_append_right _ (List.mem_singleton.mpr rfl), hr⟩

/-- Where the stages have not ended early, the steps so far have attested records. -/
def Attesting (owner : Nat) (steps : List WorkflowStep) (r : Progress V × Option Halt)
    (s : State V) : Prop :=
  BranchesAttested s ∧ (r.2 = none → AllAttested owner steps r.1.records s)

theorem runSequential_attests (hi : BranchesAttested s)
    (h : AllAttested e.owner done p.records s) :
    (runSequential e.owner e p steps).Spec (attestLogic e.owner)
      (Attesting e.owner (done ++ steps)) (fun _ _ => True) s := by
  induction steps generalizing done p s with
  | nil => exact ⟨hi, fun _ => by simpa using h⟩
  | cons step steps ih =>
    refine spec_bind.mpr (spec_observe.mpr
      ((runStep_attests (lasting_all e.owner done p.records) hi h p.outputs).mono ?_ ?_))
    · rintro result s' ⟨⟨hi', h'⟩, hr⟩
      have hassoc : done ++ step :: steps = (done ++ [step]) ++ steps := by simp
      rw [hassoc]
      exact ih hi' (h'.add hr)
    · rintro exc s' ⟨hi', -⟩
      exact ⟨hi', by rintro ⟨⟩⟩

theorem merge_attested {outcomes : List (Called (StepResult V))}
    (h : AllAttested e.owner done p.records s) (hi : BranchesAttested s)
    (hended : steps.map (fun step => s.branches e.owner step.id) =
      outcomes.map fun outcome => some (.done outcome))
    (hfinish : (merge ⟨p, [], false⟩ (steps.zip outcomes)).finish.2 = none) :
    AllAttested e.owner (done ++ steps)
      (merge ⟨p, [], false⟩ (steps.zip outcomes)).finish.1.records s := by
  obtain ⟨hfst, hbranches⟩ := outcomes_of_join hended
  obtain ⟨hrecords, hfailures, hcancelled⟩ := merge_eq (steps.zip outcomes) ⟨p, [], false⟩
  unfold Merged.finish at hfinish ⊢
  cases hany : (steps.zip outcomes).any interrupted? with
  | true =>
    rw [hcancelled, hany, Bool.or_true, if_pos rfl] at hfinish
    cases hfinish
  | false =>
    rw [hcancelled, hany, Bool.or_false, if_neg (by simp), hfailures, List.nil_append] at hfinish ⊢
    cases hfailed : (steps.zip outcomes).filterMap failure? with
    | cons first rest =>
      rw [hfailed] at hfinish
      cases hfinish
    | nil =>
      show AllAttested e.owner _ (Merged.progress _).records s
      rw [hrecords]
      intro step hstep
      rcases List.mem_append.mp hstep with hstep | hstep
      · obtain ⟨r, hr, hok⟩ := h step hstep
        exact ⟨r, List.mem_append_left _ hr, hok⟩
      · rw [← hfst] at hstep
        obtain ⟨⟨step, outcome⟩, hpair, rfl⟩ := List.mem_map.mp hstep
        have hbranch := hbranches _ hpair
        have hnone := List.filterMap_eq_nil_iff.mp hfailed _ hpair
        have hnot := List.any_eq_false.mp hany _ hpair
        cases outcome with
        | returned result =>
          exact ⟨result.1, List.mem_append_right _ (List.mem_filterMap.mpr ⟨_, hpair, rfl⟩),
            hi _ _ result hbranch⟩
        | raised exc => cases exc <;> simp [failure?, interrupted?] at hnone hnot

theorem runParallel_attests (hi : BranchesAttested s)
    (h : AllAttested e.owner done p.records s) :
    (runParallel e p steps).Spec (attestLogic e.owner)
      (Attesting e.owner (done ++ steps)) (fun _ _ => True) s := by
  have hsuffix : s.history <:+ (s.fork e steps p.outputs).history := List.suffix_cons _ _
  have hforked : BranchesAttested (s.fork e steps p.outputs) := by
    intro owner id result hb
    rcases fork_cases (e := e) steps p.outputs s owner id with heq | ⟨rfl, step, -, rfl, heq⟩
    · exact (hi owner id result (heq.symm.trans hb)).grow hsuffix
    · rw [heq] at hb
      cases hb
  refine spec_bind.mpr (spec_modify.mpr ⟨trivial, hforked, ?_⟩)
  refine spec_bind.mpr fun s' hi' hr joined ha => ?_
  cases joined with
  | none => exact ⟨hi', by rintro ⟨⟩⟩
  | some outcomes =>
    have h' := lasting_all e.owner done p.records s s' (hsuffix.trans hr.kept.1) h
    exact ⟨hi', merge_attested h' hi' ha⟩

variable (done) in
theorem runStages_attests {stages : List WorkflowStage} (hi : BranchesAttested s)
    (h : AllAttested e.owner done p.records s) :
    (runStages e.owner e p stages).Spec (attestLogic e.owner)
      (Attesting e.owner (done ++ stages.flatMap (·.steps))) (fun _ _ => True) s := by
  induction stages generalizing done p s with
  | nil => exact ⟨hi, fun _ => by simpa using h⟩
  | cons stage stages ih =>
    have hstage : (runStage e.owner e p stage).Spec (attestLogic e.owner)
        (Attesting e.owner (done ++ stage.steps)) (fun _ _ => True) s := by
      refine spec_bind.mpr (spec_observe.mpr
        ((checkpoint_lasting (lasting_all e.owner done p.records) e.owner s hi h).mono ?_ ?_))
      · rintro ⟨⟩ s' ⟨hi', h'⟩
        dsimp only
        cases stage.mode with
        | sequential => exact runSequential_attests hi' h'
        | parallel => exact runParallel_attests hi' h'
      · exact fun exc s' hs' => ⟨hs'.1, by rintro ⟨⟩⟩
    refine spec_bind.mpr (hstage.mono ?_ fun _ _ hs => hs)
    rintro ⟨p', halt⟩ s' ⟨hi', h'⟩
    cases halt with
    | none =>
      rw [List.flatMap_cons, ← List.append_assoc]
      exact ih _ hi' (h' rfl)
    | some halt => exact ⟨hi', by rintro ⟨⟩⟩

end Stages

/-! ### The end of an execution -/

section Closing

variable {j : Nat} {P : State V → Prop} {s : State V} {e : Execution} {cfg : Config V}

theorem compensateAll_lasting (hP : Lasting P) (complete : Bool) (l : List (WorkflowStep × V)) :
    (compensateAll j e complete l).Keeps (attestLogic j) P := by
  induction l generalizing complete with
  | nil => exact keeps_ret complete
  | cons c l ih =>
    refine (lasting_note hP _).bind fun _ => (lasting_ask hP _).bind fun answer => ?_
    cases answer with
    | returned => exact (emit_lasting hP _).bind fun _ => ih complete
    | raised exc =>
      show Proc.Keeps _ _ (if exc.caught = true then _ else _)
      split
      · exact (emit_lasting hP _).bind fun _ => ih false
      · exact keeps_raise exc

theorem rollback_lasting (hP : Lasting P) (status : ExecutionStatus)
    (completed : List (WorkflowStep × V)) :
    (rollback j e status completed).Keeps (attestLogic j) P := by
  unfold rollback
  split
  · refine (emit_lasting hP _).bind fun _ => (compensateAll_lasting hP true _).bind fun _ => ?_
    exact (emit_lasting hP _).bind fun _ => keeps_ret true
  · exact keeps_ret false

theorem close_attests {p : Progress V} {verdict : Verdict V} {steps : List WorkflowStep}
    (hi : BranchesAttested s)
    (h : verdict.status = .succeeded → AllAttested j steps p.records s) :
    (close cfg j e p verdict).Spec (attestLogic j)
      (fun ex s' => ex.status = .succeeded → AllAttested j steps ex.steps s') (fun _ _ => True)
      s := by
  have hP : Lasting fun s : State V => verdict.status = .succeeded →
      AllAttested j steps p.records s :=
    fun s s' hs h hstatus => lasting_all j steps p.records s s' hs (h hstatus)
  refine (rollback_lasting hP verdict.status p.compensations).spec_bind hi h ?_
    fun _ _ _ _ => trivial
  intro rollbackPerformed s1 hi1 h1
  refine spec_bind.mpr (spec_require.mpr ⟨fun _ => ?_, fun _ => trivial⟩)
  refine (emit_lasting hP _).spec_bind hi1 h1 ?_ fun _ _ _ _ => trivial
  intro _ s2 hi2 h2
  refine (emit_lasting hP _).spec_bind hi2 h2 ?_ fun _ _ _ _ => trivial
  intro _ s3 hi3 h3
  have hsuffix : ∀ ex : WorkflowExecution V, s3.history <:+ (s3.settle j ex).history :=
    fun _ => List.suffix_cons _ _
  exact ⟨trivial, hi3.congr rfl (hsuffix _), hP _ _ (hsuffix _) h3⟩

theorem finish_attests {p : Progress V} {halt : Option Halt} {steps : List WorkflowStep}
    (h : Attesting j steps (p, halt) s) :
    (finish cfg j e p halt).Spec (attestLogic j)
      (fun ex s' => ex.status = .succeeded → AllAttested j steps ex.steps s') (fun _ _ => True)
      s := by
  cases halt with
  | none =>
    have hinvalid : ∀ result exc s', BranchesAttested s' →
        (resultInvalid result exc).Spec (attestLogic j)
          (fun verdict s' => (close cfg j e p verdict).Spec (attestLogic j)
            (fun ex s' => ex.status = .succeeded → AllAttested j steps ex.steps s')
            (fun _ _ => True) s') (fun _ _ => True) s' := by
      intro result exc s' hi'
      cases exc with
      | typeError => exact close_attests hi' (by rintro ⟨⟩)
      | valueError => exact close_attests hi' (by rintro ⟨⟩)
      | _ => trivial
    refine spec_bind.mpr (spec_bind.mpr fun s' hi' hr answer _ => ?_)
    have h' := lasting_all j steps p.records s s' hr.kept.1 (h.2 rfl)
    cases answer with
    | raised exc => exact hinvalid none exc s' hi'
    | returned result =>
      rw [spec_ret]
      dsimp only
      cases cfg.resultReceipt result with
      | raised exc => exact hinvalid (some result) exc s' hi'
      | returned receipt => exact close_attests hi' fun _ => h'
  | some halt =>
    cases halt with
    | escaped exc => trivial
    | step | stage | cancelled => exact close_attests h.1 (by rintro ⟨⟩)

theorem execute_attests {definition : WorkflowDefinition} {executionId : Option String}
    {uuid : String} (hi : BranchesAttested s) :
    (execute cfg j definition executionId uuid).Spec (attestLogic j)
      (fun ex s' => ex.status = .succeeded → AllAttested j definition.steps ex.steps s')
      (fun _ _ => True) s := by
  have hP : Lasting fun _ : State V => True := fun _ _ _ _ => trivial
  refine spec_bind.mpr (spec_bind.mpr
    (spec_require.mpr ⟨fun _ => ?_, fun _ => trivial⟩))
  set e : Execution := ⟨j, chooseId executionId uuid, definition⟩
  have hregistered : BranchesAttested (s.register e) := hi.congr rfl (List.suffix_cons _ _)
  refine spec_bind.mpr (spec_modify.mpr ⟨trivial, hregistered, ?_⟩)
  refine (emit_lasting hP _).spec_bind hregistered trivial ?_ fun _ _ _ _ => trivial
  intro _ s1 hi1 _
  refine (emit_lasting hP _).spec_bind hi1 trivial ?_ fun _ _ _ _ => trivial
  intro _ s2 hi2 _
  refine spec_bind.mpr ((runStages_attests (e := e) [] hi2 (by
    simp [AllAttested])).mono ?_ fun _ _ _ => trivial)
  rintro ⟨p, halt⟩ s3 h3
  exact finish_attests h3

end Closing

/-! ### The contract -/

section Contract

variable {cfg : Config V} {j : Nat} {s s' : State V}

theorem runBranch_attests {owner : Nat} {id : String} (hi : Inv s) (ha : BranchesAttested s) :
    (runBranch j owner id).Spec (attestLogic j) (fun _ _ => True) (fun _ _ => True) s := by
  have hmoved : ∀ {s : State V} {b : Branch V} {n : Note V}, BranchesAttested s →
      (∀ result, b = .done (.returned result) → Attested owner id s.history result.1) →
      BranchesAttested (s.setBranch owner id b n) := by
    intro s branch n hs hbranch o i result hb
    by_cases hthis : o = owner ∧ i = id
    · obtain ⟨rfl, rfl⟩ := hthis
      rw [setBranch_self] at hb
      exact (hbranch result (Option.some.inj hb)).grow (List.suffix_cons _ _)
    · rw [setBranch_ne branch n s hthis] at hb
      exact (hs o i result hb).grow (List.suffix_cons _ _)
  refine spec_bind.mpr (spec_reading.mpr ?_)
  cases hfound : s.branches owner id with
  | none => trivial
  | some b =>
    cases b with
    | created e step snapshot =>
      obtain ⟨rfl, rfl, -, -⟩ := hi.created owner id e step snapshot hfound
      have hentered := hmoved (b := .running j) (n := .entered j e.owner step.id) ha (by simp)
      refine spec_bind.mpr (spec_modify.mpr ⟨trivial, hentered, ?_⟩)
      have hP : Lasting fun _ : State V => True := fun _ _ _ _ => trivial
      refine spec_bind.mpr (spec_observe.mpr
        ((runStep_attests hP hentered trivial snapshot).mono ?_ ?_))
      · rintro result s' ⟨⟨hi', -⟩, hr⟩
        refine ⟨trivial, hmoved hi' ?_, trivial⟩
        rintro result' heq
        obtain rfl : result = result' := Called.returned.inj (Branch.done.inj heq)
        exact hr
      · exact fun exc s' hs' => ⟨trivial, hmoved hs'.1 (by simp [called]), trivial⟩
    | _ => trivial

def AttestReturned (j : Nat) (t : Request) (reply : Reply V) (s : State V) : Prop :=
  match t, reply with
  | .execute definition _ _, .execution ex =>
      ex.status = .succeeded → AllAttested j definition.steps ex.steps s
  | _, _ => True

theorem handler_attests {t : Request} (hi : Inv s) (hfresh : Fresh j s) (ha : BranchesAttested s) :
    (handler cfg j t).Spec (attestLogic j) (AttestReturned j t) (fun _ _ => True) s := by
  have hnoted : BranchesAttested (s.note (.received j t)) := ha.congr rfl (List.suffix_cons _ _)
  have hP : Lasting fun _ : State V => True := fun _ _ _ _ => trivial
  refine spec_bind.mpr ⟨trivial, hnoted, ?_⟩
  cases t with
  | execute definition executionId uuid => exact spec_bind.mpr (execute_attests hnoted)
  | control call executionId =>
    refine spec_bind.mpr (spec_bind.mpr (spec_reading.mpr ?_))
    cases (s.note (.received j (.control call executionId))).controls.lookup executionId with
    | none => trivial
    | some e =>
      have hcontrolled : BranchesAttested
          ((s.note (.received j (.control call executionId))).control j e.owner call) := by
        cases call <;> exact hnoted.congr rfl (List.suffix_cons _ _)
      refine spec_bind.mpr ⟨trivial, hcontrolled, ?_⟩
      exact (emit_lasting hP _).spec_bind hcontrolled trivial (fun _ _ _ _ => trivial)
        fun _ _ _ _ => trivial
  | branch owner stepId =>
    exact spec_bind.mpr ((runBranch_attests (hi.receive hfresh _) hnoted).mono
      (fun _ _ _ => trivial) fun _ _ _ => trivial)

theorem AttestReturned.rely {t : Request} {reply : Reply V} (h : AttestReturned j t reply s)
    (hr : Rely j s s') : AttestReturned j t reply s' := by
  cases t with
  | execute definition executionId uuid =>
    cases reply with
    | execution ex =>
      exact fun hstatus => lasting_all j definition.steps ex.steps s s' hr.kept.1 (h hstatus)
    | flag | branch => trivial
  | control | branch => trivial

end Contract

def attestContract (cfg : Config V) : Contract (engine cfg) where
  inv s := Inv s ∧ BranchesAttested s
  rely := Rely
  guar j s s' := Guar j s s' ∧ True
  fresh := Fresh
  post j t reply s := Returned j t reply s ∧ AttestReturned j t reply s
  postE _ t _ _ := Raised t ∧ True
  refl := Rely.refl
  trans _ _ _ _ := Rely.trans
  guar_rely _ _ _ _ hne hg := hg.1.rely hne
  fresh_rely _ _ _ := Fresh.rely
  post_rely _ _ _ _ _ h hr := ⟨h.1.rely hr, h.2.rely hr⟩
  postE_rely _ _ _ _ _ h _ := h
  world _ w := w.elim
  handler _ _ _ hi hf hadmits :=
    (handler_spec hi.1 hf hadmits).and (handler_attests hi.1 hf hi.2) (fun _ _ hr => hr)
      fun _ _ _ ha => ha

theorem attested_of_reachable {cfg : Config V} {p : Tasks V}
    (reach : (engine cfg).Reachable .initial p) {j : Nat} {definition : WorkflowDefinition}
    {executionId : Option String} {uuid : String} {ex : WorkflowExecution V}
    (hj : p.tasks[j]? = some (.execute definition executionId uuid, .ret (.execution ex)))
    (hstatus : ex.status = .succeeded) : AllAttested j definition.steps ex.steps p.state :=
  (((attestContract cfg).sound ⟨inv_initial, by simp [BranchesAttested, State.initial]⟩
    (fun _ => ⟨rfl, fun _ => rfl⟩) reach).tasks j _ _ hj).2.2 hstatus

/-- The call `c` of `cancel` has returned `True`; it was for the execution `j`. -/
def Cancelled (p : Tasks V) (c j : Nat) (executionId : String) : Prop :=
  p.tasks[c]? = some (.control .cancel executionId, .ret (.flag true)) ∧
    .controlled c j .cancel ∈ p.state.history

/-- The attempt was started, or its `action.started` is being published. -/
def Begun (p : Tasks V) (j : Nat) (stepId : String) (attempt : Nat) : Prop :=
  (∃ i, .attempted i j stepId attempt ∈ p.state.history) ∨ ∃ i, Publishing p j i stepId attempt

/-- After `cancel` has returned `True`, the execution starts only attempts whose `action.started` was
being published then; and where it succeeds all the same, every step of it was skipped or succeeded
in an attempt that had begun by then. -/
theorem begun_of_cancelled (cfg : Config V) (p p' : Tasks V)
    (ms : List (Move (Res (V := V)) Request Empty)) (reach : (engine cfg).Reachable .initial p)
    (c j : Nat) (executionId : String) (hc : Cancelled p c j executionId)
    (run : (engine cfg).Run p ms p') :
    (∃ newer, p'.state.history = newer ++ p.state.history ∧ ∀ i stepId attempt,
      .attempted i j stepId attempt ∈ newer → Publishing p j i stepId attempt) ∧
    ∀ definition givenId uuid (ex : WorkflowExecution V),
      p'.tasks[j]? = some (.execute definition givenId uuid, .ret (.execution ex)) →
      ex.status = .succeeded → ∀ step ∈ definition.steps, ∃ r ∈ ex.steps, r.stepId = step.id ∧
        (r.status = .skipped ∨ r.status = .succeeded ∧ Begun p j step.id r.attempts) := by
  have late := late_of_run reach (cancelled_of_controlled reach hc.2) run
  refine ⟨late.newer, ?_⟩
  intro definition givenId uuid ex hj hstatus step hstep
  obtain ⟨ms₀, run₀⟩ := reach
  have reach' : (engine cfg).Reachable .initial p' :=
    run.invariant (fun q m legal hq => System.Reachable.next hq legal) ⟨ms₀, run₀⟩
  obtain ⟨r, hr, hid, hok⟩ := attested_of_reachable reach' hj hstatus step hstep
  refine ⟨r, hr, hid, hok.imp_right fun hsucceeded => ⟨hsucceeded.1, ?_⟩⟩
  obtain ⟨newer, heq, hnewer⟩ := late.newer
  obtain ⟨i, hi⟩ := hsucceeded.2
  rw [heq] at hi
  rcases List.mem_append.mp hi with hi | hi
  · exact Or.inr ⟨i, hnewer i step.id r.attempts hi⟩
  · exact Or.inl ⟨i, hi⟩

/-! ### Samples -/

def Note.cancels (c j : Nat) : Note V → Bool
  | .controlled c' j' .cancel => c' == c && j' == j
  | _ => false

theorem mem_of_cancels {c j : Nat} {h : List (Note V)} (hany : h.any (Note.cancels c j) = true) :
    .controlled c j .cancel ∈ h := by
  obtain ⟨n, hn, hcancels⟩ := List.any_eq_true.mp hany
  cases n with
  | controlled c' j' call =>
    cases call with
    | cancel =>
      simp only [Note.cancels, Bool.and_eq_true, beq_iff_eq] at hcancels
      obtain ⟨rfl, rfl⟩ := hcancels
      exact hn
    | _ => cases hcancels
  | _ => cases hcancels

/-- `cancel` while `action.started` of the only step is being published. -/
def cancelledMoves : List (Move (Res (V := Nat)) Request Empty) :=
  .start (.execute soloDefinition (some "run-one") "uuid") ::
    List.replicate 8 (.resume 0 (sampleAnswer (.finished (.returned 7)) [])) ++
    .start (.control .cancel "run-one") ::
    List.replicate 2 (.resume 1 (sampleAnswer (.finished (.returned 7)) []))

def lateMoves : List (Move (Res (V := Nat)) Request Empty) :=
  List.replicate 9 (.resume 0 (sampleAnswer (.finished (.returned 7)) []))

def cancelledRun : Tasks Nat := (engine sampleConfig).play (System.initial .initial) cancelledMoves

def lateRun : Tasks Nat := (engine sampleConfig).play cancelledRun lateMoves

def lateExecution : WorkflowExecution Nat where
  id := "run-one"
  workflowId := "w"
  workflowVersion := "1"
  capabilityId := "cap"
  status := .succeeded
  steps := [succeededRecord firstStep 1]
  result := some 0
  errorCode := none
  rollbackPerformed := false

set_option maxRecDepth 20000 in
theorem cancelledRun_reachable : (engine sampleConfig).Reachable .initial cancelledRun :=
  ⟨cancelledMoves, System.run_of_checked (playableMove_legal sampleConfig) (by decide +kernel)⟩

set_option maxRecDepth 20000 in
theorem lateRun_run : (engine sampleConfig).Run cancelledRun lateMoves lateRun :=
  System.run_of_checked (playableMove_legal sampleConfig) (by decide +kernel)

set_option maxRecDepth 20000 in
theorem cancelledRun_cancelled : Cancelled cancelledRun 1 0 "run-one" :=
  ⟨Pool.task_of_ended (r := .ok (Reply.flag true)) (by decide +kernel),
    mem_of_cancels (by decide +kernel)⟩

/-- The step of the sample succeeded in the attempt that was being published. -/
theorem begun_sample : ∃ r ∈ lateExecution.steps, r.stepId = "a" ∧
    (r.status = .skipped ∨ r.status = .succeeded ∧ Begun cancelledRun 0 "a" r.attempts) :=
  (begun_of_cancelled sampleConfig cancelledRun lateRun lateMoves cancelledRun_reachable 1 0
    "run-one" cancelledRun_cancelled lateRun_run).2 soloDefinition (some "run-one") "uuid"
    lateExecution (Pool.task_of_ended (r := .ok (Reply.execution lateExecution)) (by decide +kernel)) rfl
    firstStep (by decide)

set_option maxRecDepth 20000 in
/-- `cancel` returned `True` before the only step was started; the step is started after it, and the
execution succeeds. -/
theorem cancelled_succeeds : (engine sampleConfig).Reachable .initial cancelledRun ∧
    Cancelled cancelledRun 1 0 "run-one" ∧
    (engine sampleConfig).Run cancelledRun lateMoves lateRun ∧
    marked 0 "a" .attempted cancelledRun.state.history = false ∧
    marked 0 "a" .concluded cancelledRun.state.history = false ∧
    marked 0 "a" .attempted lateRun.state.history = true ∧
    lateRun.ended 0 = some (.execute soloDefinition (some "run-one") "uuid",
      some (.ok (.execution lateExecution))) ∧ lateExecution.status = .succeeded :=
  ⟨cancelledRun_reachable, cancelledRun_cancelled, lateRun_run, by decide +kernel,
    by decide +kernel, by decide +kernel, by decide +kernel, rfl⟩

end Ares.Workflows
