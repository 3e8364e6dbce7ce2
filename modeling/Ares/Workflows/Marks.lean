import Ares.Workflows.Compensation

/-! What the history says of the steps of an execution: that its action was started, that the step
was skipped, that it came to an end which is not tried again.  Only the task that may act for a step
marks it. -/

namespace Ares.Workflows

open Coop

variable {V : Type}

inductive Mark
  | attempted | concluded | skipped
deriving DecidableEq

def Event.mark? : Event → Option (String × Mark)
  | .stepSkipped stepId _ => some (stepId, .skipped)
  | .actionCompleted stepId _ _ => some (stepId, .concluded)
  | .actionFailed stepId _ _ _ false => some (stepId, .concluded)
  | _ => none

def Note.mark? : Note V → Option (Nat × String × Mark)
  | .attempted _ owner stepId _ => some (owner, stepId, .attempted)
  | .published _ owner event => event.event.mark?.map (owner, ·)
  | _ => none

def marked (owner : Nat) (stepId : String) (m : Mark) (h : List (Note V)) : Bool :=
  h.any fun n => n.mark? == some (owner, stepId, m)

def MarkOf (owner : Nat) (stepId : String) (n : Note V) : Prop :=
  n.mark? = none ∨ ∃ m, n.mark? = some (owner, stepId, m)

def SameMarks (owner : Nat) (stepId : String) (s s' : State V) : Prop :=
  ∀ m, marked owner stepId m s'.history = marked owner stepId m s.history

section Marked

variable {owner : Nat} {stepId : String} {m : Mark} {n : Note V} {s s' : State V}

theorem marked_cons (h : List (Note V)) : marked owner stepId m (n :: h) =
    (n.mark? == some (owner, stepId, m) || marked owner stepId m h) := rfl

theorem marked_other {x : Option (Nat × String × Mark)} (hn : n.mark? = x)
    (hne : x ≠ some (owner, stepId, m)) (h : List (Note V)) :
    marked owner stepId m (n :: h) = marked owner stepId m h := by
  rw [marked_cons, hn, beq_eq_false_iff_ne.mpr hne, Bool.false_or]

theorem sameMarks_unmarked (hhistory : s'.history = n :: s.history) (hn : n.mark? = none)
    (owner : Nat) (stepId : String) : SameMarks owner stepId s s' := by
  intro m
  rw [hhistory]
  exact marked_other hn (by simp) s.history

theorem sameMarks_note {owner' : Nat} {stepId' : String} (hn : MarkOf owner' stepId' n)
    (hne : ¬(owner' = owner ∧ stepId' = stepId)) : SameMarks owner stepId s (s.note n) := by
  intro m
  rcases hn with hn | ⟨m', hn⟩
  · exact marked_other hn (by simp) s.history
  · refine marked_other hn ?_ s.history
    intro heq
    simp only [Option.some.injEq, Prod.mk.injEq] at heq
    exact hne ⟨heq.1, heq.2.1⟩

end Marked

/-! ### The engine on a bus that takes what is skipped -/

def Event.isSkip : Event → Bool
  | .stepSkipped _ _ => true
  | _ => false

/-- The bus raises no `_ExecutionCancelled`, and it takes every `workflow.step.skipped`. -/
def Taken : (o : Op V) → Res o → Prop
  | .append _ event, .raised e | .notify _ event, .raised e =>
      e ≠ .executionCancelled ∧ event.event.isSkip = false
  | _, _ => True

def heardEngine (cfg : Config V) :
    System (State V) (Res (V := V)) Exc (Reply V) Request Empty :=
  (engine cfg).restrict (fun _ _ => True) fun _ => Taken

/-- What the marks say of a step that has come to the given end. -/
def Fate (owner : Nat) (stepId : String) (h : List (Note V)) :
    Called (StepResult V) → Prop
  | .returned result => result.1.stepId = stepId ∧
      (marked owner stepId .skipped h = true → result.1.status = .skipped)
  | .raised exc => FailureOk stepId exc ∧ marked owner stepId .skipped h = false ∧
      (exc = .executionCancelled → marked owner stepId .concluded h = false)

/-- What the task `j` may find changed after it waited. -/
structure Minds (j : Nat) (s s' : State V) : Prop where
  rely : Rely j s s'
  permitted : ∀ owner id, Permit j owner id s → SameMarks owner id s s'
  final : ∀ id outcome, s.branches j id = some (.done outcome) → SameMarks j id s s'

/-- A write of the task `j` marks only steps that may act in it. -/
def Marks (j : Nat) (s s' : State V) : Prop :=
  ∀ owner id, SameMarks owner id s s' ∨ Permit j owner id s

structure Told (s : State V) : Prop where
  created : ∀ owner id e step snapshot, s.branches owner id = some (.created e step snapshot) →
    ∀ m, marked owner id m s.history = false
  done : ∀ owner id outcome, s.branches owner id = some (.done outcome) →
    Fate owner id s.history outcome

theorem Fate.congr {owner : Nat} {id : String} {s s' : State V} (hsame : SameMarks owner id s s')
    {outcome : Called (StepResult V)} (h : Fate owner id s.history outcome) :
    Fate owner id s'.history outcome := by
  cases outcome with
  | returned result => exact ⟨h.1, fun hskipped => h.2 ((hsame .skipped).symm.trans hskipped)⟩
  | raised exc =>
    exact ⟨h.1, (hsame .skipped).trans h.2.1, fun hexc => (hsame .concluded).trans (h.2.2 hexc)⟩

theorem Minds.refl (j : Nat) (s : State V) : Minds j s s :=
  ⟨Rely.refl j s, fun _ _ _ _ => rfl, fun _ _ _ _ => rfl⟩

theorem Minds.trans {j : Nat} {a b c : State V} (hab : Minds j a b) (hbc : Minds j b c) :
    Minds j a c where
  rely := hab.rely.trans hbc.rely
  permitted owner id h m :=
    (hbc.permitted owner id (h.rely hab.rely) m).trans (hab.permitted owner id h m)
  final id outcome h m :=
    (hbc.final id outcome (hab.rely.done j id outcome h) m).trans (hab.final id outcome h m)

theorem Marks.minds {j k : Nat} {s s' : State V} (hne : j ≠ k) (hg : Guar j s s')
    (hm : Marks j s s') : Minds k s s' := by
  refine ⟨hg.rely hne, ?_, ?_⟩
  · intro owner id hk
    rcases hm owner id with hsame | hj
    · exact hsame
    · -- A step that acts in one task does not act in another.
      rcases hk with ⟨rfl, hk⟩ | hk <;> rcases hj with ⟨rfl, hj⟩ | hj
      · exact absurd rfl hne
      · rw [hk] at hj
        cases hj
      · rw [hk] at hj
        cases hj
      · rw [hk] at hj
        exact absurd (Branch.running.inj (Option.some.inj hj)).symm hne
  · intro id outcome hdone
    rcases hm k id with hsame | ⟨heq, -⟩ | hj
    · exact hsame
    · exact absurd heq.symm hne
    · rw [hdone] at hj
      cases hj

def recordLogic (j : Nat) : Logic (State V) (Res (V := V)) :=
  ⟨Told, Minds j, Marks j, fun s o r => Answers s o r ∧ Taken o r⟩

section Writes

variable {j : Nat} {s s' : State V} {n : Note V}

theorem Told.congr (h : Told s) (hbranches : s'.branches = s.branches)
    (hsame : ∀ owner id, SameMarks owner id s s') : Told s' := by
  refine ⟨?_, ?_⟩
  · rw [hbranches]
    exact fun owner id e step snapshot hb m =>
      (hsame owner id m).trans (h.created owner id e step snapshot hb m)
  · rw [hbranches]
    exact fun owner id outcome hb => (h.done owner id outcome hb).congr (hsame owner id)

theorem marks_of_same (hsame : ∀ owner id, SameMarks owner id s s') : Marks j s s' :=
  fun owner id => Or.inl (hsame owner id)

theorem note_unmarked (hn : n.mark? = none) (h : Told s) :
    Marks j s (s.note n) ∧ Told (s.note n) :=
  ⟨marks_of_same (sameMarks_unmarked rfl hn), h.congr rfl (sameMarks_unmarked rfl hn)⟩

theorem note_marked {owner : Nat} {id : String} (hn : MarkOf owner id n)
    (hp : Permit j owner id s) (h : Told s) : Marks j s (s.note n) ∧ Told (s.note n) := by
  have hothers : ∀ owner' id', ¬(owner = owner' ∧ id = id') →
      SameMarks owner' id' s (s.note n) := fun _ _ hne => sameMarks_note hn hne
  have hfree : ∀ b, s.branches owner id = some b → b = .running j := by
    intro b hb
    rcases hp with ⟨-, hp⟩ | hp
    · rw [hp] at hb
      cases hb
    · rw [hp] at hb
      exact (Option.some.inj hb).symm
  refine ⟨fun owner' id' => ?_, ⟨?_, ?_⟩⟩
  · by_cases heq : owner = owner' ∧ id = id'
    · obtain ⟨rfl, rfl⟩ := heq
      exact Or.inr hp
    · exact Or.inl (hothers owner' id' heq)
  · intro owner' id' e step snapshot hb m
    by_cases heq : owner = owner' ∧ id = id'
    · obtain ⟨rfl, rfl⟩ := heq
      cases hfree _ hb
    · exact (hothers owner' id' heq m).trans (h.created owner' id' e step snapshot hb m)
  · intro owner' id' outcome hb
    by_cases heq : owner = owner' ∧ id = id'
    · obtain ⟨rfl, rfl⟩ := heq
      cases hfree _ hb
    · exact (h.done owner' id' outcome hb).congr (hothers owner' id' heq)

end Writes

/-! ### What the code of a step keeps -/

/-- An assertion that stays true when the other tasks go on, and when the task `j` makes a note of
the kind `K`. -/
structure Stays (j : Nat) (K : Note V → Prop) (P : State V → Prop) : Prop where
  minds : ∀ {s s'}, Minds j s s' → P s → P s'
  note : ∀ {s n}, K n → P s → P (s.note n)

/-- `p` holds on to `P` until its end, and does not end with `_StepFailed`. -/
def Steady {α : Type} (j : Nat) (P : State V → Prop) (p : Task V α) : Prop :=
  ∀ s, Told s → P s → p.Spec (recordLogic j) (fun _ s' => Told s' ∧ P s')
    (fun e s' => (Told s' ∧ P s') ∧ e.isStepFailed = false) s

def Unmarked (n : Note V) : Prop := n.mark? = none

section Steady

variable {j : Nat} {P : State V → Prop} {α β : Type}

theorem Stays.mono {K K' : Note V → Prop} (hP : Stays j K P) (h : ∀ n, K' n → K n) :
    Stays j K' P :=
  ⟨hP.minds, fun hk => hP.note (h _ hk)⟩

theorem Steady.keeps {p : Task V α} (hp : Steady j P p) : p.Keeps (recordLogic j) P :=
  fun s ht h => (hp s ht h).mono (fun _ _ hs => hs) fun _ _ hs => hs.1

theorem Steady.bind {p : Task V α} {f : α → Task V β} (hp : Steady j P p)
    (hf : ∀ a, Steady j P (f a)) : Steady j P (p.bind f) :=
  fun s ht h => spec_bind.mpr ((hp s ht h).mono (fun a s' hs' => hf a s' hs'.1 hs'.2)
    fun _ _ hs' => hs')

theorem Steady.spec_bind {p : Task V α} {f : α → Task V β} {Q : β → State V → Prop}
    {E : Exc → State V → Prop} {s : State V} (hp : Steady j P p) (ht : Told s) (h : P s)
    (hf : ∀ a s', Told s' → P s' → (f a).Spec (recordLogic j) Q E s')
    (hE : ∀ e s', Told s' → P s' → e.isStepFailed = false → E e s') :
    (p.bind f).Spec (recordLogic j) Q E s :=
  Proc.spec_bind.mpr ((hp s ht h).mono (fun a s' hs' => hf a s' hs'.1 hs'.2)
    fun e s' hs' => hE e s' hs'.1.1 hs'.1.2 hs'.2)

theorem steady_reading (f : State V → α) : Steady j P (reading f) :=
  fun _ ht h => ⟨ht, h⟩

theorem steady_ask (hP : Stays j Unmarked P) {o : Op V} {f : Res o → Task V α}
    (hf : ∀ s r, Answers s o r → Told s → P s → (f r).Spec (recordLogic j)
      (fun _ s' => Told s' ∧ P s') (fun e s' => (Told s' ∧ P s') ∧ e.isStepFailed = false) s) :
    Steady j P ((ask o).bind f) :=
  fun _ _ h => spec_bind.mpr fun s' ht hr r ha => hf s' r ha.1 ht (hP.minds hr h)

theorem emit_steady (hP : Stays j Unmarked P) (site : Site) (e : Execution) {event : Event}
    (h : event.mark? = none) : Steady j P (emit j site e event : Task V Unit) := by
  refine steady_ask hP fun s r ha ht hs => ?_
  cases r with
  | raised exc => exact ⟨⟨ht, hs⟩, ha⟩
  | returned =>
    have hn : Unmarked (.published j e.owner
        ⟨e.definition.capabilityId, e.id, e.definition.id, event⟩ : Note V) := by
      simp [Unmarked, Note.mark?, h]
    obtain ⟨hmarks, htold⟩ := note_unmarked (j := j) hn ht
    refine ⟨hmarks, htold, ?_⟩
    refine steady_ask hP (fun s' r ha ht hs => ?_) _ htold (hP.note hn hs)
    cases r with
    | returned => exact ⟨ht, hs⟩
    | raised exc => exact ⟨⟨ht, hs⟩, ha⟩

theorem checkpoint_steady (hP : Stays j Unmarked P) (site : Site) (owner : Nat) :
    Steady j P (checkpoint site owner : Task V Unit) := by
  refine (steady_reading _).bind fun opened => (steady_reading _).bind fun wakes => ?_
  refine steady_ask hP fun s r ha ht hs => ?_
  cases r with
  | raised exc => exact ⟨⟨ht, hs⟩, ha⟩
  | returned =>
    refine (steady_reading _).bind (fun cancelled => ?_) s ht hs
    intro s ht hs
    cases cancelled with
    | false => exact ⟨ht, hs⟩
    | true => exact ⟨⟨ht, hs⟩, rfl⟩

theorem delayRetry_steady (hP : Stays j Unmarked P) (site : Site) (step : WorkflowStep)
    (retrying : Bool) : Steady j P (delayRetry site step retrying : Task V Unit) := by
  unfold delayRetry
  split
  · refine steady_ask hP fun s r ha ht hs => ?_
    cases r with
    | returned => exact ⟨ht, hs⟩
    | raised exc => exact ⟨⟨ht, hs⟩, ha⟩
  · exact fun s ht hs => ⟨ht, hs⟩

theorem runPostchecks_steady (hP : Stays j Unmarked P) (site : Site) (e : Execution)
    (step : WorkflowStep) (attempt : Nat) (output : V) (index remaining : Nat) :
    (runPostchecks j site e step attempt output index remaining).Keeps (recordLogic j) P := by
  induction remaining generalizing index with
  | zero => exact keeps_ret ()
  | succ remaining ih =>
    refine (quiet_perform.keeps fun _ _ hr h => hP.minds hr h).bind fun answer => ?_
    refine Proc.Keeps.bind (p := ofCalled answer) ?_ fun passed => ?_
    · cases answer with
      | returned => exact keeps_ret _
      | raised => exact keeps_raise _
    refine Proc.Keeps.bind (p := require passed _) ?_ fun _ => ?_
    · cases passed with
      | true => exact keeps_ret _
      | false => exact keeps_raise _
    exact (emit_steady hP site e rfl).keeps.bind fun _ => ih (index + 1)

end Steady

/-! ### One step -/

section Step

variable {j : Nat} {P : State V → Prop} {site : Site} {e : Execution} {step : WorkflowStep}
  {s : State V}

/-- A step that acts in the task `j`, and what holds on to its end. -/
structure Acts (j : Nat) (e : Execution) (step : WorkflowStep) (P : State V → Prop)
    (s : State V) : Prop where
  permit : Permit j e.owner step.id s
  frame : P s
  skipped : marked e.owner step.id .skipped s.history = false

/-- The step has not come to its end. -/
structure Open (j : Nat) (e : Execution) (step : WorkflowStep) (P : State V → Prop)
    (s : State V) : Prop extends Acts j e step P s where
  concluded : marked e.owner step.id .concluded s.history = false

def Opening (e : Execution) (step : WorkflowStep) (n : Note V) : Prop :=
  n.mark? = none ∨ n.mark? = some (e.owner, step.id, .attempted)

theorem stays_acts (hP : Stays j (MarkOf e.owner step.id) P) : Stays j Unmarked (Acts j e step P) := by
  refine ⟨?_, ?_⟩
  · intro s s' hr h
    exact ⟨h.permit.rely hr.rely, hP.minds hr h.frame,
      (hr.permitted _ _ h.permit .skipped).trans h.skipped⟩
  · intro s n hn h
    exact ⟨h.permit, hP.note (Or.inl hn) h.frame,
      (marked_other hn (by simp) s.history).trans h.skipped⟩

theorem stays_open (hP : Stays j (MarkOf e.owner step.id) P) :
    Stays j (Opening e step) (Open j e step P) := by
  refine ⟨?_, ?_⟩
  · intro s s' hr h
    exact ⟨(stays_acts hP).minds hr h.toActs,
      (hr.permitted _ _ h.permit .concluded).trans h.concluded⟩
  · intro s n hn h
    have hof : MarkOf e.owner step.id n := hn.imp_right fun heq => ⟨.attempted, heq⟩
    refine ⟨⟨h.permit, hP.note hof h.frame, ?_⟩, ?_⟩
    · refine Eq.trans ?_ h.skipped
      rcases hn with hn | hn <;> exact marked_other hn (by simp) s.history
    · refine Eq.trans ?_ h.concluded
      rcases hn with hn | hn <;> exact marked_other hn (by simp) s.history

theorem runAttempt_open (hP : Stays j (MarkOf e.owner step.id) P) (attempt : Nat) (inputs : V) :
    (runAttempt j site e step attempt inputs).Keeps (recordLogic j) (Open j e step P) := by
  have hopen := stays_open hP
  have hquiet : Stays j Unmarked (Open j e step P) := hopen.mono fun _ hn => Or.inl hn
  have hnote : ∀ n : Note V, Opening e step n →
      (Proc.modify (State.note n) : Task V Unit).Keeps (recordLogic j) (Open j e step P) := by
    refine fun n hn => keeps_modify fun s ht h => ?_
    have hof : MarkOf e.owner step.id n := hn.imp_right fun heq => ⟨.attempted, heq⟩
    obtain ⟨hmarks, htold⟩ := note_marked hof h.permit ht
    exact ⟨hmarks, htold, hopen.note hn h⟩
  have hact : (runAction j site e step attempt inputs).Keeps (recordLogic j)
      (Open j e step P) := by
    refine (hnote _ (Or.inr rfl)).bind fun _ => ?_
    refine (quiet_perform.keeps fun _ _ hr h => hquiet.minds hr h).bind fun ended => ?_
    cases ended with
    | timedOut | interrupted | stopped => exact keeps_raise _
    | finished outcome =>
      cases outcome with
      | raised exc => exact keeps_raise _
      | returned output => exact (hnote _ (Or.inl rfl)).bind fun _ => keeps_ret _
  exact hact.bind fun output =>
    (runPostchecks_steady hquiet site e step attempt output 0 step.postchecks).bind
      fun _ => keeps_ret _

/-- An event that marks the step: when its publication does not end, the step has not ended with
`_ExecutionCancelled`. -/
theorem emit_marked (hP : Stays j (MarkOf e.owner step.id) P) {event : Event} {m : Mark}
    (hevent : event.mark? = some (step.id, m)) (hm : m ≠ .skipped) (h : Acts j e step P s) :
    (emit j site e event : Task V Unit).Spec (recordLogic j)
      (fun _ s' => Told s' ∧ Acts j e step P s')
      (fun exc s' => (Told s' ∧ Acts j e step P s') ∧ exc.isStepFailed = false ∧
        exc ≠ .executionCancelled) s := by
  have hacts := stays_acts hP
  refine spec_bind.mpr fun s1 ht1 hr1 appended ha1 => ?_
  have h1 := hacts.minds hr1 h
  cases appended with
  | raised exc => exact ⟨⟨ht1, h1⟩, ha1.1, ha1.2.1⟩
  | returned =>
    have hn : Note.mark? (.published j e.owner
        ⟨e.definition.capabilityId, e.id, e.definition.id, event⟩ : Note V) =
          some (e.owner, step.id, m) := by
      simp [Note.mark?, hevent]
    obtain ⟨hmarks, htold⟩ := note_marked (Or.inr ⟨m, hn⟩) h1.permit ht1
    have h2 : Acts j e step P (s1.note (.published j e.owner
        ⟨e.definition.capabilityId, e.id, e.definition.id, event⟩)) :=
      ⟨h1.permit, hP.note (Or.inr ⟨m, hn⟩) h1.frame,
        (marked_other hn (by simp [hm]) s1.history).trans h1.skipped⟩
    refine ⟨hmarks, htold, fun s2 ht2 hr2 notified ha2 => ?_⟩
    cases notified with
    | returned => exact ⟨ht2, hacts.minds hr2 h2⟩
    | raised exc => exact ⟨⟨ht2, hacts.minds hr2 h2⟩, ha2.1, ha2.2.1⟩

abbrev FateSpec (j : Nat) (e : Execution) (step : WorkflowStep) (P : State V → Prop)
    (p : Task V (StepResult V)) (s : State V) : Prop :=
  p.Spec (recordLogic j)
    (fun result s' => (Told s' ∧ P s') ∧ Fate e.owner step.id s'.history (.returned result))
    (fun exc s' => (Told s' ∧ P s') ∧ Fate e.owner step.id s'.history (.raised exc)) s

theorem Open.fate (h : Open j e step P s) {exc : Exc} (hexc : FailureOk step.id exc) :
    Fate (V := V) e.owner step.id s.history (.raised exc) :=
  ⟨hexc, h.skipped, fun _ => h.concluded⟩

theorem Acts.fate (h : Acts j e step P s) {exc : Exc} (hexc : FailureOk step.id exc)
    (hne : exc ≠ .executionCancelled) :
    Fate (V := V) e.owner step.id s.history (.raised exc) :=
  ⟨hexc, h.skipped, fun heq => absurd heq hne⟩

theorem exhausted_ne (attempts : Nat) (error : ErrorCode) :
    exhausted step attempts error ≠ .executionCancelled := by
  cases error <;> simp [exhausted]

/-- Only the attempt that is not tried again concludes the step. -/
theorem runAttempts_fate (hP : Stays j (MarkOf e.owner step.id) P) (ht : Told s)
    (h : Open j e step P s) (inputs : V) (attempts : Nat) (error : ErrorCode) (remaining : Nat)
    (hattempts : attempts + remaining = step.maxAttempts) :
    FateSpec j e step P (runAttempts j site e step inputs attempts error remaining) s := by
  have hquiet : Stays j Unmarked (Open j e step P) := (stays_open hP).mono fun _ hn => Or.inl hn
  have hescaped : ∀ exc s', Told s' → Open j e step P s' → exc.isStepFailed = false →
      (Told s' ∧ P s') ∧ Fate e.owner step.id s'.history (.raised exc) :=
    fun exc s' ht' h' hexc => ⟨⟨ht', h'.frame⟩, h'.fate (failureOk_of_foreign hexc step.id)⟩
  have hended : ∀ exc s', (Told s' ∧ Acts j e step P s') ∧ exc.isStepFailed = false ∧
      exc ≠ .executionCancelled →
      (Told s' ∧ P s') ∧ Fate e.owner step.id s'.history (.raised exc) :=
    fun exc s' h' => ⟨⟨h'.1.1, h'.1.2.frame⟩,
      h'.1.2.fate (failureOk_of_foreign h'.2.1 step.id) h'.2.2⟩
  induction remaining generalizing attempts error s with
  | zero => exact ⟨⟨ht, h.frame⟩, h.fate (failureOk_exhausted step attempts error)⟩
  | succ remaining ih =>
    refine (checkpoint_steady hquiet site e.owner).spec_bind ht h ?_ hescaped
    intro _ s1 ht1 h1
    refine (emit_steady hquiet site e rfl).spec_bind ht1 h1 ?_ hescaped
    intro _ s2 ht2 h2
    refine spec_bind.mpr (spec_observe.mpr
      ((runAttempt_open hP (attempts + 1) inputs s2 ht2 h2).mono ?_ ?_))
    · rintro output s3 ⟨ht3, h3⟩
      refine spec_bind.mpr ((emit_marked hP rfl (by simp) h3.toActs).mono ?_ hended)
      rintro _ s4 ⟨ht4, h4⟩
      refine ⟨⟨ht4, h4.frame⟩, rfl, fun hskipped => ?_⟩
      rw [h4.skipped] at hskipped
      cases hskipped
    · rintro exc s3 ⟨ht3, h3⟩
      dsimp only
      cases herror : lastError exc with
      | none => exact ⟨⟨ht3, h3.frame⟩, h3.fate (failureOk_of_lastError herror step.id)⟩
      | some error' =>
        by_cases hretrying : attempts + 1 < step.maxAttempts
        · simp only [hretrying, decide_true]
          refine (emit_steady hquiet site e rfl).spec_bind ht3 h3 ?_ hescaped
          intro _ s4 ht4 h4
          refine (delayRetry_steady hquiet site step true).spec_bind ht4 h4 ?_ hescaped
          intro _ s5 ht5 h5
          exact ih ht5 h5 (attempts + 1) error' (by omega)
        · -- The last attempt: what follows is the exception.
          obtain rfl : remaining = 0 := by omega
          simp only [hretrying, decide_false]
          refine spec_bind.mpr ((emit_marked hP rfl (by simp) h3.toActs).mono ?_ hended)
          rintro _ s4 ⟨ht4, h4⟩
          exact ⟨⟨ht4, h4.frame⟩, h4.fate (failureOk_exhausted step _ error')
            (exhausted_ne _ error')⟩

theorem skip_fate (hP : Stays j (MarkOf e.owner step.id) P) (h : Open j e step P s) :
    ((emit j site e (.stepSkipped step.id step.actionId) : Task V Unit).bind fun _ =>
      .ret (skippedRecord step, none)).Spec (recordLogic j)
      (fun result s' => (Told s' ∧ P s') ∧ Fate e.owner step.id s'.history (.returned result))
      (fun exc s' => (Told s' ∧ P s') ∧ Fate e.owner step.id s'.history (.raised exc)) s := by
  have hopen := stays_open hP
  refine spec_bind.mpr (spec_bind.mpr fun s1 ht1 hr1 appended ha1 => ?_)
  have h1 := hopen.minds hr1 h
  cases appended with
  | raised exc => exact absurd ha1.2.2 (by simp [Event.isSkip])
  | returned =>
    have hn : Note.mark? (.published j e.owner ⟨e.definition.capabilityId, e.id, e.definition.id,
        .stepSkipped step.id step.actionId⟩ : Note V) = some (e.owner, step.id, .skipped) := rfl
    obtain ⟨hmarks, htold⟩ := note_marked (Or.inr ⟨_, hn⟩) h1.permit ht1
    refine ⟨hmarks, htold, fun s2 ht2 hr2 notified ha2 => ?_⟩
    cases notified with
    | raised exc => exact absurd ha2.2.2 (by simp [Event.isSkip])
    | returned =>
      exact ⟨⟨ht2, hP.minds hr2 (hP.note (Or.inr ⟨_, hn⟩) h1.frame)⟩, rfl, fun _ => rfl⟩

theorem runStep_fate (hP : Stays j (MarkOf e.owner step.id) P) (ht : Told s)
    (h : Open j e step P s) (state : Outputs V) :
    FateSpec j e step P (runStep j site e step state) s := by
  have hquiet : Stays j Unmarked (Open j e step P) := (stays_open hP).mono fun _ hn => Or.inl hn
  have hescaped : ∀ exc s', Told s' → Open j e step P s' → FailureOk step.id exc →
      (Told s' ∧ P s') ∧ Fate e.owner step.id s'.history (.raised exc) :=
    fun exc s' ht' h' hexc => ⟨⟨ht', h'.frame⟩, h'.fate hexc⟩
  have hcaught : ∀ exc code, FailureOk step.id
      (if exc.caught then .stepFailed (failedRecord step 0 code) else exc) := by
    intro exc code
    cases exc with
    | cancelledError => trivial
    | _ => exact ⟨rfl, rfl⟩
  have hshould : (shouldRun site step state).Spec (recordLogic j)
      (fun _ s' => Told s' ∧ Open j e step P s')
      (fun exc s' => (Told s' ∧ P s') ∧ Fate e.owner step.id s'.history (.raised exc)) s := by
    unfold shouldRun
    split
    · refine spec_bind.mpr fun s' ht' hr answer ha => ?_
      have h' := hquiet.minds hr h
      cases answer with
      | raised exc => exact hescaped _ s' ht' h' (hcaught exc _)
      | returned value =>
        cases value with
        | returned b => exact ⟨ht', h'⟩
        | raised exc => exact hescaped exc s' ht' h' (failureOk_of_foreign ha.1 step.id)
    · exact ⟨ht, h⟩
  refine spec_bind.mpr (hshould.mono ?_ fun _ _ hs => hs)
  rintro run s1 ⟨ht1, h1⟩
  cases run with
  | false => exact skip_fate hP h1
  | true =>
    refine spec_bind.mpr (spec_bind.mpr fun s2 ht2 hr2 answer _ => ?_)
    have h2 := hquiet.minds hr2 h1
    cases answer with
    | raised exc => exact hescaped _ s2 ht2 h2 (hcaught exc _)
    | returned inputs => exact runAttempts_fate hP ht2 h2 inputs 0 _ _ (by omega)

end Step

end Ares.Workflows
