import Ares.Coop.Journal
import Ares.Workflows.Engine

/-! What the tasks of the engine promise each other, and what one step of a workflow leaves: a
result with the output that its action returned last, or a failed record. -/

namespace Ares.Workflows

open Coop

variable {V : Type}

def Note.task : Note V → Nat
  | .received t _ | .opened t _ | .published t _ _ | .forked t | .entered t _ _ | .left t _ _
  | .attempted t _ _ _ | .acted t _ _ _ | .compensated t _ _ | .controlled t _ _
  | .settled t _ _ _ => t

instance : Tasked (Note V) := ⟨Note.task⟩

/-- The output that the action of a step returned last. -/
def finalOutput (owner : Nat) (stepId : String) : List (Note V) → Option V
  | [] => none
  | .acted _ o i output :: past =>
      if o = owner ∧ i = stepId then some output else finalOutput owner stepId past
  | _ :: past => finalOutput owner stepId past

def Event.isTerminal : Event → Bool
  | .terminal _ _ => true
  | _ => false

/-- The notes of the beginning and of the end of an execution: the request, a compensation, the
terminal event, the return. -/
def Note.milestone : Note V → Bool
  | .published _ _ event => event.event.isTerminal
  | .received _ _ | .compensated _ _ _ | .settled _ _ _ _ => true
  | _ => false

def Note.quiet : Note V → Bool
  | .acted _ _ _ _ => false
  | n => !n.milestone

/-- The note is neither the output of an action nor the first one of a task, nor a terminal event of
an execution that is not the task's own. -/
def Note.plain : Note V → Bool
  | .acted _ _ _ _ | .received _ _ => false
  | .published task owner event => !event.event.isTerminal || task == owner
  | _ => true

theorem finalOutput_cons {n : Note V} (h : n.plain = true) (owner : Nat) (stepId : String)
    (past : List (Note V)) :
    finalOutput owner stepId (n :: past) = finalOutput owner stepId past := by
  cases n with
  | acted => cases h
  | _ => rfl

theorem plain_of_quiet {n : Note V} (h : n.quiet = true) : n.plain = true := by
  cases n with
  | acted => cases h
  | received => cases h
  | published =>
    simp only [Note.quiet, Note.milestone] at h
    simp [Note.plain, h]
  | _ => rfl

/-! ### Rely and guarantee -/

/-- The step may act in the task: it belongs to the task's own execution and has no branch, or the
task is its branch. -/
def Permit (task owner : Nat) (stepId : String) (s : State V) : Prop :=
  owner = task ∧ s.branches owner stepId = none ∨
    s.branches owner stepId = some (.running task)

/-- What the task `j` may find changed after it waited. -/
structure Rely (j : Nat) (s s' : State V) : Prop where
  kept : Kept State.history j s s'
  absent : ∀ id, s.branches j id = none → s'.branches j id = none
  done : ∀ owner id outcome, s.branches owner id = some (.done outcome) →
    s'.branches owner id = some (.done outcome)
  running : ∀ owner id, s'.branches owner id = some (.running j) ↔
    s.branches owner id = some (.running j)
  permitted : ∀ owner id, Permit j owner id s →
    finalOutput owner id s'.history = finalOutput owner id s.history
  final : ∀ id outcome, s.branches j id = some (.done outcome) →
    finalOutput j id s'.history = finalOutput j id s.history

/-- What a write of the task `j` changes: one note, the output of a step that may act, and branches
that it creates, enters or leaves. -/
structure Guar (j : Nat) (s s' : State V) : Prop where
  noted : Noted State.history j s s'
  outputs : ∀ owner id, finalOutput owner id s'.history = finalOutput owner id s.history ∨
    Permit j owner id s
  branches : ∀ owner id, s'.branches owner id = s.branches owner id ∨
    (owner = j ∧ s.branches owner id = none ∧ Branch.created? (s'.branches owner id) = true) ∨
    (Branch.created? (s.branches owner id) = true ∧
      s'.branches owner id = some (.running j)) ∨
    (s.branches owner id = some (.running j) ∧ ∃ outcome,
      s'.branches owner id = some (.done outcome))
  wakes : ∀ owner, s.wakes owner ≤ s'.wakes owner

theorem Rely.refl (j : Nat) (s : State V) : Rely j s s :=
  ⟨Kept.refl j s, fun _ h => h, fun _ _ _ h => h, fun _ _ => Iff.rfl, fun _ _ _ => rfl,
    fun _ _ _ => rfl⟩

theorem Permit.rely {j owner : Nat} {id : String} {s s' : State V} (h : Permit j owner id s)
    (hr : Rely j s s') : Permit j owner id s' := by
  rcases h with ⟨rfl, habsent⟩ | hrunning
  · exact Or.inl ⟨rfl, hr.absent id habsent⟩
  · exact Or.inr ((hr.running owner id).mpr hrunning)

theorem Rely.trans {j : Nat} {a b c : State V} (hab : Rely j a b) (hbc : Rely j b c) :
    Rely j a c where
  kept := hab.kept.trans hbc.kept
  absent id h := hbc.absent id (hab.absent id h)
  done owner id outcome h := hbc.done owner id outcome (hab.done owner id outcome h)
  running owner id := (hbc.running owner id).trans (hab.running owner id)
  permitted owner id h :=
    (hbc.permitted owner id (h.rely hab)).trans (hab.permitted owner id h)
  final id outcome h :=
    (hbc.final id outcome (hab.done j id outcome h)).trans (hab.final id outcome h)

theorem Branch.created?_iff {b : Option (Branch V)} :
    Branch.created? b = true ↔ ∃ e step snapshot, b = some (.created e step snapshot) := by
  cases b with
  | none => simp [Branch.created?]
  | some b => cases b <;> simp [Branch.created?]

/-- No write of another task touches what a task relies on. -/
theorem Guar.rely {j k : Nat} {s s' : State V} (hne : j ≠ k) (hg : Guar j s s') : Rely k s s' := by
  have hapart : ∀ owner id, Permit k owner id s → ¬Permit j owner id s := by
    rintro owner id (⟨rfl, hk⟩ | hk) (⟨rfl, hj⟩ | hj)
    · exact hne rfl
    · rw [hk] at hj
      cases hj
    · rw [hk] at hj
      cases hj
    · rw [hk] at hj
      exact hne (Branch.running.inj (Option.some.inj hj)).symm
  refine ⟨hg.noted.kept hne, ?_, ?_, ?_, ?_, ?_⟩
  · intro id habsent
    rcases hg.branches k id with h | ⟨h, -⟩ | ⟨h, -⟩ | ⟨h, -⟩
    · rw [h, habsent]
    · exact absurd h.symm hne
    · rw [habsent] at h
      cases h
    · rw [habsent] at h
      cases h
  · intro owner id outcome hdone
    rcases hg.branches owner id with h | ⟨-, h, -⟩ | ⟨h, -⟩ | ⟨h, -⟩
    · rw [h, hdone]
    · rw [hdone] at h
      cases h
    · rw [hdone] at h
      cases h
    · rw [hdone] at h
      cases h
  · intro owner id
    rcases hg.branches owner id with h | ⟨-, habsent, h⟩ | ⟨hcreated, h⟩ | ⟨hrunning, outcome, h⟩
    · rw [h]
    · obtain ⟨e, step, snapshot, h⟩ := Branch.created?_iff.mp h
      simp [h, habsent]
    · obtain ⟨e, step, snapshot, hcreated⟩ := Branch.created?_iff.mp hcreated
      simp [h, hcreated, hne]
    · simp [h, hrunning, hne]
  · intro owner id hpermit
    rcases hg.outputs owner id with h | h
    · exact h
    · exact absurd h (hapart owner id hpermit)
  · intro id outcome hdone
    rcases hg.outputs k id with h | ⟨h, -⟩ | h
    · exact h
    · exact absurd h.symm hne
    · rw [hdone] at h
      cases h

/-! ### The invariant -/

/-- A result is that of a step which succeeded with its last output, or which was skipped. -/
def ResultOk (owner : Nat) (stepId : String) (h : List (Note V)) (result : StepResult V) : Prop :=
  result.1.stepId = stepId ∧
    match result.2 with
    | some output => result.1.status = .succeeded ∧ finalOutput owner stepId h = some output
    | none => result.1.status = .skipped

def FailureOk (stepId : String) : Exc → Prop
  | .stepFailed record => record.stepId = stepId ∧ record.status = .failed
  | _ => True

def OutcomeOk (owner : Nat) (stepId : String) (h : List (Note V)) :
    Called (StepResult V) → Prop
  | .returned result => ResultOk owner stepId h result
  | .raised exc => FailureOk stepId exc

def Received : Note V → List (Note V) → Prop
  | .received task _, past => own task past = []
  | .published task owner event, _ => event.event.isTerminal = true → task = owner
  | _, _ => True

structure Inv (s : State V) : Prop where
  retained : s.executions.length ≤ maxRetainedExecutions
  created : ∀ owner id e step snapshot, s.branches owner id = some (.created e step snapshot) →
    e.owner = owner ∧ step.id = id ∧ step ∈ e.definition.steps ∧
      ∃ executionId uuid, .received owner (.execute e.definition executionId uuid) ∈ s.history
  running : ∀ owner id task, s.branches owner id = some (.running task) →
    .received task (.branch owner id) ∈ s.history
  received : Always Received s.history
  done : ∀ owner id outcome, s.branches owner id = some (.done outcome) →
    OutcomeOk owner id s.history outcome

theorem OutcomeOk.congr {owner : Nat} {id : String} {h h' : List (Note V)}
    (heq : finalOutput owner id h' = finalOutput owner id h) {outcome : Called (StepResult V)}
    (hok : OutcomeOk owner id h outcome) : OutcomeOk owner id h' outcome := by
  cases outcome with
  | raised exc => exact hok
  | returned result =>
    obtain ⟨record, output⟩ := result
    cases output with
    | none => exact hok
    | some output => exact ⟨hok.1, hok.2.1, heq.trans hok.2.2⟩

theorem note_guar {j : Nat} {n : Note V} {s : State V} (ht : n.task = j) (h : n.plain = true) :
    Guar j s (s.note n) :=
  ⟨⟨n, ht, rfl⟩, fun owner id => Or.inl (finalOutput_cons h owner id s.history),
    fun _ _ => Or.inl rfl, fun _ => Nat.le_refl _⟩

theorem received_of_plain {n : Note V} (h : n.plain = true) (past : List (Note V)) :
    Received n past := by
  cases n with
  | received => cases h
  | published =>
    intro hterminal
    simpa [Note.plain, hterminal] using h
  | _ => trivial

theorem Inv.grow {s s' : State V} {n : Note V} (hi : Inv s) (hhistory : s'.history = n :: s.history)
    (hbranches : s'.branches = s.branches)
    (hretained : s'.executions.length ≤ maxRetainedExecutions) (hreceived : Received n s.history)
    (hfinal : ∀ owner id outcome, s.branches owner id = some (.done outcome) →
      finalOutput owner id s'.history = finalOutput owner id s.history) : Inv s' := by
  have hmem : ∀ {m : Note V}, m ∈ s.history → m ∈ s'.history := by
    intro m hm
    rw [hhistory]
    exact List.mem_cons_of_mem _ hm
  refine ⟨hretained, ?_, ?_, ?_, ?_⟩
  · rw [hbranches]
    intro owner id e step snapshot hb
    obtain ⟨howner, hid, hstep, executionId, uuid, hknown⟩ :=
      hi.created owner id e step snapshot hb
    exact ⟨howner, hid, hstep, executionId, uuid, hmem hknown⟩
  · rw [hbranches]
    exact fun owner id task hb => hmem (hi.running owner id task hb)
  · rw [hhistory]
    exact ⟨hreceived, hi.received⟩
  · rw [hbranches]
    exact fun owner id outcome hb =>
      (hi.done owner id outcome hb).congr (hfinal owner id outcome hb)

theorem Inv.note {n : Note V} {s : State V} (hi : Inv s) (h : n.plain = true) : Inv (s.note n) :=
  hi.grow rfl rfl hi.retained (received_of_plain h _) fun owner id _ _ =>
    finalOutput_cons h owner id s.history

theorem finalOutput_acted (task owner : Nat) (id : String) (output : V) (past : List (Note V)) :
    finalOutput owner id (.acted task owner id output :: past) = some output := if_pos ⟨rfl, rfl⟩

theorem finalOutput_acted_ne {owner owner' : Nat} {id id' : String} (task : Nat) (output : V)
    (past : List (Note V)) (h : ¬(owner = owner' ∧ id = id')) :
    finalOutput owner' id' (.acted task owner id output :: past) =
      finalOutput owner' id' past := if_neg h

theorem acted_guar {j owner : Nat} {id : String} {output : V} {s : State V}
    (hp : Permit j owner id s) : Guar j s (s.note (.acted j owner id output)) := by
  refine ⟨⟨_, rfl, rfl⟩, fun owner' id' => ?_, fun _ _ => Or.inl rfl, fun _ => Nat.le_refl _⟩
  by_cases h : owner = owner' ∧ id = id'
  · obtain ⟨rfl, rfl⟩ := h
    exact Or.inr hp
  · exact Or.inl (finalOutput_acted_ne j output s.history h)

theorem Inv.acted {j owner : Nat} {id : String} {output : V} {s : State V} (hi : Inv s)
    (hp : Permit j owner id s) : Inv (s.note (.acted j owner id output)) := by
  refine hi.grow rfl rfl hi.retained trivial fun owner' id' outcome hdone => ?_
  have hne : ¬(owner = owner' ∧ id = id') := by
    rintro ⟨rfl, rfl⟩
    rcases hp with ⟨-, h⟩ | h
    · rw [h] at hdone
      cases hdone
    · rw [h] at hdone
      cases hdone
  exact finalOutput_acted_ne j output s.history hne

/-- The logic of the task `j`. -/
def logic (j : Nat) : Logic (State V) (Res (V := V)) := ⟨Inv, Rely j, Guar j, Answers⟩

/-- An assertion that stays true when the other tasks go on, and when the task `j` makes a note of
the kind `K`. -/
structure Framed (j : Nat) (K : Note V → Prop) (P : State V → Prop) : Prop where
  rely : ∀ {s s'}, Rely j s s' → P s → P s'
  note : ∀ {s n}, n.task = j → K n → P s → P (s.note n)

/-- The notes of a step before its action has returned, and of its postchecks. -/
def Quiet (n : Note V) : Prop := n.quiet = true

def StepNote (owner : Nat) (id : String) (n : Note V) : Prop :=
  n.quiet = true ∨ ∃ task output, n = .acted task owner id output

theorem Framed.mono {j : Nat} {K K' : Note V → Prop} {P : State V → Prop} (hP : Framed j K P)
    (h : ∀ n, K' n → K n) : Framed j K' P :=
  ⟨hP.rely, fun ht hk hs => hP.note ht (h _ hk) hs⟩

theorem Framed.and {j : Nat} {K : Note V → Prop} {P Q : State V → Prop} (hP : Framed j K P)
    (hQ : Framed j K Q) : Framed j K fun s => P s ∧ Q s :=
  ⟨fun hr h => ⟨hP.rely hr h.1, hQ.rely hr h.2⟩,
    fun ht hk h => ⟨hP.note ht hk h.1, hQ.note ht hk h.2⟩⟩

theorem framed_permit (j owner : Nat) (id : String) (K : Note V → Prop) :
    Framed j K (Permit j owner id) :=
  ⟨fun hr h => h.rely hr, fun _ _ h => h⟩

theorem framed_output (j owner : Nat) (id : String) (output : V) :
    Framed j (Quiet (V := V))
      fun s => Permit j owner id s ∧ finalOutput owner id s.history = some output := by
  refine ⟨?_, ?_⟩
  · rintro s s' hr ⟨hp, ho⟩
    exact ⟨hp.rely hr, (hr.permitted owner id hp).trans ho⟩
  · rintro s n - hk ⟨hp, ho⟩
    exact ⟨hp, (finalOutput_cons (plain_of_quiet hk) owner id s.history).trans ho⟩

/-! ### What the code of a step keeps -/

/-- `p` holds on to `P` until its end, and does not end with `_StepFailed`. -/
def Calls {α : Type} (j : Nat) (P : State V → Prop) (p : Task V α) : Prop :=
  ∀ s, Inv s → P s → p.Spec (logic j) (fun _ s' => Inv s' ∧ P s')
    (fun e s' => (Inv s' ∧ P s') ∧ e.isStepFailed = false) s

section Keeps

variable {j : Nat} {K : Note V → Prop} {P : State V → Prop} {α β : Type}

theorem Calls.keeps {p : Task V α} (hp : Calls j P p) : p.Keeps (logic j) P :=
  fun s hi h => (hp s hi h).mono (fun _ _ hs => hs) fun _ _ hs => hs.1

theorem Calls.bind {p : Task V α} {f : α → Task V β} (hp : Calls j P p)
    (hf : ∀ a, Calls j P (f a)) : Calls j P (p.bind f) :=
  fun s hi h => spec_bind.mpr ((hp s hi h).mono (fun a s' hs' => hf a s' hs'.1 hs'.2)
    fun _ _ hs' => hs')

theorem Calls.spec_bind {p : Task V α} {f : α → Task V β} {Q : β → State V → Prop}
    {E : Exc → State V → Prop} {s : State V} (hp : Calls j P p) (hi : Inv s) (h : P s)
    (hf : ∀ a s', Inv s' → P s' → (f a).Spec (logic j) Q E s')
    (hE : ∀ e s', Inv s' → P s' → e.isStepFailed = false → E e s') :
    (p.bind f).Spec (logic j) Q E s :=
  Proc.spec_bind.mpr ((hp s hi h).mono (fun a s' hs' => hf a s' hs'.1 hs'.2)
    fun e s' hs' => hE e s' hs'.1.1 hs'.1.2 hs'.2)

theorem keeps_ask (hP : Framed j K P) (o : Op V) : (ask o).Keeps (logic j) P :=
  quiet_perform.keeps fun _ _ hr h => hP.rely hr h

theorem keeps_ofCalled (c : Called α) : (ofCalled c : Task V α).Keeps (logic j) P := by
  cases c with
  | returned a => exact keeps_ret a
  | raised e => exact keeps_raise e

theorem keeps_require (c : Bool) (e : Exc) :
    (require c e : Task V Unit).Keeps (logic j) P := by
  cases c with
  | true => exact keeps_ret ()
  | false => exact keeps_raise e

theorem calls_reading (f : State V → α) : Calls j P (reading f) :=
  fun _ hi h => ⟨hi, h⟩

theorem calls_require (c : Bool) {e : Exc} (he : e.isStepFailed = false) :
    Calls j P (require c e : Task V Unit) := by
  intro s hi h
  cases c with
  | true => exact ⟨hi, h⟩
  | false => exact ⟨⟨hi, h⟩, he⟩

theorem calls_ask (hP : Framed j K P) {o : Op V} {f : Res o → Task V α}
    (hf : ∀ s r, Answers s o r → Inv s → P s → (f r).Spec (logic j) (fun _ s' => Inv s' ∧ P s')
      (fun e s' => (Inv s' ∧ P s') ∧ e.isStepFailed = false) s) : Calls j P ((ask o).bind f) :=
  fun _ _ h => spec_bind.mpr fun s' hi hr r ha => hf s' r ha hi (hP.rely hr h)

theorem calls_note (hP : Framed j K P) {n : Note V} (ht : n.task = j) (hk : K n)
    (hn : n.plain = true) :
    Calls j P (Proc.modify (State.note n) : Task V Unit) :=
  fun _ hi h => ⟨note_guar ht hn, hi.note hn, hi.note hn, hP.note ht hk h⟩

theorem emit_calls (hP : Framed j K P) (site : Site) (e : Execution) {event : Event}
    (hk : ∀ published : AresEvent, published.event = event → K (.published j e.owner published))
    (hn : ∀ published : AresEvent, published.event = event →
      (Note.published j e.owner published : Note V).plain = true) :
    Calls j P (emit j site e event : Task V Unit) := by
  have hnotify : ∀ published : AresEvent, Calls j P ((ask (.notify site published)).bind
      fun notified => (ofCalled notified : Task V Unit)) := by
    refine fun published => calls_ask hP fun s r ha hi hs => ?_
    cases r with
    | returned => exact ⟨hi, hs⟩
    | raised exc => exact ⟨⟨hi, hs⟩, ha⟩
  refine calls_ask hP fun s r ha hi hs => ?_
  cases r with
  | raised exc => exact ⟨⟨hi, hs⟩, ha⟩
  | returned =>
    exact ((calls_note hP rfl (hk _ rfl) (hn _ rfl)).bind fun _ => hnotify _) s hi hs

theorem emit_quiet (hP : Framed j Quiet P) (site : Site) (e : Execution) {event : Event}
    (h : event.isTerminal = false) : Calls j P (emit j site e event : Task V Unit) := by
  have hquiet : ∀ published : AresEvent, published.event = event →
      (Note.published j e.owner published : Note V).quiet = true := by
    rintro published rfl
    simp [Note.quiet, Note.milestone, h]
  exact emit_calls hP site e hquiet fun published heq => plain_of_quiet (hquiet published heq)

theorem checkpoint_calls (hP : Framed j K P) (site : Site) (owner : Nat) :
    Calls j P (checkpoint site owner : Task V Unit) := by
  refine (calls_reading _).bind fun opened => (calls_reading _).bind fun wakes => ?_
  refine calls_ask hP fun s r ha hi hs => ?_
  cases r with
  | raised exc => exact ⟨⟨hi, hs⟩, ha⟩
  | returned =>
    exact ((calls_reading _).bind fun cancelled => calls_require _ rfl) s hi hs

theorem delayRetry_calls (hP : Framed j K P) (site : Site) (step : WorkflowStep)
    (retrying : Bool) : Calls j P (delayRetry site step retrying : Task V Unit) := by
  unfold delayRetry
  split
  · refine calls_ask hP fun s r ha hi hs => ?_
    cases r with
    | returned => exact ⟨hi, hs⟩
    | raised exc => exact ⟨⟨hi, hs⟩, ha⟩
  · exact fun s hi hs => ⟨hi, hs⟩

theorem runPostchecks_keeps (hP : Framed j Quiet P) (site : Site) (e : Execution)
    (step : WorkflowStep) (attempt : Nat) (output : V) (index remaining : Nat) :
    (runPostchecks j site e step attempt output index remaining).Keeps (logic j) P := by
  induction remaining generalizing index with
  | zero => exact keeps_ret ()
  | succ remaining ih =>
    refine (keeps_ask hP _).bind fun answer => (keeps_ofCalled answer).bind fun passed => ?_
    refine (keeps_require _ _).bind fun _ => (emit_quiet hP site e rfl).keeps.bind fun _ => ?_
    exact ih (index + 1)

end Keeps

/-! ### One step -/

section Step

variable {j : Nat} {P : State V → Prop} {site : Site} {e : Execution} {step : WorkflowStep}
  {s : State V}

/-- What holds on to its end while a step acts in the task `j`. -/
structure Acting (j : Nat) (e : Execution) (step : WorkflowStep) (P : State V → Prop)
    (s : State V) : Prop where
  inv : Inv s
  permit : Permit j e.owner step.id s
  frame : P s

theorem runAction_spec (hP : Framed j (StepNote e.owner step.id) P)
    (h : Acting j e step P s) (attempt : Nat) (inputs : V) :
    (runAction j site e step attempt inputs).Spec (logic j)
      (fun output s' => Acting j e step P s' ∧ finalOutput e.owner step.id s'.history = some output)
      (fun _ s' => Acting j e step P s') s := by
  refine spec_bind.mpr (spec_modify.mpr ⟨note_guar rfl rfl, h.inv.note rfl, ?_⟩)
  have hframe := hP.note (n := .attempted j e.owner step.id attempt) rfl (Or.inl rfl) h.frame
  refine spec_bind.mpr fun s' hi hr ended _ => ?_
  have hpermit : Permit j e.owner step.id s' := Permit.rely (s := s.note _) h.permit hr
  have hacting : Acting j e step P s' := ⟨hi, hpermit, hP.rely hr hframe⟩
  cases ended with
  | timedOut => exact hacting
  | interrupted => exact hacting
  | stopped => exact hacting
  | finished outcome =>
    cases outcome with
    | raised exc => exact hacting
    | returned output =>
      refine ⟨acted_guar hpermit, hi.acted hpermit, ⟨hi.acted hpermit, hpermit, ?_⟩, ?_⟩
      · exact hP.note rfl (Or.inr ⟨j, output, rfl⟩) hacting.frame
      · exact finalOutput_acted j e.owner step.id output s'.history

theorem Acting.framed (hP : Framed j (StepNote e.owner step.id) P) :
    Framed j Quiet fun s => Permit j e.owner step.id s ∧ P s :=
  (framed_permit j e.owner step.id _).and (hP.mono fun _ hk => Or.inl hk)

theorem runAttempt_spec (hP : Framed j (StepNote e.owner step.id) P)
    (h : Acting j e step P s) (attempt : Nat) (inputs : V) :
    (runAttempt j site e step attempt inputs).Spec (logic j)
      (fun output s' => Acting j e step P s' ∧ finalOutput e.owner step.id s'.history = some output)
      (fun _ s' => Acting j e step P s') s := by
  refine spec_bind.mpr ((runAction_spec hP h attempt inputs).mono ?_ fun _ _ he => he)
  rintro output s' ⟨hacting, hfinal⟩
  have hframed := (framed_output j e.owner step.id output).and
    (hP.mono fun _ hk => Or.inl hk)
  refine (runPostchecks_keeps hframed site e step attempt output 0 step.postchecks).spec_bind
    hacting.inv ⟨⟨hacting.permit, hfinal⟩, hacting.frame⟩ ?_ ?_
  · rintro - s'' hi ⟨⟨hpermit, hfinal'⟩, hframe⟩
    exact ⟨⟨hi, hpermit, hframe⟩, hfinal'⟩
  · rintro - s'' hi ⟨⟨hpermit, -⟩, hframe⟩
    exact ⟨hi, hpermit, hframe⟩

theorem failureOk_exhausted (step : WorkflowStep) (attempts : Nat) (error : ErrorCode) :
    FailureOk step.id (exhausted step attempts error) := by
  cases error with
  | text code => exact ⟨rfl, rfl⟩
  | other => trivial

theorem failureOk_of_lastError {exc : Exc} (h : lastError exc = none) (id : String) :
    FailureOk id exc := by
  cases exc with
  | stepFailed record => cases h
  | _ => trivial

theorem failureOk_of_foreign {exc : Exc} (h : exc.isStepFailed = false) (id : String) :
    FailureOk id exc := by
  cases exc with
  | stepFailed record => cases h
  | _ => trivial

/-- The end of a step: its result or its exception, with everything else as it was. -/
abbrev StepSpec (j : Nat) (e : Execution) (step : WorkflowStep) (P : State V → Prop)
    (p : Task V (StepResult V)) (s : State V) : Prop :=
  p.Spec (logic j)
    (fun result s' => Acting j e step P s' ∧ ResultOk e.owner step.id s'.history result)
    (fun exc s' => Acting j e step P s' ∧ FailureOk step.id exc) s

theorem Acting.of_keeps {Q : State V → Prop} (hi : Inv s) (h : Permit j e.owner step.id s ∧ Q s) :
    Acting j e step Q s := ⟨hi, h.1, h.2⟩

theorem runAttempts_spec (hP : Framed j (StepNote e.owner step.id) P)
    (h : Acting j e step P s) (inputs : V) (attempts : Nat) (error : ErrorCode)
    (remaining : Nat) :
    StepSpec j e step P (runAttempts j site e step inputs attempts error remaining) s := by
  have hframed := Acting.framed hP
  have hescaped : ∀ exc s', Inv s' → Permit j e.owner step.id s' ∧ P s' →
      exc.isStepFailed = false → Acting j e step P s' ∧ FailureOk step.id exc :=
    fun exc s' hi hs hexc => ⟨.of_keeps hi hs, failureOk_of_foreign hexc step.id⟩
  induction remaining generalizing attempts error s with
  | zero => exact ⟨h, failureOk_exhausted step attempts error⟩
  | succ remaining ih =>
    refine (checkpoint_calls hframed site e.owner).spec_bind h.inv ⟨h.permit, h.frame⟩ ?_ hescaped
    intro _ s1 hi1 h1
    refine (emit_quiet hframed site e rfl).spec_bind hi1 h1 ?_ hescaped
    intro _ s2 hi2 h2
    refine spec_bind.mpr (spec_observe.mpr
      ((runAttempt_spec hP (.of_keeps hi2 h2) (attempts + 1) inputs).mono ?_ ?_))
    · -- The attempt returned.
      rintro output s3 ⟨hacting, hfinal⟩
      have hkept := (framed_output j e.owner step.id output).and (hP.mono fun _ hk => Or.inl hk)
      refine (emit_quiet hkept site e rfl).spec_bind hacting.inv
        ⟨⟨hacting.permit, hfinal⟩, hacting.frame⟩ ?_ ?_
      · rintro _ s4 hi4 ⟨⟨hpermit, hfinal'⟩, hframe⟩
        exact ⟨⟨hi4, hpermit, hframe⟩, rfl, rfl, hfinal'⟩
      · rintro exc s4 hi4 ⟨⟨hpermit, -⟩, hframe⟩ hexc
        exact hescaped exc s4 hi4 ⟨hpermit, hframe⟩ hexc
    · -- The attempt raised.
      intro exc s3 hacting
      dsimp only
      cases herror : lastError exc with
      | none => exact ⟨hacting, failureOk_of_lastError herror step.id⟩
      | some error' =>
        refine (emit_quiet hframed site e rfl).spec_bind hacting.inv
          ⟨hacting.permit, hacting.frame⟩ ?_ hescaped
        intro _ s4 hi4 h4
        refine (delayRetry_calls hframed site step _).spec_bind hi4 h4 ?_ hescaped
        intro _ s5 hi5 h5
        exact ih (.of_keeps hi5 h5) (attempts + 1) error'

/-- A step leaves a result with its last output, or an exception; everything else is framed. -/
theorem runStep_spec (hP : Framed j (StepNote e.owner step.id) P) (h : Acting j e step P s)
    (state : Outputs V) : StepSpec j e step P (runStep j site e step state) s := by
  have hframed := Acting.framed hP
  have hescaped : ∀ exc s', Inv s' → Permit j e.owner step.id s' ∧ P s' →
      FailureOk step.id exc → Acting j e step P s' ∧ FailureOk step.id exc :=
    fun exc s' hi hs hexc => ⟨.of_keeps hi hs, hexc⟩
  have hcaught : ∀ exc code, FailureOk step.id
      (if exc.caught then .stepFailed (failedRecord step 0 code) else exc) := by
    intro exc code
    cases exc with
    | cancelledError => trivial
    | _ => exact ⟨rfl, rfl⟩
  have hshould : (shouldRun site step state).Spec (logic j)
      (fun _ s' => Acting j e step P s')
      (fun exc s' => Acting j e step P s' ∧ FailureOk step.id exc) s := by
    unfold shouldRun
    split
    · refine spec_bind.mpr fun s' hi hr answer ha => ?_
      have hs' := hframed.rely hr ⟨h.permit, h.frame⟩
      cases answer with
      | raised exc => exact hescaped _ s' hi hs' (hcaught exc _)
      | returned value =>
        cases value with
        | returned b => exact .of_keeps hi hs'
        | raised exc => exact hescaped exc s' hi hs' (failureOk_of_foreign ha step.id)
    · exact h
  refine spec_bind.mpr (hshould.mono ?_ fun _ _ hs => hs)
  intro run s1 h1
  cases run with
  | false =>
    refine (emit_quiet hframed site e rfl).spec_bind h1.inv ⟨h1.permit, h1.frame⟩ ?_ ?_
    · rintro - s2 hi2 h2
      exact ⟨.of_keeps hi2 h2, rfl, rfl⟩
    · intro exc s2 hi2 h2 hexc
      exact hescaped exc s2 hi2 h2 (failureOk_of_foreign hexc step.id)
  | true =>
    refine spec_bind.mpr (spec_bind.mpr fun s2 hi2 hr2 answer _ => ?_)
    have hs2 := hframed.rely hr2 ⟨h1.permit, h1.frame⟩
    cases answer with
    | raised exc => exact hescaped _ s2 hi2 hs2 (hcaught exc _)
    | returned inputs => exact runAttempts_spec hP (.of_keeps hi2 hs2) inputs 0 _ _

end Step

end Ares.Workflows
