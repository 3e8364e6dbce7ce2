import Ares.Workflows.Progress

/-! The contract of the engine.  A branch leaves its outcome for the join; an `execute` that returns
has noted its compensations, then one terminal event and then its return, and nothing else of that
kind. -/

namespace Ares.Workflows

open Coop

variable {V : Type}

def trail (j : Nat) (s : State V) : List (Note V) := (own j s.history).filter Note.milestone

def Resting (branches : String → Option (Branch V)) : Prop :=
  ∀ id, branches id = none ∨ ∃ outcome, branches id = some (.done outcome)

theorem trail_note {j : Nat} {n : Note V} (ht : n.task = j) (s : State V) :
    trail j (s.note n) = if n.milestone then n :: trail j s else trail j s := by
  have hown : own j (n :: s.history) = n :: own j s.history := own_cons_self _ ht
  unfold trail
  rw [State.note, hown, List.filter_cons]

theorem trail_quiet {j : Nat} {n : Note V} (ht : n.task = j) (hn : n.milestone = false)
    (s : State V) : trail j (s.note n) = trail j s := by
  rw [trail_note ht, hn]
  rfl

theorem trail_milestone {j : Nat} {n : Note V} (ht : n.task = j) (hn : n.milestone = true)
    (s : State V) : trail j (s.note n) = n :: trail j s := by
  rw [trail_note ht, hn]
  rfl

theorem milestone_of_quiet {n : Note V} (h : n.quiet = true) : n.milestone = false := by
  cases n with
  | acted => rfl
  | _ => simpa [Note.quiet] using h

theorem Rely.trail {j : Nat} {s s' : State V} (hr : Rely j s s') : trail j s' = trail j s := by
  unfold Workflows.trail
  rw [hr.kept.2]

theorem Rely.resting {j : Nat} {s s' : State V} (hr : Rely j s s')
    (hrest : Resting (s.branches j)) : s'.branches j = s.branches j ∧
      ∀ id, finalOutput j id s'.history = finalOutput j id s.history := by
  constructor
  · funext id
    rcases hrest id with h | ⟨outcome, h⟩
    · rw [h, hr.absent id h]
    · rw [h, hr.done j id outcome h]
  · intro id
    rcases hrest id with h | ⟨outcome, h⟩
    · exact hr.permitted j id (Or.inl ⟨rfl, h⟩)
    · exact hr.final id outcome h

/-! ### Branches -/

theorem setBranch_ne {owner owner' : Nat} {id id' : String} (branch : Branch V) (n : Note V)
    (s : State V) (h : ¬(owner' = owner ∧ id' = id)) :
    (s.setBranch owner id branch n).branches owner' id' = s.branches owner' id' := if_neg h

theorem setBranch_self (owner : Nat) (id : String) (branch : Branch V) (n : Note V)
    (s : State V) : (s.setBranch owner id branch n).branches owner id = some branch :=
  if_pos ⟨rfl, rfl⟩

theorem setBranch_guar {j owner : Nat} {id : String} {branch : Branch V} {n : Note V} {s : State V}
    (ht : n.task = j) (hn : n.plain = true)
    (h : Branch.created? (s.branches owner id) = true ∧ branch = .running j ∨
      s.branches owner id = some (.running j) ∧ ∃ outcome, branch = .done outcome) :
    Guar j s (s.setBranch owner id branch n) := by
  refine ⟨⟨n, ht, rfl⟩, fun o i => Or.inl (finalOutput_cons hn o i s.history), fun o i => ?_,
    fun _ => Nat.le_refl _⟩
  by_cases hthis : o = owner ∧ i = id
  · obtain ⟨rfl, rfl⟩ := hthis
    rw [setBranch_self]
    rcases h with ⟨hcreated, rfl⟩ | ⟨hrunning, outcome, rfl⟩
    · exact Or.inr (Or.inr (Or.inl ⟨hcreated, rfl⟩))
    · exact Or.inr (Or.inr (Or.inr ⟨hrunning, outcome, rfl⟩))
  · exact Or.inl (setBranch_ne branch n s hthis)

theorem Inv.setBranch {owner : Nat} {id : String} {branch : Branch V} {n : Note V} {s : State V}
    (hi : Inv s) (hn : n.plain = true)
    (hcreated : ∀ e step snapshot, branch ≠ .created e step snapshot)
    (hrunning : ∀ task, branch = .running task → .received task (.branch owner id) ∈ s.history)
    (hdone : ∀ outcome, branch = .done outcome → OutcomeOk owner id s.history outcome) :
    Inv (s.setBranch owner id branch n) := by
  -- The other branches are those of a state with only the note added.
  have hnoted := hi.note hn
  have hcases : ∀ o i b, (s.setBranch owner id branch n).branches o i = some b →
      (o = owner ∧ i = id ∧ b = branch) ∨ (s.note n).branches o i = some b := by
    intro o i b hb
    by_cases hthis : o = owner ∧ i = id
    · obtain ⟨rfl, rfl⟩ := hthis
      rw [setBranch_self] at hb
      exact Or.inl ⟨rfl, rfl, (Option.some.inj hb).symm⟩
    · rw [setBranch_ne branch n s hthis] at hb
      exact Or.inr hb
  refine ⟨hnoted.retained, ?_, ?_, hnoted.received, ?_⟩
  · intro o i e step snapshot hb
    rcases hcases o i _ hb with ⟨-, -, heq⟩ | hold
    · exact absurd heq.symm (hcreated e step snapshot)
    · exact hnoted.created o i e step snapshot hold
  · intro o i task hb
    rcases hcases o i _ hb with ⟨rfl, rfl, heq⟩ | hold
    · exact List.mem_cons_of_mem _ (hrunning task heq.symm)
    · exact hnoted.running o i task hold
  · intro o i outcome hb
    rcases hcases o i _ hb with ⟨rfl, rfl, heq⟩ | hold
    · exact (hdone outcome heq.symm).congr (finalOutput_cons hn o i s.history)
    · exact hnoted.done o i outcome hold

/-- A branch that has been started ends with its outcome in place. -/
theorem runBranch_spec {j owner : Nat} {id : String} {s : State V} (hi : Inv s)
    (hcreated : Branch.created? (s.branches owner id) = true)
    (hreceived : .received j (.branch owner id) ∈ s.history) :
    (runBranch j owner id).Spec (logic j)
      (fun _ s' => ∃ outcome, s'.branches owner id = some (.done outcome)) (fun _ _ => False) s := by
  obtain ⟨e, step, snapshot, hfound⟩ := Branch.created?_iff.mp hcreated
  obtain ⟨rfl, rfl, -, -⟩ := hi.created owner id e step snapshot hfound
  refine spec_bind.mpr (spec_reading.mpr ?_)
  rw [hfound]
  have hinv : Inv (s.setBranch e.owner step.id (.running j) (.entered j e.owner step.id)) := by
    refine hi.setBranch rfl (by simp) ?_ (by simp)
    intro task heq
    rw [← Branch.running.inj heq]
    exact hreceived
  refine spec_bind.mpr (spec_modify.mpr
    ⟨setBranch_guar rfl rfl (Or.inl ⟨hcreated, rfl⟩), hinv, ?_⟩)
  -- The branch keeps its place while the step runs.
  have hP : Framed j (StepNote e.owner step.id)
      fun s : State V => s.branches e.owner step.id = some (.running j) :=
    ⟨fun hr h => (hr.running _ _).mpr h, fun _ _ h => h⟩
  have hrunning := setBranch_self e.owner step.id (.running j) (.entered j e.owner step.id) s
  have hend : ∀ outcome s', Acting j e step
      (fun s : State V => s.branches e.owner step.id = some (.running j)) s' →
      OutcomeOk e.owner step.id s'.history (called outcome) →
      (Proc.modify (State.setBranch e.owner step.id (.done (called outcome))
        (.left j e.owner step.id)) : Task V Unit).Spec (logic j)
        (fun _ s' => ∃ outcome, s'.branches e.owner step.id = some (.done outcome))
        (fun _ _ => False) s' := by
    intro outcome s' hacting hok
    have hinv' : Inv (s'.setBranch e.owner step.id (.done (called outcome))
        (.left j e.owner step.id)) := by
      refine hacting.inv.setBranch rfl (by simp) (by simp) ?_
      intro outcome' heq
      rw [← Branch.done.inj heq]
      exact hok
    exact ⟨setBranch_guar rfl rfl (Or.inr ⟨hacting.frame, _, rfl⟩), hinv', called outcome,
      setBranch_self _ _ _ _ s'⟩
  refine spec_bind.mpr (spec_observe.mpr
    ((runStep_spec hP ⟨hinv, Or.inr hrunning, hrunning⟩ snapshot).mono ?_ ?_))
  · rintro result s' ⟨hacting, hok⟩
    exact hend (.ok result) s' hacting hok
  · rintro exc s' ⟨hacting, hok⟩
    exact hend (.error exc) s' hacting hok

/-! ### Stages -/

/-- The task `j` of an execution between two steps: the steps `rest` are still to come. -/
structure Ready (j : Nat) (T : List (Note V)) (done rest : List WorkflowStep) (p : Progress V)
    (s : State V) : Prop where
  inv : Inv s
  trail : trail j s = T
  resting : Resting (s.branches j)
  absent : ∀ step ∈ rest, s.branches j step.id = none
  sound : Sound j s.history done p

/-- The milestones, branches and outputs of the execution `j`, apart from one step. -/
structure Beside (j : Nat) (T : List (Note V)) (branches : String → Option (Branch V))
    (outputs : String → Option V) (id : String) (s : State V) : Prop where
  trail : trail j s = T
  branches : s.branches j = branches
  outputs : ∀ id', id' ≠ id → finalOutput j id' s.history = outputs id'

theorem framed_beside {j : Nat} {branches : String → Option (Branch V)}
    (hrest : Resting branches) (T : List (Note V)) (outputs : String → Option V) (id : String) :
    Framed j (StepNote j id) (Beside j T branches outputs id) := by
  refine ⟨?_, ?_⟩
  · intro s s' hr h
    rw [← h.branches] at hrest
    obtain ⟨hbranches, hfinal⟩ := hr.resting hrest
    exact ⟨hr.trail.trans h.trail, hbranches.trans h.branches,
      fun id' hne => (hfinal id').trans (h.outputs id' hne)⟩
  · intro s n ht hk h
    rcases hk with hquiet | ⟨task, output, rfl⟩
    · exact ⟨(trail_quiet ht (milestone_of_quiet hquiet) s).trans h.trail, h.branches,
        fun id' hne => (finalOutput_cons (plain_of_quiet hquiet) j id' s.history).trans
          (h.outputs id' hne)⟩
    · refine ⟨(trail_quiet ht rfl s).trans h.trail, h.branches, fun id' hne => ?_⟩
      exact (finalOutput_acted_ne task output s.history fun heq => hne heq.2.symm).trans
        (h.outputs id' hne)

section Stages

variable {j : Nat} {T : List (Note V)} {done rest : List WorkflowStep} {p : Progress V} {s s' : State V}

theorem not_mem_of_nodup {step : WorkflowStep}
    (h : ((done ++ step :: rest).map (·.id)).Nodup) :
    step.id ∉ done.map (·.id) ∧ step.id ∉ rest.map (·.id) := by
  rw [List.map_append, List.map_cons, List.nodup_append, List.nodup_cons] at h
  exact ⟨fun hmem => h.2.2 _ hmem _ List.mem_cons_self rfl, h.2.1.1⟩

theorem Ready.beside {step : WorkflowStep} (h : Ready j T done (step :: rest) p s)
    (hnew : step.id ∉ done.map (·.id)) (hi : Inv s')
    (hb : Beside j T (s.branches j) (fun id => finalOutput j id s.history) step.id s') :
    Ready j T done (step :: rest) p s' := by
  refine ⟨hi, hb.trail, ?_, ?_, ?_⟩
  · rw [hb.branches]
    exact h.resting
  · rw [hb.branches]
    exact h.absent
  · refine h.sound.congr fun step' hstep' => hb.outputs step'.id ?_
    intro heq
    exact hnew (List.mem_map.mpr ⟨step', hstep', heq⟩)

/-- The stages have come to their end: every step of the definition has had its turn, or will have
none. -/
structure Halted (j : Nat) (T : List (Note V)) (steps : List WorkflowStep) (p : Progress V)
    (halt : Option Halt) (s : State V) : Prop where
  inv : Inv s
  trail : trail j s = T
  resting : Resting (s.branches j)
  sound : Sound j s.history steps p
  failed : ∀ record, halt = some (.step record) →
    record.status = .failed ∧ ∃ step ∈ steps, record.stepId = step.id

theorem Ready.halted (h : Ready j T done rest p s) (hnodup : ((done ++ rest).map (·.id)).Nodup)
    {halt : Option Halt} (hfailed : ∀ record, halt = some (.step record) →
      record.status = .failed ∧ ∃ step ∈ done ++ rest, record.stepId = step.id) :
    Halted j T (done ++ rest) p halt s :=
  ⟨h.inv, h.trail, h.resting, h.sound.skips hnodup, hfailed⟩

theorem failed_of_failureOk {step : WorkflowStep} {exc : Exc} (h : FailureOk step.id exc)
    (record : StepExecution) (heq : some (Halt.of exc) = some (.step record)) :
    record.status = .failed ∧ record.stepId = step.id := by
  cases exc <;> simp only [Halt.of, Option.some.injEq, reduceCtorEq, Halt.step.injEq] at heq
  subst heq
  exact ⟨h.2, h.1⟩

/-- What a part of the stages leaves: the steps `rest` are next, or the stages have halted.  Nothing
is said of an exception that `execute` does not catch. -/
def PartDone (j : Nat) (T : List (Note V)) (steps done rest : List WorkflowStep)
    (r : Progress V × Option Halt)
    (s : State V) : Prop :=
  match r.2 with
  | none => Ready j T done rest r.1 s
  | some halt => (∀ exc, halt ≠ .escaped exc) → Halted j T steps r.1 (some halt) s

/-- The milestones, the branches and the outputs of the execution `j`. -/
structure Fixed (j : Nat) (notes : List (Note V)) (branches : String → Option (Branch V))
    (outputs : String → Option V) (s : State V) : Prop where
  trail : trail j s = notes
  branches : s.branches j = branches
  outputs : ∀ id, finalOutput j id s.history = outputs id

theorem Fixed.rely {notes : List (Note V)} {branches : String → Option (Branch V)}
    {outputs : String → Option V} (hrest : Resting branches) (hr : Rely j s s')
    (h : Fixed j notes branches outputs s) : Fixed j notes branches outputs s' := by
  rw [← h.branches] at hrest
  obtain ⟨hbranches, hfinal⟩ := hr.resting hrest
  exact ⟨hr.trail.trans h.trail, hbranches.trans h.branches,
    fun id => (hfinal id).trans (h.outputs id)⟩

theorem framed_fixed {branches : String → Option (Branch V)} (hrest : Resting branches)
    (notes : List (Note V)) (outputs : String → Option V) :
    Framed j Quiet (Fixed j notes branches outputs) := by
  refine ⟨fun hr h => h.rely hrest hr, ?_⟩
  intro s n ht hk h
  exact ⟨(trail_quiet ht (milestone_of_quiet hk) s).trans h.trail, h.branches,
    fun id => (finalOutput_cons (plain_of_quiet hk) j id s.history).trans (h.outputs id)⟩

theorem Ready.fixed (h : Ready j T done rest p s) (hi : Inv s')
    (hf : Fixed j T (s.branches j) (fun id => finalOutput j id s.history) s') :
    Ready j T done rest p s' := by
  refine ⟨hi, hf.trail, ?_, ?_, h.sound.congr fun step _ => hf.outputs step.id⟩
  · rw [hf.branches]
    exact h.resting
  · rw [hf.branches]
    exact h.absent

end Stages

section Run

variable {e : Execution} {T : List (Note V)} {done rest : List WorkflowStep} {p : Progress V}
  {s : State V}

variable {steps : List WorkflowStep}

theorem runSequential_spec (hnodup : ((done ++ (steps ++ rest)).map (·.id)).Nodup)
    (h : Ready e.owner T done (steps ++ rest) p s) :
    (runSequential e.owner e p steps).Spec (logic e.owner)
      (PartDone e.owner T (done ++ (steps ++ rest)) (done ++ steps) rest) (fun _ _ => True) s := by
  induction steps generalizing done p s with
  | nil => simpa [runSequential, PartDone] using h
  | cons step steps ih =>
    obtain ⟨hnew, -⟩ := not_mem_of_nodup hnodup
    have hP := framed_beside (j := e.owner) h.resting T
      (fun id => finalOutput e.owner id s.history) step.id
    have hacting : Acting e.owner e step (Beside e.owner T (s.branches e.owner)
        (fun id => finalOutput e.owner id s.history) step.id) s :=
      ⟨h.inv, Or.inl ⟨rfl, h.absent step List.mem_cons_self⟩, h.trail, rfl, fun _ _ => rfl⟩
    refine spec_bind.mpr (spec_observe.mpr
      ((runStep_spec hP hacting p.outputs).mono ?_ ?_))
    · rintro result s' ⟨hacting', hresult⟩
      have hready := h.beside hnew hacting'.inv hacting'.frame
      have hassoc : done ++ (step :: steps ++ rest) = (done ++ [step]) ++ (steps ++ rest) := by simp
      have hassoc' : done ++ step :: steps = (done ++ [step]) ++ steps := by simp
      rw [hassoc] at hnodup ⊢
      rw [hassoc']
      refine ih hnodup ⟨hready.inv, hready.trail, hready.resting, ?_, ?_⟩
      · intro step' hstep'
        exact hready.absent step' (List.mem_cons_of_mem _ hstep')
      · exact hready.sound.add hnew hresult
    · rintro exc s' ⟨hacting', hfailure⟩
      have hready := h.beside hnew hacting'.inv hacting'.frame
      refine fun _ => hready.halted hnodup ?_
      intro record heq
      obtain ⟨hstatus, hid⟩ := failed_of_failureOk hfailure record heq
      exact ⟨hstatus, step, by simp, hid⟩

theorem fork_branches (steps : List WorkflowStep) (snapshot : Outputs V) (s : State V)
    {id : String} (h : id ∉ steps.map (·.id)) :
    (s.fork e steps snapshot).branches e.owner id = s.branches e.owner id := by
  have hnone : steps.find? (·.id = id) = none := by
    rw [List.find?_eq_none]
    intro step hstep heq
    exact h (List.mem_map.mpr ⟨step, hstep, by simpa using heq⟩)
  simp [State.fork, hnone]

theorem fork_cases (steps : List WorkflowStep) (snapshot : Outputs V) (s : State V) (owner : Nat)
    (id : String) : (s.fork e steps snapshot).branches owner id = s.branches owner id ∨
      owner = e.owner ∧ ∃ step ∈ steps, step.id = id ∧
        (s.fork e steps snapshot).branches owner id = some (.created e step snapshot) := by
  by_cases howner : owner = e.owner
  · subst howner
    cases hfind : steps.find? (·.id = id) with
    | none => exact Or.inl (by simp [State.fork, hfind])
    | some step =>
      have hid : step.id = id := by simpa using List.find?_some hfind
      exact Or.inr ⟨rfl, step, List.mem_of_find?_eq_some hfind, hid, by simp [State.fork, hfind]⟩
  · exact Or.inl (by simp [State.fork, howner])

theorem fork_guar
    (habsent : ∀ step ∈ steps, s.branches e.owner step.id = none) (snapshot : Outputs V) :
    Guar e.owner s (s.fork e steps snapshot) := by
  refine ⟨⟨.forked e.owner, rfl, rfl⟩, fun _ _ => Or.inl rfl, fun owner id => ?_,
    fun _ => Nat.le_refl _⟩
  rcases fork_cases (e := e) steps snapshot s owner id with h | ⟨rfl, step, hstep, rfl, h⟩
  · exact Or.inl h
  · rw [h]
    exact Or.inr (Or.inl ⟨rfl, habsent step hstep, rfl⟩)

def Known (e : Execution) (T : List (Note V)) : Prop :=
  ∃ executionId uuid, .received e.owner (.execute e.definition executionId uuid) ∈ T

theorem Inv.fork (hi : Inv s) (hknown : Known e s.history)
    (hsteps : ∀ step ∈ steps, step ∈ e.definition.steps) (snapshot : Outputs V) :
    Inv (s.fork e steps snapshot) := by
  have hnoted := hi.note (n := .forked e.owner) rfl
  refine ⟨hi.retained, ?_, ?_, hnoted.received, ?_⟩
  · intro owner id e' step' snapshot' hb
    rcases fork_cases (e := e) steps snapshot s owner id with h | ⟨rfl, step, hmem, rfl, h⟩
    · exact hnoted.created owner id e' step' snapshot' (h.symm.trans hb)
    · rw [h] at hb
      cases hb
      obtain ⟨executionId, uuid, hrequest⟩ := hknown
      exact ⟨rfl, rfl, hsteps _ hmem, executionId, uuid, List.mem_cons_of_mem _ hrequest⟩
  · intro owner id task hb
    rcases fork_cases (e := e) steps snapshot s owner id with h | ⟨rfl, step, -, rfl, h⟩
    · exact hnoted.running owner id task (h.symm.trans hb)
    · rw [h] at hb
      cases hb
  · intro owner id outcome hb
    rcases fork_cases (e := e) steps snapshot s owner id with h | ⟨rfl, step, -, rfl, h⟩
    · exact hnoted.done owner id outcome (h.symm.trans hb)
    · rw [h] at hb
      cases hb

theorem Ready.known (h : Ready e.owner T done rest p s) (hT : Known e T) :
    Known e s.history := by
  obtain ⟨executionId, uuid, hmem⟩ := hT
  rw [← h.trail] at hmem
  exact ⟨executionId, uuid, mem_of_mem_own (List.mem_of_mem_filter hmem)⟩

theorem outcomes_of_join {outcomes : List (Called (StepResult V))}
    {branches : String → Option (Branch V)}
    (h : steps.map (fun step => branches step.id) =
      outcomes.map fun outcome => some (.done outcome)) :
    (steps.zip outcomes).map Prod.fst = steps ∧
      ∀ pair ∈ steps.zip outcomes, branches pair.1.id = some (.done pair.2) := by
  induction steps generalizing outcomes with
  | nil => simp
  | cons step steps ih =>
    cases outcomes with
    | nil => simp at h
    | cons outcome outcomes =>
      rw [List.map_cons, List.map_cons, List.cons.injEq] at h
      obtain ⟨hfst, hpairs⟩ := ih h.2
      constructor
      · rw [List.zip_cons_cons, List.map_cons, hfst]
      · rw [List.zip_cons_cons]
        exact List.forall_mem_cons.mpr ⟨h.1, hpairs⟩

theorem runParallel_spec (hT : Known e T) (hsteps : ∀ step ∈ steps, step ∈ e.definition.steps)
    (hnodup : ((done ++ (steps ++ rest)).map (·.id)).Nodup)
    (h : Ready e.owner T done (steps ++ rest) p s) :
    (runParallel e p steps).Spec (logic e.owner)
      (PartDone e.owner T (done ++ (steps ++ rest)) (done ++ steps) rest) (fun _ _ => True) s := by
  have habsent : ∀ step ∈ steps, s.branches e.owner step.id = none :=
    fun step hstep => h.absent step (List.mem_append_left _ hstep)
  refine spec_bind.mpr (spec_modify.mpr
    ⟨fork_guar habsent p.outputs, h.inv.fork (h.known hT) hsteps p.outputs, ?_⟩)
  refine spec_bind.mpr fun s' hi hr joined ha => ?_
  cases joined with
  | none => exact fun hescaped => absurd rfl (hescaped .cancelledError)
  | some outcomes =>
    obtain ⟨hfst, hpairs⟩ := outcomes_of_join ha
    -- The steps of other stages are as they were before the fork.
    have hbeside : ∀ id, id ∉ steps.map (·.id) →
        s'.branches e.owner id = s.branches e.owner id ∧
          finalOutput e.owner id s'.history = finalOutput e.owner id s.history := by
      intro id hid
      have hforked := fork_branches (e := e) steps p.outputs s hid
      rcases h.resting id with hb | ⟨outcome, hb⟩
      · rw [hb] at hforked
        exact ⟨(hr.absent id hforked).trans hb.symm, hr.permitted _ id (Or.inl ⟨rfl, hforked⟩)⟩
      · rw [hb] at hforked
        exact ⟨(hr.done _ id outcome hforked).trans hb.symm, hr.final id outcome hforked⟩
    have hapart : ∀ step, step ∈ done ∨ step ∈ rest → step.id ∉ steps.map (·.id) := by
      rw [List.map_append, List.nodup_append, List.map_append, List.nodup_append] at hnodup
      rintro step (hstep | hstep) hmem
      · exact hnodup.2.2 _ (List.mem_map_of_mem hstep) _ (List.mem_append_left _ hmem) rfl
      · exact hnodup.2.1.2.2 _ hmem _ (List.mem_map_of_mem hstep) rfl
    have htrail : trail e.owner s' = T := by
      rw [hr.trail]
      exact (trail_quiet (n := .forked e.owner) rfl rfl s).trans h.trail
    have hresting : Resting (s'.branches e.owner) := by
      intro id
      by_cases hid : id ∈ steps.map (·.id)
      · obtain ⟨step, hstep, rfl⟩ := List.mem_map.mp hid
        rw [← hfst] at hstep
        obtain ⟨pair, hpair, rfl⟩ := List.mem_map.mp hstep
        exact Or.inr ⟨pair.2, hpairs pair hpair⟩
      · rw [(hbeside id hid).1]
        exact h.resting id
    have hsound : Sound e.owner s'.history done p :=
      h.sound.congr fun step hstep => (hbeside step.id (hapart step (Or.inl hstep))).2
    have hmerged : MergedOk e.owner s'.history (done ++ (steps.zip outcomes).map Prod.fst)
        (merge ⟨p, [], false⟩ (steps.zip outcomes)) := by
      refine MergedOk.merge ⟨hsound, by simp⟩ ?_ ?_
      · rw [hfst]
        rw [← List.append_assoc, List.map_append, List.nodup_append] at hnodup
        exact hnodup.1
      · intro pair hpair
        exact hi.done _ _ _ (hpairs pair hpair)
    rw [hfst] at hmerged
    obtain ⟨hfinish, hnot⟩ := hmerged.finish
    show PartDone _ _ _ _ _ (Merged.finish _) s'
    unfold PartDone
    split
    · refine ⟨hi, htrail, hresting, ?_, hfinish⟩
      intro step hstep
      rw [(hbeside step.id (hapart step (Or.inr hstep))).1]
      exact h.absent step (List.mem_append_right _ hstep)
    · rename_i halt hhalt
      rw [← List.append_assoc] at hnodup ⊢
      refine fun _ => ⟨hi, htrail, hresting, hfinish.skips hnodup, ?_⟩
      intro record heq
      exact absurd (hhalt.trans heq) (hnot record)

theorem runStage_spec {stage : WorkflowStage} (hT : Known e T)
    (hsteps : ∀ step ∈ stage.steps, step ∈ e.definition.steps)
    (hnodup : ((done ++ (stage.steps ++ rest)).map (·.id)).Nodup)
    (h : Ready e.owner T done (stage.steps ++ rest) p s) :
    (runStage e.owner e p stage).Spec (logic e.owner)
      (PartDone e.owner T (done ++ (stage.steps ++ rest)) (done ++ stage.steps) rest)
      (fun _ _ => True) s := by
  have hP := framed_fixed (j := e.owner) h.resting T fun id => finalOutput e.owner id s.history
  refine spec_bind.mpr (spec_observe.mpr
    ((checkpoint_calls hP .main e.owner s h.inv ⟨h.trail, rfl, fun _ => rfl⟩).mono ?_ ?_))
  · rintro ⟨⟩ s' ⟨hi, hfixed⟩
    have hready := h.fixed hi hfixed
    dsimp only
    cases stage.mode with
    | sequential => exact runSequential_spec hnodup hready
    | parallel => exact runParallel_spec hT hsteps hnodup hready
  · rintro exc s' ⟨⟨hi, hfixed⟩, hexc⟩
    refine fun _ => (h.fixed hi hfixed).halted hnodup ?_
    intro record heq
    cases exc <;> simp [Halt.of, Exc.isStepFailed] at heq hexc

theorem runStages_spec {stages : List WorkflowStage} (hT : Known e T)
    (hstages : ∀ stage ∈ stages, ∀ step ∈ stage.steps, step ∈ e.definition.steps)
    (hnodup : ((done ++ stages.flatMap (·.steps)).map (·.id)).Nodup)
    (h : Ready e.owner T done (stages.flatMap (·.steps)) p s) :
    (runStages e.owner e p stages).Spec (logic e.owner)
      (fun r s' => (∀ exc, r.2 ≠ some (.escaped exc)) →
        Halted e.owner T (done ++ stages.flatMap (·.steps)) r.1 r.2 s') (fun _ _ => True) s := by
  induction stages generalizing done p s with
  | nil =>
    intro _
    exact h.halted hnodup (by simp)
  | cons stage stages ih =>
    rw [List.flatMap_cons] at hnodup h ⊢
    obtain ⟨hsteps, hrest⟩ := List.forall_mem_cons.mp hstages
    refine spec_bind.mpr ((runStage_spec hT hsteps hnodup h).mono ?_ fun _ _ hs => hs)
    rintro ⟨p', halt⟩ s' hpart
    cases halt with
    | none =>
      have hassoc : done ++ (stage.steps ++ stages.flatMap (·.steps)) =
          (done ++ stage.steps) ++ stages.flatMap (·.steps) := by simp
      rw [hassoc] at hnodup ⊢
      exact ih hrest hnodup hpart
    | some halt =>
      intro hescaped
      exact hpart fun exc heq => hescaped exc (by rw [heq])

end Run

/-! ### The end of an execution -/

section Remember

variable {ex : WorkflowExecution V} {executions : List (String × WorkflowExecution V)}

theorem remember_length : (State.remember ex executions).length ≤ maxRetainedExecutions := by
  unfold State.remember
  rw [List.length_drop]
  omega

theorem lookup_map {id : String} (h : (executions.lookup id).isSome = true) :
    (executions.map fun entry => if entry.1 = id then (id, ex) else entry).lookup id =
      some ex := by
  induction executions with
  | nil => simp at h
  | cons entry rest ih =>
    by_cases hentry : entry.1 = id
    · simp [hentry]
    · have hne : (id == entry.1) = false := by simpa using Ne.symm hentry
      rw [List.lookup_cons, hne] at h
      rw [List.map_cons, if_neg hentry, List.lookup_cons, hne]
      exact ih h

theorem lookup_remember (h : executions.length ≤ maxRetainedExecutions) :
    (State.remember ex executions).lookup ex.id = some ex := by
  unfold State.remember
  split
  · rename_i hknown
    have hdrop : executions.length - maxRetainedExecutions = 0 := by omega
    simp only [List.length_map, hdrop, List.drop_zero]
    exact lookup_map hknown
  · rename_i hnew
    have hnone : ∀ entry ∈ executions, entry.1 ≠ ex.id := by
      intro entry hentry heq
      rw [Bool.not_eq_true, Option.isSome_eq_false_iff, Option.isNone_iff_eq_none,
        List.lookup_eq_none_iff] at hnew
      simpa [heq] using hnew entry hentry
    have hdrop : (executions ++ [(ex.id, ex)]).length - maxRetainedExecutions ≤
        executions.length := by
      rw [List.length_append, List.length_singleton]
      unfold maxRetainedExecutions at h ⊢
      omega
    rw [List.drop_append_of_le_length hdrop]
    have habsent : (executions.drop ((executions ++ [(ex.id, ex)]).length -
        maxRetainedExecutions)).lookup ex.id = none := by
      rw [List.lookup_eq_none_iff]
      intro entry hentry
      simpa using (hnone entry (List.mem_of_mem_drop hentry)).symm
    rw [List.lookup_append, habsent]
    simp

end Remember

theorem settle_executions (j : Nat) (ex : WorkflowExecution V) (s : State V) :
    (s.settle j ex).executions = State.remember ex s.executions := by
  simp only [State.settle, State.note]

theorem settle_active (j : Nat) (ex : WorkflowExecution V) (s : State V) :
    (s.settle j ex).active ex.id = false := by
  have hnone : (s.controls.filter (·.1 ≠ ex.id)).lookup ex.id = none := by
    rw [List.lookup_eq_none_iff]
    intro entry hentry
    have hne : entry.1 ≠ ex.id := by simpa using (List.mem_filter.mp hentry).2
    simpa using hne.symm
  simp only [State.active, State.settle, State.note]
  rw [hnone]
  rfl

theorem settle_history (j : Nat) (ex : WorkflowExecution V) (s : State V)
    (h : s.executions.length ≤ maxRetainedExecutions) :
    (s.settle j ex).history = .settled j ex false (some ex) :: s.history := by
  have hactive : ((s.controls.filter (·.1 ≠ ex.id)).lookup ex.id).isSome = false :=
    settle_active j ex s
  have hget : (State.remember ex s.executions).lookup ex.id = some ex := lookup_remember h
  unfold State.settle State.note
  simp only [State.active, State.get, hactive, hget]

section Closing

variable {j : Nat} {T : List (Note V)} {B : String → Option (Branch V)} {F : String → Option V}
  {s : State V} {e : Execution}

def compensatedNote (j : Nat) (c : WorkflowStep × V) : Note V := .compensated j c.1.id c.2

theorem Fixed.note (h : Fixed j T B F s) {n : Note V} (ht : n.task = j) (hn : n.milestone = true)
    (hplain : n.plain = true) : Fixed j (n :: T) B F (s.note n) :=
  ⟨(trail_milestone ht hn s).trans (by rw [h.trail]), h.branches,
    fun id => (finalOutput_cons hplain j id s.history).trans (h.outputs id)⟩

theorem emit_spec_bind {α : Type} {P : State V → Prop} {f : Unit → Task V α}
    {Q : α → State V → Prop} {event : Event} (hP : Framed j Quiet P)
    (hevent : event.isTerminal = false) (hi : Inv s) (h : P s)
    (hf : ∀ s', Inv s' → P s' → (f ()).Spec (logic j) Q (fun _ _ => True) s') :
    ((emit j .main e event).bind f).Spec (logic j) Q (fun _ _ => True) s :=
  (emit_quiet hP .main e hevent).spec_bind hi h (fun _ s' hi' h' => hf s' hi' h')
    fun _ _ _ _ _ => trivial

theorem compensateAll_spec (hrest : Resting B) (hi : Inv s) (h : Fixed j T B F s)
    (complete : Bool) (l : List (WorkflowStep × V)) :
    (compensateAll j e complete l).Spec (logic j)
      (fun _ s' => Inv s' ∧ Fixed j ((l.map (compensatedNote j)).reverse ++ T) B F s')
      (fun _ _ => True) s := by
  induction l generalizing complete T s with
  | nil => exact ⟨hi, h⟩
  | cons c l ih =>
    obtain ⟨step, output⟩ := c
    refine spec_bind.mpr (spec_modify.mpr ⟨note_guar rfl rfl, hi.note rfl, ?_⟩)
    have hnoted := h.note (n := .compensated j step.id output) rfl rfl rfl
    refine spec_bind.mpr fun s' hi' hr answer _ => ?_
    have hfixed := hnoted.rely hrest hr
    have hframed := framed_fixed (j := j) hrest (.compensated j step.id output :: T) F
    have hnext : ∀ complete s', Inv s' → Fixed j (.compensated j step.id output :: T) B F s' →
        (compensateAll j e complete l).Spec (logic j)
          (fun _ s' => Inv s' ∧
            Fixed j ((((step, output) :: l).map (compensatedNote j)).reverse ++ T) B F s')
          (fun _ _ => True) s' := by
      intro complete s' hi' h'
      refine (ih hi' h' complete).mono ?_ fun _ _ hs => hs
      intro _ s'' hs''
      simpa [compensatedNote] using hs''
    cases answer with
    | returned => exact emit_spec_bind hframed rfl hi' hfixed (hnext complete)
    | raised exc =>
      show Proc.Spec _ (if exc.caught = true then _ else _) _ _ _
      split
      · exact emit_spec_bind hframed rfl hi' hfixed (hnext false)
      · trivial

theorem rollback_spec (hrest : Resting B) (hi : Inv s) (h : Fixed j T B F s)
    (status : ExecutionStatus) (completed : List (WorkflowStep × V)) :
    (rollback j e status completed).Spec (logic j)
      (fun _ s' => Inv s' ∧ Fixed j ((if status = .succeeded then []
        else completed.map (compensatedNote j)) ++ T) B F s') (fun _ _ => True) s := by
  unfold rollback
  split
  · rename_i hneeded
    rw [if_neg hneeded.1]
    refine emit_spec_bind (framed_fixed hrest T F) rfl hi h fun s1 hi1 h1 => ?_
    refine spec_bind.mpr
      ((compensateAll_spec hrest hi1 h1 true completed.reverse).mono ?_ fun _ _ hs => hs)
    rintro complete s2 ⟨hi2, h2⟩
    rw [List.map_reverse, List.reverse_reverse] at h2
    exact emit_spec_bind (framed_fixed hrest _ F) rfl hi2 h2 fun s3 hi3 h3 => ⟨hi3, h3⟩
  · rename_i hneeded
    by_cases hstatus : status = .succeeded
    · rw [if_pos hstatus]
      exact ⟨hi, h⟩
    · have hempty : completed = [] := by
        by_contra hne
        exact hneeded ⟨hstatus, hne⟩
      rw [if_neg hstatus, hempty]
      exact ⟨hi, h⟩

def terminalNote (e : Execution) (ex : WorkflowExecution V) : Note V :=
  .published e.owner e.owner
    ⟨e.definition.capabilityId, e.id, e.definition.id, .terminal ex.status ex.errorCode⟩

/-- What an `execute` that returned has left: its compensations in the order of the definition read
backwards, one terminal event, and the return, with the identifier free and the execution stored. -/
structure Settled (e : Execution) (T : List (Note V)) (ex : WorkflowExecution V) (s : State V) :
    Prop where
  id : ex.id = e.id
  trail : trail e.owner s = .settled e.owner ex false (some ex) :: terminalNote e ex ::
    ((if ex.status = .succeeded then []
      else (owed ex.steps e.owner s.history e.definition.steps).map (compensatedNote e.owner)) ++ T)
  outputs : ∀ step ∈ e.definition.steps, succeeded ex.steps step.id = true →
    (finalOutput e.owner step.id s.history).isSome = true
  resting : Resting (s.branches e.owner)

theorem Settled.rely {ex : WorkflowExecution V} {s' : State V} (h : Settled e T ex s)
    (hr : Rely e.owner s s') : Settled e T ex s' := by
  obtain ⟨hbranches, hfinal⟩ := hr.resting h.resting
  refine ⟨h.id, ?_, ?_, ?_⟩
  · have howed : owed ex.steps e.owner s'.history e.definition.steps =
        owed ex.steps e.owner s.history e.definition.steps :=
      owed_congr (fun _ _ => rfl) fun step _ => hfinal step.id
    rw [hr.trail, h.trail, howed]
  · intro step hstep hsucceeded
    rw [hfinal]
    exact h.outputs step hstep hsucceeded
  · rw [hbranches]
    exact h.resting

theorem settle_guar {ex : WorkflowExecution V} (hi : Inv s) : Guar j s (s.settle j ex) := by
  have hhistory := settle_history j ex s hi.retained
  refine ⟨⟨_, rfl, hhistory⟩, fun owner id => Or.inl ?_, fun _ _ => Or.inl rfl,
    fun _ => Nat.le_refl _⟩
  rw [hhistory]
  rfl

theorem Inv.settle {ex : WorkflowExecution V} (hi : Inv s) : Inv (s.settle j ex) := by
  have hhistory := settle_history j ex s hi.retained
  refine hi.grow hhistory rfl ?_ trivial fun owner id _ _ => ?_
  · rw [settle_executions]
    exact remember_length
  · rw [hhistory]
    rfl

theorem Fixed.settle {ex : WorkflowExecution V} (h : Fixed j T B F s) (hi : Inv s) :
    Fixed j (.settled j ex false (some ex) :: T) B F (s.settle j ex) := by
  have hhistory := settle_history j ex s hi.retained
  refine ⟨?_, h.branches, ?_⟩
  · have hnote : Workflows.trail j (s.settle j ex) =
        Workflows.trail j (s.note (.settled j ex false (some ex))) := by
      unfold Workflows.trail
      rw [hhistory]
      rfl
    have hclosing : Workflows.trail j (s.note (.settled j ex false (some ex))) =
        .settled j ex false (some ex) :: Workflows.trail j s := trail_milestone rfl rfl s
    rw [hnote, hclosing, h.trail]
  · intro id
    rw [hhistory]
    exact h.outputs id

variable {cfg : Config V}

theorem conclude_spec (hrest : Resting B) (h : Fixed e.owner T B F s)
    (records : List StepExecution) (verdict : Verdict V) (rollbackPerformed : Bool) :
    (conclude cfg e.owner e records verdict rollbackPerformed).Spec (logic e.owner)
      (fun ex s' => ex.id = e.id ∧ ex.status = verdict.status ∧ ex.steps = records ∧ Inv s' ∧
        Fixed e.owner (.settled e.owner ex false (some ex) :: terminalNote e ex :: T) B F s')
      (fun _ _ => True) s := by
  refine spec_bind.mpr (spec_require.mpr ⟨fun _ => ?_, fun _ => trivial⟩)
  -- The terminal event is the one event that the frame does not let through.
  have hterminal : Proc.Spec (logic e.owner)
      (emit e.owner .main e (.terminal verdict.status verdict.errorCode) : Task V Unit)
      (fun _ s' => Inv s' ∧ Fixed e.owner (.published e.owner e.owner
        ⟨e.definition.capabilityId, e.id, e.definition.id,
          .terminal verdict.status verdict.errorCode⟩ :: T) B F s') (fun _ _ => True) s := by
    refine spec_bind.mpr fun s1 hi1 hr1 appended _ => ?_
    cases appended with
    | raised exc => trivial
    | returned =>
      have hplain : ∀ event, (Note.published e.owner e.owner event : Note V).plain = true := by
        simp [Note.plain]
      have h1 := (h.rely hrest hr1).note (n := .published e.owner e.owner
        ⟨e.definition.capabilityId, e.id, e.definition.id,
          .terminal verdict.status verdict.errorCode⟩) rfl rfl (hplain _)
      refine ⟨note_guar rfl (hplain _), hi1.note (hplain _), fun s2 hi2 hr2 notified _ => ?_⟩
      cases notified with
      | raised exc => trivial
      | returned => exact ⟨hi2, h1.rely hrest hr2⟩
  refine spec_bind.mpr (hterminal.mono ?_ fun _ _ hs => hs)
  rintro _ s1 ⟨hi1, h1⟩
  refine emit_spec_bind (framed_fixed hrest _ F) rfl hi1 h1 fun s2 hi2 h2 => ?_
  exact ⟨settle_guar hi2, hi2.settle, rfl, rfl, rfl, hi2.settle, h2.settle hi2⟩

theorem close_spec {p : Progress V} {verdict : Verdict V} (hrest : Resting (s.branches e.owner))
    (hi : Inv s) (htrail : trail e.owner s = T)
    (hsound : Sound e.owner s.history e.definition.steps p) :
    (close cfg e.owner e p verdict).Spec (logic e.owner)
      (fun ex s' => Inv s' ∧ Settled e T ex s') (fun _ _ => True) s := by
  have h : Fixed e.owner T (s.branches e.owner) (fun id => finalOutput e.owner id s.history) s :=
    ⟨htrail, rfl, fun _ => rfl⟩
  refine spec_bind.mpr
    ((rollback_spec hrest hi h verdict.status p.compensations).mono ?_ fun _ _ hs => hs)
  rintro rollbackPerformed s1 ⟨hi1, h1⟩
  refine (conclude_spec hrest h1 p.records verdict rollbackPerformed).mono ?_ fun _ _ hs => hs
  rintro ex s2 ⟨hid, hstatus, hsteps, hi2, h2⟩
  have howed : owed ex.steps e.owner s2.history e.definition.steps = p.compensations := by
    rw [hsteps, hsound.compensations]
    exact owed_congr (fun _ _ => rfl) fun step _ => h2.outputs step.id
  refine ⟨hi2, hid, ?_, ?_, ?_⟩
  · rw [h2.trail, hstatus, howed]
  · intro step hstep hsucceeded
    rw [h2.outputs]
    rw [hsteps] at hsucceeded
    exact hsound.outputs step hstep hsucceeded
  · rw [h2.branches]
    exact hrest

theorem finish_spec {p : Progress V} {halt : Option Halt}
    (h : (∀ exc, halt ≠ some (.escaped exc)) → Halted e.owner T e.definition.steps p halt s) :
    (finish cfg e.owner e p halt).Spec (logic e.owner)
      (fun ex s' => Inv s' ∧ Settled e T ex s') (fun _ _ => True) s := by
  cases halt with
  | none =>
    have hhalted := h (by simp)
    have hframed := framed_fixed (j := e.owner) hhalted.resting T fun id =>
      finalOutput e.owner id s.history
    have hclose : ∀ verdict s', Inv s' → Fixed e.owner T (s.branches e.owner)
        (fun id => finalOutput e.owner id s.history) s' →
        (close cfg e.owner e p verdict).Spec (logic e.owner)
          (fun ex s' => Inv s' ∧ Settled e T ex s') (fun _ _ => True) s' := by
      intro verdict s' hi' hfixed
      refine close_spec ?_ hi' hfixed.trail
        (hhalted.sound.congr fun step _ => hfixed.outputs step.id)
      rw [hfixed.branches]
      exact hhalted.resting
    have hinvalid : ∀ result exc s', Inv s' → Fixed e.owner T (s.branches e.owner)
        (fun id => finalOutput e.owner id s.history) s' →
        (resultInvalid result exc).Spec (logic e.owner)
          (fun verdict s' => (close cfg e.owner e p verdict).Spec (logic e.owner)
            (fun ex s' => Inv s' ∧ Settled e T ex s') (fun _ _ => True) s')
          (fun _ _ => True) s' := by
      intro result exc s' hi' hfixed
      cases exc with
      | typeError => exact hclose _ s' hi' hfixed
      | valueError => exact hclose _ s' hi' hfixed
      | _ => trivial
    refine spec_bind.mpr (spec_bind.mpr fun s' hi' hr answer _ => ?_)
    have hfixed := hframed.rely hr ⟨hhalted.trail, rfl, fun _ => rfl⟩
    cases answer with
    | raised exc => exact hinvalid none exc s' hi' hfixed
    | returned result =>
      rw [spec_ret]
      dsimp only
      cases cfg.resultReceipt result with
      | raised exc => exact hinvalid (some result) exc s' hi' hfixed
      | returned receipt => exact hclose _ s' hi' hfixed
  | some halt =>
    cases halt with
    | escaped exc => trivial
    | step record =>
      have hhalted := h (by simp)
      refine close_spec hhalted.resting hhalted.inv hhalted.trail (hhalted.sound.fail ?_)
      intro r hr
      rw [List.mem_singleton.mp hr]
      exact hhalted.failed record rfl
    | stage code =>
      have hhalted := h (by simp)
      exact close_spec hhalted.resting hhalted.inv hhalted.trail hhalted.sound
    | cancelled =>
      have hhalted := h (by simp)
      exact close_spec hhalted.resting hhalted.inv hhalted.trail hhalted.sound

/-- The state knows nothing of the task `j`. -/
def Fresh (j : Nat) (s : State V) : Prop :=
  own j s.history = [] ∧ ∀ id, s.branches j id = none

theorem Fresh.rely {j : Nat} {s s' : State V} (hf : Fresh j s) (hr : Rely j s s') : Fresh j s' :=
  ⟨hr.kept.2.trans hf.1, fun id => hr.absent id (hf.2 id)⟩

theorem register_guar (e : Execution) (s : State V) : Guar e.owner s (s.register e) :=
  ⟨⟨.opened e.owner e.id, rfl, rfl⟩, fun _ _ => Or.inl rfl, fun _ _ => Or.inl rfl,
    fun _ => Nat.le_refl _⟩

theorem Inv.register (hi : Inv s) (e : Execution) : Inv (s.register e) :=
  hi.grow (n := .opened e.owner e.id) rfl rfl hi.retained trivial fun _ _ _ _ => rfl

theorem runDefinition_spec (hT : Known e T) (hi : Inv s) (htrail : trail e.owner s = T)
    (habsent : ∀ id, s.branches e.owner id = none) :
    (runDefinition cfg e.owner e).Spec (logic e.owner)
      (fun ex s' => Inv s' ∧ Settled e T ex s') (fun _ _ => True) s := by
  have hrest : Resting (s.branches e.owner) := fun id => Or.inl (habsent id)
  have hframed := framed_fixed (j := e.owner) hrest T fun id => finalOutput e.owner id s.history
  refine emit_spec_bind hframed rfl hi ⟨htrail, rfl, fun _ => rfl⟩ fun s1 hi1 h1 => ?_
  have hready : Ready e.owner T [] (e.definition.stages.flatMap (·.steps)) .empty s1 := by
    refine ⟨hi1, h1.trail, ?_, ?_, sound_empty e.owner s1.history⟩
    · rw [h1.branches]
      exact hrest
    · intro step _
      rw [h1.branches]
      exact habsent step.id
  refine spec_bind.mpr ((runStages_spec hT ?_ ?_ hready).mono ?_ fun _ _ hs => hs)
  · intro stage hstage step hstep
    exact List.mem_flatMap.mpr ⟨stage, hstage, hstep⟩
  · simpa using e.definition.distinct
  · rintro ⟨p, halt⟩ s2 h2
    exact finish_spec h2

theorem runExecution_spec (hT : Known e T) (hi : Inv s) (htrail : trail e.owner s = T)
    (habsent : ∀ id, s.branches e.owner id = none) :
    (runExecution cfg e.owner e).Spec (logic e.owner)
      (fun ex s' => Inv s' ∧ Settled e T ex s') (fun _ _ => True) s := by
  refine spec_bind.mpr (spec_modify.mpr ⟨register_guar e s, hi.register e, ?_⟩)
  have hrest : Resting (s.branches e.owner) := fun id => Or.inl (habsent id)
  have htrail' : trail e.owner (s.register e) = T :=
    (trail_quiet (n := .opened e.owner e.id) rfl rfl s).trans htrail
  have hframed := framed_fixed (j := e.owner) hrest T fun id => finalOutput e.owner id s.history
  refine emit_spec_bind hframed rfl (hi.register e) ⟨htrail', rfl, fun _ => rfl⟩
    fun s1 hi1 h1 => ?_
  refine runDefinition_spec hT hi1 h1.trail ?_
  rw [h1.branches]
  exact habsent

theorem execute_spec {definition : WorkflowDefinition} {executionId : Option String}
    {uuid : String} (hi : Inv s)
    (htrail : trail j s = [.received j (.execute definition executionId uuid)])
    (habsent : ∀ id, s.branches j id = none) :
    (execute cfg j definition executionId uuid).Spec (logic j)
      (fun ex s' => Settled ⟨j, chooseId executionId uuid, definition⟩
        [.received j (.execute definition executionId uuid)] ex s') (fun _ _ => True) s := by
  refine spec_bind.mpr (spec_bind.mpr
    (spec_require.mpr ⟨fun _ => ?_, fun _ => trivial⟩))
  refine (runExecution_spec (e := ⟨j, chooseId executionId uuid, definition⟩) ?_ hi htrail
    habsent).mono (fun _ _ hs => hs.2) fun _ _ hs => hs
  exact ⟨executionId, uuid, List.mem_singleton.mpr rfl⟩

theorem control_guar (j owner : Nat) (call : ControlCall) (s : State V) :
    Guar j s (s.control j owner call) := by
  have hwakes : ∀ o, s.wakes o ≤ Function.update s.wakes owner (s.wakes owner + 1) o := by
    intro o
    by_cases ho : o = owner
    · subst ho
      simp
    · simp [ho]
  cases call with
  | pause =>
    exact ⟨⟨.controlled j owner _, rfl, rfl⟩, fun _ _ => Or.inl rfl, fun _ _ => Or.inl rfl,
      fun _ => Nat.le_refl _⟩
  | resume | cancel =>
    exact ⟨⟨.controlled j owner _, rfl, rfl⟩, fun _ _ => Or.inl rfl, fun _ _ => Or.inl rfl,
      hwakes⟩

theorem Inv.control (hi : Inv s) (owner : Nat) (call : ControlCall) :
    Inv (s.control j owner call) := by
  cases call <;>
    exact hi.grow (n := .controlled j owner _) rfl rfl hi.retained trivial fun _ _ _ _ => rfl

theorem control_spec (hi : Inv s) (call : ControlCall) (executionId : String) :
    (control j call executionId : Task V Bool).Spec (logic j) (fun _ _ => True)
      (fun _ _ => True) s := by
  refine spec_bind.mpr (spec_reading.mpr ?_)
  cases s.controls.lookup executionId with
  | none => trivial
  | some e =>
    refine spec_bind.mpr ⟨control_guar j e.owner call s, hi.control e.owner call, ?_⟩
    have hframed : Framed j Quiet fun _ : State V => True :=
      ⟨fun _ _ => trivial, fun _ _ _ => trivial⟩
    refine (emit_quiet hframed .control e ?_).spec_bind (hi.control e.owner call) trivial ?_ ?_
    · cases call <;> rfl
    · exact fun _ _ _ _ => trivial
    · exact fun _ _ _ _ _ => trivial

theorem received_guar (j : Nat) (t : Request) (s : State V) :
    Guar j s (s.note (.received j t)) :=
  ⟨⟨_, rfl, rfl⟩, fun _ _ => Or.inl rfl, fun _ _ => Or.inl rfl, fun _ => Nat.le_refl _⟩

theorem Inv.receive (hi : Inv s) (hfresh : Fresh j s) (t : Request) :
    Inv (s.note (.received j t)) :=
  hi.grow rfl rfl hi.retained hfresh.1 fun _ _ _ _ => rfl

theorem trail_received (hfresh : Fresh j s) (t : Request) :
    trail j (s.note (.received j t)) = [.received j t] := by
  have hempty : trail j s = [] := by
    rw [trail, hfresh.1]
    rfl
  rw [← hempty]
  exact trail_milestone rfl rfl s

end Closing

/-! ### The contract -/

def Returned (j : Nat) (t : Request) (reply : Reply V) (s : State V) : Prop :=
  match t, reply with
  | .execute definition executionId uuid, .execution ex =>
      Settled ⟨j, chooseId executionId uuid, definition⟩ [.received j t] ex s
  | .execute _ _ _, _ => False
  | .branch owner id, _ => ∃ outcome, s.branches owner id = some (.done outcome)
  | .control _ _, _ => True

def Raised (t : Request) : Prop :=
  match t with
  | .branch _ _ => False
  | _ => True

theorem Returned.rely {j : Nat} {t : Request} {reply : Reply V} {s s' : State V}
    (h : Returned j t reply s) (hr : Rely j s s') : Returned j t reply s' := by
  cases t with
  | control => trivial
  | branch owner id =>
    obtain ⟨outcome, hdone⟩ := h
    exact ⟨outcome, hr.done owner id outcome hdone⟩
  | execute definition executionId uuid =>
    cases reply with
    | execution ex => exact Settled.rely h hr
    | flag => exact h
    | branch => exact h

theorem handler_spec {cfg : Config V} {j : Nat} {t : Request} {s : State V} (hi : Inv s)
    (hfresh : Fresh j s) (hadmits : (engine cfg).admits s t) :
    (handler cfg j t).Spec (logic j) (Returned j t) (fun _ _ => Raised t) s := by
  have hinv := hi.receive hfresh t
  refine spec_bind.mpr ⟨received_guar j t s, hinv, ?_⟩
  cases t with
  | execute definition executionId uuid =>
    exact spec_bind.mpr (execute_spec hinv (trail_received hfresh _) hfresh.2)
  | control call executionId => exact spec_bind.mpr (control_spec hinv call executionId)
  | branch owner stepId =>
    exact spec_bind.mpr (runBranch_spec hinv hadmits List.mem_cons_self)

def contract (cfg : Config V) : Contract (engine cfg) where
  inv := Inv
  rely := Rely
  guar := Guar
  fresh := Fresh
  post := Returned
  postE _ t _ _ := Raised t
  refl := Rely.refl
  trans _ _ _ _ := Rely.trans
  guar_rely _ _ _ _ := Guar.rely
  fresh_rely _ _ _ := Fresh.rely
  post_rely _ _ _ _ _ := Returned.rely
  postE_rely _ _ _ _ _ h _ := h
  world _ w := w.elim
  handler _ _ _ := handler_spec

abbrev Tasks (V : Type) := Pool (State V) (Res (V := V)) Exc (Reply V) Request

theorem inv_initial : Inv (State.initial : State V) :=
  ⟨by simp [State.initial], by simp [State.initial], by simp [State.initial],
    by simp [State.initial], by simp [State.initial]⟩

theorem holds_of_reachable {cfg : Config V} {p : Tasks V}
    (reach : (engine cfg).Reachable .initial p) : (contract cfg).Holds p :=
  (contract cfg).sound inv_initial (fun _ => ⟨rfl, fun _ => rfl⟩) reach

theorem settled_of_reachable {cfg : Config V} {p : Tasks V}
    (reach : (engine cfg).Reachable .initial p) {j : Nat} {definition : WorkflowDefinition}
    {executionId : Option String} {uuid : String} {ex : WorkflowExecution V}
    (hj : p.tasks[j]? = some (.execute definition executionId uuid, .ret (.execution ex))) :
    Settled ⟨j, chooseId executionId uuid, definition⟩
      [.received j (.execute definition executionId uuid)] ex p.state :=
  ((holds_of_reachable reach).tasks j _ _ hj).2

end Ares.Workflows
