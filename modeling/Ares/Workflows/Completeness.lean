import Ares.Workflows.Records

/-! Which executions have complete records: the records of the steps are filed stage by stage, and
the last exit of the stages keeps them or loses the failures of one stage. -/

namespace Ares.Workflows

open Coop

variable {V : Type}

/-- The branches and the marks of the execution `j` are what they were. -/
structure Still (j : Nat) (s s' : State V) : Prop where
  branches : s'.branches j = s.branches j
  marks : ∀ id, SameMarks j id s s'

/-- The branches of the execution `j`, and the marks of its other steps. -/
structure Apart (j : Nat) (id : String) (s s' : State V) : Prop where
  branches : s'.branches j = s.branches j
  marks : ∀ id', id' ≠ id → SameMarks j id' s s'

/-- The task `j` of an execution between two steps: the steps `rest` are still to come, and no
branch has raised. -/
structure Due (j : Nat) (done rest : List WorkflowStep) (p : Progress V) (s : State V) : Prop where
  resting : Resting (s.branches j)
  absent : ∀ step ∈ rest, s.branches j step.id = none
  unmarked : ∀ step ∈ rest, ∀ m, marked j step.id m s.history = false
  returned : ∀ step ∈ done, ¬BranchRaised j step.id s
  tally : Tally j s done p.records

/-- The records of an execution are filed: they are complete, or those of a stage are lost. -/
structure Filed (j : Nat) (stages : List WorkflowStage) (records : List StepExecution)
    (s : State V) : Prop where
  resting : Resting (s.branches j)
  distinct : (records.map (·.stepId)).Nodup
  skipped : ∀ step ∈ stages.flatMap (·.steps), marked j step.id .skipped s.history = true →
    ∃ r ∈ records, r.stepId = step.id ∧ r.status = .skipped
  finished : (∀ step ∈ stages.flatMap (·.steps), Finished j step.id s →
    step.id ∈ records.map (·.stepId)) ↔ ¬Lost j stages s

/-- The records with which `execute` goes on where the stages end. -/
def closing (p : Progress V) : Option Halt → List StepExecution
  | some (.step record) => p.records ++ [record]
  | _ => p.records

section Frames

variable {j : Nat} {s s' : State V}

theorem Minds.resting (hr : Minds j s s') (hrest : Resting (s.branches j)) : Still j s s' := by
  refine ⟨(hr.rely.resting hrest).1, fun id => ?_⟩
  rcases hrest id with h | ⟨outcome, h⟩
  · exact hr.permitted j id (Or.inl ⟨rfl, h⟩)
  · exact hr.final id outcome h

theorem Still.of_note {n : Note V} (hhistory : s'.history = n :: s.history)
    (hbranches : s'.branches = s.branches) (hn : n.mark? = none) : Still j s s' :=
  ⟨congrFun hbranches j, sameMarks_unmarked hhistory hn j⟩

theorem Due.still {done rest : List WorkflowStep} {p : Progress V} (h : Due j done rest p s)
    (hs : Still j s s') : Due j done rest p s' := by
  refine ⟨?_, ?_, fun step hstep m => ?_, ?_, h.tally.congr ?_ fun step _ => hs.marks step.id⟩
  · rw [hs.branches]
    exact h.resting
  · rw [hs.branches]
    exact h.absent
  · exact (hs.marks step.id m).trans (h.unmarked step hstep m)
  · unfold BranchRaised
    rw [hs.branches]
    exact h.returned
  · intro step _
    rw [hs.branches]

theorem lost_congr {stages : List WorkflowStage} (hs : Still j s s') :
    Lost j stages s' ↔ Lost j stages s := by
  simp only [Lost, Interrupted, BranchRaised, hs.branches,
    finished_congr (congrFun hs.branches _) (hs.marks _)]

theorem Filed.still {stages : List WorkflowStage} {records : List StepExecution}
    (h : Filed j stages records s) (hs : Still j s s') : Filed j stages records s' := by
  refine ⟨?_, h.distinct, ?_, ?_⟩
  · rw [hs.branches]
    exact h.resting
  · exact fun step hstep hskipped =>
      h.skipped step hstep ((hs.marks step.id .skipped).symm.trans hskipped)
  · rw [lost_congr hs, ← h.finished]
    exact forall₂_congr fun step _ =>
      imp_congr_left (finished_congr (congrFun hs.branches _) (hs.marks _))

theorem stays_of_still {P : State V → Prop} (hrest : ∀ s, P s → Resting (s.branches j))
    (hstill : ∀ s s', P s → Still j s s' → P s') : Stays j Unmarked P :=
  ⟨fun hr h => hstill _ _ h (hr.resting (hrest _ h)),
    fun hn h => hstill _ _ h (.of_note rfl rfl hn)⟩

theorem stays_filed (stages : List WorkflowStage) (records : List StepExecution) :
    Stays (V := V) j Unmarked (Filed j stages records) :=
  stays_of_still (fun _ h => h.resting) fun _ _ h hs => h.still hs

theorem stays_due (done rest : List WorkflowStep) (p : Progress V) :
    Stays j Unmarked (Due j done rest p) :=
  stays_of_still (fun _ h => h.resting) fun _ _ h hs => h.still hs

theorem stays_apart {s₀ : State V} (hrest : Resting (s₀.branches j)) (id : String) :
    Stays j (MarkOf j id) (Apart j id s₀) := by
  refine ⟨?_, ?_⟩
  · intro s s' hr h
    have hs := hr.resting (by rw [h.branches]; exact hrest)
    exact ⟨hs.branches.trans h.branches,
      fun id' hne m => (hs.marks id' m).trans (h.marks id' hne m)⟩
  · intro s n hn h
    exact ⟨h.branches, fun id' hne m =>
      (sameMarks_note hn (fun heq => hne heq.2.symm) m).trans (h.marks id' hne m)⟩

theorem not_finished {id : String} (hbranch : s.branches j id = none)
    (hconcluded : marked j id .concluded s.history = false) : ¬Finished j id s := by
  rintro (h | ⟨-, ⟨exc, h⟩, -⟩)
  · rw [hconcluded] at h
    cases h
  · rw [hbranch] at h
    cases h

theorem Due.rest_open {done rest : List WorkflowStep} {p : Progress V} (h : Due j done rest p s) :
    ∀ step ∈ rest, ¬Finished j step.id s ∧ marked j step.id .skipped s.history = false :=
  fun step hstep => ⟨not_finished (h.absent step hstep) (h.unmarked step hstep .concluded),
    h.unmarked step hstep .skipped⟩

theorem Tally.filed {stages : List WorkflowStage} {records : List StepExecution}
    (h : Tally j s (stages.flatMap (·.steps)) records) (hrest : Resting (s.branches j))
    (hnone : ∀ step ∈ stages.flatMap (·.steps), ¬Interrupted j step.id s) :
    Filed j stages records s := by
  refine ⟨hrest, h.distinct, h.skipped, iff_of_true h.finished ?_⟩
  rintro ⟨stage, hstage, a, ha, -, -, hinterrupted, -⟩
  exact hnone a (List.mem_flatMap.mpr ⟨stage, hstage, ha⟩) hinterrupted

end Frames

/-! ### The stages -/

/-- What a part of the stages leaves: the steps `rest` are next, or the records are filed.  Nothing
is said of an exception that `execute` does not catch. -/
def Filing (j : Nat) (stages : List WorkflowStage) (done rest : List WorkflowStep)
    (r : Progress V × Option Halt) (s : State V) : Prop :=
  match r.2 with
  | none => Due j done rest r.1 s
  | some halt => (∀ exc, halt ≠ .escaped exc) → Filed j stages (closing r.1 (some halt)) s

section Run

variable {e : Execution} {stages : List WorkflowStage} {done rest : List WorkflowStep}
  {p : Progress V} {s s' : State V} {step : WorkflowStep}

theorem Due.not_interrupted (h : Due e.owner done rest p s) :
    ∀ step ∈ done ++ rest, ¬Interrupted e.owner step.id s := by
  intro step hstep hinterrupted
  rcases List.mem_append.mp hstep with hstep | hstep
  · exact h.returned step hstep ⟨_, hinterrupted⟩
  · rw [Interrupted, h.absent step hstep] at hinterrupted
    cases hinterrupted

theorem Due.filed (h : Due e.owner done rest p s)
    (hsteps : stages.flatMap (·.steps) = done ++ rest) : Filed e.owner stages p.records s := by
  refine Tally.filed ?_ h.resting ?_
  · rw [hsteps]
    exact h.tally.skips h.rest_open
  · rw [hsteps]
    exact h.not_interrupted

theorem Due.apart (h : Due e.owner done (step :: rest) p s)
    (hnodup : ((done ++ step :: rest).map (·.id)).Nodup) (ha : Apart e.owner step.id s s') :
    Due e.owner done rest p s' ∧ s'.branches e.owner step.id = none := by
  obtain ⟨hdone, hrest⟩ := not_mem_of_nodup hnodup
  have hothers : ∀ l : List WorkflowStep, step.id ∉ l.map (·.id) →
      ∀ step' ∈ l, SameMarks e.owner step'.id s s' := by
    intro l hl step' hstep'
    refine ha.marks step'.id ?_
    intro heq
    exact hl (List.mem_map.mpr ⟨step', hstep', heq⟩)
  refine ⟨⟨?_, ?_, ?_, ?_, h.tally.congr ?_ (hothers done hdone)⟩, ?_⟩
  · rw [ha.branches]
    exact h.resting
  · rw [ha.branches]
    exact fun step' hstep' => h.absent step' (List.mem_cons_of_mem _ hstep')
  · exact fun step' hstep' m => (hothers rest hrest step' hstep' m).trans
      (h.unmarked step' (List.mem_cons_of_mem _ hstep') m)
  · unfold BranchRaised
    rw [ha.branches]
    exact h.returned
  · intro step' _
    rw [ha.branches]
  · rw [ha.branches]
    exact h.absent step List.mem_cons_self

theorem Due.filed_at (h : Due e.owner done rest p s)
    (hbranch : s.branches e.owner step.id = none)
    (hsteps : stages.flatMap (·.steps) = done ++ step :: rest) {records : List StepExecution}
    (htally : Tally e.owner s (done ++ [step]) records) : Filed e.owner stages records s := by
  have hassoc : done ++ step :: rest = (done ++ [step]) ++ rest := by simp
  rw [hassoc] at hsteps
  refine Tally.filed ?_ h.resting ?_
  · rw [hsteps]
    exact htally.skips h.rest_open
  · rw [hsteps]
    intro step' hstep'
    by_cases hthis : step' = step
    · rw [hthis, Interrupted, hbranch]
      simp
    · refine h.not_interrupted step' ?_
      simpa [hthis] using hstep'

theorem runSequential_files {steps : List WorkflowStep}
    (hsteps : stages.flatMap (·.steps) = done ++ (steps ++ rest))
    (hnodup : ((done ++ (steps ++ rest)).map (·.id)).Nodup) (ht : Told s)
    (h : Due e.owner done (steps ++ rest) p s) :
    (runSequential e.owner e p steps).Spec (recordLogic e.owner)
      (fun r s' => Told s' ∧ Filing e.owner stages (done ++ steps) rest r s')
      (fun _ _ => True) s := by
  induction steps generalizing done p s with
  | nil => exact ⟨ht, by simpa [runSequential, Filing] using h⟩
  | cons step steps ih =>
    have hassoc : done ++ (step :: steps ++ rest) = (done ++ [step]) ++ (steps ++ rest) := by simp
    have hassoc' : done ++ step :: steps = (done ++ [step]) ++ steps := by simp
    have hone : ((done ++ [step]).map (·.id)).Nodup := by
      rw [hassoc, List.map_append, List.nodup_append] at hnodup
      exact hnodup.1
    have hopen : Open e.owner e step (Apart e.owner step.id s) s :=
      ⟨⟨Or.inl ⟨rfl, h.absent step List.mem_cons_self⟩, ⟨rfl, fun _ _ _ => rfl⟩,
        h.unmarked step List.mem_cons_self .skipped⟩,
        h.unmarked step List.mem_cons_self .concluded⟩
    refine spec_bind.mpr (spec_observe.mpr
      ((runStep_fate (stays_apart h.resting step.id) ht hopen p.outputs).mono ?_ ?_))
    · rintro result s' ⟨⟨ht', ha⟩, hfate⟩
      obtain ⟨hdue, hbranch⟩ := h.apart hnodup ha
      rw [hassoc'] 
      rw [hassoc] at hsteps hnodup
      refine ih hsteps hnodup ht' ⟨hdue.resting, hdue.absent, hdue.unmarked, ?_, ?_⟩
      · intro step' hstep'
        rcases List.mem_append.mp hstep' with hstep' | hstep'
        · exact hdue.returned step' hstep'
        · rw [List.mem_singleton.mp hstep', BranchRaised, hbranch]
          simp
      · rw [add_records]
        exact hdue.tally.add hone hfate.1 hfate.2
    · rintro exc s' ⟨⟨ht', ha⟩, hfate⟩
      obtain ⟨hdue, hbranch⟩ := h.apart hnodup ha
      refine ⟨ht', fun hescaped => ?_⟩
      cases exc with
      | stepFailed record =>
        refine hdue.filed_at hbranch hsteps (hdue.tally.add hone hfate.1.1 fun hskipped => ?_)
        rw [hfate.2.1] at hskipped
        cases hskipped
      | executionCancelled =>
        refine hdue.filed_at hbranch hsteps (hdue.tally.skips fun step' hstep' => ?_)
        obtain rfl := List.mem_singleton.mp hstep'
        exact ⟨not_finished hbranch (hfate.2.2 rfl), hfate.2.1⟩
      | _ => exact absurd rfl (hescaped _)

/-- A stage whose branches have ended leaves what is due besides it. -/
theorem Due.joined {steps : List WorkflowStep} {outcomes : List (Called (StepResult V))}
    (hnodup : ((done ++ (steps ++ rest)).map (·.id)).Nodup)
    (h : Due e.owner done (steps ++ rest) p s) (ht : Told s')
    (hr : Minds e.owner (s.fork e steps p.outputs) s')
    (hended : steps.map (fun step => s'.branches e.owner step.id) =
      outcomes.map fun outcome => some (.done outcome)) :
    Due e.owner done rest p s' ∧ Joined e.owner steps (steps.zip outcomes) s' := by
  obtain ⟨hfst, hpairs⟩ := outcomes_of_join hended
  -- The steps of other stages are as they were before the fork.
  have hbeside : ∀ id, id ∉ steps.map (·.id) →
      s'.branches e.owner id = s.branches e.owner id ∧ SameMarks e.owner id s s' := by
    intro id hid
    have hforked := fork_branches (e := e) steps p.outputs s hid
    have hnoted : SameMarks e.owner id s (s.fork e steps p.outputs) :=
      sameMarks_unmarked (n := .forked e.owner) rfl rfl e.owner id
    rcases h.resting id with hb | ⟨outcome, hb⟩
    · rw [hb] at hforked
      exact ⟨(hr.rely.absent id hforked).trans hb.symm, fun m =>
        (hr.permitted _ id (Or.inl ⟨rfl, hforked⟩) m).trans (hnoted m)⟩
    · rw [hb] at hforked
      exact ⟨(hr.rely.done _ id outcome hforked).trans hb.symm, fun m =>
        (hr.final id outcome hforked m).trans (hnoted m)⟩
  have hapart : ∀ step, step ∈ done ∨ step ∈ rest → step.id ∉ steps.map (·.id) := by
    rw [List.map_append, List.nodup_append, List.map_append, List.nodup_append] at hnodup
    rintro step (hstep | hstep) hmem
    · exact hnodup.2.2 _ (List.mem_map_of_mem hstep) _ (List.mem_append_left _ hmem) rfl
    · exact hnodup.2.1.2.2 _ hmem _ (List.mem_map_of_mem hstep) rfl
  have hdone : ∀ step ∈ done, s'.branches e.owner step.id = s.branches e.owner step.id ∧
      SameMarks e.owner step.id s s' :=
    fun step hstep => hbeside step.id (hapart step (Or.inl hstep))
  refine ⟨⟨?_, ?_, ?_, ?_, ?_⟩, hfst, hpairs, fun pair hpair => ht.done _ _ _ (hpairs pair hpair)⟩
  · intro id
    by_cases hid : id ∈ steps.map (·.id)
    · rw [← hfst] at hid
      obtain ⟨step, hstep, rfl⟩ := List.mem_map.mp hid
      obtain ⟨pair, hpair, rfl⟩ := List.mem_map.mp hstep
      exact Or.inr ⟨pair.2, hpairs pair hpair⟩
    · rw [(hbeside id hid).1]
      exact h.resting id
  · intro step hstep
    rw [(hbeside step.id (hapart step (Or.inr hstep))).1]
    exact h.absent step (List.mem_append_right _ hstep)
  · exact fun step hstep m => ((hbeside step.id (hapart step (Or.inr hstep))).2 m).trans
      (h.unmarked step (List.mem_append_right _ hstep) m)
  · intro step hstep
    rw [BranchRaised, (hdone step hstep).1]
    exact h.returned step hstep
  · exact h.tally.congr (fun step hstep => (hdone step hstep).1) fun step hstep =>
      (hdone step hstep).2

section Joined

variable {steps : List WorkflowStep} {pairs : List (WorkflowStep × Called (StepResult V))}

theorem interrupted_of_any (hj : Joined e.owner steps pairs s)
    (hany : pairs.any interrupted? = true) : ∃ step ∈ steps, Interrupted e.owner step.id s := by
  obtain ⟨⟨step, outcome⟩, hpair, hinterrupted⟩ := List.any_eq_true.mp hany
  have hbranch := hj.branches _ hpair
  have hstep : step ∈ steps := by
    rw [← hj.steps]
    exact List.mem_map_of_mem hpair
  refine ⟨step, hstep, ?_⟩
  cases outcome with
  | returned result => cases hinterrupted
  | raised exc =>
    cases exc with
    | executionCancelled => exact hbranch
    | _ => cases hinterrupted

theorem not_interrupted_of_any (hj : Joined e.owner steps pairs s)
    (hany : pairs.any interrupted? = false) : ∀ step ∈ steps, ¬Interrupted e.owner step.id s := by
  intro step hstep hinterrupted
  rw [← hj.steps] at hstep
  obtain ⟨⟨step, outcome⟩, hpair, rfl⟩ := List.mem_map.mp hstep
  have hbranch := hj.branches _ hpair
  rw [Interrupted, hbranch] at hinterrupted
  obtain rfl := Branch.done.inj (Option.some.inj hinterrupted)
  exact List.any_eq_false.mp hany _ hpair rfl

theorem returned_of_none (hj : Joined e.owner steps pairs s)
    (hany : pairs.any interrupted? = false) (hnone : pairs.filterMap failure? = []) :
    ∀ step ∈ steps, ¬BranchRaised e.owner step.id s := by
  rintro step hstep ⟨exc, hraised⟩
  have hnot := not_interrupted_of_any hj hany step hstep
  rw [← hj.steps] at hstep
  obtain ⟨⟨step, outcome⟩, hpair, rfl⟩ := List.mem_map.mp hstep
  have hbranch := hj.branches _ hpair
  rw [hraised] at hbranch
  obtain rfl : Called.raised exc = outcome := Branch.done.inj (Option.some.inj hbranch)
  have hfailure := List.filterMap_eq_nil_iff.mp hnone _ hpair
  cases exc with
  | executionCancelled => exact hnot hraised
  | _ => cases hfailure

/-- A stage that was cancelled files the records of its branches that returned. -/
theorem Due.cancelled (h : Due e.owner done rest p s) (hj : Joined e.owner steps pairs s)
    {stage : WorkflowStage} (hstage : stage ∈ stages) (heq : stage.steps = steps)
    (hsteps : stages.flatMap (·.steps) = done ++ (steps ++ rest))
    (hnodup : ((done ++ (steps ++ rest)).map (·.id)).Nodup)
    (hany : pairs.any interrupted? = true) :
    Filed e.owner stages (p.records ++ pairs.filterMap returned?) s := by
  have htally := h.tally.join hj (by
    rw [← List.append_assoc, List.map_append, List.nodup_append] at hnodup
    exact hnodup.1)
  have hcases : ∀ step ∈ stages.flatMap (·.steps), step ∈ done ∨ step ∈ steps ∨ step ∈ rest := by
    rw [hsteps]
    intro step hstep
    simpa using hstep
  refine ⟨h.resting, ?_, ?_, ?_, ?_⟩
  · have hdistinct := htally.distinct
    rw [← List.append_assoc, List.map_append, List.nodup_append] at hdistinct
    exact hdistinct.1
  · intro step hstep hskipped
    rcases hcases step hstep with hstep | hstep | hstep
    · obtain ⟨r, hr, hof⟩ := h.tally.skipped step hstep hskipped
      exact ⟨r, List.mem_append_left _ hr, hof⟩
    · rw [← hj.steps] at hstep
      obtain ⟨pair, hpair, rfl⟩ := List.mem_map.mp hstep
      obtain ⟨r, hr, hstatus⟩ := hj.skipped hpair hskipped
      exact ⟨r, List.mem_append_right _ (List.mem_filterMap.mpr ⟨pair, hpair, hr⟩),
        stepId_of_returned (hj.fates pair hpair) hr, hstatus⟩
    · rw [h.unmarked step hstep .skipped] at hskipped
      cases hskipped
  · -- The record of a branch that failed is not filed.
    rintro hfinished ⟨stage', hstage', -, -, b, hb, -, hfinishedB, exc, hraised⟩
    have hmem := hfinished b (List.mem_flatMap.mpr ⟨stage', hstage', hb⟩) hfinishedB
    have hinStage : b ∈ steps := by
      rcases hcases b (List.mem_flatMap.mpr ⟨stage', hstage', hb⟩) with hb | hb | hb
      · exact absurd ⟨exc, hraised⟩ (h.returned b hb)
      · exact hb
      · rw [h.absent b hb] at hraised
        cases hraised
    obtain ⟨r, hr, hid⟩ := List.mem_map.mp hmem
    rcases List.mem_append.mp hr with hr | hr
    · obtain ⟨step, hstep, hstepId⟩ := List.mem_map.mp (h.tally.known r hr)
      rw [List.map_append, List.nodup_append] at hnodup
      refine hnodup.2.2 _ (List.mem_map_of_mem hstep) b.id ?_ (hstepId.trans hid)
      exact List.mem_map_of_mem (List.mem_append_left _ hinStage)
    · obtain ⟨pair, hpair, hreturned⟩ := List.mem_filterMap.mp hr
      have hbranch := hj.branches pair hpair
      rw [← stepId_of_returned (hj.fates pair hpair) hreturned, hid, hraised] at hbranch
      obtain ⟨step, outcome⟩ := pair
      obtain rfl : Called.raised exc = outcome := Branch.done.inj (Option.some.inj hbranch)
      cases hreturned
  · intro hnotLost step hstep hfinished
    rw [List.map_append]
    rcases hcases step hstep with hstep | hstep | hstep
    · exact List.mem_append_left _ (h.tally.finished step hstep hfinished)
    · -- Its branch returned, or the failure of the stage is lost.
      obtain ⟨a, ha, hinterrupted⟩ := interrupted_of_any hj hany
      have hstep' := hstep
      rw [← hj.steps] at hstep'
      obtain ⟨⟨step, outcome⟩, hpair, rfl⟩ := List.mem_map.mp hstep'
      have hbranch := hj.branches _ hpair
      cases outcome with
      | returned result =>
        refine List.mem_append_right _ (List.mem_map.mpr ⟨result.1, ?_, (hj.fates _ hpair).1⟩)
        exact List.mem_filterMap.mpr ⟨_, hpair, rfl⟩
      | raised exc =>
        subst heq
        exact absurd ⟨stage, hstage, a, ha, step, hstep, hinterrupted, hfinished, exc, hbranch⟩
          hnotLost
    · exact absurd hfinished (h.rest_open step hstep).1

end Joined

theorem fork_marks {steps : List WorkflowStep} (h : Due e.owner done (steps ++ rest) p s)
    (ht : Told s) (snapshot : Outputs V) :
    Marks e.owner s (s.fork e steps snapshot) ∧ Told (s.fork e steps snapshot) := by
  have hsame : ∀ owner id, SameMarks owner id s (s.fork e steps snapshot) :=
    sameMarks_unmarked (n := .forked e.owner) rfl rfl
  refine ⟨marks_of_same hsame, ?_, ?_⟩
  · intro owner id e' step' snapshot' hb m
    rcases fork_cases (e := e) steps snapshot s owner id with heq | ⟨rfl, step, hstep, rfl, -⟩
    · exact (hsame owner id m).trans
        (ht.created owner id e' step' snapshot' (heq.symm.trans hb) m)
    · exact (hsame _ _ m).trans (h.unmarked step (List.mem_append_left _ hstep) m)
  · intro owner id outcome hb
    rcases fork_cases (e := e) steps snapshot s owner id with heq | ⟨rfl, step, -, rfl, heq⟩
    · exact (ht.done owner id outcome (heq.symm.trans hb)).congr (hsame owner id)
    · rw [heq] at hb
      cases hb

theorem runParallel_files {stage : WorkflowStage} (hstage : stage ∈ stages)
    (hsteps : stages.flatMap (·.steps) = done ++ (stage.steps ++ rest))
    (hnodup : ((done ++ (stage.steps ++ rest)).map (·.id)).Nodup) (ht : Told s)
    (h : Due e.owner done (stage.steps ++ rest) p s) :
    (runParallel e p stage.steps).Spec (recordLogic e.owner)
      (fun r s' => Told s' ∧ Filing e.owner stages (done ++ stage.steps) rest r s')
      (fun _ _ => True) s := by
  obtain ⟨hmarks, htold⟩ := fork_marks h ht p.outputs
  refine spec_bind.mpr (spec_modify.mpr ⟨hmarks, htold, ?_⟩)
  refine spec_bind.mpr fun s' ht' hr joined ha => ?_
  cases joined with
  | none => exact ⟨ht', fun hescaped => absurd rfl (hescaped .cancelledError)⟩
  | some outcomes =>
    obtain ⟨hdue, hj⟩ := h.joined hnodup ht' hr ha.1
    have htally := hdue.tally.join hj (by
      rw [← List.append_assoc, List.map_append, List.nodup_append] at hnodup
      exact hnodup.1)
    obtain ⟨hrecords, hfailures, hcancelled⟩ :=
      merge_eq (stage.steps.zip outcomes) ⟨p, [], false⟩
    rw [List.nil_append] at hfailures
    rw [Bool.false_or] at hcancelled
    refine ⟨ht', ?_⟩
    show Filing _ _ _ _ (Merged.finish _) s'
    unfold Merged.finish
    cases hany : (stage.steps.zip outcomes).any interrupted? with
    | true =>
      rw [hcancelled, hany, if_pos rfl]
      intro _
      show Filed e.owner stages (Merged.progress _).records s'
      rw [hrecords]
      exact hdue.cancelled hj hstage rfl hsteps hnodup hany
    | false =>
      rw [hcancelled, hany, if_neg (by simp), hfailures]
      cases hfailed : (stage.steps.zip outcomes).filterMap failure? with
      | nil =>
        refine ⟨hdue.resting, hdue.absent, hdue.unmarked, ?_, ?_⟩
        · intro step hstep
          rcases List.mem_append.mp hstep with hstep | hstep
          · exact hdue.returned step hstep
          · exact returned_of_none hj hany hfailed step hstep
        · rw [hfailed, List.append_nil] at htally
          rw [hrecords]
          exact htally
      | cons first others =>
        intro _
        rw [hfailed, ← List.append_assoc] at htally
        rw [← List.append_assoc] at hsteps
        refine Tally.filed ?_ hdue.resting ?_
        · show Tally e.owner s' _ ((Merged.progress _).records ++ _)
          rw [hsteps, hrecords]
          exact htally.skips hdue.rest_open
        · rw [hsteps]
          intro step hstep
          rcases List.mem_append.mp hstep with hstep | hstep
          · rcases List.mem_append.mp hstep with hstep | hstep
            · exact hdue.not_interrupted step (List.mem_append_left _ hstep)
            · exact not_interrupted_of_any hj hany step hstep
          · exact hdue.not_interrupted step (List.mem_append_right _ hstep)

theorem runStage_files {stage : WorkflowStage} (hstage : stage ∈ stages)
    (hsteps : stages.flatMap (·.steps) = done ++ (stage.steps ++ rest))
    (hnodup : ((done ++ (stage.steps ++ rest)).map (·.id)).Nodup) (ht : Told s)
    (h : Due e.owner done (stage.steps ++ rest) p s) :
    (runStage e.owner e p stage).Spec (recordLogic e.owner)
      (fun r s' => Told s' ∧ Filing e.owner stages (done ++ stage.steps) rest r s')
      (fun _ _ => True) s := by
  refine spec_bind.mpr (spec_observe.mpr
    ((checkpoint_steady (stays_due done (stage.steps ++ rest) p) .main e.owner s ht h).mono ?_ ?_))
  · rintro ⟨⟩ s' ⟨ht', h'⟩
    dsimp only
    cases stage.mode with
    | sequential => exact runSequential_files hsteps hnodup ht' h'
    | parallel => exact runParallel_files hstage hsteps hnodup ht' h'
  · rintro exc s' ⟨⟨ht', h'⟩, hexc⟩
    refine ⟨ht', fun hescaped => ?_⟩
    cases exc with
    | stepFailed record => cases hexc
    | executionCancelled => exact h'.filed hsteps
    | _ => exact absurd rfl (hescaped _)

theorem runStages_files {left : List WorkflowStage} (hleft : ∀ stage ∈ left, stage ∈ stages)
    (hsteps : stages.flatMap (·.steps) = done ++ left.flatMap (·.steps))
    (hnodup : ((stages.flatMap (·.steps)).map (·.id)).Nodup) (ht : Told s)
    (h : Due e.owner done (left.flatMap (·.steps)) p s) :
    (runStages e.owner e p left).Spec (recordLogic e.owner)
      (fun r s' => Told s' ∧ ((∀ exc, r.2 ≠ some (.escaped exc)) →
        Filed e.owner stages (closing r.1 r.2) s')) (fun _ _ => True) s := by
  induction left generalizing done p s with
  | nil => exact ⟨ht, fun _ => h.filed hsteps⟩
  | cons stage left ih =>
    rw [List.flatMap_cons] at hsteps h
    obtain ⟨hstage, hrest⟩ := List.forall_mem_cons.mp hleft
    refine spec_bind.mpr ((runStage_files hstage hsteps (hsteps ▸ hnodup) ht h).mono ?_
      fun _ _ hs => hs)
    rintro ⟨p', halt⟩ s' ⟨ht', hfiling⟩
    cases halt with
    | none =>
      rw [← List.append_assoc] at hsteps
      exact ih hrest hsteps ht' hfiling
    | some halt =>
      exact ⟨ht', fun hescaped => hfiling fun exc heq => hescaped exc (by rw [heq])⟩

end Run

/-! ### The end of an execution -/

section Closing

variable {j : Nat} {e : Execution} {P : State V → Prop} {cfg : Config V} {s : State V}

theorem compensateAll_stays (hP : Stays j Unmarked P) (complete : Bool)
    (l : List (WorkflowStep × V)) :
    (compensateAll j e complete l).Keeps (recordLogic j) P := by
  induction l generalizing complete with
  | nil => exact keeps_ret complete
  | cons c l ih =>
    refine Proc.Keeps.bind (keeps_modify fun s ht h => ?_) fun _ => ?_
    · obtain ⟨hmarks, htold⟩ := note_unmarked (j := j) (n := .compensated j c.1.id c.2) rfl ht
      exact ⟨hmarks, htold, hP.note rfl h⟩
    refine (quiet_perform.keeps fun _ _ hr h => hP.minds hr h).bind fun answer => ?_
    cases answer with
    | returned => exact (emit_steady hP .main e rfl).keeps.bind fun _ => ih complete
    | raised exc =>
      show Proc.Keeps _ _ (if exc.caught = true then _ else _)
      split
      · exact (emit_steady hP .main e rfl).keeps.bind fun _ => ih false
      · exact keeps_raise exc

theorem rollback_stays (hP : Stays j Unmarked P) (status : ExecutionStatus)
    (completed : List (WorkflowStep × V)) :
    (rollback j e status completed).Keeps (recordLogic j) P := by
  unfold rollback
  split
  · refine (emit_steady hP .main e rfl).keeps.bind fun _ => ?_
    refine (compensateAll_stays hP true completed.reverse).bind fun complete => ?_
    exact (emit_steady hP .main e rfl).keeps.bind fun _ => keeps_ret true
  · exact keeps_ret false

theorem close_files {stages : List WorkflowStage} {p : Progress V} (verdict : Verdict V)
    (ht : Told s) (h : Filed j stages p.records s) :
    (close cfg j e p verdict).Spec (recordLogic j)
      (fun ex s' => Told s' ∧ Filed j stages ex.steps s') (fun _ _ => True) s := by
  have hP := stays_filed (V := V) (j := j) stages p.records
  refine (rollback_stays hP verdict.status p.compensations).spec_bind ht h ?_ fun _ _ _ _ => trivial
  intro rollbackPerformed s1 ht1 h1
  refine spec_bind.mpr (spec_require.mpr ⟨fun _ => ?_, fun _ => trivial⟩)
  refine (emit_steady hP .main e rfl).spec_bind ht1 h1 ?_ fun _ _ _ _ _ => trivial
  intro _ s2 ht2 h2
  refine (emit_steady hP .main e rfl).spec_bind ht2 h2 ?_ fun _ _ _ _ _ => trivial
  intro _ s3 ht3 h3
  set execution : WorkflowExecution V := ⟨e.id, e.definition.id, e.definition.version,
    e.definition.capabilityId, verdict.status, p.records, verdict.result, verdict.errorCode,
    rollbackPerformed⟩
  have hsame : ∀ owner id, SameMarks owner id s3 (s3.settle j execution) :=
    sameMarks_unmarked (n := .settled j execution _ _) rfl rfl
  have htold : Told (s3.settle j execution) := ht3.congr rfl hsame
  exact ⟨marks_of_same hsame, htold, htold, h3.still ⟨rfl, hsame j⟩⟩

theorem finish_files {stages : List WorkflowStage} {p : Progress V} {halt : Option Halt}
    (ht : Told s)
    (h : (∀ exc, halt ≠ some (.escaped exc)) → Filed j stages (closing p halt) s) :
    (finish cfg j e p halt).Spec (recordLogic j)
      (fun ex s' => Told s' ∧ Filed j stages ex.steps s') (fun _ _ => True) s := by
  cases halt with
  | none =>
    have hfiled : Filed j stages p.records s := h (by simp)
    have hinvalid : ∀ result exc s', Told s' → Filed j stages p.records s' →
        (resultInvalid result exc).Spec (recordLogic j)
          (fun verdict s' => (close cfg j e p verdict).Spec (recordLogic j)
            (fun ex s' => Told s' ∧ Filed j stages ex.steps s') (fun _ _ => True) s')
          (fun _ _ => True) s' := by
      intro result exc s' ht' h'
      cases exc with
      | typeError => exact close_files _ ht' h'
      | valueError => exact close_files _ ht' h'
      | _ => trivial
    refine spec_bind.mpr (spec_bind.mpr fun s' ht' hr answer _ => ?_)
    have h' := (stays_filed stages p.records).minds hr hfiled
    cases answer with
    | raised exc => exact hinvalid none exc s' ht' h'
    | returned result =>
      rw [spec_ret]
      dsimp only
      cases cfg.resultReceipt result with
      | raised exc => exact hinvalid (some result) exc s' ht' h'
      | returned receipt => exact close_files _ ht' h'
  | some halt =>
    cases halt with
    | escaped exc => trivial
    | step record => exact close_files _ ht (h (by simp))
    | stage code => exact close_files _ ht (h (by simp))
    | cancelled => exact close_files _ ht (h (by simp))

theorem execute_files {definition : WorkflowDefinition} {executionId : Option String}
    {uuid : String} (ht : Told s)
    (h : Due j [] (definition.stages.flatMap (·.steps)) .empty s) :
    (execute cfg j definition executionId uuid).Spec (recordLogic j)
      (fun ex s' => Filed j definition.stages ex.steps s') (fun _ _ => True) s := by
  have hP := stays_due (V := V) (j := j) [] (definition.stages.flatMap (·.steps)) .empty
  refine spec_bind.mpr (spec_bind.mpr
    (spec_require.mpr ⟨fun _ => ?_, fun _ => trivial⟩))
  set e : Execution := ⟨j, chooseId executionId uuid, definition⟩
  have hsame : ∀ owner id, SameMarks owner id s (s.register e) :=
    sameMarks_unmarked (n := .opened e.owner e.id) rfl rfl
  have htold : Told (s.register e) := ht.congr rfl hsame
  refine spec_bind.mpr (spec_modify.mpr ⟨marks_of_same hsame, htold, ?_⟩)
  refine (emit_steady hP .main e rfl).spec_bind htold (h.still ⟨rfl, hsame j⟩) ?_
    fun _ _ _ _ _ => trivial
  intro _ s1 ht1 h1
  refine (emit_steady hP .main e rfl).spec_bind ht1 h1 ?_ fun _ _ _ _ _ => trivial
  intro _ s2 ht2 h2
  refine spec_bind.mpr ((runStages_files (e := e) (fun _ hstage => hstage) rfl
    definition.distinct ht2 h2).mono ?_ fun _ _ _ => trivial)
  rintro ⟨p, halt⟩ s3 ⟨ht3, h3⟩
  exact (finish_files ht3 h3).mono (fun _ _ hs => hs.2) fun _ _ _ => trivial

end Closing

/-! ### The contract -/

section Contract

variable {cfg : Config V} {j : Nat} {s : State V}

theorem Told.setBranch {owner : Nat} {id : String} {branch : Branch V} {n : Note V} (h : Told s)
    (hn : n.mark? = none) (hcreated : ∀ e step snapshot, branch ≠ .created e step snapshot)
    (hdone : ∀ outcome, branch = .done outcome → Fate owner id s.history outcome) :
    Told (s.setBranch owner id branch n) := by
  have hsame : ∀ owner' id', SameMarks owner' id' s (s.setBranch owner id branch n) :=
    sameMarks_unmarked (n := n) rfl hn
  have hcases : ∀ o i b, (s.setBranch owner id branch n).branches o i = some b →
      (o = owner ∧ i = id ∧ b = branch) ∨ s.branches o i = some b := by
    intro o i b hb
    by_cases hthis : o = owner ∧ i = id
    · obtain ⟨rfl, rfl⟩ := hthis
      rw [setBranch_self] at hb
      exact Or.inl ⟨rfl, rfl, (Option.some.inj hb).symm⟩
    · rw [setBranch_ne branch n s hthis] at hb
      exact Or.inr hb
  refine ⟨?_, ?_⟩
  · intro o i e step snapshot hb m
    rcases hcases o i _ hb with ⟨-, -, heq⟩ | hold
    · exact absurd heq.symm (hcreated e step snapshot)
    · exact (hsame o i m).trans (h.created o i e step snapshot hold m)
  · intro o i outcome hb
    rcases hcases o i _ hb with ⟨rfl, rfl, heq⟩ | hold
    · exact (hdone outcome heq.symm).congr (hsame o i)
    · exact (h.done o i outcome hold).congr (hsame o i)

theorem runBranch_fate {owner : Nat} {id : String} (hi : Inv s) (ht : Told s)
    (hcreated : Branch.created? (s.branches owner id) = true) :
    (runBranch j owner id).Spec (recordLogic j) (fun _ _ => True) (fun _ _ => True) s := by
  obtain ⟨e, step, snapshot, hfound⟩ := Branch.created?_iff.mp hcreated
  obtain ⟨rfl, rfl, -, -⟩ := hi.created owner id e step snapshot hfound
  refine spec_bind.mpr (spec_reading.mpr ?_)
  rw [hfound]
  have hmoved : ∀ (s : State V) branch (n : Note V), n.mark? = none →
      Marks j s (s.setBranch e.owner step.id branch n) :=
    fun s branch n hn => marks_of_same (sameMarks_unmarked (n := n) rfl hn)
  have hfree : ∀ m, marked e.owner step.id m (s.setBranch e.owner step.id (.running j)
      (.entered j e.owner step.id)).history = false :=
    fun m => (sameMarks_unmarked (s := s) (n := .entered j e.owner step.id) rfl rfl _ _ m).trans
      (ht.created _ _ e step snapshot hfound m)
  refine spec_bind.mpr (spec_modify.mpr ⟨hmoved s _ _ rfl,
    ht.setBranch rfl (by simp) (by simp), ?_⟩)
  have hP : Stays j (MarkOf e.owner step.id)
      fun s : State V => s.branches e.owner step.id = some (.running j) :=
    ⟨fun hr h => (hr.rely.running _ _).mpr h, fun _ h => h⟩
  have hrunning := setBranch_self e.owner step.id (.running j) (.entered j e.owner step.id) s
  have hend : ∀ outcome s', Told s' → Fate e.owner step.id s'.history (called outcome) →
      (Proc.modify (State.setBranch e.owner step.id (.done (called outcome))
        (.left j e.owner step.id)) : Task V Unit).Spec (recordLogic j)
        (fun _ _ => True) (fun _ _ => True) s' := by
    intro outcome s' ht' hfate
    refine ⟨hmoved s' _ _ rfl, ht'.setBranch rfl (by simp) ?_, trivial⟩
    intro outcome' heq
    rw [← Branch.done.inj heq]
    exact hfate
  refine spec_bind.mpr (spec_observe.mpr ((runStep_fate hP
    (ht.setBranch rfl (by simp) (by simp))
    ⟨⟨Or.inr hrunning, hrunning, hfree .skipped⟩, hfree .concluded⟩ snapshot).mono ?_ ?_))
  · rintro result s' ⟨⟨ht', -⟩, hfate⟩
    exact hend (.ok result) s' ht' hfate
  · rintro exc s' ⟨⟨ht', -⟩, hfate⟩
    exact hend (.error exc) s' ht' hfate

def Recorded (j : Nat) (t : Request) (reply : Reply V) (s : State V) : Prop :=
  match t, reply with
  | .execute definition _ _, .execution ex => Filed j definition.stages ex.steps s
  | _, _ => True

/-- The state knows nothing of the task `j` and of its steps. -/
def Unknown (j : Nat) (s : State V) : Prop :=
  Fresh j s ∧ ∀ id m, marked j id m s.history = false

theorem handler_records {t : Request} (hi : Inv s) (ht : Told s) (hunknown : Unknown j s)
    (hadmits : (engine cfg).admits s t) :
    (handler cfg j t).Spec (recordLogic j) (Recorded j t) (fun _ _ => True) s := by
  obtain ⟨hmarks, htold⟩ := note_unmarked (j := j) (n := .received j t) rfl ht
  refine spec_bind.mpr ⟨hmarks, htold, ?_⟩
  cases t with
  | execute definition executionId uuid =>
    have hdue : Due j [] (definition.stages.flatMap (·.steps)) .empty s :=
      ⟨fun id => Or.inl (hunknown.1.2 id), fun step _ => hunknown.1.2 step.id,
        fun step _ => hunknown.2 step.id, by simp,
        ⟨by simp [Progress.empty], by simp [Progress.empty], by simp, by simp⟩⟩
    exact spec_bind.mpr (execute_files htold (hdue.still (.of_note rfl rfl rfl)))
  | control call executionId =>
    have hP : Stays j Unmarked fun _ : State V => True := ⟨fun _ _ => trivial, fun _ _ => trivial⟩
    refine spec_bind.mpr (spec_bind.mpr (spec_reading.mpr ?_))
    cases (s.note (.received j (.control call executionId))).controls.lookup executionId with
    | none => trivial
    | some e =>
      have hsame : ∀ s : State V, ∀ owner id, SameMarks owner id s (s.control j e.owner call) :=
        fun s => sameMarks_unmarked (n := .controlled j e.owner call) (by cases call <;> rfl) rfl
      have htold' := htold.congr (by cases call <;> rfl) (hsame _)
      refine spec_bind.mpr ⟨marks_of_same (hsame _), htold', ?_⟩
      refine (emit_steady hP .control e ?_).spec_bind htold' trivial ?_ ?_
      · cases call <;> rfl
      · exact fun _ _ _ _ => trivial
      · exact fun _ _ _ _ _ => trivial
  | branch owner stepId =>
    refine spec_bind.mpr ((runBranch_fate (hi.receive hunknown.1 _) htold hadmits).mono
      (fun _ _ _ => trivial) fun _ _ _ => trivial)

theorem Recorded.minds {t : Request} {reply : Reply V} {s' : State V} (h : Recorded j t reply s)
    (hr : Minds j s s') : Recorded j t reply s' := by
  cases t with
  | execute definition executionId uuid =>
    cases reply with
    | execution ex => exact (stays_filed definition.stages ex.steps).minds hr h
    | flag | branch => trivial
  | control | branch => trivial

end Contract

def recordContract (cfg : Config V) : Contract (heardEngine cfg) where
  inv s := Inv s ∧ Told s
  rely := Minds
  guar j s s' := Guar j s s' ∧ Marks j s s'
  fresh := Unknown
  post j t reply s := Returned j t reply s ∧ Recorded j t reply s
  postE _ t _ _ := Raised t ∧ True
  refl := Minds.refl
  trans _ _ _ _ := Minds.trans
  guar_rely _ _ _ _ hne hg := hg.2.minds hne hg.1
  fresh_rely j _ _ hf hr := ⟨hf.1.rely hr.rely,
    fun id m => (hr.permitted j id (Or.inl ⟨rfl, hf.1.2 id⟩) m).trans (hf.2 id m)⟩
  post_rely _ _ _ _ _ h hr := ⟨h.1.rely hr.rely, h.2.minds hr⟩
  postE_rely _ _ _ _ _ h _ := h
  world _ w := w.elim
  handler _ _ _ hi hf hadmits :=
    (handler_spec hi.1 hf.1 hadmits.1).and (handler_records hi.1 hi.2 hf hadmits.1)
      (fun _ _ hr => hr.rely) fun _ _ _ ha => ha.1

theorem told_initial : Told (State.initial : State V) :=
  ⟨by simp [State.initial], by simp [State.initial]⟩

theorem filed_of_reachable {cfg : Config V} {p : Tasks V}
    (reach : (heardEngine cfg).Reachable .initial p) {j : Nat} {definition : WorkflowDefinition}
    {executionId : Option String} {uuid : String} {ex : WorkflowExecution V}
    (hj : p.tasks[j]? = some (.execute definition executionId uuid, .ret (.execution ex))) :
    Filed j definition.stages ex.steps p.state :=
  (((recordContract cfg).sound ⟨inv_initial, told_initial⟩
    (fun _ => ⟨⟨rfl, fun _ => rfl⟩, fun _ _ => rfl⟩) reach).tasks j _ _ hj).2.2

/-- The records of an execution that returned are complete exactly where no stage had both a
cancelled branch and a branch that failed after its action was started. -/
theorem complete_iff (cfg : Config V) (p : Tasks V)
    (reach : (heardEngine cfg).Reachable .initial p) (j : Nat) (definition : WorkflowDefinition)
    (executionId : Option String) (uuid : String) (ex : WorkflowExecution V)
    (hj : p.tasks[j]? = some (.execute definition executionId uuid, .ret (.execution ex))) :
    Complete j definition.steps ex.steps p.state ↔ ¬Lost j definition.stages p.state := by
  have filed := filed_of_reachable reach hj
  rw [← filed.finished]
  constructor
  · exact fun h step hstep hfinished =>
      (length_recordsOf filed.distinct).mp (h.finished step hstep hfinished)
  · refine fun h => ⟨fun step hstep hfinished => ?_, fun step hstep hskipped => ?_, filed.distinct⟩
    · exact (length_recordsOf filed.distinct).mpr (h step hstep hfinished)
    · obtain ⟨r, hr, hid, hstatus⟩ := filed.skipped step hstep hskipped
      exact ⟨r, hid ▸ recordsOf_eq_singleton filed.distinct hr, hstatus⟩

/-! ### Samples -/

def takes : (o : Op V) → Res o → Bool
  | .append _ event, .raised e | .notify _ event, .raised e =>
      e != .executionCancelled && !event.event.isSkip
  | _, _ => true

theorem taken_of_takes {o : Op V} {r : Res o} (h : takes o r = true) : Taken o r := by
  cases o with
  | append | notify =>
    cases r with
    | returned => trivial
    | raised exc => simpa [takes, Taken] using h
  | _ => trivial

/-- Whether the bus takes what it should in the answer that a move brings. -/
def takenAnswer (p : Tasks V) : Move (Res (V := V)) Request Empty → Bool
  | .resume j answer => match p.tasks[j]? with
    | some (_, .call o _) => takes o (answer o)
    | _ => true
  | _ => true

theorem heardMove_legal [DecidableEq V] (cfg : Config V) (p : Tasks V)
    (m : Move (Res (V := V)) Request Empty) (h : (playableMove p m && takenAnswer p m) = true) :
    (heardEngine cfg).Legal p m := by
  obtain ⟨hplayable, htaken⟩ := Bool.and_eq_true_iff.mp h
  have hlegal := playableMove_legal cfg p m hplayable
  cases m with
  | world w => exact w.elim
  | start t => exact ⟨hlegal, trivial⟩
  | resume j answer =>
    obtain ⟨t, o, k, hj, hanswers⟩ := hlegal
    simp only [takenAnswer, hj] at htaken
    exact ⟨t, o, k, hj, hanswers, taken_of_takes htaken⟩

set_option maxRecDepth 20000 in
/-- A step, a branch that succeeded and a branch that failed: three records. -/
theorem complete_sample :
    Complete 0 sampleDefinition.steps sampleExecution.steps sampleRun.state := by
  have hended : sampleRun.ended 0 = some (.execute sampleDefinition (some "run-one") "uuid",
      some (.ok (.execution sampleExecution))) := by decide +kernel
  have hreach : (heardEngine sampleConfig).Reachable .initial sampleRun :=
    ⟨sampleMoves, System.run_of_checked (heardMove_legal sampleConfig) (by decide +kernel)⟩
  have hnone : ∀ step ∈ sampleDefinition.steps,
      Branch.outcome? (sampleRun.state.branches 0 step.id) ≠
        some (.raised .executionCancelled) := by decide +kernel
  refine (complete_iff sampleConfig sampleRun hreach 0 sampleDefinition (some "run-one") "uuid"
    sampleExecution (Pool.task_of_ended hended)).mpr ?_
  rintro ⟨stage, hstage, a, ha, -, -, hinterrupted, -⟩
  refine hnone a (List.mem_flatMap.mpr ⟨stage, hstage, ha⟩) ?_
  rw [hinterrupted]
  rfl

/-- One branch waits for its action, the other fails; then the workflow is cancelled. -/
def lostMoves : List (Move (Res (V := Nat)) Request Empty) :=
  .start (.execute sampleDefinition (some "run-one") "uuid") ::
    List.replicate 13 (.resume 0 (sampleAnswer (.finished (.returned 7)) [])) ++
    .start (.branch 0 "b") ::
    List.replicate 4 (.resume 1 (sampleAnswer .interrupted [])) ++
    .start (.branch 0 "c") ::
    List.replicate 7 (.resume 2 (sampleAnswer (.finished (.raised .exception)) [])) ++
    .start (.control .cancel "run-one") ::
    List.replicate 2 (.resume 3 (sampleAnswer .interrupted [])) ++
    .resume 1 (sampleAnswer .interrupted []) ::
    List.replicate 12 (.resume 0 (sampleAnswer .timedOut [.raised .executionCancelled,
      .raised (.stepFailed (failedRecord rightStep 1 "ACTION_FAILED"))]))

def lostRun : Tasks Nat := (engine sampleConfig).play (System.initial .initial) lostMoves

def lostExecution : WorkflowExecution Nat where
  id := "run-one"
  workflowId := "w"
  workflowVersion := "1"
  capabilityId := "cap"
  status := .cancelled
  steps := [succeededRecord firstStep 1]
  result := none
  errorCode := some "WORKFLOW_CANCELLED"
  rollbackPerformed := true

set_option maxRecDepth 20000 in
/-- The branch whose action failed for good has no record. -/
theorem incomplete_lost : (heardEngine sampleConfig).Reachable .initial lostRun ∧
    lostRun.ended 0 = some (.execute sampleDefinition (some "run-one") "uuid",
      some (.ok (.execution lostExecution))) ∧
    marked 0 "c" .attempted lostRun.state.history = true ∧
    marked 0 "c" .concluded lostRun.state.history = true ∧
    ¬Complete 0 sampleDefinition.steps lostExecution.steps lostRun.state := by
  have hconcluded : marked 0 "c" .concluded lostRun.state.history = true := by decide +kernel
  refine ⟨⟨lostMoves, ?_⟩, by decide +kernel, by decide +kernel, hconcluded, fun h => ?_⟩
  · exact System.run_of_checked (heardMove_legal sampleConfig) (by decide +kernel)
  · have hone := h.finished rightStep (by decide) (Or.inl hconcluded)
    exact absurd hone (by decide)

end Ares.Workflows
