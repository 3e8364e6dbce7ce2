import Ares.Workflows.Marks

/-! The records of an execution that returned.  Every step that was started and came to its end has
one record and every skipped step has one that says so, except where a branch of a parallel stage
was cancelled: the records of the branches of its stage that failed are lost. -/

namespace Ares.Workflows

open Coop

variable {V : Type}

/-- The branch of a step ended with `_ExecutionCancelled`. -/
def Interrupted (owner : Nat) (stepId : String) (s : State V) : Prop :=
  s.branches owner stepId = some (.done (.raised .executionCancelled))

def BranchRaised (owner : Nat) (stepId : String) (s : State V) : Prop :=
  ∃ exc, s.branches owner stepId = some (.done (.raised exc))

/-- The action of a step was started, and the step came to its end in success or in a failure that
is not tried again. -/
def Finished (owner : Nat) (stepId : String) (s : State V) : Prop :=
  marked owner stepId .concluded s.history = true ∨
    marked owner stepId .attempted s.history = true ∧
      BranchRaised owner stepId s ∧ ¬Interrupted owner stepId s

def recordsOf (stepId : String) (records : List StepExecution) : List StepExecution :=
  records.filter fun r => r.stepId = stepId

/-- One record for every step that finished, one `SKIPPED` record for every step whose condition was
false, and no step twice. -/
structure Complete (owner : Nat) (steps : List WorkflowStep) (records : List StepExecution)
    (s : State V) : Prop where
  finished : ∀ step ∈ steps, Finished owner step.id s → (recordsOf step.id records).length = 1
  skipped : ∀ step ∈ steps, marked owner step.id .skipped s.history = true →
    ∃ r, recordsOf step.id records = [r] ∧ r.status = .skipped
  distinct : (records.map (·.stepId)).Nodup

/-- In a stage, one branch was cancelled and another, whose action was started, failed. -/
def Lost (owner : Nat) (stages : List WorkflowStage) (s : State V) : Prop :=
  ∃ stage ∈ stages, ∃ a ∈ stage.steps, ∃ b ∈ stage.steps,
    Interrupted owner a.id s ∧ Finished owner b.id s ∧ BranchRaised owner b.id s

section RecordsOf

variable {stepId : String} {records : List StepExecution}

theorem recordsOf_eq_singleton (hdistinct : (records.map (·.stepId)).Nodup) {r : StepExecution}
    (hr : r ∈ records) : recordsOf r.stepId records = [r] := by
  induction records with
  | nil => simp at hr
  | cons x records ih =>
    rw [List.map_cons, List.nodup_cons] at hdistinct
    rcases List.mem_cons.mp hr with rfl | hr
    · have hnone : records.filter (fun x => x.stepId = r.stepId) = [] := by
        rw [List.filter_eq_nil_iff]
        intro x hx heq
        exact hdistinct.1 (List.mem_map.mpr ⟨x, hx, of_decide_eq_true heq⟩)
      simp [recordsOf, hnone]
    · have hne : x.stepId ≠ r.stepId := by
        intro heq
        exact hdistinct.1 (List.mem_map.mpr ⟨r, hr, heq.symm⟩)
      have hrest := ih hdistinct.2 hr
      simpa [recordsOf, List.filter_cons, hne] using hrest

theorem length_recordsOf (hdistinct : (records.map (·.stepId)).Nodup) :
    (recordsOf stepId records).length = 1 ↔ stepId ∈ records.map (·.stepId) := by
  constructor
  · intro hlength
    obtain ⟨r, hr⟩ := List.length_eq_one_iff.mp hlength
    have hmem : r ∈ records.filter fun r => r.stepId = stepId := by
      rw [show records.filter _ = [r] from hr]
      exact List.mem_cons_self
    exact List.mem_map.mpr ⟨r, (List.mem_filter.mp hmem).1,
      of_decide_eq_true (List.mem_filter.mp hmem).2⟩
  · intro hmem
    obtain ⟨r, hr, rfl⟩ := List.mem_map.mp hmem
    rw [recordsOf_eq_singleton hdistinct hr, List.length_singleton]

end RecordsOf

/-! ### The results of a parallel stage -/

def returned? : WorkflowStep × Called (StepResult V) → Option StepExecution
  | (_, .returned result) => some result.1
  | _ => none

def failure? : WorkflowStep × Called (StepResult V) → Option StepExecution
  | (_, .returned _) | (_, .raised .executionCancelled) => none
  | (_, .raised (.stepFailed record)) => some record
  | (step, .raised _) => some (failedRecord step 0 "WORKFLOW_STEP_INVALID")

def interrupted? : WorkflowStep × Called (StepResult V) → Bool
  | (_, .raised .executionCancelled) => true
  | _ => false

section Merge

variable {pairs : List (WorkflowStep × Called (StepResult V))}

theorem add_records (p : Progress V) (step : WorkflowStep) (result : StepResult V) :
    (p.add step result).records = p.records ++ [result.1] := by
  obtain ⟨record, output⟩ := result
  cases output <;> rfl

variable (pairs) in
theorem merge_eq (m : Merged V) :
    (merge m pairs).progress.records = m.progress.records ++ pairs.filterMap returned? ∧
      (merge m pairs).failures = m.failures ++ pairs.filterMap failure? ∧
      (merge m pairs).cancelled = (m.cancelled || pairs.any interrupted?) := by
  induction pairs generalizing m with
  | nil => simp [merge]
  | cons pair pairs ih =>
    obtain ⟨step, outcome⟩ := pair
    obtain ⟨hrecords, hfailures, hcancelled⟩ := ih (m.add step outcome)
    rw [merge, hrecords, hfailures, hcancelled]
    cases outcome with
    | returned result =>
      simp [Merged.add, add_records, List.filterMap_cons, returned?, failure?, interrupted?]
    | raised exc =>
      cases exc <;>
        simp [Merged.add, List.filterMap_cons, returned?, failure?, interrupted?]

/-- The outcomes of the branches of a stage, each in its place. -/
structure Joined (owner : Nat) (steps : List WorkflowStep)
    (pairs : List (WorkflowStep × Called (StepResult V))) (s : State V) : Prop where
  steps : pairs.map Prod.fst = steps
  branches : ∀ pair ∈ pairs, s.branches owner pair.1.id = some (.done pair.2)
  fates : ∀ pair ∈ pairs, Fate owner pair.1.id s.history pair.2

section Joined

variable {owner : Nat} {steps : List WorkflowStep} {s : State V}
  {pair : WorkflowStep × Called (StepResult V)} {r : StepExecution}

theorem stepId_of_returned (hfate : Fate owner pair.1.id s.history pair.2)
    (h : returned? pair = some r) : r.stepId = pair.1.id := by
  obtain ⟨step, outcome⟩ := pair
  cases outcome with
  | returned result =>
    obtain rfl : result.1 = r := Option.some.inj h
    exact hfate.1
  | raised exc => cases h

theorem stepId_of_failure (hfate : Fate owner pair.1.id s.history pair.2)
    (h : failure? pair = some r) : r.stepId = pair.1.id := by
  obtain ⟨step, outcome⟩ := pair
  cases outcome with
  | returned result => cases h
  | raised exc =>
    cases exc with
    | executionCancelled => cases h
    | stepFailed record =>
      obtain rfl : record = r := Option.some.inj h
      exact hfate.1.1
    | _ =>
      obtain rfl := Option.some.inj h
      rfl

/-- The branch of a step that finished has left a record, and where the step was skipped it says
so. -/
theorem Joined.finished (hj : Joined owner steps pairs s) (hpair : pair ∈ pairs)
    (h : Finished owner pair.1.id s) : (returned? pair).isSome ∨ (failure? pair).isSome := by
  have hbranch := hj.branches pair hpair
  have hfate := hj.fates pair hpair
  obtain ⟨step, outcome⟩ := pair
  cases outcome with
  | returned result => exact Or.inl rfl
  | raised exc =>
    have hne : exc ≠ .executionCancelled := by
      rintro rfl
      rcases h with hconcluded | ⟨-, -, hnot⟩
      · rw [hfate.2.2 rfl] at hconcluded
        cases hconcluded
      · exact hnot hbranch
    cases exc with
    | executionCancelled => exact absurd rfl hne
    | _ => exact Or.inr rfl

theorem Joined.skipped (hj : Joined owner steps pairs s) (hpair : pair ∈ pairs)
    (h : marked owner pair.1.id .skipped s.history = true) :
    ∃ r, returned? pair = some r ∧ r.status = .skipped := by
  have hfate := hj.fates pair hpair
  obtain ⟨step, outcome⟩ := pair
  cases outcome with
  | returned result => exact ⟨result.1, rfl, hfate.2 h⟩
  | raised exc =>
    rw [hfate.2.1] at h
    cases h

theorem map_stepId_filterMap {f : WorkflowStep × Called (StepResult V) → Option StepExecution}
    (h : ∀ pair ∈ pairs, ∀ r, f pair = some r → r.stepId = pair.1.id) :
    (pairs.filterMap f).map (·.stepId) =
      (pairs.filter fun pair => (f pair).isSome).map (·.1.id) := by
  induction pairs with
  | nil => rfl
  | cons pair pairs ih =>
    obtain ⟨hpair, hpairs⟩ := List.forall_mem_cons.mp h
    cases hf : f pair with
    | none => simpa [List.filterMap_cons, hf] using ih hpairs
    | some r => simpa [List.filterMap_cons, hf, hpair r hf] using ih hpairs

theorem Joined.distinct (hj : Joined owner steps pairs s)
    (hnodup : (steps.map (·.id)).Nodup) :
    ((pairs.filterMap returned? ++ pairs.filterMap failure?).map (·.stepId)).Nodup := by
  have hids : (pairs.map (·.1.id)).Nodup := by
    rw [← hj.steps, List.map_map] at hnodup
    exact hnodup
  rw [List.map_append,
    map_stepId_filterMap fun pair hpair r => stepId_of_returned (hj.fates pair hpair),
    map_stepId_filterMap fun pair hpair r => stepId_of_failure (hj.fates pair hpair),
    List.nodup_append]
  refine ⟨hids.sublist (List.filter_sublist.map _), hids.sublist (List.filter_sublist.map _), ?_⟩
  rintro id hreturned id' hfailed rfl
  obtain ⟨left, hleft, rfl⟩ := List.mem_map.mp hreturned
  obtain ⟨right, hright, heq⟩ := List.mem_map.mp hfailed
  obtain ⟨hleft, hreturned⟩ := List.mem_filter.mp hleft
  obtain ⟨hright, hfailed⟩ := List.mem_filter.mp hright
  -- One branch does not return and fail.
  have hsame : left.2 = right.2 := by
    have hboth := hj.branches right hright
    rw [heq, hj.branches left hleft] at hboth
    exact Branch.done.inj (Option.some.inj hboth)
  obtain ⟨a, outcome⟩ := left
  obtain ⟨b, outcome'⟩ := right
  obtain rfl : outcome = outcome' := hsame
  cases outcome <;> simp [returned?, failure?] at hreturned hfailed

end Joined

end Merge

/-! ### The stages -/

/-- The records of an execution after the steps `done`. -/
structure Tally (owner : Nat) (s : State V) (done : List WorkflowStep)
    (records : List StepExecution) : Prop where
  known : ∀ r ∈ records, r.stepId ∈ done.map (·.id)
  distinct : (records.map (·.stepId)).Nodup
  finished : ∀ step ∈ done, Finished owner step.id s → step.id ∈ records.map (·.stepId)
  skipped : ∀ step ∈ done, marked owner step.id .skipped s.history = true →
    ∃ r ∈ records, r.stepId = step.id ∧ r.status = .skipped

section Tally

variable {owner : Nat} {done rest steps : List WorkflowStep} {records : List StepExecution}
  {s s' : State V} {step : WorkflowStep} {r : StepExecution}

theorem finished_congr {id : String} (hbranch : s'.branches owner id = s.branches owner id)
    (hmarks : SameMarks owner id s s') : Finished owner id s' ↔ Finished owner id s := by
  simp only [Finished, BranchRaised, Interrupted, hbranch, hmarks .concluded, hmarks .attempted]

theorem Tally.congr (h : Tally owner s done records)
    (hbranches : ∀ step ∈ done, s'.branches owner step.id = s.branches owner step.id)
    (hmarks : ∀ step ∈ done, SameMarks owner step.id s s') : Tally owner s' done records := by
  refine ⟨h.known, h.distinct, ?_, ?_⟩
  · intro step hstep hfinished
    exact h.finished step hstep
      ((finished_congr (hbranches step hstep) (hmarks step hstep)).mp hfinished)
  · intro step hstep hskipped
    exact h.skipped step hstep ((hmarks step hstep .skipped).symm.trans hskipped)

theorem Tally.skips (h : Tally owner s done records)
    (hrest : ∀ step ∈ rest, ¬Finished owner step.id s ∧
      marked owner step.id .skipped s.history = false) :
    Tally owner s (done ++ rest) records := by
  refine ⟨?_, h.distinct, ?_, ?_⟩
  · intro r hr
    rw [List.map_append]
    exact List.mem_append_left _ (h.known r hr)
  · intro step hstep hfinished
    rcases List.mem_append.mp hstep with hstep | hstep
    · exact h.finished step hstep hfinished
    · exact absurd hfinished (hrest step hstep).1
  · intro step hstep hskipped
    rcases List.mem_append.mp hstep with hstep | hstep
    · exact h.skipped step hstep hskipped
    · rw [(hrest step hstep).2] at hskipped
      cases hskipped

theorem Tally.extend (h : Tally owner s done records) {more : List StepExecution}
    (hnodup : ((done ++ steps).map (·.id)).Nodup)
    (hknown : ∀ r ∈ more, r.stepId ∈ steps.map (·.id)) (hdistinct : (more.map (·.stepId)).Nodup)
    (hfinished : ∀ step ∈ steps, Finished owner step.id s → step.id ∈ more.map (·.stepId))
    (hskipped : ∀ step ∈ steps, marked owner step.id .skipped s.history = true →
      ∃ r ∈ more, r.stepId = step.id ∧ r.status = .skipped) :
    Tally owner s (done ++ steps) (records ++ more) := by
  refine ⟨?_, ?_, ?_, ?_⟩
  · intro r hr
    rw [List.map_append]
    rcases List.mem_append.mp hr with hr | hr
    · exact List.mem_append_left _ (h.known r hr)
    · exact List.mem_append_right _ (hknown r hr)
  · rw [List.map_append, List.nodup_append] at hnodup ⊢
    refine ⟨h.distinct, hdistinct, ?_⟩
    intro id hid id' hid'
    obtain ⟨r, hr, rfl⟩ := List.mem_map.mp hid
    obtain ⟨r', hr', rfl⟩ := List.mem_map.mp hid'
    exact hnodup.2.2 _ (h.known r hr) _ (hknown r' hr')
  · intro step hstep hstepFinished
    rw [List.map_append]
    rcases List.mem_append.mp hstep with hstep | hstep
    · exact List.mem_append_left _ (h.finished step hstep hstepFinished)
    · exact List.mem_append_right _ (hfinished step hstep hstepFinished)
  · intro step hstep hstepSkipped
    rcases List.mem_append.mp hstep with hstep | hstep
    · obtain ⟨r, hr, hof⟩ := h.skipped step hstep hstepSkipped
      exact ⟨r, List.mem_append_left _ hr, hof⟩
    · obtain ⟨r, hr, hof⟩ := hskipped step hstep hstepSkipped
      exact ⟨r, List.mem_append_right _ hr, hof⟩

theorem Tally.add (h : Tally owner s done records)
    (hnodup : ((done ++ [step]).map (·.id)).Nodup) (hid : r.stepId = step.id)
    (hskipped : marked owner step.id .skipped s.history = true → r.status = .skipped) :
    Tally owner s (done ++ [step]) (records ++ [r]) := by
  refine h.extend hnodup ?_ (by simp) ?_ ?_
  · intro r' hr'
    obtain rfl := List.mem_singleton.mp hr'
    simp [hid]
  · intro step' hstep' _
    obtain rfl := List.mem_singleton.mp hstep'
    simp [hid]
  · intro step' hstep' hstepSkipped
    obtain rfl := List.mem_singleton.mp hstep'
    exact ⟨r, List.mem_singleton.mpr rfl, hid, hskipped hstepSkipped⟩

variable {pairs : List (WorkflowStep × Called (StepResult V))}

/-- The records of a stage whose failures are not lost. -/
theorem Tally.join (h : Tally owner s done records) (hj : Joined owner steps pairs s)
    (hnodup : ((done ++ steps).map (·.id)).Nodup) :
    Tally owner s (done ++ steps)
      (records ++ (pairs.filterMap returned? ++ pairs.filterMap failure?)) := by
  have hmem : ∀ pair ∈ pairs, pair.1.id ∈ steps.map (·.id) := by
    intro pair hpair
    rw [← hj.steps]
    exact List.mem_map_of_mem (List.mem_map_of_mem hpair)
  have hpairs : ∀ step ∈ steps, ∃ pair ∈ pairs, pair.1 = step := by
    intro step hstep
    rw [← hj.steps] at hstep
    exact List.mem_map.mp hstep
  refine h.extend hnodup ?_ (hj.distinct ?_) ?_ ?_
  · intro r hr
    rcases List.mem_append.mp hr with hr | hr
    · obtain ⟨pair, hpair, heq⟩ := List.mem_filterMap.mp hr
      rw [stepId_of_returned (hj.fates pair hpair) heq]
      exact hmem pair hpair
    · obtain ⟨pair, hpair, heq⟩ := List.mem_filterMap.mp hr
      rw [stepId_of_failure (hj.fates pair hpair) heq]
      exact hmem pair hpair
  · rw [List.map_append, List.nodup_append] at hnodup
    exact hnodup.2.1
  · intro step hstep hfinished
    obtain ⟨pair, hpair, rfl⟩ := hpairs step hstep
    rw [List.map_append]
    rcases hj.finished hpair hfinished with hsome | hsome
    · obtain ⟨r, hr⟩ := Option.isSome_iff_exists.mp hsome
      refine List.mem_append_left _ (List.mem_map.mpr ⟨r, ?_, ?_⟩)
      · exact List.mem_filterMap.mpr ⟨pair, hpair, hr⟩
      · exact stepId_of_returned (hj.fates pair hpair) hr
    · obtain ⟨r, hr⟩ := Option.isSome_iff_exists.mp hsome
      refine List.mem_append_right _ (List.mem_map.mpr ⟨r, ?_, ?_⟩)
      · exact List.mem_filterMap.mpr ⟨pair, hpair, hr⟩
      · exact stepId_of_failure (hj.fates pair hpair) hr
  · intro step hstep hskipped
    obtain ⟨pair, hpair, rfl⟩ := hpairs step hstep
    obtain ⟨r, hr, hstatus⟩ := hj.skipped hpair hskipped
    exact ⟨r, List.mem_append_left _ (List.mem_filterMap.mpr ⟨pair, hpair, hr⟩),
      stepId_of_returned (hj.fates pair hpair) hr, hstatus⟩

end Tally

end Ares.Workflows
