import Ares.Workflows.Steps

/-! What the records, outputs and compensations of an execution say about its steps: the
compensations are the steps with a succeeded record that ask for one, in the order of the
definition, each with its last output. -/

namespace Ares.Workflows

variable {V : Type}

/-- A step has a succeeded record. -/
def succeeded (records : List StepExecution) (id : String) : Bool :=
  records.any fun r => r.stepId = id && r.status = .succeeded

def compensation (records : List StepExecution) (owner : Nat) (h : List (Note V))
    (step : WorkflowStep) : Option (WorkflowStep × V) :=
  if step.compensateOnFailure && succeeded records step.id then
    (finalOutput owner step.id h).map (step, ·)
  else none

def owed (records : List StepExecution) (owner : Nat) (h : List (Note V))
    (steps : List WorkflowStep) : List (WorkflowStep × V) :=
  steps.filterMap (compensation records owner h)

/-- The progress of an execution after the steps `done`. -/
structure Sound (owner : Nat) (h : List (Note V)) (done : List WorkflowStep) (p : Progress V) :
    Prop where
  records : ∀ r ∈ p.records, ∃ step ∈ done, r.stepId = step.id
  outputs : ∀ step ∈ done, succeeded p.records step.id = true →
    (finalOutput owner step.id h).isSome = true
  compensations : p.compensations = owed p.records owner h done

section Records

variable {records : List StepExecution} {id : String}

theorem succeeded_append (more : List StepExecution) :
    succeeded (records ++ more) id = (succeeded records id || succeeded more id) := by
  simp [succeeded]

theorem succeeded_eq_false (h : ∀ r ∈ records, r.stepId = id → r.status ≠ .succeeded) :
    succeeded records id = false := by
  unfold succeeded
  rw [List.any_eq_false]
  intro r hr
  by_cases hid : r.stepId = id
  · simp [hid, h r hr hid]
  · simp [hid]

theorem succeeded_singleton (r : StepExecution) :
    succeeded [r] r.stepId = decide (r.status = .succeeded) := by
  simp [succeeded]

end Records

section Sound

variable {owner : Nat} {h : List (Note V)} {done : List WorkflowStep} {p : Progress V}

theorem owed_congr {records records' : List StepExecution} {h' : List (Note V)}
    {steps : List WorkflowStep}
    (hrecords : ∀ step ∈ steps, succeeded records' step.id = succeeded records step.id)
    (hfinal : ∀ step ∈ steps, finalOutput owner step.id h' = finalOutput owner step.id h) :
    owed records' owner h' steps = owed records owner h steps := by
  unfold owed
  apply List.filterMap_congr
  intro step hstep
  simp only [compensation, hrecords step hstep, hfinal step hstep]

theorem sound_empty (owner : Nat) (h : List (Note V)) : Sound owner h [] (Progress.empty (V := V)) :=
  ⟨by simp [Progress.empty], by simp, rfl⟩

theorem Sound.congr (hp : Sound owner h done p) {h' : List (Note V)}
    (hfinal : ∀ step ∈ done, finalOutput owner step.id h' = finalOutput owner step.id h) :
    Sound owner h' done p := by
  refine ⟨hp.records, ?_, ?_⟩
  · intro step hstep hsucceeded
    rw [hfinal step hstep]
    exact hp.outputs step hstep hsucceeded
  · rw [hp.compensations]
    exact (owed_congr (fun _ _ => rfl) hfinal).symm

theorem Sound.not_succeeded (hp : Sound owner h done p) {step : WorkflowStep}
    (hnew : step.id ∉ done.map (·.id)) : succeeded p.records step.id = false := by
  apply succeeded_eq_false
  intro r hr hid
  obtain ⟨step', hstep', hr'⟩ := hp.records r hr
  exact absurd (List.mem_map.mpr ⟨step', hstep', hr'.symm.trans hid⟩) hnew

theorem Sound.skip (hp : Sound owner h done p) {step : WorkflowStep}
    (hnew : step.id ∉ done.map (·.id)) : Sound owner h (done ++ [step]) p := by
  have hnone := hp.not_succeeded hnew
  refine ⟨?_, ?_, ?_⟩
  · intro r hr
    obtain ⟨step', hstep', hid⟩ := hp.records r hr
    exact ⟨step', List.mem_append_left _ hstep', hid⟩
  · intro step' hstep' hsucceeded
    rcases List.mem_append.mp hstep' with hstep' | hstep'
    · exact hp.outputs step' hstep' hsucceeded
    · rw [List.mem_singleton.mp hstep', hnone] at hsucceeded
      cases hsucceeded
  · rw [hp.compensations]
    simp [owed, compensation, hnone]

theorem Sound.skips (hp : Sound owner h done p) {rest : List WorkflowStep}
    (hnodup : ((done ++ rest).map (·.id)).Nodup) : Sound owner h (done ++ rest) p := by
  induction rest generalizing done with
  | nil => simpa using hp
  | cons step rest ih =>
    have hnew : step.id ∉ done.map (·.id) := by
      rw [List.map_append, List.nodup_append] at hnodup
      intro hmem
      exact hnodup.2.2 _ hmem _ (by simp) rfl
    have hassoc : done ++ step :: rest = (done ++ [step]) ++ rest := by simp
    rw [hassoc] at hnodup ⊢
    exact ih (hp.skip hnew) hnodup

theorem Sound.fail (hp : Sound owner h done p) {failures : List StepExecution}
    (hfailed : ∀ r ∈ failures, r.status = .failed ∧ ∃ step ∈ done, r.stepId = step.id) :
    Sound owner h done { p with records := p.records ++ failures } := by
  have hsame : ∀ step ∈ done, succeeded (p.records ++ failures) step.id =
      succeeded p.records step.id := by
    intro step _
    have hnone : succeeded failures step.id = false := by
      apply succeeded_eq_false
      intro r hr _
      rw [(hfailed r hr).1]
      decide
    rw [succeeded_append, hnone, Bool.or_false]
  refine ⟨?_, ?_, ?_⟩
  · intro r hr
    rcases List.mem_append.mp hr with hr | hr
    · exact hp.records r hr
    · exact (hfailed r hr).2
  · intro step hstep hsucceeded
    have hsucceeded' : succeeded (p.records ++ failures) step.id = true := hsucceeded
    rw [hsame step hstep] at hsucceeded'
    exact hp.outputs step hstep hsucceeded'
  · exact hp.compensations.trans (owed_congr hsame fun _ _ => rfl).symm

/-- The result of a step, in the place of the step. -/
theorem Sound.add (hp : Sound owner h done p) {step : WorkflowStep} {result : StepResult V}
    (hnew : step.id ∉ done.map (·.id)) (hresult : ResultOk owner step.id h result) :
    Sound owner h (done ++ [step]) (p.add step result) := by
  obtain ⟨record, output⟩ := result
  obtain ⟨hid, hstatus⟩ := hresult
  have hrecords : (p.add step (record, output)).records = p.records ++ [record] := by
    cases output <;> rfl
  have hold : ∀ step' ∈ done, succeeded (p.records ++ [record]) step'.id =
      succeeded p.records step'.id := by
    intro step' hstep'
    have hne : record.stepId ≠ step'.id := by
      intro heq
      exact hnew (List.mem_map.mpr ⟨step', hstep', heq.symm.trans hid⟩)
    have hother : succeeded [record] step'.id = false := by
      apply succeeded_eq_false
      intro r hr heq
      rw [List.mem_singleton.mp hr] at heq
      exact absurd heq hne
    rw [succeeded_append, hother, Bool.or_false]
  have hthis : succeeded (p.records ++ [record]) step.id = decide (record.status = .succeeded) := by
    rw [succeeded_append, hp.not_succeeded hnew, Bool.false_or, ← hid]
    exact succeeded_singleton record
  refine ⟨?_, ?_, ?_⟩
  · rw [hrecords]
    intro r hr
    rcases List.mem_append.mp hr with hr | hr
    · obtain ⟨step', hstep', heq⟩ := hp.records r hr
      exact ⟨step', List.mem_append_left _ hstep', heq⟩
    · rw [List.mem_singleton.mp hr]
      exact ⟨step, by simp, hid⟩
  · rw [hrecords]
    intro step' hstep' hsucceeded
    rcases List.mem_append.mp hstep' with hstep' | hstep'
    · rw [hold step' hstep'] at hsucceeded
      exact hp.outputs step' hstep' hsucceeded
    · rw [List.mem_singleton.mp hstep'] at hsucceeded ⊢
      rw [hthis, decide_eq_true_eq] at hsucceeded
      cases output with
      | none =>
        have hskipped : record.status = .skipped := hstatus
        rw [hsucceeded] at hskipped
        cases hskipped
      | some v => rw [hstatus.2, Option.isSome_some]
  · have hsplit : owed (p.records ++ [record]) owner h (done ++ [step]) =
        p.compensations ++ owed (p.records ++ [record]) owner h [step] := by
      rw [hp.compensations, ← owed_congr hold fun _ _ => rfl]
      simp [owed]
    rw [hrecords, hsplit]
    cases output with
    | none =>
      have hskipped : record.status = .skipped := hstatus
      simp [owed, compensation, hthis, hskipped, Progress.add]
    | some v =>
      have hsucceeded : record.status = .succeeded := hstatus.1
      have hfinal : finalOutput owner step.id h = some v := hstatus.2
      cases hflag : step.compensateOnFailure with
      | false => simp [owed, compensation, hthis, hsucceeded, hflag, Progress.add]
      | true => simp [owed, compensation, hthis, hsucceeded, hfinal, hflag, Progress.add]

end Sound

/-! ### The results of a parallel stage -/

/-- What the loop over the results of a stage has collected after the steps `done`. -/
structure MergedOk (owner : Nat) (h : List (Note V)) (done : List WorkflowStep) (m : Merged V) :
    Prop where
  sound : Sound owner h done m.progress
  failures : ∀ r ∈ m.failures, r.status = .failed ∧ ∃ step ∈ done, r.stepId = step.id

section Merge

variable {owner : Nat} {h : List (Note V)} {done : List WorkflowStep} {m : Merged V}

theorem MergedOk.add (hm : MergedOk owner h done m) {step : WorkflowStep}
    {outcome : Called (StepResult V)} (hnew : step.id ∉ done.map (·.id))
    (houtcome : OutcomeOk owner step.id h outcome) :
    MergedOk owner h (done ++ [step]) (m.add step outcome) := by
  have hwider : ∀ r ∈ m.failures,
      r.status = .failed ∧ ∃ step' ∈ done ++ [step], r.stepId = step'.id := by
    intro r hr
    obtain ⟨hstatus, step', hstep', hid⟩ := hm.failures r hr
    exact ⟨hstatus, step', List.mem_append_left _ hstep', hid⟩
  have hmore : ∀ record : StepExecution, record.status = .failed → record.stepId = step.id →
      ∀ r ∈ m.failures ++ [record],
        r.status = .failed ∧ ∃ step' ∈ done ++ [step], r.stepId = step'.id := by
    intro record hstatus hid r hr
    rcases List.mem_append.mp hr with hr | hr
    · exact hwider r hr
    · rw [List.mem_singleton.mp hr]
      exact ⟨hstatus, step, by simp, hid⟩
  cases outcome with
  | returned result => exact ⟨hm.sound.add hnew houtcome, hwider⟩
  | raised exc =>
    have hskipped := hm.sound.skip hnew
    cases exc with
    | stepFailed record => exact ⟨hskipped, hmore record houtcome.2 houtcome.1⟩
    | executionCancelled => exact ⟨hskipped, hwider⟩
    | _ => exact ⟨hskipped, hmore _ rfl rfl⟩

theorem MergedOk.merge (hm : MergedOk owner h done m)
    {pairs : List (WorkflowStep × Called (StepResult V))}
    (hnodup : ((done ++ pairs.map Prod.fst).map (·.id)).Nodup)
    (hpairs : ∀ pair ∈ pairs, OutcomeOk owner pair.1.id h pair.2) :
    MergedOk owner h (done ++ pairs.map Prod.fst) (merge m pairs) := by
  induction pairs generalizing done m with
  | nil => simpa [Workflows.merge] using hm
  | cons pair pairs ih =>
    obtain ⟨step, outcome⟩ := pair
    obtain ⟨houtcome, hrest⟩ := List.forall_mem_cons.mp hpairs
    have hnew : step.id ∉ done.map (·.id) := by
      rw [List.map_append, List.nodup_append] at hnodup
      intro hmem
      exact hnodup.2.2 _ hmem _ (by simp) rfl
    have hassoc : done ++ ((step, outcome) :: pairs).map Prod.fst =
        (done ++ [step]) ++ pairs.map Prod.fst := by simp
    rw [hassoc] at hnodup ⊢
    exact ih (hm.add hnew houtcome) hnodup hrest

theorem MergedOk.finish (hm : MergedOk owner h done m) :
    Sound owner h done m.finish.1 ∧ ∀ record, m.finish.2 ≠ some (.step record) := by
  unfold Merged.finish
  split
  · exact ⟨hm.sound, by simp⟩
  · split
    · exact ⟨hm.sound, by simp⟩
    · rename_i first rest hfailures
      refine ⟨hm.sound.fail ?_, by simp⟩
      rw [← hfailures]
      exact hm.failures

end Merge

end Ares.Workflows
