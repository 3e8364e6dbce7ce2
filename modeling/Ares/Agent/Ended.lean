import Ares.Agent.Confined

/-! A run that has ended stays as it is.  A call that has read a run before its end writes its own
copy behind the end, and two calls go on with a run that has ended: `execute` looks only at the
authorization, and `cancel` does not know that a run with a partial result has ended.  The calm calls
are those that stay clear of both, and in their runs an ended run keeps its state and starts no
capability any more. -/

namespace Ares.Agent.Ended

open Coop Data Storage

/-- The starts of capabilities for a run. -/
def started (s : State) (runId : String) : List Event :=
  s.history.filter fun
    | .started _ r _ => r = runId
    | _ => false

/-- Between the two states, no ended run has changed its state or has started a capability. -/
def Final (s s' : State) : Prop :=
  ∀ runId st, st.ended = true → s.status runId = some st →
    s'.status runId = some st ∧ started s' runId = started s runId

def confirms (cfg : Config) (run : AgentRun) (resources : List ResourceCandidate) : Bool :=
  let selected := selectResource resources run.selectedResourceId
  !identityChanged run selected &&
    run.authorization.any fun a => a.planFingerprint = runFingerprint cfg run selected

/-- `cancel` does not find a partial result, `execute` finds no cancelled run with an authorization
that is not consumed and does not confirm an invalidated one, and nobody else is working on a run
when a call ends it. -/
def calm (cfg : Config) (s : State) : (o : Op) → Res o → Prop
  | .call (.read (.cancel runId _)), .ok true => s.status runId ≠ some .partiallyCompleted
  | .call (.read (.execute runId _)), .ok true =>
    ∀ run, s.runs runId = some run → run.unspent = true → run.state ≠ .cancelled
  | .call (.catalog (.execute _ _) (some run)), .ok resources =>
    run.state = .invalidated → confirms cfg run resources = false
  | .write task run, true => run.state.ended = true → ∀ k, k ≠ task → s.working k ≠ some run.id
  | _, _ => True

def calmSystem (cfg : Config) : System State Res Error AgentRun Request DateTime :=
  (system cfg).restrict (fun _ _ => True) (calm cfg)

/-- The runs of a directory: each under its identifier, and consumed if `execute` has ended it. -/
def Settled (runs : String → Option AgentRun) (drawn : List String) : Prop :=
  ∀ k run, runs k = some run →
    run.id = k ∧ k ∈ drawn ∧ (finished run.state = true → run.unspent = false)

/-- A call works on a run that has not ended. -/
structure Inv (s : State) : Prop where
  settled : Settled s.runs s.drawn
  working : ∀ j id, s.working j = some id →
    id ∈ s.drawn ∧ ∀ st, s.status id = some st → st.ended = false

def Rely (j : Nat) (s s' : State) : Prop := s'.working j = s.working j ∧ Final s s'

def Guar (j : Nat) (s s' : State) : Prop :=
  (∀ k, k ≠ j → s'.working k = s.working k) ∧ Final s s'

def logic (cfg : Config) (j : Nat) : Logic State Res :=
  ⟨Inv, Rely j, Guar j, (calmSystem cfg).answers⟩

theorem Final.refl (s : State) : Final s s := fun _ _ _ h => ⟨h, rfl⟩

theorem Final.trans {a b c : State} (hab : Final a b) (hbc : Final b c) : Final a c := by
  intro runId st hst ha
  obtain ⟨hb, hstarted⟩ := hab runId st hst ha
  obtain ⟨hc, hstarted'⟩ := hbc runId st hst hb
  exact ⟨hc, hstarted'.trans hstarted⟩

section Steps

variable {cfg : Config} {j : Nat} {s : State} {run : AgentRun}

theorem final_same {s' : State} (hruns : s'.runs = s.runs)
    (hstarted : ∀ runId, started s' runId = started s runId) : Final s s' := by
  intro runId st _ hst
  refine ⟨?_, hstarted runId⟩
  rw [State.status, hruns]
  exact hst

theorem Inv.not_ended (hi : Inv s) (hw : s.working j = some run.id) {st : AgentRunState}
    (hst : s.status run.id = some st) : st.ended = false := (hi.working j _ hw).2 st hst

theorem status_store (k : String) :
    (s.store j run).status k = if k = run.id then some run.state else s.status k := by
  by_cases hk : k = run.id <;> simp [State.status, State.store, hk]

theorem Settled.store (hs : Settled s.runs s.drawn) (hid : run.id ∈ s.drawn)
    (hspent : finished run.state = true → run.unspent = false) :
    Settled (s.store j run).runs s.drawn := by
  intro k run' hrun'
  by_cases hk : k = run.id
  · subst hk
    obtain rfl : run = run' := by simpa [State.store] using hrun'
    exact ⟨rfl, hid, hspent⟩
  · exact hs k run' (by simpa [State.store, hk] using hrun')

theorem store_open (hi : Inv s) (hw : s.working j = some run.id) (hopen : run.state.ended = false) :
    Guar j s (s.store j run) ∧ Inv (s.store j run) ∧
      (s.store j run).working j = some run.id := by
  have hworking : (s.store j run).working = s.working := by simp [State.store, hopen]
  have hfinished : finished run.state = true → run.unspent = false := by
    intro h
    revert hopen
    cases hstate : run.state <;> simp_all [finished, AgentRunState.ended]
  refine ⟨⟨fun k _ => by rw [hworking], fun runId st hst hs => ?_⟩,
    ⟨hi.settled.store (hi.working j _ hw).1 hfinished, fun k id hk => ?_⟩, by rw [hworking, hw]⟩
  · refine ⟨?_, rfl⟩
    rw [status_store, if_neg]
    · exact hs
    · rintro rfl
      exact absurd hst (by simp [hi.not_ended hw hs])
  · rw [hworking] at hk
    refine ⟨(hi.working k id hk).1, fun st hst => ?_⟩
    rw [status_store] at hst
    split at hst
    · exact Option.some.inj hst ▸ hopen
    · exact (hi.working k id hk).2 st hst

theorem store_ended (hi : Inv s) (hw : s.working j = some run.id) (hended : run.state.ended = true)
    (hspent : finished run.state = true → run.unspent = false)
    (halone : ∀ k, k ≠ j → s.working k ≠ some run.id) :
    Guar j s (s.store j run) ∧ Inv (s.store j run) := by
  have hworking : (s.store j run).working = Function.update s.working j none := by
    simp [State.store, hended]
  refine ⟨⟨fun k hk => by rw [hworking, Function.update_of_ne hk], fun runId st hst hs => ?_⟩,
    hi.settled.store (hi.working j _ hw).1 hspent, fun k id hk => ?_⟩
  · refine ⟨?_, rfl⟩
    rw [status_store, if_neg]
    · exact hs
    · rintro rfl
      exact absurd hst (by simp [hi.not_ended hw hs])
  · rw [hworking] at hk
    by_cases hkj : k = j
    · subst hkj
      simp at hk
    · rw [Function.update_of_ne hkj] at hk
      refine ⟨(hi.working k id hk).1, fun st hst => ?_⟩
      rw [status_store, if_neg] at hst
      · exact (hi.working k id hk).2 st hst
      · rintro rfl
        exact halone k hkj hk

theorem store_again (hi : Inv s) (hstate : run.state = .invalidated)
    (hs : s.status run.id = some .invalidated) :
    Guar j s (s.store j run) ∧ Inv (s.store j run) ∧
      (s.store j run).status run.id = some .invalidated := by
  have hworking : (s.store j run).working = Function.update s.working j none := by
    simp [State.store, hstate, AgentRunState.ended]
  have hdrawn : run.id ∈ s.drawn := by
    obtain ⟨old, hold, -⟩ := Option.map_eq_some_iff.mp hs
    exact (hi.settled _ old hold).2.1
  have hstatus : ∀ k, (s.store j run).status k = s.status k := by
    intro k
    rw [status_store]
    split
    · next hk => rw [hk, hs, hstate]
    · rfl
  refine ⟨⟨fun k hk => by rw [hworking, Function.update_of_ne hk], fun runId st _ h => ?_⟩,
    ⟨hi.settled.store hdrawn (by simp [hstate, finished]), fun k id hk => ?_⟩,
    (hstatus _).trans hs⟩
  · exact ⟨(hstatus runId).trans h, rfl⟩
  · rw [hworking] at hk
    by_cases hkj : k = j
    · subst hkj
      simp at hk
    · rw [Function.update_of_ne hkj] at hk
      exact ⟨(hi.working k id hk).1, fun st hst => (hi.working k id hk).2 st (hstatus id ▸ hst)⟩

theorem guar_beside {s' : State} (hruns : s'.runs = s.runs) (hworking : s'.working = s.working)
    (hstarted : ∀ runId, started s' runId = started s runId) : Guar j s s' :=
  ⟨fun k _ => by rw [hworking], final_same hruns hstarted⟩

theorem Inv.beside {s' : State} (hi : Inv s) (hruns : s'.runs = s.runs)
    (hworking : s'.working = s.working) (hdrawn : ∀ id ∈ s.drawn, id ∈ s'.drawn) : Inv s' where
  settled k run hrun := by
    obtain ⟨hid, hmem, hspent⟩ := hi.settled k run (hruns ▸ hrun)
    exact ⟨hid, hdrawn k hmem, hspent⟩
  working k id hk := by
    obtain ⟨hmem, hopen⟩ := hi.working k id (hworking ▸ hk)
    refine ⟨hdrawn id hmem, fun st hst => hopen st ?_⟩
    rw [State.status, hruns] at hst
    exact hst

end Steps

/-! ### The calls -/

section Calls

variable {cfg : Config} {j : Nat} {s : State} {run : AgentRun}

/-- The call works on the run `id`. -/
def Works (j : Nat) (id : String) (s : State) : Prop := s.working j = some id

/-- What a call has read of a run that had ended: an execution does not go on unless the run was
invalidated, and a cancellation does not find a partial result. -/
def Over (request : Request) (run : AgentRun) (s : State) : Prop :=
  run.state.ended = true ∧ s.status run.id = some run.state ∧
    match request with
    | .execute _ _ => run.unspent = true → run.state = .invalidated
    | .cancel _ _ => run.state ≠ .partiallyCompleted
    | _ => True

theorem works_rely {id : String} {s' : State} (hr : Rely j s s') (h : Works j id s) :
    Works j id s' := hr.1.trans h

theorem over_rely {request : Request} {s' : State} (hr : Rely j s s') (h : Over request run s) :
    Over request run s' := ⟨h.1, (hr.2 _ _ h.1 h.2.1).1, h.2.2⟩

section Keeping

variable {P : State → Prop} (hP : ∀ s s', Rely j s s' → P s → P s')

include hP

theorem attempt_keeps (c : Call) : (attempt c).Keeps (logic cfg j) P :=
  quiet_attempt.keeps hP

theorem note_keeps {e : Event} (he : ∀ runId, started (s.note e) runId = started s runId)
    (hi : Inv s) (h : P s) : Guar j s (s.note e) ∧ Inv (s.note e) ∧ P (s.note e) := by
  have hfinal : Final s (s.note e) := final_same rfl he
  exact ⟨guar_beside rfl rfl he, hi.beside rfl rfl fun _ => id, hP s _ ⟨rfl, hfinal⟩ h⟩

theorem catalog_keeps (request : Request) (run : Option AgentRun) :
    (catalog j request run).Keeps (logic cfg j) P :=
  (attempt_keeps hP _).bind fun _ => (keeps_modify fun _ hi hs =>
    note_keeps hP (fun _ => rfl) hi hs).bind fun _ => keeps_ret _

end Keeping

theorem put_spec {P : State → Prop} (hP : ∀ s s', Rely j s s' → P s → P s') {Q : State → Prop}
    (hQ : ∀ s s', Rely j s s' → Q s → Q s')
    (hstore : ∀ s, Inv s → P s → calm cfg s (.write j run) true →
      Guar j s (s.store j run) ∧ Inv (s.store j run) ∧ Q (s.store j run)) (hi : Inv s) (h : P s) :
    (put j run).Spec (logic cfg j) (fun _ s' => Inv s' ∧ Q s')
      (fun _ s' => Inv s' ∧ (P s' ∨ Q s')) s := by
  refine (attempt_keeps hP _).spec_bind hi h (fun _ s1 hi1 h1 => ?_)
    fun _ _ hi' h' => ⟨hi', .inl h'⟩
  refine spec_bind.mpr fun s2 hi2 hr2 written hw => ?_
  cases written with
  | false =>
    have h2 := hP _ _ hr2 h1
    intro s3 hi3 hr3 r _
    cases r <;> exact ⟨hi3, .inl (hP _ _ hr3 h2)⟩
  | true =>
    obtain ⟨hg, hi3, h3⟩ := hstore s2 hi2 (hP _ _ hr2 h1) hw.2
    exact ⟨hg, hi3, (attempt_keeps hQ _).spec_bind hi3 h3 (fun _ s4 hi4 h4 => ⟨hi4, h4⟩)
      fun _ _ hi' h' => ⟨hi', .inr h'⟩⟩

theorem put_ended (hi : Inv s) (h : Works j run.id s) (hended : run.state.ended = true)
    (hspent : finished run.state = true → run.unspent = false) :
    (put j run).Spec (logic cfg j) (fun _ s' => Inv s') (fun _ s' => Inv s') s :=
  (put_spec (Q := fun _ => True) (fun _ _ => works_rely) (fun _ _ _ => id) (fun _ hi h hcalm =>
    let ⟨hg, hi'⟩ := store_ended hi h hended hspent (hcalm hended)
    ⟨hg, hi', trivial⟩) hi h).mono (fun _ _ h => h.1) fun _ _ h => h.1

theorem publish_spec {c : Call} {α : Type} {a : α} (hi : Inv s) :
    ((attempt c).bind fun _ => Proc.ret a).Spec (logic cfg j) (fun _ s' => Inv s')
      (fun _ s' => Inv s') s :=
  (attempt_keeps (P := fun _ => True) (fun _ _ _ => id) c).spec_bind hi trivial
    (fun _ _ hi' _ => hi') fun _ _ hi' _ => hi'

theorem invalidate_spec (reason : String) (hi : Inv s)
    (h : Works j run.id s ∨ s.status run.id = some .invalidated) :
    (invalidate j run reason).Spec (logic cfg j) (fun _ s' => Inv s') (fun _ s' => Inv s') s := by
  obtain ⟨run', hrun'⟩ : ∃ run', run' = invalidatedRun run reason s.now := ⟨_, rfl⟩
  have hid : run'.id = run.id := hrun' ▸ rfl
  have hstate : run'.state = .invalidated := hrun' ▸ rfl
  rw [← hid] at h
  have hput : (put j run').Spec (logic cfg j) (fun _ s' => Inv s') (fun _ s' => Inv s') s := by
    rcases h with h | h
    · exact put_ended hi h (by rw [hstate]; rfl) (by simp [hstate, finished])
    · have hstable : ∀ s s', Rely j s s' → s.status run'.id = some .invalidated →
          s'.status run'.id = some .invalidated := fun s s' hr hs => (hr.2 _ _ rfl hs).1
      exact (put_spec hstable hstable (fun s hi hs _ => store_again hi hstate hs) hi h).mono
        (fun _ _ h => h.1) fun _ _ h => h.1
  rw [hrun'] at hput
  show Proc.Spec _ ((put j (invalidatedRun run reason s.now)).bind _) _ _ s
  exact spec_bind.mpr (hput.mono (fun _ _ hi' => publish_spec hi') fun _ _ hi' => hi')

/-- What the thread of a calm call reads. -/
theorem read_step (request : Request) (runId : String)
    (hcancel : ∀ id sessionId, request = .cancel id sessionId → id = runId)
    (hexecute : ∀ id sessionId, request = .execute id sessionId → id = runId) (hi : Inv s)
    (hcalm : calm cfg s (.call (.read request)) (.ok true)) :
    Guar j s (s.read j request runId) ∧ Inv (s.read j request runId) ∧
      Inv (s.read j request runId) ∧ ∀ run, s.runs runId = some run →
        run.id = runId ∧ (Works j runId (s.read j request runId) ∨
          Over request run (s.read j request runId)) := by
  have hover : ∀ run, s.runs runId = some run → run.state.ended = true →
      Over request run (s.read j request runId) := by
    intro run hrun hended
    obtain ⟨hid, -, hspent⟩ := hi.settled runId run hrun
    have hstatus : s.status run.id = some run.state := by simp [State.status, hid, hrun]
    refine ⟨hended, hstatus, ?_⟩
    cases request with
    | execute id sessionId =>
      obtain rfl := hexecute id sessionId rfl
      intro hunspent
      have hne := hcalm run hrun hunspent
      revert hended hspent hne
      cases run.state <;> simp [AgentRunState.ended, finished, hunspent]
    | cancel id sessionId =>
      obtain rfl := hcancel id sessionId rfl
      rintro hpart
      exact hcalm (by rw [← hid, hstatus, hpart])
    | start | authorizeReadOnly => trivial
  by_cases hopen : (s.runs runId).any fun run => !run.state.ended
  · have hworking : (s.read j request runId).working =
        Function.update s.working j (some runId) := by simp [State.read, hopen]
    have hw : Works j runId (s.read j request runId) := by
      rw [Works, hworking, Function.update_self]
    have hi' : Inv (s.read j request runId) := by
      refine ⟨hi.settled, fun k id hk => ?_⟩
      rw [hworking] at hk
      by_cases hkj : k = j
      · subst hkj
        obtain rfl : runId = id := by simpa using hk
        cases hrun : s.runs runId with
        | none => simp [hrun] at hopen
        | some run =>
          refine ⟨(hi.settled runId run hrun).2.1, fun st hst => ?_⟩
          obtain rfl : run.state = st := by simpa [State.status, State.read, hrun] using hst
          simpa [hrun] using hopen
      · rw [Function.update_of_ne hkj] at hk
        exact hi.working k id hk
    refine ⟨⟨fun k hk => by rw [hworking, Function.update_of_ne hk], ?_⟩, hi', hi',
      fun run hrun => ⟨(hi.settled runId run hrun).1, .inl hw⟩⟩
    exact fun runId st _ h => ⟨h, rfl⟩
  · have hworking : (s.read j request runId).working = s.working := by simp [State.read, hopen]
    have hi' : Inv (s.read j request runId) := hi.beside rfl hworking fun _ => id
    refine ⟨guar_beside rfl hworking fun _ => rfl, hi', hi', fun run hrun => ?_⟩
    refine ⟨(hi.settled runId run hrun).1, .inr (hover run hrun ?_)⟩
    simpa [hrun] using hopen

theorem required_spec (request : Request) (runId : String)
    (hcancel : ∀ id sessionId, request = .cancel id sessionId → id = runId)
    (hexecute : ∀ id sessionId, request = .execute id sessionId → id = runId) (hi : Inv s) :
    (required cfg j request runId).Spec (logic cfg j)
      (fun run s' => Inv s' ∧ run.id = runId ∧ (Works j runId s' ∨ Over request run s'))
      (fun _ s' => Inv s') s := by
  let Read (found : Option AgentRun) (s : State) : Prop := ∀ run, found = some run →
    run.id = runId ∧ (Works j runId s ∨ Over request run s)
  have hread : ∀ found s s', Rely j s s' → Read found s → Read found s' := by
    intro found s s' hr h run hrun
    obtain ⟨hid, hw | ho⟩ := h run hrun
    · exact ⟨hid, .inl (works_rely hr hw)⟩
    · exact ⟨hid, .inr (over_rely hr ho)⟩
  have hget : (get cfg j request runId).Spec (logic cfg j)
      (fun found s' => Inv s' ∧ Read found s') (fun _ s' => Inv s') s := by
    unfold get
    split
    · refine (attempt_keeps (P := fun _ => True) (fun _ _ _ => id) _).spec_bind hi trivial
        (fun _ s1 hi1 _ => ?_) fun _ _ hi' _ => hi'
      have hrun : (readRun j request runId).Spec (logic cfg j)
          (fun found s' => Inv s' ∧ Read found s') (fun _ s' => Inv s') s1 := by
        refine spec_bind.mpr (spec_bind.mpr fun s2 hi2 _ readable hcalm => ?_)
        cases readable with
        | error e => exact hi2
        | ok readable =>
          cases readable with
          | false => exact ⟨hi2, fun _ h => nomatch h⟩
          | true => exact read_step request runId hcancel hexecute hi2 hcalm.2
      refine spec_bind.mpr (hrun.mono (fun found s2 h2 => ?_) fun _ _ h => h)
      exact (attempt_keeps (hread found) _).spec_bind h2.1 h2.2 (fun _ s3 hi3 h3 => ⟨hi3, h3⟩)
        fun _ _ hi' _ => hi'
    · exact ⟨hi, fun _ h => nomatch h⟩
  refine spec_bind.mpr (hget.mono (fun found s1 h1 => ?_) fun _ _ h => h)
  cases found with
  | none => exact h1.1
  | some run =>
    obtain ⟨hg, hi2, h2⟩ := note_keeps (hread (some run)) (e := .found j s1.now run) (fun _ => rfl)
      h1.1 h1.2
    exact ⟨hg, hi2, hi2, h2 run rfl⟩

theorem start_step (c : String) (hi : Inv s) (h : Works j run.id s) :
    Guar j s (s.note (.started j run.id c)) ∧ Inv (s.note (.started j run.id c)) ∧
      Works j run.id (s.note (.started j run.id c)) := by
  refine ⟨⟨fun _ _ => rfl, fun runId st hst hs => ⟨hs, ?_⟩⟩, hi.beside rfl rfl fun _ => id, h⟩
  rw [started, State.note, List.filter_cons_of_neg]
  · rfl
  · have hne : run.id ≠ runId := by
      rintro rfl
      exact absurd hst (by simp [hi.not_ended h hs])
    simpa using hne

theorem put_keeps (hopen : run.state.ended = false) :
    (put j run).Keeps (logic cfg j) (Works j run.id) := fun _ hi h =>
  (put_spec (fun _ _ => works_rely) (fun _ _ => works_rely)
    (fun _ hi h _ => store_open hi h hopen) hi h).mono (fun _ _ h => h)
    fun _ _ h => ⟨h.1, h.2.elim id id⟩

theorem runDiagnostics_spec (request : Request) (a : ReadOnlyAuthorization) (hi : Inv s)
    (h : Works j run.id s) :
    (runDiagnostics j request run a).Spec (logic cfg j) (fun _ s' => Inv s') (fun _ s' => Inv s')
      s := by
  have hworks : ∀ s s', Rely j s s' → Works j run.id s → Works j run.id s' :=
    fun _ _ => works_rely
  rw [runDiagnostics]
  show Proc.Spec _ ((put j (runningRun run a s.now)).bind _) _ _ s
  refine (put_keeps rfl).spec_bind hi h (fun _ s1 hi1 h1 => ?_) fun _ _ hi' _ => hi'
  refine (attempt_keeps hworks _).spec_bind hi1 h1 (fun _ s2 hi2 h2 => ?_) fun _ _ hi' _ => hi'
  have hput : ∀ p now, (put j (progressRun (runningRun run a s.now) p now)).Keeps (logic cfg j)
      (Works j (progressRun (runningRun run a s.now) p now).id) := fun _ _ => put_keeps rfl
  have hdiagnose : ∀ i steps p, (diagnose j (runningRun run a s.now) a i steps p).Keeps
      (logic cfg j) (Works j run.id) := diagnose_keeps _ hworks
    (fun c => keeps_modify fun _ hi h => start_step c hi h)
    (fun _ _ => keeps_modify fun _ hi h => note_keeps hworks (fun _ => rfl) hi h)
    hput a
  refine (hdiagnose _ _ _).spec_bind hi2 h2 (fun p s3 hi3 h3 => ?_) fun _ _ hi' _ => hi'
  refine (catalog_keeps hworks _ _).spec_bind hi3 h3 (fun refreshed s4 hi4 h4 => ?_)
    fun _ _ hi' _ => hi'
  have hput : (put j (completedRun (runningRun run a s.now) a p refreshed s4.now)).Spec
      (logic cfg j) (fun _ s' => Inv s') (fun _ s' => Inv s') s4 := by
    refine put_ended hi4 h4 ?_ fun _ => rfl
    show (finalState _ p).ended = true
    unfold finalState
    split
    · rfl
    · split <;> rfl
  show Proc.Spec _ ((put j (completedRun (runningRun run a s.now) a p refreshed s4.now)).bind _) _ _
    s4
  exact spec_bind.mpr (hput.mono (fun _ _ hi' => publish_spec hi') fun _ _ hi' => hi')

theorem start_spec (request : AgentRunRequest) (sessionId : String) (hi : Inv s) :
    (start cfg j request sessionId).Spec (logic cfg j) (fun _ s' => Inv s') (fun _ s' => Inv s')
      s := by
  have htrue : ∀ s s', Rely j s s' → True → True := fun _ _ _ => id
  rw [start]
  refine (catalog_keeps htrue _ _).spec_bind hi trivial (fun resources s1 hi1 _ => ?_)
    fun _ _ hi' _ => hi'
  refine spec_bind.mpr (spec_require.mpr ⟨fun _ => ?_, fun _ => hi1⟩)
  refine (attempt_keeps htrue _).spec_bind hi1 trivial (fun backendPlan s2 hi2 _ => ?_)
    fun _ _ hi' _ => hi'
  refine spec_bind.mpr fun s3 hi3 _ id hid => ?_
  have hfresh : (id : String) ∉ s3.drawn := hid.1
  have hnone : s3.runs id = none := by
    cases hrun : s3.runs id with
    | none => rfl
    | some run => exact absurd (hi3.settled id run hrun).2.1 hfresh
  -- Nobody has stored the new run, so it has not ended.
  have hi4 : Inv (s3.create j id) := by
    refine ⟨fun k run hrun => ?_, fun k id' hk => ?_⟩
    · obtain ⟨hid, hmem, hspent⟩ := hi3.settled k run hrun
      exact ⟨hid, List.mem_cons_of_mem _ hmem, hspent⟩
    · by_cases hkj : k = j
      · subst hkj
        obtain rfl : id = id' := by simpa [State.create] using hk
        refine ⟨List.mem_cons_self, fun st hst => ?_⟩
        simp [State.status, State.create, hnone] at hst
      · have hk' : s3.working k = some id' := by simpa [State.create, hkj] using hk
        exact ⟨List.mem_cons_of_mem _ (hi3.working k id' hk').1, (hi3.working k id' hk').2⟩
  refine ⟨⟨fun k hk => by simp [State.create, hk], fun runId st _ h => ⟨h, rfl⟩⟩, hi4, ?_⟩
  show Proc.Spec _ ((put j (newRun cfg request _ resources backendPlan id s3.now)).bind _) _ _ _
  refine (put_keeps rfl).spec_bind hi4 ?_ (fun _ s5 hi5 _ => publish_spec hi5) fun _ _ hi' _ => hi'
  exact Function.update_self ..

theorem authorizeReadOnly_spec (runId : String) (payload : AgentAuthorizationRequest)
    (sessionId operator : String) (hi : Inv s) :
    (authorizeReadOnly cfg j runId payload sessionId operator).Spec (logic cfg j)
      (fun _ s' => Inv s') (fun _ s' => Inv s') s := by
  rw [authorizeReadOnly]
  refine spec_bind.mpr ((required_spec (.authorizeReadOnly runId payload sessionId operator)
    runId (fun _ _ h => by cases h)
    (fun _ _ h => by cases h) hi).mono (fun run s1 h1 => ?_) fun _ _ h => h)
  obtain ⟨hi1, rfl, h1⟩ := h1
  refine spec_bind.mpr (spec_require.mpr ⟨fun hstate => ?_, fun _ => hi1⟩)
  have hopen : run.state.ended = false := by
    rw [of_decide_eq_true hstate]
    rfl
  have hw1 : Works j run.id s1 :=
    h1.resolve_right fun ho => absurd ho.1 (by simp [hopen])
  have hworks : ∀ s s', Rely j s s' → Works j run.id s → Works j run.id s' :=
    fun _ _ => works_rely
  refine spec_bind.mpr (spec_require.mpr ⟨fun _ => ?_, fun _ => hi1⟩)
  refine (catalog_keeps hworks _ _).spec_bind hi1 hw1 (fun resources s2 hi2 hw2 => ?_)
    fun _ _ hi' _ => hi'
  dsimp only
  split
  · exact invalidate_spec _ hi2 (.inl hw2)
  · split
    · exact invalidate_spec _ hi2 (.inl hw2)
    · refine spec_bind.mpr fun s3 hi3 hr3 id _ => ?_
      have hi4 : Inv (s3.draw id) := hi3.beside rfl rfl fun _ => List.mem_cons_of_mem _
      refine ⟨guar_beside rfl rfl fun _ => rfl, hi4, ?_⟩
      let a := newAuthorization cfg run (selectResource resources run.selectedResourceId) operator
        id s3.now
      have hi5 : Inv ((s3.draw id).note (.granted j a)) := hi4.beside rfl rfl fun _ h => h
      refine ⟨guar_beside rfl rfl fun _ => rfl, hi5, ?_⟩
      show Proc.Spec _ ((put j (authorizedRun run a s3.now)).bind _) _ _ _
      exact (put_keeps rfl).spec_bind hi5 (works_rely hr3 hw2) (fun _ s6 hi6 _ => publish_spec hi6)
        fun _ _ hi' _ => hi'

/-- The authorization of a run is found not confirmed, as far as the run was invalidated before. -/
theorem execute_spec (runId sessionId : String) (hi : Inv s) :
    (execute cfg j runId sessionId).Spec (logic cfg j) (fun _ s' => Inv s') (fun _ s' => Inv s')
      s := by
  rw [execute]
  refine spec_bind.mpr ((required_spec (.execute runId sessionId) runId (fun _ _ h => by cases h)
    (fun _ _ h => by cases h; rfl) hi).mono (fun run s1 h1 => ?_) fun _ _ h => h)
  obtain ⟨hi1, rfl, h1⟩ := h1
  refine spec_bind.mpr (spec_ofOption.mpr ⟨fun a ha => ?_, fun _ => hi1⟩)
  obtain ⟨hauth, hconsumed⟩ := Option.filter_eq_some_iff.mp ha
  have hunspent : run.unspent = true := by simp [AgentRun.unspent, hauth, hconsumed]
  let Taken (s : State) : Prop :=
    Works j run.id s ∨ run.state = .invalidated ∧ s.status run.id = some .invalidated
  have htaken : ∀ s s', Rely j s s' → Taken s → Taken s' := fun s s' hr h =>
    h.imp (works_rely hr) fun h => ⟨h.1, (hr.2 _ _ rfl h.2).1⟩
  have h1' : Taken s1 := h1.imp id fun ho => by
    have hstate := ho.2.2 hunspent
    exact ⟨hstate, hstate ▸ ho.2.1⟩
  have hinvalidate : ∀ {s'} reason, Inv s' → Taken s' → (invalidate j run reason).Spec
      (logic cfg j) (fun _ s' => Inv s') (fun _ s' => Inv s') s' := fun reason hi' h' =>
    invalidate_spec reason hi' (h'.imp id fun h => h.2)
  show Proc.Spec _ (if a.expiresAt ≤ s1.now then _ else _) _ _ s1
  split
  · exact hinvalidate _ hi1 h1'
  · refine spec_bind.mpr (spec_bind.mpr (spec_bind.mpr
      fun s2 hi2 hr2 answer hcalm => ?_))
    have h2 := htaken _ _ hr2 h1'
    cases answer with
    | error e => exact hi2
    | ok resources =>
      obtain ⟨hg, hi3, h3⟩ := note_keeps htaken (e := .catalogued j resources) (fun _ => rfl) hi2 h2
      refine ⟨hg, hi3, ?_⟩
      show Proc.Spec _ (if _ then _ else _) _ _ _
      split
      · exact hinvalidate _ hi3 h3
      · next hsame =>
        split
        · exact hinvalidate _ hi3 h3
        · next hfingerprint =>
          refine runDiagnostics_spec _ a hi3 (h3.resolve_right fun h => ?_)
          have hnot := hcalm.2 h.1
          simp [confirms, hsame, hauth, not_not.mp hfingerprint] at hnot

theorem cancel_spec (runId sessionId : String) (hi : Inv s) :
    (cancel cfg j runId sessionId).Spec (logic cfg j) (fun _ s' => Inv s') (fun _ s' => Inv s')
      s := by
  rw [cancel]
  refine spec_bind.mpr ((required_spec (.cancel runId sessionId) runId (fun _ _ h => by cases h; rfl)
    (fun _ _ h => by cases h) hi).mono (fun run s1 h1 => ?_) fun _ _ h => h)
  obtain ⟨hi1, rfl, h1⟩ := h1
  split
  case h_5 hcompleted hfailed hcancelled hinvalidated =>
    have hw1 : Works j run.id s1 := h1.resolve_right fun ho => by
      have hended := ho.1
      have hpart : run.state ≠ .partiallyCompleted := ho.2.2
      revert hended hpart hcompleted hfailed hcancelled hinvalidated
      cases run.state <;> simp [AgentRunState.ended]
    have hput : (put j (cancelledRun run s1.now)).Spec (logic cfg j) (fun _ s' => Inv s')
        (fun _ s' => Inv s') s1 := put_ended hi1 hw1 rfl fun hf => by cases hf
    show Proc.Spec _ ((put j (cancelledRun run s1.now)).bind _) _ _ s1
    exact spec_bind.mpr (hput.mono (fun _ _ hi' => publish_spec hi') fun _ _ hi' => hi')
  all_goals exact hi1

theorem handler_spec (request : Request) (hi : Inv s) :
    (handler cfg j request).Spec (logic cfg j) (fun _ s' => Inv s') (fun _ s' => Inv s') s := by
  have hi1 : Inv (s.note (.received j request)) := hi.beside rfl rfl fun _ => id
  have hdispatch : (dispatch cfg j request).Spec (logic cfg j) (fun _ s' => Inv s')
      (fun _ s' => Inv s') (s.note (.received j request)) := by
    cases request with
    | start request sessionId => exact start_spec request sessionId hi1
    | authorizeReadOnly runId payload sessionId operator =>
      exact authorizeReadOnly_spec runId payload sessionId operator hi1
    | execute runId sessionId => exact execute_spec runId sessionId hi1
    | cancel runId sessionId => exact cancel_spec runId sessionId hi1
  have hfinish : ∀ s, Inv s → Guar j s (s.finish j) ∧ Inv (s.finish j) := by
    refine fun s hi => ⟨⟨fun k hk => Function.update_of_ne hk _ _, fun _ _ _ h => ⟨h, rfl⟩⟩,
      hi.settled, fun k id hk => ?_⟩
    by_cases hkj : k = j
    · subst hkj
      simp [State.finish] at hk
    · exact hi.working k id (by simpa [State.finish, hkj] using hk)
  refine ⟨guar_beside rfl rfl fun _ => rfl, hi1, spec_andFinally.mpr (hdispatch.mono ?_ ?_)⟩ <;>
    exact fun _ s' hi' => ⟨(hfinish s' hi').1, (hfinish s' hi').2, (hfinish s' hi').2⟩

end Calls

def contract (cfg : Config) : Contract (calmSystem cfg) where
  inv := Inv
  rely := Rely
  guar := Guar
  fresh j s := s.working j = none
  post _ _ _ _ := True
  postE _ _ _ _ := True
  refl _ s := ⟨rfl, .refl s⟩
  trans _ _ _ _ hab hbc := ⟨hbc.1.trans hab.1, hab.2.trans hbc.2⟩
  guar_rely _ k _ _ hjk hg := ⟨hg.1 k hjk.symm, hg.2⟩
  fresh_rely _ _ _ hf hr := hr.1.trans hf
  post_rely _ _ _ _ _ _ _ := trivial
  postE_rely _ _ _ _ _ _ _ := trivial
  world _ _ hi _ := ⟨hi.beside rfl rfl fun _ => id, fun _ => ⟨rfl, fun _ _ _ h => ⟨h, rfl⟩⟩⟩
  handler _ request _ hi _ _ := (handler_spec request hi).mono (fun _ _ _ => trivial)
    fun _ _ _ => trivial

/-- In every run of calm calls, a run that has ended keeps its state, and none of its capabilities
is started any more. -/
theorem final_of_calm (cfg : Config) (now : DateTime) (runs : String → Option AgentRun)
    (drawn : List String) (settled : Settled runs drawn)
    (p p' : Pool State Res Error AgentRun Request) (moves : List (Move Res Request DateTime))
    (reach : (calmSystem cfg).Reachable (State.initial now runs drawn) p)
    (run : (calmSystem cfg).Run p moves p') : Final p.state p'.state := by
  have hi : Inv (State.initial now runs drawn) := ⟨settled, fun _ _ h => by cases h⟩
  have holds := (contract cfg).sound hi (fun _ => rfl) reach
  exact holds.run_rel .refl (fun _ _ _ => .trans) (fun j s s' (hg : Guar j s s') => hg.2)
    (fun _ _ _ _ _ _ h => ⟨h, rfl⟩) run

/-! ### Sample runs -/

/-- The condition on an answer, among `n` tasks. -/
def calmly (n : Nat) (s : State) : (o : Op) → Res o → Bool
  | .call (.read (.cancel runId _)), _ => s.status runId ≠ some .partiallyCompleted
  | .call (.read (.execute runId _)), _ => s.status runId ≠ some .cancelled
  | .call (.catalog (.execute _ _) run), _ => run.all (·.state ≠ .invalidated)
  | .write task run, _ =>
    !run.state.ended || (List.range n).all fun k => k = task || s.working k ≠ some run.id
  | o, r => allowed s o r

theorem calm_of_calmly {cfg : Config} {n : Nat} {s : State} {o : Op} {r : Res o}
    (hidle : ∀ k, n ≤ k → s.working k = none) (h : calmly n s o r = true) :
    (calmSystem cfg).answers s o r := by
  cases o with
  | uuid4 => exact ⟨answers_of_allowed cfg (o := .uuid4) h, trivial⟩
  | write task run =>
    refine ⟨trivial, ?_⟩
    cases r with
    | false => trivial
    | true =>
      intro hended k hk hworking
      by_cases hkn : n ≤ k
      · rw [hidle k hkn] at hworking
        cases hworking
      · rw [calmly, hended] at h
        have := List.all_eq_true.mp h k (List.mem_range.mpr (by omega))
        simp [hk, hworking] at this
  | call c =>
    refine ⟨trivial, ?_⟩
    cases c with
    | read request =>
      cases request with
      | execute runId sessionId =>
        rcases r with e | _ | _
        · trivial
        · trivial
        · intro run hrun _ hstate
          refine (of_decide_eq_true h : s.status runId ≠ some .cancelled) ?_
          rw [State.status, hrun, Option.map_some, hstate]
      | cancel runId sessionId =>
        rcases r with e | _ | _
        · trivial
        · trivial
        · show s.status runId ≠ some .partiallyCompleted
          exact of_decide_eq_true h
      | start | authorizeReadOnly => trivial
    | catalog request run =>
      cases request with
      | execute runId sessionId =>
        cases run with
        | none => trivial
        | some run =>
          rcases r with e | resources
          · trivial
          · exact fun hstate => absurd hstate (of_decide_eq_true h)
      | start | authorizeReadOnly | cancel => trivial
    | thread | reading | loaded | plan | publish | analyze | execute => trivial

def calmMove (p : Pool State Res Error AgentRun Request) : Move Res Request DateTime → Bool
  | .resume j answer => match p.tasks[j]? with
    | some (_, .call o _) => calmly p.tasks.length p.state o (answer o)
    | _ => false
  | _ => true

theorem legal_of_calmMove (cfg : Config) (p : Pool State Res Error AgentRun Request)
    (m : Move Res Request DateTime) (holds : (contract cfg).Holds p) (h : calmMove p m = true) :
    (calmSystem cfg).Legal p m := by
  cases m with
  | start request => exact ⟨trivial, trivial⟩
  | world now => exact trivial
  | resume j answer =>
    rw [calmMove] at h
    split at h
    · next t o k hj => exact ⟨t, o, k, hj, calm_of_calmly holds.fresh h⟩
    · cases h

/-- A run is started, authorized and executed to its end. -/
def endingMoves : List (Move Res Request DateTime) :=
  authorizedMoves ++ .start (.execute "run" "session") :: sampleResumes 2 21 ""

/-- The completed run is executed and cancelled once more, while another one is started and
cancelled. -/
def laterMoves : List (Move Res Request DateTime) :=
  .start (.execute "run" "session") :: .start (.start ⟨"memoria", none⟩ "session") ::
    sampleResumes 3 3 "" ++ sampleResumes 4 7 "second" ++ .start (.cancel "run" "session") ::
    sampleResumes 5 2 "" ++ .start (.cancel "second" "session") :: sampleResumes 6 7 ""

theorem final_of_calm_sample :
    let p := (calmSystem sampleConfig).play
      (System.initial (State.initial 0 (fun _ => none) [])) endingMoves
    let p' := (calmSystem sampleConfig).play p laterMoves
    p.state.status "run" = some .completed ∧ p'.state.status "second" = some .cancelled ∧
      Final p.state p'.state := by
  have hi : Inv (State.initial 0 (fun _ => none) []) :=
    ⟨fun _ _ h => (by cases h), fun _ _ h => (by cases h)⟩
  have hstart : (contract sampleConfig).Holds (System.initial (State.initial 0 (fun _ => none) [])) :=
    (contract sampleConfig).sound hi (fun _ => rfl) ⟨[], .nil _⟩
  have hending : (calmSystem sampleConfig).Run _ endingMoves _ :=
    hstart.run_of_checked (legal_of_calmMove sampleConfig) (by decide +kernel)
  refine ⟨by decide +kernel, by decide +kernel, ?_⟩
  refine final_of_calm sampleConfig 0 (fun _ => none) [] (fun _ _ h => by cases h) _ _ laterMoves
    ⟨endingMoves, hending⟩ ?_
  exact ((contract sampleConfig).sound hi (fun _ => rfl) ⟨endingMoves, hending⟩).run_of_checked
    (legal_of_calmMove sampleConfig) (by decide +kernel)

/-- An authorized run is cancelled, and then it is executed. -/
theorem cancelled_executes : ¬∀ (cfg : Config) (now : DateTime) (runs : String → Option AgentRun)
    (drawn : List String), Settled runs drawn →
    ∀ (p p' : Pool State Res Error AgentRun Request) (moves : List (Move Res Request DateTime)),
    (system cfg).Reachable (State.initial now runs drawn) p → (system cfg).Run p moves p' →
    Final p.state p'.state := by
  intro claim
  let before := authorizedMoves ++ .start (.cancel "run" "session") :: sampleResumes 2 7 ""
  let moves := Move.start (Request.execute "run" "session") :: sampleResumes 3 7 ""
  let start : Pool State Res Error AgentRun Request :=
    System.initial (State.initial 0 (fun _ => none) [])
  let p := (system sampleConfig).play start before
  have hfinal := claim sampleConfig 0 (fun _ => none) [] (fun _ _ h => by cases h) p
    ((system sampleConfig).play p moves) moves
    ⟨before, System.run_of_checked (legal_of_admissible sampleConfig) (by decide +kernel)⟩
    (System.run_of_checked (legal_of_admissible sampleConfig) (by decide +kernel))
  have hstatus : p.state.status "run" = some .cancelled := by decide +kernel
  have hrunning : ((system sampleConfig).play p moves).state.status "run" =
      some .runningDiagnostic := by decide +kernel
  exact absurd (hrunning.symm.trans (hfinal "run" .cancelled rfl hstatus).1) (by decide)

end Ares.Agent.Ended
