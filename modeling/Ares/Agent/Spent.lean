import Ares.Agent.Confined

/-! An authorization is spent by one execution.  The flag `consumed` is read when an execution begins
and stored when its last diagnostic has run, so an execution that reads it between the two, or after
the first one was interrupted, finds the authorization as good as new.  Where every execution reads
its run before that window opens or after it has closed, it finds a consumed authorization after it,
and all executions of a run but one are refused. -/

namespace Ares.Agent.Spent

open Coop Data Storage

def executes (cfg : Config) (s : State) : Request → Prop
  | .execute runId _ => safeId cfg runId = true ∧ (s.runs runId).isSome
  | _ => False

/-- No execution reads a run between another one's read of the authorization that is not consumed and
its store of the completed run, and an execution that is refused is not interrupted while it reads. -/
def serial (s : State) : (o : Op) → Res o → Prop
  | .call (.reading _), r => r = .ok ()
  | .call (.read (.execute runId _)), r => r = .ok true ∧ s.spending runId = false
  | .call (.loaded _ run), r => run.any (·.unspent) = false → r = .ok ()
  | _, _ => True

/-- Executions in any order, with any answers from outside. -/
def executions (cfg : Config) : System State Res Error AgentRun Request DateTime :=
  (system cfg).restrict (executes cfg) fun _ _ _ => True

def serialExecutions (cfg : Config) : System State Res Error AgentRun Request DateTime :=
  (system cfg).restrict (executes cfg) serial

/-- The execution `j` has started no capability of the run and has no end but a refusal. -/
def Refused (p : Pool State Res Error AgentRun Request) (runId : String) (j : Nat) : Prop :=
  (∀ c, .started j runId c ∉ p.state.history) ∧
    ∀ t r, p.ended j = some (t, some r) → r = .error (.agent "AGENT_AUTHORIZATION_REQUIRED")

/-- All executions of a run but one are refused. -/
def SpentOnce (p : Pool State Res Error AgentRun Request) : Prop :=
  ∀ runId i j, i ≠ j →
    (∃ sessionId q, p.tasks[i]? = some (.execute runId sessionId, q)) →
    (∃ sessionId q, p.tasks[j]? = some (.execute runId sessionId, q)) →
    Refused p runId i ∨ Refused p runId j

/-- The execution `j` has read the authorization of the run as not consumed. -/
def Spends (j : Nat) (runId : String) (s : State) : Prop := s.spender runId = some j

def Holds (j : Nat) (runId : String) (s : State) : Prop :=
  Spends j runId s ∧ s.spending runId = true

/-- A capability is started by the execution that spends the authorization of its run, and what that
execution has stored in the end is consumed. -/
structure Inv (s : State) : Prop where
  keyed : ∀ k run, s.runs k = some run → run.id = k
  started : ∀ j runId c, .started j runId c ∈ s.history → Spends j runId s
  consumed : ∀ k, (s.spender k).isSome → s.spending k = false →
    ∀ run, s.runs k = some run → run.unspent = false

/-- Runs stay stored, and authorizations spent. -/
structure Grown (s s' : State) : Prop where
  stored : ∀ k, (s.runs k).isSome → (s'.runs k).isSome
  spent : ∀ k j, Spends j k s → Spends j k s'

/-- Nobody else stores the completed run of the execution `j`. -/
structure Rely (j : Nat) (s s' : State) : Prop where
  grown : Grown s s'
  held : ∀ k, Holds j k s → Holds j k s'

structure Guar (j : Nat) (s s' : State) : Prop where
  grown : Grown s s'
  held : ∀ k i, j ≠ i → Holds i k s → Holds i k s'

def logic (cfg : Config) (j : Nat) : Logic State Res :=
  ⟨Inv, Rely j, Guar j, (serialExecutions cfg).answers⟩

section Steps

variable {cfg : Config} {j : Nat} {s : State} {run : AgentRun} {runId : String}

theorem Grown.refl (s : State) : Grown s s := ⟨fun _ => id, fun _ _ => id⟩

theorem Grown.trans {a b c : State} (hab : Grown a b) (hbc : Grown b c) : Grown a c :=
  ⟨fun k h => hbc.stored k (hab.stored k h), fun k j h => hbc.spent k j (hab.spent k j h)⟩

theorem guar_same {s' : State} (hruns : s'.runs = s.runs) (hspender : s'.spender = s.spender)
    (hspending : s'.spending = s.spending) : Guar j s s' := by
  refine ⟨⟨fun k h => by rwa [hruns], fun k i h => ?_⟩, fun k i _ h => ?_⟩
  · rwa [Spends, hspender]
  · rwa [Holds, Spends, hspender, hspending]

theorem Inv.note (hi : Inv s) {e : Event}
    (he : ∀ j runId c, e = .started j runId c → Spends j runId s) : Inv (s.note e) :=
  ⟨hi.keyed, fun j runId c h => (List.mem_cons.mp h).elim (fun heq => he j runId c heq.symm)
    (hi.started j runId c), hi.consumed⟩

theorem runs_store (k : String) :
    (s.store j run).runs k = if k = run.id then some run else s.runs k := by
  by_cases hk : k = run.id <;> simp [State.store, hk]

theorem grown_store : Grown s (s.store j run) := by
  refine ⟨fun k h => ?_, fun _ _ => id⟩
  rw [runs_store]
  split
  · rfl
  · exact h

theorem keyed_store (hi : Inv s) (k : String) (run' : AgentRun)
    (h : (s.store j run).runs k = some run') : run'.id = k := by
  rw [runs_store] at h
  split at h
  · next hk => exact Option.some.inj h ▸ hk.symm
  · exact hi.keyed k run' h

theorem started_store (hi : Inv s) (i : Nat) (r c : String)
    (h : .started i r c ∈ (s.store j run).history) : Spends i r (s.store j run) :=
  hi.started i r c ((List.mem_cons.mp h).resolve_left (by simp))

theorem store_open (hi : Inv s) (h : Holds j run.id s) (hopen : finished run.state = false) :
    Guar j s (s.store j run) ∧ Inv (s.store j run) ∧ Holds j run.id (s.store j run) := by
  have hspending : (s.store j run).spending = s.spending := by simp [State.store, hopen]
  have hholds : ∀ i k, Holds i k s → Holds i k (s.store j run) := fun i k hik =>
    ⟨hik.1, (congrFun hspending k).trans hik.2⟩
  refine ⟨⟨grown_store, fun k i _ => hholds i k⟩,
    ⟨keyed_store hi, started_store hi, fun k hspent hclosed run' hrun' => ?_⟩, hholds j _ h⟩
  rw [hspending] at hclosed
  rw [runs_store, if_neg] at hrun'
  · exact hi.consumed k hspent hclosed run' hrun'
  · rintro rfl
    exact absurd (h.2.symm.trans hclosed) (by decide)

theorem store_completed (hi : Inv s) (h : Holds j run.id s) (hfinished : finished run.state = true)
    (hconsumed : run.unspent = false) :
    Guar j s (s.store j run) ∧ Inv (s.store j run) ∧ Spends j run.id (s.store j run) := by
  have hspending : (s.store j run).spending = Function.update s.spending run.id false := by
    simp [State.store, hfinished]
  refine ⟨⟨grown_store, fun k i hij hik => ⟨hik.1, ?_⟩⟩,
    ⟨keyed_store hi, started_store hi, fun k hspent hclosed run' hrun' => ?_⟩, h.1⟩
  · have hk : k ≠ run.id := by
      rintro rfl
      exact hij (Option.some.inj (h.1.symm.trans hik.1))
    rw [hspending, Function.update_of_ne hk]
    exact hik.2
  · rw [runs_store] at hrun'
    split at hrun'
    · exact Option.some.inj hrun' ▸ hconsumed
    · next hk =>
      rw [hspending, Function.update_of_ne hk] at hclosed
      exact hi.consumed k hspent hclosed run' hrun'

/-- Nobody holds the run that is read: if its authorization is not consumed, nobody has spent it. -/
theorem read_step (j : Nat) (sessionId : String) (hi : Inv s) (hfree : s.spending runId = false) :
    Guar j s (s.read j (.execute runId sessionId) runId) ∧
      Inv (s.read j (.execute runId sessionId) runId) ∧
      ∀ run, s.runs runId = some run → run.unspent = true →
        Holds j runId (s.read j (.execute runId sessionId) runId) := by
  by_cases hunspent : (s.runs runId).any (·.unspent) = true
  · have hspender : (s.read j (.execute runId sessionId) runId).spender =
        Function.update s.spender runId (some j) := by simp [State.read, hunspent]
    have hspending : (s.read j (.execute runId sessionId) runId).spending =
        Function.update s.spending runId true := by simp [State.read, hunspent]
    have hunspended : s.spender runId = none := by
      obtain ⟨run, hrun, hrununspent⟩ := (Option.any_eq_true _ _).mp hunspent
      by_contra hsome
      have hconsumed := hi.consumed runId (Option.isSome_iff_ne_none.mpr hsome) hfree run hrun
      exact absurd (hrununspent.symm.trans hconsumed) (by decide)
    have hspent : ∀ i k, Spends i k s →
        Spends i k (s.read j (.execute runId sessionId) runId) := by
      intro i k h
      have hk : k ≠ runId := by
        rintro rfl
        exact absurd (h.symm.trans hunspended) (by simp)
      rw [Spends, hspender, Function.update_of_ne hk]
      exact h
    refine ⟨⟨⟨fun _ => id, fun k i => hspent i k⟩, fun k i _ h => ⟨hspent i k h.1, ?_⟩⟩,
      ⟨hi.keyed, fun i r c h => hspent i r (hi.started i r c h), fun k hsome hclosed => ?_⟩,
      fun _ _ _ => ⟨?_, ?_⟩⟩
    · have hk : k ≠ runId := by
        rintro rfl
        exact absurd (h.2.symm.trans hfree) (by decide)
      rw [hspending, Function.update_of_ne hk]
      exact h.2
    · by_cases hk : k = runId
      · subst hk
        rw [hspending, Function.update_self] at hclosed
        cases hclosed
      · rw [hspending, Function.update_of_ne hk] at hclosed
        rw [hspender, Function.update_of_ne hk] at hsome
        exact hi.consumed k hsome hclosed
    · rw [Spends, hspender, Function.update_self]
    · rw [hspending, Function.update_self]
  · have hspender : (s.read j (.execute runId sessionId) runId).spender = s.spender := by
      simp [State.read, hunspent]
    have hspending : (s.read j (.execute runId sessionId) runId).spending = s.spending := by
      simp [State.read, hunspent]
    have hguar : Guar j s (s.read j (.execute runId sessionId) runId) :=
      guar_same rfl hspender hspending
    refine ⟨hguar, ⟨hi.keyed, fun i r c h => hguar.grown.spent r i (hi.started i r c h), ?_⟩, ?_⟩
    · rw [hspender, hspending]
      exact hi.consumed
    · intro run hrun hrununspent
      exact absurd (by rw [hrun]; exact hrununspent) hunspent

end Steps

/-! ### The calls -/

section Calls

variable {cfg : Config} {j : Nat} {s : State} {runId : String}

theorem holds_rely (s s' : State) (hr : Rely j s s') (h : Holds j runId s) : Holds j runId s' :=
  hr.held runId h

theorem spends_rely (s s' : State) (hr : Rely j s s') (h : Spends j runId s) : Spends j runId s' :=
  hr.grown.spent runId j h

theorem attempt_keeps (c : Call) : (attempt c).Keeps (logic cfg j) (Holds j runId) :=
  quiet_attempt.keeps holds_rely

theorem note_keeps {e : Event} (he : ∀ i r c, e = .started i r c → i = j ∧ r = runId) :
    (Proc.modify (State.note e) : Task Unit).Keeps (logic cfg j) (Holds j runId) :=
  keeps_modify fun s hi h => ⟨guar_same rfl rfl rfl, hi.note fun i r c heq => by
    obtain ⟨rfl, rfl⟩ := he i r c heq
    exact h.1, h⟩

theorem put_keeps {run : AgentRun} (hid : run.id = runId) (hopen : finished run.state = false) :
    (put j run).Keeps (logic cfg j) (Holds j runId) := by
  subst hid
  refine (attempt_keeps _).bind fun _ => ?_
  refine Proc.Keeps.bind (quiet_perform.keeps holds_rely) fun written => ?_
  refine Proc.Keeps.bind ?_ fun _ => (attempt_keeps _).bind fun _ =>
    quiet_require.keeps holds_rely
  cases written with
  | false => exact keeps_ret ()
  | true => exact keeps_modify fun s hi h => store_open hi h hopen

theorem put_completed {run : AgentRun} (hid : run.id = runId) (hfinished : finished run.state = true)
    (hconsumed : run.unspent = false) (hi : Inv s) (h : Holds j runId s) :
    (put j run).Spec (logic cfg j) (fun _ s' => Inv s' ∧ Spends j runId s')
      (fun _ s' => Inv s' ∧ Spends j runId s') s := by
  subst hid
  have hrest : ∀ written s', Inv s' → Spends j run.id s' →
      ((attempt .thread).bind fun _ => require written (.exception none) : Task Unit).Spec
        (logic cfg j) (fun _ s' => Inv s' ∧ Spends j run.id s')
        (fun _ s' => Inv s' ∧ Spends j run.id s') s' := fun written s' hi' h' =>
    ((quiet_attempt.keeps spends_rely).bind fun _ =>
      quiet_require.keeps spends_rely) s' hi' h'
  refine (attempt_keeps _).spec_bind hi h (fun _ s1 hi1 h1 => ?_) fun _ _ hi' h' => ⟨hi', h'.1⟩
  refine spec_bind.mpr fun s2 hi2 hr2 written _ => ?_
  have h2 := holds_rely _ _ hr2 h1
  cases written with
  | false => exact hrest false s2 hi2 h2.1
  | true =>
    obtain ⟨hg, hi3, h3⟩ := store_completed hi2 h2 hfinished hconsumed
    exact ⟨hg, hi3, hrest true _ hi3 h3⟩

theorem invalidate_keeps {run : AgentRun} (hid : run.id = runId) (reason : String) :
    (invalidate j run reason).Keeps (logic cfg j) (Holds j runId) := by
  refine (quiet_reading.keeps holds_rely).bind fun now => ?_
  have hput : (put j (invalidatedRun run reason now)).Keeps (logic cfg j) (Holds j runId) :=
    put_keeps hid rfl
  exact hput.bind fun _ => (attempt_keeps _).bind fun _ => keeps_ret _

theorem note_keeps_idle {e : Event} (he : e.Idle) :
    (Proc.modify (State.note e) : Task Unit).Keeps (logic cfg j) (Holds j runId) :=
  note_keeps fun _ _ _ h => by
    subst h
    exact he.elim

theorem catalog_keeps (request : Request) (run : Option AgentRun) :
    (catalog j request run).Keeps (logic cfg j) (Holds j runId) :=
  (attempt_keeps _).bind fun _ => (note_keeps_idle (e := .catalogued j _) trivial).bind
    fun _ => keeps_ret _

theorem finished_finalState (running : AgentRun) (p : Progress) :
    finished (finalState running p) = true := by
  rw [finalState]
  split
  · rfl
  · split <;> rfl

theorem runDiagnostics_spec {run : AgentRun} (hid : run.id = runId) (request : Request)
    (a : ReadOnlyAuthorization) (hi : Inv s) (h : Holds j runId s) :
    (runDiagnostics j request run a).Spec (logic cfg j) (fun _ s' => Inv s' ∧ Spends j runId s')
      (fun _ s' => Inv s' ∧ Spends j runId s') s := by
  have hstop : ∀ (e : Error) s', Inv s' → Holds j runId s' → Inv s' ∧ Spends j runId s' :=
    fun _ _ hi' h' => ⟨hi', h'.1⟩
  rw [runDiagnostics]
  refine (quiet_reading.keeps holds_rely).spec_bind hi h (fun now s1 hi1 h1 => ?_) hstop
  have hput : (put j (runningRun run a now)).Keeps (logic cfg j) (Holds j runId) :=
    put_keeps hid rfl
  refine hput.spec_bind hi1 h1 (fun _ s2 hi2 h2 => ?_) hstop
  refine (attempt_keeps _).spec_bind hi2 h2 (fun _ s3 hi3 h3 => ?_) hstop
  have hstarted : ∀ c, (Proc.modify (State.note (.started j run.id c)) : Task Unit).Keeps
      (logic cfg j) (Holds j runId) := fun c => note_keeps fun i r c' h => by
    cases h
    exact ⟨rfl, hid⟩
  have hdiagnose : ∀ i steps p, (diagnose j (runningRun run a now) a i steps p).Keeps
      (logic cfg j) (Holds j runId) := diagnose_keeps (runningRun run a now) holds_rely hstarted
    (fun _ _ => note_keeps fun _ _ _ h => by cases h) (fun _ _ => put_keeps hid rfl) a
  refine (hdiagnose _ _ _).spec_bind hi3 h3 (fun p s4 hi4 h4 => ?_) hstop
  refine (catalog_keeps _ _).spec_bind hi4 h4 (fun refreshed s5 hi5 h5 => ?_) hstop
  refine (quiet_reading.keeps holds_rely).spec_bind hi5 h5 (fun now' s6 hi6 h6 => ?_) hstop
  have hcompleted : (put j (completedRun (runningRun run a now) a p refreshed now')).Spec
      (logic cfg j) (fun _ s' => Inv s' ∧ Spends j runId s')
      (fun _ s' => Inv s' ∧ Spends j runId s') s6 :=
    put_completed hid (finished_finalState _ _) rfl hi6 h6
  refine spec_bind.mpr (hcompleted.mono (fun _ s7 h7 => ?_) fun _ _ h => h)
  exact ((quiet_attempt.keeps spends_rely).bind fun _ => keeps_ret _) s7 h7.1 h7.2

/-- What an execution reads, with the authorization held if it was not consumed. -/
def Taken (j : Nat) (runId : String) (run : AgentRun) (s : State) : Prop :=
  run.id = runId ∧ (run.unspent = true → Holds j runId s)

theorem readRun_spec (sessionId : String) (hstored : (s.runs runId).isSome) :
    (readRun j (.execute runId sessionId) runId).Spec (logic cfg j)
      (fun found s' => Inv s' ∧ ∃ run, found = some run ∧ Taken j runId run s')
      (fun _ _ => False) s := by
  refine spec_bind.mpr (spec_bind.mpr fun s1 hi1 hr1 answer ha => ?_)
  obtain ⟨rfl, hfree⟩ := ha.2
  obtain ⟨hg, hi2, hholds⟩ := read_step j sessionId hi1 hfree
  obtain ⟨run, hrun⟩ := Option.isSome_iff_exists.mp (hr1.grown.stored runId hstored)
  exact ⟨hg, hi2, hi2, run, hrun, hi1.keyed runId run hrun, hholds run hrun⟩

theorem required_spec (sessionId : String) (hsafe : safeId cfg runId = true)
    (hstored : (s.runs runId).isSome) :
    (required cfg j (.execute runId sessionId) runId).Spec (logic cfg j)
      (fun run s' => Inv s' ∧ Taken j runId run s') (fun _ s' => Inv s' ∧ Spends j runId s') s := by
  have hget : (get cfg j (.execute runId sessionId) runId).Spec (logic cfg j)
      (fun found s' => Inv s' ∧ ∃ run, found = some run ∧ Taken j runId run s')
      (fun _ s' => Inv s' ∧ Spends j runId s') s := by
    rw [get, if_pos hsafe]
    refine spec_bind.mpr (spec_bind.mpr fun s1 _ hr1 answer ha => ?_)
    obtain rfl : answer = .ok () := ha.2
    refine spec_bind.mpr ((readRun_spec sessionId (hr1.grown.stored runId hstored)).mono
      (fun found s2 h2 => ?_) fun _ _ h => h.elim)
    obtain ⟨-, run, rfl, hid, hholds⟩ := h2
    refine spec_bind.mpr (spec_bind.mpr fun s3 hi3 hr3 answer ha => ?_)
    have hholds3 : run.unspent = true → Holds j runId s3 := fun h => hr3.held runId (hholds h)
    cases answer with
    | ok => exact ⟨hi3, run, rfl, hid, hholds3⟩
    | error e =>
      refine ⟨hi3, (hholds3 ?_).1⟩
      by_contra hspent
      exact nomatch ha.2 (by simpa using hspent)
  refine spec_bind.mpr (hget.mono (fun found s1 h1 => ?_) fun _ _ h => h)
  obtain ⟨hi1, run, rfl, htaken⟩ := h1
  have hi2 : Inv (s1.note (.found j s1.now run)) := hi1.note fun _ _ _ h => nomatch h
  exact ⟨guar_same rfl rfl rfl, hi2, hi2, htaken⟩

theorem execute_spec (sessionId : String) (hsafe : safeId cfg runId = true)
    (hstored : (s.runs runId).isSome) :
    (execute cfg j runId sessionId).Spec (logic cfg j) (fun _ s' => Inv s' ∧ Spends j runId s')
      (fun e s' => Inv s' ∧ (e = .agent "AGENT_AUTHORIZATION_REQUIRED" ∨ Spends j runId s')) s := by
  rw [execute]
  refine spec_bind.mpr ((required_spec sessionId hsafe hstored).mono (fun run s1 h1 => ?_)
    fun _ _ h => ⟨h.1, .inr h.2⟩)
  obtain ⟨hi1, hid, hholds⟩ := h1
  refine spec_bind.mpr (spec_ofOption.mpr ⟨fun a ha => ?_, fun _ => ⟨hi1, .inl rfl⟩⟩)
  obtain ⟨hauth, hconsumed⟩ := Option.filter_eq_some_iff.mp ha
  have hs1 : Holds j runId s1 := hholds (by simp [AgentRun.unspent, hauth, hconsumed])
  have hspec : ∀ {p : Task AgentRun}, p.Spec (logic cfg j) (fun _ s' => Inv s' ∧ Spends j runId s')
      (fun _ s' => Inv s' ∧ Spends j runId s') s1 →
      p.Spec (logic cfg j) (fun _ s' => Inv s' ∧ Spends j runId s')
        (fun e s' => Inv s' ∧ (e = .agent "AGENT_AUTHORIZATION_REQUIRED" ∨ Spends j runId s')) s1 :=
    fun hp => hp.mono (fun _ _ h => h) fun _ _ h => ⟨h.1, .inr h.2⟩
  have hinvalid : ∀ reason s', Inv s' → Holds j runId s' →
      (invalidate j run reason).Spec (logic cfg j) (fun _ s' => Inv s' ∧ Spends j runId s')
        (fun _ s' => Inv s' ∧ Spends j runId s') s' := fun reason s' hi' h' =>
    (invalidate_keeps hid reason s' hi' h').mono (fun _ _ h => ⟨h.1, h.2.1⟩)
      fun _ _ h => ⟨h.1, h.2.1⟩
  have hstop : ∀ (e : Error) s', Inv s' → Holds j runId s' → Inv s' ∧ Spends j runId s' :=
    fun _ _ hi' h' => ⟨hi', h'.1⟩
  refine hspec ((quiet_reading.keeps holds_rely).spec_bind hi1 hs1 (fun now s2 hi2 h2 => ?_)
    hstop)
  split
  · exact hinvalid _ s2 hi2 h2
  · refine (catalog_keeps _ _).spec_bind hi2 h2 (fun resources s3 hi3 h3 => ?_) hstop
    dsimp only
    split
    · exact hinvalid _ s3 hi3 h3
    · split
      · exact hinvalid _ s3 hi3 h3
      · exact runDiagnostics_spec hid _ _ hi3 h3

end Calls

def Ending (j : Nat) (r : Except Error AgentRun) (request : Request) (s : State) : Prop :=
  ∀ runId sessionId, request = .execute runId sessionId →
    r = .error (.agent "AGENT_AUTHORIZATION_REQUIRED") ∨ Spends j runId s

def contract (cfg : Config) : Contract (serialExecutions cfg) where
  inv := Inv
  rely := Rely
  guar := Guar
  fresh _ _ := True
  post j request a s := Ending j (.ok a) request s
  postE j request e s := Ending j (.error e) request s
  refl _ s := ⟨.refl s, fun _ => id⟩
  trans _ _ _ _ hab hbc := ⟨hab.grown.trans hbc.grown, fun k h => hbc.held k (hab.held k h)⟩
  guar_rely _ k _ _ hne hg := ⟨hg.grown, fun runId => hg.held runId k hne⟩
  fresh_rely _ _ _ _ _ := trivial
  post_rely _ _ _ _ _ h hr runId sessionId heq :=
    (h runId sessionId heq).imp id (hr.grown.spent runId _)
  postE_rely _ _ _ _ _ h hr runId sessionId heq :=
    (h runId sessionId heq).imp id (hr.grown.spent runId _)
  world _ _ hi _ := ⟨⟨hi.keyed, hi.started, hi.consumed⟩, fun _ => ⟨⟨fun _ => id, fun _ _ => id⟩,
    fun _ => id⟩⟩
  handler j request s hi _ hadmits := by
    cases request with
    | execute runId sessionId =>
      obtain ⟨hsafe, hstored⟩ := hadmits.2
      have hi1 : Inv (s.note (.received j (.execute runId sessionId))) :=
        hi.note fun _ _ _ h => nomatch h
      have hexecute : (execute cfg j runId sessionId).Spec (logic cfg j)
          (fun _ s' => Inv s' ∧ Spends j runId s')
          (fun e s' => Inv s' ∧ (e = .agent "AGENT_AUTHORIZATION_REQUIRED" ∨ Spends j runId s'))
          (s.note (.received j (.execute runId sessionId))) :=
        execute_spec sessionId hsafe hstored
      refine ⟨guar_same rfl rfl rfl, hi1, spec_andFinally.mpr
        (hexecute.mono (fun a s' h => ?_) fun e s' h => ?_)⟩
      · refine ⟨guar_same rfl rfl rfl, ⟨h.1.keyed, h.1.started, h.1.consumed⟩, fun _ _ heq => ?_⟩
        cases heq
        exact .inr h.2
      · refine ⟨guar_same rfl rfl rfl, ⟨h.1.keyed, h.1.started, h.1.consumed⟩, fun _ _ heq => ?_⟩
        cases heq
        exact h.2.imp (congrArg Except.error) id
    | _ => exact hadmits.2.elim

/-- Where no execution reads a run while another one has its authorization in hand, at most one
execution starts the capabilities of the run, and every other one is refused. -/
theorem spentOnce_of_serial (cfg : Config) (now : DateTime) (runs : String → Option AgentRun)
    (drawn : List String) (keyed : ∀ k run, runs k = some run → run.id = k)
    (p : Pool State Res Error AgentRun Request)
    (reach : (serialExecutions cfg).Reachable (State.initial now runs drawn) p) : SpentOnce p := by
  have hi : Inv (State.initial now runs drawn) :=
    ⟨keyed, fun _ _ _ h => (nomatch h), fun _ h => absurd h (by simp [State.initial])⟩
  have holds := (contract cfg).sound hi (fun _ => trivial) reach
  have hrefused : ∀ runId j, (∃ sessionId q, p.tasks[j]? = some (.execute runId sessionId, q)) →
      ¬Spends j runId p.state → Refused p runId j := by
    rintro runId j ⟨sessionId, q, hj⟩ hnot
    refine ⟨fun c h => hnot (holds.inv.started j runId c h), fun t r hended => ?_⟩
    have htask := Pool.task_of_ended hended
    obtain ⟨rfl, -⟩ := Prod.mk.inj (Option.some.inj (hj.symm.trans htask))
    have hspec := (holds.tasks j _ _ htask).2
    cases r with
    | ok a => exact (hspec runId sessionId rfl).resolve_right hnot
    | error e => exact (hspec runId sessionId rfl).resolve_right hnot
  intro runId i j hij hti htj
  by_cases hspends : Spends i runId p.state
  · refine .inr (hrefused runId j htj fun h => hij ?_)
    exact Option.some.inj (hspends.symm.trans h)
  · exact .inl (hrefused runId i hti hspends)

/-! ### Sample runs -/

def executable (cfg : Config) (s : State) : Request → Bool
  | .execute runId _ => safeId cfg runId && (s.runs runId).isSome
  | _ => false

theorem executes_of_executable {cfg : Config} {s : State} {request : Request}
    (h : executable cfg s request = true) : executes cfg s request := by
  cases request with
  | execute runId sessionId => exact (Bool.and_eq_true_iff.mp h)
  | _ => cases h

def serially (s : State) : (o : Op) → Res o → Bool
  | .call (.reading _), .ok _ | .call (.loaded _ _), .ok _ => true
  | .call (.read (.execute runId _)), .ok true =>
    !s.spending runId
  | .call (.reading _), _ | .call (.loaded _ _), _ | .call (.read _), _ => false
  | o, r => allowed s o r

theorem serial_of_serially {cfg : Config} {s : State} {o : Op} {r : Res o}
    (h : serially s o r = true) : (serialExecutions cfg).answers s o r := by
  cases o with
  | uuid4 => exact ⟨answers_of_allowed cfg (o := .uuid4) h, trivial⟩
  | write task run => exact ⟨trivial, trivial⟩
  | call c =>
    refine ⟨trivial, ?_⟩
    cases c with
    | reading request =>
      cases r with
      | ok => rfl
      | error e => cases h
    | loaded request run =>
      cases r with
      | ok => exact fun _ => rfl
      | error e => cases h
    | read request =>
      cases request with
      | execute runId sessionId =>
        rcases r with e | _ | _
        · cases h
        · cases h
        · exact ⟨rfl, by simpa [serially] using h⟩
      | _ => rcases r with e | _ | _ <;> trivial
    | thread | catalog | plan | publish | analyze | execute => trivial

/-- The moves of executions, with answers that `ok` lets through. -/
def executionMove (cfg : Config) (ok : State → (o : Op) → Res o → Bool)
    (p : Pool State Res Error AgentRun Request) : Move Res Request DateTime → Bool
  | .start request => executable cfg p.state request
  | .resume j answer => match p.tasks[j]? with
    | some (_, .call o _) => ok p.state o (answer o)
    | _ => false
  | .world _ => true

theorem legal_of_executionMove {cfg : Config} {ok : State → (o : Op) → Res o → Bool}
    {answers : State → (o : Op) → Res o → Prop}
    (hok : ∀ s o r, ok s o r = true →
      ((system cfg).restrict (executes cfg) answers).answers s o r)
    (p : Pool State Res Error AgentRun Request) (m : Move Res Request DateTime)
    (h : executionMove cfg ok p m = true) :
    ((system cfg).restrict (executes cfg) answers).Legal p m := by
  cases m with
  | start request => exact ⟨trivial, executes_of_executable h⟩
  | world now => exact trivial
  | resume j answer =>
    rw [executionMove] at h
    split at h
    · next t o k hj => exact ⟨t, o, k, hj, hok _ _ _ h⟩
    · cases h

/-- A directory with an authorized run. -/
def sampleRuns (id : String) : Option AgentRun :=
  if id = "run" then
    let run := newRun sampleConfig ⟨"memoria", none⟩ (some sampleResource) [sampleResource] .null
      "run" 0
    some (authorizedRun run
      (newAuthorization sampleConfig run (some sampleResource) "operator" "authorization" 0) 0)
  else none

theorem sampleRuns_keyed (k : String) (run : AgentRun) (h : sampleRuns k = some run) :
    run.id = k := by
  rw [sampleRuns] at h
  split at h
  · next hk =>
    obtain rfl := Option.some.inj h
    exact hk.symm
  · cases h

/-- An execution ends before the next one begins. -/
def sampleMoves : List (Move Res Request DateTime) :=
  .start (.execute "run" "session") :: sampleResumes 0 21 "" ++
    .start (.execute "run" "session") :: sampleResumes 1 3 ""

theorem spentOnce_sample : SpentOnce ((serialExecutions sampleConfig).play
      (System.initial (State.initial 0 sampleRuns ["run", "authorization"])) sampleMoves) :=
  spentOnce_of_serial sampleConfig 0 sampleRuns ["run", "authorization"] sampleRuns_keyed _
    ⟨sampleMoves, System.run_of_checked
      (legal_of_executionMove fun _ _ _ => serial_of_serially) (by decide +kernel)⟩

def overlappingMoves : List (Move Res Request DateTime) :=
  .start (.execute "run" "session") :: .start (.execute "run" "session") ::
    sampleResumes 0 3 "" ++ sampleResumes 1 8 "" ++ sampleResumes 0 5 ""

/-- The execution `j` has started the storage analysis of the sample run. -/
def collects (j : Nat) (h : List Event) : Bool := h.any fun
  | .started task runId c => task = j && runId = "run" && c = diskAnalysis
  | _ => false

theorem started_of_collects {j : Nat} {h : List Event} (hc : collects j h = true) :
    .started j "run" diskAnalysis ∈ h := by
  obtain ⟨e, he, hstarted⟩ := List.any_eq_true.mp hc
  cases e with
  | started task runId c =>
    simp only [Bool.and_eq_true, decide_eq_true_eq] at hstarted
    obtain ⟨⟨rfl, rfl⟩, rfl⟩ := hstarted
    exact he
  | _ => cases hstarted

theorem task_of_request {p : Pool State Res Error AgentRun Request} {j : Nat} {runId sessionId : String}
    (h : (p.tasks[j]?.map Prod.fst) = some (.execute runId sessionId)) :
    ∃ sessionId q, p.tasks[j]? = some (.execute runId sessionId, q) := by
  obtain ⟨⟨request, q⟩, hj, rfl⟩ := Option.map_eq_some_iff.mp h
  exact ⟨sessionId, q, hj⟩

theorem overlap_spends_twice : ¬∀ (cfg : Config) (now : DateTime)
    (runs : String → Option AgentRun) (drawn : List String),
    (∀ k run, runs k = some run → run.id = k) → ∀ p : Pool State Res Error AgentRun Request,
    (executions cfg).Reachable (State.initial now runs drawn) p → SpentOnce p := by
  intro claim
  let start : Pool State Res Error AgentRun Request :=
    System.initial (State.initial 0 sampleRuns ["run", "authorization"])
  let p := (executions sampleConfig).play start overlappingMoves
  have hspent := claim sampleConfig 0 sampleRuns ["run", "authorization"] sampleRuns_keyed p
    ⟨overlappingMoves, System.run_of_checked (legal_of_executionMove fun s o r h =>
      (⟨answers_of_allowed sampleConfig h, trivial⟩ :
        (executions sampleConfig).answers s o r)) (by decide +kernel)⟩
  have hfirst : p.tasks[0]?.map Prod.fst = some (.execute "run" "session") := by decide +kernel
  have hsecond : p.tasks[1]?.map Prod.fst = some (.execute "run" "session") := by decide +kernel
  rcases hspent "run" 0 1 (by decide) (task_of_request hfirst) (task_of_request hsecond) with h | h
  · exact h.1 diskAnalysis (started_of_collects (by decide +kernel))
  · exact h.1 diskAnalysis (started_of_collects (by decide +kernel))

end Ares.Agent.Spent
