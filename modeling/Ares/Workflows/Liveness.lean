import Ares.Coop.Asks
import Ares.Coop.Endless
import Ares.Workflows.Calm

/-! Executions come to an end.  In a calm run an `execute` that has not ended can go on, or one of
its tasks waits at a closed gate; and the tasks of an execution make finitely many moves. -/

namespace Ares.Workflows

open Coop

variable {V : Type}

/-! ### Branches only move on -/

def Branch.rank : Option (Branch V) → Nat
  | none => 0
  | some (.created _ _ _) => 1
  | some (.running _) => 2
  | some (.done _) => 3

theorem Branch.rank_created {b : Option (Branch V)} (h : Branch.created? b = true) :
    Branch.rank b = 1 := by
  obtain ⟨e, step, snapshot, rfl⟩ := Branch.created?_iff.mp h
  rfl

theorem Guar.rank {j : Nat} {s s' : State V} (hg : Guar j s s') (owner : Nat) (id : String) :
    Branch.rank (s.branches owner id) ≤ Branch.rank (s'.branches owner id) := by
  rcases hg.branches owner id with h | ⟨-, h, h'⟩ | ⟨h, h'⟩ | ⟨h, outcome, h'⟩
  · rw [h]
  · rw [h]
    exact Nat.zero_le _
  · rw [h', Branch.rank_created h]
    exact Nat.le_succ 1
  · rw [h, h']
    exact Nat.le_succ 2

/-- Branches and the counts of `set` calls never go back. -/
structure Grows (s s' : State V) : Prop where
  rank : ∀ owner id, Branch.rank (s.branches owner id) ≤ Branch.rank (s'.branches owner id)
  wakes : ∀ owner, s.wakes owner ≤ s'.wakes owner

theorem Grows.refl (s : State V) : Grows s s := ⟨fun _ _ => Nat.le_refl _, fun _ => Nat.le_refl _⟩

theorem Grows.trans {a b c : State V} (hab : Grows a b) (hbc : Grows b c) : Grows a c :=
  ⟨fun owner id => (hab.rank owner id).trans (hbc.rank owner id),
    fun owner => (hab.wakes owner).trans (hbc.wakes owner)⟩

theorem grows_chain {j : Nat} {s s' : State V} (h : Relation.ReflTransGen (Guar j) s s') :
    Grows s s' := by
  induction h with
  | refl => exact Grows.refl s
  | tail _ hlast ih => exact ih.trans ⟨hlast.rank, hlast.wakes⟩

section Pools

variable {cfg : Config V} {p : Tasks V}

theorem grows_next (reach : (calmEngine cfg).Reachable .initial p)
    {m : Move (Res (V := V)) Request Empty} (legal : (calmEngine cfg).Legal p m) :
    Grows p.state ((calmEngine cfg).next p m).state :=
  (calm_holds reach).run_rel Grows.refl (fun _ _ _ => Grows.trans)
    (fun _ _ _ hg => ⟨Guar.rank hg, Guar.wakes hg⟩) (fun _ w => w.elim) (.cons legal (.nil _))

/-! ### What tasks wait for -/

/-- The call of a task of the execution `owner`; only its own task waits for branches, and these
have been created. -/
def Asked (joins : Bool) (owner : Nat) (s : State V) : Op V → Prop
  | .gate _ owner' _ _ => owner' = owner
  | .join owner' steps => joins = true ∧ owner' = owner ∧
      ∀ step ∈ steps, 1 ≤ Branch.rank (s.branches owner step.id)
  | _ => True

def Awaits (j : Nat) : Request → State V → Op V → Prop
  | .execute _ _ _ => Asked true j
  | .branch owner _ => Asked false owner
  | .control _ _ => fun _ _ => True

section Asks

variable {joins : Bool} {owner task : Nat} {site : Site} {e : Execution} {step : WorkflowStep}

theorem asks_ofCalled {α : Type} {W : State V → Op V → Prop} (c : Called α) (s : State V) :
    (ofCalled c : Task V α).Asks W s := by
  cases c <;> trivial

theorem emit_asks (event : Event) (s : State V) :
    (emit task site e event : Task V Unit).Asks (Asked joins owner) s := by
  refine ⟨trivial, fun appended s1 => ?_⟩
  cases appended with
  | raised exc => trivial
  | returned => exact ⟨trivial, fun notified s2 => asks_ofCalled notified s2⟩

theorem checkpoint_asks (s : State V) :
    (checkpoint site owner : Task V Unit).Asks (Asked joins owner) s := by
  refine ⟨rfl, fun waited s1 => ?_⟩
  cases waited with
  | raised exc => trivial
  | returned => exact asks_require _ _ s1

theorem runAction_asks (attempt : Nat) (inputs : V) (s : State V) :
    (runAction task site e step attempt inputs).Asks (Asked joins owner) s := by
  refine ⟨trivial, fun ended s1 => ?_⟩
  cases ended with
  | finished outcome => cases outcome <;> trivial
  | _ => trivial

theorem runPostchecks_asks (attempt : Nat) (output : V) (index remaining : Nat) (s : State V) :
    (runPostchecks task site e step attempt output index remaining).Asks (Asked joins owner) s := by
  induction remaining generalizing index s with
  | zero => trivial
  | succ remaining ih =>
    refine ⟨trivial, fun answer s1 => (asks_ofCalled answer s1).bind fun passed s2 => ?_⟩
    refine (asks_require _ _ s2).bind fun _ s3 => ?_
    exact (emit_asks _ s3).bind fun _ s4 => ih (index + 1) s4

theorem runAttempts_asks (inputs : V) (attempts : Nat) (error : ErrorCode) (remaining : Nat)
    (s : State V) :
    (runAttempts task site e step inputs attempts error remaining).Asks (Asked joins e.owner) s := by
  induction remaining generalizing attempts error s with
  | zero => trivial
  | succ remaining ih =>
    have hattempt : ∀ s', (runAttempt task site e step (attempts + 1) inputs).Asks
        (Asked joins e.owner) s' := fun s' =>
      (runAction_asks _ _ s').bind fun output s1 =>
        (runPostchecks_asks _ output 0 _ s1).bind fun _ _ => trivial
    refine (checkpoint_asks s).bind fun _ s1 => (emit_asks _ s1).bind fun _ s2 => ?_
    refine (hattempt s2).observe.bind fun outcome s3 => ?_
    cases outcome with
    | ok output => exact (emit_asks _ s3).bind fun _ _ => trivial
    | error exc =>
      dsimp only
      cases lastError exc with
      | none => trivial
      | some error' =>
        refine (emit_asks _ s3).bind fun _ s4 => ?_
        refine Proc.Asks.bind ?_ fun _ s5 => ih (attempts + 1) error' s5
        unfold delayRetry
        split
        · exact ⟨trivial, fun slept s5 => asks_ofCalled slept s5⟩
        · trivial

theorem runStep_asks (state : Outputs V) (s : State V) :
    (runStep task site e step state).Asks (Asked joins e.owner) s := by
  have hshould : (shouldRun site step state).Asks (Asked joins e.owner) s := by
    unfold shouldRun
    split
    · refine ⟨trivial, fun answer s1 => ?_⟩
      cases answer with
      | returned value => exact asks_ofCalled value s1
      | raised exc => trivial
    · trivial
  refine hshould.bind fun run s1 => ?_
  cases run with
  | false => exact (emit_asks _ s1).bind fun _ _ => trivial
  | true =>
    refine ⟨trivial, fun answer s2 => ?_⟩
    cases answer with
    | raised exc => trivial
    | returned inputs => exact runAttempts_asks inputs 0 _ _ s2

theorem runSequential_asks (p : Progress V) (steps : List WorkflowStep) (s : State V) :
    (runSequential task e p steps).Asks (Asked joins e.owner) s := by
  induction steps generalizing p s with
  | nil => trivial
  | cons step steps ih =>
    refine (runStep_asks _ s).observe.bind fun outcome s1 => ?_
    cases outcome with
    | ok result => exact ih (p.add step result) s1
    | error exc => trivial

theorem runParallel_asks (p : Progress V) (steps : List WorkflowStep) (s : State V) :
    (runParallel e p steps).Asks (Asked true e.owner) s := by
  refine ⟨⟨rfl, rfl, fun step hstep => ?_⟩, fun joined s1 => ?_⟩
  · -- The fork has just created a branch for each step.
    have hsome : (steps.find? (·.id = step.id)).isSome = true :=
      List.find?_isSome.mpr ⟨step, hstep, by simp⟩
    obtain ⟨found, hfound⟩ := Option.isSome_iff_exists.mp hsome
    simp [State.fork, hfound, Branch.rank]
  · cases joined <;> trivial

theorem runStages_asks (p : Progress V) (stages : List WorkflowStage) (s : State V) :
    (runStages task e p stages).Asks (Asked true e.owner) s := by
  induction stages generalizing p s with
  | nil => trivial
  | cons stage stages ih =>
    have hstage : (runStage task e p stage).Asks (Asked true e.owner) s := by
      refine (checkpoint_asks s).observe.bind fun passed s1 => ?_
      cases passed with
      | error exc => trivial
      | ok _ =>
        dsimp only
        cases stage.mode with
        | sequential => exact runSequential_asks p stage.steps s1
        | parallel => exact runParallel_asks p stage.steps s1
    refine hstage.bind fun r s1 => ?_
    obtain ⟨p', halt⟩ := r
    cases halt with
    | none => exact ih p' s1
    | some halt => trivial

theorem compensateAll_asks (complete : Bool) (l : List (WorkflowStep × V)) (s : State V) :
    (compensateAll task e complete l).Asks (Asked true owner) s := by
  induction l generalizing complete s with
  | nil => trivial
  | cons c l ih =>
    refine ⟨trivial, fun answer s1 => ?_⟩
    cases answer with
    | returned => exact (emit_asks _ s1).bind fun _ s2 => ih complete s2
    | raised exc =>
      show Proc.Asks _ (if exc.caught = true then _ else _) _
      split
      · exact (emit_asks _ s1).bind fun _ s2 => ih false s2
      · trivial

theorem close_asks (p : Progress V) (verdict : Verdict V) (s : State V) :
    (close cfg task e p verdict).Asks (Asked true owner) s := by
  refine Proc.Asks.bind ?_ fun rollbackPerformed s1 => ?_
  · unfold rollback
    split
    · refine (emit_asks _ s).bind fun _ s1 => (compensateAll_asks true _ s1).bind fun _ s2 => ?_
      exact (emit_asks _ s2).bind fun _ _ => trivial
    · trivial
  · refine (asks_require _ _ s1).bind fun _ s2 => (emit_asks _ s2).bind fun _ s3 => ?_
    exact (emit_asks _ s3).bind fun _ _ => trivial

theorem finish_asks (p : Progress V) (halt : Option Halt) (s : State V) :
    (finish cfg task e p halt).Asks (Asked true owner) s := by
  have hinvalid : ∀ (result : Option V) exc s', (resultInvalid result exc).Asks
      (Asked true owner) s' := by
    intro result exc s'
    cases exc <;> trivial
  cases halt with
  | none =>
    refine Proc.Asks.bind ⟨trivial, fun answer s1 => ?_⟩ fun verdict s2 => close_asks p verdict s2
    cases answer with
    | raised exc => exact hinvalid none exc s1
    | returned result =>
      simp only [Proc.bind]
      cases cfg.resultReceipt result with
      | raised exc => exact hinvalid (some result) exc s1
      | returned receipt => trivial
  | some halt =>
    cases halt with
    | escaped exc => trivial
    | _ => exact close_asks _ _ s

theorem execute_asks (definition : WorkflowDefinition) (executionId : Option String)
    (uuid : String) (s : State V) :
    (execute cfg task definition executionId uuid).Asks (Asked true task) s := by
  refine (asks_require _ _ s).bind fun _ s1 => ?_
  refine (emit_asks _ _).bind fun _ s2 => (emit_asks _ s2).bind fun _ s3 => ?_
  refine (runStages_asks (e := ⟨task, _, definition⟩) .empty definition.stages s3).bind
    fun r s4 => ?_
  exact finish_asks r.1 r.2 s4

theorem handler_asks {j : Nat} {t : Request} {s : State V} (hi : Inv s) :
    (handler cfg j t).Asks (Awaits j t) s := by
  cases t with
  | execute definition executionId uuid =>
    exact (execute_asks definition executionId uuid _).bind fun _ _ => trivial
  | control call executionId =>
    have htrue : ∀ {α : Type} (q : Task V α) s', q.Asks (fun _ _ => True) s' := by
      intro α q
      induction q with
      | ret | raise => exact fun _ => trivial
      | get k ih => exact fun s' => ih s' s'
      | put s'' k ih => exact fun _ => ih s''
      | call o k ih => exact fun _ => ⟨trivial, fun r s' => ih r s'⟩
    exact htrue _ s
  | branch owner stepId =>
    have hbranch : (runBranch j owner stepId : Task V Unit).Asks (Awaits j (.branch owner stepId))
        (s.note (.received j (.branch owner stepId))) := by
      refine Proc.asks_reading ?_
      cases hfound : (s.note (.received j (.branch owner stepId))).branches owner stepId with
      | none => trivial
      | some b =>
        cases b with
        | created e step snapshot =>
          obtain ⟨rfl, -⟩ := hi.created owner stepId e step snapshot hfound
          exact (runStep_asks snapshot _).observe.bind fun _ _ => trivial
        | _ => trivial
    exact hbranch.bind fun _ _ => trivial

end Asks

theorem Asked.grows {joins : Bool} {owner : Nat} {s s' : State V} (hg : Grows s s') {o : Op V}
    (h : Asked joins owner s o) : Asked joins owner s' o := by
  cases o with
  | join owner' steps =>
    obtain ⟨hjoins, howner, hsteps⟩ := h
    exact ⟨hjoins, howner, fun step hstep => (hsteps step hstep).trans (hg.rank _ _)⟩
  | _ => exact h

theorem awaits_of_reachable (reach : (calmEngine cfg).Reachable .initial p) {j : Nat}
    {t : Request} {q : Task V (Reply V)} (hj : p.tasks[j]? = some (t, q)) :
    q.Asks (Awaits j t) p.state := by
  refine System.asks_of_reachable ?_ ?_ reach hj
  · exact fun p t reach _ => handler_asks (calm_holds reach).inv
  · intro p m reach legal j t o h
    have hg := grows_next reach legal
    cases t with
    | execute => exact Asked.grows hg h
    | branch => exact Asked.grows hg h
    | control => trivial

/-! ### Who runs a branch -/

theorem received_of_start (t : Request) (hold : (calmContract cfg).Holds p)
    (hadmits : (calmEngine cfg).admits p.state t) :
    .received p.tasks.length t ∈ ((calmEngine cfg).next p (.start t)).state.history := by
  have hs := handler_calm hold.inv (hold.fresh _ (Nat.le_refl _)) hadmits.1
  obtain ⟨-, hinv, hrest⟩ := spec_bind.mp hs
  have hchain := (Proc.Spec.run (p := answer cfg p.tasks.length t) hrest hinv).2.1
  have hnoted : Relation.ReflTransGen (Noted State.history p.tasks.length) _ _ :=
    hchain.lift id fun _ _ hg => Guar.noted hg
  exact (suffix_of_chain hnoted).subset List.mem_cons_self

theorem received_once {s : State V} (hi : Inv s) {j : Nat} {t t' : Request}
    (h : .received j t ∈ s.history) (h' : .received j t' ∈ s.history) : t = t' := by
  have heq := hi.received.unique (K := fun n : Note V => ∃ request, n = .received j request)
    ?_ h h' ⟨t, rfl⟩ ⟨t', rfl⟩
  · exact (Note.received.inj heq).2
  · rintro _ past hpast ⟨request, rfl⟩ _ hmem ⟨request', rfl⟩
    have hown : own j past = [] := hpast
    have hmem' : (.received j request' : Note V) ∈ own j past := mem_own hmem
    rw [hown] at hmem'
    cases hmem'

theorem received_of_task (reach : (calmEngine cfg).Reachable .initial p) {j : Nat} {t : Request}
    {q : Task V (Reply V)} (hj : p.tasks[j]? = some (t, q)) : .received j t ∈ p.state.history :=
  Contract.Holds.noted_of_task (C := calmContract cfg) Note.received
    (fun _ _ _ hg => Guar.noted hg) (fun _ w => w.elim) (fun _ t => received_of_start t)
    (calm_holds ⟨[], .nil _⟩) reach hj

theorem task_of_received (reach : (calmEngine cfg).Reachable .initial p) {j : Nat} {t : Request}
    (h : .received j t ∈ p.state.history) : ∃ q, p.tasks[j]? = some (t, q) := by
  have hold := calm_holds reach
  have hlt : j < p.tasks.length := by
    by_contra hge
    have hmem : (.received j t : Note V) ∈ own j p.state.history := mem_own h
    rw [(hold.fresh j (by omega)).1] at hmem
    cases hmem
  obtain ⟨⟨t', q⟩, hq⟩ : ∃ u, p.tasks[j]? = some u := ⟨_, List.getElem?_eq_getElem hlt⟩
  obtain rfl := received_once hold.inv h (received_of_task reach hq)
  exact ⟨q, hq⟩

/-! ### Progress -/

/-- The task `i` works for the execution `j`. -/
def Mine (j : Nat) (p : Tasks V) (i : Nat) : Prop :=
  i = j ∨ ∃ id q, p.tasks[i]? = some (.branch j id, q)

/-- The move is one of the execution `j`: a task of it goes on, or a branch of it begins. -/
def Owns (j : Nat) (p : Tasks V) : Move (Res (V := V)) Request Empty → Prop
  | .start (.branch owner _) => owner = j
  | .start _ => False
  | .resume i _ => Mine j p i
  | .world _ => False

/-- A task of the execution waits at the gate, which was closed when it came and has not been set
since. -/
def Held (j : Nat) (p : Tasks V) : Prop :=
  ∃ i t site wakes k, Mine j p i ∧ p.tasks[i]? = some (t, .call (.gate site j false wakes) k) ∧
    p.state.wakes j ≤ wakes

def Able (cfg : Config V) (j : Nat) (p : Tasks V) : Prop :=
  ∃ m, Owns j p m ∧ (calmEngine cfg).Legal p m

def steadyAnswer (s : State V) : (o : Op V) → Res o
  | .append _ _ | .notify _ _ | .gate _ _ _ _ | .sleep _ | .compensate _ _ => .returned ()
  | .condition _ _ _ => .returned (.returned true)
  | .inputs _ _ _ | .result _ => .raised .valueError
  | .action _ _ _ _ _ => .timedOut
  | .postcheck _ _ _ _ _ => .returned true
  | .join owner steps => some (steps.filterMap fun step => Branch.outcome? (s.branches owner step.id))

theorem steadyAnswer_calm (s : State V) (o : Op V) : Calm cfg o (steadyAnswer s o) := by
  cases o with
  | join | result | compensate => trivial
  | append site | notify site | gate site | condition site | inputs site | action site
  | postcheck site | sleep site => cases site <;> trivial

theorem outcomes_of_done {branches : String → Option (Branch V)} {steps : List WorkflowStep}
    (h : ∀ step ∈ steps, ∃ outcome, branches step.id = some (.done outcome)) :
    steps.map (fun step => branches step.id) =
      (steps.filterMap fun step => Branch.outcome? (branches step.id)).map
        fun outcome => some (.done outcome) := by
  induction steps with
  | nil => rfl
  | cons step steps ih =>
    obtain ⟨⟨outcome, hdone⟩, hrest⟩ := List.forall_mem_cons.mp h
    rw [List.map_cons, ih hrest, List.filterMap_cons, hdone]
    rfl

theorem able_or_held {i j : Nat} {t : Request} {o : Op V} {k : Res o → Task V (Reply V)}
    (hi : p.tasks[i]? = some (t, .call o k)) (hmine : Mine j p i)
    (hgate : ∀ site owner opened wakes, o = .gate site owner opened wakes → owner = j)
    (hjoin : ∀ owner steps, o = .join owner steps → ∀ step ∈ steps,
      ∃ outcome, p.state.branches owner step.id = some (.done outcome)) :
    Able cfg j p ∨ Held j p := by
  have hable : Answers p.state o (steadyAnswer p.state o) → Able cfg j p := fun hanswers =>
    ⟨.resume i (steadyAnswer p.state), hmine, t, o, k, hi, hanswers, steadyAnswer_calm p.state o⟩
  cases o with
  | gate site owner opened wakes =>
    obtain rfl := hgate site owner opened wakes rfl
    by_cases hopen : opened = true ∨ wakes < p.state.wakes owner
    · exact Or.inl (hable hopen)
    · obtain ⟨hclosed, hwakes⟩ := not_or.mp hopen
      obtain rfl : opened = false := by simpa using hclosed
      exact Or.inr ⟨i, t, site, wakes, k, hmine, hi, by omega⟩
  | join owner steps => exact Or.inl (hable (outcomes_of_done (hjoin owner steps rfl)))
  | _ => exact Or.inl (hable trivial)

theorem able_of_running (reach : (calmEngine cfg).Reachable .initial p) {j i : Nat} {id : String}
    (h : p.state.branches j id = some (.running i)) : Able cfg j p ∨ Held j p := by
  have hold := calm_holds reach
  obtain ⟨q, hi⟩ := task_of_received reach (hold.inv.running j id i h)
  obtain ⟨hsuspended, hspec⟩ := hold.tasks i _ q hi
  have hasks := awaits_of_reachable reach hi
  cases q with
  | get | put => exact hsuspended.elim
  | raise e => exact hspec.elim
  | ret reply =>
    obtain ⟨outcome, hdone⟩ := hspec
    rw [h] at hdone
    cases hdone
  | call o k =>
    refine able_or_held hi (Or.inr ⟨id, _, hi⟩) ?_ ?_
    · rintro site owner opened wakes rfl
      exact hasks.1
    · rintro owner steps rfl
      cases hasks.1.1

theorem progress (reach : (calmEngine cfg).Reachable .initial p) {j : Nat}
    {definition : WorkflowDefinition} {executionId : Option String} {uuid : String}
    {q : Task V (Reply V)} (hj : p.tasks[j]? = some (.execute definition executionId uuid, q))
    (hq : q.ended? = none) : Able cfg j p ∨ Held j p := by
  have hasks := awaits_of_reachable reach hj
  have hsuspended := ((calm_holds reach).tasks j _ q hj).1
  cases q with
  | get | put => exact hsuspended.elim
  | ret | raise => cases hq
  | call o k =>
    by_cases hwaits : ∃ owner steps, o = .join owner steps ∧ ∃ step ∈ steps,
        ¬∃ outcome, p.state.branches owner step.id = some (.done outcome)
    · -- A branch is still to be done: it can be started, or it is running.
      obtain ⟨owner, steps, rfl, step, hstep, hdone⟩ := hwaits
      obtain ⟨-, rfl, hsteps⟩ := hasks.1
      have hrank := hsteps step hstep
      cases hb : p.state.branches owner step.id with
      | none =>
        rw [hb] at hrank
        cases hrank
      | some b =>
        cases b with
        | created e step' snapshot =>
          refine Or.inl ⟨.start (.branch owner step.id), rfl, ?_, trivial⟩
          show Branch.created? (p.state.branches owner step.id) = true
          rw [hb]
          rfl
        | running i => exact able_of_running reach hb
        | done outcome => exact absurd ⟨outcome, hb⟩ hdone
    · refine able_or_held hj (Or.inl rfl) ?_ ?_
      · rintro site owner opened wakes rfl
        exact hasks.1
      · rintro owner steps rfl step hstep
        by_contra hdone
        exact hwaits ⟨owner, steps, rfl, step, hstep, hdone⟩

end Pools

/-! ### Finitely many moves -/

section Runs

variable {cfg : Config V} (run : (calmEngine cfg).Endless .initial) {j : Nat}
  {definition : WorkflowDefinition} {executionId : Option String} {uuid : String}

theorem grows_run {n m : Nat} (hle : n ≤ m) : Grows (run.pool n).state (run.pool m).state := by
  induction m, hle using Nat.le_induction with
  | base => exact Grows.refl _
  | succ m hle ih =>
    have hnext := grows_next (run.reachable m) (run.legal m)
    rw [← run.next] at hnext
    exact ih.trans hnext

theorem entered_of_created {L : Logic (State V) (Res (V := V))} {task owner : Nat} {id : String}
    {e : Execution} {step : WorkflowStep} {snapshot : Outputs V} {s : State V}
    {Q : Reply V → State V → Prop} {E : Exc → State V → Prop}
    (h : s.branches owner id = some (.created e step snapshot))
    (hspec : (answer cfg task (.branch owner id)).Spec L Q E s) :
    ∃ q : Task V (Reply V), (answer cfg task (.branch owner id)).run s =
        q.run (s.setBranch owner id (.running task) (.entered task owner id)) ∧
      L.inv (s.setBranch owner id (.running task) (.entered task owner id)) ∧
      q.Spec L Q E (s.setBranch owner id (.running task) (.entered task owner id)) := by
  refine ⟨((runStep task .branch e step snapshot).observe.bind fun outcome =>
    Proc.modify (State.setBranch owner id (.done (called outcome)) (.left task owner id))).bind
      fun _ => .ret .branch, ?_, ?_⟩
  · have hread : ∀ (k : Option (Branch V) → Task V Unit) (f : Unit → Task V (Reply V)),
        (((reading (·.branches owner id)).bind k).bind f).run s =
          ((k (some (.created e step snapshot))).bind f).run s := by
      intro k f
      rw [← h]
      rfl
    exact hread _ _
  · have hread : ∀ (k : Option (Branch V) → Task V Unit) (f : Unit → Task V (Reply V)),
        (((reading (·.branches owner id)).bind k).bind f).Spec L Q E s →
          ((k (some (.created e step snapshot))).bind f).Spec L Q E s := by
      intro k f hs
      rw [← h]
      exact hs
    exact (hread _ _ hspec).2

theorem rank_of_start {n : Nat} {id : String} (hmove : run.move n = .start (.branch j id)) :
    2 ≤ Branch.rank ((run.pool (n + 1)).state.branches j id) := by
  have hlegal := run.legal n
  rw [hmove] at hlegal
  have hold := calm_holds (run.reachable n)
  obtain ⟨e, step, snapshot, hfound⟩ := Branch.created?_iff.mp hlegal.1
  obtain ⟨-, -, hrest⟩ := spec_bind.mp
    (handler_calm hold.inv (hold.fresh _ (Nat.le_refl _)) hlegal.1)
  obtain ⟨q, hrun, hinv, hspec⟩ := entered_of_created
    (s := (run.pool n).state.note _) hfound hrest
  have hstate : (run.pool (n + 1)).state = ((answer cfg (run.pool n).tasks.length
      (.branch j id)).run ((run.pool n).state.note
        (.received (run.pool n).tasks.length (.branch j id)))).1 := by
    rw [run.next, hmove]
    rfl
  rw [hstate, hrun]
  refine le_trans ?_ ((grows_chain (Proc.Spec.run hspec hinv).2.1).rank j id)
  rw [setBranch_self]
  exact Nat.le_refl 2

theorem finitely_started {n : Nat} {q : Task V (Reply V)}
    (hj : (run.pool n).tasks[j]? = some (.execute definition executionId uuid, q)) :
    ∃ N, ∀ m ≥ N, ∀ id, run.move m ≠ .start (.branch j id) := by
  have honce : ∀ id, ∃ N, ∀ m ≥ N, run.move m ≠ .start (.branch j id) := by
    intro id
    by_cases hstarts : ∃ m, run.move m = .start (.branch j id)
    · obtain ⟨m, hmove⟩ := hstarts
      refine ⟨m + 1, fun m' hle hmove' => ?_⟩
      have hlegal := run.legal m'
      rw [hmove'] at hlegal
      have hrank := (rank_of_start run hmove).trans ((grows_run run hle).rank j id)
      rw [Branch.rank_created hlegal.1] at hrank
      omega
    · push Not at hstarts
      exact ⟨0, fun m _ => hstarts m⟩
  obtain ⟨N, hN⟩ := System.Endless.eventually_all (definition.steps.map (·.id))
    fun id _ => honce id
  refine ⟨max n N, fun m hm id hmove => ?_⟩
  -- A branch that begins is one of a step of the definition.
  have hlegal := run.legal m
  rw [hmove] at hlegal
  have hi := (calm_holds (run.reachable m)).inv
  obtain ⟨e, step, snapshot, hfound⟩ := Branch.created?_iff.mp hlegal.1
  obtain ⟨-, rfl, hstep, executionId', uuid', hreceived⟩ := hi.created j id e step snapshot hfound
  obtain ⟨q', hq'⟩ := run.request_stays hj (show n ≤ m by omega)
  have heq := received_once hi hreceived (received_of_task (run.reachable m) hq')
  rw [(Request.execute.inj heq).1] at hstep
  exact hN step.id (List.mem_map.mpr ⟨step, hstep, rfl⟩) m (by omega) hmove

theorem finitely_moved {n : Nat} {q : Task V (Reply V)}
    (hj : (run.pool n).tasks[j]? = some (.execute definition executionId uuid, q)) :
    ∃ N, n ≤ N ∧ ∀ m ≥ N, ¬Owns j (run.pool m) (run.move m) := by
  obtain ⟨N, hN⟩ := finitely_started run hj
  obtain ⟨M, hM⟩ := run.rests_below (run.pool (max n N)).tasks.length
  refine ⟨max (max n N) M, by omega, fun m hm howns => ?_⟩
  have hlt : j < (run.pool (max n N)).tasks.length := by
    obtain ⟨q', hq'⟩ := run.request_stays hj (show n ≤ max n N by omega)
    exact (List.getElem?_eq_some_iff.mp hq').1
  cases hmove : run.move m with
  | world w => exact w.elim
  | start t =>
    rw [hmove] at howns
    cases t with
    | branch owner id =>
      obtain rfl : owner = j := howns
      exact hN m (by omega) id hmove
    | _ => exact howns
  | resume i answer =>
    rw [hmove] at howns
    rcases howns with rfl | ⟨id, q', hi⟩
    · exact hM i hlt m (by omega) answer hmove
    · by_cases hold : i < (run.pool (max n N)).tasks.length
      · exact hM i hold m (by omega) answer hmove
      · obtain ⟨k, hk, -, hstart⟩ := run.started_since hi (show max n N ≤ m by omega) (by omega)
        exact hN k (by omega) id hstart

theorem task_stays {N n m i : Nat} (hrest : ∀ m ≥ N, ¬Owns j (run.pool m) (run.move m))
    (hn : N ≤ n) (hle : n ≤ m) (hlt : j < (run.pool n).tasks.length) {t : Request}
    {q : Task V (Reply V)} (hmine : Mine j (run.pool m) i)
    (hi : (run.pool m).tasks[i]? = some (t, q)) : (run.pool n).tasks[i]? = some (t, q) := by
  have hthere : ∃ task, (run.pool n).tasks[i]? = some task := by
    refine ⟨_, List.getElem?_eq_getElem ?_⟩
    rcases hmine with rfl | ⟨id, q', hi'⟩
    · exact hlt
    · by_contra hge
      obtain ⟨k, hk, -, hstart⟩ := run.started_since hi' hle (by omega)
      refine hrest k (by omega) ?_
      rw [hstart]
      rfl
  obtain ⟨⟨t', q'⟩, hi'⟩ := hthere
  have hkept : (run.pool m).tasks[i]? = some (t', q') := by
    refine run.task_until hi' hle fun k hk hkm answer hmove => hrest k (by omega) ?_
    rw [hmove]
    rcases hmine with rfl | ⟨id, q'', hi''⟩
    · exact Or.inl rfl
    · obtain ⟨qk, hqk⟩ := run.request_stays hi' hk
      obtain ⟨qm, hqm⟩ := run.request_stays hi' hle
      rw [hi''] at hqm
      obtain ⟨rfl, -⟩ := Prod.mk.inj (Option.some.inj hqm)
      exact Or.inr ⟨id, qk, hqk⟩
  exact hi'.trans (hkept.symm.trans hi)

/-- The scheduler is fair to the execution `j`: again and again the execution makes a move, or it
cannot make one. -/
def Fair (j : Nat) : Prop :=
  ∀ n, ∃ m ≥ n, Owns j (run.pool m) (run.move m) ∨ ¬Able cfg j (run.pool m)

/-- The execution `j` is not left paused. -/
def NotLeftPaused (j : Nat) : Prop := ∀ n, ∃ m ≥ n, ¬Held j (run.pool m)

theorem execute_ends {n : Nat} {q : Task V (Reply V)}
    (hj : (run.pool n).tasks[j]? = some (.execute definition executionId uuid, q))
    (fair : Fair run j) (unpaused : NotLeftPaused run j) :
    ∃ m r, n ≤ m ∧ (run.pool m).tasks[j]? =
      some (.execute definition executionId uuid, .ofExcept r) := by
  obtain ⟨N, hle, hrest⟩ := finitely_moved run hj
  obtain ⟨m, hm, hfree⟩ := unpaused N
  obtain ⟨m', hm', howns | hunable⟩ := fair m
  · exact absurd howns (hrest m' (by omega))
  obtain ⟨q', hq'⟩ := run.request_stays hj (show n ≤ m' by omega)
  obtain ⟨qm, hqm⟩ := run.request_stays hj (show n ≤ m by omega)
  cases hended : q'.ended? with
  | some r =>
    refine ⟨m', r, by omega, ?_⟩
    rw [hq', Proc.eq_of_ended? hended]
  | none =>
    -- Where it has not ended, it is held; then it was already held before, where it was not.
    rcases progress (run.reachable m') hq' hended with hable | hheld
    · exact absurd hable hunable
    · obtain ⟨i, t, site, wakes, k, hmine, hi, hwakes⟩ := hheld
      have hi' := task_stays run hrest hm hm' (List.getElem?_eq_some_iff.mp hqm).1 hmine hi
      refine absurd ⟨i, t, site, wakes, k, ?_, hi', ?_⟩ hfree
      · rcases hmine with rfl | ⟨id, q'', hi''⟩
        · exact Or.inl rfl
        · rw [hi] at hi''
          obtain ⟨rfl, -⟩ := Prod.mk.inj (Option.some.inj hi'')
          exact Or.inr ⟨id, _, hi'⟩
      · exact ((grows_run run hm').wakes j).trans hwakes

end Runs

end Ares.Workflows
