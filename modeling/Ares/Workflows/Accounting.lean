import Ares.Workflows.Compensation
import Ares.Workflows.Liveness

/-! How every execution is accounted for: by one terminal event, by its identifier, which becomes
free, and by its record, which is stored. -/

namespace Ares.Workflows

open Coop

variable {V : Type}

/-- The terminal event of the execution `owner` that a note is of. -/
def Note.terminal? (owner : Nat) : Note V → Option AresEvent
  | .published _ owner' event =>
      if owner' = owner ∧ event.event.isTerminal = true then some event else none
  | _ => none

/-- The terminal events that were published for an execution, the first first. -/
def terminalsOf (owner : Nat) (h : List (Note V)) : List AresEvent :=
  h.reverse.filterMap (Note.terminal? owner)

/-- The note is that of `workflow.started` of the execution `j`. -/
def Note.starts (j : Nat) : Note V → Bool
  | .published task owner event => task == j && owner == j && event.event.isStart
  | _ => false

/-- `workflow.started` of the execution `j` was published. -/
def started (j : Nat) (h : List (Note V)) : Bool := h.any (Note.starts j)

theorem published_of_started {j : Nat} {h : List (Note V)} (hstarted : started j h = true) :
    ∃ event, .published j j event ∈ h := by
  obtain ⟨n, hn, hstarts⟩ := List.any_eq_true.mp hstarted
  cases n with
  | published task owner event =>
    simp only [Note.starts, Bool.and_eq_true, beq_iff_eq] at hstarts
    obtain ⟨⟨rfl, rfl⟩, -⟩ := hstarts
    exact ⟨event, hn⟩
  | _ => cases hstarts

theorem terminalsOf_eq {s : State V} (hi : Inv s) (j : Nat) :
    terminalsOf j s.history = ((trail j s).filterMap (Note.terminal? j)).reverse := by
  have hown : ∀ h : List (Note V), Always Received h → h.filterMap (Note.terminal? j) =
      ((own j h).filter Note.milestone).filterMap (Note.terminal? j) := by
    intro h hh
    induction h with
    | nil => rfl
    | cons n h ih =>
      have hrest := ih hh.2
      by_cases hterminal : ∃ event, n.terminal? j = some event
      · obtain ⟨event, hevent⟩ := hterminal
        have htask : n.task = j ∧ n.milestone = true := by
          cases n with
          | published task owner event' =>
            simp only [Note.terminal?] at hevent
            split at hevent
            · next hmine =>
              have htask : task = owner := hh.1 hmine.2
              exact ⟨htask.trans hmine.1, hmine.2⟩
            · cases hevent
          | _ => cases hevent
        have hcons : own j (n :: h) = n :: own j h := own_cons_self h htask.1
        rw [hcons, List.filter_cons_of_pos htask.2, List.filterMap_cons_some hevent,
          List.filterMap_cons_some hevent, hrest]
      · have hnone : n.terminal? j = none := by
          rw [Option.eq_none_iff_forall_ne_some]
          exact fun event heq => hterminal ⟨event, heq⟩
        rw [List.filterMap_cons_none hnone, hrest, own_cons]
        split
        · cases hmilestone : n.milestone with
          | true => rw [List.filter_cons_of_pos hmilestone, List.filterMap_cons_none hnone]
          | false => rw [List.filter_cons_of_neg (by simp [hmilestone])]
        · rfl
  rw [terminalsOf, List.filterMap_reverse, hown s.history hi.received]
  rfl

theorem terminal?_compensatedNote (j : Nat) (l : List (WorkflowStep × V)) :
    (l.map (compensatedNote j)).filterMap (Note.terminal? j) = [] := by
  induction l with
  | nil => rfl
  | cons c l ih =>
    have hnone : (compensatedNote j c).terminal? j = none := rfl
    rw [List.map_cons, List.filterMap_cons_none hnone, ih]

theorem Settled.terminals {e : Execution} {t : Request} {ex : WorkflowExecution V} {s : State V}
    (h : Settled e [.received e.owner t] ex s) (hi : Inv s) :
    terminalsOf e.owner s.history =
      [⟨e.definition.capabilityId, e.id, e.definition.id, .terminal ex.status ex.errorCode⟩] := by
  have hsettled : (Note.settled e.owner ex false (some ex)).terminal? e.owner = none := rfl
  have hterminal : (terminalNote e ex).terminal? e.owner = some
      ⟨e.definition.capabilityId, e.id, e.definition.id, .terminal ex.status ex.errorCode⟩ := by
    simp [terminalNote, Note.terminal?, Event.isTerminal]
  have hcompensated : (if ex.status = .succeeded then []
      else (owed ex.steps e.owner s.history e.definition.steps).map
        (compensatedNote e.owner)).filterMap (Note.terminal? e.owner) = [] := by
    split
    · rfl
    · exact terminal?_compensatedNote _ _
  rw [terminalsOf_eq hi, h.trail, List.filterMap_cons_none hsettled,
    List.filterMap_cons_some hterminal, List.filterMap_append, hcompensated]
  rfl

/-- In every calm run that is fair to an execution and does not leave it paused, an `execute` that
has published `workflow.started` returns; from then on there is exactly one terminal event of it,
with the status of the execution that was stored, and when it returned its identifier was active no
more and its execution was stored under it. -/
theorem accounted (cfg : Config V) (run : (calmEngine cfg).Endless .initial) (j : Nat)
    (definition : WorkflowDefinition) (executionId : Option String) (uuid : String)
    (fair : Fair run j) (unpaused : NotLeftPaused run j) (n : Nat)
    (hcalled : ∃ q, (run.pool n).tasks[j]? = some (.execute definition executionId uuid, q))
    (hstarted : started j (run.pool n).state.history = true) :
    ∃ ex : WorkflowExecution V, ex.id = chooseId executionId uuid ∧ ∃ N, ∀ m ≥ N,
      (run.pool m).tasks[j]? =
        some (.execute definition executionId uuid, .ret (.execution ex)) ∧
      terminalsOf j (run.pool m).state.history =
        [⟨definition.capabilityId, ex.id, definition.id, .terminal ex.status ex.errorCode⟩] ∧
      .settled j ex false (some ex) ∈ (run.pool m).state.history := by
  obtain ⟨q, hj⟩ := hcalled
  obtain ⟨event, hpublished⟩ := published_of_started hstarted
  obtain ⟨N, r, hle, hended⟩ := execute_ends run hj fair unpaused
  cases r with
  | error exc =>
    -- An `execute` that raised has published nothing, and the history only grows.
    have hold := calm_holds (run.reachable N)
    have hunheard : Unheard j (run.pool N).state := (hold.tasks j _ _ hended).2
    have hgrown : .published j j event ∈ (run.pool N).state.history := by
      refine run.induct_le (P := fun p => .published j j event ∈ p.state.history) hle hpublished ?_
      intro k hmem
      have hnoted : ∀ i s s', (calmContract cfg).guar i s s' → Noted State.history i s s' :=
        fun _ _ _ hg => Guar.noted hg
      have hsuffix := (calm_holds (run.reachable k)).history_suffix hnoted (fun _ w => w.elim)
        (.cons (run.legal k) (.nil _))
      rw [run.next]
      exact hsuffix.subset hmem
    exact absurd (mem_own hgrown) (hunheard j event)
  | ok reply =>
    have hreturned : ∀ m ≥ N, Returned j (.execute definition executionId uuid) reply
        (run.pool m).state := fun m hm =>
      ((calm_holds (run.reachable m)).tasks j _ _ (run.ended_stays hended hm)).2
    cases reply with
    | flag b => exact (hreturned N (Nat.le_refl N)).elim
    | branch => exact (hreturned N (Nat.le_refl N)).elim
    | execution ex =>
      have hid : ex.id = chooseId executionId uuid := (hreturned N (Nat.le_refl N)).id
      refine ⟨ex, hid, N, fun m hm => ⟨run.ended_stays hended hm, ?_, ?_⟩⟩
      · have hsettled := (hreturned m hm).terminals (calm_holds (run.reachable m)).inv
        rw [hid]
        exact hsettled
      · have htrail := (hreturned m hm).trail
        have hmem : .settled j ex false (some ex) ∈ trail j (run.pool m).state := by
          rw [htrail]
          exact List.mem_cons_self
        exact mem_of_mem_own (List.mem_of_mem_filter hmem)

/-! ### Samples -/

def soloDefinition : WorkflowDefinition where
  id := "w"
  version := "1"
  capabilityId := "cap"
  stages := [⟨"one", .sequential, [firstStep], firstStage_nonempty⟩]
  nonempty := by decide
  distinct := by decide

/-- The result factory raises a `KeyError`; everything else does what it should. -/
def missingKey : (o : Op Nat) → Res o
  | .result _ => .raised .exception
  | o => sampleAnswer (.finished (.returned 7)) [] o

def escapedMoves : List (Move (Res (V := Nat)) Request Empty) :=
  .start (.execute soloDefinition (some "run-one") "uuid") ::
    List.replicate 13 (.resume 0 missingKey)

def escapedRun : Tasks Nat := (engine sampleConfig).play (System.initial .initial) escapedMoves

set_option maxRecDepth 20000 in
/-- A result factory that raises a `KeyError` leaves a workflow that was started without a terminal
event, with its identifier active and without a stored execution. -/
theorem unaccounted_missing_key : (engine sampleConfig).Reachable .initial escapedRun ∧
    escapedRun.ended 0 = some (.execute soloDefinition (some "run-one") "uuid",
      some (.error .exception)) ∧
    started 0 escapedRun.state.history = true ∧
    terminalsOf 0 escapedRun.state.history = [] ∧
    escapedRun.state.active "run-one" = true ∧ escapedRun.state.get "run-one" = none := by
  refine ⟨⟨escapedMoves, ?_⟩, by decide +kernel, by decide +kernel, by decide +kernel,
    by decide +kernel, by decide +kernel⟩
  exact System.run_of_checked (playableMove_legal sampleConfig) (by decide +kernel)

def calmly (cfg : Config V) : (o : Op V) → Res o → Bool
  | .append .main event, .raised e => event.event.isStart || event.event.isPostcheck && e.coded
  | .notify .main event, .raised e => event.event.isPostcheck && e.coded
  | .gate .main _ _ _, .raised _ | .sleep .main, .raised _ => false
  | .condition .main _ _, .raised e | .inputs .main _ _, .raised e => e.caught
  | .condition .main _ _, .returned (.raised e) => e == .executionCancelled
  | .action .main _ _ _ _, .finished (.raised e) | .postcheck .main _ _ _ _, .raised e => e.coded
  | .action .main _ _ _ _, .stopped => false
  | .join _ _, none => false
  | .result _, .raised e => e.invalidates
  | .result _, .returned v => cfg.accepts v && match cfg.resultReceipt v with
    | .raised e => e.invalidates
    | .returned _ => true
  | .compensate _ _, .raised e => e.caught
  | _, _ => true

theorem calm_of_calmly {cfg : Config V} {o : Op V} {r : Res o} (h : calmly cfg o r = true) :
    Calm cfg o r := by
  cases o with
  | result outputs =>
    cases r with
    | raised e => exact h
    | returned v =>
      simp only [calmly, Bool.and_eq_true] at h
      refine ⟨h.1, fun e heq => ?_⟩
      have hreceipt := h.2
      rw [heq] at hreceipt
      exact hreceipt
  | join => cases r with
    | none => cases h
    | some outcomes => trivial
  | compensate => cases r with
    | returned => trivial
    | raised e => exact h
  | append site =>
    cases site <;> cases r <;> first | trivial | simpa [calmly, Calm] using h
  | notify site | gate site | inputs site | sleep site =>
    cases site <;> cases r <;> first | trivial | simpa [calmly, Calm] using h
  | condition site =>
    cases site <;> rcases r with (_ | _) | _ <;> first | trivial | simpa [calmly, Calm] using h
  | postcheck site =>
    cases site <;> cases r <;> first | trivial | exact handled_of_coded _ h
  | action site =>
    cases site <;> rcases r with (_ | _) | _ | _ | _ <;>
      first | trivial | exact handled_of_coded _ h

def calmAnswered (cfg : Config V) (p : Tasks V) : Move (Res (V := V)) Request Empty → Bool
  | .resume j answer => match p.tasks[j]? with
    | some (_, .call o _) => calmly cfg o (answer o)
    | _ => true
  | _ => true

theorem calmMove_legal [DecidableEq V] (cfg : Config V) (p : Tasks V)
    (m : Move (Res (V := V)) Request Empty) (h : (playableMove p m && calmAnswered cfg p m) = true) :
    (calmEngine cfg).Legal p m := by
  obtain ⟨hplayable, hcalmly⟩ := Bool.and_eq_true_iff.mp h
  have hlegal := playableMove_legal cfg p m hplayable
  cases m with
  | world w => exact w.elim
  | start t => exact ⟨hlegal, trivial⟩
  | resume j answer =>
    obtain ⟨t, o, k, hj, hanswers⟩ := hlegal
    simp only [calmAnswered, hj] at hcalmly
    exact ⟨t, o, k, hj, hanswers, calm_of_calmly hcalmly⟩

def idleMove : Move (Res (V := Nat)) Request Empty := .start (.control .pause "")

theorem idleMove_legal (p : Tasks Nat) : (calmEngine sampleConfig).Legal p idleMove :=
  ⟨trivial, trivial⟩

set_option maxRecDepth 20000 in
theorem sample_run : (calmEngine sampleConfig).Run (System.initial .initial) sampleMoves
    ((calmEngine sampleConfig).play (System.initial .initial) sampleMoves) :=
  System.run_of_checked (calmMove_legal sampleConfig) (by decide +kernel)

/-- The run of a workflow that fails and is rolled back, and then idle requests for ever. -/
def sampleEndless : (calmEngine sampleConfig).Endless .initial :=
  sample_run.endless idleMove_legal

theorem sampleEndless_pool : sampleEndless.pool sampleMoves.length = (calmEngine sampleConfig).play
      (System.initial .initial) sampleMoves := by
  unfold sampleEndless
  exact sample_run.endless_pool idleMove_legal

set_option maxRecDepth 20000 in
theorem sample_ended : ((sampleEndless.pool sampleMoves.length).ended 0 =
      some (.execute sampleDefinition (some "run-one") "uuid",
        some (.ok (.execution sampleExecution))) ∧
    (sampleEndless.pool sampleMoves.length).ended 1 =
      some (.branch 0 "b", some (.ok .branch)) ∧
    (sampleEndless.pool sampleMoves.length).ended 2 =
      some (.branch 0 "c", some (.ok .branch))) ∧
    (sampleEndless.pool sampleMoves.length).tasks.length = 3 := by
  rw [sampleEndless_pool]
  exact ⟨⟨by decide +kernel, by decide +kernel, by decide +kernel⟩, by decide +kernel⟩

theorem sample_over {m i : Nat} (hm : sampleMoves.length ≤ m) {t : Request} {o : Op Nat}
    {k : Res o → Task Nat (Reply Nat)} (hi : (sampleEndless.pool m).tasks[i]? = some (t, .call o k)) :
    ¬Mine 0 (sampleEndless.pool m) i := by
  obtain ⟨⟨hfirst, hleft, hright⟩, hlength⟩ := sample_ended
  have hended : ∀ {i t r}, (sampleEndless.pool sampleMoves.length).ended i = some (t, some (.ok r)) →
      (sampleEndless.pool m).tasks[i]? = some (t, .ret r) := fun h =>
    sampleEndless.ended_stays (r := .ok _) (Pool.task_of_ended h) hm
  intro hmine
  match i, hi, hmine with
  | 0, hi, _ =>
    rw [hended hfirst] at hi
    cases hi
  | 1, hi, _ =>
    rw [hended hleft] at hi
    cases hi
  | 2, hi, _ =>
    rw [hended hright] at hi
    cases hi
  | i + 3, _, hmine =>
    -- The other tasks were started by the idle move.
    rcases hmine with h | ⟨id, q, hi⟩
    · cases h
    · obtain ⟨n, hn, -, hstart⟩ := sampleEndless.started_since hi hm (by omega)
      have hidle : sampleEndless.move n = idleMove := by
        unfold sampleEndless
        exact sample_run.endless_move idleMove_legal hn
      rw [hidle] at hstart
      cases hstart

theorem sample_fair : Fair sampleEndless 0 := by
  intro n
  refine ⟨max n sampleMoves.length, by omega, Or.inr ?_⟩
  rintro ⟨m, howns, hlegal⟩
  have hm : sampleMoves.length ≤ max n sampleMoves.length := by omega
  cases m with
  | world w => exact w.elim
  | resume i answer =>
    obtain ⟨t, o, k, hi, -⟩ := hlegal
    exact sample_over hm hi howns
  | start t =>
    cases t with
    | branch owner id =>
      obtain rfl : owner = 0 := howns
      have hended := sampleEndless.ended_stays (r := .ok _)
        (Pool.task_of_ended sample_ended.1.1) hm
      have hsettled : Settled ⟨0, "run-one", sampleDefinition⟩ _ _ _ :=
        ((calm_holds (sampleEndless.reachable _)).tasks 0 _ _ hended).2
      obtain ⟨e, step, snapshot, hcreated⟩ := Branch.created?_iff.mp hlegal.1
      rcases hsettled.resting id with hnone | ⟨outcome, hdone⟩
      · rw [hcreated] at hnone
        cases hnone
      · rw [hcreated] at hdone
        cases hdone
    | _ => exact howns

theorem sample_not_paused : NotLeftPaused sampleEndless 0 := by
  intro n
  refine ⟨max n sampleMoves.length, by omega, ?_⟩
  rintro ⟨i, t, site, wakes, k, hmine, hi, -⟩
  exact sample_over (by omega) hi hmine

set_option maxRecDepth 20000 in
/-- A workflow that fails and is rolled back. -/
theorem accounted_run : ∃ ex : WorkflowExecution Nat, ex.id = "run-one" ∧ ∃ N, ∀ m ≥ N,
    (sampleEndless.pool m).tasks[0]? =
      some (.execute sampleDefinition (some "run-one") "uuid", .ret (.execution ex)) ∧
    terminalsOf 0 (sampleEndless.pool m).state.history =
      [⟨"cap", ex.id, "w", .terminal ex.status ex.errorCode⟩] ∧
    .settled 0 ex false (some ex) ∈ (sampleEndless.pool m).state.history := by
  refine accounted sampleConfig sampleEndless 0 sampleDefinition (some "run-one") "uuid"
    sample_fair sample_not_paused sampleMoves.length ?_ ?_
  · exact ⟨_, Pool.task_of_ended sample_ended.1.1⟩
  · rw [sampleEndless_pool]
    decide +kernel

end Ares.Workflows
