import Ares.Coop.Logic

/-! The move that ends a task.  What the specification of a task promises at its end holds in the state
that its last move leaves, and may speak of the state in which the task was started. -/

namespace Coop

variable {σ Op : Type} {Res : Op → Type} {ε α τ κ : Type} {S : System σ Res ε α τ κ}
  {p p' : Pool σ Res ε α τ} {m : Move Res τ κ} {j : Nat} {t : τ}

/-- The task of the request `t`, started in the pool `p`, ends with `r` by the move that leads to
`p'`. -/
structure System.Ends (S : System σ Res ε α τ κ) (p : Pool σ Res ε α τ) (t : τ) (r : Except ε α)
    (p' : Pool σ Res ε α τ) : Prop where
  start : S.Legal p (.start t)
  run : ∃ ms q m, S.Run (S.next p (.start t)) ms q ∧ q.ended p.tasks.length = some (t, none) ∧
    S.Legal q m ∧ p' = S.next q m
  ended : p'.ended p.tasks.length = some (t, some r)

theorem System.task_next_of_ne {q : Proc σ Res ε α} (hne : p.mover m ≠ some j)
    (hj : p.tasks[j]? = some (t, q)) : (S.next p m).tasks[j]? = some (t, q) := by
  cases m with
  | world w => exact hj
  | start u =>
    rw [System.next, List.getElem?_append_left (List.getElem?_eq_some_iff.mp hj).1]
    exact hj
  | resume i answer =>
    have hij : i ≠ j := fun h => hne (congrArg some h)
    simp only [System.next]
    split
    · rw [List.getElem?_set_ne hij]
      exact hj
    · exact hj

theorem System.Reachable.run {s : σ} {ms : List (Move Res τ κ)} (reach : S.Reachable s p)
    (run : S.Run p ms p') : S.Reachable s p' := by
  induction run with
  | nil => exact reach
  | cons legal _ ih => exact ih (reach.next legal)

theorem System.Ends.reachable {s : σ} {r : Except ε α} (h : S.Ends p t r p')
    (reach : S.Reachable s p) : S.Reachable s p' := by
  obtain ⟨ms, q, m, run, -, legal, rfl⟩ := h.run
  exact ((reach.next h.start).run run).next legal

theorem System.ended_next {r : Except ε α} (legal : S.Legal p m)
    (hj : p.ended j = some (t, some r)) : (S.next p m).ended j = some (t, some r) := by
  have htask := Pool.task_of_ended hj
  have hne : p.mover m ≠ some j := by
    cases m with
    | world w => exact nofun
    | start u =>
      intro h
      have := (List.getElem?_eq_some_iff.mp htask).1
      have : p.tasks.length = j := Option.some.inj h
      omega
    | resume i answer =>
      rintro h
      obtain rfl : i = j := Option.some.inj h
      obtain ⟨u, o, k, hi, -⟩ := legal
      rw [htask] at hi
      cases r <;> cases hi
  rw [Pool.ended, System.task_next_of_ne hne htask]
  cases r <;> rfl

theorem Proc.call_of_not_ended {q : Proc σ Res ε α} (hq : q.Suspended) (h : q.ended? = none) :
    ∃ o k, q = .call o k := by
  cases q with
  | ret a => cases h
  | raise e => cases h
  | get k => exact hq.elim
  | put s k => exact hq.elim
  | call o k => exact ⟨o, k, rfl⟩

namespace Contract

variable {C : Contract S} {Q : α → σ → Prop} {E : ε → σ → Prop}

/-- The task `j` of the pool keeps the specification. -/
def Follows (C : Contract S) (p : Pool σ Res ε α τ) (j : Nat) (t : τ) (Q : α → σ → Prop)
    (E : ε → σ → Prop) : Prop :=
  ∃ q, p.tasks[j]? = some (t, q) ∧ q.Suspended ∧ q.Spec (C.logic j) Q E p.state

theorem Holds.rely_next (hC : C.Holds p) (legal : S.Legal p m) (hne : p.mover m ≠ some j) :
    C.rely j p.state (S.next p m).state := by
  obtain ⟨i, hi, hg⟩ | ⟨w, hw, heq⟩ := hC.writes m legal
  · exact C.rely_of_chain (fun h => hne (h ▸ hi)) hg
  · rw [heq]
    exact (C.world p.state w hC.inv hw).2 j

theorem Holds.follows_start (hC : C.Holds p)
    (hs : (S.handler p.tasks.length t).Spec (C.logic p.tasks.length) Q E p.state) :
    C.Follows (S.next p (.start t)) p.tasks.length t Q E :=
  ⟨_, by simp [System.next], Proc.run_suspended _ _, (Proc.Spec.run hs hC.inv).2.2⟩

theorem Holds.follows_next (hC : C.Holds p) (legal : S.Legal p m) (h : C.Follows p j t Q E)
    (hj : p.ended j = some (t, none)) : C.Follows (S.next p m) j t Q E := by
  obtain ⟨q, hq, hsuspended, hspec⟩ := h
  rw [Pool.ended, hq] at hj
  obtain ⟨o, k, rfl⟩ := Proc.call_of_not_ended hsuspended
    (Prod.mk.inj (Option.some.inj hj)).2
  by_cases hmover : p.mover m = some j
  · cases m with
    | world w => cases hmover
    | start u =>
      have := (List.getElem?_eq_some_iff.mp hq).1
      have : p.tasks.length = j := Option.some.inj hmover
      omega
    | resume i answer =>
      obtain rfl : i = j := Option.some.inj hmover
      obtain ⟨u, o', k', hi, ha⟩ := legal
      rw [hq] at hi
      cases hi
      have hrest := Proc.Spec.run (hspec p.state hC.inv (C.refl i _) (answer o) ha) hC.inv
      simp only [System.next, hq]
      exact ⟨_, List.getElem?_set_self (List.getElem?_eq_some_iff.mp hq).1,
        Proc.run_suspended _ _, hrest.2.2⟩
  · exact ⟨.call o k, System.task_next_of_ne hmover hq, trivial, fun s hi hr r ha =>
      hspec s hi (C.trans j _ _ _ (hC.rely_next legal hmover) hr) r ha⟩

theorem Holds.follows_run (hC : C.Holds p) {ms : List (Move Res τ κ)} (run : S.Run p ms p')
    (h : C.Follows p j t Q E) (hj : p'.ended j = some (t, none)) : C.Follows p' j t Q E := by
  induction run with
  | nil => exact h
  | @cons p p' m ms legal rest ih =>
    have hwaits : p.ended j = some (t, none) := by
      obtain ⟨q, hq, -, -⟩ := h
      rw [Pool.ended, hq]
      cases hend : q.ended? with
      | none => simp [hend]
      | some r =>
        have hended : p.ended j = some (t, some r) := by simp [Pool.ended, hq, hend]
        have hlater : p'.ended j = some (t, some r) :=
          (System.Run.invariant (P := fun p => p.ended j = some (t, some r))
            (fun _ _ legal => System.ended_next legal) (.cons legal rest) hended)
        rw [hlater] at hj
        cases hj
    exact ih (hC.next m legal) (hC.follows_next legal h hwaits) hj

theorem Holds.at_end (hC : C.Holds p) {r : Except ε α} (h : S.Ends p t r p')
    (hs : (S.handler p.tasks.length t).Spec (C.logic p.tasks.length) Q E p.state) :
    (∀ a, r = .ok a → Q a p'.state) ∧ ∀ e, r = .error e → E e p'.state := by
  obtain ⟨ms, q, m, run, hwaits, legal, rfl⟩ := h.run
  have hnext := hC.next (.start t) h.start
  have hq : C.Holds q := run.invariant (fun _ m legal h => Holds.next h m legal) hnext
  obtain ⟨x, hx, -, hspec⟩ := hq.follows_next legal
    (hnext.follows_run run (hC.follows_start hs) hwaits) hwaits
  have htask := Pool.task_of_ended h.ended
  rw [hx] at htask
  obtain rfl : x = ofExcept r := (Prod.mk.inj (Option.some.inj htask)).2
  exact Proc.spec_ofExcept.mp hspec

end Contract

end Coop
