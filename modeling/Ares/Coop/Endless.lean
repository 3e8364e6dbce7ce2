import Mathlib.Data.Nat.Find
import Mathlib.Data.Nat.Init
import Mathlib.Tactic.Common
import Ares.Coop.Pool

/-! Runs without an end.  A task is a well-founded tree, so no run resumes it without end. -/

namespace Coop

variable {σ Op : Type} {Res : Op → Type} {ε α τ κ : Type}

namespace System

variable {S : System σ Res ε α τ κ}

/-- A run that never ends. -/
structure Endless (S : System σ Res ε α τ κ) (s : σ) where
  pool : Nat → Pool σ Res ε α τ
  move : Nat → Move Res τ κ
  initial : pool 0 = System.initial s
  legal : ∀ n, S.Legal (pool n) (move n)
  next : ∀ n, pool (n + 1) = S.next (pool n) (move n)

theorem Endless.reachable {s : σ} (run : S.Endless s) (n : Nat) :
    S.Reachable s (run.pool n) := by
  induction n with
  | zero =>
    rw [run.initial]
    exact ⟨[], .nil _⟩
  | succ n ih =>
    rw [run.next]
    exact ih.next (run.legal n)

theorem task_next {p : Pool σ Res ε α τ} {m : Move Res τ κ} {j : Nat} {task : τ × Proc σ Res ε α}
    (hj : p.tasks[j]? = some task) (hm : ∀ answer, m ≠ .resume j answer) :
    (S.next p m).tasks[j]? = some task := by
  cases m with
  | world w => exact hj
  | start t =>
    rw [System.next, List.getElem?_append_left (List.getElem?_eq_some_iff.mp hj).1]
    exact hj
  | resume i answer =>
    have hne : i ≠ j := fun h => hm answer (h ▸ rfl)
    simp only [System.next]
    split
    · rw [List.getElem?_set_ne hne]
      exact hj
    · exact hj

theorem task_resume {p : Pool σ Res ε α τ} {j : Nat} {answer : (o : Op) → Res o} {t : τ} {o : Op}
    {k : Res o → Proc σ Res ε α} (hj : p.tasks[j]? = some (t, .call o k)) :
    (S.next p (.resume j answer)).tasks[j]? = some (t, ((k (answer o)).run p.state).2) := by
  simp only [System.next, hj]
  exact List.getElem?_set_self (List.getElem?_eq_some_iff.mp hj).1

namespace Endless

variable {s : σ} (run : S.Endless s)

theorem induct_le {P : Pool σ Res ε α τ → Prop} {n m : Nat} (hle : n ≤ m) (h : P (run.pool n))
    (step : ∀ k, P (run.pool k) → P (run.pool (k + 1))) : P (run.pool m) := by
  induction m, hle using Nat.le_induction with
  | base => exact h
  | succ m _ ih => exact step m ih

/-- From `n` on the run does not resume the task `j` any more. -/
def Rests (j n : Nat) : Prop := ∀ m ≥ n, ∀ answer, run.move m ≠ .resume j answer

theorem task_until {j n m : Nat} {task : τ × Proc σ Res ε α}
    (hj : (run.pool n).tasks[j]? = some task) (hle : n ≤ m)
    (hrest : ∀ i, n ≤ i → i < m → ∀ answer, run.move i ≠ .resume j answer) :
    (run.pool m).tasks[j]? = some task := by
  induction m, hle using Nat.le_induction with
  | base => exact hj
  | succ m hle ih =>
    rw [run.next]
    exact task_next (ih fun i hi him => hrest i hi (by omega)) (hrest m hle (by omega))

theorem rests_of_task {j : Nat} {q : Proc σ Res ε α}
    (h : ∀ o k, q = .call o k → ∀ r s' n t,
      (run.pool n).tasks[j]? = some (t, ((k r).run s').2) → ∃ N, run.Rests j N)
    {n : Nat} {t : τ} (hj : (run.pool n).tasks[j]? = some (t, q)) : ∃ N, run.Rests j N := by
  classical
  by_cases hnever : run.Rests j n
  · exact ⟨n, hnever⟩
  · -- The first time after `n` at which the task is resumed.
    have hexists : ∃ m, n ≤ m ∧ ∃ answer, run.move m = .resume j answer := by
      unfold Rests at hnever
      push Not at hnever
      obtain ⟨m, hm, answer, heq⟩ := hnever
      exact ⟨m, hm, answer, heq⟩
    obtain ⟨hle, answer, hmove⟩ := Nat.find_spec hexists
    have hbefore : ∀ i, n ≤ i → i < Nat.find hexists → ∀ answer, run.move i ≠ .resume j answer :=
      fun i hi hlt answer heq => Nat.find_min hexists hlt ⟨hi, answer, heq⟩
    have hthen := run.task_until hj hle hbefore
    have hlegal := run.legal (Nat.find hexists)
    rw [hmove] at hlegal
    obtain ⟨t', o, k, hcall, -⟩ := hlegal
    rw [hthen] at hcall
    obtain ⟨rfl, rfl⟩ := Prod.mk.inj (Option.some.inj hcall)
    refine h o k rfl (answer o) (run.pool (Nat.find hexists)).state (Nat.find hexists + 1) t ?_
    rw [run.next, hmove]
    exact task_resume hthen

theorem finitely_resumed (j : Nat) : ∃ N, run.Rests j N := by
  -- By induction on the task, for the task and for what is left of it at its next call.
  have htask : ∀ q : Proc σ Res ε α,
      (∀ n t, (run.pool n).tasks[j]? = some (t, q) → ∃ N, run.Rests j N) ∧
        ∀ s' n t, (run.pool n).tasks[j]? = some (t, (q.run s').2) → ∃ N, run.Rests j N := by
    intro q
    induction q with
    | ret a =>
      have hend : ∀ n t, (run.pool n).tasks[j]? = some (t, .ret a) → ∃ N, run.Rests j N :=
        fun n t hj => run.rests_of_task (by simp) hj
      exact ⟨hend, fun _ => hend⟩
    | raise e =>
      have hend : ∀ n t, (run.pool n).tasks[j]? = some (t, .raise e) → ∃ N, run.Rests j N :=
        fun n t hj => run.rests_of_task (by simp) hj
      exact ⟨hend, fun _ => hend⟩
    | get k ih =>
      exact ⟨fun n t hj => run.rests_of_task (by simp) hj, fun s' => (ih s').2 s'⟩
    | put s'' k ih =>
      exact ⟨fun n t hj => run.rests_of_task (by simp) hj, fun _ => ih.2 s''⟩
    | call o k ih =>
      have hcall : ∀ n t, (run.pool n).tasks[j]? = some (t, .call o k) →
          ∃ N, run.Rests j N := by
        intro n t hj
        refine run.rests_of_task ?_ hj
        rintro o' k' heq r s' n' t' hj'
        cases heq
        exact (ih r).2 s' n' t' hj'
      exact ⟨hcall, fun _ => hcall⟩
  by_cases hever : ∃ n task, (run.pool n).tasks[j]? = some task
  · obtain ⟨n, ⟨t, q⟩, hj⟩ := hever
    exact (htask q).1 n t hj
  · -- A task that never starts is never resumed.
    refine ⟨0, fun n _ answer heq => hever ?_⟩
    have hlegal := run.legal n
    rw [heq] at hlegal
    obtain ⟨t, o, k, hj, -⟩ := hlegal
    exact ⟨n, _, hj⟩

theorem eventually_all {ι : Type} {P : ι → Nat → Prop} (l : List ι)
    (h : ∀ i ∈ l, ∃ N, ∀ m ≥ N, P i m) : ∃ N, ∀ i ∈ l, ∀ m ≥ N, P i m := by
  induction l with
  | nil => exact ⟨0, by simp⟩
  | cons i l ih =>
    obtain ⟨hi, hl⟩ := List.forall_mem_cons.mp h
    obtain ⟨N, hN⟩ := hi
    obtain ⟨M, hM⟩ := ih hl
    refine ⟨max N M, List.forall_mem_cons.mpr ⟨fun m hm => ?_, fun k hk m hm => ?_⟩⟩
    · exact hN m (by omega)
    · exact hM k hk m (by omega)

theorem rests_below (bound : Nat) : ∃ N, ∀ j < bound, run.Rests j N := by
  obtain ⟨N, hN⟩ := eventually_all (P := fun j m => ∀ answer, run.move m ≠ .resume j answer)
    (List.range bound) fun j _ => run.finitely_resumed j
  exact ⟨N, fun j hj m hm => hN j (List.mem_range.mpr hj) m hm⟩

theorem started_since {n m i : Nat} {t : τ} {q : Proc σ Res ε α}
    (hi : (run.pool m).tasks[i]? = some (t, q)) (hle : n ≤ m)
    (hnew : (run.pool n).tasks.length ≤ i) : ∃ k, n ≤ k ∧ k < m ∧ run.move k = .start t := by
  induction m, hle using Nat.le_induction generalizing q with
  | base =>
    have hlt := (List.getElem?_eq_some_iff.mp hi).1
    omega
  | succ m hle ih =>
    rw [run.next] at hi
    obtain ⟨q', hq'⟩ | ⟨hstart, -⟩ := request_next hi
    · obtain ⟨k, hk, hlt, hmove⟩ := ih hq'
      exact ⟨k, hk, by omega, hmove⟩
    · exact ⟨m, hle, by omega, hstart⟩

theorem request_stays {n m j : Nat} {t : τ} {q : Proc σ Res ε α}
    (hj : (run.pool n).tasks[j]? = some (t, q)) (hle : n ≤ m) :
    ∃ q', (run.pool m).tasks[j]? = some (t, q') := by
  induction m, hle using Nat.le_induction with
  | base => exact ⟨q, hj⟩
  | succ m hle ih =>
    obtain ⟨q', hq'⟩ := ih
    rw [run.next]
    by_cases hresumed : ∃ answer, run.move m = .resume j answer
    · obtain ⟨answer, hmove⟩ := hresumed
      have hlegal := run.legal m
      rw [hmove] at hlegal ⊢
      obtain ⟨t', o, k, hcall, -⟩ := hlegal
      obtain ⟨rfl, rfl⟩ := Prod.mk.inj (Option.some.inj (hq'.symm.trans hcall))
      exact ⟨_, task_resume hcall⟩
    · push Not at hresumed
      exact ⟨q', task_next hq' hresumed⟩

theorem ended_stays {n m j : Nat} {t : τ} {r : Except ε α}
    (hj : (run.pool n).tasks[j]? = some (t, .ofExcept r)) (hle : n ≤ m) :
    (run.pool m).tasks[j]? = some (t, .ofExcept r) := by
  induction m, hle using Nat.le_induction with
  | base => exact hj
  | succ m hle ih =>
    rw [run.next]
    refine task_next ih fun answer hmove => ?_
    have hlegal := run.legal m
    rw [hmove] at hlegal
    obtain ⟨t', o, k, hcall, -⟩ := hlegal
    obtain ⟨-, heq⟩ := Prod.mk.inj (Option.some.inj (ih.symm.trans hcall))
    cases r <;> cases heq

end Endless

/-- The pools of a run that makes the moves `move`. -/
def pools (S : System σ Res ε α τ κ) (move : Nat → Move Res τ κ) (p : Pool σ Res ε α τ) :
    Nat → Pool σ Res ε α τ
  | 0 => p
  | n + 1 => S.next (S.pools move p n) (move n)

theorem pools_succ (move : Nat → Move Res τ κ) (p : Pool σ Res ε α τ) (n : Nat) :
    S.pools move p (n + 1) = S.pools (fun k => move (k + 1)) (S.next p (move 0)) n := by
  induction n with
  | zero => rfl
  | succ n ih =>
    rw [pools, ih]
    rfl

def thenAlways (ms : List (Move Res τ κ)) (idle : Move Res τ κ) (n : Nat) : Move Res τ κ :=
  ms.getD n idle

theorem Run.legal_thenAlways {p p' : Pool σ Res ε α τ} {ms : List (Move Res τ κ)}
    {idle : Move Res τ κ} (run : S.Run p ms p') (hidle : ∀ q, S.Legal q idle) (n : Nat) :
    S.Legal (S.pools (thenAlways ms idle) p n) (thenAlways ms idle n) := by
  induction run generalizing n with
  | nil p => exact hidle _
  | cons legal rest ih =>
    cases n with
    | zero => exact legal
    | succ n =>
      rw [pools_succ]
      exact ih n

theorem pools_length (ms : List (Move Res τ κ)) (idle : Move Res τ κ) (p : Pool σ Res ε α τ) :
    S.pools (thenAlways ms idle) p ms.length = S.play p ms := by
  induction ms generalizing p with
  | nil => rfl
  | cons m ms ih =>
    rw [List.length_cons, pools_succ]
    exact ih (S.next p m)

def Run.endless {s : σ} {p : Pool σ Res ε α τ} {ms : List (Move Res τ κ)}
    {idle : Move Res τ κ} (run : S.Run (System.initial s) ms p) (hidle : ∀ q, S.Legal q idle) :
    S.Endless s where
  pool := S.pools (thenAlways ms idle) (System.initial s)
  move := thenAlways ms idle
  initial := rfl
  legal := run.legal_thenAlways hidle
  next _ := rfl

section Idle

variable {s : σ} {p : Pool σ Res ε α τ} {ms : List (Move Res τ κ)} {idle : Move Res τ κ}
  (run : S.Run (System.initial s) ms p) (hidle : ∀ q, S.Legal q idle)

theorem Run.endless_pool : (run.endless hidle).pool ms.length = S.play (System.initial s) ms :=
  pools_length ms idle _

theorem Run.endless_move {n : Nat} (hn : ms.length ≤ n) : (run.endless hidle).move n = idle := by
  show ms.getD n idle = idle
  rw [List.getD_eq_getElem?_getD, List.getElem?_eq_none hn]
  rfl

end Idle

end System

end Coop
