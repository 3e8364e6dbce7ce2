import Ares.Coop.Logic

/-! What a task does between two of its calls.  A pace says, by the call that the task waited for
last, what it may write and which call it may make next.  The paces that the handlers of a system
keep are kept in every run from any of its pools on. -/

namespace Coop

variable {σ Op : Type} {Res : Op → Type} {ε α β τ κ : Type}

structure Pace (σ Op : Type) where
  write : Option Op → σ → σ → Prop
  ask : Option Op → σ → Op → Prop

namespace Proc

/-- The task keeps the pace from the call `last` on, and ends in `Q` or `E`; it finds any state after
a call. -/
def Paced (A : Pace σ Op) : Proc σ Res ε α → (α → Option Op → σ → Prop) →
    (ε → Option Op → σ → Prop) → Option Op → σ → Prop
  | ret a, Q, _, last, s => Q a last s
  | raise e, _, E, last, s => E e last s
  | get k, Q, E, last, s => (k s).Paced A Q E last s
  | put s' k, Q, E, last, s => A.write last s s' ∧ k.Paced A Q E last s'
  | call o k, Q, E, last, s => A.ask last s o ∧ ∀ r s', (k r).Paced A Q E (some o) s'

/-- The task keeps the pace, whatever its end is. -/
abbrev Keeping (A : Pace σ Op) (p : Proc σ Res ε α) (last : Option Op) (s : σ) : Prop :=
  p.Paced A (fun _ _ _ => True) (fun _ _ _ => True) last s

section Rules

variable {A : Pace σ Op} {p : Proc σ Res ε α} {f : α → Proc σ Res ε β}
  {Q Q' : α → Option Op → σ → Prop} {E E' : ε → Option Op → σ → Prop} {last : Option Op} {s : σ}

@[simp] theorem paced_bind {R : β → Option Op → σ → Prop} :
    (p.bind f).Paced A R E last s ↔
      p.Paced A (fun a last s => (f a).Paced A R E last s) E last s := by
  induction p generalizing last s with
  | ret | raise => exact Iff.rfl
  | get k ih => exact ih s
  | put s' k ih => exact and_congr_right fun _ => ih
  | call o k ih =>
    exact and_congr_right fun _ => forall_congr' fun r => forall_congr' fun _ => ih r

@[simp] theorem paced_observe {R : Except ε α → Option Op → σ → Prop}
    {E' : ε → Option Op → σ → Prop} :
    p.observe.Paced A R E' last s ↔
      p.Paced A (fun a last s => R (.ok a) last s) (fun e last s => R (.error e) last s)
        last s := by
  induction p generalizing last s with
  | ret | raise => exact Iff.rfl
  | get k ih => exact ih s
  | put s' k ih => exact and_congr_right fun _ => ih
  | call o k ih =>
    exact and_congr_right fun _ => forall_congr' fun r => forall_congr' fun _ => ih r

theorem Paced.mono (h : p.Paced A Q E last s) (hQ : ∀ a last s, Q a last s → Q' a last s)
    (hE : ∀ e last s, E e last s → E' e last s) : p.Paced A Q' E' last s := by
  induction p generalizing last s with
  | ret a => exact hQ a last s h
  | raise e => exact hE e last s h
  | get k ih => exact ih s h
  | put s' k ih => exact ⟨h.1, ih h.2⟩
  | call o k ih => exact ⟨h.1, fun r s' => ih r (h.2 r s')⟩

theorem Paced.bind_keeping (hp : p.Keeping A last s)
    (hf : ∀ a last s, (f a).Keeping A last s) : (p.bind f).Keeping A last s :=
  paced_bind.mpr (hp.mono (fun a last s _ => hf a last s) fun _ _ _ h => h)

theorem Paced.observe_keeping (hp : p.Keeping A last s) : p.observe.Keeping A last s :=
  paced_observe.mpr hp

theorem keeping_reading {g : σ → β} {k : β → Proc σ Res ε α} (h : (k (g s)).Keeping A last s) :
    ((reading g).bind k).Keeping A last s :=
  paced_bind.mpr h

theorem keeping_require (c : Bool) (e : ε) :
    (require c e : Proc σ Res ε Unit).Keeping A last s := by
  cases c <;> trivial

def Rest (A : Pace σ Op) : Proc σ Res ε α → Prop
  | call o k => ∀ r s, (k r).Keeping A (some o) s
  | _ => True

theorem Paced.run (h : p.Keeping A last s) :
    Relation.ReflTransGen (A.write last) s (p.run s).1 ∧
      (∀ o k, (p.run s).2 = .call o k → A.ask last (p.run s).1 o) ∧ (p.run s).2.Rest A := by
  induction p generalizing s with
  | ret | raise => exact ⟨.refl, by rintro o k ⟨⟩, trivial⟩
  | get k ih => exact ih s h
  | put s' k ih =>
    obtain ⟨hwrites, hasks, hrest⟩ := ih h.2
    exact ⟨.head h.1 hwrites, hasks, hrest⟩
  | call o k ih =>
    refine ⟨.refl, ?_, h.2⟩
    rintro o' k' ⟨⟩
    exact h.1

end Rules

end Proc

namespace System

variable {S : System σ Res ε α τ κ}

/-- The segment that a move runs: its task, its request, the call that was answered, and what is
left of the task. -/
inductive Segment (S : System σ Res ε α τ κ) (p : Pool σ Res ε α τ) : Move Res τ κ → Nat → τ →
    Option Op → Proc σ Res ε α → Prop
  | start (t : τ) : Segment S p (.start t) p.tasks.length t none
      ((S.handler p.tasks.length t).run p.state).2
  | resume {j : Nat} {t : τ} {o : Op} {k : Res o → Proc σ Res ε α} {answer : (o : Op) → Res o}
      (hj : p.tasks[j]? = some (t, .call o k)) :
      Segment S p (.resume j answer) j t (some o) ((k (answer o)).run p.state).2

theorem task_or_segment {p : Pool σ Res ε α τ} {m : Move Res τ κ} (legal : S.Legal p m) {j : Nat} {t : τ}
    {q : Proc σ Res ε α} (hj : (S.next p m).tasks[j]? = some (t, q)) :
    p.tasks[j]? = some (t, q) ∨ ∃ last, S.Segment p m j t last q := by
  cases m with
  | world w => exact .inl hj
  | start u =>
    rw [System.next, List.getElem?_append] at hj
    split at hj
    · exact .inl hj
    · obtain ⟨hlt, heq⟩ := List.getElem?_eq_some_iff.mp hj
      obtain rfl : j = p.tasks.length := by simp at hlt; omega
      simp only [Nat.sub_self, List.getElem_cons_zero, Prod.mk.injEq] at heq
      obtain ⟨rfl, rfl⟩ := heq
      exact .inr ⟨none, .start u⟩
  | resume i answer =>
    obtain ⟨u, o, k, hi, -⟩ := legal
    simp only [System.next, hi] at hj
    by_cases hij : i = j
    · subst hij
      rw [List.getElem?_set_self (List.getElem?_eq_some_iff.mp hi).1] at hj
      obtain ⟨rfl, rfl⟩ := Prod.mk.inj (Option.some.inj hj)
      exact .inr ⟨some o, .resume hi⟩
    · rw [List.getElem?_set_ne hij] at hj
      exact .inl hj

theorem rest_of_reachable {A : Nat → τ → Pace σ Op} {s : σ}
    (start : ∀ p t, S.Reachable s p → S.admits p.state t →
      (S.handler p.tasks.length t).Keeping (A p.tasks.length t) none p.state)
    {p : Pool σ Res ε α τ} (reach : S.Reachable s p) {j : Nat} {t : τ} {q : Proc σ Res ε α}
    (hj : p.tasks[j]? = some (t, q)) : q.Rest (A j t) := by
  obtain ⟨ms, run⟩ := reach
  refine (run.invariant (P := fun p => S.Reachable s p ∧ ∀ j t q,
    p.tasks[j]? = some (t, q) → q.Rest (A j t)) ?_
    ⟨⟨[], .nil _⟩, by simp [System.initial]⟩).2 j t q hj
  rintro p m legal ⟨reach, known⟩
  refine ⟨reach.next legal, fun j t q hq => ?_⟩
  rcases task_or_segment legal hq with hold | ⟨last, hsegment⟩
  · exact known j t q hold
  · cases hsegment with
    | start t => exact (start p t reach legal).run.2.2
    | resume hi => exact (known j t _ hi _ p.state).run.2.2

theorem paced_next {A : Nat → τ → Pace σ Op} {s : σ}
    (start : ∀ p t, S.Reachable s p → S.admits p.state t →
      (S.handler p.tasks.length t).Keeping (A p.tasks.length t) none p.state)
    {p : Pool σ Res ε α τ} (reach : S.Reachable s p) {m : Move Res τ κ} (legal : S.Legal p m) :
    (∃ w, m = .world w) ∨ ∃ j t last q, S.Segment p m j t last q ∧
      Relation.ReflTransGen ((A j t).write last) p.state (S.next p m).state ∧
      ∀ o k, q = .call o k → (A j t).ask last (S.next p m).state o := by
  cases m with
  | world w => exact .inl ⟨w, rfl⟩
  | start t =>
    obtain ⟨hwrites, hasks, -⟩ := (start p t reach legal).run
    exact .inr ⟨_, t, none, _, .start t, hwrites, hasks⟩
  | resume j answer =>
    obtain ⟨t, o, k, hj, -⟩ := legal
    obtain ⟨hwrites, hasks, -⟩ := (rest_of_reachable start reach hj (answer o) p.state).run
    refine .inr ⟨j, t, some o, _, .resume hj, ?_, ?_⟩
    · simpa only [System.next, hj] using hwrites
    · simpa only [System.next, hj] using hasks

end System

export Proc (keeping_require paced_bind)

end Coop
