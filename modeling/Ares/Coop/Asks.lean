import Ares.Coop.Logic

/-! What tasks wait for.  `p.Asks W s` says that `W` holds of every call of `p` in the state in which
it is made. -/

namespace Coop

variable {σ Op : Type} {Res : Op → Type} {ε α β τ κ : Type}

namespace Proc

variable (W : σ → Op → Prop)

def Asks : Proc σ Res ε α → σ → Prop
  | ret _, _ => True
  | raise _, _ => True
  | get k, s => (k s).Asks s
  | put s' k, _ => k.Asks s'
  | call o k, s => W s o ∧ ∀ r s', (k r).Asks s'

variable {W} {p : Proc σ Res ε α} {f : α → Proc σ Res ε β} {s : σ}

theorem Asks.bind (hp : p.Asks W s) (hf : ∀ a s', (f a).Asks W s') : (p.bind f).Asks W s := by
  induction p generalizing s with
  | ret a => exact hf a s
  | raise => trivial
  | get k ih => exact ih s hp
  | put s' k ih => exact ih hp
  | call o k ih => exact ⟨hp.1, fun r s' => ih r (hp.2 r s')⟩

theorem Asks.observe (hp : p.Asks W s) : p.observe.Asks W s := by
  induction p generalizing s with
  | ret | raise => trivial
  | get k ih => exact ih s hp
  | put s' k ih => exact ih hp
  | call o k ih => exact ⟨hp.1, fun r s' => ih r (hp.2 r s')⟩

theorem asks_reading {g : σ → β} {k : β → Proc σ Res ε α} (h : (k (g s)).Asks W s) :
    ((reading g).bind k).Asks W s :=
  h

theorem asks_require (c : Bool) (e : ε) (s : σ) : (require c e : Proc σ Res ε Unit).Asks W s := by
  cases c <;> trivial

theorem Asks.run (h : p.Asks W s) : (p.run s).2.Asks W (p.run s).1 := by
  induction p generalizing s with
  | ret | raise => trivial
  | call => exact h
  | get k ih => exact ih s h
  | put s' k ih => exact ih h

theorem Asks.mono {s' : σ} (hq : p.Suspended) (h : p.Asks W s) (hW : ∀ o, W s o → W s' o) :
    p.Asks W s' := by
  cases p with
  | ret | raise => trivial
  | get | put => exact hq.elim
  | call o k => exact ⟨hW o h.1, h.2⟩

end Proc

/-- What the calls of every task meet when they are made, and what the moves keep, holds of every
call that waits. -/
theorem System.asks_of_reachable {S : System σ Res ε α τ κ} {W : Nat → τ → σ → Op → Prop} {s : σ}
    (start : ∀ p t, S.Reachable s p → S.admits p.state t →
      (S.handler p.tasks.length t).Asks (W p.tasks.length t) p.state)
    (keep : ∀ p m, S.Reachable s p → S.Legal p m → ∀ j t o, W j t p.state o →
      W j t (S.next p m).state o)
    {p : Pool σ Res ε α τ} (reach : S.Reachable s p) {j : Nat} {t : τ} {q : Proc σ Res ε α}
    (hj : p.tasks[j]? = some (t, q)) : q.Asks (W j t) p.state := by
  obtain ⟨ms, run⟩ := reach
  refine (run.invariant (P := fun p => S.Reachable s p ∧ ∀ j t q,
    p.tasks[j]? = some (t, q) → q.Suspended ∧ q.Asks (W j t) p.state) ?_
    ⟨⟨[], .nil _⟩, by simp [System.initial]⟩).2 j t q hj |>.2
  rintro p m legal ⟨reach, known⟩
  refine ⟨reach.next legal, fun j t q hq => ?_⟩
  have hkept : ∀ {q'}, p.tasks[j]? = some (t, q') →
      q'.Suspended ∧ q'.Asks (W j t) (S.next p m).state := fun hq' =>
    ⟨(known j t _ hq').1, (known j t _ hq').2.mono (known j t _ hq').1
      fun o => keep p m reach legal j t o⟩
  cases m with
  | world w => exact hkept hq
  | start u =>
    rw [System.next, List.getElem?_append] at hq
    split at hq
    · exact hkept hq
    · obtain ⟨hlt, heq⟩ := List.getElem?_eq_some_iff.mp hq
      obtain rfl : j = p.tasks.length := by simp at hlt; omega
      simp only [Nat.sub_self, List.getElem_cons_zero, Prod.mk.injEq] at heq
      obtain ⟨rfl, rfl⟩ := heq
      exact ⟨Proc.run_suspended _ _, (start p u reach legal).run⟩
  | resume i answer =>
    obtain ⟨u, o, k, hi, -⟩ := legal
    by_cases hij : i = j
    · subst hij
      have hasked := (known i u _ hi).2.2 (answer o) p.state
      simp only [System.next, hi] at hq ⊢
      rw [List.getElem?_set_self (List.getElem?_eq_some_iff.mp hi).1] at hq
      obtain ⟨rfl, rfl⟩ := Prod.mk.inj (Option.some.inj hq)
      exact ⟨Proc.run_suspended _ _, hasked.run⟩
    · have hq' : p.tasks[j]? = some (t, q) := by
        simpa only [System.next, hi, List.getElem?_set_ne hij] using hq
      exact hkept hq'

export Proc (asks_require)

end Coop
