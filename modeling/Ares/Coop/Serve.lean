import Ares.Coop.Logic

/-! A task whose calls are served one after the other by a server with a state, to the end. -/

namespace Coop

variable {σ Op : Type} {Res : Op → Type} {ε α β : Type}

/-- What a server answers to a call, and the state it leaves. -/
abbrev Server (σ : Type) {Op : Type} (Res : Op → Type) := (o : Op) → σ → Res o × σ

namespace Proc

/-- The end of a task whose calls go to a server, and the state that is left. -/
def serve (server : Server σ Res) : Proc σ Res ε α → σ → Except ε α × σ
  | ret a, s => (.ok a, s)
  | raise e, s => (.error e, s)
  | get k, s => (k s).serve server s
  | put s' k, _ => k.serve server s'
  | call o k, s => (k (server o s).1).serve server (server o s).2

variable {server : Server σ Res} {p : Proc σ Res ε α} {f : α → Proc σ Res ε β} {s s' : σ}

@[simp] theorem serve_ret (a : α) : (ret a : Proc σ Res ε α).serve server s = (.ok a, s) := rfl

@[simp] theorem serve_raise (e : ε) :
    (raise e : Proc σ Res ε α).serve server s = (.error e, s) := rfl

theorem serve_bind : (p.bind f).serve server s =
      match p.serve server s with
      | (.ok a, s') => (f a).serve server s'
      | (.error e, s') => (.error e, s') := by
  induction p generalizing s with
  | ret | raise => rfl
  | get k ih => exact ih s
  | put s' k ih => exact ih
  | call o k ih => exact ih _

theorem serve_bind_ok {a : α} (h : p.serve server s = (.ok a, s')) :
    (p.bind f).serve server s = (f a).serve server s' := by
  rw [serve_bind, h]

theorem serve_bind_error {e : ε} (h : p.serve server s = (.error e, s')) :
    (p.bind f).serve server s = (.error e, s') := by
  rw [serve_bind, h]

theorem serve_handle {h : ε → Proc σ Res ε α} :
    (p.handle h).serve server s =
      match p.serve server s with
      | (.ok a, s') => (.ok a, s')
      | (.error e, s') => (h e).serve server s' := by
  induction p generalizing s with
  | ret | raise => rfl
  | get k ih => exact ih s
  | put s' k ih => exact ih
  | call o k ih => exact ih _

theorem serve_observe :
    p.observe.serve server s = (.ok (p.serve server s).1, (p.serve server s).2) := by
  induction p generalizing s with
  | ret | raise => rfl
  | get k ih => exact ih s
  | put s' k ih => exact ih
  | call o k ih => exact ih _

@[simp] theorem serve_perform (o : Op) :
    (perform o : Proc σ Res ε (Res o)).serve server s = (.ok (server o s).1, (server o s).2) := rfl

@[simp] theorem serve_require (c : Bool) (e : ε) :
    (require c e : Proc σ Res ε Unit).serve server s = (if c then .ok () else .error e, s) := by
  cases c <;> rfl

@[simp] theorem serve_ofOption (e : ε) (r : Option α) :
    (ofOption e r : Proc σ Res ε α).serve server s = (r.elim (.error e) .ok, s) := by
  cases r <;> rfl

@[simp] theorem serve_ofExcept (r : Except ε α) :
    (ofExcept r : Proc σ Res ε α).serve server s = (r, s) := by
  cases r <;> rfl

theorem serve_bind_eq_ok {b : β} (h : (p.bind f).serve server s = (.ok b, s')) :
    ∃ a t, p.serve server s = (.ok a, t) ∧ (f a).serve server t = (.ok b, s') := by
  rw [serve_bind] at h
  cases hp : p.serve server s with
  | mk r t =>
    rw [hp] at h
    cases r with
    | ok a => exact ⟨a, t, rfl, h⟩
    | error e => simp at h

theorem serve_require_eq_ok {c : Bool} {e : ε} {a : Unit}
    (h : (require c e : Proc σ Res ε Unit).serve server s = (.ok a, s')) : c = true ∧ s' = s := by
  cases c with
  | true => exact ⟨rfl, (Prod.mk.inj h).2.symm⟩
  | false => simp at h

theorem Quiet.serve_keeps (quiet : p.Quiet) {P : σ → Prop}
    (hcalls : ∀ o s, P s → P (server o s).2) (h : P s) : P (p.serve server s).2 := by
  induction p generalizing s with
  | ret | raise => exact h
  | get k ih => exact ih s (quiet s) h
  | put s' k => exact absurd quiet id
  | call o k ih => exact ih _ (quiet _) (hcalls o s h)

end Proc

export Proc (serve_bind serve_bind_eq_ok serve_bind_error serve_bind_ok serve_handle serve_observe
  serve_ofExcept serve_require_eq_ok)

end Coop
