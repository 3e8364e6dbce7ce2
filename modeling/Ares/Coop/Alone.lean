import Ares.Coop.Logic

/-! A task that runs alone in an environment, and tasks that make no call of a kind. -/

namespace Coop

variable {σ Op : Type} {Res : Op → Type} {ε α β : Type}

/-- What a task meets that no other task interrupts: how the state changes while the task waits and
the answers that it gets then. -/
structure Env (σ : Type) {Op : Type} (Res : Op → Type) where
  wait : σ → σ
  answer : σ → (o : Op) → Res o

namespace Proc

/-- The end of a task in an environment, and the state it leaves. -/
def alone (env : Env σ Res) : Proc σ Res ε α → σ → Except ε α × σ
  | ret a, s => (.ok a, s)
  | raise e, s => (.error e, s)
  | get k, s => (k s).alone env s
  | put s' k, _ => k.alone env s'
  | call o k, s => (k (env.answer (env.wait s) o)).alone env (env.wait s)

/-- No call of the task satisfies `bad`. -/
def Avoids (bad : Op → Prop) : Proc σ Res ε α → Prop
  | ret _ | raise _ => True
  | get k => ∀ s, (k s).Avoids bad
  | put _ k => k.Avoids bad
  | call o k => ¬bad o ∧ ∀ r, (k r).Avoids bad

variable {env : Env σ Res} {p : Proc σ Res ε α} {f : α → Proc σ Res ε β} {s : σ}
  {bad : Op → Prop}

theorem alone_bind : (p.bind f).alone env s =
      match p.alone env s with
      | (.ok a, s') => (f a).alone env s'
      | (.error e, s') => (.error e, s') := by
  induction p generalizing s with
  | ret | raise => rfl
  | get k ih => exact ih s
  | put s' k ih => exact ih
  | call o k ih => exact ih _

theorem alone_bind_ok {a : α} {s' : σ} (h : p.alone env s = (.ok a, s')) :
    (p.bind f).alone env s = (f a).alone env s' := by
  rw [alone_bind, h]

theorem alone_bind_error {e : ε} {s' : σ} (h : p.alone env s = (.error e, s')) :
    (p.bind f).alone env s = (.error e, s') := by
  rw [alone_bind, h]

theorem alone_bind_eq_ok {b : β} {s' : σ} (h : (p.bind f).alone env s = (.ok b, s')) :
    ∃ a s₁, p.alone env s = (.ok a, s₁) ∧ (f a).alone env s₁ = (.ok b, s') := by
  rw [alone_bind] at h
  split at h
  · next a s₁ hp => exact ⟨a, s₁, hp, h⟩
  · cases h

theorem alone_ret_eq_ok {a b : α} {s' : σ}
    (h : (ret a : Proc σ Res ε α).alone env s = (.ok b, s')) : b = a ∧ s' = s :=
  ⟨(Except.ok.inj (Prod.mk.inj h).1).symm, (Prod.mk.inj h).2.symm⟩

theorem alone_reading_eq_ok {g : σ → α} {a : α} {s' : σ}
    (h : (reading g : Proc σ Res ε α).alone env s = (.ok a, s')) : a = g s ∧ s' = s :=
  ⟨(Except.ok.inj (Prod.mk.inj h).1).symm, (Prod.mk.inj h).2.symm⟩

theorem alone_modify_eq_ok {g : σ → σ} {a : Unit} {s' : σ}
    (h : (modify g : Proc σ Res ε Unit).alone env s = (.ok a, s')) : s' = g s :=
  (Prod.mk.inj h).2.symm

theorem alone_require_true {c : Bool} {e : ε} (hc : c = true) :
    (require c e : Proc σ Res ε Unit).alone env s = (.ok (), s) := by
  subst hc
  rfl

theorem alone_require_eq_ok {c : Bool} {e : ε} {s' : σ}
    (h : (require c e : Proc σ Res ε Unit).alone env s = (.ok (), s')) : c = true ∧ s' = s := by
  cases c with
  | false => cases h
  | true => exact ⟨rfl, (Prod.mk.inj h).2.symm⟩

theorem alone_ofOption_eq_ok {e : ε} {r : Option α} {a : α} {s' : σ}
    (h : (ofOption e r : Proc σ Res ε α).alone env s = (.ok a, s')) : r = some a ∧ s' = s := by
  cases r with
  | none => cases h
  | some b =>
    obtain ⟨hb, hs⟩ := Prod.mk.inj h
    exact ⟨congrArg _ (Except.ok.inj hb), hs.symm⟩

theorem alone_handle {h : ε → Proc σ Res ε α} :
    (p.handle h).alone env s =
      match p.alone env s with
      | (.ok a, s') => (.ok a, s')
      | (.error e, s') => (h e).alone env s' := by
  induction p generalizing s with
  | ret | raise => rfl
  | get k ih => exact ih s
  | put s' k ih => exact ih
  | call o k ih => exact ih _

@[simp] theorem alone_perform (o : Op) :
    (perform o : Proc σ Res ε (Res o)).alone env s =
      (.ok (env.answer (env.wait s) o), env.wait s) := rfl

@[simp] theorem alone_reading (g : σ → α) :
    (reading g : Proc σ Res ε α).alone env s = (.ok (g s), s) := rfl

@[simp] theorem alone_require (c : Bool) (e : ε) :
    (require c e : Proc σ Res ε Unit).alone env s =
      (if c then .ok () else .error e, s) := by
  cases c <;> rfl

@[simp] theorem alone_ofOption (e : ε) (r : Option α) :
    (ofOption e r : Proc σ Res ε α).alone env s =
      (r.elim (.error e) .ok, s) := by
  cases r <;> rfl

@[simp] theorem alone_ofExcept (r : Except ε α) :
    (ofExcept r : Proc σ Res ε α).alone env s = (r, s) := by
  cases r <;> rfl

/-- The task ends with a value as `Q` says, or with an exception as `E` says. -/
def Leaves (Q : α → σ → Prop) (E : ε → σ → Prop) : Except ε α × σ → Prop
  | (.ok a, s) => Q a s
  | (.error e, s) => E e s

theorem Spec.alone {L : Logic σ Res} {Q : α → σ → Prop} {E : ε → σ → Prop} (h : p.Spec L Q E s)
    (hwait : ∀ s, L.inv (env.wait s) ∧ L.rely s (env.wait s))
    (hanswer : ∀ s o, L.answers (env.wait s) o (env.answer (env.wait s) o)) :
    Leaves Q E (p.alone env s) := by
  induction p generalizing s with
  | ret | raise => exact h
  | get k ih => exact ih s h
  | put s' k ih => exact ih h.2.2
  | call o k ih => exact ih _ (h _ (hwait s).1 (hwait s).2 _ (hanswer s o))

@[simp] theorem avoids_ret (a : α) : (ret a : Proc σ Res ε α).Avoids bad := trivial

@[simp] theorem avoids_raise (e : ε) : (raise e : Proc σ Res ε α).Avoids bad := trivial

theorem Avoids.mono {bad' : Op → Prop} (h : p.Avoids bad) (hsub : ∀ o, bad' o → bad o) :
    p.Avoids bad' := by
  induction p with
  | ret | raise => trivial
  | get k ih => exact fun s => ih s (h s)
  | put s k ih => exact ih h
  | call o k ih => exact ⟨fun ho => h.1 (hsub o ho), fun r => ih r (h.2 r)⟩

theorem Avoids.bind (hp : p.Avoids bad) (hf : ∀ a, (f a).Avoids bad) : (p.bind f).Avoids bad := by
  induction p with
  | ret a => exact hf a
  | raise => trivial
  | get k ih => exact fun s => ih s (hp s)
  | put s k ih => exact ih hp
  | call o k ih => exact ⟨hp.1, fun r => ih r (hp.2 r)⟩

theorem Avoids.handle {h : ε → Proc σ Res ε α} (hp : p.Avoids bad) (hh : ∀ e, (h e).Avoids bad) :
    (p.handle h).Avoids bad := by
  induction p with
  | ret => trivial
  | raise e => exact hh e
  | get k ih => exact fun s => ih s (hp s)
  | put s k ih => exact ih hp
  | call o k ih => exact ⟨hp.1, fun r => ih r (hp.2 r)⟩

theorem Avoids.observe (hp : p.Avoids bad) : p.observe.Avoids bad := by
  induction p with
  | ret | raise => trivial
  | get k ih => exact fun s => ih s (hp s)
  | put s k ih => exact ih hp
  | call o k ih => exact ⟨hp.1, fun r => ih r (hp.2 r)⟩

theorem avoids_perform {o : Op} (h : ¬bad o) : (perform o : Proc σ Res ε (Res o)).Avoids bad :=
  ⟨h, fun _ => trivial⟩

@[simp] theorem avoids_reading (g : σ → α) : (reading g : Proc σ Res ε α).Avoids bad :=
  fun _ => trivial

@[simp] theorem avoids_modify (g : σ → σ) : (modify g : Proc σ Res ε Unit).Avoids bad :=
  fun _ => trivial

@[simp] theorem avoids_require (c : Bool) (e : ε) :
    (require c e : Proc σ Res ε Unit).Avoids bad := by
  cases c <;> trivial

@[simp] theorem avoids_ofOption (e : ε) (r : Option α) :
    (ofOption e r : Proc σ Res ε α).Avoids bad := by
  cases r <;> trivial

@[simp] theorem avoids_ofExcept (r : Except ε α) :
    (ofExcept r : Proc σ Res ε α).Avoids bad := by
  cases r <;> trivial

end Proc

export Proc (alone_bind_eq_ok alone_bind_ok alone_handle alone_ofExcept alone_ofOption
  alone_ofOption_eq_ok alone_reading alone_reading_eq_ok alone_require_eq_ok alone_require_true
  alone_ret_eq_ok avoids_modify avoids_ofExcept avoids_ofOption avoids_perform avoids_raise
  avoids_reading avoids_require avoids_ret)

end Coop
