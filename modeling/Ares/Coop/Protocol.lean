import Ares.Coop.Logic

/-! Tasks inside larger systems.  `p.interp` runs the task `p` over a part of a larger state, with
each of its calls carried out by a task of the larger system.  A protocol says which calls a task may
make in which phase, and which phases the answers lead to; a task that obeys it needs no more than a
specification of the tasks that carry out its calls. -/

namespace Coop

variable {σ σ₁ Op Op₁ : Type} {Res : Op → Type} {Res₁ : Op₁ → Type} {ε ε₁ α β γ : Type}

structure Protocol (γ : Type) {Op : Type} (Res : Op → Type) where
  ask : γ → Op → Prop
  next : γ → (o : Op) → Res o → γ → Prop

namespace Proc

/-- The task `p` obeys the protocol from the phase `g` on, and ends in `Q` or `E`. -/
def Obeys (A : Protocol γ Res) : Proc σ Res ε α → (α → γ → Prop) → (ε → γ → Prop) → γ → Prop
  | ret a, Q, _, g => Q a g
  | raise e, _, E, g => E e g
  | get k, Q, E, g => ∀ s, (k s).Obeys A Q E g
  | put _ k, Q, E, g => k.Obeys A Q E g
  | call o k, Q, E, g => A.ask g o ∧ ∀ r g', A.next g o r g' → (k r).Obeys A Q E g'

section Rules

variable {A : Protocol γ Res} {p : Proc σ Res ε α} {f : α → Proc σ Res ε β}
  {Q Q' : α → γ → Prop} {E E' : ε → γ → Prop} {g : γ}

@[simp] theorem obeys_ret {a : α} : (ret a : Proc σ Res ε α).Obeys A Q E g ↔ Q a g := Iff.rfl

@[simp] theorem obeys_raise {e : ε} : (raise e : Proc σ Res ε α).Obeys A Q E g ↔ E e g := Iff.rfl

@[simp] theorem obeys_bind {R : β → γ → Prop} :
    (p.bind f).Obeys A R E g ↔ p.Obeys A (fun a g => (f a).Obeys A R E g) E g := by
  induction p generalizing g with
  | ret | raise => exact Iff.rfl
  | get k ih => exact forall_congr' fun s => ih s
  | put s' k ih => exact ih
  | call o k ih =>
    exact and_congr_right fun _ => forall_congr' fun r => forall_congr' fun _ =>
      forall_congr' fun _ => ih r

theorem obeys_do {R : β → γ → Prop} :
    (p >>= f).Obeys A R E g ↔ p.Obeys A (fun a g => (f a).Obeys A R E g) E g := obeys_bind

@[simp] theorem obeys_observe {R : Except ε α → γ → Prop} {E' : ε → γ → Prop} :
    p.observe.Obeys A R E' g ↔
      p.Obeys A (fun a g => R (.ok a) g) (fun e g => R (.error e) g) g := by
  induction p generalizing g with
  | ret | raise => exact Iff.rfl
  | get k ih => exact forall_congr' fun s => ih s
  | put s' k ih => exact ih
  | call o k ih =>
    exact and_congr_right fun _ => forall_congr' fun r => forall_congr' fun _ =>
      forall_congr' fun _ => ih r

theorem Obeys.mono (h : p.Obeys A Q E g) (hQ : ∀ a g, Q a g → Q' a g)
    (hE : ∀ e g, E e g → E' e g) : p.Obeys A Q' E' g := by
  induction p generalizing g with
  | ret a => exact hQ a g h
  | raise e => exact hE e g h
  | get k ih => exact fun s => ih s (h s)
  | put s' k ih => exact ih h
  | call o k ih => exact ⟨h.1, fun r g' hn => ih r (h.2 r g' hn)⟩

@[simp] theorem obeys_perform {o : Op} {Q : Res o → γ → Prop} :
    (perform o : Proc σ Res ε (Res o)).Obeys A Q E g ↔
      A.ask g o ∧ ∀ r g', A.next g o r g' → Q r g' := Iff.rfl

theorem obeys_modify {f : σ → σ} {Q : Unit → γ → Prop} (h : Q () g) :
    (modify f : Proc σ Res ε Unit).Obeys A Q E g :=
  fun _ => h

@[simp] theorem obeys_require {c : Bool} {e : ε} {Q : Unit → γ → Prop} :
    (require c e : Proc σ Res ε Unit).Obeys A Q E g ↔
      (c = true → Q () g) ∧ (c = false → E e g) := by
  cases c <;> simp [require]

@[simp] theorem obeys_ofOption {r : Option α} {e : ε} :
    (ofOption e r : Proc σ Res ε α).Obeys A Q E g ↔
      (∀ a, r = some a → Q a g) ∧ (r = none → E e g) := by
  cases r <;> simp [ofOption]

@[simp] theorem obeys_ofExcept {r : Except ε α} :
    (ofExcept r : Proc σ Res ε α).Obeys A Q E g ↔
      (∀ a, r = .ok a → Q a g) ∧ ∀ e, r = .error e → E e g := by
  cases r <;> simp [ofExcept]

@[simp] theorem obeys_handle {h : ε → Proc σ Res ε α} :
    (p.handle h).Obeys A Q E g ↔ p.Obeys A Q (fun e g => (h e).Obeys A Q E g) g := by
  induction p generalizing g with
  | ret | raise => exact Iff.rfl
  | get k ih => exact forall_congr' fun s => ih s
  | put s' k ih => exact ih
  | call o k ih =>
    exact and_congr_right fun _ => forall_congr' fun r => forall_congr' fun _ =>
      forall_congr' fun _ => ih r

end Rules

/-- The task `p` over a part of the state, with its calls carried out by `f`. -/
def interp (view : σ → σ₁) (write : σ₁ → σ → σ) (f : (o : Op₁) → Proc σ Res ε (Res₁ o))
    (err : ε₁ → ε) : Proc σ₁ Res₁ ε₁ α → Proc σ Res ε α
  | ret a => ret a
  | raise e => raise (err e)
  | get k => get fun s => (k (view s)).interp view write f err
  | put s' k => get fun s => put (write s' s) (k.interp view write f err)
  | call o k => (f o).bind fun r => (k r).interp view write f err

/-- Where the tasks that carry out the calls of a protocol lead from phase to phase, a task that
obeys the protocol ends as the protocol says.  `R` ties the phases to the states. -/
theorem Obeys.interp_spec {L : Logic σ Res} {A : Protocol γ Res₁} {view : σ → σ₁}
    {write : σ₁ → σ → σ} {f : (o : Op₁) → Proc σ Res ε (Res₁ o)} {err : ε₁ → ε}
    {p : Proc σ₁ Res₁ ε₁ α} {Q : α → γ → Prop} {E : ε₁ → γ → Prop} {g : γ} {s : σ}
    {R : γ → σ → Prop} (hp : p.Obeys A Q E g) (h : R g s)
    (writes : ∀ g s s', R g s → L.guar s (write s' s) ∧ L.inv (write s' s) ∧ R g (write s' s))
    (calls : ∀ g o s, A.ask g o → R g s →
      (f o).Spec L (fun r s' => ∃ g', A.next g o r g' ∧ R g' s') (fun _ _ => False) s) :
    (p.interp view write f err).Spec L (fun a s' => ∃ g', Q a g' ∧ R g' s')
      (fun e s' => ∃ e' g', e = err e' ∧ E e' g' ∧ R g' s') s := by
  induction p generalizing g s with
  | ret a => exact ⟨g, hp, h⟩
  | raise e => exact ⟨e, g, rfl, hp, h⟩
  | get k ih => exact ih (view s) (hp (view s)) h
  | put s' k ih =>
    obtain ⟨hg, hi, hR⟩ := writes g s s' h
    exact ⟨hg, hi, ih hp hR⟩
  | call o k ih =>
    refine spec_bind.mpr ((calls g o s hp.1 h).mono (fun r s' hs' => ?_) fun _ _ => False.elim)
    obtain ⟨g', hn, hR⟩ := hs'
    exact ih r (hp.2 r g' hn) hR

/-- A specification over the part of the state holds over the whole, where the writes and the calls
of the part are allowed in the whole.  `P` is what the task holds on to outside of its part. -/
theorem Spec.interp {L : Logic σ Res} {M : Logic σ₁ Res₁} {view : σ → σ₁} {write : σ₁ → σ → σ}
    {f : (o : Op₁) → Proc σ Res ε (Res₁ o)} {err : ε₁ → ε} {p : Proc σ₁ Res₁ ε₁ α}
    {Q : α → σ₁ → Prop} {E : ε₁ → σ₁ → Prop} {s : σ} {P : σ → Prop} (hp : p.Spec M Q E (view s))
    (hi : L.inv s) (h : P s)
    (writes : ∀ s b, L.inv s → P s → M.guar (view s) b → M.inv b →
      view (write b s) = b ∧ L.guar s (write b s) ∧ L.inv (write b s) ∧ P (write b s))
    (calls : ∀ o s, L.inv s → P s → (f o).Spec L (fun r s' => L.inv s' ∧ P s' ∧ M.inv (view s') ∧
      M.rely (view s) (view s') ∧ M.answers (view s') o r) (fun _ _ => False) s) :
    (p.interp view write f err).Spec L (fun a s' => L.inv s' ∧ P s' ∧ Q a (view s'))
      (fun e s' => ∃ e', e = err e' ∧ L.inv s' ∧ P s' ∧ E e' (view s')) s := by
  induction p generalizing s with
  | ret a => exact ⟨hi, h, hp⟩
  | raise e => exact ⟨e, rfl, hi, h, hp⟩
  | get k ih => exact ih (view s) hp hi h
  | put s' k ih =>
    obtain ⟨hview, hg, hi', hP⟩ := writes s s' hi h hp.1 hp.2.1
    exact ⟨hg, hi', ih (hview.symm ▸ hp.2.2) hi' hP⟩
  | call o k ih =>
    refine spec_bind.mpr ((calls o s hi h).mono (fun r s' hs' => ?_) fun _ _ => False.elim)
    obtain ⟨hi', hP, hM, hr, ha⟩ := hs'
    exact ih r (hp (view s') hM hr r ha) hi' hP

end Proc

export Proc (obeys_bind obeys_do obeys_handle obeys_modify obeys_ofExcept obeys_ofOption
  obeys_require)

end Coop
