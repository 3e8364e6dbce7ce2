import Mathlib.Logic.Relation
import Mathlib.Tactic.Common
import Ares.Coop.Pool

/-! Rely and guarantee for cooperative tasks.  `Spec L p Q E s` says that the task `p`, from the
state `s`, keeps the invariant of `L` with every write, writes only what the guarantee of `L`
allows, and ends in `Q` when it returns and in `E` when it raises, whatever the other tasks do at
its calls within the rely of `L`.  `System.sound` turns specifications of every request into facts
about every run. -/

namespace Coop

variable {σ Op : Type} {Res : Op → Type} {ε α β τ κ : Type}

structure Logic (σ : Type) {Op : Type} (Res : Op → Type) where
  inv : σ → Prop
  rely : σ → σ → Prop
  guar : σ → σ → Prop
  answers : σ → (o : Op) → Res o → Prop

namespace Proc

variable (L : Logic σ Res)

def Spec : Proc σ Res ε α → (α → σ → Prop) → (ε → σ → Prop) → σ → Prop
  | ret a, Q, _, s => Q a s
  | raise e, _, E, s => E e s
  | get k, Q, E, s => (k s).Spec Q E s
  | put s' k, Q, E, s => L.guar s s' ∧ L.inv s' ∧ k.Spec Q E s'
  | call o k, Q, E, s =>
    ∀ s', L.inv s' → L.rely s s' → ∀ r, L.answers s' o r → (k r).Spec Q E s'

def Quiet : Proc σ Res ε α → Prop
  | ret _ => True
  | raise _ => True
  | get k => ∀ s, (k s).Quiet
  | put _ _ => False
  | call _ k => ∀ r, (k r).Quiet

variable {L}

section Rules

variable {p : Proc σ Res ε α} {f : α → Proc σ Res ε β} {Q Q' : α → σ → Prop}
  {E E' : ε → σ → Prop} {s : σ}

@[simp] theorem spec_ret {a : α} : (ret a : Proc σ Res ε α).Spec L Q E s ↔ Q a s := Iff.rfl

@[simp] theorem spec_raise {e : ε} : (raise e : Proc σ Res ε α).Spec L Q E s ↔ E e s := Iff.rfl

@[simp] theorem spec_get {k : σ → Proc σ Res ε α} :
    (get k).Spec L Q E s ↔ (k s).Spec L Q E s := Iff.rfl

@[simp] theorem spec_put {s' : σ} {k : Proc σ Res ε α} :
    (put s' k).Spec L Q E s ↔ L.guar s s' ∧ L.inv s' ∧ k.Spec L Q E s' := Iff.rfl

@[simp] theorem spec_call {o : Op} {k : Res o → Proc σ Res ε α} :
    (call o k).Spec L Q E s ↔
      ∀ s', L.inv s' → L.rely s s' → ∀ r, L.answers s' o r → (k r).Spec L Q E s' := Iff.rfl

@[simp] theorem spec_bind {R : β → σ → Prop} :
    (p.bind f).Spec L R E s ↔ p.Spec L (fun a s => (f a).Spec L R E s) E s := by
  induction p generalizing s with
  | ret | raise => exact Iff.rfl
  | get k ih => exact ih s
  | put s' k ih => exact and_congr_right fun _ => and_congr_right fun _ => ih
  | call o k ih =>
    exact forall_congr' fun _ => forall_congr' fun _ => forall_congr' fun _ =>
      forall_congr' fun r => forall_congr' fun _ => ih r

theorem spec_do {R : β → σ → Prop} :
    (p >>= f).Spec L R E s ↔ p.Spec L (fun a s => (f a).Spec L R E s) E s := spec_bind

@[simp] theorem spec_handle {h : ε → Proc σ Res ε α} :
    (p.handle h).Spec L Q E s ↔ p.Spec L Q (fun e s => (h e).Spec L Q E s) s := by
  induction p generalizing s with
  | ret | raise => exact Iff.rfl
  | get k ih => exact ih s
  | put s' k ih => exact and_congr_right fun _ => and_congr_right fun _ => ih
  | call o k ih =>
    exact forall_congr' fun _ => forall_congr' fun _ => forall_congr' fun _ =>
      forall_congr' fun r => forall_congr' fun _ => ih r

@[simp] theorem spec_observe {R : Except ε α → σ → Prop} {E' : ε → σ → Prop} :
    p.observe.Spec L R E' s ↔
      p.Spec L (fun a s => R (.ok a) s) (fun e s => R (.error e) s) s := by
  induction p generalizing s with
  | ret | raise => exact Iff.rfl
  | get k ih => exact ih s
  | put s' k ih => exact and_congr_right fun _ => and_congr_right fun _ => ih
  | call o k ih =>
    exact forall_congr' fun _ => forall_congr' fun _ => forall_congr' fun _ =>
      forall_congr' fun r => forall_congr' fun _ => ih r

theorem Spec.mono (h : p.Spec L Q E s) (hQ : ∀ a s, Q a s → Q' a s)
    (hE : ∀ e s, E e s → E' e s) : p.Spec L Q' E' s := by
  induction p generalizing s with
  | ret a => exact hQ a s h
  | raise e => exact hE e s h
  | get k ih => exact ih s h
  | put s' k ih => exact ⟨h.1, h.2.1, ih h.2.2⟩
  | call o k ih => exact fun s' hi hr r ha => ih r (h s' hi hr r ha)

theorem Spec.answers_mono {answers : σ → (o : Op) → Res o → Prop} (h : p.Spec L Q E s)
    (hsub : ∀ s o r, answers s o r → L.answers s o r) :
    p.Spec ⟨L.inv, L.rely, L.guar, answers⟩ Q E s := by
  induction p generalizing s with
  | ret | raise => exact h
  | get k ih => exact ih s h
  | put s' k ih => exact ⟨h.1, h.2.1, ih h.2.2⟩
  | call o k ih => exact fun s' hi hr r ha => ih r (h s' hi hr r (hsub s' o r ha))

theorem Spec.and_answers {L' : Logic σ Res} (h : p.Spec L Q E s) (h' : p.Spec L' Q' E' s)
    (inv : ∀ s, L'.inv s) (rely : ∀ s s', L'.rely s s') :
    p.Spec ⟨L.inv, L.rely, L.guar, fun s o r => L.answers s o r ∧ L'.answers s o r⟩
      (fun a s => Q a s ∧ Q' a s) (fun e s => E e s ∧ E' e s) s := by
  induction p generalizing s with
  | ret | raise => exact ⟨h, h'⟩
  | get k ih => exact ih s h h'
  | put s' k ih => exact ⟨h.1, h.2.1, ih h.2.2 h'.2.2⟩
  | call o k ih =>
    exact fun s' hi hr r ha => ih r (h s' hi hr r ha.1) (h' s' (inv s') (rely s s') r ha.2)

theorem Spec.and {M : Logic σ Res} (h : p.Spec L Q E s) (h' : p.Spec M Q' E' s)
    (rely : ∀ s s', M.rely s s' → L.rely s s')
    (answers : ∀ s o r, M.answers s o r → L.answers s o r) :
    p.Spec ⟨fun s => L.inv s ∧ M.inv s, M.rely, fun s s' => L.guar s s' ∧ M.guar s s', M.answers⟩
      (fun a s => Q a s ∧ Q' a s) (fun e s => E e s ∧ E' e s) s := by
  induction p generalizing s with
  | ret | raise => exact ⟨h, h'⟩
  | get k ih => exact ih s h h'
  | put s' k ih => exact ⟨⟨h.1, h'.1⟩, ⟨h.2.1, h'.2.1⟩, ih h.2.2 h'.2.2⟩
  | call o k ih =>
    exact fun s' hi hr r ha =>
      ih r (h s' hi.1 (rely s s' hr) r (answers s' o r ha)) (h' s' hi.2 hr r ha)

@[simp] theorem spec_perform {o : Op} {Q : Res o → σ → Prop} :
    (perform o : Proc σ Res ε (Res o)).Spec L Q E s ↔
      ∀ s', L.inv s' → L.rely s s' → ∀ r, L.answers s' o r → Q r s' := Iff.rfl

@[simp] theorem spec_state {Q : σ → σ → Prop} :
    (state : Proc σ Res ε σ).Spec L Q E s ↔ Q s s := Iff.rfl

@[simp] theorem spec_reading {g : σ → α} :
    (reading g : Proc σ Res ε α).Spec L Q E s ↔ Q (g s) s := Iff.rfl

@[simp] theorem spec_modify {g : σ → σ} {Q : Unit → σ → Prop} :
    (modify g : Proc σ Res ε Unit).Spec L Q E s ↔ L.guar s (g s) ∧ L.inv (g s) ∧ Q () (g s) :=
  Iff.rfl

@[simp] theorem spec_require {c : Bool} {e : ε} {Q : Unit → σ → Prop} :
    (require c e : Proc σ Res ε Unit).Spec L Q E s ↔ (c = true → Q () s) ∧ (c = false → E e s) := by
  cases c <;> simp [require]

@[simp] theorem spec_ofExcept {r : Except ε α} :
    (ofExcept r : Proc σ Res ε α).Spec L Q E s ↔
      (∀ a, r = .ok a → Q a s) ∧ ∀ e, r = .error e → E e s := by
  cases r <;> simp [ofExcept]

@[simp] theorem spec_ofOption {e : ε} {r : Option α} :
    (ofOption e r : Proc σ Res ε α).Spec L Q E s ↔
      (∀ a, r = some a → Q a s) ∧ (r = none → E e s) := by
  cases r <;> simp [ofOption]

@[simp] theorem spec_andFinally {cleanup : Proc σ Res ε Unit} :
    (p.andFinally cleanup).Spec L Q E s ↔
      p.Spec L (fun a s => cleanup.Spec L (fun _ s => Q a s) E s)
        (fun e s => cleanup.Spec L (fun _ s => E e s) E s) s := by
  simp [andFinally]

theorem Quiet.spec (quiet : p.Quiet) (refl : ∀ a, L.rely a a)
    (trans : ∀ a b c, L.rely a b → L.rely b c → L.rely a c) (hi : L.inv s)
    (hQ : ∀ a s', L.inv s' → L.rely s s' → Q a s')
    (hE : ∀ e s', L.inv s' → L.rely s s' → E e s') : p.Spec L Q E s := by
  induction p generalizing s with
  | ret a => exact hQ a s hi (refl s)
  | raise e => exact hE e s hi (refl s)
  | get k ih => exact ih s (quiet s) hi hQ hE
  | put => exact quiet.elim
  | call o k ih =>
    intro s' hi' hr' r _
    exact ih r (quiet r) hi' (fun a t ht h => hQ a t ht (trans _ _ _ hr' h))
      fun e t ht h => hE e t ht (trans _ _ _ hr' h)

end Rules

section QuietRules

variable {p : Proc σ Res ε α} {f : α → Proc σ Res ε β}

@[simp] theorem quiet_ret {a : α} : (ret a : Proc σ Res ε α).Quiet := trivial

@[simp] theorem quiet_raise {e : ε} : (raise e : Proc σ Res ε α).Quiet := trivial

@[simp] theorem quiet_perform {o : Op} : (perform o : Proc σ Res ε (Res o)).Quiet :=
  fun _ => trivial

@[simp] theorem quiet_state : (state : Proc σ Res ε σ).Quiet := fun _ => trivial

@[simp] theorem quiet_reading {g : σ → α} : (reading g : Proc σ Res ε α).Quiet := fun _ => trivial

@[simp] theorem quiet_require {c : Bool} {e : ε} : (require c e : Proc σ Res ε Unit).Quiet := by
  cases c <;> simp [require]

@[simp] theorem quiet_ofExcept {r : Except ε α} : (ofExcept r : Proc σ Res ε α).Quiet := by
  cases r <;> simp [ofExcept]

@[simp] theorem quiet_ofOption {e : ε} {r : Option α} :
    (ofOption e r : Proc σ Res ε α).Quiet := by
  cases r <;> simp [ofOption]

theorem Quiet.bind (hp : p.Quiet) (hf : ∀ a, (f a).Quiet) : (p.bind f).Quiet := by
  induction p with
  | ret a => exact hf a
  | raise => trivial
  | get k ih => exact fun s => ih s (hp s)
  | put => exact hp.elim
  | call o k ih => exact fun r => ih r (hp r)

theorem quiet_attempt {o : Op} {outcome : Res o → Except ε α} :
    (attempt o outcome : Proc σ Res ε α).Quiet :=
  Quiet.bind quiet_perform fun _ => quiet_ofExcept

theorem Quiet.handle {h : ε → Proc σ Res ε α} (hp : p.Quiet) (hh : ∀ e, (h e).Quiet) :
    (p.handle h).Quiet := by
  induction p with
  | ret => trivial
  | raise e => exact hh e
  | get k ih => exact fun s => ih s (hp s)
  | put => exact hp.elim
  | call o k ih => exact fun r => ih r (hp r)

theorem Quiet.observe (hp : p.Quiet) : p.observe.Quiet := by
  induction p with
  | ret | raise => trivial
  | get k ih => exact fun s => ih s (hp s)
  | put => exact hp.elim
  | call o k ih => exact fun r => ih r (hp r)

end QuietRules

variable (L) in
/-- `p` holds on to the assertion `P` until its end, whatever its end is. -/
def Keeps (P : σ → Prop) (p : Proc σ Res ε α) : Prop :=
  ∀ s, L.inv s → P s → p.Spec L (fun _ s' => L.inv s' ∧ P s') (fun _ s' => L.inv s' ∧ P s') s

section KeepsRules

variable {P : σ → Prop} {p : Proc σ Res ε α} {f : α → Proc σ Res ε β}

theorem keeps_ret (a : α) : (ret a : Proc σ Res ε α).Keeps L P := fun _ hi h => ⟨hi, h⟩

theorem keeps_raise (e : ε) : (raise e : Proc σ Res ε α).Keeps L P := fun _ hi h => ⟨hi, h⟩

theorem Keeps.bind (hp : p.Keeps L P) (hf : ∀ a, (f a).Keeps L P) : (p.bind f).Keeps L P :=
  fun s hi h => Proc.spec_bind.mpr ((hp s hi h).mono (fun a s' hs' => hf a s' hs'.1 hs'.2)
    fun _ _ hs' => hs')

theorem Keeps.spec_bind {Q : β → σ → Prop} {E : ε → σ → Prop} {s : σ} (hp : p.Keeps L P)
    (hi : L.inv s) (h : P s) (hf : ∀ a s', L.inv s' → P s' → (f a).Spec L Q E s')
    (hE : ∀ e s', L.inv s' → P s' → E e s') : (p.bind f).Spec L Q E s :=
  Proc.spec_bind.mpr ((hp s hi h).mono (fun a s' hs' => hf a s' hs'.1 hs'.2)
    fun e s' hs' => hE e s' hs'.1 hs'.2)

theorem Keeps.handle {h : ε → Proc σ Res ε α} (hp : p.Keeps L P) (hh : ∀ e, (h e).Keeps L P) :
    (p.handle h).Keeps L P :=
  fun s hi hs => spec_handle.mpr ((hp s hi hs).mono (fun _ _ hs' => hs')
    fun e s' hs' => hh e s' hs'.1 hs'.2)

theorem Keeps.observe (hp : p.Keeps L P) : p.observe.Keeps L P :=
  fun s hi h => spec_observe.mpr (hp s hi h)

theorem Spec.andFinally {cleanup : Proc σ Res ε Unit} {s : σ}
    (hp : p.Spec L (fun _ s' => L.inv s' ∧ P s') (fun _ s' => L.inv s' ∧ P s') s)
    (hc : cleanup.Keeps L P) :
    (p.andFinally cleanup).Spec L (fun _ s' => L.inv s' ∧ P s') (fun _ s' => L.inv s' ∧ P s') s :=
  spec_andFinally.mpr (hp.mono (fun _ s' hs' => hc s' hs'.1 hs'.2)
    fun _ s' hs' => hc s' hs'.1 hs'.2)

theorem Keeps.andFinally {cleanup : Proc σ Res ε Unit} (hp : p.Keeps L P)
    (hc : cleanup.Keeps L P) : (p.andFinally cleanup).Keeps L P :=
  fun s hi h => (hp s hi h).andFinally hc

theorem keeps_modify {g : σ → σ}
    (h : ∀ s, L.inv s → P s → L.guar s (g s) ∧ L.inv (g s) ∧ P (g s)) :
    (modify g : Proc σ Res ε Unit).Keeps L P :=
  fun s hi hs => spec_modify.mpr ⟨(h s hi hs).1, (h s hi hs).2.1, (h s hi hs).2⟩

theorem Quiet.keeps (quiet : p.Quiet) (stable : ∀ s s', L.rely s s' → P s → P s') :
    p.Keeps L P := by
  induction p with
  | ret a => exact keeps_ret a
  | raise e => exact keeps_raise e
  | get k ih => exact fun s hi h => ih s (quiet s) s hi h
  | put => exact quiet.elim
  | call o k ih => exact fun s _ h s' hi' hr r _ => ih r (quiet r) s' hi' (stable s s' hr h)

end KeepsRules

def Suspended : Proc σ Res ε α → Prop
  | get _ | put _ _ => False
  | _ => True

/-- A task at its end. -/
def Ended : Proc σ Res ε α → Prop
  | ret _ | raise _ => True
  | _ => False

theorem run_suspended (p : Proc σ Res ε α) (s : σ) : (p.run s).2.Suspended := by
  induction p generalizing s with
  | ret | raise | call => trivial
  | get k ih => exact ih s s
  | put s' k ih => exact ih s'

/-- What a segment leaves: the invariant, a chain of allowed writes and the rest of the
specification. -/
theorem Spec.run {p : Proc σ Res ε α} {Q : α → σ → Prop} {E : ε → σ → Prop} {s : σ}
    (h : p.Spec L Q E s) (hi : L.inv s) :
    L.inv (p.run s).1 ∧ Relation.ReflTransGen L.guar s (p.run s).1 ∧
      (p.run s).2.Spec L Q E (p.run s).1 := by
  induction p generalizing s with
  | ret | raise | call => exact ⟨hi, .refl, h⟩
  | get k ih => exact ih s h hi
  | put s' k ih =>
    obtain ⟨hi', hg, hs⟩ := ih h.2.2 h.2.1
    exact ⟨hi', .head h.1 hg, hs⟩

end Proc

/-- What the tasks of a system promise each other, and what they promise at their ends. -/
structure Contract (S : System σ Res ε α τ κ) where
  inv : σ → Prop
  rely : Nat → σ → σ → Prop
  guar : Nat → σ → σ → Prop
  fresh : Nat → σ → Prop
  post : Nat → τ → α → σ → Prop
  postE : Nat → τ → ε → σ → Prop
  refl : ∀ j s, rely j s s
  trans : ∀ j a b c, rely j a b → rely j b c → rely j a c
  guar_rely : ∀ j k s s', j ≠ k → guar j s s' → rely k s s'
  fresh_rely : ∀ j s s', fresh j s → rely j s s' → fresh j s'
  post_rely : ∀ j t a s s', post j t a s → rely j s s' → post j t a s'
  postE_rely : ∀ j t e s s', postE j t e s → rely j s s' → postE j t e s'
  world : ∀ s w, inv s → S.moves s w → inv (S.world w s) ∧ ∀ k, rely k s (S.world w s)
  handler : ∀ j t s, inv s → fresh j s → S.admits s t →
    (S.handler j t).Spec ⟨inv, rely j, guar j, S.answers⟩ (post j t) (postE j t) s

namespace Contract

variable {S : System σ Res ε α τ κ} (C : Contract S)

def logic (j : Nat) : Logic σ Res := ⟨C.inv, C.rely j, C.guar j, S.answers⟩

/-- The pools in which every promise stands. -/
structure Holds (p : Pool σ Res ε α τ) : Prop where
  inv : C.inv p.state
  fresh : ∀ j, p.tasks.length ≤ j → C.fresh j p.state
  tasks : ∀ (j : Nat) (t : τ) (q : Proc σ Res ε α), p.tasks[j]? = some (t, q) →
    q.Suspended ∧ q.Spec (C.logic j) (C.post j t) (C.postE j t) p.state

theorem spec_rely {j : Nat} {t : τ} {q : Proc σ Res ε α} {s s' : σ} (hq : q.Suspended)
    (h : q.Spec (C.logic j) (C.post j t) (C.postE j t) s) (hr : C.rely j s s') :
    q.Spec (C.logic j) (C.post j t) (C.postE j t) s' := by
  cases q with
  | ret a => exact C.post_rely j t a s s' h hr
  | raise e => exact C.postE_rely j t e s s' h hr
  | get | put => exact hq.elim
  | call o k => exact fun s'' hi hr' r ha => h s'' hi (C.trans j _ _ _ hr hr') r ha

theorem rely_of_chain {j k : Nat} {s s' : σ} (hne : j ≠ k)
    (h : Relation.ReflTransGen (C.guar j) s s') : C.rely k s s' := by
  induction h with
  | refl => exact C.refl k s
  | tail _ hg ih => exact C.trans k _ _ _ ih (C.guar_rely j k _ _ hne hg)

theorem Holds.next {C : Contract S} {p : Pool σ Res ε α τ} (h : C.Holds p) (m : Move Res τ κ)
    (legal : S.Legal p m) : C.Holds (S.next p m) := by
  cases m with
  | world w =>
    obtain ⟨hi, hr⟩ := C.world p.state w h.inv legal
    exact ⟨hi, fun j hj => C.fresh_rely j _ _ (h.fresh j hj) (hr j), fun j t q hq =>
      ⟨(h.tasks j t q hq).1, C.spec_rely (h.tasks j t q hq).1 (h.tasks j t q hq).2 (hr j)⟩⟩
  | start t =>
    have hs := C.handler p.tasks.length t p.state h.inv (h.fresh _ (Nat.le_refl _)) legal
    obtain ⟨hi, hg, hrest⟩ := Proc.Spec.run hs h.inv
    have hr : ∀ k, p.tasks.length ≠ k → C.rely k p.state
        ((S.handler p.tasks.length t).run p.state).1 := fun k hk => C.rely_of_chain hk hg
    refine ⟨hi, fun j hj => ?_, fun j u q hq => ?_⟩
    · have hj' : p.tasks.length + 1 ≤ j := by simpa [System.next] using hj
      exact C.fresh_rely j _ _ (h.fresh j (by omega)) (hr j (by omega))
    · rw [System.next, List.getElem?_append] at hq
      split at hq
      · exact ⟨(h.tasks j u q hq).1,
          C.spec_rely (h.tasks j u q hq).1 (h.tasks j u q hq).2 (hr j (by omega))⟩
      · obtain ⟨hj, hq'⟩ := List.getElem?_eq_some_iff.mp hq
        obtain rfl : j = p.tasks.length := by simp at hj; omega
        simp only [Nat.sub_self, List.getElem_cons_zero, Prod.mk.injEq] at hq'
        obtain ⟨rfl, rfl⟩ := hq'
        exact ⟨Proc.run_suspended _ _, hrest⟩
  | resume j answer =>
    obtain ⟨t, o, k, hj, ha⟩ := legal
    have hs := (h.tasks j t _ hj).2 p.state h.inv (C.refl j _) (answer o) ha
    obtain ⟨hi, hg, hrest⟩ := Proc.Spec.run hs h.inv
    have hr : ∀ i, j ≠ i → C.rely i p.state ((k (answer o)).run p.state).1 :=
      fun i hi' => C.rely_of_chain hi' hg
    have hlen : j < p.tasks.length := (List.getElem?_eq_some_iff.mp hj).1
    simp only [System.next, hj]
    refine ⟨hi, fun i hi' => ?_, fun i u q hq => ?_⟩
    · have hi'' : p.tasks.length ≤ i := by simpa using hi'
      exact C.fresh_rely i _ _ (h.fresh i hi'') (hr i (by omega))
    · by_cases hij : j = i
      · subst hij
        simp only [List.getElem?_set_self hlen, Option.some.injEq, Prod.mk.injEq] at hq
        obtain ⟨rfl, rfl⟩ := hq
        exact ⟨Proc.run_suspended _ _, hrest⟩
      · rw [List.getElem?_set_ne hij] at hq
        exact ⟨(h.tasks i u q hq).1,
          C.spec_rely (h.tasks i u q hq).1 (h.tasks i u q hq).2 (hr i hij)⟩

theorem Holds.writes {C : Contract S} {p : Pool σ Res ε α τ} (h : C.Holds p) (m : Move Res τ κ)
    (legal : S.Legal p m) :
    (∃ j ∈ p.mover m, Relation.ReflTransGen (C.guar j) p.state (S.next p m).state) ∨
      ∃ w, S.moves p.state w ∧ (S.next p m).state = S.world w p.state := by
  cases m with
  | world w => exact .inr ⟨w, legal, rfl⟩
  | start t =>
    have hs := C.handler p.tasks.length t p.state h.inv (h.fresh _ (Nat.le_refl _)) legal
    exact .inl ⟨_, rfl, (Proc.Spec.run hs h.inv).2.1⟩
  | resume j answer =>
    obtain ⟨t, o, k, hj, ha⟩ := legal
    have hs := (h.tasks j t _ hj).2 p.state h.inv (C.refl j _) (answer o) ha
    have hg : Relation.ReflTransGen (C.guar j) p.state ((k (answer o)).run p.state).1 :=
      (Proc.Spec.run hs h.inv).2.1
    exact .inl ⟨_, rfl, by simpa only [System.next, hj] using hg⟩

/-- The moves that a checker lets through in the pools of a contract are a run. -/
theorem Holds.run_of_checked {C : Contract S} {legal : Pool σ Res ε α τ → Move Res τ κ → Bool}
    (sound : ∀ p m, C.Holds p → legal p m = true → S.Legal p m) {p : Pool σ Res ε α τ}
    (h : C.Holds p) {ms : List (Move Res τ κ)} (hc : S.checked legal p ms = true) :
    S.Run p ms (S.play p ms) := by
  induction ms generalizing p with
  | nil => exact .nil p
  | cons m ms ih =>
    obtain ⟨hm, hms⟩ := Bool.and_eq_true_iff.mp hc
    have hlegal := sound p m h hm
    exact .cons hlegal (ih (h.next m hlegal) hms)

/-- A preorder that allows every write of a task and every move of the world holds along every
run. -/
theorem Holds.run_rel {C : Contract S} {R : σ → σ → Prop} (refl : ∀ s, R s s)
    (trans : ∀ a b c, R a b → R b c → R a c) (guar : ∀ j s s', C.guar j s s' → R s s')
    (world : ∀ s w, S.moves s w → R s (S.world w s)) {p p' : Pool σ Res ε α τ}
    {ms : List (Move Res τ κ)} (run : S.Run p ms p') (h : C.Holds p) : R p.state p'.state := by
  induction run with
  | nil => exact refl _
  | cons legal _ ih =>
    have chain : ∀ {j s s'}, Relation.ReflTransGen (C.guar j) s s' → R s s' := by
      intro j s s' hg
      induction hg with
      | refl => exact refl _
      | tail _ hlast ih => exact trans _ _ _ ih (guar j _ _ hlast)
    refine trans _ _ _ ?_ (ih (h.next _ legal))
    obtain ⟨j, -, hg⟩ | ⟨w, hw, heq⟩ := h.writes _ legal
    · exact chain hg
    · rw [heq]
      exact world _ w hw

theorem sound {s : σ} {p : Pool σ Res ε α τ} (hi : C.inv s) (hf : ∀ j, C.fresh j s)
    (reach : S.Reachable s p) : C.Holds p := by
  obtain ⟨ms, run⟩ := reach
  refine run.invariant (fun q m legal h => Holds.next h m legal) ⟨hi, fun j _ => hf j, ?_⟩
  intro j t q hq
  simp [System.initial] at hq

end Contract

export Proc (keeps_modify keeps_raise keeps_ret quiet_attempt quiet_ofExcept quiet_ofOption
  quiet_perform quiet_raise quiet_reading quiet_require quiet_ret quiet_state run_suspended
  spec_andFinally spec_bind spec_do spec_handle spec_modify spec_observe spec_ofExcept
  spec_ofOption spec_perform spec_raise spec_reading spec_require spec_ret spec_state)

end Coop
