import Ares.Coop.Serve

/-! Straight-line tasks over a server.  A script is a list of calls with the answers that let the task
go on; a task that has a script ends well when it is followed, and else stops after a first part of
it. -/

namespace Coop

variable {σ μ Op : Type} {Res : Op → Type} {ε α β : Type}

/-- A call, and the answers with which the task goes on. -/
structure Ask {Op : Type} (Res : Op → Type) where
  op : Op
  accepts : Res op → Bool

section Scripts

variable (base : Server μ Res)

def Follows : List (Ask Res) → μ → Prop
  | [], _ => True
  | a :: l, m => a.accepts (base a.op m).1 = true ∧ Follows l (base a.op m).2

def leave (l : List (Ask Res)) (m : μ) : μ := l.foldl (fun m a => (base a.op m).2) m

variable {base} {l l' : List (Ask Res)} {m : μ}

@[simp] theorem follows_nil : Follows base [] m := trivial

@[simp] theorem follows_cons {a : Ask Res} :
    Follows base (a :: l) m ↔ a.accepts (base a.op m).1 = true ∧ Follows base l (base a.op m).2 :=
  Iff.rfl

@[simp] theorem leave_nil : leave base [] m = m := rfl

@[simp] theorem leave_cons {a : Ask Res} : leave base (a :: l) m = leave base l (base a.op m).2 :=
  rfl

@[simp] theorem leave_append : leave base (l ++ l') m = leave base l' (leave base l m) :=
  List.foldl_append

@[simp] theorem follows_append :
    Follows base (l ++ l') m ↔ Follows base l m ∧ Follows base l' (leave base l m) := by
  induction l generalizing m with
  | nil => simp
  | cons a l ih => simp [ih, and_assoc]

theorem leave_keeps {P : μ → Prop} (h : ∀ a ∈ l, ∀ m, P m → P (base a.op m).2) (hm : P m) :
    P (leave base l m) := by
  induction l generalizing m with
  | nil => exact hm
  | cons a l ih =>
    exact ih (fun a ha => h a (List.mem_cons_of_mem _ ha)) (h a List.mem_cons_self m hm)

end Scripts

/-- The server answers from a part of the state as `base` does. -/
structure Over (view : σ → μ) (server : Server σ Res) (base : Server μ Res) : Prop where
  answer : ∀ o s, (server o s).1 = (base o (view s)).1
  state : ∀ o s, view (server o s).2 = (base o (view s)).2

namespace Proc

/-- The task ends well, with a value as `Q` says, when `C` holds and the script is followed; else it
raises after a first part of the script. -/
structure Scripted (view : σ → μ) (server : Server σ Res) (base : Server μ Res) (C : Prop)
    (p : Proc σ Res ε α) (l : List (Ask Res)) (Q : α → Prop) : Prop where
  ends : ∀ s, C → Follows base l (view s) →
    ∃ a t, p.serve server s = (.ok a, t) ∧ Q a ∧ view t = leave base l (view s)
  stops : ∀ s, ¬(C ∧ Follows base l (view s)) →
    ∃ e t l', p.serve server s = (.error e, t) ∧ l' <+: l ∧ view t = leave base l' (view s)

variable {view : σ → μ} {server : Server σ Res} {base : Server μ Res} {C C' : Prop}
  {p : Proc σ Res ε α} {f : α → Proc σ Res ε β} {l l' : List (Ask Res)} {Q Q' : α → Prop}
  {s : σ}

theorem scripted_ret (a : α) :
    (ret a : Proc σ Res ε α).Scripted view server base True [] (· = a) where
  ends s _ _ := ⟨a, s, rfl, rfl, rfl⟩
  stops _ h := absurd ⟨trivial, trivial⟩ h

theorem scripted_raise (e : ε) (l : List (Ask Res)) (Q : α → Prop) :
    (raise e : Proc σ Res ε α).Scripted view server base False l Q where
  ends _ h _ := h.elim
  stops s _ := ⟨e, s, [], rfl, List.nil_prefix, rfl⟩

theorem scripted_require (c : Bool) (e : ε) :
    (require c e : Proc σ Res ε Unit).Scripted view server base (c = true) [] (fun _ => True) where
  ends s hc _ := ⟨(), s, by simp [hc], trivial, rfl⟩
  stops s h := by
    have hc : c = false := by simpa using h
    exact ⟨e, s, [], by simp [hc], List.nil_prefix, rfl⟩

theorem Scripted.silent (hstep : ∀ s, ∃ a t, p.serve server s = (.ok a, t) ∧ view t = view s) :
    p.Scripted view server base True [] (fun _ => True) where
  ends s _ _ :=
    let ⟨a, t, hserve, hview⟩ := hstep s
    ⟨a, t, hserve, trivial, hview⟩
  stops _ h := absurd ⟨trivial, trivial⟩ h

theorem Scripted.mono (h : p.Scripted view server base C l Q) (hC : C ↔ C')
    (hQ : ∀ a, Q a → Q' a) : p.Scripted view server base C' l Q' where
  ends s hc hf :=
    let ⟨a, t, hserve, ha, hview⟩ := h.ends s (hC.mpr hc) hf
    ⟨a, t, hserve, hQ a ha, hview⟩
  stops s hnot := h.stops s (by rwa [hC])

theorem Scripted.bind {R : β → Prop} (hp : p.Scripted view server base C l Q)
    (hf : ∀ a, Q a → (f a).Scripted view server base C' l' R) :
    (p.bind f).Scripted view server base (C ∧ C') (l ++ l') R where
  ends s hc hfollows := by
    obtain ⟨hl, hl'⟩ := follows_append.mp hfollows
    obtain ⟨a, t, hserve, ha, hview⟩ := hp.ends s hc.1 hl
    obtain ⟨b, u, hserve', hb, hview'⟩ := (hf a ha).ends t hc.2 (hview ▸ hl')
    exact ⟨b, u, by rw [serve_bind_ok hserve, hserve'], hb, by rw [hview', hview, leave_append]⟩
  stops s hnot := by
    by_cases hfirst : C ∧ Follows base l (view s)
    · obtain ⟨a, t, hserve, ha, hview⟩ := hp.ends s hfirst.1 hfirst.2
      have hrest : ¬(C' ∧ Follows base l' (view t)) := fun h =>
        hnot ⟨⟨hfirst.1, h.1⟩, follows_append.mpr ⟨hfirst.2, hview ▸ h.2⟩⟩
      obtain ⟨e, u, l'', hserve', hfront, hview'⟩ := (hf a ha).stops t hrest
      refine ⟨e, u, l ++ l'', by rw [serve_bind_ok hserve, hserve'],
        (List.prefix_append_right_inj l).mpr hfront, ?_⟩
      rw [hview', hview, leave_append]
    · obtain ⟨e, t, l'', hserve, hfront, hview⟩ := hp.stops s hfirst
      exact ⟨e, t, l'', serve_bind_error hserve, hfront.trans (List.prefix_append _ _), hview⟩

theorem Scripted.next {R : β → Prop} (hp : p.Scripted view server base C l Q)
    (hf : ∀ a, Q a → (f a).Scripted view server base True l' R) :
    (p.bind f).Scripted view server base C (l ++ l') R :=
  (hp.bind hf).mono (and_iff_left trivial) fun _ h => h

/-- The task has a choice of scripts, each with what it says of the value: it ends well when one of
them is followed, and else stops after some calls. -/
structure Routed {ι : Type} (view : σ → μ) (server : Server σ Res) (base : Server μ Res)
    (p : Proc σ Res ε α) (routes : List ι) (script : ι → List (Ask Res)) (Q : ι → α → Prop) :
    Prop where
  ends : ∀ s, ∀ r ∈ routes, Follows base (script r) (view s) →
    ∃ a t, p.serve server s = (.ok a, t) ∧ Q r a ∧ view t = leave base (script r) (view s)
  stops : ∀ s, (∀ r ∈ routes, ¬Follows base (script r) (view s)) →
    ∃ e t l', p.serve server s = (.error e, t) ∧ view t = leave base l' (view s)

section Routes

variable {ι : Type} {routes : List ι} {script rest : ι → List (Ask Res)} {R : ι → α → Prop}
  {R' : ι → β → Prop}

theorem routed_raise (e : ε) :
    (raise e : Proc σ Res ε α).Routed view server base [] script R where
  ends _ _ h := nomatch h
  stops s _ := ⟨e, s, [], rfl, rfl⟩

theorem Scripted.routed {r : ι} (hp : p.Scripted view server base True (script r) (R r)) :
    p.Routed view server base [r] script R where
  ends s r' hr hf := by
    obtain rfl := List.mem_singleton.mp hr
    exact hp.ends s trivial hf
  stops s hnot :=
    let ⟨e, t, l', hserve, _, hview⟩ := hp.stops s fun h => hnot _ List.mem_cons_self h.2
    ⟨e, t, l', hserve, hview⟩

theorem Routed.next (hp : p.Routed view server base routes script R)
    (hf : ∀ r ∈ routes, ∀ a, R r a → (f a).Scripted view server base True (rest r) (R' r)) :
    (p.bind f).Routed view server base routes (fun r => script r ++ rest r) R' where
  ends s r hr hfollows := by
    obtain ⟨hl, hl'⟩ := follows_append.mp hfollows
    obtain ⟨a, t, hserve, ha, hview⟩ := hp.ends s r hr hl
    obtain ⟨b, u, hserve', hb, hview'⟩ := (hf r hr a ha).ends t trivial (hview ▸ hl')
    exact ⟨b, u, by rw [serve_bind_ok hserve, hserve'], hb, by rw [hview', hview, leave_append]⟩
  stops s hnot := by
    by_cases hfirst : ∃ r ∈ routes, Follows base (script r) (view s)
    · obtain ⟨r, hr, hl⟩ := hfirst
      obtain ⟨a, t, hserve, ha, hview⟩ := hp.ends s r hr hl
      have hrest : ¬(True ∧ Follows base (rest r) (view t)) := fun h =>
        hnot r hr (follows_append.mpr ⟨hl, hview ▸ h.2⟩)
      obtain ⟨e, u, l', hserve', -, hview'⟩ := (hf r hr a ha).stops t hrest
      exact ⟨e, u, script r ++ l', by rw [serve_bind_ok hserve, hserve'],
        by rw [hview', hview, leave_append]⟩
    · obtain ⟨e, t, l', hserve, hview⟩ := hp.stops s fun r hr hl => hfirst ⟨r, hr, hl⟩
      exact ⟨e, t, l', serve_bind_error hserve, hview⟩

theorem Scripted.choose (hp : p.Scripted view server base True l Q)
    (hf : ∀ a, Q a → (f a).Routed view server base routes script R') :
    (p.bind f).Routed view server base routes (fun r => l ++ script r) R' where
  ends s r hr hfollows := by
    obtain ⟨hl, hl'⟩ := follows_append.mp hfollows
    obtain ⟨a, t, hserve, ha, hview⟩ := hp.ends s trivial hl
    obtain ⟨b, u, hserve', hb, hview'⟩ := (hf a ha).ends t r hr (hview ▸ hl')
    exact ⟨b, u, by rw [serve_bind_ok hserve, hserve'], hb, by rw [hview', hview, leave_append]⟩
  stops s hnot := by
    by_cases hfirst : Follows base l (view s)
    · obtain ⟨a, t, hserve, ha, hview⟩ := hp.ends s trivial hfirst
      obtain ⟨e, u, l', hserve', hview'⟩ := (hf a ha).stops t fun r hr hl =>
        hnot r hr (follows_append.mpr ⟨hfirst, hview ▸ hl⟩)
      exact ⟨e, u, l ++ l', by rw [serve_bind_ok hserve, hserve'],
        by rw [hview', hview, leave_append]⟩
    · obtain ⟨e, t, l', hserve, -, hview⟩ := hp.stops s fun h => hfirst h.2
      exact ⟨e, t, l', serve_bind_error hserve, hview⟩

end Routes

end Proc

export Proc (routed_raise)

end Coop
