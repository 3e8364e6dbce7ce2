import Ares.Coop.History
import Ares.Coop.Logic

/-! Systems that note every write.  Where each write of a task adds one event of that task to a
history, the other tasks keep their own events, and a run only makes the history longer. -/

namespace Coop

class Tasked (η : Type) where
  task : η → Nat

variable {σ η : Type} [Tasked η] {t : Nat} {e : η} {h : List η}

/-- The events of one task. -/
def own (t : Nat) (h : List η) : List η := h.filter (Tasked.task · = t)

@[simp] theorem own_nil : own t ([] : List η) = [] := rfl

theorem own_cons : own t (e :: h) = if Tasked.task e = t then e :: own t h else own t h := by
  simp [own, List.filter_cons]

theorem own_cons_self (h : List η) (he : Tasked.task e = t) : own t (e :: h) = e :: own t h := by
  simp [own_cons, he]

theorem own_cons_ne (h : List η) (hne : Tasked.task e ≠ t) : own t (e :: h) = own t h := by
  simp [own_cons, hne]

theorem mem_of_mem_own (he : e ∈ own t h) : e ∈ h := (List.mem_filter.mp he).1

theorem mem_own (he : e ∈ h) : e ∈ own (Tasked.task e) h := List.mem_filter.mpr ⟨he, by simp⟩

theorem suffix_of_head (he : (own t h).head? = some e) : ∃ past, (e :: past) <:+ h :=
  exists_suffix_of_mem (mem_of_mem_own (List.mem_of_mem_head? he))

theorem head_own_cons (h : List η) (he : Tasked.task e = t) : (own t (e :: h)).head? = some e :=
  congrArg List.head? (own_cons_self h he)

variable (history : σ → List η)

/-- The task `j` makes one event. -/
def Noted (j : Nat) (s s' : σ) : Prop :=
  ∃ e, Tasked.task e = j ∧ history s' = e :: history s

/-- The history grows, the events of the task `j` stay. -/
def Kept (j : Nat) (s s' : σ) : Prop :=
  history s <:+ history s' ∧ own j (history s') = own j (history s)

variable {history} {j k : Nat} {a b c : σ}

theorem Kept.refl (j : Nat) (a : σ) : Kept history j a a := ⟨List.suffix_refl _, rfl⟩

theorem Kept.trans (hab : Kept history j a b) (hbc : Kept history j b c) : Kept history j a c :=
  ⟨hab.1.trans hbc.1, hbc.2.trans hab.2⟩

theorem Noted.suffix (hn : Noted history j a b) : history a <:+ history b := by
  obtain ⟨e, -, heq⟩ := hn
  exact heq ▸ List.suffix_cons e _

theorem Noted.kept (hne : j ≠ k) (hn : Noted history j a b) : Kept history k a b := by
  obtain ⟨e, rfl, heq⟩ := hn
  rw [Kept, heq]
  exact ⟨List.suffix_cons _ _, own_cons_ne _ hne⟩

theorem suffix_of_chain (hn : Relation.ReflTransGen (Noted history j) a b) :
    history a <:+ history b := by
  induction hn with
  | refl => exact List.suffix_refl _
  | tail _ hlast ih => exact ih.trans hlast.suffix

/-- The invariant `I` holds, and `l` are the events of the task `j`. -/
structure At (I : σ → Prop) (history : σ → List η) (j : Nat) (l : List η) (s : σ) : Prop where
  inv : I s
  own : Coop.own j (history s) = l

section At

variable {I : σ → Prop} {l : List η}

theorem At.rely (h : At I history j l a) (inv : I b) (hr : Kept history j a b) :
    At I history j l b :=
  ⟨inv, hr.2.trans h.own⟩

theorem At.mem (h : At I history j l a) (he : e ∈ l) : e ∈ history a :=
  mem_of_mem_own (h.own ▸ he)

theorem At.not_mem (h : At I history j l a) (ht : Tasked.task e = j) (he : e ∉ l) :
    e ∉ history a := by
  subst ht
  exact fun hmem => he (h.own ▸ mem_own hmem)

theorem At.step (h : At I history j l a) (inv : I b) (ht : Tasked.task e = j)
    (hs : history b = e :: history a) : At I history j (e :: l) b :=
  ⟨inv, by rw [hs, own_cons_self _ ht, h.own]⟩

end At

/-- An assertion that stays true when the other tasks go on, and when the task `j` itself makes an
event of the kind `K`. -/
structure Stable (history : σ → List η) (j : Nat) (K : η → Prop) (P : σ → Prop) : Prop where
  rely : ∀ {s s'}, P s → Kept history j s s' → P s'
  note : ∀ {s s' e}, P s → Tasked.task e = j → K e → history s' = e :: history s → P s'

section Stability

variable {K : η → Prop} {P Q : σ → Prop}

theorem Stable.and (hP : Stable history j K P) (hQ : Stable history j K Q) :
    Stable history j K fun s => P s ∧ Q s :=
  ⟨fun h hr => ⟨hP.rely h.1 hr, hQ.rely h.2 hr⟩,
    fun h ht hk he => ⟨hP.note h.1 ht hk he, hQ.note h.2 ht hk he⟩⟩

theorem Stable.of_suffix {P : List η → Prop} (h : ∀ l l', P l → l <:+ l' → P l') :
    Stable history j K fun s => P (history s) :=
  ⟨fun hp hr => h _ _ hp hr.1, fun hp _ _ he => h _ _ hp (he ▸ List.suffix_cons _ _)⟩

theorem Stable.of_own {P : List η → Prop} (h : ∀ e l, P l → K e → P (e :: l)) :
    Stable history j K fun s => P (own j (history s)) := by
  refine ⟨fun hp hr => ?_, fun {s s' e} hp ht hk he => ?_⟩
  · rw [hr.2]
    exact hp
  · rw [he, own_cons_self _ ht]
    exact h e _ hp hk

end Stability

section Runs

variable {Op : Type} {Res : Op → Type} {ε α τ κ : Type} {S : System σ Res ε α τ κ}
  {C : Contract S} {p p' : Pool σ Res ε α τ}

theorem Contract.Holds.history_suffix (hC : C.Holds p)
    (guar : ∀ j s s', C.guar j s s' → Noted history j s s')
    (world : ∀ s w, S.moves s w → history s <:+ history (S.world w s))
    {ms : List (Move Res τ κ)} (run : S.Run p ms p') : history p.state <:+ history p'.state :=
  hC.run_rel (R := fun s s' => history s <:+ history s') (fun _ => List.suffix_refl _)
    (fun _ _ _ => List.IsSuffix.trans) (fun j _ _ hg => (guar j _ _ hg).suffix) world run

theorem Contract.Holds.task_of_new (hC : C.Holds p)
    (guar : ∀ j s s', C.guar j s s' → Noted history j s s')
    (world : ∀ s w, S.moves s w → history (S.world w s) = history s) {m : Move Res τ κ}
    (legal : S.Legal p m) {past : List η} (he : (e :: past) <:+ history (S.next p m).state)
    (hold : history p.state <:+ past) : p.mover m = some (Tasked.task e) := by
  have notold : ¬(e :: past) <:+ history p.state := by
    intro hs
    have := hs.length_le
    have := hold.length_le
    simp only [List.length_cons] at *
    omega
  have chain : ∀ {j s s'}, Relation.ReflTransGen (C.guar j) s s' → (e :: past) <:+ history s' →
      ¬(e :: past) <:+ history s → Tasked.task e = j := by
    intro j s s' hg he hold
    induction hg with
    | refl => exact absurd he hold
    | tail _ hlast ih =>
      obtain ⟨e', ht, heq⟩ := guar _ _ _ hlast
      rw [heq] at he
      rcases List.suffix_cons_iff.mp he with heq | he
      · obtain rfl := (List.cons.inj heq).1
        exact ht
      · exact ih he
  obtain ⟨j, hj, hg⟩ | ⟨w, hw, heq⟩ := hC.writes m legal
  · rw [chain hg he notold]
    exact hj
  · rw [heq, world _ w hw] at he
    exact absurd he notold

theorem Contract.Holds.noted_of_task (received : Nat → τ → η)
    (guar : ∀ j s s', C.guar j s s' → Noted history j s s')
    (world : ∀ s w, S.moves s w → history s <:+ history (S.world w s))
    (start : ∀ p t, C.Holds p → S.admits p.state t →
      received p.tasks.length t ∈ history (S.next p (.start t)).state)
    {s : σ} (hs : C.Holds (System.initial s)) (reach : S.Reachable s p) {t : τ}
    {q : Proc σ Res ε α} (hj : p.tasks[j]? = some (t, q)) : received j t ∈ history p.state := by
  obtain ⟨ms, run⟩ := reach
  refine (run.invariant (P := fun p => C.Holds p ∧ ∀ j t q,
    p.tasks[j]? = some (t, q) → received j t ∈ history p.state) ?_
    ⟨hs, by simp [System.initial]⟩).2 j t q hj
  rintro p m legal ⟨hold, known⟩
  refine ⟨hold.next m legal, fun j t q hq => ?_⟩
  have grows : history p.state <:+ history (S.next p m).state :=
    hold.history_suffix guar world (.cons legal (.nil _))
  obtain ⟨q', hq'⟩ | ⟨rfl, rfl⟩ := System.request_next hq
  · exact grows.subset (known j t q' hq')
  · exact start p t hold legal

end Runs

end Coop
