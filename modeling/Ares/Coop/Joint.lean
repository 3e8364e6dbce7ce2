import Ares.Coop.Ending

/-! A client and a server, each a system of its own.  Some calls of the client's tasks are requests to
the server: such a call starts a task there, and what that task comes to is the answer to the call,
unless the connection is lost first.  The server has requests of other clients as well.  The parts of
a joint run are runs of the two systems, and in that of the client every answer is grounded: it is the
reply of a task of the server that no other call has read. -/

namespace Coop

variable {σ Op : Type} {Res : Op → Type} {ε α τ κ : Type}
  {σ' Op' : Type} {Res' : Op' → Type} {ε' α' τ' κ' : Type}

/-- How the calls of a client go to a server. -/
structure Link {Op : Type} (Res : Op → Type) (ε' α' τ' : Type) where
  request : Op → Option τ'
  read : Except ε' α' → (o : Op) → Res o → Prop
  lost : (o : Op) → Res o → Prop

structure Joint (σ : Type) {Op : Type} (Res : Op → Type) (ε α τ σ' : Type) {Op' : Type}
    (Res' : Op' → Type) (ε' α' τ' : Type) where
  client : Pool σ Res ε α τ
  server : Pool σ' Res' ε' α' τ'
  pending : Nat → Option Nat
  taken : List Nat

namespace Joint

inductive Turn {Op : Type} (Res : Op → Type) (τ κ : Type) {Op' : Type} (Res' : Op' → Type)
    (τ' κ' : Type)
  | client (m : Move Res τ κ)
  | server (m : Move Res' τ' κ')
  | connect (j : Nat)
  | reply (j : Nat) (answer : (o : Op) → Res o)
  | lose (j : Nat) (answer : (o : Op) → Res o)

variable (C : System σ Res ε α τ κ) (S : System σ' Res' ε' α' τ' κ') (L : Link Res ε' α' τ')
  (J : Joint σ Res ε α τ σ' Res' ε' α' τ')

def initial (s : σ) (s' : σ') : Joint σ Res ε α τ σ' Res' ε' α' τ' :=
  ⟨System.initial s, System.initial s', fun _ => none, []⟩

def asked (j : Nat) : Option τ' :=
  match J.client.tasks[j]? with
  | some (_, .call o _) => L.request o
  | _ => none

/-- The reply to a task of the client: the task of the server, and what it came to. -/
def replied (j : Nat) : Option (Nat × Except ε' α') :=
  match J.pending j with
  | none => none
  | some i => ((J.server.ended i).bind Prod.snd).map (i, ·)

def resume (j : Nat) (answer : (o : Op) → Res o) : Joint σ Res ε α τ σ' Res' ε' α' τ' :=
  { J with
    client := C.next J.client (.resume j answer)
    pending := Function.update J.pending j none }

def next : Turn Res τ κ Res' τ' κ' → Joint σ Res ε α τ σ' Res' ε' α' τ'
  | .client m => { J with client := C.next J.client m }
  | .server m => { J with server := S.next J.server m }
  | .connect j =>
    match asked L J j with
    | none => J
    | some r =>
      { J with
        server := S.next J.server (.start r)
        pending := Function.update J.pending j (some J.server.tasks.length) }
  | .reply j answer =>
    match J.replied j with
    | none => J
    | some (i, _) => { resume C J j answer with taken := i :: J.taken }
  | .lose j answer => resume C J j answer

def Legal : Turn Res τ κ Res' τ' κ' → Prop
  | .client m => C.Legal J.client m ∧ ∀ j, J.client.mover m = some j → asked L J j = none
  | .server m => S.Legal J.server m
  | .connect j => J.pending j = none ∧ ∃ r, asked L J j = some r ∧ S.Legal J.server (.start r)
  | .reply j answer => ∃ i e t o k, J.replied j = some (i, e) ∧
      J.client.tasks[j]? = some (t, .call o k) ∧ C.answers J.client.state o (answer o) ∧
      L.read e o (answer o)
  | .lose j answer => ∃ t o k r, J.client.tasks[j]? = some (t, .call o k) ∧
      C.answers J.client.state o (answer o) ∧ L.request o = some r ∧ L.lost o (answer o)

def Step (J J' : Joint σ Res ε α τ σ' Res' ε' α' τ') : Prop :=
  ∃ m : Turn Res τ κ Res' τ' κ', Legal C S L J m ∧ next C S L J m = J'

def Reachable (s : σ) (s' : σ') : Joint σ Res ε α τ σ' Res' ε' α' τ' → Prop :=
  Relation.ReflTransGen (Step C S L) (initial s s')

/-- The joint state after a list of turns. -/
def play (J : Joint σ Res ε α τ σ' Res' ε' α' τ') (ms : List (Turn Res τ κ Res' τ' κ')) :
    Joint σ Res ε α τ σ' Res' ε' α' τ' :=
  ms.foldl (next C S L) J

/-- Every turn of the list is one that `legal` lets through where it is taken. -/
def checked (legal : Joint σ Res ε α τ σ' Res' ε' α' τ' → Turn Res τ κ Res' τ' κ' → Bool)
    (J : Joint σ Res ε α τ σ' Res' ε' α' τ') : List (Turn Res τ κ Res' τ' κ') → Bool
  | [] => true
  | m :: ms => legal J m && checked legal (next C S L J m) ms

theorem reachable_of_checked {C : System σ Res ε α τ κ} {S : System σ' Res' ε' α' τ' κ'}
    {L : Link Res ε' α' τ'}
    {legal : Joint σ Res ε α τ σ' Res' ε' α' τ' → Turn Res τ κ Res' τ' κ' → Bool}
    (sound : ∀ J m, legal J m = true → Legal C S L J m) {s : σ} {s' : σ'}
    {J : Joint σ Res ε α τ σ' Res' ε' α' τ'} (reach : Reachable C S L s s' J)
    {ms : List (Turn Res τ κ Res' τ' κ')} (h : checked C S L legal J ms = true) :
    Reachable C S L s s' (play C S L J ms) := by
  induction ms generalizing J with
  | nil => exact reach
  | cons m ms ih =>
    rw [checked, Bool.and_eq_true] at h
    exact ih (reach.tail ⟨m, sound J m h.1, rfl⟩) h.2

/-- The connections: each is the call of one task of the client, and the task of the server that was
started for it. -/
structure Linked : Prop where
  pending : ∀ j i, J.pending j = some i →
    ∃ r q, asked L J j = some r ∧ J.server.tasks[i]? = some (r, q)
  apart : ∀ j j' i, J.pending j = some i → J.pending j' = some i → j = j'
  untaken : ∀ j i, J.pending j = some i → i ∉ J.taken
  taken : ∀ i ∈ J.taken, i < J.server.tasks.length

/-- The answer to a call of the client is the reply of a task of the server that was started for it,
and meets `F`; or the connection was lost. -/
def Grounded (F : σ → (o : Op) → Res o → Prop) (s : σ) (o : Op) (a : Res o) : Prop :=
  ∀ r, L.request o = some r → L.lost o a ∨
    F s o a ∧ ∃ i ∈ J.taken, ∃ e, J.server.ended i = some (r, some e) ∧ L.read e o a

abbrev grounded (F : σ → (o : Op) → Res o → Prop) : System σ Res ε α τ κ :=
  C.restrict (fun _ _ => True) (Grounded L J F)

variable {C S L J} {J' : Joint σ Res ε α τ σ' Res' ε' α' τ'} {s : σ} {s' : σ'}
  {F : σ → (o : Op) → Res o → Prop}

theorem asked_eq {j : Nat} {t : τ} {o : Op} {k : Res o → Proc σ Res ε α}
    (hj : J.client.tasks[j]? = some (t, .call o k)) : asked L J j = L.request o := by
  rw [asked, hj]

theorem replied_eq {j i : Nat} {e : Except ε' α'} (h : J.replied j = some (i, e)) :
    J.pending j = some i ∧ ∃ r, J.server.ended i = some (r, some e) := by
  rw [replied] at h
  split at h
  · cases h
  · next i' hi =>
    obtain ⟨e', he, heq⟩ := Option.map_eq_some_iff.mp h
    obtain ⟨rfl, rfl⟩ := Prod.mk.inj heq
    obtain ⟨⟨r, x⟩, hended, rfl⟩ := Option.bind_eq_some_iff.mp he
    exact ⟨hi, r, hended⟩

/-! ### Connections -/

variable {p : Pool σ' Res' ε' α' τ'}

theorem task_kept {i : Nat} {r : τ'} {q : Proc σ' Res' ε' α'}
    (m : Move Res' τ' κ') (hi : p.tasks[i]? = some (r, q)) :
    ∃ q', (S.next p m).tasks[i]? = some (r, q') := by
  by_cases hne : p.mover m = some i
  · cases m with
    | world w => cases hne
    | start t =>
      obtain rfl : p.tasks.length = i := Option.some.inj hne
      simp at hi
    | resume j answer =>
      obtain rfl : j = i := Option.some.inj hne
      simp only [System.next, hi]
      cases q with
      | call o k => exact ⟨_, List.getElem?_set_self (List.getElem?_eq_some_iff.mp hi).1⟩
      | _ => exact ⟨_, hi⟩
  · exact ⟨q, System.task_next_of_ne hne hi⟩

theorem lt_of_task {i : Nat} {u : τ' × Proc σ' Res' ε' α'}
    (hi : p.tasks[i]? = some u) : i < p.tasks.length :=
  (List.getElem?_eq_some_iff.mp hi).1

theorem lt_next {i : Nat} (m : Move Res' τ' κ')
    (hi : i < p.tasks.length) : i < (S.next p m).tasks.length := by
  obtain ⟨q, hq⟩ := task_kept (S := S) (r := (p.tasks[i]).1) (q := (p.tasks[i]).2) m
    (List.getElem?_eq_getElem hi)
  exact lt_of_task hq

theorem lt_of_ended {i : Nat} {r : τ'} {e : Except ε' α'}
    (hi : p.ended i = some (r, some e)) : i < p.tasks.length :=
  lt_of_task (Pool.task_of_ended hi)

theorem asked_next {m : Move Res τ κ} {j : Nat} {r : τ'} (hne : J.client.mover m ≠ some j)
    (h : asked L J j = some r) : asked L { J with client := C.next J.client m } j = some r := by
  rw [asked] at h
  split at h
  · next t o k hj =>
    rw [asked_eq (System.task_next_of_ne hne hj)]
    exact h
  · cases h

theorem linked_initial : Linked L (initial s s' : Joint σ Res ε α τ σ' Res' ε' α' τ') :=
  ⟨by simp [initial], by simp [initial], by simp [initial], by simp [initial]⟩

theorem pending_closed {j j' i : Nat} (h : Function.update J.pending j none j' = some i) :
    j' ≠ j ∧ J.pending j' = some i := by
  rw [Function.update_apply] at h
  split at h
  · cases h
  · next hne => exact ⟨hne, h⟩

theorem pending_opened {j j' i n : Nat} (h : Function.update J.pending j (some n) j' = some i) :
    j' = j ∧ i = n ∨ J.pending j' = some i := by
  rw [Function.update_apply] at h
  split at h
  · next heq => exact .inl ⟨heq, (Option.some.inj h).symm⟩
  · exact .inr h

theorem Linked.resume (h : Linked L J) (j : Nat) (answer : (o : Op) → Res o) :
    Linked L (resume C J j answer) where
  pending j' i hi := by
    obtain ⟨hne, hi⟩ := pending_closed hi
    obtain ⟨r, q, hr, hq⟩ := h.pending j' i hi
    exact ⟨r, q, asked_next (fun heq => hne (Option.some.inj heq).symm) hr, hq⟩
  apart j₁ j₂ i h₁ h₂ := h.apart _ _ i (pending_closed h₁).2 (pending_closed h₂).2
  untaken j' i hi := h.untaken j' i (pending_closed hi).2
  taken := h.taken

theorem Linked.connect (h : Linked L J) {j : Nat} {r : τ'} (hr : asked L J j = some r) :
    Linked L { J with
      server := S.next J.server (.start r)
      pending := Function.update J.pending j (some J.server.tasks.length) } where
  pending j' i hi := by
    rcases pending_opened hi with ⟨rfl, rfl⟩ | hi
    · exact ⟨r, _, hr, List.getElem?_concat_length⟩
    · obtain ⟨r', q, hr', hq⟩ := h.pending j' i hi
      obtain ⟨q', hq'⟩ := task_kept (S := S) (.start r) hq
      exact ⟨r', q', hr', hq'⟩
  apart j₁ j₂ i h₁ h₂ := by
    have old : ∀ {j' i}, J.pending j' = some i → i ≠ J.server.tasks.length := by
      intro j' i hi
      obtain ⟨_, _, -, hq⟩ := h.pending j' i hi
      exact Nat.ne_of_lt (lt_of_task hq)
    rcases pending_opened h₁ with ⟨rfl, hi⟩ | hj₁ <;> rcases pending_opened h₂ with ⟨rfl, hi'⟩ | hj₂
    · rfl
    · exact absurd hi (old hj₂)
    · exact absurd hi' (old hj₁)
    · exact h.apart _ _ i hj₁ hj₂
  untaken j' i hi := by
    rcases pending_opened hi with ⟨rfl, rfl⟩ | hi
    · exact fun htaken => Nat.lt_irrefl _ (h.taken _ htaken)
    · exact h.untaken j' i hi
  taken i hi := lt_next (.start r) (h.taken i hi)

theorem Linked.next (h : Linked L J) {m : Turn Res τ κ Res' τ' κ'} (legal : Legal C S L J m) :
    Linked L (next C S L J m) := by
  cases m with
  | client m =>
    refine ⟨fun j i hi => ?_, h.apart, h.untaken, h.taken⟩
    obtain ⟨r, q, hr, hq⟩ := h.pending j i hi
    refine ⟨r, q, asked_next (fun hmover => ?_) hr, hq⟩
    rw [legal.2 j hmover] at hr
    cases hr
  | server m =>
    refine ⟨fun j i hi => ?_, h.apart, h.untaken, fun i hi => lt_next m (h.taken i hi)⟩
    obtain ⟨r, q, hr, hq⟩ := h.pending j i hi
    obtain ⟨q', hq'⟩ := task_kept (S := S) m hq
    exact ⟨r, q', hr, hq'⟩
  | connect j =>
    obtain ⟨-, r, hr, -⟩ := legal
    rw [Joint.next, hr]
    exact h.connect hr
  | reply j answer =>
    obtain ⟨i, e, -, -, -, hreply, -⟩ := legal
    obtain ⟨hpending, r, hended⟩ := replied_eq hreply
    rw [Joint.next, hreply]
    have hrest := h.resume (C := C) j answer
    refine ⟨hrest.pending, hrest.apart, fun j' i' hi htaken => ?_, fun i' hi => ?_⟩
    · rcases List.mem_cons.mp htaken with rfl | htaken
      · obtain ⟨hne, hi⟩ := pending_closed hi
        exact hne (h.apart _ _ _ hi hpending)
      · exact hrest.untaken j' i' hi htaken
    · rcases List.mem_cons.mp hi with rfl | hi
      · exact lt_of_ended hended
      · exact h.taken i' hi
  | lose j answer => exact h.resume j answer

theorem linked_of_reachable (reach : Reachable C S L s s' J) : Linked L J := by
  induction reach with
  | refl => exact linked_initial
  | tail _ step ih =>
    obtain ⟨m, legal, rfl⟩ := step
    exact ih.next legal

/-! ### The parts of a joint run -/

theorem server_reachable (reach : Reachable C S L s s' J) : S.Reachable s' J.server := by
  induction reach with
  | refl => exact ⟨[], .nil _⟩
  | @tail J J' _ step ih =>
    obtain ⟨m, legal, rfl⟩ := step
    cases m with
    | client | lose => exact ih
    | server m => exact ih.next legal
    | connect j =>
      obtain ⟨-, r, hr, hstart⟩ := legal
      rw [next, hr]
      exact ih.next hstart
    | reply j answer =>
      obtain ⟨i, e, -, -, -, hreply, -⟩ := legal
      rw [next, hreply]
      exact ih

theorem taken_next {m : Turn Res τ κ Res' τ' κ'} (legal : Legal C S L J m) :
    J.taken ⊆ (next C S L J m).taken ∧ ∀ i r e, J.server.ended i = some (r, some e) →
      (next C S L J m).server.ended i = some (r, some e) := by
  cases m with
  | client | lose => exact ⟨List.Subset.refl _, fun _ _ _ h => h⟩
  | server m => exact ⟨List.Subset.refl _, fun _ _ _ h => System.ended_next legal h⟩
  | connect j =>
    obtain ⟨-, r, hr, hstart⟩ := legal
    rw [next, hr]
    exact ⟨List.Subset.refl _, fun _ _ _ h => System.ended_next hstart h⟩
  | reply j answer =>
    obtain ⟨i, e, -, -, -, hreply, -⟩ := legal
    rw [next, hreply]
    exact ⟨List.subset_cons_self _ _, fun _ _ _ h => h⟩

theorem Grounded.next {m : Turn Res τ κ Res' τ' κ'} {t : σ} {o : Op} {a : Res o}
    (h : Grounded L J F t o a) (legal : Legal C S L J m) :
    Grounded L (next C S L J m) F t o a := by
  intro r hr
  obtain ⟨htaken, hended⟩ := taken_next legal
  refine (h r hr).imp_right fun hok => ?_
  obtain ⟨hF, i, hi, e, he, ha⟩ := hok
  exact ⟨hF, i, htaken hi, e, hended i r e he, ha⟩

theorem restrict_mono {ok ok' : σ → (o : Op) → Res o → Prop} (h : ∀ s o a, ok s o a → ok' s o a)
    {p p' : Pool σ Res ε α τ} {ms : List (Move Res τ κ)}
    (run : (C.restrict (fun _ _ => True) ok).Run p ms p') :
    (C.restrict (fun _ _ => True) ok').Run p ms p' := by
  induction run with
  | nil => exact .nil _
  | @cons p p' m ms legal rest ih =>
    refine .cons ?_ ih
    cases m with
    | start t => exact legal
    | world w => exact legal
    | resume j answer =>
      obtain ⟨t, o, k, hj, ha, hok⟩ := legal
      exact ⟨t, o, k, hj, ha, h _ _ _ hok⟩

theorem run_of_restrict {starts : σ → τ → Prop} {ok : σ → (o : Op) → Res o → Prop}
    {p p' : Pool σ Res ε α τ} {ms : List (Move Res τ κ)} (run : (C.restrict starts ok).Run p ms p') :
    C.Run p ms p' := by
  induction run with
  | nil => exact .nil _
  | @cons p p' m ms legal rest ih =>
    refine .cons ?_ ih
    cases m with
    | start t => exact legal.1
    | world w => exact legal
    | resume j answer =>
      obtain ⟨t, o, k, hj, ha, -⟩ := legal
      exact ⟨t, o, k, hj, ha⟩

theorem grounded_mono {J' : Joint σ Res ε α τ σ' Res' ε' α' τ'}
    (h : ∀ t o a, Grounded L J F t o a → Grounded L J' F t o a) {p : Pool σ Res ε α τ}
    (reach : (grounded C L J F).Reachable s p) : (grounded C L J' F).Reachable s p := by
  obtain ⟨ms, run⟩ := reach
  exact ⟨ms, restrict_mono h run⟩

/-- The client of a joint run is in a run of its own with grounded answers, where every reply meets
`F` when it is read. -/
theorem client_grounded (fresh : ∀ J, Reachable C S L s s' J →
      (grounded C L J F).Reachable s J.client → ∀ i e o r a, L.request o = some r →
      J.server.ended i = some (r, some e) → i ∉ J.taken → L.read e o a → F J.client.state o a)
    (reach : Reachable C S L s s' J) : (grounded C L J F).Reachable s J.client := by
  induction reach with
  | refl => exact ⟨[], .nil _⟩
  | @tail J J' reach step ih =>
    obtain ⟨m, legal, rfl⟩ := step
    have kept : (grounded C L (next C S L J m) F).Reachable s J.client :=
      grounded_mono (fun _ _ _ h => h.next legal) ih
    cases m with
    | server m => exact kept
    | connect j =>
      obtain ⟨-, r, hr, -⟩ := legal
      rw [next, hr] at kept ⊢
      exact kept
    | client m =>
      obtain ⟨hmove, hasked⟩ := legal
      refine kept.next (m := m) ?_
      cases m with
      | start t => exact ⟨hmove, trivial⟩
      | world w => exact hmove
      | resume j answer =>
        obtain ⟨t, o, k, hj, ha⟩ := hmove
        refine ⟨t, o, k, hj, ha, fun r hr => ?_⟩
        rw [← asked_eq hj, hasked j rfl] at hr
        cases hr
    | reply j answer =>
      obtain ⟨i, e, t, o, k, hreply, hj, ha, hread⟩ := legal
      obtain ⟨hpending, r, hended⟩ := replied_eq hreply
      have linked := linked_of_reachable reach
      rw [next, hreply] at kept ⊢
      refine kept.next (m := .resume j answer) ⟨t, o, k, hj, ha, fun r' hr => .inr ?_⟩
      -- The task that replied was started for this call.
      obtain ⟨r'', q, hr'', hq⟩ := linked.pending j i hpending
      rw [asked_eq hj, hr] at hr''
      obtain rfl := Option.some.inj hr''
      obtain ⟨rfl, -⟩ := Prod.mk.inj (Option.some.inj
        ((Pool.task_of_ended hended).symm.trans hq))
      exact ⟨fresh J reach ih i e o r _ hr hended (linked.untaken j i hpending) hread, i,
        List.mem_cons_self, e, hended, hread⟩
    | lose j answer =>
      obtain ⟨t, o, k, r, hj, ha, -, hlost⟩ := legal
      exact kept.next (m := .resume j answer) ⟨t, o, k, hj, ha, fun _ _ => .inl hlost⟩

theorem client_reachable (reach : Reachable C S L s s' J) : C.Reachable s J.client := by
  have h := client_grounded (F := fun _ _ _ => True) (fun _ _ _ _ _ _ _ _ _ _ _ _ => trivial) reach
  obtain ⟨ms, run⟩ := h
  exact ⟨ms, run_of_restrict run⟩

end Joint

end Coop
