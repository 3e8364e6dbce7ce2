import Mathlib.Data.List.Basic
import Ares.Coop.Proc

/-! Pools of cooperative tasks.  A system says which task a request starts, when a request may
start, which answers a call may get, and what the world outside may do to the shared state.  A run
is a list of moves: a request starts, a suspended task goes on with an answer, or the world
moves. -/

namespace Coop

variable {σ Op : Type} {Res : Op → Type} {ε α τ κ : Type}

/-- The shared state and the tasks, each with the request that started it. -/
structure Pool (σ : Type) {Op : Type} (Res : Op → Type) (ε α τ : Type) where
  state : σ
  tasks : List (τ × Proc σ Res ε α)

inductive Move {Op : Type} (Res : Op → Type) (τ κ : Type)
  | start (t : τ)
  | resume (j : Nat) (answer : (o : Op) → Res o)
  | world (w : κ)

def Pool.mover (p : Pool σ Res ε α τ) : Move Res τ κ → Option Nat
  | .start _ => some p.tasks.length
  | .resume j _ => some j
  | .world _ => none

/-- The task that a move resumes is at a call. -/
def Pool.ready (p : Pool σ Res ε α τ) : Move Res τ κ → Bool
  | .resume j _ => match p.tasks[j]? with
    | some (_, .call _ _) => true
    | _ => false
  | _ => true

def Proc.ended? : Proc σ Res ε α → Option (Except ε α)
  | .ret a => some (.ok a)
  | .raise e => some (.error e)
  | _ => none

theorem Proc.eq_of_ended? {p : Proc σ Res ε α} {r : Except ε α} (h : p.ended? = some r) :
    p = ofExcept r := by
  cases p with
  | ret a => exact Option.some.inj h ▸ rfl
  | raise e => exact Option.some.inj h ▸ rfl
  | _ => cases h

/-- The request of a task and its end. -/
def Pool.ended (p : Pool σ Res ε α τ) (j : Nat) : Option (τ × Option (Except ε α)) :=
  p.tasks[j]?.map fun task => (task.1, task.2.ended?)

theorem Pool.task_of_ended {p : Pool σ Res ε α τ} {j : Nat} {t : τ} {r : Except ε α}
    (h : p.ended j = some (t, some r)) : p.tasks[j]? = some (t, Proc.ofExcept r) := by
  obtain ⟨⟨t', q⟩, hj, heq⟩ := Option.map_eq_some_iff.mp h
  obtain ⟨rfl, hr⟩ := Prod.mk.inj heq
  rw [hj, ← Proc.eq_of_ended? hr]

structure System (σ : Type) {Op : Type} (Res : Op → Type) (ε α τ κ : Type) where
  /-- The task of a request; the number is the task's own index in the pool. -/
  handler : Nat → τ → Proc σ Res ε α
  admits : σ → τ → Prop
  answers : σ → (o : Op) → Res o → Prop
  moves : σ → κ → Prop
  world : κ → σ → σ

namespace System

variable (S : System σ Res ε α τ κ)

def initial (s : σ) : Pool σ Res ε α τ := ⟨s, []⟩

/-- The pool after a move. -/
def next (p : Pool σ Res ε α τ) : Move Res τ κ → Pool σ Res ε α τ
  | .start t =>
    let r := (S.handler p.tasks.length t).run p.state
    ⟨r.1, p.tasks ++ [(t, r.2)]⟩
  | .resume j answer =>
    match p.tasks[j]? with
    | some (t, .call o k) =>
      let r := (k (answer o)).run p.state
      ⟨r.1, p.tasks.set j (t, r.2)⟩
    | _ => p
  | .world w => ⟨S.world w p.state, p.tasks⟩

/-- The moves a pool may make. -/
def Legal (p : Pool σ Res ε α τ) : Move Res τ κ → Prop
  | .start t => S.admits p.state t
  | .resume j answer => ∃ t o k, p.tasks[j]? = some (t, .call o k) ∧ S.answers p.state o (answer o)
  | .world w => S.moves p.state w

/-- `S.Run p moves p'`: the moves lead from `p` to `p'`, each legal where it is made. -/
inductive Run : Pool σ Res ε α τ → List (Move Res τ κ) → Pool σ Res ε α τ → Prop
  | nil (p : Pool σ Res ε α τ) : Run p [] p
  | cons {p p' : Pool σ Res ε α τ} {m : Move Res τ κ} {ms : List (Move Res τ κ)}
      (legal : S.Legal p m) (rest : Run (S.next p m) ms p') : Run p (m :: ms) p'

/-- The pools of the runs from the state `s`, with no task at the start. -/
def Reachable (s : σ) (p : Pool σ Res ε α τ) : Prop := ∃ ms, S.Run (initial s) ms p

theorem Run.invariant {S : System σ Res ε α τ κ} {P : Pool σ Res ε α τ → Prop}
    (step : ∀ p m, S.Legal p m → P p → P (S.next p m))
    {p p' : Pool σ Res ε α τ} {ms : List (Move Res τ κ)} (run : S.Run p ms p') (h : P p) : P p' := by
  induction run with
  | nil => exact h
  | cons legal _ ih => exact ih (step _ _ legal h)

theorem Run.snoc {S : System σ Res ε α τ κ} {p p' : Pool σ Res ε α τ} {m : Move Res τ κ}
    {ms : List (Move Res τ κ)} (run : S.Run p ms p') (legal : S.Legal p' m) :
    S.Run p (ms ++ [m]) (S.next p' m) := by
  induction run with
  | nil => exact .cons legal (.nil _)
  | cons legal' _ ih => exact .cons legal' (ih legal)

variable {p : Pool σ Res ε α τ}

theorem Reachable.next {S : System σ Res ε α τ κ} {s : σ}
    {m : Move Res τ κ} (reach : S.Reachable s p) (legal : S.Legal p m) :
    S.Reachable s (S.next p m) := by
  obtain ⟨ms, run⟩ := reach
  exact ⟨ms ++ [m], run.snoc legal⟩

theorem request_next {S : System σ Res ε α τ κ} {m : Move Res τ κ} {j : Nat}
    {t : τ} {q : Proc σ Res ε α} (hj : (S.next p m).tasks[j]? = some (t, q)) :
    (∃ q', p.tasks[j]? = some (t, q')) ∨ m = .start t ∧ j = p.tasks.length := by
  cases m with
  | world w => exact .inl ⟨q, hj⟩
  | start u =>
    rw [System.next, List.getElem?_append] at hj
    split at hj
    · exact .inl ⟨q, hj⟩
    · obtain ⟨hlt, heq⟩ := List.getElem?_eq_some_iff.mp hj
      obtain rfl : j = p.tasks.length := by simp at hlt; omega
      simp only [Nat.sub_self, List.getElem_cons_zero, Prod.mk.injEq] at heq
      exact .inr ⟨by rw [heq.1], rfl⟩
  | resume i answer =>
    simp only [System.next] at hj
    split at hj
    · next u o k hi =>
      by_cases hij : i = j
      · subst hij
        rw [List.getElem?_set_self (List.getElem?_eq_some_iff.mp hi).1] at hj
        simp only [Option.some.injEq, Prod.mk.injEq] at hj
        exact .inl ⟨_, hj.1 ▸ hi⟩
      · rw [List.getElem?_set_ne hij] at hj
        exact .inl ⟨q, hj⟩
    · exact .inl ⟨q, hj⟩

/-- The system whose runs are the runs of `S` in which every start and every answer meets a
condition. -/
def restrict (starts : σ → τ → Prop) (ok : σ → (o : Op) → Res o → Prop) :
    System σ Res ε α τ κ where
  handler := S.handler
  admits s t := S.admits s t ∧ starts s t
  answers s o r := S.answers s o r ∧ ok s o r
  moves := S.moves
  world := S.world

/-- Every move of the list is one that `legal` lets through where it is made. -/
def checked (legal : Pool σ Res ε α τ → Move Res τ κ → Bool) (p : Pool σ Res ε α τ) :
    List (Move Res τ κ) → Bool
  | [] => true
  | m :: ms => legal p m && checked legal (S.next p m) ms

def playable (p : Pool σ Res ε α τ) (ms : List (Move Res τ κ)) : Bool := S.checked Pool.ready p ms

/-- The pool after a list of moves. -/
def play (p : Pool σ Res ε α τ) (ms : List (Move Res τ κ)) : Pool σ Res ε α τ := ms.foldl S.next p

theorem run_of_checked {S : System σ Res ε α τ κ} {legal : Pool σ Res ε α τ → Move Res τ κ → Bool}
    (sound : ∀ p m, legal p m = true → S.Legal p m)
    {ms : List (Move Res τ κ)} (h : S.checked legal p ms = true) : S.Run p ms (S.play p ms) := by
  induction ms generalizing p with
  | nil => exact .nil p
  | cons m ms ih =>
    rw [checked, Bool.and_eq_true] at h
    exact .cons (sound p m h.1) (ih h.2)

theorem ready_resume {j : Nat} {answer : (o : Op) → Res o}
    (h : p.ready (.resume j answer : Move Res τ κ) = true) :
    ∃ t o k, p.tasks[j]? = some (t, .call o k) := by
  rw [Pool.ready] at h
  split at h
  · next t o k hj => exact ⟨t, o, k, hj⟩
  · cases h

theorem run_of_playable {S : System σ Res ε α τ κ} (admits : ∀ s t, S.admits s t)
    (answers : ∀ s o r, S.answers s o r) (moves : ∀ s w, S.moves s w)
    {ms : List (Move Res τ κ)} (h : S.playable p ms = true) : S.Run p ms (S.play p ms) := by
  refine run_of_checked (fun p m hm => ?_) h
  cases m with
  | start t => exact admits _ t
  | world w => exact moves _ w
  | resume j answer =>
    obtain ⟨t, o, k, hj⟩ := ready_resume hm
    exact ⟨t, o, k, hj, answers _ _ _⟩

end System

end Coop
