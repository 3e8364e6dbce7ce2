import Ares.Coop.Alone
import Ares.Coop.Protocol
import Ares.Coop.Serve

/-! Tasks whose calls go to a server with a state of its own, beside the state of the task.  What a
task does to the server is proved with the rules of the protocols: a server is the protocol that
leaves one answer to every call. -/

namespace Coop

variable {σ μ Op : Type} {Res : Op → Type} {ε α β : Type}

def serverProtocol (server : Server μ Res) : Protocol μ Res where
  ask _ _ := True
  next m o r m' := server o m = (r, m')

/-- A call with its answer. -/
abbrev Answered (Res : Op → Type) := (o : Op) × Res o

/-- Answers that may depend on all that went before, the latest call first. -/
def answering (env : List (Answered Res) → (o : Op) → Res o) : Server (List (Answered Res)) Res :=
  fun o past => (env past o, ⟨o, env past o⟩ :: past)

theorem eq_of_fst {x : α × σ × μ} {a : α} (h : x.1 = a) : x = (a, x.2.1, x.2.2) := by
  subst h
  rfl

namespace Proc

/-- The end of a task, the state that it leaves, and the state that the server is left in. -/
def apart (server : Server μ Res) : Proc σ Res ε α → σ → μ → Except ε α × σ × μ
  | ret a, s, m => (.ok a, s, m)
  | raise e, s, m => (.error e, s, m)
  | get k, s, m => (k s).apart server s m
  | put s' k, _, m => k.apart server s' m
  | call o k, s, m => (k (server o m).1).apart server s (server o m).2

variable {server : Server μ Res} {p : Proc σ Res ε α} {Q : α → μ → Prop} {E : ε → μ → Prop} {s : σ}
  {m : μ}

/-- The task ends with a value as `Q` says, or with an exception as `E` says. -/
def Ends (Q : α → μ → Prop) (E : ε → μ → Prop) : Except ε α × σ × μ → Prop
  | (.ok a, _, m) => Q a m
  | (.error e, _, m) => E e m

theorem Obeys.ends {A : Protocol μ Res} (h : p.Obeys A Q E m)
    (hserver : ∀ o m, A.ask m o → A.next m o (server o m).1 (server o m).2) :
    Ends Q E (p.apart server s m) := by
  induction p generalizing s m with
  | ret | raise => exact h
  | get k ih => exact ih s (h s)
  | put s' k ih => exact ih h
  | call o k ih => exact ih _ (h.2 _ _ (hserver o m h.1))

theorem Obeys.apart (h : p.Obeys (serverProtocol server) Q E m) :
    Ends Q E (p.apart server s m) :=
  h.ends fun _ _ _ => rfl

@[simp] theorem obeys_call {o : Op} {Q : Res o → μ → Prop} :
    (perform o : Proc σ Res ε (Res o)).Obeys (serverProtocol server) Q E m ↔
      Q (server o m).1 (server o m).2 := by
  rw [obeys_perform]
  refine ⟨fun h => h.2 _ _ rfl, fun h => ⟨trivial, ?_⟩⟩
  rintro r m' hnext
  obtain ⟨rfl, rfl⟩ := Prod.mk.inj hnext.symm
  exact h

theorem Avoids.obeys {bad : Op → Prop} {P : μ → Prop} (h : p.Avoids bad) (hP : P m)
    (hstep : ∀ o m, ¬bad o → P m → P (server o m).2) :
    p.Obeys (serverProtocol server) (fun _ => P) (fun _ => P) m := by
  induction p generalizing m with
  | ret | raise => exact hP
  | get k ih => exact fun s => ih s (h s) hP
  | put s' k ih => exact ih h hP
  | call o k ih =>
    refine ⟨trivial, fun r m' hnext => ih r (h.2 r) ?_⟩
    have hafter := hstep o m h.1 hP
    rwa [hnext] at hafter

theorem obeys_of_forall (hQ : ∀ a m, Q a m) (hE : ∀ e m, E e m) :
    p.Obeys (serverProtocol server) Q E m := by
  induction p generalizing m with
  | ret a => exact hQ a m
  | raise e => exact hE e m
  | get k ih => exact fun s => ih s
  | put s' k ih => exact ih
  | call o k ih => exact ⟨trivial, fun r m' _ => ih r⟩

theorem obeys_bind_any {f : α → Proc σ Res ε β} {R : β → μ → Prop} (hE : ∀ e m, E e m)
    (h : ∀ a m, (f a).Obeys (serverProtocol server) R E m) :
    (p.bind f).Obeys (serverProtocol server) R E m :=
  obeys_bind.mpr (obeys_of_forall h hE)

end Proc

export Proc (obeys_bind_any obeys_call)

end Coop
