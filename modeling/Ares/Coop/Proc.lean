import Mathlib.Logic.Function.Basic

/-! Cooperative tasks.  A task runs over a shared state `σ`, calls the operations of an interface
`Res : Op → Type`, and raises an `ε` or returns an `α`.  Reading and writing the shared state keeps
control; a call gives it up, and the task goes on with the answer in whatever state it then
finds. -/

namespace Coop

variable {σ Op : Type} {Res : Op → Type} {ε α β : Type}

inductive Proc (σ : Type) {Op : Type} (Res : Op → Type) (ε α : Type) : Type
  | ret (a : α)
  | raise (e : ε)
  | get (k : σ → Proc σ Res ε α)
  | put (s : σ) (k : Proc σ Res ε α)
  | call (o : Op) (k : Res o → Proc σ Res ε α)

namespace Proc

def bind : Proc σ Res ε α → (α → Proc σ Res ε β) → Proc σ Res ε β
  | ret a, f => f a
  | raise e, _ => raise e
  | get k, f => get fun s => (k s).bind f
  | put s k, f => put s (k.bind f)
  | call o k, f => call o fun r => (k r).bind f

/-- `p` with its exception passed to `h`. -/
def handle : Proc σ Res ε α → (ε → Proc σ Res ε α) → Proc σ Res ε α
  | ret a, _ => ret a
  | raise e, h => h e
  | get k, h => get fun s => (k s).handle h
  | put s k, h => put s (k.handle h)
  | call o k, h => call o fun r => (k r).handle h

/-- `p` with its exception returned as a value. -/
def observe : Proc σ Res ε α → Proc σ Res ε (Except ε α)
  | ret a => ret (.ok a)
  | raise e => ret (.error e)
  | get k => get fun s => (k s).observe
  | put s k => put s k.observe
  | call o k => call o fun r => (k r).observe

instance : Monad (Proc σ Res ε) where
  pure := ret
  bind := bind

instance : MonadExceptOf ε (Proc σ Res ε) where
  throw := raise
  tryCatch := handle

/-- The call of `o`, with its answer. -/
def perform (o : Op) : Proc σ Res ε (Res o) := call o ret

/-- The shared state now. -/
def state : Proc σ Res ε σ := get ret

def reading (f : σ → α) : Proc σ Res ε α := get fun s => ret (f s)

def modify (f : σ → σ) : Proc σ Res ε Unit := get fun s => put (f s) (ret ())

/-- Raises `e` unless `c` holds. -/
def require (c : Bool) (e : ε) : Proc σ Res ε Unit := if c then ret () else raise e

def ofExcept : Except ε α → Proc σ Res ε α
  | .ok a => ret a
  | .error e => raise e

def ofOption (e : ε) : Option α → Proc σ Res ε α
  | some a => ret a
  | none => raise e

/-- The call of `o`, which raises what its answer `outcome` raises. -/
def attempt (o : Op) (outcome : Res o → Except ε α) : Proc σ Res ε α :=
  (perform o).bind fun r => ofExcept (outcome r)

/-- `p` and then `cleanup`, whether `p` returns or raises. -/
def andFinally (p : Proc σ Res ε α) (cleanup : Proc σ Res ε Unit) : Proc σ Res ε α :=
  p.observe.bind fun r => cleanup.bind fun _ => ofExcept r

/-- The segment of a task up to its next call: the state it leaves and the task that is left. -/
def run : Proc σ Res ε α → σ → σ × Proc σ Res ε α
  | ret a, s => (s, ret a)
  | raise e, s => (s, raise e)
  | get k, s => (k s).run s
  | put s' k, _ => k.run s'
  | call o k, s => (s, call o k)

@[simp] theorem pure_eq (a : α) : (pure a : Proc σ Res ε α) = ret a := rfl

@[simp] theorem bind_eq (p : Proc σ Res ε α) (f : α → Proc σ Res ε β) : p >>= f = p.bind f := rfl

@[simp] theorem throw_eq (e : ε) : (throw e : Proc σ Res ε α) = raise e := rfl

@[simp] theorem tryCatch_eq (p : Proc σ Res ε α) (h : ε → Proc σ Res ε α) :
    tryCatch p h = p.handle h := rfl

theorem bind_assoc {γ : Type} (p : Proc σ Res ε α) (f : α → Proc σ Res ε β)
    (g : β → Proc σ Res ε γ) : (p.bind f).bind g = p.bind fun a => (f a).bind g := by
  induction p with
  | ret | raise => rfl
  | get k ih => exact congrArg get (funext ih)
  | put s k ih => exact congrArg (put s) ih
  | call o k ih => exact congrArg (call o) (funext ih)

end Proc

export Proc (bind_eq ofOption perform pure_eq reading require)

end Coop
