import Ares.Backups.World
import Ares.Data.Except

/-! A machine whose files stay as they are while they are looked at. -/

namespace Ares.Backups

open Coop Data

/-- `os.lstat` and `os.open` raise `ValueError`. -/
def hasNul (path : Path) : Bool := path.any fun part => part.toList.contains (Char.ofNat 0)

/-- A machine at rest: what is at each path, where a symlink in last place is not followed. -/
structure Machine where
  at? : Path → Option Tree
  inside : ∀ {path : Path} {info : FileInfo} {entries : Entries},
    at? path = some (.directory info entries) →
      ∀ name, Legal name → at? (path ++ [name]) = entries.lookup name
  leaf : ∀ {path : Path} {info : FileInfo} {content : List UInt8},
    at? path = some (.file info content) → ∀ name, at? (path ++ [name]) = none
  noNul : ∀ {path : Path} {node : Tree}, at? path = some node → hasNul path = false
  /-- `os.scandir` of the directory does not raise; `os.walk` says nothing where it does. -/
  listed : Path → Bool
  readable : Path → Bool
  clock : DateTime
  id : String

section Walk

variable (listed : Path → Bool)

mutual

/-- The paths that `os.walk` comes to in the file at `base`; it does not follow symlinks. -/
def Tree.walked (base : Path) : Tree → List Path
  | .directory _ entries => if listed base then walkedIn base entries else []
  | .file _ _ | .symlink _ | .special _ => []

def walkedIn (base : Path) : Entries → List Path
  | [] => []
  | (name, t) :: entries => (base ++ [name]) :: (t.walked (base ++ [name]) ++ walkedIn base entries)

end

end Walk

namespace Machine

/-- The paths found below `root`, relative to it. -/
def found (m : Machine) (root : Path) : List Path :=
  match m.at? root with
  | some t => t.walked (fun rel => m.listed (root ++ rel)) []
  | none => []

def answer (m : Machine) : (c : Call) → Except Error c.Answer
  | .now => .ok m.clock
  | .randomId => .ok m.id
  | .lstat path => if hasNul path then .error .value else World.orOs ((m.at? path).map Tree.stat)
  | .readRegular path =>
    match m.at? path with
    | some (.file _ content) => if m.readable path then .ok content else .error .os
    | _ => .error .os
  | .readBounded path limit =>
    match m.at? path with
    | some (.file _ content) =>
      if limit < content.length then .ok none
      else if m.readable path then .ok (some content) else .error .os
    | _ => .ok none
  | .walkTree root => .ok (m.found root)
  | _ => .error .other

/-- Nothing that is asked of the machine changes it. -/
def server (m : Machine) : Server Unit Res
  | .lock, _ => (.ok (), ())
  | .thread, _ => (.ok (), ())
  | .append _, _ => (.failed, ())
  | .call c, _ => (m.answer c, ())

def runs {α : Type} (m : Machine) (p : Tool Unit α) : Except Error α := (p.serve m.server ()).1

section Runs

variable {m : Machine} {α β : Type}

@[simp] theorem ok_bind (a : α) (f : α → Except Error β) : (Except.ok a >>= f) = f a := rfl

@[simp] theorem error_bind (e : Error) (f : α → Except Error β) :
    (Except.error e >>= f) = .error e := rfl

@[simp] theorem runs_ret (a : α) : m.runs (.ret a) = .ok a := rfl

@[simp] theorem runs_raise (e : Error) : m.runs (.raise e : Tool Unit α) = .error e := rfl

@[simp] theorem runs_attempt (c : Call) : m.runs (attempt c) = m.answer c := by
  have hcall : ((attempt c : Tool Unit c.Answer).serve m.server ()) = (m.answer c, ()) := by
    rw [attempt, Proc.attempt, serve_bind_ok (Proc.serve_perform _), serve_ofExcept]
    rfl
  exact congrArg Prod.fst hcall

@[simp] theorem runs_bind (p : Tool Unit α) (f : α → Tool Unit β) :
    m.runs (p.bind f) = m.runs p >>= fun a => m.runs (f a) := by
  rw [runs, runs, serve_bind]
  cases p.serve m.server () with
  | mk r s => cases r <;> rfl

theorem runs_observe (p : Tool Unit α) : m.runs p.observe = .ok (m.runs p) :=
  congrArg Prod.fst serve_observe

theorem runs_handle (p : Tool Unit α) (h : Error → Tool Unit α) :
    m.runs (p.handle h) =
      match m.runs p with
      | .ok a => .ok a
      | .error e => m.runs (h e) := by
  rw [runs, runs, serve_handle]
  cases p.serve m.server () with
  | mk r s => cases r <;> rfl

@[simp] theorem runs_require (c : Bool) (e : Error) :
    m.runs (require c e) = if c then .ok () else .error e := by
  rw [runs, Proc.serve_require]

theorem runs_require_bind {c : Bool} {e : Error} {f : Unit → Tool Unit β} (h : c = true) :
    m.runs ((require c e).bind f) = m.runs (f ()) := by
  rw [runs_bind, runs_require, if_pos h, ok_bind]

theorem runs_lstat? (path : Path) :
    m.runs (lstat? path) =
      if hasNul path then .error .value else .ok ((m.at? path).map Tree.stat) := by
  have hbody : m.runs (do return some (← attempt (.lstat path))) =
      (m.answer (.lstat path)).bind fun info => .ok (some info) := by
    rw [bind_eq, runs_bind, runs_attempt]
    rfl
  rw [lstat?, runs_handle, hbody, answer]
  cases hasNul path with
  | true => rfl
  | false => cases m.at? path <;> rfl

theorem runs_lstat?_eq_ok {path : Path} {info : Option Stat}
    (h : m.runs (lstat? path) = .ok info) :
    hasNul path = false ∧ info = (m.at? path).map Tree.stat := by
  rw [runs_lstat?] at h
  split at h
  · cases h
  · next hnul => exact ⟨by simpa using hnul, (Except.ok.inj h).symm⟩

theorem readRegular_eq_ok {path : Path} {content : List UInt8}
    (h : m.answer (.readRegular path) = .ok content) :
    m.readable path = true ∧ ∃ info, m.at? path = some (.file info content) := by
  rw [answer] at h
  split at h
  · next info content' hat =>
    split at h
    · next hread =>
      obtain rfl : content' = content := Except.ok.inj h
      exact ⟨hread, info, hat⟩
    · cases h
  · cases h

theorem readRegular_file {path : Path} {info : FileInfo} {content : List UInt8}
    (hat : m.at? path = some (.file info content)) :
    m.answer (.readRegular path) = if m.readable path then .ok content else .error .os := by
  rw [answer, hat]

end Runs

end Machine

/-! ### The machine of a tree -/

section OfTree

def Tree.at? : Path → Tree → Option Tree
  | [], t => some t
  | name :: rest, .directory _ entries => (entries.lookup name).bind (Tree.at? rest)
  | _ :: _, .file _ _ | _ :: _, .symlink _ | _ :: _, .special _ => none

theorem Tree.at?_append (p q : Path) (t : Tree) : t.at? (p ++ q) = (t.at? p).bind (Tree.at? q) := by
  induction p generalizing t with
  | nil => rfl
  | cons name rest ih =>
    cases t with
    | directory info entries =>
      rw [List.cons_append, Tree.at?, Tree.at?, Option.bind_assoc]
      exact congrArg _ (funext ih)
    | _ => rfl

theorem Tree.legal_at? {t node : Tree} {path : Path} (hsound : t.Sound)
    (h : t.at? path = some node) : ∀ part ∈ path, Legal part := by
  induction path generalizing t with
  | nil => simp
  | cons name rest ih =>
    cases t with
    | directory info entries =>
      obtain ⟨child, hchild, h⟩ := Option.bind_eq_some_iff.mp h
      obtain ⟨hlegal, hinner⟩ := soundIn_mem hsound.2 (mem_of_lookup hchild)
      exact List.forall_mem_cons.mpr ⟨hlegal, ih hinner h⟩
    | _ => cases h

theorem hasNul_of_legal {path : Path} (h : ∀ part ∈ path, Legal part) : hasNul path = false := by
  rw [hasNul, List.any_eq_false]
  intro part hpart
  simpa using (h part hpart).noNul

def Machine.ofTree (top : Tree) (hsound : top.Sound) (clock : DateTime) (id : String) : Machine where
  at? path := top.at? path
  inside {path info entries} h name _ := by
    rw [Tree.at?_append, h, Option.bind_some, Tree.at?]
    cases entries.lookup name <;> rfl
  leaf {path info content} h name := by
    rw [Tree.at?_append, h]
    rfl
  noNul h := hasNul_of_legal (Tree.legal_at? hsound h)
  listed _ := true
  readable _ := true
  clock
  id

end OfTree

end Ares.Backups
