import Ares.Coop.Journal
import Ares.Data.Medium

/-! The record stores: one file a record, written to a temporary file that is then given the name of the
record.  Puts and gets overlap in any way, every call on the file system may fail, and the process may
be killed or the machine lose power between any two calls; then the stores are used by a new
process. -/

namespace Ares.Stores

open Coop Data

/-- What the stores differ in. -/
structure Store where
  maximum : Option Nat
  /-- A get looks at the kind and the size of the file before it reads it, and takes a file that it
  cannot decode for no record. -/
  guarded : Bool
  setsMode : Bool
  syncsDirectory : Bool

/-- `StorageOperationStore`. -/
def storageOperationStore : Store := ⟨some 12000000, true, true, true⟩

/-- `BackupStore`, of its plans, records and verifications. -/
def backupStore : Store := ⟨some 4000000, true, true, true⟩

/-- `BackupStore`, of its manifests. -/
def backupManifestStore : Store := ⟨some 128000000, true, true, true⟩

def filesystemRepairStore : Store := ⟨some 4000000, true, true, true⟩

def protectionCheckpointStore : Store := ⟨some 256000, true, true, true⟩

/-- `StorageSnapshotStore`. -/
def storageSnapshotStore : Store := ⟨some 8000000, true, true, false⟩

def diagnosticStore : Store := ⟨some 2000000, true, true, false⟩

def agentRunStore : Store := ⟨none, false, false, false⟩

structure Path where
  parent : String
  name : String
deriving DecidableEq

/-- The records: where a record stands, and its JSON text. -/
structure Format (ρ : Type) where
  path : ρ → Path
  encode : ρ → List UInt8
  decode : List UInt8 → Option ρ

inductive Error
  | notFound
  | os
  | value
deriving DecidableEq

inductive Action (ρ : Type)
  | put (record : ρ)
  | get (path : Path)

/-- A request to the process `life`. -/
structure Request (ρ : Type) where
  life : Nat
  action : Action ρ

inductive Call
  | mkstemp (directory : String)
  | write (data : List UInt8)
  | fsync
  | close
  | chmod
  | replace (path : Path)
  | openDirectory (directory : String)
  | fsyncDirectory (directory : String)
  | closeDirectory
  | unlink
  | isSymlink (path : Path)
  | isFile (path : Path)
  | size (path : Path)
  | open (path : Path)
  | read (file : Nat)

@[reducible] def Call.Answer : Call → Type
  /- How many bytes have reached the file: fewer than all when the call raises. -/
  | .write _ => Nat
  | .isSymlink _ | .isFile _ => Bool
  | .size _ => Nat
  /- The number of the file. -/
  | .open _ => Nat
  | .read _ => List UInt8
  | _ => Unit

/-- A call of the process `life`. -/
structure Op where
  life : Nat
  call : Call

@[reducible] def Res (o : Op) : Type := Except Error o.call.Answer

/-- A step of the task `task`. -/
inductive Event (ρ : Type)
  | received (task : Nat) (action : Action ρ)
  | failed (task : Nat)
  | replaced (task : Nat) (record : ρ)
  | returned (task : Nat) (record : ρ) (failures : Nat)

variable {ρ : Type}

def Event.task : Event ρ → Nat
  | received t _ | failed t | replaced t _ | returned t _ _ => t

instance instTaskedEvent : Tasked (Event ρ) := ⟨Event.task⟩

@[simp] theorem task_eq (e : Event ρ) : Tasked.task e = e.task := rfl

/-- The temporary file of a task has the number of the task.  Its temporary name, which no other
running task has and no get looks up, is left out. -/
structure State (ρ : Type) where
  life : Nat
  failures : Nat
  medium : Medium Path UInt8
  history : List (Event ρ)

abbrev Task (ρ : Type) := Proc (State ρ) Res Error

namespace State

def note (e : Event ρ) (s : State ρ) : State ρ := { s with history := e :: s.history }

def write (task : Nat) (data : List UInt8) (s : State ρ) : State ρ :=
  { s with medium := s.medium.write task data }

def syncFile (task : Nat) (s : State ρ) : State ρ := { s with medium := s.medium.syncFile task }

/-- `os.replace(temporary, path)`. -/
def replace (fmt : Format ρ) (task : Nat) (record : ρ) (s : State ρ) : State ρ :=
  { s with medium := s.medium.link (fmt.path record) task }.note (.replaced task record)

def syncDirectory (directory : String) (upto : Path → Nat) (s : State ρ) : State ρ :=
  { s with medium := s.medium.syncDirectory (·.parent = directory) upto }

end State

/-- A call whose exception goes on. -/
def attempt (life task : Nat) (c : Call) : Task ρ c.Answer := do
  match ← perform (Op.mk life c) with
  | .ok a => pure a
  | .error e =>
    Proc.modify (State.note (.failed task))
    throw e

def fill (life task : Nat) (data : List UInt8) : Task ρ Unit :=
  Proc.andFinally (do
    let n ← attempt life task (.write data)
    Proc.modify (State.write task (data.take n))
    require (data.length ≤ n) .os
    attempt life task .fsync
    Proc.modify (State.syncFile task)) (attempt life task .close)

def syncDirectory (life task : Nat) (directory : String) : Task ρ Unit := do
  attempt life task (.openDirectory directory)
  Proc.andFinally (do
    let upto ← reading fun s : State ρ => s.medium.newest
    attempt life task (.fsyncDirectory directory)
    Proc.modify (State.syncDirectory directory upto)) (attempt life task .closeDirectory)

/-- `os.unlink(temporary)`, where it is no error that there is no such file. -/
def unlink (life task : Nat) : Task ρ Unit :=
  Proc.handle (attempt life task .unlink) fun
    | .notFound => pure ()
    | e => throw e

/-- The record fits into the store. -/
def Store.fits (store : Store) (data : List UInt8) : Bool :=
  store.maximum.all fun maximum => data.length ≤ maximum

/-- `os.chmod(temporary, 0o600)`, where the store does it. -/
def setMode (store : Store) (life task : Nat) : Task ρ Unit :=
  if store.setsMode then attempt life task .chmod else pure ()

/-- `_write`. -/
def write (store : Store) (fmt : Format ρ) (life task : Nat) (record : ρ) : Task ρ Unit := do
  let data := fmt.encode record
  let path := fmt.path record
  require (store.fits data) .value
  attempt life task (.mkstemp path.parent)
  Proc.andFinally (do
    fill life task data
    setMode store life task
    attempt life task (.replace path)
    Proc.modify (State.replace fmt task record)
    if store.syncsDirectory then syncDirectory life task path.parent else pure ())
    (unlink life task)

/-- `path.read_text`, without the decoding of UTF-8. -/
def readBytes (life task : Nat) (path : Path) : Task ρ (List UInt8) := do
  let file ← attempt life task (.open path)
  attempt life task (.read file)

def isRecord (store : Store) (life task : Nat) (path : Path) : Task ρ Bool := do
  if ← attempt life task (.isSymlink path) then
    pure false
  else
    if ← attempt life task (.isFile path) then
      let size ← attempt life task (.size path)
      pure (store.maximum.all fun maximum => size ≤ maximum)
    else
      pure false

/-- `_read`, or the `get` of a store that has none. -/
def read (store : Store) (fmt : Format ρ) (life task : Nat) (path : Path) : Task ρ (Option ρ) :=
  if store.guarded then
    Proc.handle (do
      if ← isRecord store life task path then
        let data ← readBytes life task path
        pure (fmt.decode data)
      else
        pure none) fun _ => pure none
  else do
    let data ← Proc.handle (do
      let data ← readBytes life task path
      pure (some data)) fun
      | .value => throw .value
      | _ => pure none
    match data with
    | none => pure none
    | some data =>
      let record ← ofOption .value (fmt.decode data)
      pure (some record)

def answer (store : Store) (fmt : Format ρ) (life task : Nat) : Action ρ → Task ρ (Option ρ)
  | .put record => do
    write store fmt life task record
    Proc.modify fun s => s.note (.returned task record s.failures)
    pure none
  | .get path => read store fmt life task path

def dispatch (store : Store) (fmt : Format ρ) (task : Nat) (r : Request ρ) : Task ρ (Option ρ) := do
  Proc.modify (State.note (.received task r.action))
  answer store fmt r.life task r.action

/-- What happens to the processes. -/
inductive Fault
  | kill
  /-- A loss of power: how far the names fall back, and what is left in files that were not written
  to the medium. -/
  | power (back : Path → Nat) (lost : Nat → List UInt8)

/-- What a call may answer, beside an error. -/
def Answered (s : State ρ) : (c : Call) → c.Answer → Prop
  | .isSymlink _, b => b = false
  | .isFile p, b => b = (s.medium.current p).isSome
  | .size p, n => ∃ i, s.medium.current p = some i ∧ n = (s.medium.content i).length
  | .open p, i => s.medium.current p = some i
  | .read i, data => data = s.medium.content i
  | _, _ => True

/-- The store with any clients.  Every call may raise an `OSError`, and no call of a process that is
gone is answered. -/
def system (store : Store) (fmt : Format ρ) :
    System (State ρ) Res Error (Option ρ) (Request ρ) Fault where
  handler task r := dispatch store fmt task r
  admits s r := r.life = s.life
  answers s o r := o.life = s.life ∧ match r with
    | .ok a => Answered s o.call a
    | .error e => e ≠ .value
  moves _ _ := True
  world
    | .kill, s => { s with life := s.life + 1 }
    | .power back lost, s =>
      { s with
        life := s.life + 1
        failures := s.failures + 1
        medium := s.medium.losePower back lost }

def State.start : State ρ where
  life := 0
  failures := 0
  medium := .empty
  history := []

end Ares.Stores
