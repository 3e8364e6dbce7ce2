import Ares.Backups.Create
import Ares.Backups.Tree
import Ares.Coop.Serve

/-! A machine on which the tools run alone: a source that does not change, and a disk that takes the
backup.  What the file system of that disk makes of a name, and what the process may do with a mode,
is up to the machine. -/

namespace Ares.Backups

open Coop Data

/-- What the file system of the destination makes of names, modes and lengths, as far as the process
is concerned: it may run without the right to pass over the modes of its own files. -/
structure Medium where
  fold : String → String
  shows : String → String
  takes : Path → Bool
  longest : Nat
  /-- `mkdir` takes the mode. -/
  allows : Nat → Bool
  locks : Nat → Bool
  hides : Nat → Bool
  /-- `fchmod` and `utime` take what they are given. -/
  settles : Stat → Bool

namespace Medium

/-- A path as it is compared. -/
def key (m : Medium) (rel : Path) : Path := rel.map m.fold

def listed (m : Medium) (rel : Path) : Path := rel.map m.shows

def plain (longest : Nat) : Medium where
  fold name := name
  shows name := name
  takes _ := true
  longest := longest
  allows _ := true
  locks _ := false
  hides _ := false
  settles _ := true

end Medium

/-- A file on the disk of the destination, with the path under which it is listed. -/
inductive Node
  | directory (listed : Path) (mode : Nat)
  | file (listed : Path) (mode : Nat) (content : List UInt8)
deriving DecidableEq

def Node.listed : Node → Path
  | directory listed _ | file listed _ _ => listed

def Node.stat : Node → Stat
  | directory _ mode => ⟨.directory, mode, 0, 0, "", 0⟩
  | file _ mode content => ⟨.regular, mode, content.length, 0, "", 0⟩

def Node.relist (listed : Path) : Node → Node
  | directory _ mode => .directory listed mode
  | file _ mode content => .file listed mode content

/-- The files below the root of the destination, by their paths as the file system compares them. -/
abbrev Disk := List (Path × Node)

def below (root path : Path) : Option Path :=
  if root.isPrefixOf path then some (path.drop root.length) else none

namespace Disk

def at? (disk : Disk) : Path → Option Node
  | [] => some (.directory [] 0o700)
  | key => disk.lookup key

def isDirectory (disk : Disk) (key : Path) : Bool :=
  match disk.at? key with
  | some (.directory _ _) => true
  | _ => false

def isOpen (m : Medium) (disk : Disk) (key : Path) : Bool :=
  match disk.at? key with
  | some (.directory _ mode) => !m.locks mode
  | _ => false

def add (m : Medium) (disk : Disk) (key : Path) (node : Node) : Option Disk :=
  if disk.at? key = none ∧ disk.isOpen m key.dropLast then some (disk ++ [(key, node)])
  else none

/-- `mkdir` with `parents` and `exist_ok`. -/
def mkdir (m : Medium) (disk : Disk) (key listed : Path) (mode : Nat) (parents existOk : Bool) :
    Option Disk :=
  match disk.at? key with
  | some (.directory _ _) => if existOk then some disk else none
  | some (.file _ _ _) => none
  | none =>
    let missing := key.inits.dropLast.filter fun above => disk.at? above = none
    if !m.allows mode then none
    else if missing = [] then disk.add m key (.directory listed mode)
    else if parents then
      (missing.foldlM (fun (d : Disk) above =>
          d.add m above (.directory (listed.take above.length) 0o777)) disk).bind fun d : Disk =>
        d.add m key (.directory listed mode)
    else none

def alter (disk : Disk) (key : Path) (f : Node → Node) : Disk :=
  disk.map fun (p, node) => (p, if p = key then f node else node)

def append (m : Medium) (disk : Disk) (key : Path) (block : List UInt8) : Option Disk :=
  match disk.at? key with
  | some (.file listed mode content) =>
    if (content ++ block).length ≤ m.longest then
      some (disk.alter key fun _ => .file listed mode (content ++ block))
    else none
  | _ => none

/-- `fchmod`. -/
def chmod (disk : Disk) (key : Path) (mode : Nat) : Disk :=
  disk.alter key fun
    | .file listed _ content => .file listed mode content
    | .directory listed _ => .directory listed mode

/-- `os.replace` of a directory; `listed` is its new path. -/
def rename (disk : Disk) (source target listed : Path) : Disk :=
  disk.map fun (p, node) =>
    match below source p with
    | some rest => (target ++ rest, node.relist (listed ++ node.listed.drop source.length))
    | none => (p, node)

def remove (disk : Disk) (root : Path) : Disk := disk.filter fun (p, _) => !root.isPrefixOf p

/-- What `os.walk` lists below a directory. -/
def walk (disk : Disk) (root : Path) : List Path :=
  (disk.filter fun (p, _) => (below root p).any fun rel => rel ≠ [] &&
    rel.inits.dropLast.all fun above => disk.isDirectory (root ++ above)).map fun (_, node) =>
    node.listed.drop root.length

end Disk

/-- The file of the source at a relative path. -/
def find? : Entries → Path → Option Tree
  | _, [] => none
  | entries, [name] => entries.lookup name
  | entries, name :: rest =>
    match entries.lookup name with
    | some (.directory _ inner) => find? inner rest
    | _ => none

structure World extends Medium where
  clock : Nat → DateTime
  readings : Nat
  /-- The values that `os.urandom(16).hex()` gives. -/
  ids : Nat → String
  drawn : Nat
  sourceRoot : Path
  source : Tree
  destinationRoot : Path
  disk : Disk
  mounts : List MountInfo
  physicalDeviceId : String → Option String
  removable : String → Bool
  available : Nat
  /-- The blocks that the reads of a file of the source give, of whose content `st_size` tells the
  length. -/
  blocks : FileInfo → List UInt8 → List (List UInt8)

namespace World

def sourceAt (w : World) : Path → Option Tree
  | [] => some w.source
  | rel =>
    match w.source with
    | .directory _ entries => find? entries rel
    | _ => none

def sourceFile (w : World) (path : Path) : Option Tree := (below w.sourceRoot path).bind w.sourceAt

def onDisk (w : World) (path : Path) : Option Path :=
  if w.sourceRoot.isPrefixOf path then none else (below w.destinationRoot path).filter w.takes

def read (w : World) (info : FileInfo) (content : List UInt8) : List UInt8 :=
  (w.blocks info content).flatten

def lstat (w : World) (path : Path) : Option Stat :=
  match w.onDisk path with
  | some rel => (w.disk.at? (w.key rel)).map Node.stat
  | none => (w.sourceFile path).map Tree.stat

/-- What the reads of a regular file give. -/
def content (w : World) (path : Path) : Option (List UInt8) :=
  match w.onDisk path with
  | some rel =>
    match w.disk.at? (w.key rel) with
    | some (.file _ mode content) => if w.hides mode then none else some content
    | _ => none
  | none =>
    match w.sourceFile path with
    | some (.file info content) => some (w.read info content)
    | _ => none

def orOs {α : Type} : Option α → Except Error α
  | some a => .ok a
  | none => .error .os

/-- A change of the disk, or `OSError`. -/
def change (w : World) (disk : Option Disk) : Except Error Unit × World :=
  match disk with
  | some disk => (.ok (), { w with disk })
  | none => (.error .os, w)

/-- What `_scan_source` makes of the source. -/
def scan (w : World) (root : Path) (deviceId : String) (policy : BackupPolicy) :
    Except Error Scan :=
  match w.sourceFile root with
  | some (.file _ content) => .ok ⟨content.length, 1, 0, []⟩
  | some (.directory _ entries) => .ok (scanEntries policy deviceId entries)
  | _ => .error (.tool "BACKUP_SOURCE_SCAN_FAILED")

def walkCopy (w : World) (root : Path) (deviceId : String) (policy : BackupPolicy) :
    List (Path × Path) × Option Error :=
  match w.sourceFile root with
  | some (.file _ _) => ([(root, root.getLast?.toList)], none)
  | some (.directory _ entries) =>
    ((included policy deviceId entries).map fun v => (root ++ v.relative, v.relative), none)
  | _ => ([], some .os)

/-- The answer to a call, and the world that it leaves. -/
def answer (w : World) : (c : Call) → Except Error c.Answer × World
  | .now => (.ok (w.clock w.readings), { w with readings := w.readings + 1 })
  | .randomId => (.ok (w.ids w.drawn), { w with drawn := w.drawn + 1 })
  | .send | .fsyncDirectory _ => (.ok (), w)
  | .resolve path => (if (w.lstat path).isSome then .ok path else .error .os, w)
  | .mounts => (.ok w.mounts, w)
  | .statDevice path => (orOs ((w.lstat path).map (·.device)), w)
  | .physicalDeviceId deviceId => (.ok (w.physicalDeviceId deviceId), w)
  | .isRemovable deviceId => (.ok (w.removable deviceId), w)
  | .access path => (.ok (w.lstat path).isSome, w)
  | .available _ => (.ok w.available, w)
  | .lexists path => (.ok (w.lstat path).isSome, w)
  | .scanSource root deviceId policy => (w.scan root deviceId policy, w)
  | .walkCopyEntries root deviceId policy => (.ok (w.walkCopy root deviceId policy), w)
  | .lstat path | .fstat path => (orOs (w.lstat path), w)
  | .mkdir path mode parents existOk => w.change ((w.onDisk path).bind fun rel =>
      w.disk.mkdir w.toMedium (w.key rel) (w.listed rel) mode parents existOk)
  | .unsafeDirectory path => (.ok (w.lstat path).isNone, w)
  | .openSource path => (orOs ((w.sourceFile path).bind fun
      | .file info content => some ((Tree.file info content).stat, w.blocks info content, none)
      | _ => none), w)
  | .create path => w.change ((w.onDisk path).bind fun rel =>
      w.disk.add w.toMedium (w.key rel) (.file (w.listed rel) 0o600 []))
  | .write path block => w.change ((w.onDisk path).bind fun rel =>
      w.disk.append w.toMedium (w.key rel) block)
  | .finish path info => w.change ((w.onDisk path).bind fun rel =>
      if w.settles info then some (w.disk.chmod (w.key rel) info.mode) else none)
  | .writeNew path content => w.change ((w.onDisk path).bind fun rel =>
      if content.length ≤ w.longest then
        w.disk.add w.toMedium (w.key rel) (.file (w.listed rel) 0o600 content)
      else none)
  | .replace source target => w.change ((w.onDisk source).bind fun a => (w.onDisk target).bind
      fun b => if w.disk.at? (w.key b) = none then
        some (w.disk.rename (w.key a) (w.key b) (w.listed b)) else none)
  | .removePartial path => w.change (some (match w.onDisk path with
      | some rel => w.disk.remove (w.key rel)
      | none => w.disk))
  | .readRegular path => (orOs (w.content path), w)
  | .readBounded path limit => (.ok ((w.content path).filter (·.length ≤ limit)), w)
  | .walkTree root => (.ok (((w.onDisk root).map fun rel => w.disk.walk (w.key rel)).getD []), w)
  | .requestConsent _ _ | .waitConsent _ => (.error .other, w)

/-- The machine as a server of calls. -/
def server : Server World Res
  | .lock, w => (.ok (), w)
  | .thread, w => (.ok (), w)
  | .append _, w => (.failed, w)
  | .call c, w => w.answer c

/-- A program of the tools, run on the machine. -/
def runs {α : Type} (w : World) (p : Tool World α) : Except Error α × World := p.serve server w

end World

end Ares.Backups
