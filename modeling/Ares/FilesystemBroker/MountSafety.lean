import Ares.Data.Lines
import Ares.Data.PurePath
import Ares.FilesystemBroker.Tools

/-! The mount table, as the kernel writes it into `mountinfo` and as the checker reads it back, and what
a report that calls an unmounting safe says about the table. -/

namespace Ares.FilesystemBroker

open Data Filesystems
open scoped List

/-! ### The table of the kernel -/

/-- An entry of the mount table.  Later entries lie above earlier ones at the same mount point. -/
structure MountEntry where
  id : Nat
  parent : Nat
  majorMinor : String
  root : String
  mountPoint : String
  options : String
  tags : List String
  filesystemType : String
  source : String
  superOptions : String
deriving DecidableEq

abbrev MountTable := List MountEntry

/-- The octal escapes of the kernel for blanks, tabs, newlines and backslashes. -/
def escapeMount (value : String) : String :=
  String.join (value.toList.map fun c => match c with
    | ' ' => "\\040"
    | '\t' => "\\011"
    | '\n' => "\\012"
    | '\\' => "\\134"
    | c => String.singleton c)

/-- The line of an entry in `mountinfo`. -/
def MountEntry.line (e : MountEntry) : List Char :=
  (" ".intercalate ([toString e.id, toString e.parent, e.majorMinor, escapeMount e.root,
    escapeMount e.mountPoint, e.options] ++ e.tags ++
    ["-", e.filesystemType, escapeMount e.source, e.superOptions])).toList

/-- `/proc/self/mountinfo`. -/
def mountinfo (table : MountTable) : List Char := table.flatMap fun e => e.line ++ ['\n']

/-- The topmost mount at a path. -/
def topmost (path : String) (table : MountTable) : Option MountEntry :=
  table.reverse.find? (·.mountPoint = path)

/-- `umount`: the topmost mount at the path is detached. -/
def detach (path : String) (table : MountTable) : MountTable :=
  (table.reverse.eraseP (·.mountPoint = path)).reverse

/-- The entries of a device. -/
def entriesOf (majorMinor : String) (table : MountTable) : MountTable :=
  table.filter (·.majorMinor = majorMinor)

/-- No entry has the number of the device. -/
def Unmounted (majorMinor : String) (table : MountTable) : Prop := entriesOf majorMinor table = []

instance (majorMinor : String) (table : MountTable) : Decidable (Unmounted majorMinor table) :=
  inferInstanceAs (Decidable (entriesOf majorMinor table = []))

/-! ### The checker -/

/-- What the checker reads off a line: the number of the device, and the record. -/
def readMount (line : List Char) : Option (String × MountRecord) :=
  match cut " - ".toList line with
  | none => none
  | some (before, after) =>
    let left := wordsOf before
    let right := wordsOf after
    if left.length < 6 || right.length < 2 then none
    else
      let root := unescapeMount (left.getD 3 "")
      some (left.getD 2 "", {
        mountPoint := unescapeMount (left.getD 4 "")
        root
        source := right.getD 1 ""
        filesystemType := right.getD 0 ""
        options := (((left.getD 5 "").toList.splitOn ',').filter (· ≠ [])).map String.ofList
        bindMount := root ≠ "/" })

def ofTarget (identity : DeviceIdentity) (line : String × MountRecord) : Bool :=
  line.1 = identity.majorMinor || line.2.source = identity.canonicalPath

/-- `_mounts`, with the text of `mountinfo` where it can be read. -/
def targetMounts (identity : DeviceIdentity) : Option (List Char) → List MountRecord
  | none => []
  | some text =>
    (((splitlines text).filterMap readMount).filter (ofTarget identity)).map (·.2)

/-- `value.removesuffix(" (deleted)")`. -/
def withoutDeleted (value : String) : String :=
  if " (deleted)".toList.isSuffixOf value.toList then
    String.ofList (value.toList.take (value.length - " (deleted)".length))
  else value

/-- `_path_under_roots`. -/
def pathUnderRoots (value : String) (roots : List PurePath) : Bool :=
  (purePath (withoutDeleted value)).isAbsolute &&
    roots.any (purePath (withoutDeleted value)).isRelativeTo

/-- The mount point of a line, as `_nested_mounts` reads it. -/
def readMountPoint (line : List Char) : Option String :=
  match cut " - ".toList line with
  | none => none
  | some (before, _) =>
    if (wordsOf before).length < 5 then none else some (unescapeMount ((wordsOf before).getD 4 ""))

/-- `_nested_mounts`. -/
def nestedMounts (mounts : List MountRecord) : Option (List Char) → List String
  | none => []
  | some text =>
    if mounts = [] then []
    else ((((splitlines text).filterMap readMountPoint).filter fun candidate =>
      !(mounts.map (·.mountPoint)).contains candidate &&
        pathUnderRoots candidate (mounts.map fun item => purePath item.mountPoint)).eraseDups).mergeSort
      (· ≤ ·)

def unsupportedOptions (mounts : List MountRecord) : List String :=
  (((mounts.flatMap (·.options)).filter fun option =>
    !safeMountOptions.contains option).eraseDups).mergeSort
    (· ≤ ·)

/-- `MountSafetyChecker.inspect`, with the findings about swap areas and processes. -/
def inspectMounts (identity : DeviceIdentity) (text : Option (List Char)) (swap : Bool)
    (processes : List Nat) : MountSafetyReport :=
  let mounts := targetMounts identity text
  let nested := nestedMounts mounts text
  let active := if mounts = [] then [] else processes
  let unsupported := unsupportedOptions mounts
  let bind := mounts.any (·.bindMount)
  let reasons := (if 1 < mounts.length then ["multiple_mounts"] else []) ++
    (if nested ≠ [] then ["nested_mounts"] else []) ++ (if bind then ["bind_mount"] else []) ++
    (if swap then ["active_swap"] else []) ++
    (if active ≠ [] then ["active_process_handles"] else []) ++
    (if unsupported ≠ [] then ["mount_options_cannot_be_restored_safely"] else [])
  { mounted := mounts ≠ []
    busy := active ≠ []
    swap
    mounts
    nestedMounts := nested
    activeProcesses := active
    unsupportedMountOptions := unsupported
    safeToUnmount := mounts ≠ [] && reasons = []
    safeToRemount := mounts ≠ [] && unsupported = [] && mounts.length = 1 && !bind
    reasons }

/-! ### What is read back -/

/-- The line of an entry is read as one line, with the number of the device and the mount point. -/
def MountEntry.Legible (e : MountEntry) : Prop :=
  (∀ c ∈ e.line, lineBreak c = false) ∧
    ∃ record, readMount e.line = some (e.majorMinor, record) ∧ record.mountPoint = e.mountPoint

section Reports

variable {identity : DeviceIdentity} {table : MountTable} {text : Option (List Char)} {swap : Bool}
  {processes : List Nat} {path majorMinor : String} {a : MountEntry}

theorem mountPoints_sublist (h : ∀ e ∈ entriesOf identity.majorMinor table, e.Legible) :
    (entriesOf identity.majorMinor table).map (·.mountPoint) <+
      (targetMounts identity (some (mountinfo table))).map (·.mountPoint) := by
  induction table with
  | nil => exact List.nil_sublist _
  | cons e table ih =>
    have hsplit : targetMounts identity (some (mountinfo (e :: table))) =
        targetMounts identity (some (e.line ++ ['\n'])) ++
          targetMounts identity (some (mountinfo table)) := by
      simp only [targetMounts, mountinfo, List.flatMap_cons, List.append_assoc,
        List.singleton_append]
      rw [splitlines_append_newline]
      simp only [List.filterMap_append, List.filter_append, List.map_append]
    rw [hsplit, List.map_append]
    by_cases htarget : e.majorMinor = identity.majorMinor
    · have hentries : entriesOf identity.majorMinor (e :: table) =
          e :: entriesOf identity.majorMinor table := by
        simp [entriesOf, htarget]
      rw [hentries] at h ⊢
      obtain ⟨hline, record, hread, hpoint⟩ := h e List.mem_cons_self
      have hone : targetMounts identity (some (e.line ++ ['\n'])) = [record] := by
        simp [targetMounts, splitlines_line hline, hread, ofTarget, htarget]
      rw [hone, List.map_cons, ← hpoint]
      exact (ih fun e' he' => h e' (List.mem_cons_of_mem e he')).cons_cons _
    · have hentries : entriesOf identity.majorMinor (e :: table) =
          entriesOf identity.majorMinor table := by
        simp [entriesOf, htarget]
      rw [hentries] at h ⊢
      exact (ih h).trans (List.sublist_append_right _ _)

theorem mounts_of_safe (h : (inspectMounts identity text swap processes).safeToUnmount = true) :
    ∃ record, (inspectMounts identity text swap processes).mounts = [record] := by
  simp only [inspectMounts, Bool.and_eq_true, decide_eq_true_eq, List.append_eq_nil_iff] at h ⊢
  obtain ⟨hsome, ⟨⟨⟨⟨hmany, -⟩, -⟩, -⟩, -⟩, -⟩ := h
  have hlength : ¬1 < (targetMounts identity text).length := by
    intro hmore
    rw [if_pos hmore] at hmany
    cases hmany
  match hmounts : targetMounts identity text with
  | [] => exact absurd hmounts hsome
  | [record] => exact ⟨record, rfl⟩
  | _ :: _ :: _ =>
    rw [hmounts] at hlength
    simp at hlength

/-! ### Detaching -/

theorem detach_sublist (path : String) (table : MountTable) : detach path table <+ table := by
  have h := (List.eraseP_sublist (p := (·.mountPoint = path)) (l := table.reverse)).reverse
  rwa [List.reverse_reverse] at h

theorem detach_topmost (h : topmost path table = some a) :
    ∃ below above, table = below ++ a :: above ∧ detach path table = below ++ above := by
  obtain ⟨ha, above, below, htable, habove⟩ := List.find?_eq_some_iff_append.mp h
  refine ⟨below.reverse, above.reverse, ?_, ?_⟩
  · rw [← List.reverse_reverse table, htable]
    simp
  · have herase : (above ++ a :: below).eraseP (·.mountPoint = path) = above ++ below := by
      rw [List.eraseP_append_right _ fun b hb => by simpa using habove b hb]
      simp [of_decide_eq_true ha]
    rw [detach, htable, herase, List.reverse_append]

theorem detach_of_none (h : topmost path table = none) : detach path table = table := by
  have hnone := List.find?_eq_none.mp h
  rw [detach, List.eraseP_of_forall_not hnone, List.reverse_reverse]

theorem unmounted_sublist {table' : MountTable} (hsub : table' <+ table)
    (h : Unmounted majorMinor table) : Unmounted majorMinor table' :=
  List.eq_nil_of_sublist_nil (h ▸ hsub.filter _)

/-- Where a device has one entry at most, detaching what is at the top of a path leaves it unmounted
exactly when that entry is there, or there is none. -/
theorem unmounted_detach_iff (hone : (entriesOf majorMinor table).length ≤ 1) :
    Unmounted majorMinor (detach path table) ↔
      Unmounted majorMinor table ∨ ∃ a, topmost path table = some a ∧ a.majorMinor = majorMinor := by
  constructor
  · intro hfree
    by_cases hbefore : Unmounted majorMinor table
    · exact .inl hbefore
    · cases htop : topmost path table with
      | none =>
        rw [detach_of_none htop] at hfree
        exact absurd hfree hbefore
      | some a =>
        refine .inr ⟨a, rfl, ?_⟩
        obtain ⟨below, above, htable, hdetach⟩ := detach_topmost htop
        by_contra hother
        refine hbefore ?_
        rw [hdetach] at hfree
        rw [Unmounted, entriesOf, htable, List.filter_append, List.filter_cons_of_neg (by simpa),
          ← List.filter_append]
        exact hfree
  · rintro (hbefore | ⟨a, htop, ha⟩)
    · exact unmounted_sublist (detach_sublist _ _) hbefore
    · obtain ⟨below, above, htable, hdetach⟩ := detach_topmost htop
      rw [entriesOf, htable, List.filter_append, List.filter_cons_of_pos (by simpa)] at hone
      simp only [List.length_append, List.length_cons] at hone
      rw [hdetach, Unmounted, entriesOf, List.filter_append, List.append_eq_nil_iff]
      exact ⟨List.length_eq_zero_iff.mp (by omega), List.length_eq_zero_iff.mp (by omega)⟩

/-- A report that is safe, on a table in which every entry of the target is legible, has one mount
point, and the target has one entry at most, which is mounted there. -/
theorem entries_of_safe (h : ∀ e ∈ entriesOf identity.majorMinor table, e.Legible)
    (hsafe : (inspectMounts identity (some (mountinfo table)) swap processes).safeToUnmount = true) :
    ∃ record, (inspectMounts identity (some (mountinfo table)) swap processes).mounts = [record] ∧
      (entriesOf identity.majorMinor table).map (·.mountPoint) <+ [record.mountPoint] := by
  obtain ⟨record, hmounts⟩ := mounts_of_safe hsafe
  refine ⟨record, hmounts, ?_⟩
  have hsub := mountPoints_sublist h
  rwa [show targetMounts identity (some (mountinfo table)) = [record] from hmounts] at hsub

end Reports

end Ares.FilesystemBroker
