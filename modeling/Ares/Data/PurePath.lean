import Ares.Data.Path
import Ares.Data.Quoted

/-! `PurePosixPath`: the root of a text and its components.  Nothing is resolved, so `..` is a
component like any other. -/

namespace Data

structure PurePath where
  root : String
  parts : Path
deriving DecidableEq

/-- `Path(text)`. -/
def purePath (text : String) : PurePath := ⟨rootOf text, components text⟩

namespace PurePath

def isAbsolute (p : PurePath) : Bool := p.root ≠ ""

/-- `len(path.parts)`. -/
def depth (p : PurePath) : Nat := (if p.root = "" then 0 else 1) + p.parts.length

/-- `path.relative_to(base)` does not raise. -/
def isRelativeTo (path base : PurePath) : Bool :=
  path.root = base.root && base.parts.isPrefixOf path.parts

variable {path p q : PurePath}

theorem isRelativeTo_iff : path.isRelativeTo p = true ↔ path.root = p.root ∧ p.parts <+: path.parts := by
  simp [isRelativeTo]

theorem eq_of_relative (hp : path.isRelativeTo p = true) (hq : path.isRelativeTo q = true)
    (h : p.depth = q.depth) : p = q := by
  obtain ⟨hproot, hpparts⟩ := isRelativeTo_iff.mp hp
  obtain ⟨hqroot, hqparts⟩ := isRelativeTo_iff.mp hq
  have hroot : p.root = q.root := hproot.symm.trans hqroot
  have hlength : p.parts.length = q.parts.length := by
    simp only [depth, hroot] at h
    omega
  have hparts : p.parts = q.parts :=
    (List.prefix_of_prefix_length_le hpparts hqparts (Nat.le_of_eq hlength)).eq_of_length hlength
  cases p
  cases q
  simp_all

end PurePath

/-! ### Normal paths -/

def climb (below : Path) (name : String) : Path :=
  if name = ".." then below.dropLast else below ++ [name]

/-- The path from the root with every `..` taken back. -/
def normalParts (p : Path) : Path := p.foldl climb []

def level (p : Path) : Nat := p.foldl (fun n name => if name = ".." then n - 1 else n + 1) 0

theorem length_normalParts (p : Path) : (normalParts p).length = level p := by
  have hfold : ∀ below : Path, (p.foldl climb below).length =
      p.foldl (fun n name => if name = ".." then n - 1 else n + 1) below.length := by
    induction p with
    | nil => exact fun _ => rfl
    | cons name p ih =>
      intro below
      rw [List.foldl_cons, List.foldl_cons, ih, climb]
      split <;> simp
  exact hfold []

theorem normalParts_ne_nil_iff {p : Path} : normalParts p ≠ [] ↔ 0 < level p := by
  rw [← length_normalParts, List.length_pos_iff]

theorem level_append_name {name : String} (h : name ≠ "..") (p : Path) :
    level (p ++ [name]) = level p + 1 := by
  simp [level, h]

/-- The components of a text from the root on, where the process runs in `cwd`. -/
def fullParts (cwd : Path) (text : String) : Path :=
  if isAbsolute text then components text else cwd ++ components text

def fullPath (cwd : Path) (text : String) : Path := normalParts (fullParts cwd text)

section Texts

variable {text : String} {p : Path} {name : String}

theorem components_append_slash (a b : String) :
    components (a ++ "/" ++ b) = components a ++ components b := by
  have hsplit : (a ++ "/" ++ b).toList.splitOn '/' =
      a.toList.splitOn '/' ++ b.toList.splitOn '/' := by
    have hslash : ('/' == '/') = true := rfl
    simpa [String.toList_append, List.splitOn] using
      List.splitOnP_append_cons (p := (· == '/')) a.toList b.toList hslash
  rw [components, hsplit, List.filter_append, List.map_append]
  rfl

theorem named_components (text : String) : ∀ part ∈ components text, Named part := by
  intro part hpart
  obtain ⟨piece, hpiece, rfl⟩ := List.mem_map.mp hpart
  obtain ⟨hsplit, hkept⟩ := List.mem_filter.mp hpiece
  simp only [ne_eq, Bool.and_eq_true, decide_eq_true_eq] at hkept
  refine ⟨fun hnil => hkept.1 ?_, fun hdot => hkept.2 ?_, ?_⟩
  · simpa using congrArg String.toList hnil
  · simpa using congrArg String.toList hdot
  · rw [String.toList_ofList]
    exact not_mem_of_mem_splitOn hsplit

theorem components_pathText (text : String) : components (pathText text) = components text := by
  have hposix : components (Path.posix (components text)) = components text :=
    components_posix (named_components text)
  rw [pathText]
  split
  · next h =>
    rw [Bool.and_eq_true, decide_eq_true_eq, decide_eq_true_eq] at h
    rw [h.2]
    rfl
  · rw [rootOf]
    split
    · rw [show "//" = "/" ++ "/" from rfl, String.append_assoc, components_slash, components_slash,
        hposix]
    · split
      · rw [components_slash, hposix]
      · rw [String.empty_append, hposix]

theorem isAbsolute_of_rootOf (text : String) : isAbsolute text = !decide (rootOf text = "") := by
  rw [rootOf]
  split
  · next h =>
    obtain ⟨rest, hrest⟩ := List.isPrefixOf_iff_prefix.mp (Bool.and_eq_true _ _ ▸ h).1
    have habsolute : isAbsolute text = true := by
      rw [isAbsolute, ← hrest]
      rfl
    rw [habsolute]
    rfl
  · split
    · next h =>
      rw [h]
      rfl
    · next h =>
      rw [Bool.eq_false_iff.mpr h]
      rfl

theorem isAbsolute_posix (h : ∀ name ∈ p, Named name) : isAbsolute p.posix = false := by
  cases p with
  | nil => rfl
  | cons name names =>
    have hname := h name List.mem_cons_self
    obtain ⟨c, cs, hcs⟩ := List.exists_cons_of_ne_nil hname.toList_ne_nil
    have hc : c ≠ '/' := fun heq => hname.2.2 (by rw [hcs, heq]; exact List.mem_cons_self)
    cases names <;> simp [isAbsolute, Path.posix, List.intercalate, hcs, hc]

theorem isAbsolute_pathText (text : String) : isAbsolute (pathText text) = isAbsolute text := by
  have hposix := isAbsolute_posix (named_components text)
  rw [isAbsolute_of_rootOf text, pathText]
  split
  · next h =>
    rw [Bool.and_eq_true, decide_eq_true_eq] at h
    rw [h.1]
    rfl
  · rw [rootOf]
    split
    · simp [isAbsolute, String.toList_append]
    · split
      · simp [isAbsolute, String.toList_append]
      · simpa using hposix

theorem fullPath_pathText (cwd : Path) (text : String) :
    fullPath cwd (pathText text) = fullPath cwd text := by
  rw [fullPath, fullPath, fullParts, fullParts, isAbsolute_pathText, components_pathText]

theorem components_str_concat (h : Named name) (p : Path) :
    components (Path.str (p ++ [name])) = components (Path.posix p) ++ [name] := by
  rw [Path.str, components_slash]
  cases p with
  | nil =>
    have hposix : Path.posix [name] = name := by simp [Path.posix, List.intercalate]
    rw [List.nil_append, hposix, h.components]
    rfl
  | cons first rest =>
    have hposix : Path.posix ((first :: rest) ++ [name]) =
        Path.posix (first :: rest) ++ "/" ++ name := by
      apply String.toList_inj.mp
      simp only [Path.posix, String.toList_ofList, String.toList_append, List.map_append]
      induction rest generalizing first with
      | nil => simp [List.intercalate]
      | cons second rest ih => simpa [List.intercalate] using ih second
    rw [hposix, components_append_slash, h.components]

end Texts

end Data
