import Mathlib.Data.List.Basic

/-! POSIX paths as lists of components.  The empty list is the root for an absolute path, and the
path itself for a relative one. -/

namespace Data

abbrev Path := List String

/-- The components of a text: `Path(text).parts` without the root. -/
def components (text : String) : Path :=
  ((text.toList.splitOn '/').filter fun part => part ≠ [] && part ≠ ['.']).map String.ofList

def isAbsolute (text : String) : Bool := text.toList.head? = some '/'

/-- `base / text`: an absolute text replaces the base. -/
def Path.join (base : Path) (text : String) : Path :=
  if isAbsolute text then components text else base ++ components text

/-- `as_posix()` of a relative path. -/
def Path.posix (p : Path) : String := String.ofList (['/'].intercalate (p.map String.toList))

/-- `str()` of an absolute path. -/
def Path.str (p : Path) : String := "/" ++ p.posix

/-- The root that a text names: two slashes, and no more, are a root of their own. -/
def rootOf (text : String) : String :=
  if "//".toList.isPrefixOf text.toList && !"///".toList.isPrefixOf text.toList then "//"
  else if isAbsolute text then "/" else ""

/-- `str(Path(text))`. -/
def pathText (text : String) : String :=
  if rootOf text = "" && components text = [] then "."
  else rootOf text ++ Path.posix (components text)

def Named (name : String) : Prop := name ≠ "" ∧ name ≠ "." ∧ '/' ∉ name.toList

instance (name : String) : Decidable (Named name) := by
  unfold Named
  infer_instance

variable {p : Path} {name : String}

theorem Named.toList_ne_nil (h : Named name) : name.toList ≠ [] :=
  fun hnil => h.1 (String.toList_eq_nil_iff.mp hnil)

theorem Named.toList_ne_dot (h : Named name) : name.toList ≠ ['.'] := by
  intro hdot
  apply h.2.1
  rw [← String.ofList_toList (s := name), hdot]

theorem filter_named (h : ∀ name ∈ p, Named name) :
    (p.map String.toList).filter (fun part => part ≠ [] && part ≠ ['.']) = p.map String.toList := by
  rw [List.filter_eq_self]
  intro part hpart
  obtain ⟨name, hname, rfl⟩ := List.mem_map.mp hpart
  simp [(h name hname).toList_ne_nil, (h name hname).toList_ne_dot]

@[simp] theorem components_posix (h : ∀ name ∈ p, Named name) : components p.posix = p := by
  cases p with
  | nil => rfl
  | cons name names =>
    have hslash : ∀ part ∈ (name :: names).map String.toList, '/' ∉ part := by
      intro part hpart
      obtain ⟨n, hn, rfl⟩ := List.mem_map.mp hpart
      exact (h n hn).2.2
    rw [components, Path.posix, String.toList_ofList,
      List.splitOn_intercalate '/' hslash (by simp), filter_named h, List.map_map]
    simp

theorem posix_inj {q : Path} (hp : ∀ name ∈ p, Named name) (hq : ∀ name ∈ q, Named name)
    (h : p.posix = q.posix) : p = q := by
  rw [← components_posix hp, h, components_posix hq]

theorem components_slash (text : String) : components ("/" ++ text) = components text := by
  have hsplit : ("/" ++ text).toList.splitOn '/' = [] :: text.toList.splitOn '/' := by
    simp [String.toList_append, List.splitOn, List.splitOnP_cons_eq_if_modifyHead]
  rw [components, hsplit]
  rfl

@[simp] theorem components_str (h : ∀ name ∈ p, Named name) : components p.str = p := by
  rw [Path.str, components_slash, components_posix h]

theorem Named.components (h : Named name) : components name = [name] := by
  have hposix : Path.posix [name] = name := by
    simp [Path.posix, List.intercalate]
  rw [← hposix]
  exact (components_posix (p := [name]) (by simpa using h)).trans (by rw [hposix])

theorem Named.relative (h : Named name) : isAbsolute name = false := by
  rw [isAbsolute, decide_eq_false_iff_not]
  intro hhead
  exact h.2.2 (List.mem_of_mem_head? hhead)

@[simp] theorem join_name (h : Named name) (base : Path) : base.join name = base ++ [name] := by
  rw [Path.join, h.relative, h.components]
  rfl

theorem Named.append (h : Named name) {text : String} (htext : '/' ∉ text.toList)
    (hdot : text ≠ "") : Named (name ++ text) := by
  have hnil := h.toList_ne_nil
  have htext' : text.toList ≠ [] := fun hnil => hdot (String.toList_eq_nil_iff.mp hnil)
  refine ⟨fun heq => ?_, fun heq => ?_, ?_⟩
  · have := congrArg String.toList heq
    simp [String.toList_append, hnil] at this
  · have hlen := congrArg (fun s : String => s.toList.length) heq
    have h₁ := List.length_pos_of_ne_nil hnil
    have h₂ := List.length_pos_of_ne_nil htext'
    simp only [String.toList_append, List.length_append] at hlen
    have : (".".toList).length = 1 := rfl
    omega
  · simp [String.toList_append, h.2.2, htext]

end Data
