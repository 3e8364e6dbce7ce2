import Mathlib.Algebra.BigOperators.Finprod
import Mathlib.Data.Set.Card

/-! `_measure_tree`: the sizes of the files of a tree, as far as a number of entries allows. -/

namespace Ares.Diagnostics

inductive FileKind
  | regular | directory | symlink | other
deriving DecidableEq

structure Stat where
  device : Nat
  kind : FileKind
  size : Nat
deriving DecidableEq

/-- The files while a tree is measured; a path is the list of its names. -/
structure Files (Name : Type*) where
  /-- `stat(follow_symlinks=False)`; `none` where it raises. -/
  lstat : List Name → Option Stat
  /-- `os.scandir`, which follows a link; `none` where it raises. -/
  scandir : List Name → Option (List Name)
  distinct : ∀ path names, scandir path = some names → names.Nodup

structure TreeMeasurement where
  sizeBytes : Nat
  entries : Nat
  truncated : Bool
deriving DecidableEq

/-- The variables of the loop, the top of the stack first, and the directories that were listed. -/
structure Measuring (Name : Type*) where
  total : Nat
  entries : Nat
  truncated : Bool
  stack : List (List Name)
  scanned : List (List Name)

variable {Name : Type*} (files : Files Name) (rootDevice maxEntries : Nat)

def addEntry (path : List Name) (m : Measuring Name) : Measuring Name :=
  match files.lstat path with
  | none => m
  | some info =>
    if info.device ≠ rootDevice ∨ info.kind = .symlink then m
    else
      match info.kind with
      | .regular => { m with total := m.total + max 0 info.size }
      | .directory => { m with stack := path :: m.stack }
      | _ => m

def visitEntries (current : List Name) : List Name → Measuring Name → Measuring Name
  | [], m => m
  | name :: names, m =>
    let m := { m with entries := m.entries + 1 }
    if maxEntries < m.entries then { m with truncated := true, stack := [] }
    else visitEntries current names (addEntry files rootDevice (current ++ [name]) m)

/-- The loop over the stack, for a number of rounds; `none` where it goes on. -/
def measureLoop : Nat → Measuring Name → Option (Measuring Name)
  | 0, _ => none
  | rounds + 1, m =>
    match m.stack with
    | [] => some m
    | current :: stack =>
      let m := { m with stack, scanned := current :: m.scanned }
      match files.scandir current with
      | none => measureLoop rounds m
      | some names =>
        measureLoop rounds (visitEntries files rootDevice maxEntries current names m)

/-- The loop from the root, for two rounds more than entries may be counted. -/
def measureRun (path : List Name) : Option (Measuring Name) :=
  measureLoop files rootDevice maxEntries (maxEntries + 2) ⟨0, 0, false, [path], []⟩

/-- `_measure_tree`; the outer `none` is a loop that goes on. -/
def measureTree (path : List Name) : Option (Option TreeMeasurement) :=
  match files.lstat path with
  | none => some none
  | some initial =>
    if initial.kind ≠ .directory ∨ initial.device ≠ rootDevice then some none
    else
      (measureRun files rootDevice maxEntries path).map fun m =>
        some ⟨m.total, min m.entries maxEntries, m.truncated⟩

/-! ### The tree -/

/-- The entries of a directory; one that cannot be read is empty. -/
def Files.names (path : List Name) : List Name := (files.scandir path).getD []

/-- The path is a directory of the device, and no link. -/
def isDirectory (path : List Name) : Bool :=
  match files.lstat path with
  | none => false
  | some info => info.device = rootDevice && info.kind = .directory

/-- The directories below the root that are reached through directories of its device. -/
inductive Walked (root : List Name) : List Name → Prop
  | root : Walked root root
  | entry {directory : List Name} {name : Name} : Walked root directory →
      name ∈ files.names directory → isDirectory files rootDevice (directory ++ [name]) →
      Walked root (directory ++ [name])

/-- The entries of the directories that are reached. -/
def Listed (root : List Name) : Set (List Name) :=
  {path | ∃ directory name, Walked files rootDevice root directory ∧
    name ∈ files.names directory ∧ path = directory ++ [name]}

/-- The size of a regular file of the device. -/
def fileSize (path : List Name) : Nat :=
  match files.lstat path with
  | none => 0
  | some info => if info.device = rootDevice ∧ info.kind = .regular then info.size else 0

variable {files rootDevice maxEntries}

theorem Files.names_nodup (path : List Name) : (files.names path).Nodup := by
  rw [Files.names]
  cases h : files.scandir path with
  | none => exact List.nodup_nil
  | some names => exact files.distinct path names h

theorem Walked.length_le {root path : List Name} (h : Walked files rootDevice root path) :
    root.length ≤ path.length := by
  induction h with
  | root => exact le_rfl
  | entry _ _ _ ih =>
    rw [List.length_append]
    omega

/-! ### One directory -/

theorem addEntry_eq (path : List Name) (m : Measuring Name) :
    addEntry files rootDevice path m = { m with
      total := m.total + fileSize files rootDevice path
      stack := [path].filter (isDirectory files rootDevice) ++ m.stack } := by
  unfold addEntry fileSize
  cases hlstat : files.lstat path with
  | none => simp [isDirectory, hlstat]
  | some info =>
    obtain ⟨device, kind, size⟩ := info
    by_cases hdevice : device = rootDevice
    · cases kind <;> simp [isDirectory, hlstat, hdevice]
    · simp [isDirectory, hlstat, hdevice]

theorem visitEntries_fits {current : List Name} {names : List Name} {m : Measuring Name}
    (h : m.entries + names.length ≤ maxEntries) :
    visitEntries files rootDevice maxEntries current names m = { m with
      total := m.total + ((names.map (current ++ [·])).map (fileSize files rootDevice)).sum
      entries := m.entries + names.length
      stack := ((names.map (current ++ [·])).filter (isDirectory files rootDevice)).reverse ++ m.stack } := by
  induction names generalizing m with
  | nil => simp [visitEntries]
  | cons name names ih =>
    rw [List.length_cons] at h
    rw [visitEntries, if_neg (by dsimp only; omega), addEntry_eq, ih (by dsimp only; omega)]
    simp only [List.map_cons, List.sum_cons, List.length_cons, List.filter_cons, List.filter_nil]
    cases isDirectory files rootDevice (current ++ [name]) <;>
      simp [Nat.add_assoc, Nat.add_comm names.length]

theorem visitEntries_overflows {current : List Name} {names : List Name} {m : Measuring Name}
    (hm : m.entries ≤ maxEntries) (h : maxEntries < m.entries + names.length) :
    ∃ front name back, names = front ++ name :: back ∧ m.entries + front.length = maxEntries ∧
      visitEntries files rootDevice maxEntries current names m = { m with
        total := m.total + ((front.map (current ++ [·])).map (fileSize files rootDevice)).sum
        entries := maxEntries + 1
        truncated := true
        stack := [] } := by
  induction names generalizing m with
  | nil =>
    rw [List.length_nil] at h
    omega
  | cons name names ih =>
    rw [List.length_cons] at h
    by_cases hfull : m.entries = maxEntries
    · refine ⟨[], name, names, rfl, hfull, ?_⟩
      rw [visitEntries, if_pos (by dsimp only; omega)]
      simp [hfull]
    · obtain ⟨front, next, back, rfl, hfront, heq⟩ := ih
        (m := addEntry files rootDevice (current ++ [name]) { m with entries := m.entries + 1 })
        (by rw [addEntry_eq]; dsimp only; omega) (by rw [addEntry_eq]; dsimp only; omega)
      rw [addEntry_eq] at hfront heq
      dsimp only at hfront heq
      refine ⟨name :: front, next, back, rfl, by rw [List.length_cons]; omega, ?_⟩
      rw [visitEntries, if_neg (by dsimp only; omega), addEntry_eq, heq]
      simp [Nat.add_assoc]

/-! ### The loop -/

variable {root : List Name} {m : Measuring Name} {seen : List (List Name)}

/-- Between two directories: `seen` are the entries that were counted. -/
structure Measured (files : Files Name) (rootDevice maxEntries : Nat) (root : List Name)
    (seen : List (List Name)) (m : Measuring Name) : Prop where
  nodup : seen.Nodup
  children : ∀ path, path ∈ seen ↔
    ∃ directory ∈ m.scanned, ∃ name ∈ files.names directory, path = directory ++ [name]
  entries : m.entries = seen.length
  bound : m.entries ≤ maxEntries
  total : m.total = (seen.map (fileSize files rootDevice)).sum
  truncated : m.truncated = false
  distinct : (m.stack ++ m.scanned).Nodup
  walked : ∀ directory ∈ m.stack ++ m.scanned, Walked files rootDevice root directory
  origin : ∀ directory ∈ m.stack ++ m.scanned, directory = root ∨ directory ∈ seen
  root_mem : root ∈ m.stack ++ m.scanned
  found : ∀ path ∈ seen, isDirectory files rootDevice path → path ∈ m.stack ++ m.scanned

/-- What the loop ends with: it has counted all entries, or as many as allowed while there are
more. -/
structure Finished (files : Files Name) (rootDevice maxEntries : Nat) (root : List Name)
    (seen : List (List Name)) (m : Measuring Name) : Prop where
  nodup : seen.Nodup
  listed : ∀ path ∈ seen, path ∈ Listed files rootDevice root
  total : m.total = (seen.map (fileSize files rootDevice)).sum
  walked : ∀ directory ∈ m.scanned, Walked files rootDevice root directory
  verdict : m.truncated = false ∧ m.entries = seen.length ∧ seen.length ≤ maxEntries ∧
      (∀ path ∈ Listed files rootDevice root, path ∈ seen) ∨
    m.truncated = true ∧ m.entries = maxEntries + 1 ∧ seen.length = maxEntries ∧
      ∃ path ∈ Listed files rootDevice root, path ∉ seen

theorem measured_start : Measured files rootDevice maxEntries root [] ⟨0, 0, false, [root], []⟩ where
  nodup := List.nodup_nil
  children := by simp
  entries := rfl
  bound := Nat.zero_le _
  total := rfl
  truncated := rfl
  distinct := List.nodup_singleton root
  walked directory h := by
    obtain rfl := List.mem_singleton.mp h
    exact .root
  origin directory h := .inl (List.mem_singleton.mp h)
  root_mem := List.mem_singleton_self root
  found := by simp

theorem visited_eq (rootDevice : Nat) (current : List Name) (stack : List (List Name))
    (hfits : m.entries + (files.names current).length ≤ maxEntries) :
    visitEntries files rootDevice maxEntries current (files.names current)
        { m with stack, scanned := current :: m.scanned } =
      { m with
        total := m.total + (((files.names current).map (current ++ [·])).map
          (fileSize files rootDevice)).sum
        entries := m.entries + (files.names current).length
        stack := (((files.names current).map (current ++ [·])).filter
          (isDirectory files rootDevice)).reverse ++ stack
        scanned := current :: m.scanned } :=
  visitEntries_fits hfits

namespace Measured

variable (h : Measured files rootDevice maxEntries root seen m)

include h

theorem listed : ∀ path ∈ seen, path ∈ Listed files rootDevice root := by
  intro path hpath
  obtain ⟨directory, hdirectory, name, hname, rfl⟩ := (h.children path).mp hpath
  exact ⟨directory, name, h.walked directory (List.mem_append_right _ hdirectory), hname, rfl⟩

theorem length_scanned_le : (m.stack ++ m.scanned).length ≤ maxEntries + 1 := by
  have hsubset : m.stack ++ m.scanned ⊆ root :: seen := by
    intro directory hdirectory
    rcases h.origin directory hdirectory with rfl | hseen
    · exact List.mem_cons_self
    · exact List.mem_cons_of_mem _ hseen
  have hlength := (h.distinct.subperm hsubset).length_le
  have := h.entries
  have := h.bound
  rw [List.length_cons] at hlength
  omega

theorem finished (hstack : m.stack = []) :
    Finished files rootDevice maxEntries root seen m where
  nodup := h.nodup
  listed := h.listed
  total := h.total
  walked directory hdirectory := h.walked directory (List.mem_append_right _ hdirectory)
  verdict := by
    have hall : ∀ directory, Walked files rootDevice root directory → directory ∈ m.scanned := by
      intro directory hwalked
      induction hwalked with
      | root => simpa [hstack] using h.root_mem
      | entry _ hname hdirectory ih =>
        have hseen := (h.children _).mpr ⟨_, ih, _, hname, rfl⟩
        simpa [hstack] using h.found _ hseen hdirectory
    refine .inl ⟨h.truncated, h.entries, h.entries ▸ h.bound, ?_⟩
    rintro path ⟨directory, name, hwalked, hname, rfl⟩
    exact (h.children _).mpr ⟨directory, hall directory hwalked, name, hname, rfl⟩

section Pop

variable {current : List Name} {stack : List (List Name)} (hstack : m.stack = current :: stack)

include hstack

theorem current_walked : Walked files rootDevice root current :=
  h.walked current (by simp [hstack])

theorem fresh (name : Name) : current ++ [name] ∉ seen := by
  intro hseen
  obtain ⟨directory, hdirectory, other, -, heq⟩ := (h.children _).mp hseen
  obtain ⟨rfl, -⟩ := List.append_inj' heq rfl
  have hdistinct := h.distinct
  rw [hstack, List.cons_append, List.nodup_cons] at hdistinct
  exact hdistinct.1 (List.mem_append_right _ hdirectory)

theorem nodup_append {names : List Name} (hnames : names.Nodup) :
    (names.map (current ++ [·]) ++ seen).Nodup := by
  refine List.nodup_append.mpr ⟨hnames.map fun a b hab => ?_, h.nodup, ?_⟩
  · exact List.singleton_inj.mp (List.append_cancel_left hab)
  · rintro path hpath other hother rfl
    obtain ⟨name, -, rfl⟩ := List.mem_map.mp hpath
    exact h.fresh hstack name hother

theorem entry_listed {name : Name} (hname : name ∈ files.names current) :
    current ++ [name] ∈ Listed files rootDevice root :=
  ⟨current, name, h.current_walked hstack, hname, rfl⟩

/-- A directory was visited to its end. -/
theorem visited (hfits : m.entries + (files.names current).length ≤ maxEntries) :
    Measured files rootDevice maxEntries root
      ((files.names current).map (current ++ [·]) ++ seen)
      (visitEntries files rootDevice maxEntries current (files.names current)
        { m with stack, scanned := current :: m.scanned }) := by
  rw [visited_eq rootDevice current stack hfits]
  set entries := (files.names current).map (current ++ [·]) with hentries
  set subdirectories := entries.filter (isDirectory files rootDevice) with hsub
  have hreached : m.stack ++ m.scanned = current :: (stack ++ m.scanned) := by
    rw [hstack, List.cons_append]
  -- what is on the stack or was listed now are the new directories and what it was before
  have hperm : (subdirectories.reverse ++ stack ++ current :: m.scanned).Perm
      (subdirectories ++ (m.stack ++ m.scanned)) := by
    rw [hreached, List.append_assoc]
    exact (List.reverse_perm subdirectories).append List.perm_middle
  have hmem : ∀ path, path ∈ subdirectories.reverse ++ stack ++ current :: m.scanned ↔
      path ∈ subdirectories ∨ path ∈ m.stack ++ m.scanned := fun path => by
    rw [hperm.mem_iff, List.mem_append]
  have hnew : ∀ path ∈ entries, path ∉ seen ∧ path ≠ root := by
    intro path hpath
    obtain ⟨name, -, rfl⟩ := List.mem_map.mp hpath
    refine ⟨h.fresh hstack name, fun heq => ?_⟩
    have hlength := (h.current_walked hstack).length_le
    rw [← heq, List.length_append, List.length_singleton] at hlength
    omega
  have hnodup := h.nodup_append hstack (files.names_nodup current)
  refine ⟨hnodup, fun path => ?_, ?_, ?_, ?_, h.truncated, ?_, fun path hpath => ?_,
    fun path hpath => ?_, (hmem root).mpr (.inr h.root_mem), fun path hpath hdirectory => ?_⟩
  · rw [List.mem_append, h.children]
    dsimp only
    simp only [List.mem_cons, exists_eq_or_imp]
    refine or_congr_left ?_
    simp only [hentries, List.mem_map, eq_comm]
  · dsimp only
    rw [List.length_append, List.length_map, h.entries, Nat.add_comm]
  · exact hfits
  · dsimp only
    rw [List.map_append, List.sum_append, h.total, Nat.add_comm]
  · rw [hperm.nodup_iff, List.nodup_append]
    refine ⟨(List.nodup_append.mp hnodup).1.filter _, h.distinct, ?_⟩
    rintro path hpath other hother rfl
    obtain ⟨hunseen, hroot⟩ := hnew path (List.mem_of_mem_filter hpath)
    rcases h.origin path hother with heq | hseen
    · exact hroot heq
    · exact hunseen hseen
  · rcases (hmem path).mp hpath with hpath | hpath
    · obtain ⟨hentry, hdirectory⟩ := List.mem_filter.mp hpath
      obtain ⟨name, hname, rfl⟩ := List.mem_map.mp hentry
      exact .entry (h.current_walked hstack) hname hdirectory
    · exact h.walked path hpath
  · rcases (hmem path).mp hpath with hpath | hpath
    · exact .inr (List.mem_append_left _ (List.mem_of_mem_filter hpath))
    · exact (h.origin path hpath).imp_right (List.mem_append_right _)
  · refine (hmem path).mpr ?_
    rcases List.mem_append.mp hpath with hpath | hpath
    · exact .inl (List.mem_filter.mpr ⟨hpath, hdirectory⟩)
    · exact .inr (h.found path hpath hdirectory)

theorem left (hover : maxEntries < m.entries + (files.names current).length) :
    ∃ seen', Finished files rootDevice maxEntries root seen'
        (visitEntries files rootDevice maxEntries current (files.names current)
          { m with stack, scanned := current :: m.scanned }) ∧
      (visitEntries files rootDevice maxEntries current (files.names current)
        { m with stack, scanned := current :: m.scanned }).stack = [] := by
  obtain ⟨front, name, back, hnames, hlength, heq⟩ :=
    visitEntries_overflows (m := { m with stack, scanned := current :: m.scanned }) h.bound hover
  have hnodup := files.names_nodup current
  rw [hnames, List.nodup_append, List.nodup_cons] at hnodup
  have hname : name ∈ files.names current := by simp [hnames]
  have hfront : ∀ other ∈ front, other ∈ files.names current := by
    intro other hother
    simp [hnames, hother]
  rw [heq]
  refine ⟨front.map (current ++ [·]) ++ seen, ⟨h.nodup_append hstack hnodup.1, ?_, ?_, ?_, ?_⟩, rfl⟩
  · intro path hpath
    rcases List.mem_append.mp hpath with hpath | hpath
    · obtain ⟨other, hother, rfl⟩ := List.mem_map.mp hpath
      exact h.entry_listed hstack (hfront other hother)
    · exact h.listed path hpath
  · dsimp only
    rw [List.map_append, List.sum_append, h.total, Nat.add_comm]
  · intro directory hdirectory
    rcases List.mem_cons.mp hdirectory with rfl | hdirectory
    · exact h.current_walked hstack
    · exact h.walked directory (List.mem_append_right _ hdirectory)
  · have := h.entries
    dsimp only at hlength
    refine .inr ⟨rfl, rfl, by rw [List.length_append, List.length_map]; omega,
      current ++ [name], h.entry_listed hstack hname, fun hmem => ?_⟩
    rcases List.mem_append.mp hmem with hmem | hmem
    · obtain ⟨other, hother, hsame⟩ := List.mem_map.mp hmem
      obtain rfl : other = name := List.singleton_inj.mp (List.append_cancel_left hsame)
      exact hnodup.2.2 other hother other List.mem_cons_self rfl
    · exact h.fresh hstack name hmem

end Pop

end Measured

theorem measureLoop_nil (rounds : Nat) (h : m.stack = []) :
    measureLoop files rootDevice maxEntries (rounds + 1) m = some m := by
  rw [measureLoop, h]

theorem measureLoop_cons (rounds : Nat) {current : List Name} {stack : List (List Name)}
    (h : m.stack = current :: stack) :
    measureLoop files rootDevice maxEntries (rounds + 1) m =
      measureLoop files rootDevice maxEntries rounds
        (visitEntries files rootDevice maxEntries current (files.names current)
          { m with stack, scanned := current :: m.scanned }) := by
  rw [measureLoop, h]
  dsimp only
  rw [Files.names]
  cases files.scandir current with
  | none => rfl
  | some names => rfl

/-- Each round takes a directory from the stack and there are at most one more of them than entries
may be counted, so the loop ends. -/
theorem measureLoop_finished {rounds : Nat} (h : Measured files rootDevice maxEntries root seen m)
    (hrounds : maxEntries + 2 ≤ rounds + m.scanned.length) :
    ∃ m' seen', measureLoop files rootDevice maxEntries rounds m = some m' ∧
      Finished files rootDevice maxEntries root seen' m' := by
  have hlength := h.length_scanned_le
  rw [List.length_append] at hlength
  induction rounds generalizing m seen with
  | zero => omega
  | succ rounds ih =>
    cases hstack : m.stack with
    | nil => exact ⟨m, seen, measureLoop_nil rounds hstack, h.finished hstack⟩
    | cons current stack =>
      rw [measureLoop_cons rounds hstack]
      by_cases hfits : m.entries + (files.names current).length ≤ maxEntries
      · have hnext := h.visited hstack hfits
        have hnextLength := hnext.length_scanned_le
        rw [List.length_append] at hnextLength
        refine ih hnext ?_ hnextLength
        have hscanned := congrArg Measuring.scanned (visited_eq rootDevice current stack hfits)
        rw [hscanned, List.length_cons]
        omega
      · obtain ⟨seen', hfinished, hempty⟩ := h.left hstack (Nat.lt_of_not_le hfits)
        rw [hstack, List.length_cons] at hlength
        obtain ⟨rounds, rfl⟩ : ∃ k, rounds = k + 1 := ⟨rounds - 1, by omega⟩
        exact ⟨_, seen', measureLoop_nil rounds hempty, hfinished⟩

theorem measureRun_finished (files : Files Name) (rootDevice maxEntries : Nat) (root : List Name) :
    ∃ m seen, measureRun files rootDevice maxEntries root = some m ∧
      Finished files rootDevice maxEntries root seen m :=
  measureLoop_finished measured_start (by simp)

/-! ### What is measured -/

open scoped Classical in
theorem Finished.total_le (h : Finished files rootDevice maxEntries root seen m)
    (hfinite : (Listed files rootDevice root).Finite) :
    m.total ≤ ∑ᶠ path ∈ Listed files rootDevice root, fileSize files rootDevice path := by
  rw [h.total, ← List.sum_toFinset _ h.nodup, finsum_mem_eq_finite_toFinset_sum _ hfinite]
  refine Finset.sum_le_sum_of_subset fun path hpath => ?_
  rw [Set.Finite.mem_toFinset]
  exact h.listed path (List.mem_toFinset.mp hpath)

open scoped Classical in
theorem Finished.exact (h : Finished files rootDevice maxEntries root seen m)
    (hall : ∀ path ∈ Listed files rootDevice root, path ∈ seen) :
    (Listed files rootDevice root).ncard = seen.length ∧
      m.total = ∑ᶠ path ∈ Listed files rootDevice root, fileSize files rootDevice path := by
  have hset : Listed files rootDevice root = (seen.toFinset : Set (List Name)) := by
    ext path
    rw [Finset.mem_coe, List.mem_toFinset]
    exact ⟨hall path, h.listed path⟩
  rw [hset, Set.ncard_coe_finset, List.toFinset_card_of_nodup h.nodup, finsum_mem_coe_finset,
    List.sum_toFinset _ h.nodup]
  exact ⟨rfl, h.total⟩

open scoped Classical in
theorem Finished.length_lt (h : Finished files rootDevice maxEntries root seen m)
    (hfinite : (Listed files rootDevice root).Finite)
    (hmore : ∃ path ∈ Listed files rootDevice root, path ∉ seen) :
    seen.length < (Listed files rootDevice root).ncard := by
  obtain ⟨path, hpath, hunseen⟩ := hmore
  rw [← List.toFinset_card_of_nodup h.nodup, ← Set.ncard_coe_finset]
  refine Set.ncard_lt_ncard ⟨fun other hother => h.listed other ?_, fun hsubset => hunseen ?_⟩ hfinite
  · exact List.mem_toFinset.mp (Finset.mem_coe.mp hother)
  · exact List.mem_toFinset.mp (Finset.mem_coe.mp (hsubset hpath))

/-- The loop ends and lists only directories of the root's device that are reached without a link.
With no more entries than allowed the measurement is exact; otherwise it is truncated at that number
and not more than the exact sum. -/
theorem measure_tree_exact (files : Files Name) (rootDevice maxEntries : Nat) (root : List Name)
    (hroot : isDirectory files rootDevice root = true)
    (hfinite : (Listed files rootDevice root).Finite) :
    (∃ m, measureRun files rootDevice maxEntries root = some m ∧
      ∀ directory ∈ m.scanned, Walked files rootDevice root directory) ∧
    ∃ r, measureTree files rootDevice maxEntries root = some (some r) ∧
      ((Listed files rootDevice root).ncard ≤ maxEntries →
        r.truncated = false ∧ r.entries = (Listed files rootDevice root).ncard ∧
          r.sizeBytes = ∑ᶠ path ∈ Listed files rootDevice root, fileSize files rootDevice path) ∧
      (maxEntries < (Listed files rootDevice root).ncard →
        r.truncated = true ∧ r.entries = maxEntries ∧
          r.sizeBytes ≤ ∑ᶠ path ∈ Listed files rootDevice root, fileSize files rootDevice path) := by
  obtain ⟨m, seen, hrun, hfinished⟩ := measureRun_finished files rootDevice maxEntries root
  have htree : measureTree files rootDevice maxEntries root =
      some (some ⟨m.total, min m.entries maxEntries, m.truncated⟩) := by
    unfold isDirectory at hroot
    unfold measureTree
    split at hroot
    · cases hroot
    · next info hlstat =>
      simp only [Bool.and_eq_true, decide_eq_true_eq] at hroot
      simp [hroot, hrun]
  refine ⟨⟨m, hrun, hfinished.walked⟩, _, htree, fun hle => ?_, fun hlt => ?_⟩
  · rcases hfinished.verdict with ⟨htruncated, hentries, hlength, hall⟩ | ⟨-, -, hlength, hmore⟩
    · obtain ⟨hcard, htotal⟩ := hfinished.exact hall
      exact ⟨htruncated, by dsimp only; omega, htotal⟩
    · have := hfinished.length_lt hfinite hmore
      omega
  · rcases hfinished.verdict with ⟨-, -, hlength, hall⟩ | ⟨htruncated, hentries, -, -⟩
    · have := (hfinished.exact hall).1
      omega
    · exact ⟨htruncated, by dsimp only; omega, hfinished.total_le hfinite⟩

/-! ### A tree with a link, a mount point and an entry that is gone -/

def sampleStats : List (List String × Stat) :=
  [([], ⟨1, .directory, 0⟩), (["file"], ⟨1, .regular, 5⟩), (["link"], ⟨1, .symlink, 9⟩),
    (["mount"], ⟨2, .directory, 0⟩), (["sub"], ⟨1, .directory, 0⟩),
    (["sub", "file"], ⟨1, .regular, 7⟩)]

def sampleListings : List (List String × List String) :=
  [([], ["file", "link", "mount", "gone", "sub"]), (["link"], ["link"]), (["mount"], ["disk"]),
    (["sub"], ["file"])]

def sampleFiles : Files String where
  lstat path := (sampleStats.find? (·.1 = path)).map (·.2)
  scandir path := (sampleListings.find? (·.1 = path)).map (·.2)
  distinct path names h := by
    have hall : ∀ listing ∈ sampleListings, listing.2.Nodup := by decide
    obtain ⟨listing, hlisting, rfl⟩ := Option.map_eq_some_iff.mp h
    exact hall listing (List.mem_of_find?_eq_some hlisting)

theorem sample_walked {path : List String} (h : Walked sampleFiles 1 [] path) :
    path ∈ [[], ["sub"]] := by
  induction h with
  | root => exact List.mem_cons_self
  | @entry directory name _ hname hdirectory ih =>
    have hall : ∀ directory ∈ [[], ["sub"]], ∀ name ∈ sampleFiles.names directory,
        isDirectory sampleFiles 1 (directory ++ [name]) = true → directory ++ [name] ∈ [[], ["sub"]] := by
      decide
    exact hall directory ih name hname hdirectory

theorem sample_finite : (Listed sampleFiles 1 []).Finite := by
  refine (List.finite_toSet ([[], ["sub"]].flatMap fun directory =>
    (sampleFiles.names directory).map (directory ++ [·]))).subset ?_
  rintro path ⟨directory, name, hwalked, hname, rfl⟩
  exact List.mem_flatMap.mpr ⟨directory, sample_walked hwalked, List.mem_map.mpr ⟨name, hname, rfl⟩⟩

theorem measure_tree_sample : measureTree sampleFiles 1 6 [] = some (some ⟨12, 6, false⟩) ∧
      measureTree sampleFiles 1 5 [] = some (some ⟨5, 5, true⟩) ∧
      (Listed sampleFiles 1 []).ncard = 6 := by
  have hsix : measureTree sampleFiles 1 6 [] = some (some ⟨12, 6, false⟩) := by decide +kernel
  refine ⟨hsix, by decide +kernel, ?_⟩
  obtain ⟨-, r, hr, hexact, hover⟩ :=
    measure_tree_exact sampleFiles 1 6 [] (by decide +kernel) sample_finite
  rw [hsix] at hr
  obtain rfl := Option.some.inj (Option.some.inj hr)
  by_cases hle : (Listed sampleFiles 1 []).ncard ≤ 6
  · exact (hexact hle).2.1.symm
  · cases (hover (Nat.lt_of_not_le hle)).1

end Ares.Diagnostics
