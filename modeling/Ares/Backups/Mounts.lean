import Mathlib.Data.Finset.Dedup
import Mathlib.Data.List.MinMax
import Ares.Backups.Tools
import Ares.Data.Lines
import Ares.Data.PurePath

/-! The mounts that `mountinfo` lists, and the one that `_mount_for` takes for a path.  Of the mounts
nearest above a path the kernel shows the last one listed; `max` takes the first. -/

namespace Ares.Backups

open Data

/-- `_MountInfo`. -/
structure Mount where
  deviceId : String
  mountPoint : PurePath
  filesystemType : String
  source : String
  options : Finset String
deriving DecidableEq

/-- `_decode_mount`, the same four replacements. -/
def decodeMount (value : String) : String := unescapeMount value

/-- `_parse_mountinfo`. -/
def parseMountinfo (line : List Char) : Option Mount :=
  match cut " - ".toList line with
  | none => none
  | some (left, right) =>
    let fields := wordsOf left
    let tail := wordsOf right
    let mountPoint := purePath (decodeMount (fields.getD 4 ""))
    if fields.length < 6 || tail.length < 2 || !mountPoint.isAbsolute then none
    else some {
      deviceId := fields.getD 2 ""
      mountPoint
      filesystemType := tail.getD 0 ""
      source := decodeMount (tail.getD 1 "")
      options := (((fields.getD 5 "").toList.splitOn ',').map String.ofList).toFinset }

def parsedMounts (text : String) : List Mount := (textLines text).filterMap parseMountinfo

def candidates (text : String) (path : PurePath) : List Mount :=
  (parsedMounts text).filter fun m => path.isRelativeTo m.mountPoint

/-- `_mount_for`, where `mountinfo` can be read. -/
def mountForIn (text : String) (path : PurePath) : Option Mount :=
  (candidates text path).argmax (·.mountPoint.depth)

/-- The candidates with the longest mount point. -/
def nearest (text : String) (path : PurePath) : List Mount :=
  (candidates text path).filter fun m =>
    (candidates text path).all fun other => other.mountPoint.depth ≤ m.mountPoint.depth

/-- The mount that the path resolves to: of the nearest mounts, the one listed last. -/
def visibleMount (text : String) (path : PurePath) : Option Mount := (nearest text path).getLast?

section Argmax

variable {α : Type} [DecidableEq α]

theorem argmax_eq_head? (f : α → Nat) (l : List α) :
    l.argmax f = (l.filter fun a => l.all fun b => f b ≤ f a).head? := by
  rw [List.head?_filter]
  cases hmax : l.argmax f with
  | none =>
    rw [List.argmax_eq_none.mp hmax]
    rfl
  | some m =>
    obtain ⟨hm, hle, hfirst⟩ := List.mem_argmax_iff.mp hmax
    have hgreatest : (l.all fun b => f b ≤ f m) = true := by simpa using hle
    symm
    rw [List.find?_eq_some_iff_append]
    obtain ⟨as, bs, hl, has⟩ := List.eq_append_cons_of_mem hm
    refine ⟨hgreatest, as, bs, hl, fun a ha => ?_⟩
    rw [Bool.not_eq_true', ← Bool.not_eq_true]
    intro hall
    have hal : a ∈ l := hl ▸ List.mem_append_left _ ha
    have hidx := hfirst a hal (by simpa using (List.all_eq_true.mp hall) m hm)
    rw [hl, List.idxOf_append_of_notMem has, List.idxOf_append_of_mem ha] at hidx
    have := List.idxOf_lt_length_of_mem ha
    omega

end Argmax

variable {text : String} {path : PurePath}

theorem mem_nearest {m : Mount} : m ∈ nearest text path ↔ m ∈ candidates text path ∧
    ∀ other ∈ candidates text path, other.mountPoint.depth ≤ m.mountPoint.depth := by
  simp [nearest]

theorem nearest_mountPoint {m m' : Mount} (h : m ∈ nearest text path)
    (h' : m' ∈ nearest text path) : m.mountPoint = m'.mountPoint := by
  obtain ⟨hm, hmax⟩ := mem_nearest.mp h
  obtain ⟨hm', hmax'⟩ := mem_nearest.mp h'
  exact PurePath.eq_of_relative (List.mem_filter.mp hm).2 (List.mem_filter.mp hm').2
    (le_antisymm (hmax' m hm) (hmax m' hm'))

/-- `_mount_for` takes the mount that the path resolves to exactly when the first and the last entry
listed for the mount point nearest above the path are the same. -/
theorem mountFor_visible_iff (text : String) (path : PurePath) :
    mountForIn text path = visibleMount text path ↔
      (nearest text path).head? = (nearest text path).getLast? := by
  rw [mountForIn, argmax_eq_head?]
  rfl

/-! ### The answer of `mounts` -/

/-- A line as the tools have it from the call `mounts`. -/
def Mount.ofInfo (info : MountInfo) : Mount where
  deviceId := info.deviceId
  mountPoint := ⟨"/", info.mountPoint⟩
  filesystemType := info.filesystemType
  source := info.source
  options := info.options.toFinset

theorem innermost_eq_argmax (path : Path) (infos : List MountInfo) :
    innermost path infos =
      (infos.filter (·.mountPoint.isPrefixOf path)).argmax (·.mountPoint.length) := by
  rw [innermost, List.argmax]
  congr 1
  funext best m
  cases best <;> rfl

theorem argmax_map {α β : Type} (g : α → β) (f : β → Nat) (l : List α) :
    (l.map g).argmax f = (l.argmax (f ∘ g)).map g := by
  induction l using List.reverseRecOn with
  | nil => rfl
  | append_singleton l a ih =>
    rw [List.map_append, List.map_singleton, List.argmax_concat, List.argmax_concat, ih]
    cases l.argmax (f ∘ g) with
    | none => rfl
    | some b =>
      by_cases h : f (g b) < f (g a) <;> simp [h]

theorem argmax_congr {α : Type} {f g : α → Nat} (h : ∀ a b, f a < f b ↔ g a < g b) (l : List α) :
    l.argmax f = l.argmax g := by
  induction l using List.reverseRecOn with
  | nil => rfl
  | append_singleton l a ih =>
    rw [List.argmax_concat, List.argmax_concat, ih]
    cases l.argmax g with
    | none => rfl
    | some b => simp [h]

/-- Where the call answers with the mounts of the text, the tools take the mount that `_mount_for`
takes. -/
theorem innermost_of_text {infos : List MountInfo} {path : Path}
    (h : infos.map Mount.ofInfo = (parsedMounts text).filter (·.mountPoint.root = "/")) :
    (innermost path infos).map Mount.ofInfo = mountForIn text ⟨"/", path⟩ := by
  have hcandidates : candidates text ⟨"/", path⟩ =
      (infos.filter (·.mountPoint.isPrefixOf path)).map Mount.ofInfo := by
    have hsplit : candidates text ⟨"/", path⟩ =
        ((parsedMounts text).filter (·.mountPoint.root = "/")).filter
          fun m => m.mountPoint.parts.isPrefixOf path := by
      rw [candidates, List.filter_filter]
      refine List.filter_congr fun m _ => ?_
      rw [PurePath.isRelativeTo, Bool.and_comm, decide_eq_decide.mpr eq_comm]
    rw [hsplit, ← h, List.filter_map]
    rfl
  have hdepth : (fun m : Mount => m.mountPoint.depth) ∘ Mount.ofInfo =
      fun info : MountInfo => info.mountPoint.length + 1 := by
    funext info
    simp [Mount.ofInfo, PurePath.depth, Nat.add_comm]
  rw [mountForIn, hcandidates, argmax_map, hdepth, innermost_eq_argmax]
  rw [argmax_congr fun _ _ => Nat.add_lt_add_iff_right]

/-! ### Two mounts on one directory -/

def stackedText : String :=
  "21 1 8:1 / / rw - ext4 /dev/sda1 rw\n" ++
  "22 21 8:17 / /data rw - ext4 /dev/sdb1 rw\n" ++
  "23 22 8:33 / /data rw - ext4 /dev/sdc1 rw\n"

/-- A path below a directory on which two filesystems are mounted is taken for a path of the lower
one. -/
theorem stacked_mount_missed : ¬∀ (text : String) (path : PurePath), path.isAbsolute = true →
      mountForIn text path = visibleMount text path := by
  intro claim
  obtain ⟨habsolute, htaken, hvisible⟩ : (purePath "/data/file").isAbsolute = true ∧
      (mountForIn stackedText (purePath "/data/file")).map Mount.deviceId = some "8:17" ∧
      (visibleMount stackedText (purePath "/data/file")).map Mount.deviceId = some "8:33" := by
    decide +kernel
  have h := congrArg (Option.map Mount.deviceId) (claim stackedText (purePath "/data/file") habsolute)
  rw [htaken, hvisible] at h
  exact absurd h (by decide)

end Ares.Backups
