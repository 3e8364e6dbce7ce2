import Ares.Backups.Quiet
import Ares.Backups.World

/-! What planning and revalidation do on a machine that is ready for a backup. -/

namespace Ares.Backups

open Coop Data

/-! ### Programs on the machine -/

section Rules

variable {w : World} {α : Type}

theorem runs_attempt (c : Call) : (attempt c : Tool World c.Answer).serve World.server w =
    w.answer c := by
  rw [attempt, Proc.attempt, serve_bind]
  exact Prod.ext (by simp [World.server]) (by simp [World.server])

variable {β : Type}

theorem runs_call {c : Call} {f : c.Answer → Tool World β} {a : c.Answer} {w' : World}
    (h : w.answer c = (.ok a, w')) :
    ((attempt c).bind f).serve World.server w = (f a).serve World.server w' :=
  serve_bind_ok ((runs_attempt c).trans h)

theorem runs_require {c : Bool} {e : Error} {f : Unit → Tool World β} (h : c = true) :
    ((require c e).bind f).serve World.server w = (f ()).serve World.server w := by
  subst h
  rfl

theorem runs_some {e : Error} {a : α} {f : α → Tool World β} :
    ((ofOption e (some a)).bind f).serve World.server w = (f a).serve World.server w := rfl

theorem runs_osAs {code : String} {p : Tool World α} {a : α} {w' : World}
    (h : p.serve World.server w = (.ok a, w')) :
    (osAs code p).serve World.server w = (.ok a, w') := by
  rw [osAs, serve_handle, h]

end Rules

/-! ### Ends of programs -/

/-- The two machines differ in what calls change: in the clock, the drawn values and the disk. -/
def Unchanged (w u : World) : Prop :=
  ∃ readings drawn disk, u = { w with readings, drawn, disk }

theorem Unchanged.refl (w : World) : Unchanged w w := ⟨_, _, _, rfl⟩

theorem Unchanged.trans {w u v : World} (h : Unchanged w u) (h' : Unchanged u v) :
    Unchanged w v := by
  obtain ⟨_, _, _, rfl⟩ := h
  obtain ⟨_, _, _, rfl⟩ := h'
  exact ⟨_, _, _, rfl⟩

theorem unchanged_change (w : World) (disk : Option Disk) : Unchanged w (w.change disk).2 := by
  cases disk <;> exact ⟨_, _, _, rfl⟩

theorem unchanged_answer (w : World) (c : Call) : Unchanged w (w.answer c).2 := by
  cases c with
  | mkdir | create | write | finish | writeNew | replace | removePartial =>
    exact unchanged_change w _
  | _ => exact ⟨_, _, _, rfl⟩

theorem unchanged_of_quiet {α : Type} {p : Tool World α} {w u : World} {r : Except Error α}
    (quiet : p.Quiet) (h : p.serve World.server w = (r, u)) : Unchanged w u := by
  have hkeeps : Unchanged w (p.serve World.server w).2 := by
    refine quiet.serve_keeps (P := Unchanged w) (fun o s h => h.trans ?_) (Unchanged.refl w)
    cases o with
    | lock | thread | append => exact Unchanged.refl s
    | call c => exact unchanged_answer s c
  rwa [h] at hkeeps

section Ends

variable {w w' : World} {α β : Type}

theorem attempt_bind_ok {c : Call} {f : c.Answer → Tool World β} {b : β}
    (h : ((attempt c).bind f).serve World.server w = (.ok b, w')) :
    ∃ a, (w.answer c).1 = .ok a ∧ (f a).serve World.server (w.answer c).2 = (.ok b, w') := by
  obtain ⟨a, t, hcall, hrest⟩ := serve_bind_eq_ok h
  rw [runs_attempt] at hcall
  refine ⟨a, congrArg Prod.fst hcall, ?_⟩
  rw [congrArg Prod.snd hcall]
  exact hrest

theorem require_bind_ok {c : Bool} {e : Error} {f : Unit → Tool World β} {b : β}
    (h : ((require c e).bind f).serve World.server w = (.ok b, w')) :
    c = true ∧ (f ()).serve World.server w = (.ok b, w') := by
  obtain ⟨a, t, hreq, hrest⟩ := serve_bind_eq_ok h
  obtain ⟨hc, rfl⟩ := serve_require_eq_ok hreq
  exact ⟨hc, hrest⟩

theorem ofExcept_bind_ok {r : Except Error α} {f : α → Tool World β} {b : β}
    (h : ((Proc.ofExcept r).bind f).serve World.server w = (.ok b, w')) :
    ∃ a, r = .ok a ∧ (f a).serve World.server w = (.ok b, w') := by
  obtain ⟨a, t, hr, hrest⟩ := serve_bind_eq_ok h
  rw [serve_ofExcept] at hr
  obtain ⟨rfl, rfl⟩ := Prod.mk.inj hr
  exact ⟨a, rfl, hrest⟩

theorem ofOption_bind_ok {e : Error} {r : Option α} {f : α → Tool World β} {b : β}
    (h : ((ofOption e r).bind f).serve World.server w = (.ok b, w')) :
    ∃ a, r = some a ∧ (f a).serve World.server w = (.ok b, w') := by
  cases r with
  | none =>
    rw [serve_bind_error (Proc.serve_ofOption e none)] at h
    cases h
  | some a => exact ⟨a, rfl, h⟩

theorem osAs_ok {code : String} {p : Tool World α} {a : α}
    (h : (osAs code p).serve World.server w = (.ok a, w')) :
    p.serve World.server w = (.ok a, w') := by
  rw [osAs, serve_handle] at h
  cases hp : p.serve World.server w with
  | mk r t =>
    rw [hp] at h
    cases r with
    | ok a' => exact h
    | error e => cases h

theorem change_eq_ok {disk : Option Disk} {a : Unit} (h : (w.change disk).1 = .ok a) :
    ∃ d, disk = some d ∧ (w.change disk).2 = { w with disk := d } := by
  cases disk with
  | none => cases h
  | some d => exact ⟨d, rfl, rfl⟩

end Ends

/-! ### Paths -/

section Paths

variable {root path : Path}

theorem below_append (root rel : Path) : below root (root ++ rel) = some rel := by
  rw [below, if_pos (List.isPrefixOf_iff_prefix.mpr (List.prefix_append _ _)), List.drop_left]

theorem below_eq_some {rel : Path} (h : below root path = some rel) : path = root ++ rel := by
  rw [below] at h
  split at h
  · next hp =>
    obtain ⟨rest, rfl⟩ := List.isPrefixOf_iff_prefix.mp hp
    rw [List.drop_left] at h
    rw [Option.some.inj h]
  · cases h

theorem mem_posix {c : Char} (h : c ∈ path.posix.toList) :
    c = '/' ∨ ∃ part ∈ path, c ∈ part.toList := by
  rw [Path.posix, String.toList_ofList] at h
  induction path with
  | nil => simp [List.intercalate] at h
  | cons part rest ih =>
    cases rest with
    | nil =>
      refine .inr ⟨part, List.mem_cons_self, ?_⟩
      simpa [List.intercalate] using h
    | cons next rest =>
      rw [List.map_cons, List.map_cons, List.intercalate, List.intersperse_cons_cons,
        List.flatten_cons, List.flatten_cons, List.mem_append, List.mem_append,
        List.mem_singleton] at h
      rcases h with h | h | h
      · exact .inr ⟨part, List.mem_cons_self, h⟩
      · exact .inl h
      · rcases ih h with rfl | ⟨part', hmem, hc⟩
        · exact .inl rfl
        · exact .inr ⟨part', List.mem_cons_of_mem _ hmem, hc⟩

theorem str_noNul (h : ∀ part ∈ path, Legal part) : Char.ofNat 0 ∉ path.str.toList := by
  rw [Path.str, String.toList_append, List.mem_append]
  rintro (hroot | hrest)
  · revert hroot
    decide
  · rcases mem_posix hrest with heq | ⟨part, hmem, hc⟩
    · revert heq
      decide
    · exact (h part hmem).noNul hc

theorem isAbsolute_str (path : Path) : isAbsolute path.str = true := by
  simp [isAbsolute, Path.str, String.toList_append]

end Paths

/-- The text names the root: it is absolute, and has its components. -/
structure Names (text : String) (root : Path) : Prop where
  absolute : isAbsolute text = true
  components : Data.components text = root
  noNul : Char.ofNat 0 ∉ text.toList
  legal : ∀ part ∈ root, Legal part

theorem names_str {root : Path} (h : ∀ part ∈ root, Legal part) : Names root.str root where
  absolute := isAbsolute_str root
  components := components_str (named_of_legal h)
  noNul := str_noNul h
  legal := h

namespace World

variable (w : World)

def partialRel : Path := ["ARES", ".partial-" ++ w.ids w.drawn]

def finalRel : Path := ["ARES", w.ids w.drawn]

/-- The destination takes what the tools make for themselves.  It tells their two directories apart and
lets the process use them; a file is found under the name that it is listed with; and it has room for
a path when it has room for a longer one. -/
structure Usable : Prop where
  takes : ∀ rel ∈ [[], ["ARES"], w.partialRel, w.finalRel, w.partialRel ++ [manifestName],
    w.finalRel ++ [manifestName]], w.takes rel = true
  shorter : ∀ rel, w.takes (w.partialRel ++ rel) = true → w.takes (w.finalRel ++ rel) = true
  apart : w.fold (".partial-" ++ w.ids w.drawn) ≠ w.fold (w.ids w.drawn)
  manifest : w.shows manifestName = manifestName
  legal : ∀ name, Legal name → Legal (w.shows name) ∧ w.fold (w.shows name) = w.fold name
  allowed : w.allows 0o700 = true
  unlocked : w.locks 0o700 = false
  shown : w.hides 0o600 = false
  longest : maxManifestBytes ≤ w.longest

end World

/-- A machine that is ready for a backup: the source is a readable directory tree, the destination is
an empty directory with space on another device, and both are mounted. -/
structure Ready (w : World) (policy : BackupPolicy) (info : FileInfo) (entries : Entries)
    (sourceMount destinationMount : MountInfo) : Prop where
  source : w.source = .directory info entries
  nodup : (entries.map Prod.fst).Nodup
  sound : SoundIn entries
  short : ∀ v ∈ walkSource policy sourceMount.deviceId entries,
    1 ≤ v.relative.posix.length ∧ v.relative.posix.length ≤ 4096 ∧ v.node.info.mode ≤ 0o7777
  sourceLegal : ∀ part ∈ w.sourceRoot, Legal part
  destinationLegal : ∀ part ∈ w.destinationRoot, Legal part
  outside : ¬w.sourceRoot <+: w.destinationRoot
  apart : ¬w.destinationRoot <+: w.sourceRoot
  empty : w.disk = []
  sourceMounted : innermost w.sourceRoot w.mounts = some sourceMount
  destinationMounted : innermost w.destinationRoot w.mounts = some destinationMount
  otherFilesystem : sourceMount.deviceId ≠ destinationMount.deviceId
  otherDevice : w.physicalDeviceId sourceMount.deviceId = none ∨
    w.physicalDeviceId destinationMount.deviceId = none ∨
    w.physicalDeviceId sourceMount.deviceId ≠ w.physicalDeviceId destinationMount.deviceId
  writable : destinationMount.options.contains "ro" = false
  compatible : incompatibleDestinationFilesystems.contains destinationMount.filesystemType = false
  space : (scanEntries policy sourceMount.deviceId entries).bytesTotal +
    max minHeadroomBytes ((scanEntries policy sourceMount.deviceId entries).bytesTotal / 50) ≤
      w.available
  ids : ∀ n, Legal (w.ids n)
  usable : w.Usable

namespace World

variable (lib : Library) (w : World) (policy : BackupPolicy) (entries : Entries)
  (sourceMount destinationMount : MountInfo)

/-- The documents that `build_plan` makes of the machine. -/
def backupSource : BackupSource where
  path := w.sourceRoot.str
  deviceId := sourceMount.deviceId
  physicalDeviceId := w.physicalDeviceId sourceMount.deviceId
  mountPoint := sourceMount.mountPoint.str
  filesystemType := sourceMount.filesystemType
  estimatedSizeBytes := (scanEntries policy sourceMount.deviceId entries).bytesTotal
  estimatedFileCount := (scanEntries policy sourceMount.deviceId entries).fileCount
  estimatedDirectoryCount := (scanEntries policy sourceMount.deviceId entries).directoryCount

def kindOf : BackupDestinationKind :=
  if w.removable destinationMount.deviceId then .usbStorage
  else if "/dev/".toList.isPrefixOf destinationMount.source.toList &&
    destinationMount.mountPoint ≠ [] then .mountedExternalDisk
  else .localFilesystem

def finalPath : Path := w.destinationRoot ++ ["ARES", w.ids w.drawn]

def backupDestination : BackupDestination where
  rootPath := w.destinationRoot.str
  backupPath := w.finalPath.str
  deviceId := destinationMount.deviceId
  physicalDeviceId := w.physicalDeviceId destinationMount.deviceId
  mountPoint := destinationMount.mountPoint.str
  filesystemType := destinationMount.filesystemType
  kind := w.kindOf destinationMount
  availableBytes := w.available

def planPayload : PlanPayload where
  id := w.ids (w.drawn + 1)
  backupId := w.ids w.drawn
  source := w.backupSource policy entries sourceMount
  destination := w.backupDestination destinationMount
  policy := policy
  requiredBytes := (scanEntries policy sourceMount.deviceId entries).bytesTotal +
    max minHeadroomBytes ((scanEntries policy sourceMount.deviceId entries).bytesTotal / 50)
  includedFileCount := (scanEntries policy sourceMount.deviceId entries).fileCount
  includedDirectoryCount := (scanEntries policy sourceMount.deviceId entries).directoryCount
  exclusions := (scanEntries policy sourceMount.deviceId entries).exclusions
  estimatedDurationSeconds := none

def plan : BackupPlan :=
  { w.planPayload policy entries sourceMount destinationMount with
    createdAt := w.clock w.readings
    expiresAt := w.clock (w.readings + 1) + minutes 15
    fingerprintSha256 := lib.planSha256 (w.planPayload policy entries sourceMount destinationMount) }

/-- The documents of the plan are within the bounds of their models. -/
structure Documented (policy : BackupPolicy) (entries : Entries)
    (sourceMount destinationMount : MountInfo) : Prop where
  source : (w.backupSource policy entries sourceMount).valid = true
  destination : (w.backupDestination destinationMount).valid = true

/-- The machine after planning. -/
def planned : World := { w with readings := w.readings + 2, drawn := w.drawn + 2 }

end World

section Planning

variable {lib : Library} {w : World} {policy : BackupPolicy} {info : FileInfo} {entries : Entries}
  {sourceMount destinationMount : MountInfo}

theorem legal_ARES : Legal "ARES" := ⟨by decide, by decide, by decide⟩

theorem onDisk_source (w : World) (rel : Path) : w.onDisk (w.sourceRoot ++ rel) = none := by
  rw [World.onDisk, if_pos (List.isPrefixOf_iff_prefix.mpr (List.prefix_append _ _))]

section Places

variable (h : Ready w policy info entries sourceMount destinationMount)
include h

theorem Ready.outside_below (rel : Path) :
    w.sourceRoot.isPrefixOf (w.destinationRoot ++ rel) = false := by
  rw [Bool.eq_false_iff, ne_eq, List.isPrefixOf_iff_prefix]
  intro hp
  rcases List.prefix_or_prefix_of_prefix hp (List.prefix_append w.destinationRoot rel) with h' | h'
  · exact h.outside h'
  · exact h.apart h'

theorem Ready.onDisk_eq (rel : Path) :
    w.onDisk (w.destinationRoot ++ rel) = if w.takes rel then some rel else none := by
  rw [World.onDisk, h.outside_below, below_append]
  exact Option.filter_some

theorem Ready.onDisk {rel : Path} (htakes : w.takes rel = true) :
    w.onDisk (w.destinationRoot ++ rel) = some rel := by
  rw [h.onDisk_eq, if_pos htakes]

theorem Ready.sourceFile_root : w.sourceFile w.sourceRoot = some (.directory info entries) := by
  have hb := below_append w.sourceRoot []
  rw [List.append_nil] at hb
  rw [World.sourceFile, hb]
  exact congrArg some h.source

theorem Ready.lstat_source : (w.lstat w.sourceRoot).isSome = true := by
  have hd := onDisk_source w []
  rw [List.append_nil] at hd
  rw [World.lstat, hd, h.sourceFile_root]
  rfl

theorem Ready.lstat_destination : (w.lstat w.destinationRoot).isSome = true := by
  have hd := h.onDisk (h.usable.takes [] (by simp))
  rw [List.append_nil] at hd
  rw [World.lstat, hd]
  rfl

theorem Ready.lstat_free {rel : Path} (hne : rel ≠ []) :
    w.lstat (w.destinationRoot ++ rel) = none := by
  have hsource : w.sourceFile (w.destinationRoot ++ rel) = none := by
    rw [World.sourceFile, below, h.outside_below]
    rfl
  rw [World.lstat, h.onDisk_eq, h.empty]
  cases w.takes rel with
  | true =>
    cases rel with
    | nil => exact absurd rfl hne
    | cons part rest => rfl
  | false => exact congrArg (Option.map Tree.stat) hsource

theorem Ready.scan : w.scan w.sourceRoot sourceMount.deviceId policy =
    .ok (scanEntries policy sourceMount.deviceId entries) := by
  rw [World.scan, h.sourceFile_root]

end Places

/-! ### The tools on a machine -/

theorem runs_canonicalExisting {text code : String} {root : Path} (hn : Names text root)
    (hl : (w.lstat root).isSome = true) :
    (canonicalExisting text code).serve World.server w = (.ok root, w) := by
  have hnul : (!text.toList.contains (Char.ofNat 0)) = true := by simpa using hn.noNul
  have hup : (!(components text).contains "..") = true := by
    rw [hn.components, Bool.not_eq_true', List.contains_eq_mem, decide_eq_false_iff_not]
    exact fun hmem => (hn.legal _ hmem).notParent rfl
  have hplain : (isAbsolute text && !(components text).contains "..") = true := by
    rw [hn.absolute, hup]
    rfl
  simp only [canonicalExisting, bind_eq]
  rw [runs_require hnul, runs_require hplain]
  refine runs_osAs ?_
  rw [runs_attempt, World.answer, hn.components, if_pos hl]

theorem runs_mountFor {path : Path} {m : MountInfo} (hm : innermost path w.mounts = some m) :
    (mountFor path).serve World.server w = (.ok (some m), w) := by
  have hob : ((attempt .mounts).observe : Tool World _).serve World.server w =
      (.ok (.ok w.mounts), w) := by
    rw [serve_observe, runs_attempt]
    rfl
  rw [mountFor, bind_eq, serve_bind_ok hob]
  exact congrArg (fun r => (Except.ok r, w)) hm

theorem runs_rejectSameStorage {a b : String} {c d : Option String} (hne : a ≠ b)
    (hphysical : c = none ∨ d = none ∨ c ≠ d) :
    (rejectSameStorage a b c d).serve World.server w = (.ok (), w) := by
  have hdiff : (c = none || d = none || decide (c ≠ d)) = true := by
    simpa [or_assoc] using hphysical
  simp only [rejectSameStorage, bind_eq]
  rw [runs_require (decide_eq_true hne), Proc.serve_require, if_pos hdiff]

theorem runs_validateDestination {path : Path} {m : MountInfo}
    (hro : m.options.contains "ro" = false)
    (hfs : incompatibleDestinationFilesystems.contains m.filesystemType = false)
    (hl : (w.lstat path).isSome = true) :
    (validateDestination path m).serve World.server w = (.ok (), w) := by
  have haccess : w.answer (.access path) = (.ok true, w) := by rw [World.answer, hl]
  simp only [validateDestination, bind_eq]
  rw [runs_require (by rw [hro]; rfl), runs_require (by rw [hfs]; rfl), runs_call haccess]
  rfl

theorem runs_availableBytes {path : Path} :
    (availableBytes path).serve World.server w = (.ok w.available, w) :=
  runs_osAs (by rw [runs_attempt]; rfl)

theorem runs_destinationKind {m : MountInfo} :
    (destinationKind m).serve World.server w = (.ok (w.kindOf m), w) := by
  have hcall : w.answer (.isRemovable m.deviceId) = (.ok (w.removable m.deviceId), w) := rfl
  rw [destinationKind, bind_eq, runs_call hcall, World.kindOf]
  split
  · rfl
  · split <;> rfl

variable {sourcePath destinationPath : String}

theorem join_final (h : Ready w policy info entries sourceMount destinationMount) :
    (w.destinationRoot.join "ARES").join (w.ids w.drawn) = w.finalPath := by
  rw [join_name legal_ARES.named, join_name (h.ids _).named, World.finalPath]
  simp

/-- Planning succeeds, with the plan of the machine. -/
theorem runs_buildPlan (h : Ready w policy info entries sourceMount destinationMount)
    (hdoc : w.Documented policy entries sourceMount destinationMount)
    (hs : Names sourcePath w.sourceRoot) (hd : Names destinationPath w.destinationRoot) :
    (buildPlan lib sourcePath destinationPath policy).serve World.server w =
      (.ok (w.plan lib policy entries sourceMount destinationMount), w.planned) := by
  have houtside : (!w.sourceRoot.isPrefixOf w.destinationRoot) = true := by
    rw [Bool.not_eq_true', Bool.eq_false_iff, ne_eq, List.isPrefixOf_iff_prefix]
    exact h.outside
  have hscan : w.answer (.scanSource w.sourceRoot sourceMount.deviceId policy) =
      (.ok (scanEntries policy sourceMount.deviceId entries), w) := by
    rw [World.answer, h.scan]
  let w₁ : World := { w with drawn := w.drawn + 1 }
  let w₂ : World := { w with drawn := w.drawn + 2 }
  let w₃ : World := { w₂ with readings := w.readings + 1 }
  have hid₁ : w.answer .randomId = (.ok (w.ids w.drawn), w₁) := rfl
  have hid₂ : w₁.answer .randomId = (.ok (w.ids (w.drawn + 1)), w₂) := rfl
  have hfree : w₂.answer (.lexists w.finalPath) = (.ok false, w₂) := by
    have hnone : w₂.lstat w.finalPath = none := h.lstat_free (by simp)
    rw [World.answer, hnone]
    rfl
  have hnot : (!false) = true := rfl
  have hnow₁ : w₂.answer .now = (.ok (w.clock w.readings), w₃) := rfl
  have hnow₂ : w₃.answer .now = (.ok (w.clock (w.readings + 1)), w.planned) := rfl
  simp only [buildPlan, bind_eq]
  rw [serve_bind_ok (runs_canonicalExisting hs h.lstat_source),
    serve_bind_ok (runs_canonicalExisting hd h.lstat_destination),
    serve_bind_ok (runs_mountFor h.sourceMounted),
    serve_bind_ok (runs_mountFor h.destinationMounted), runs_some, runs_some,
    runs_require houtside, runs_call (c := .physicalDeviceId sourceMount.deviceId) rfl,
    runs_call (c := .physicalDeviceId destinationMount.deviceId) rfl,
    serve_bind_ok (runs_rejectSameStorage h.otherFilesystem h.otherDevice),
    serve_bind_ok (runs_validateDestination h.writable h.compatible h.lstat_destination),
    runs_call hscan, serve_bind_ok runs_availableBytes,
    runs_require (decide_eq_true h.space), runs_call hid₁, runs_call hid₂, join_final h,
    runs_call hfree, runs_require hnot]
  refine (runs_require hdoc.source).trans ?_
  rw [serve_bind_ok runs_destinationKind]
  refine (runs_require hdoc.destination).trans ?_
  rw [runs_call hnow₁, runs_call hnow₂]
  rfl

/-- The plan of the machine stands when it is looked at again before it expires. -/
theorem runs_revalidatePlan (h : Ready w policy info entries sourceMount destinationMount)
    (htime : w.clock (w.readings + 2) < w.clock (w.readings + 1) + minutes 15) :
    (revalidatePlan lib (w.plan lib policy entries sourceMount destinationMount)).serve World.server
      w.planned = (.ok (w.clock (w.readings + 2)), { w.planned with readings := w.readings + 3 }) := by
  let w₁ : World := { w.planned with readings := w.readings + 3 }
  have hnow : w.planned.answer .now = (.ok (w.clock (w.readings + 2)), w₁) := rfl
  have hscan : w₁.answer (.scanSource w.sourceRoot sourceMount.deviceId policy) =
      (.ok (scanEntries policy sourceMount.deviceId entries), w₁) := by
    rw [World.answer]
    exact congrArg (·, w₁) (by rw [← h.scan]; rfl)
  have hfree : w₁.answer (.lexists ((w.destinationRoot.join "ARES").join (w.ids w.drawn))) =
      (.ok false, w₁) := by
    have hnone : w₁.lstat w.finalPath = none := h.lstat_free (by simp)
    rw [join_final h, World.answer, hnone]
    rfl
  have hsource : (w₁.lstat w.sourceRoot).isSome = true := h.lstat_source
  have hdestination : (w₁.lstat w.destinationRoot).isSome = true := h.lstat_destination
  have hsourceMounted : innermost w.sourceRoot w₁.mounts = some sourceMount := h.sourceMounted
  have hdestinationMounted : innermost w.destinationRoot w₁.mounts = some destinationMount :=
    h.destinationMounted
  have hnot : (!false) = true := rfl
  simp only [revalidatePlan, bind_eq]
  rw [runs_call hnow]
  refine (runs_require (decide_eq_true htime)).trans ?_
  refine (serve_bind_ok (runs_canonicalExisting (names_str h.sourceLegal) hsource)).trans ?_
  refine (serve_bind_ok
    (runs_canonicalExisting (names_str h.destinationLegal) hdestination)).trans ?_
  rw [serve_bind_ok (runs_mountFor hsourceMounted),
    serve_bind_ok (runs_mountFor hdestinationMounted), runs_some]
  refine (runs_require (decide_eq_true rfl)).trans ?_
  rw [runs_some]
  refine (runs_require (decide_eq_true rfl)).trans ?_
  rw [runs_call (c := .physicalDeviceId sourceMount.deviceId) rfl,
    runs_call (c := .physicalDeviceId destinationMount.deviceId) rfl]
  refine (runs_require (decide_eq_true rfl)).trans ?_
  refine (runs_require (decide_eq_true rfl)).trans ?_
  refine (serve_bind_ok
    (runs_rejectSameStorage h.otherFilesystem h.otherDevice)).trans ?_
  rw [serve_bind_ok (runs_validateDestination h.writable h.compatible hdestination)]
  refine (runs_require (decide_eq_true (congrArg Path.str (join_final h)))).trans ?_
  refine (runs_call hfree).trans ?_
  rw [runs_require hnot]
  refine (runs_call hscan).trans ?_
  refine (runs_require (by simp [World.plan, World.planPayload, World.backupSource])).trans ?_
  rw [serve_bind_ok runs_availableBytes]
  refine (runs_require (decide_eq_true h.space)).trans ?_
  exact runs_require (decide_eq_true rfl)

end Planning

end Ares.Backups
