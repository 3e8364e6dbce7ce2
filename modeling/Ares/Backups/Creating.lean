import Mathlib.Data.List.Nodup
import Ares.Backups.Copying

/-! What `create_backup` leaves on the disk, and when it ends well. -/

namespace Ares.Backups

open Coop Data

namespace World

variable (lib : Library) (w : World) (policy : BackupPolicy) (entries : Entries)
  (sourceMount : MountInfo)

def manifestPayload : ManifestPayload where
  backupId := w.ids w.drawn
  source := w.backupSource policy entries sourceMount
  entries := (included policy sourceMount.deviceId entries).map (manifestEntry lib w.read)
  fileCount := (scanEntries policy sourceMount.deviceId entries).fileCount
  directoryCount := (scanEntries policy sourceMount.deviceId entries).directoryCount
  totalSizeBytes := (scanEntries policy sourceMount.deviceId entries).bytesTotal

def manifest : BackupManifest :=
  { w.manifestPayload lib policy entries sourceMount with
    createdAt := w.clock (w.readings + 3)
    manifestChecksumSha256 := lib.manifestSha256 (w.manifestPayload lib policy entries sourceMount) }

def encoded : List UInt8 := lib.dumpsManifest (w.manifest lib policy entries sourceMount) ++ [10]

/-- The disk when the destination is prepared. -/
def prepared : Disk :=
  [(w.key ["ARES"], .directory (w.listed ["ARES"]) 0o700),
    (w.key w.partialRel, .directory (w.listed w.partialRel) 0o700)]

def copiedFiles : Disk :=
  copies w.toMedium w.read w.partialRel (included policy sourceMount.deviceId entries)

def filled : Disk :=
  w.prepared ++ w.copiedFiles policy entries sourceMount ++
    [(w.key (w.partialRel ++ [manifestName]), .file (w.listed (w.partialRel ++ [manifestName])) 0o600
      (w.encoded lib policy entries sourceMount))]

end World

/-! ### Counting -/

section Counting

variable (lib : Library) {read : FileInfo → List UInt8 → List UInt8} {policy : BackupPolicy}
  {deviceId : String} {entries : Entries}

theorem entryType_copyable {v : Visit} (hv : Copyable v.node) :
    ((manifestEntry lib read v).entryType = .file ↔ v.node.kind = .regular) ∧
      ((manifestEntry lib read v).entryType = .directory ↔ v.node.kind = .directory) := by
  rcases hv with ⟨info, inner, hnode⟩ | ⟨info, content, hnode⟩
  · simp [manifestEntry, hnode, Tree.kind]
  · simp [manifestEntry, hnode, Tree.kind]

section

variable {visits : List Visit} (h : ∀ v ∈ visits, Copyable v.node)
include h

theorem fileCount_entries : fileCount (visits.map (manifestEntry lib read)) =
    visits.countP fun v => v.node.kind = .regular := by
  rw [fileCount, List.countP_map]
  refine List.countP_congr fun v hv => ?_
  simpa using (entryType_copyable lib (h v hv)).1

theorem directoryCount_entries : directoryCount (visits.map (manifestEntry lib read)) =
    visits.countP fun v => v.node.kind = .directory := by
  rw [directoryCount, List.countP_map]
  refine List.countP_congr fun v hv => ?_
  simpa using (entryType_copyable lib (h v hv)).2

theorem totalSize_entries : totalSize (visits.map (manifestEntry lib read)) =
    (visits.map (·.node.size)).sum := by
  induction visits with
  | nil => rfl
  | cons v visits ih =>
    rw [List.forall_mem_cons] at h
    have hrest := ih h.2
    rw [totalSize] at hrest ⊢
    rcases h.1 with ⟨info, inner, hnode⟩ | ⟨info, content, hnode⟩
    · simpa [manifestEntry, hnode, Tree.size] using hrest
    · simpa [manifestEntry, hnode, Tree.size] using hrest

end

theorem fileCount_included :
    fileCount ((included policy deviceId entries).map (manifestEntry lib read)) =
      (scanEntries policy deviceId entries).fileCount :=
  fileCount_entries lib fun _ hv => kind_included hv

theorem directoryCount_included :
    directoryCount ((included policy deviceId entries).map (manifestEntry lib read)) =
      (scanEntries policy deviceId entries).directoryCount :=
  directoryCount_entries lib fun _ hv => kind_included hv

theorem totalSize_included :
    totalSize ((included policy deviceId entries).map (manifestEntry lib read)) =
      (scanEntries policy deviceId entries).bytesTotal :=
  totalSize_entries lib fun _ hv => kind_included hv

end Counting

/-! ### Creating -/

section Creating

variable {lib : Library} {w : World} {policy : BackupPolicy} {info : FileInfo} {entries : Entries}
  {sourceMount destinationMount : MountInfo}

theorem Ready.holds (h : Ready w policy info entries sourceMount destinationMount) (place : Path) :
    w.Holds (w.destinationRoot ++ place) place := by
  intro rel
  rw [List.append_assoc]
  exact h.onDisk_eq _

theorem Ready.sourceFile (h : Ready w policy info entries sourceMount destinationMount) {rel : Path}
    (hne : rel ≠ []) : w.sourceFile (w.sourceRoot ++ rel) = find? entries rel := by
  rw [World.sourceFile, below_append]
  cases rel with
  | nil => exact absurd rfl hne
  | cons part rest =>
    rw [Option.bind_some, World.sourceAt, h.source]
    simp

/-- The items of the walk, each with what is there. -/
def World.items (w : World) (policy : BackupPolicy) (entries : Entries) (sourceMount : MountInfo) :
    List (Path × Visit) :=
  (included policy sourceMount.deviceId entries).map fun v => (w.sourceRoot ++ v.relative, v)

theorem items_visits : (w.items policy entries sourceMount).map (·.2) =
    included policy sourceMount.deviceId entries := by
  simp [World.items, Function.comp_def]

theorem Ready.items (h : Ready w policy info entries sourceMount destinationMount) :
    ∀ p ∈ w.items policy entries sourceMount,
      w.sourceFile p.1 = some p.2.node ∧ Copyable p.2.node := by
  intro p hp
  obtain ⟨v, hv, rfl⟩ := List.mem_map.mp hp
  refine ⟨?_, kind_included hv⟩
  rw [h.sourceFile (included_legal h.sound hv).1]
  exact find_included h.nodup h.sound hv

theorem Ready.ordered (h : Ready w policy info entries sourceMount destinationMount) :
    Ordered [] (included policy sourceMount.deviceId entries) :=
  included_ordered h.nodup h.sound

theorem Ready.entryFor_iff (h : Ready w policy info entries sourceMount destinationMount)
    {v : Visit} (hv : v ∈ included policy sourceMount.deviceId entries)
    (read : FileInfo → List UInt8 → List UInt8) :
    entryFor lib read v = .ok (manifestEntry lib read v) ↔ 0 ≤ v.node.info.mtimeNs := by
  obtain ⟨hlow, hhigh, hmode⟩ := h.short v (List.mem_filter.mp hv).1
  have hpath : within 1 4096 v.relative.posix = true := by simp [within, hlow, hhigh]
  have hmode' : v.node.stat.mode ≤ 0o7777 := hmode
  have htime : v.node.stat.mtimeNs = v.node.info.mtimeNs := rfl
  rw [entryFor, entryOf, hpath, decide_eq_true hmode', htime]
  by_cases hpos : 0 ≤ v.node.info.mtimeNs
  · exact iff_of_true (by simp only [decide_eq_true hpos]; rfl) hpos
  · simp [hpos]

theorem partial_named {id : String} (h : Named id) : Named (".partial-" ++ id) := by
  refine ⟨?_, ?_, ?_⟩
  · intro heq
    have hlen := congrArg String.length heq
    rw [String.length_append] at hlen
    simp at hlen
  · intro heq
    have hlen := congrArg String.length heq
    have hnine : ".partial-".length = 9 := by decide
    have hone : ".".length = 1 := by decide
    rw [String.length_append, hnine, hone] at hlen
    omega
  · rw [String.toList_append, List.mem_append]
    rintro (hmem | hmem)
    · revert hmem
      decide
    · exact h.2.2 hmem

section Prepared

variable (h : Ready w policy info entries sourceMount destinationMount)
include h

theorem Ready.key_ne : w.key w.partialRel ≠ w.key w.finalRel := by
  intro heq
  simp only [Medium.key, World.partialRel, World.finalRel, List.map_cons, List.map_nil,
    List.cons.injEq, and_true, true_and] at heq
  exact h.usable.apart heq

theorem Ready.partial_prepared : Partial w.toMedium w.read w.prepared w.partialRel [] where
  taken := h.usable.takes _ (by simp)
  top := by
    have hat : Disk.at? w.prepared (w.key w.partialRel) =
        some (.directory (w.listed w.partialRel) 0o700) := by
      simp [World.prepared, Medium.key, World.partialRel, Disk.at?, List.lookup_cons]
    exact Disk.isOpen_iff.mpr ⟨_, _, hat, h.usable.unlocked⟩
  closed entry hmem := by
    simp only [World.prepared, List.mem_cons, List.not_mem_nil, or_false] at hmem
    rcases hmem with rfl | rfl
    · rfl
    · simp [World.prepared, World.partialRel, Medium.key, Disk.isDirectory, Disk.at?]
  named u hu := by cases hu
  copied u hu := by cases hu
  only rel node hne hmem := by
    simp [World.prepared, Medium.key, World.partialRel, hne] at hmem

/-- The machine when `create_backup` has looked at the plan again. -/
def World.begun (w : World) : World :=
  { w with readings := w.readings + 3, drawn := w.drawn + 2 }

theorem Ready.runs_prepare :
    (prepareBackupDestination (w.destinationRoot ++ ["ARES"]) (w.destinationRoot ++ w.finalRel)
        (w.destinationRoot ++ w.partialRel)).serve World.server w.begun =
      (.ok (), { w.begun with disk := w.prepared }) := by
  let d : Disk := [(w.key ["ARES"], .directory (w.listed ["ARES"]) 0o700)]
  let u : World := { w.begun with disk := d }
  have hlexists : ∀ rel, rel ≠ [] →
      w.begun.answer (.lexists (w.destinationRoot ++ rel)) = (.ok false, w.begun) := by
    intro rel hne
    have hnone : w.begun.lstat (w.destinationRoot ++ rel) = none := h.lstat_free hne
    rw [World.answer, hnone]
    rfl
  have hares : w.begun.answer (.mkdir (w.destinationRoot ++ ["ARES"]) 0o700 false true) =
      (.ok (), u) := by
    have hon : w.begun.onDisk (w.destinationRoot ++ ["ARES"]) = some ["ARES"] :=
      h.onDisk (h.usable.takes _ (by simp))
    have hempty : w.begun.disk = [] := h.empty
    have hadd : Disk.mkdir w.toMedium [] (w.key ["ARES"]) (w.listed ["ARES"]) 0o700 false true =
        some d := by
      rw [Disk.mkdir_eq_add (fun entry hmem => by cases hmem) rfl rfl, if_pos h.usable.allowed]
      exact Disk.add_new rfl (Disk.isOpen_iff.mpr ⟨_, _, rfl, h.usable.unlocked⟩)
    rw [World.answer, hon, Option.bind_some, hempty]
    exact congrArg w.begun.change hadd
  have hsafe : u.answer (.unsafeDirectory (w.destinationRoot ++ ["ARES"])) = (.ok false, u) := by
    have hon : u.onDisk (w.destinationRoot ++ ["ARES"]) = some ["ARES"] :=
      h.onDisk (h.usable.takes _ (by simp))
    have hat : u.disk.at? (u.key ["ARES"]) = some (.directory (w.listed ["ARES"]) 0o700) := by
      show Disk.at? d (w.key ["ARES"]) = _
      simp [d, Medium.key, Disk.at?]
    rw [World.answer, World.lstat, hon]
    simp only [hat]
    rfl
  have hmkdir : u.answer (.mkdir (w.destinationRoot ++ w.partialRel) 0o700 false false) =
      (.ok (), { w.begun with disk := w.prepared }) := by
    have hon : u.onDisk (w.destinationRoot ++ w.partialRel) = some w.partialRel :=
      h.onDisk (h.usable.takes _ (by simp))
    have hdir : Disk.at? d (w.key w.partialRel).dropLast =
        some (.directory (w.listed ["ARES"]) 0o700) := by
      simp [d, Medium.key, World.partialRel, Disk.at?]
    have hadd : Disk.mkdir w.toMedium d (w.key w.partialRel) (w.listed w.partialRel) 0o700 false
        false = some w.prepared := by
      have hfree : Disk.at? d (w.key w.partialRel) = none := by
        simp [d, Medium.key, World.partialRel, Disk.at?, List.lookup_cons]
      rw [Disk.mkdir_eq_add ?_ hfree (Disk.isDirectory_iff.mpr ⟨_, _, hdir⟩),
        if_pos h.usable.allowed]
      · exact Disk.add_new hfree (Disk.isOpen_iff.mpr ⟨_, _, hdir, h.usable.unlocked⟩)
      · intro entry hmem
        rw [List.mem_singleton.mp hmem]
        rfl
    rw [World.answer, hon, Option.bind_some]
    exact congrArg u.change hadd
  have hnot : (!false) = true := rfl
  simp only [prepareBackupDestination, bind_eq]
  rw [runs_call (hlexists _ (by simp [World.finalRel])), runs_require hnot,
    runs_call (hlexists _ (by simp [World.partialRel])), runs_require hnot, runs_call hares,
    runs_call hsafe, runs_require hnot, runs_attempt, hmkdir]

end Prepared

/-! ### What the destination takes -/

def Includes (policy : BackupPolicy) (deviceId : String) (entries : Entries) (rel : Path)
    (node : Tree) : Prop :=
  ∃ base name, rel = base ++ [name] ∧ Reaches policy deviceId entries base name node ∧
    excludedReason policy deviceId name node = none

theorem includes_iff {deviceId : String} {rel : Path} {node : Tree} :
    Includes policy deviceId entries rel node ↔
      ∃ v ∈ included policy deviceId entries, v.relative = rel ∧ v.node = node := by
  constructor
  · rintro ⟨base, name, rfl, hreach, hreason⟩
    exact ⟨_, mem_included.mpr ⟨base, name, node, hreach, hreason, rfl⟩, rfl, rfl⟩
  · rintro ⟨v, hv, rfl, rfl⟩
    obtain ⟨base, name, node, hreach, hreason, rfl⟩ := mem_included.mp hv
    exact ⟨base, name, rfl, hreach, hreason⟩

theorem includes_of_mem {deviceId : String} {v : Visit} (hv : v ∈ included policy deviceId entries) :
    Includes policy deviceId entries v.relative v.node :=
  includes_iff.mpr ⟨v, hv, rfl, rfl⟩

theorem Reaches.above {deviceId : String} {base : Path} {name : String} {node : Tree}
    (hreach : Reaches policy deviceId entries base name node) :
    base = [] ∨ ∃ info inner, Includes policy deviceId entries base (.directory info inner) := by
  induction hreach with
  | here => exact .inl rfl
  | @inside entries inner dir name info base node hmem hopen _ ih =>
    refine .inr ?_
    rcases ih with rfl | ⟨info', inner', above, last, rfl, hreach, hreason⟩
    · exact ⟨info, inner, [], dir, rfl, .here hmem, hopen⟩
    · exact ⟨info', inner', dir :: above, last, rfl, .inside hmem hopen hreach, hreason⟩

theorem Ready.node_eq (h : Ready w policy info entries sourceMount destinationMount) {rel : Path}
    {node node' : Tree} (hin : Includes policy sourceMount.deviceId entries rel node)
    (hin' : Includes policy sourceMount.deviceId entries rel node') : node = node' := by
  obtain ⟨v, hv, rfl, rfl⟩ := includes_iff.mp hin
  obtain ⟨u, hu, hrel, rfl⟩ := includes_iff.mp hin'
  have hfind := find_included h.nodup h.sound hu
  rw [hrel, find_included h.nodup h.sound hv] at hfind
  exact Option.some.inj hfind

/-- The destination takes the copy of every file of the source, and the manifest; the entries of the
manifest can be made. -/
structure Taken (lib : Library) (w : World) (policy : BackupPolicy) (entries : Entries)
    (sourceMount : MountInfo) : Prop where
  free : ∀ name node, (name, node) ∈ entries →
    excludedReason policy sourceMount.deviceId name node = none → w.fold name ≠ w.fold manifestName
  times : ∀ rel node, Includes policy sourceMount.deviceId entries rel node →
    0 ≤ node.info.mtimeNs
  small : (w.encoded lib policy entries sourceMount).length ≤ maxManifestBytes
  takes : ∀ rel node, Includes policy sourceMount.deviceId entries rel node →
    w.takes (w.partialRel ++ rel) = true
  apart : ∀ rel node rel' node', Includes policy sourceMount.deviceId entries rel node →
    Includes policy sourceMount.deviceId entries rel' node' → w.key rel = w.key rel' → rel = rel'
  unlocked : ∀ rel info inner name node,
    Includes policy sourceMount.deviceId entries rel (.directory info inner) →
    Includes policy sourceMount.deviceId entries (rel ++ [name]) node → w.locks info.mode = false
  allowed : ∀ rel info inner,
    Includes policy sourceMount.deviceId entries rel (.directory info inner) →
    w.allows info.mode = true
  fits : ∀ rel info content,
    Includes policy sourceMount.deviceId entries rel (.file info content) →
    (w.read info content).length ≤ w.longest
  settles : ∀ rel info content,
    Includes policy sourceMount.deviceId entries rel (.file info content) →
    w.settles (Tree.file info content).stat = true

theorem Ordered.new {seen visits : List Visit} (h : Ordered seen visits) :
    (visits.map (·.relative)).Nodup ∧ ∀ v ∈ visits, ∀ u ∈ seen, u.relative ≠ v.relative := by
  induction visits generalizing seen with
  | nil => simp
  | cons v visits ih =>
    obtain ⟨hnodup, hnew⟩ := ih h.2
    refine ⟨List.nodup_cons.mpr ⟨fun hmem => ?_, hnodup⟩, List.forall_mem_cons.mpr
      ⟨h.1.new, fun u hu s hs => hnew u hu s (List.mem_cons_of_mem _ hs)⟩⟩
    obtain ⟨u, hu, heq⟩ := List.mem_map.mp hmem
    exact hnew u hu v List.mem_cons_self heq.symm

/-- What the destination takes of an item on its own. -/
structure Suits (m : Medium) (read : FileInfo → List UInt8 → List UInt8) (place : Path) (v : Visit) :
    Prop where
  takes : m.takes (place ++ v.relative) = true
  allowed : ∀ info inner, v.node = .directory info inner → m.allows info.mode = true
  fits : ∀ info content, v.node = .file info content → (read info content).length ≤ m.longest
  settles : ∀ info content, v.node = .file info content → m.settles v.node.stat = true

section Sets

variable {m : Medium} {read : FileInfo → List UInt8 → List UInt8} {place : Path}
  {seen visits : List Visit}

/-- The items are admitted, whatever their order, when each of them suits, their paths are told apart
and their directories let the process in. -/
theorem AdmitsAll.of_suits (hf : Ordered seen visits) (hsuits : ∀ v ∈ visits, Suits m read place v)
    (hapart : ∀ v ∈ visits, ∀ u, u ∈ seen ∨ u ∈ visits → m.key u.relative = m.key v.relative →
      u.relative = v.relative)
    (hunlocked : ∀ v ∈ visits, ∀ u, u ∈ seen ∨ u ∈ visits → u.relative = v.relative.dropLast →
      m.locks u.node.info.mode = false) : AdmitsAll m read place seen visits := by
  induction visits generalizing seen with
  | nil => trivial
  | cons v visits ih =>
    rw [List.forall_mem_cons] at hsuits hapart hunlocked
    have hrest : ∀ u, u ∈ v :: seen ∨ u ∈ visits → u ∈ seen ∨ u ∈ v :: visits := by
      intro u hu
      simp only [List.mem_cons] at hu ⊢
      tauto
    refine ⟨⟨hsuits.1.takes, fun u hu heq => ?_, fun u hu => hunlocked.1 u (.inl hu),
      hsuits.1.allowed, hsuits.1.fits, hsuits.1.settles⟩, ih hf.2 hsuits.2
      (fun u hu t ht => hapart.2 u hu t (hrest t ht)) fun u hu t ht => hunlocked.2 u hu t (hrest t ht)⟩
    exact hf.1.new u hu (hapart.1 u (.inl hu) heq)

theorem AdmitsAll.suits (ha : AdmitsAll m read place seen visits) :
    ∀ v ∈ visits, Suits m read place v := by
  induction visits generalizing seen with
  | nil => simp
  | cons v visits ih =>
    exact List.forall_mem_cons.mpr
      ⟨⟨ha.1.takes, ha.1.allowed, ha.1.fits, ha.1.settles⟩, ih ha.2⟩

theorem AdmitsAll.new (ha : AdmitsAll m read place seen visits) :
    (visits.map fun v => m.key v.relative).Nodup ∧
      ∀ v ∈ visits, ∀ u ∈ seen, m.key u.relative ≠ m.key v.relative := by
  induction visits generalizing seen with
  | nil => simp
  | cons v visits ih =>
    obtain ⟨hnodup, hnew⟩ := ih ha.2
    refine ⟨List.nodup_cons.mpr ⟨fun hmem => ?_, hnodup⟩, List.forall_mem_cons.mpr
      ⟨ha.1.new, fun u hu t ht => hnew u hu t (List.mem_cons_of_mem _ ht)⟩⟩
    obtain ⟨u, hu, heq⟩ := List.mem_map.mp hmem
    exact hnew u hu v List.mem_cons_self heq.symm

theorem AdmitsAll.unlocked_seen (ha : AdmitsAll m read place seen visits) {u v : Visit}
    (hu : u ∈ seen) (hv : v ∈ visits) (hrel : u.relative = v.relative.dropLast) :
    m.locks u.node.info.mode = false := by
  induction visits generalizing seen with
  | nil => cases hv
  | cons t visits ih =>
    rcases List.mem_cons.mp hv with rfl | hv
    · exact ha.1.unlocked u hu hrel
    · exact ih ha.2 (List.mem_cons_of_mem _ hu) hv

theorem AdmitsAll.unlocked (ha : AdmitsAll m read place seen visits) (hf : Ordered seen visits)
    {u v : Visit} (hu : u ∈ visits) (hv : v ∈ visits) (hne : u.relative ≠ [])
    (hrel : u.relative = v.relative.dropLast) : m.locks u.node.info.mode = false := by
  induction visits generalizing seen with
  | nil => cases hu
  | cons t visits ih =>
    rcases List.mem_cons.mp hv with rfl | hbelow
    · obtain ⟨base, name, heq, hknown⟩ := hf.1.parent
      rw [heq, List.dropLast_concat] at hrel
      rcases hknown with rfl | ⟨s, hs, hbase, -⟩
      · exact absurd hrel hne
      · rcases List.mem_cons.mp hu with rfl | hu
        · have hlen := congrArg List.length (hrel.symm.trans heq)
          simp at hlen
        · exact absurd (hbase.trans hrel.symm) (hf.2.new.2 u hu s (List.mem_cons_of_mem _ hs))
    · rcases List.mem_cons.mp hu with rfl | hu
      · exact ha.2.unlocked_seen List.mem_cons_self hbelow hrel
      · exact ih ha.2 hf.2 hu hbelow

end Sets

theorem Reaches.at_root {deviceId : String} {base : Path} {name top : String} {node : Tree}
    (hreach : Reaches policy deviceId entries base name node) (heq : base ++ [name] = [top]) :
    (top, node) ∈ entries := by
  cases hreach with
  | here hmem =>
    obtain rfl : name = top := by simpa using heq
    exact hmem
  | inside => simp at heq

/-- The destination takes the copies exactly when they are admitted in their order, in which the
manifest comes last. -/
theorem Ready.taken_iff (h : Ready w policy info entries sourceMount destinationMount) :
    Taken lib w policy entries sourceMount ↔
      AdmitsAll w.toMedium w.read w.partialRel [] (included policy sourceMount.deviceId entries) ∧
      (∀ v ∈ included policy sourceMount.deviceId entries, 0 ≤ v.node.info.mtimeNs) ∧
      (w.encoded lib policy entries sourceMount).length ≤ maxManifestBytes ∧
      ∀ v ∈ included policy sourceMount.deviceId entries, w.key v.relative ≠ w.key [manifestName] := by
  constructor
  · intro ht
    refine ⟨.of_suits h.ordered (fun v hv => ?_) (fun v hv u hu heq => ?_)
      (fun v hv u hu hrel => ?_), fun v hv => ht.times _ _ (includes_of_mem hv), ht.small,
      fun v hv heq => ?_⟩
    · have hin := includes_of_mem hv
      refine ⟨ht.takes _ _ hin, fun info inner hnode => ?_, fun info content hnode => ?_,
        fun info content hnode => ?_⟩
      · exact ht.allowed _ info inner (hnode ▸ hin)
      · exact ht.fits _ info content (hnode ▸ hin)
      · rw [hnode]
        exact ht.settles _ info content (hnode ▸ hin)
    · have hu' := hu.resolve_left List.not_mem_nil
      exact ht.apart _ _ _ _ (includes_of_mem hu') (includes_of_mem hv) heq
    · have hu' := hu.resolve_left List.not_mem_nil
      have hin := includes_of_mem hv
      obtain ⟨base, name, hparts, hreach, -⟩ := id hin
      rw [hparts, List.dropLast_concat] at hrel
      rw [hparts, ← hrel] at hin
      rw [← hrel] at hreach
      obtain ⟨info, inner, hdir⟩ := hreach.above.resolve_left (included_legal h.sound hu').1
      have hnode := h.node_eq (includes_of_mem hu') hdir
      have hopen := ht.unlocked _ info inner name _ hdir hin
      rwa [hnode]
    · obtain ⟨base, name, hparts, hreach, hreason⟩ := includes_of_mem hv
      rw [hparts] at heq
      have hlen := congrArg List.length heq
      obtain rfl : base = [] := by simpa [Medium.key] using hlen
      have hname : w.fold name = w.fold manifestName := by simpa [Medium.key] using heq
      exact ht.free name _ (hreach.at_root rfl) hreason hname
  · rintro ⟨ha, htimes, hsmall, hfree⟩
    refine ⟨fun name node hmem hreason heq => ?_, fun rel node hin => ?_, hsmall,
      fun rel node hin => ?_, fun rel node rel' node' hin hin' heq => ?_,
      fun rel info inner name node hin hin' => ?_, fun rel info inner hin => ?_,
      fun rel info content hin => ?_, fun rel info content hin => ?_⟩
    · obtain ⟨v, hv, hrel, -⟩ := includes_iff.mp ⟨[], name, rfl, .here hmem, hreason⟩
      refine hfree v hv ?_
      rw [hrel]
      exact congrArg (fun c => [c]) heq
    · obtain ⟨v, hv, -, rfl⟩ := includes_iff.mp hin
      exact htimes v hv
    · obtain ⟨v, hv, rfl, -⟩ := includes_iff.mp hin
      exact (ha.suits v hv).takes
    · obtain ⟨v, hv, rfl, -⟩ := includes_iff.mp hin
      obtain ⟨u, hu, rfl, -⟩ := includes_iff.mp hin'
      rw [List.inj_on_of_nodup_map ha.new.1 hv hu heq]
    · obtain ⟨v, hv, rfl, hnode⟩ := includes_iff.mp hin
      obtain ⟨u, hu, hrel, -⟩ := includes_iff.mp hin'
      have hopen := ha.unlocked h.ordered hv hu (included_legal h.sound hv).1
        (by rw [hrel, List.dropLast_concat])
      rwa [hnode] at hopen
    · obtain ⟨v, hv, -, hnode⟩ := includes_iff.mp hin
      exact (ha.suits v hv).allowed info inner hnode
    · obtain ⟨v, hv, -, hnode⟩ := includes_iff.mp hin
      exact (ha.suits v hv).fits info content hnode
    · obtain ⟨v, hv, -, hnode⟩ := includes_iff.mp hin
      have hsettles := (ha.suits v hv).settles info content hnode
      rwa [hnode] at hsettles

/-! ### Copying and publishing -/

theorem Ready.filled_apart (h : Ready w policy info entries sourceMount destinationMount)
    {entry : Path × Node} (hmem : entry ∈ w.filled lib policy entries sourceMount) :
    ¬w.key w.finalRel <+: entry.1 := by
  have hpart : ∀ rel, ¬w.key w.finalRel <+: w.key (w.partialRel ++ rel) := by
    rintro rel hpre
    rw [key_append] at hpre
    have hsame : w.key w.finalRel <+: w.key w.partialRel :=
      List.prefix_of_prefix_length_le hpre (List.prefix_append _ _) (Nat.le_refl 2)
    exact h.key_ne (hsame.eq_of_length rfl).symm
  simp only [World.filled, World.prepared, World.copiedFiles, copies, List.mem_append, List.mem_cons,
    List.mem_map, List.not_mem_nil, or_false] at hmem
  rcases hmem with ((rfl | rfl) | ⟨v, -, rfl⟩) | rfl
  · rintro ⟨rest, heq⟩
    simp [World.finalRel, Medium.key] at heq
  · simpa using hpart []
  · exact hpart v.relative
  · exact hpart [manifestName]

theorem Ready.filled_free (h : Ready w policy info entries sourceMount destinationMount) :
    (w.filled lib policy entries sourceMount).at? (w.key w.finalRel) = none := by
  rw [Disk.at?_eq_none (by simp [World.finalRel, Medium.key])]
  intro node hmem
  exact h.filled_apart hmem (List.prefix_refl _)

def World.copied (w : World) (policy : BackupPolicy) (entries : Entries) (sourceMount : MountInfo) :
    World :=
  { w.begun with
    readings := w.readings + 4
    disk := w.prepared ++ w.copiedFiles policy entries sourceMount }

def World.done (lib : Library) (w : World) (policy : BackupPolicy) (entries : Entries)
    (sourceMount : MountInfo) : World :=
  { w with
    readings := w.readings + 4
    drawn := w.drawn + 2
    disk := (w.filled lib policy entries sourceMount).rename (w.key w.partialRel) (w.key w.finalRel)
      (w.listed w.finalRel) }

/-- What `create_backup` does when every file is copied. -/
def publish (lib : Library) (w : World) (policy : BackupPolicy) (entries : Entries)
    (sourceMount : MountInfo) : Tool World BackupManifest := do
  writeManifestFile lib (w.destinationRoot ++ w.partialRel)
    (w.manifest lib policy entries sourceMount)
  attempt (.replace (w.destinationRoot ++ w.partialRel) (w.destinationRoot ++ w.finalRel))
  attempt (.fsyncDirectory (w.destinationRoot ++ ["ARES"]))
  attempt .send
  pure (w.manifest lib policy entries sourceMount)

section Fill

variable (h : Ready w policy info entries sourceMount destinationMount)
include h

theorem Ready.walkCopy (disk : Disk) : World.answer { w.begun with disk }
    (.walkCopyEntries w.sourceRoot sourceMount.deviceId policy) =
      (.ok ((included policy sourceMount.deviceId entries).map fun v =>
        (w.sourceRoot ++ v.relative, v.relative), none), { w.begun with disk }) := by
  have hroot : World.sourceFile { w.begun with disk } w.sourceRoot =
      some (.directory info entries) := h.sourceFile_root
  rw [World.answer, World.walkCopy, hroot]

theorem Ready.copied (ha : AdmitsAll w.toMedium w.read w.partialRel []
      (included policy sourceMount.deviceId entries)) :
    Partial w.toMedium w.read (w.prepared ++ w.copiedFiles policy entries sourceMount) w.partialRel
      (included policy sourceMount.deviceId entries).reverse := by
  have hrun := h.partial_prepared.run h.ordered ha
  rwa [List.append_nil] at hrun

/-- What the bytes are that `create_backup` has counted. -/
def bytesDone (w : World) (policy : BackupPolicy) (entries : Entries) (sourceMount : MountInfo) :
    Nat :=
  ((included policy sourceMount.deviceId entries).map fun v => copiedBytes w.read v.node).sum

section Copies

variable (lib)

theorem Ready.copyEntries_iff {r : List BackupEntry × Nat} {u : World} :
    (copyEntries lib (w.destinationRoot ++ w.partialRel)
        ((included policy sourceMount.deviceId entries).map fun v =>
          (w.sourceRoot ++ v.relative, v.relative))).serve World.server
        { w.begun with disk := w.prepared } = (.ok r, u) ↔
      (AdmitsAll w.toMedium w.read w.partialRel [] (included policy sourceMount.deviceId entries) ∧
        ∀ v ∈ included policy sourceMount.deviceId entries, 0 ≤ v.node.info.mtimeNs) ∧
      r = ((included policy sourceMount.deviceId entries).map (manifestEntry lib w.read),
        bytesDone w policy entries sourceMount) ∧
      u = { w.begun with disk := w.prepared ++ w.copiedFiles policy entries sourceMount } := by
  have hitems : ((included policy sourceMount.deviceId entries).map fun v =>
      (w.sourceRoot ++ v.relative, v.relative)) =
        (w.items policy entries sourceMount).map fun p => (p.1, p.2.relative) := by
    simp [World.items, Function.comp_def]
  have hordered : Ordered [] ((w.items policy entries sourceMount).map (·.2)) := by
    rw [items_visits]
    exact h.ordered
  have hbytes : ((w.items policy entries sourceMount).map fun p => copiedBytes w.read p.2.node).sum =
      bytesDone w policy entries sourceMount := by
    simp [World.items, bytesDone, Function.comp_def]
  have hmade : (∀ p ∈ w.items policy entries sourceMount,
      entryFor lib w.read p.2 = .ok (manifestEntry lib w.read p.2)) ↔
        ∀ v ∈ included policy sourceMount.deviceId entries, 0 ≤ v.node.info.mtimeNs := by
    rw [← items_visits (w := w), List.forall_mem_map]
    refine forall₂_congr fun p hp => h.entryFor_iff ?_ _
    rw [← items_visits (w := w)]
    exact List.mem_map_of_mem hp
  have hserve := fun ha hall => serve_copyEntries (w := { w.begun with disk := w.prepared }) lib
    (h.holds w.partialRel) h.items h.partial_prepared hordered ha hall
  rw [hitems]
  constructor
  · intro hrun
    obtain ⟨ha, hall⟩ := copyEntries_eq_ok (w := { w.begun with disk := w.prepared }) lib
      (h.holds w.partialRel) h.items h.partial_prepared hordered hrun
    obtain ⟨hr, hu⟩ := Prod.mk.inj (hrun.symm.trans (hserve ha hall))
    rw [items_visits] at ha
    refine ⟨⟨ha, hmade.mp hall⟩, ?_, ?_⟩
    · rw [Except.ok.inj hr, items_visits]
      exact congrArg _ hbytes
    · rw [hu, items_visits]
      rfl
  · rintro ⟨⟨ha, htimes⟩, rfl, rfl⟩
    rw [← items_visits (w := w)] at ha
    rw [hserve ha (hmade.mpr htimes), items_visits, ← hbytes]
    rfl

end Copies

/-- The manifest can be written where nothing is in its place, and it is not too large. -/
theorem Ready.writeManifest_iff (ha : AdmitsAll w.toMedium w.read w.partialRel []
      (included policy sourceMount.deviceId entries)) {r : Unit} {u : World} :
    (writeManifestFile lib (w.destinationRoot ++ w.partialRel)
        (w.manifest lib policy entries sourceMount)).serve World.server
        (w.copied policy entries sourceMount) = (.ok r, u) ↔
      ((w.encoded lib policy entries sourceMount).length ≤ maxManifestBytes ∧
        ∀ v ∈ included policy sourceMount.deviceId entries,
          w.key v.relative ≠ w.key [manifestName]) ∧
      u = { w.copied policy entries sourceMount with
        disk := w.filled lib policy entries sourceMount } := by
  let d := w.prepared ++ w.copiedFiles policy entries sourceMount
  have hfree : Disk.at? d (w.key (w.partialRel ++ [manifestName])) = none ↔
      ∀ v ∈ included policy sourceMount.deviceId entries,
        w.key v.relative ≠ w.key [manifestName] := by
    rw [(h.copied ha).free_iff (by simp)]
    simp only [List.mem_reverse]
  have hparent : Disk.isOpen w.toMedium d (w.key (w.partialRel ++ [manifestName])).dropLast =
      true := by
    rw [← key_dropLast, List.dropLast_concat]
    exact (h.copied ha).top
  have hwrite (hlong : (w.encoded lib policy entries sourceMount).length ≤ maxManifestBytes) :
      (w.copied policy entries sourceMount).answer
        (.writeNew (w.destinationRoot ++ w.partialRel ++ [manifestName])
          (w.encoded lib policy entries sourceMount)) =
        (w.copied policy entries sourceMount).change (Disk.add w.toMedium d
          (w.key (w.partialRel ++ [manifestName])) (.file
            (w.listed (w.partialRel ++ [manifestName])) 0o600
            (w.encoded lib policy entries sourceMount))) := by
    have hon : (w.copied policy entries sourceMount).onDisk
        (w.destinationRoot ++ (w.partialRel ++ [manifestName])) =
          some (w.partialRel ++ [manifestName]) := h.onDisk (h.usable.takes _ (by simp))
    have hfits : (w.encoded lib policy entries sourceMount).length ≤
        (w.copied policy entries sourceMount).longest := hlong.trans h.usable.longest
    rw [List.append_assoc, World.answer, hon, Option.bind_some, if_pos hfits]
    rfl
  simp only [writeManifestFile, bind_eq]
  constructor
  · intro hrun
    obtain ⟨hsmall, hrun⟩ := require_bind_ok hrun
    have hlong := of_decide_eq_true hsmall
    rw [runs_attempt] at hrun
    have hrun' := (hwrite hlong).symm.trans hrun
    obtain ⟨e, he, hstate⟩ := change_eq_ok (congrArg Prod.fst hrun')
    obtain ⟨⟨hnone, -⟩, rfl⟩ := Disk.add_eq_some.mp he
    refine ⟨⟨hlong, hfree.mp hnone⟩, ?_⟩
    exact (congrArg Prod.snd hrun').symm.trans hstate
  · rintro ⟨⟨hlong, hnone⟩, rfl⟩
    refine (runs_require (decide_eq_true hlong)).trans ?_
    rw [runs_attempt]
    refine (hwrite hlong).trans ?_
    rw [Disk.add_new (hfree.mpr hnone) hparent]
    rfl

theorem Ready.runs_copied
    (ha : AdmitsAll w.toMedium w.read w.partialRel [] (included policy sourceMount.deviceId entries))
    (htimes : ∀ v ∈ included policy sourceMount.deviceId entries, 0 ≤ v.node.info.mtimeNs)
    (htotal : bytesDone w policy entries sourceMount =
      (scanEntries policy sourceMount.deviceId entries).bytesTotal) :
    (fillPartial lib (w.plan lib policy entries sourceMount destinationMount) w.sourceRoot
        (w.destinationRoot ++ ["ARES"]) (w.destinationRoot ++ w.finalRel)
        (w.destinationRoot ++ w.partialRel)).serve World.server
      { w.begun with disk := w.prepared } =
      (publish lib w policy entries sourceMount).serve World.server (w.copied policy entries
        sourceMount) := by
  let u₁ : World :=
    { w.begun with disk := w.prepared ++ w.copiedFiles policy entries sourceMount }
  have hmount : innermost w.sourceRoot (World.mounts { w.begun with disk := w.prepared }) =
    some sourceMount := h.sourceMounted
  have hcopy := (h.copyEntries_iff lib).mpr ⟨⟨ha, htimes⟩, rfl, rfl⟩
  have hnone : (raiseIf none : Tool World Unit).serve World.server u₁ = (.ok (), u₁) := rfl
  have hnow : u₁.answer .now = (.ok (w.clock (w.readings + 3)), w.copied policy entries
    sourceMount) := rfl
  simp only [fillPartial, bind_eq]
  rw [serve_bind_ok (runs_mountFor hmount), runs_some]
  refine (runs_call (h.walkCopy _)).trans ?_
  refine (serve_bind_ok hcopy).trans ?_
  refine (serve_bind_ok hnone).trans ?_
  simp only [fileCount_included, directoryCount_included, totalSize_included]
  refine (runs_require ?_).trans ?_
  · simp [World.plan, World.planPayload, World.backupSource, htotal]
  exact runs_call hnow

/-- `create_backup` fills its directory and puts it in its place, where the destination takes
everything and as many bytes were read as counted. -/
theorem Ready.fillPartial_iff {r : BackupManifest} {u : World} :
    (fillPartial lib (w.plan lib policy entries sourceMount destinationMount) w.sourceRoot
        (w.destinationRoot ++ ["ARES"]) (w.destinationRoot ++ w.finalRel)
        (w.destinationRoot ++ w.partialRel)).serve World.server
      { w.begun with disk := w.prepared } = (.ok r, u) ↔
      (Taken lib w policy entries sourceMount ∧ bytesDone w policy entries sourceMount =
        (scanEntries policy sourceMount.deviceId entries).bytesTotal) ∧
      r = w.manifest lib policy entries sourceMount ∧
      u = w.done lib policy entries sourceMount := by
  have hreplace : World.answer { w.copied policy entries sourceMount with
      disk := w.filled lib policy entries sourceMount }
      (.replace (w.destinationRoot ++ w.partialRel) (w.destinationRoot ++ w.finalRel)) =
        (.ok (), w.done lib policy entries sourceMount) := by
    let u : World := { w.copied policy entries sourceMount with
      disk := w.filled lib policy entries sourceMount }
    have hfrom : u.onDisk (w.destinationRoot ++ w.partialRel) = some w.partialRel :=
      h.onDisk (h.usable.takes _ (by simp))
    have hto : u.onDisk (w.destinationRoot ++ w.finalRel) = some w.finalRel :=
      h.onDisk (h.usable.takes _ (by simp))
    have hfree : u.disk.at? (u.key w.finalRel) = none := h.filled_free
    show u.answer _ = _
    rw [World.answer, hfrom, hto, Option.bind_some, Option.bind_some, if_pos hfree]
    rfl
  constructor
  · intro hrun
    have hcopied := hrun
    simp only [fillPartial, bind_eq] at hcopied
    have hmount : innermost w.sourceRoot (World.mounts { w.begun with disk := w.prepared }) =
      some sourceMount := h.sourceMounted
    rw [serve_bind_ok (runs_mountFor hmount), runs_some] at hcopied
    replace hcopied := (runs_call (h.walkCopy _)).symm.trans hcopied
    obtain ⟨copies, t, hentries, hcopied⟩ := serve_bind_eq_ok hcopied
    obtain ⟨⟨ha, htimes⟩, rfl, rfl⟩ := (h.copyEntries_iff lib).mp hentries
    obtain ⟨_, t, hraise, hcopied⟩ := serve_bind_eq_ok hcopied
    obtain ⟨hcounts, -⟩ := require_bind_ok hcopied
    have htotal : bytesDone w policy entries sourceMount =
        (scanEntries policy sourceMount.deviceId entries).bytesTotal := by
      simp only [totalSize_included, Bool.and_eq_true, decide_eq_true_eq] at hcounts
      exact hcounts.2
    rw [h.runs_copied ha htimes htotal] at hrun
    simp only [publish, bind_eq] at hrun
    obtain ⟨_, t, hmanifest, hrun⟩ := serve_bind_eq_ok hrun
    obtain ⟨⟨hsmall, hfree⟩, rfl⟩ := (h.writeManifest_iff ha).mp hmanifest
    rw [runs_call hreplace] at hrun
    obtain ⟨hr, hu⟩ := Prod.mk.inj hrun
    exact ⟨⟨h.taken_iff.mpr ⟨ha, htimes, hsmall, hfree⟩, htotal⟩, (Except.ok.inj hr).symm, hu.symm⟩
  · rintro ⟨⟨ht, htotal⟩, rfl, rfl⟩
    obtain ⟨ha, htimes, hsmall, hfree⟩ := h.taken_iff.mp ht
    rw [h.runs_copied ha htimes htotal]
    simp only [publish, bind_eq]
    have hmanifest := (h.writeManifest_iff (r := ()) ha).mpr ⟨⟨hsmall, hfree⟩, rfl⟩
    rw [serve_bind_ok hmanifest]
    exact (runs_call hreplace).trans rfl

theorem Ready.legal_final : ∀ part ∈ w.finalPath, Legal part := by
  intro part hmem
  rw [World.finalPath, List.mem_append] at hmem
  rcases hmem with hmem | hmem
  · exact h.destinationLegal part hmem
  · rcases List.mem_cons.mp hmem with rfl | hmem
    · exact legal_ARES
    · rw [List.mem_singleton.mp hmem]
      exact h.ids _

/-- `create_backup` after its revalidation: all but what it does when it fails. -/
theorem Ready.runs_copyBackup {r : Except Error BackupManifest} {u : World}
    (hfill : (fillPartial lib (w.plan lib policy entries sourceMount destinationMount) w.sourceRoot
        (w.destinationRoot ++ ["ARES"]) (w.destinationRoot ++ w.finalRel)
        (w.destinationRoot ++ w.partialRel)).serve World.server
      { w.begun with disk := w.prepared } = (r, u)) :
    (∀ manifest, r = .ok manifest →
      (copyBackup lib (w.plan lib policy entries sourceMount destinationMount)).serve World.server
        w.begun = (.ok manifest, u)) ∧
    (∀ e, r = .error e →
      ∃ e', ((copyBackup lib (w.plan lib policy entries sourceMount destinationMount)).serve
        World.server w.begun).1 = .error e') := by
  have hsource : components (w.plan lib policy entries sourceMount destinationMount).source.path =
      w.sourceRoot := components_str (named_of_legal h.sourceLegal)
  have hares : (components
      (w.plan lib policy entries sourceMount destinationMount).destination.rootPath).join "ARES" =
        w.destinationRoot ++ ["ARES"] := by
    refine Eq.trans ?_ (join_name legal_ARES.named _)
    exact congrArg (Path.join · "ARES") (components_str (named_of_legal h.destinationLegal))
  have hfinal : components
      (w.plan lib policy entries sourceMount destinationMount).destination.backupPath =
        w.destinationRoot ++ w.finalRel := components_str (named_of_legal h.legal_final)
  have hpart : (w.destinationRoot ++ ["ARES"]).join (".partial-" ++
      (w.plan lib policy entries sourceMount destinationMount).backupId) =
        w.destinationRoot ++ w.partialRel := by
    refine (join_name (partial_named (h.ids w.drawn).named) _).trans ?_
    rw [List.append_assoc]
    rfl
  simp only [copyBackup, bind_eq]
  rw [hsource, hares, hfinal, hpart, serve_bind_ok h.runs_prepare, serve_handle, hfill]
  refine ⟨?_, ?_⟩
  · rintro manifest rfl
    rfl
  · rintro e rfl
    cases e with
    | tool code => exact ⟨.tool code, rfl⟩
    | permission | os => exact ⟨.tool "BACKUP_IO_FAILED", rfl⟩
    | cancelled => exact ⟨.cancelled, rfl⟩
    | audit => exact ⟨.audit, rfl⟩
    | value => exact ⟨.value, rfl⟩
    | other => exact ⟨.other, rfl⟩

end Fill

end Creating

end Ares.Backups
