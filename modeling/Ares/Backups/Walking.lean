import Ares.Backups.Evidence
import Ares.Backups.RoundTrip

/-! Planning and copying walk the same tree: what the walk yields, in which order, and what the two
make of it on a machine whose source does not change. -/

namespace Ares.Backups

open Coop Data

/-! ### The stack runs empty -/

section Stack

variable (policy : BackupPolicy) (deviceId : String)

/-- The stack of `_walk_source` after `fuel` directories. -/
def remaining : Nat → List (Path × Entries) → List (Path × Entries)
  | 0, stack => stack
  | _ + 1, [] => []
  | fuel + 1, (base, entries) :: stack =>
    remaining fuel
      (((entries.map (visit policy deviceId base)).filterMap Visit.pending).reverse ++ stack)

theorem remaining_eq_nil {fuel : Nat} {stack : List (Path × Entries)}
    (h : weight stack ≤ fuel) : remaining policy deviceId fuel stack = [] := by
  induction fuel generalizing stack with
  | zero =>
    cases stack with
    | nil => rfl
    | cons d stack => simp [weight] at h
  | succ fuel ih =>
    cases stack with
    | nil => rfl
    | cons d stack =>
      obtain ⟨base, entries⟩ := d
      have hnext := weight_next policy deviceId base entries stack
      exact ih (by omega)

theorem walkSource_ends (entries : Entries) :
    remaining policy deviceId (1 + directoriesIn entries) [([], entries)] = [] :=
  remaining_eq_nil policy deviceId (by simp [weight])

end Stack

/-! ### The order of what is yielded -/

section Order

variable {policy : BackupPolicy} {deviceId : String}

def Topped (seen : List Visit) : Prop :=
  ∀ u ∈ seen, ∀ above, above <+: u.relative → above ≠ [] → above ≠ u.relative →
    ∃ t ∈ seen, t.relative = above ∧ t.reason = none ∧ t.node.kind = .directory

theorem Fresh.above {seen : List Visit} {v : Visit} (h : Fresh seen v) (hseen : Topped seen)
    {above : Path} (hpre : above <+: v.relative) (hne : above ≠ []) (hproper : above ≠ v.relative) :
    ∃ t ∈ seen, t.relative = above ∧ t.reason = none ∧ t.node.kind = .directory := by
  obtain ⟨base, name, heq, hknown⟩ := h.parent
  rw [heq] at hpre hproper
  have hbase : above <+: base := (List.prefix_concat_iff.mp hpre).resolve_left hproper
  rcases hknown with rfl | ⟨u, hu, hrel, hopen, hkind⟩
  · exact absurd (List.prefix_nil.mp hbase) hne
  · by_cases hsame : above = u.relative
    · exact ⟨u, hu, hsame.symm, hopen, hkind⟩
    · exact hseen u hu above (hrel.symm ▸ hbase) hne hsame

theorem Topped.cons {seen : List Visit} {v : Visit} (h : Topped seen) (hv : Fresh seen v) :
    Topped (v :: seen) := by
  intro u hu above hpre hne hproper
  obtain ⟨t, ht, hrest⟩ : ∃ t ∈ seen, t.relative = above ∧ t.reason = none ∧
      t.node.kind = .directory := by
    rcases List.mem_cons.mp hu with rfl | hu
    · exact hv.above h hpre hne hproper
    · exact h u hu above hpre hne hproper
  exact ⟨t, List.mem_cons_of_mem _ ht, hrest⟩

theorem Ordered.topped {seen visits : List Visit} (h : Ordered seen visits) (hseen : Topped seen) :
    Topped (visits.reverse ++ seen) := by
  induction visits generalizing seen with
  | nil => exact hseen
  | cons v visits ih =>
    rw [List.reverse_cons, List.append_assoc]
    exact ih h.2 (hseen.cons h.1)

theorem Ordered.above_before {before after : List Visit} {v : Visit}
    (h : Ordered [] (before ++ v :: after)) {above : Path} (hpre : above <+: v.relative)
    (hne : above ≠ []) (hproper : above ≠ v.relative) :
    ∃ t ∈ before, t.relative = above ∧ t.reason = none ∧ t.node.kind = .directory := by
  obtain ⟨hbefore, hrest⟩ := ordered_append.mp h
  have hnone : Topped [] := fun u hu => by cases hu
  have htopped := hbefore.topped hnone
  obtain ⟨t, ht, hrest⟩ := hrest.1.above htopped hpre hne hproper
  rw [List.append_nil] at ht
  exact ⟨t, List.mem_reverse.mp ht, hrest⟩

theorem not_beneath_excluded {entries : Entries} (hnodup : (entries.map Prod.fst).Nodup)
    (hsound : SoundIn entries) {v u : Visit} (hv : v ∈ walkSource policy deviceId entries)
    (hreason : v.reason ≠ none) (hu : u ∈ included policy deviceId entries) :
    ¬v.relative <+: u.relative := by
  have hordered : Ordered [] (walkSource policy deviceId entries) := walkSource_ordered hnodup hsound
  have hunique : ∀ t ∈ walkSource policy deviceId entries, t.relative = v.relative → t = v :=
    fun t ht heq => List.inj_on_of_nodup_map hordered.new.1 ht hv heq
  obtain ⟨hu, hopen⟩ := List.mem_filter.mp hu
  intro hpre
  by_cases hsame : v.relative = u.relative
  · have heq := hunique u hu hsame.symm
    exact hreason (heq ▸ of_decide_eq_true hopen)
  · obtain ⟨before, after, hsplit⟩ := List.append_of_mem hu
    have hne : v.relative ≠ [] := by
      obtain ⟨base, name, node, -, rfl⟩ := mem_walkSource.mp hv
      simp [visit]
    obtain ⟨t, ht, hrel, hnone, -⟩ := (hsplit ▸ hordered).above_before hpre hne hsame
    have heq := hunique t (hsplit ▸ List.mem_append_left _ ht) hrel
    exact hreason (heq ▸ hnone)

end Order

/-! ### A source that does not change -/

/-- One more item of `_scan_source`. -/
def scanVisit (acc : Scan) (v : Visit) : Scan :=
  match v.reason with
  | some reason =>
    if acc.exclusions.length < 1024 then
      { acc with exclusions := acc.exclusions ++ [⟨v.relative.posix, reason⟩] }
    else acc
  | none =>
    match v.node.kind with
    | .directory => { acc with directoryCount := acc.directoryCount + 1 }
    | .regular => { acc with
        fileCount := acc.fileCount + 1
        bytesTotal := acc.bytesTotal + v.node.size }
    | .symlink | .special => acc

/-- The loop of `_scan_source`, over all that the walk yields. -/
def scanLoop (visits : List Visit) : Scan := visits.foldl scanVisit ⟨0, 0, 0, []⟩

namespace World

variable (w : World) (policy : BackupPolicy) (deviceId : String)

def walked : List (Path × Visit) :=
  match w.source with
  | .directory _ entries =>
    (included policy deviceId entries).map fun v => (w.sourceRoot ++ v.relative, v)
  | .file _ _ => [(w.sourceRoot, ⟨w.sourceRoot.getLast?.toList, w.source, none⟩)]
  | .symlink _ | .special _ => []

def kindAt (path : Path) : Option FileKind := (w.lstat path).map (·.kind)

def sizeAt (path : Path) : Nat := ((w.lstat path).map (·.size)).getD 0

/-- `_scan_source` counts the item, and does not exclude it. -/
def Counts (item relative : Path) : Prop :=
  match w.source with
  | .directory _ entries => item = w.sourceRoot ++ relative ∧ ∃ base name node,
      relative = base ++ [name] ∧ Reaches policy deviceId entries base name node ∧
      excludedReason policy deviceId name node = none
  | .file _ _ => item = w.sourceRoot ∧ relative = w.sourceRoot.getLast?.toList
  | .symlink _ | .special _ => False

end World

section Source

variable {w : World} {policy : BackupPolicy} {deviceId : String} {scan : Scan}

theorem scanLoop_foldl (acc : Scan) (visits : List Visit)
    (hkind : ∀ v ∈ visits, v.reason = none → v.node.kind = .directory ∨ v.node.kind = .regular)
    (hacc : acc.exclusions.length ≤ 1024) :
    visits.foldl scanVisit acc = {
      bytesTotal := acc.bytesTotal + ((visits.filter (·.reason = none)).map (·.node.size)).sum
      fileCount := acc.fileCount +
        (visits.filter (·.reason = none)).countP fun v => v.node.kind = .regular
      directoryCount := acc.directoryCount +
        (visits.filter (·.reason = none)).countP fun v => v.node.kind = .directory
      exclusions := (acc.exclusions ++ visits.filterMap fun v : Visit =>
        v.reason.map (BackupExclusion.mk v.relative.posix)).take 1024 } := by
  induction visits generalizing acc with
  | nil => simp [List.take_of_length_le hacc]
  | cons v visits ih =>
    rw [List.forall_mem_cons] at hkind
    rw [List.foldl_cons]
    cases hreason : v.reason with
    | some reason =>
      by_cases hfull : acc.exclusions.length < 1024
      · have hstep : scanVisit acc v =
            { acc with exclusions := acc.exclusions ++ [⟨v.relative.posix, reason⟩] } := by
          rw [scanVisit, hreason]
          exact if_pos hfull
        rw [hstep, ih _ hkind.2 (by simp; omega)]
        simp [hreason]
      · have hstep : scanVisit acc v = acc := by
          rw [scanVisit, hreason]
          exact if_neg hfull
        have hlen : acc.exclusions.length = 1024 := by omega
        rw [hstep, ih _ hkind.2 hacc]
        simp [hreason, hlen]
    | none =>
      rcases hkind.1 hreason with hdir | hreg
      · have hstep : scanVisit acc v = { acc with directoryCount := acc.directoryCount + 1 } := by
          rw [scanVisit, hreason, hdir]
        have hsize : v.node.size = 0 := by
          cases hnode : v.node <;> simp_all [Tree.kind, Tree.size]
        rw [hstep, ih _ hkind.2 (by exact hacc)]
        simp [hreason, hdir, hsize]
        omega
      · have hstep : scanVisit acc v = { acc with
            fileCount := acc.fileCount + 1
            bytesTotal := acc.bytesTotal + v.node.size } := by
          rw [scanVisit, hreason, hreg]
        rw [hstep, ih _ hkind.2 (by exact hacc)]
        simp [hreason, hreg]
        omega

theorem scanEntries_eq_loop (entries : Entries) :
    scanEntries policy deviceId entries = scanLoop (walkSource policy deviceId entries) := by
  have hkind : ∀ v ∈ walkSource policy deviceId entries, v.reason = none →
      v.node.kind = .directory ∨ v.node.kind = .regular := by
    intro v hv hreason
    have hin : v ∈ included policy deviceId entries :=
      List.mem_filter.mpr ⟨hv, decide_eq_true hreason⟩
    rcases kind_included hin with ⟨info, inner, hnode⟩ | ⟨info, content, hnode⟩
    · exact .inl (by rw [hnode]; rfl)
    · exact .inr (by rw [hnode]; rfl)
  rw [scanLoop, scanLoop_foldl _ _ hkind (by simp)]
  simp [scanEntries, included]

theorem walkCopy_walked (hscan : w.scan w.sourceRoot deviceId policy = .ok scan) :
    w.walkCopy w.sourceRoot deviceId policy =
      ((w.walked policy deviceId).map fun p => (p.1, p.2.relative), none) := by
  rw [World.scan, sourceFile_root] at hscan
  rw [World.walkCopy, sourceFile_root, World.walked]
  cases hsource : w.source with
  | directory info entries => simp
  | file info content => rfl
  | symlink | special =>
    rw [hsource] at hscan
    cases hscan

theorem scan_walked (hscan : w.scan w.sourceRoot deviceId policy = .ok scan) :
    scan.fileCount = (w.walked policy deviceId).countP (fun p => p.2.node.kind = .regular) ∧
    scan.directoryCount = (w.walked policy deviceId).countP (fun p => p.2.node.kind = .directory) ∧
    scan.bytesTotal = ((w.walked policy deviceId).map (·.2.node.size)).sum := by
  rw [World.scan, sourceFile_root] at hscan
  rw [World.walked]
  cases hsource : w.source with
  | directory info entries =>
    rw [hsource] at hscan
    obtain rfl := Except.ok.inj hscan
    simp [scanEntries, List.countP_map, Function.comp_def]
  | file info content =>
    rw [hsource] at hscan
    obtain rfl := Except.ok.inj hscan
    simp [Tree.kind, Tree.size]
  | symlink | special =>
    rw [hsource] at hscan
    cases hscan

section

variable (hsound : w.source.Sound)
include hsound

theorem walked_at : ∀ p ∈ w.walked policy deviceId,
    w.sourceFile p.1 = some p.2.node ∧ Copyable p.2.node := by
  intro p hp
  rw [World.walked] at hp
  cases hsource : w.source with
  | directory info entries =>
    rw [hsource] at hp hsound
    obtain ⟨v, hv, rfl⟩ := List.mem_map.mp hp
    refine ⟨?_, kind_included hv⟩
    have hne := (included_legal hsound.2 hv).1
    rw [World.sourceFile, below_append, Option.bind_some, sourceAt_directory hsource hne]
    exact find_included hsound.1 hsound.2 hv
  | file info content =>
    rw [hsource] at hp
    obtain rfl := List.mem_singleton.mp hp
    refine ⟨?_, .inr ⟨info, content, rfl⟩⟩
    rw [sourceFile_root, hsource]
  | symlink | special =>
    rw [hsource] at hp
    cases hp

theorem walked_ordered (htop : w.sourceRoot = [] → w.source.kind = .directory) :
    Ordered [] ((w.walked policy deviceId).map (·.2)) := by
  rw [World.walked]
  cases hsource : w.source with
  | directory info entries =>
    rw [hsource] at hsound
    have hordered : Ordered [] (included policy deviceId entries) :=
      included_ordered hsound.1 hsound.2
    simpa [Function.comp_def] using hordered
  | file info content =>
    obtain ⟨above, name, hpath⟩ : ∃ above name, w.sourceRoot = above ++ [name] := by
      rcases List.eq_nil_or_concat' w.sourceRoot with hnil | hconcat
      · have hkind := htop hnil
        rw [hsource] at hkind
        cases hkind
      · exact hconcat
    refine ⟨⟨by simp, [], name, ?_, .inl rfl⟩, trivial⟩
    show w.sourceRoot.getLast?.toList = _
    rw [hpath, List.getLast?_concat]
    rfl
  | symlink | special => trivial

end

end Source

/-! ### The two walks -/

section SameWalk

variable {w : World} {policy : BackupPolicy} {deviceId : String} {scan : Scan}

/-- The items that are copied are those that were counted: each of them once, every directory before
what is beneath it, and nothing at or beneath what is left out. -/
structure SameWalk (w : World) (policy : BackupPolicy) (deviceId : String) (scan : Scan)
    (items : List (Path × Path)) : Prop where
  counted : ∀ item relative, (item, relative) ∈ items ↔ w.Counts policy deviceId item relative
  files : scan.fileCount = items.countP fun i => w.kindAt i.1 = some .regular
  directories : scan.directoryCount = items.countP fun i => w.kindAt i.1 = some .directory
  bytes : scan.bytesTotal = (items.map fun i => w.sizeAt i.1).sum
  once : (items.map Prod.snd).Nodup
  above : ∀ before item after, items = before ++ item :: after →
    ∀ path, path <+: item.2 → path ≠ [] → path ≠ item.2 →
      ∃ dir, (dir, path) ∈ before ∧ w.kindAt dir = some .directory
  left : ∀ info entries, w.source = .directory info entries →
    ∀ v ∈ walkSource policy deviceId entries, v.reason ≠ none →
      ∀ item ∈ items, ¬v.relative <+: item.2
  loop : ∀ info entries, w.source = .directory info entries →
    scan = scanLoop (walkSource policy deviceId entries)
  ends : ∀ info entries, w.source = .directory info entries →
    remaining policy deviceId (1 + directoriesIn entries) [([], entries)] = []

theorem mem_walked {item relative : Path} :
    (∃ v, (item, v) ∈ w.walked policy deviceId ∧ v.relative = relative) ↔
      w.Counts policy deviceId item relative := by
  rw [World.walked, World.Counts]
  cases hsource : w.source with
  | directory info entries =>
    constructor
    · rintro ⟨v, hv, rfl⟩
      obtain ⟨u, hu, heq⟩ := List.mem_map.mp hv
      obtain ⟨rfl, rfl⟩ := Prod.mk.inj heq
      obtain ⟨base, name, node, hreach, hreason, rfl⟩ := mem_included.mp hu
      exact ⟨rfl, base, name, node, rfl, hreach, hreason⟩
    · rintro ⟨rfl, base, name, node, rfl, hreach, hreason⟩
      exact ⟨_, List.mem_map_of_mem (mem_included.mpr ⟨base, name, node, hreach, hreason, rfl⟩), rfl⟩
  | file info content => simp [eq_comm]
  | symlink | special => simp

variable (hsound : w.source.Sound)
include hsound

theorem kindAt_walked {p : Path × Visit} (hp : p ∈ w.walked policy deviceId) :
    w.kindAt p.1 = some p.2.node.kind := by
  rw [World.kindAt, lstat_of_sourceFile (walked_at hsound p hp).1]
  rfl

theorem sizeAt_walked {p : Path × Visit} (hp : p ∈ w.walked policy deviceId) :
    w.sizeAt p.1 = p.2.node.size := by
  rw [World.sizeAt, lstat_of_sourceFile (walked_at hsound p hp).1]
  rfl

theorem sameWalk (htop : w.sourceRoot = [] → w.source.kind = .directory)
    (hscan : w.scan w.sourceRoot deviceId policy = .ok scan) :
    SameWalk w policy deviceId scan
      ((w.walked policy deviceId).map fun p => (p.1, p.2.relative)) := by
  have hordered : Ordered [] ((w.walked policy deviceId).map (·.2)) := walked_ordered hsound htop
  obtain ⟨hfiles, hdirectories, hbytes⟩ := scan_walked hscan
  refine ⟨fun item relative => ?_, ?_, ?_, ?_, ?_, fun before item after hsplit path hpre hne hproper => ?_,
    fun info entries hsource v hv hreason item hitem => ?_, fun info entries hsource => ?_,
    fun info entries _ => walkSource_ends policy deviceId entries⟩
  · rw [← mem_walked]
    simp [List.mem_map]
  · rw [hfiles, List.countP_map]
    exact List.countP_congr fun p hp => by simp [kindAt_walked hsound hp]
  · rw [hdirectories, List.countP_map]
    exact List.countP_congr fun p hp => by simp [kindAt_walked hsound hp]
  · rw [hbytes, List.map_map]
    exact congrArg List.sum (List.map_congr_left fun p hp => (sizeAt_walked hsound hp).symm)
  · have hnodup := hordered.new.1
    simpa [List.map_map, Function.comp_def] using hnodup
  · obtain ⟨first, rest, hwalked, rfl, hrest⟩ := List.map_eq_append_iff.mp hsplit
    obtain ⟨p, last, rfl, rfl, -⟩ := List.map_eq_cons_iff.mp hrest
    rw [hwalked, List.map_append, List.map_cons] at hordered
    obtain ⟨t, ht, hrel, -, hkind⟩ := hordered.above_before hpre hne hproper
    obtain ⟨q, hq, rfl⟩ := List.mem_map.mp ht
    refine ⟨q.1, List.mem_map.mpr ⟨q, hq, by rw [← hrel]⟩, ?_⟩
    rw [kindAt_walked hsound (hwalked ▸ List.mem_append_left _ hq), hkind]
  · obtain ⟨p, hp, rfl⟩ := List.mem_map.mp hitem
    rw [World.walked, hsource] at hp
    obtain ⟨u, hu, rfl⟩ := List.mem_map.mp hp
    rw [hsource] at hsound
    exact not_beneath_excluded hsound.1 hsound.2 hv hreason hu
  · rw [World.scan, sourceFile_root, hsource] at hscan
    rw [← scanEntries_eq_loop]
    exact (Except.ok.inj hscan).symm

end SameWalk

/-! ### Copying what was walked -/

section Copies

variable {lib : Library} {w u : World} {plan : BackupPlan} {root base : Path}

/-- The places of a machine: the directories above a source on the disk of the destination are there,
every file of the disk is in a directory, and a directory that is made with 0o700 can be used. -/
structure Placed (w : World) : Prop where
  above : ∀ rel, w.destinationRoot ++ rel <+: w.sourceRoot → w.destinationRoot ++ rel ≠ w.sourceRoot →
    w.disk.isDirectory (w.key rel) = true
  closed : w.disk.Closed
  unlocked : w.locks 0o700 = false

section Made

variable {m : Medium} {d d' : Disk} {rel listed : Path} {mode : Nat}

theorem mkdir_eq_some {existOk : Bool} (h : d.mkdir m rel listed mode false existOk = some d') :
    (existOk = true ∧ d' = d) ∨ (d.at? rel = none ∧ d.isDirectory rel.dropLast = true ∧
      d' = d ++ [(rel, .directory listed mode)]) := by
  rw [Disk.mkdir] at h
  cases hat : d.at? rel with
  | some node =>
    rw [hat] at h
    cases node with
    | directory =>
      cases existOk with
      | true => exact .inl ⟨rfl, (Option.some.inj h).symm⟩
      | false => cases h
    | file content => cases h
  | none =>
    rw [hat] at h
    simp only [Bool.false_eq_true, if_false] at h
    split at h
    · cases h
    · split at h
      · obtain ⟨⟨-, hopen⟩, rfl⟩ := Disk.add_eq_some.mp h
        exact .inr ⟨rfl, Disk.isDirectory_of_isOpen hopen, rfl⟩
      · cases h

theorem Disk.Closed.mkdir {existOk : Bool} (hc : d.Closed)
    (h : d.mkdir m rel listed mode false existOk = some d') : d'.Closed := by
  rcases mkdir_eq_some h with ⟨-, rfl⟩ | ⟨-, hparent, rfl⟩
  · exact hc
  · exact hc.add hparent

theorem Partial.made {read : FileInfo → List UInt8 → List UInt8} (hc : d.Closed)
    (htaken : m.takes root = true) (hunlocked : m.locks mode = false)
    (h : d.mkdir m (m.key root) listed mode false false = some d') :
    Partial m read d' root [] := by
  obtain ⟨hok, -⟩ | ⟨hfree, hparent, rfl⟩ := mkdir_eq_some h
  · cases hok
  · have hne : m.key root ≠ [] := by
      intro hnil
      rw [hnil] at hfree
      cases hfree
    refine ⟨htaken, Disk.isOpen_iff.mpr ⟨_, _, Disk.at?_last hne hfree, hunlocked⟩, hc.add hparent,
      by simp, by simp, fun rel node hrel hmem => ?_⟩
    rcases List.mem_append.mp hmem with hmem | hmem
    · have hsome : d.at? (m.key root ++ rel) ≠ none := by
        rw [Ne, Disk.at?_eq_none (by simp [hrel])]
        exact fun hnone => hnone node hmem
      have hdir := hc.above hsome (List.prefix_append _ rel) (by simpa using hrel)
      exact absurd hfree (Disk.at?_ne_none hdir)
    · have heq := (Prod.mk.inj (List.mem_singleton.mp hmem)).1
      exact absurd heq (by simpa using hrel)

end Made

theorem holds_beneath (hplaced : Placed w) (hbase : w.onDisk base = some root)
    (hnone : w.disk.at? (w.key root) = none) :
    base = w.destinationRoot ++ root ∧ w.takes root = true ∧ w.Holds base root ∧
      ∀ rel, w.sourceFile (base ++ rel) = none := by
  rw [World.onDisk] at hbase
  split at hbase
  · cases hbase
  next hout =>
    rw [List.isPrefixOf_iff_prefix] at hout
    obtain ⟨hbelow, htaken⟩ := Option.filter_eq_some_iff.mp hbase
    obtain rfl := below_eq_some hbelow
    have hapart : ∀ rel, w.sourceRoot.isPrefixOf (w.destinationRoot ++ root ++ rel) = false := by
      intro rel
      rw [Bool.eq_false_iff, Ne, List.isPrefixOf_iff_prefix]
      intro hpre
      rcases List.prefix_or_prefix_of_prefix hpre (List.prefix_append _ rel) with hpre | hpre
      · exact hout hpre
      · have hdir := hplaced.above root hpre fun heq => hout (by rw [heq])
        exact Disk.at?_ne_none hdir hnone
    refine ⟨rfl, htaken, fun rel => ?_, fun rel => ?_⟩
    · rw [World.onDisk, hapart, List.append_assoc, below_append]
      exact Option.filter_some
    · rw [World.sourceFile, below, hapart]
      rfl

theorem prepared_ok {aresRoot final : Path} (hplaced : Placed w)
    (h : (prepareBackupDestination aresRoot final base).serve World.server w = (.ok (), u)) :
    Unchanged w u ∧ ∃ root, u.Holds base root ∧ (∀ rel, u.sourceFile (base ++ rel) = none) ∧
      Partial u.toMedium u.read u.disk root [] := by
  refine ⟨unchanged_of_quiet (quiet_prepareBackupDestination _ _ _) h, ?_⟩
  simp only [prepareBackupDestination, bind_eq] at h
  obtain ⟨finalTaken, -, h⟩ := attempt_bind_ok h
  obtain ⟨-, h⟩ := require_bind_ok h
  obtain ⟨taken, htaken, h⟩ := attempt_bind_ok h
  obtain ⟨hfree, h⟩ := require_bind_ok h
  obtain ⟨_, hmade, h⟩ := attempt_bind_ok h
  obtain ⟨outside, -, h⟩ := attempt_bind_ok h
  obtain ⟨-, h⟩ := require_bind_ok h
  rw [runs_attempt] at h
  have hlstat : w.lstat base = none := by
    obtain rfl : (w.lstat base).isSome = taken := Except.ok.inj htaken
    simpa using hfree
  obtain ⟨d, hd, hstate⟩ : ∃ d, ((w.onDisk aresRoot).bind fun rel =>
        w.disk.mkdir w.toMedium (w.key rel) (w.listed rel) 0o700 false true) = some d ∧
      (w.answer (.mkdir aresRoot 0o700 false true)).2 = { w with disk := d } := change_eq_ok hmade
  obtain ⟨aresRel, -, hmkdir⟩ := Option.bind_eq_some_iff.mp hd
  have hclosed : d.Closed := hplaced.closed.mkdir hmkdir
  have hstep : World.answer { w with disk := d } (.mkdir base 0o700 false false) = (.ok (), u) := by
    rw [← hstate]
    exact h
  obtain ⟨d', hd', hstate'⟩ := change_eq_ok (congrArg Prod.fst hstep)
  obtain ⟨root, hon, hnew⟩ := Option.bind_eq_some_iff.mp hd'
  obtain rfl : u = { w with disk := d' } := (congrArg Prod.snd hstep).symm.trans hstate'
  have hbase : w.onDisk base = some root := hon
  have hnone : w.disk.at? (w.key root) = none := by
    rw [World.lstat, hbase] at hlstat
    simpa using hlstat
  obtain ⟨-, htakes, hholds, hsource⟩ := holds_beneath hplaced hbase hnone
  exact ⟨root, hholds, hsource, Partial.made hclosed htakes hplaced.unlocked hnew⟩

theorem rejectSameStorage_ok {a b : String} {c d : Option String} {r : Unit}
    (h : (rejectSameStorage a b c d).serve World.server w = (.ok r, u)) : u = w := by
  simp only [rejectSameStorage, bind_eq] at h
  obtain ⟨-, h⟩ := require_bind_ok h
  exact (serve_require_eq_ok h).2

theorem validateDestination_ok {path : Path} {info : MountInfo} {r : Unit}
    (h : (validateDestination path info).serve World.server w = (.ok r, u)) : u = w := by
  simp only [validateDestination, bind_eq] at h
  obtain ⟨-, h⟩ := require_bind_ok h
  obtain ⟨-, h⟩ := require_bind_ok h
  obtain ⟨writable, -, h⟩ := attempt_bind_ok h
  exact (serve_require_eq_ok h).2

/-- A plan that is accepted has the counts of the source. -/
theorem revalidatePlan_counts {now : DateTime}
    (h : (revalidatePlan lib plan).serve World.server w = (.ok now, u)) :
    u = { w with readings := w.readings + 1 } ∧ ∃ scan,
      w.scan (components plan.source.path) plan.source.deviceId plan.policy = .ok scan ∧
      scan.bytesTotal = plan.source.estimatedSizeBytes ∧
      scan.fileCount = plan.includedFileCount ∧
      scan.directoryCount = plan.includedDirectoryCount := by
  simp only [revalidatePlan, bind_eq] at h
  obtain ⟨time, -, h⟩ := attempt_bind_ok h
  obtain ⟨-, h⟩ := require_bind_ok h
  obtain ⟨source, t, hsource, h⟩ := serve_bind_eq_ok h
  obtain ⟨rfl, rfl⟩ := canonicalExisting_ok hsource
  obtain ⟨destination, t, hdestination, h⟩ := serve_bind_eq_ok h
  obtain ⟨rfl, rfl⟩ := canonicalExisting_ok hdestination
  rw [serve_bind_ok (serve_mountFor _ _), serve_bind_ok (serve_mountFor _ _)] at h
  obtain ⟨info, -, h⟩ := ofOption_bind_ok h
  obtain ⟨hdevice, h⟩ := require_bind_ok h
  obtain ⟨info', -, h⟩ := ofOption_bind_ok h
  obtain ⟨-, h⟩ := require_bind_ok h
  obtain ⟨physical, -, h⟩ := attempt_bind_ok h
  obtain ⟨physical', -, h⟩ := attempt_bind_ok h
  obtain ⟨-, h⟩ := require_bind_ok h
  obtain ⟨-, h⟩ := require_bind_ok h
  obtain ⟨_, t, hsame, h⟩ := serve_bind_eq_ok h
  obtain rfl := rejectSameStorage_ok hsame
  obtain ⟨_, t, hvalid, h⟩ := serve_bind_eq_ok h
  obtain rfl := validateDestination_ok hvalid
  obtain ⟨-, h⟩ := require_bind_ok h
  obtain ⟨taken, -, h⟩ := attempt_bind_ok h
  obtain ⟨-, h⟩ := require_bind_ok h
  obtain ⟨scan, hscan, h⟩ := attempt_bind_ok h
  obtain ⟨hcounts, h⟩ := require_bind_ok h
  obtain ⟨available, t, havailable, h⟩ := serve_bind_eq_ok h
  have hcall := osAs_ok havailable
  rw [runs_attempt] at hcall
  obtain ⟨-, h⟩ := require_bind_ok h
  obtain ⟨-, h⟩ := require_bind_ok h
  simp only [Bool.and_eq_true, decide_eq_true_eq] at hcounts hdevice
  obtain ⟨⟨⟨hbytes, hfiles⟩, hdirectories⟩, -⟩ := hcounts
  refine ⟨(congrArg Prod.snd h).symm.trans (congrArg Prod.snd hcall).symm, scan, ?_, hbytes, hfiles,
    hdirectories⟩
  rw [← hdevice]
  exact hscan

/-- `create_backup` has come to its copying: the plan was accepted, and the destination prepared. -/
structure Begun (lib : Library) (w : World) (plan : BackupPlan) (base : Path) (u : World) : Prop where
  placed : Placed w
  source : components plan.source.path = w.sourceRoot
  top : w.sourceRoot = [] → w.source.kind = .directory
  ran : ∃ now t aresRoot final,
    (revalidatePlan lib plan).serve World.server w = (.ok now, t) ∧
    (prepareBackupDestination aresRoot final base).serve World.server t = (.ok (), u)

def Distinguishes (m : Medium) (items : List (Path × Path)) : Prop :=
  ∀ i ∈ items, ∀ j ∈ items, m.key i.2 = m.key j.2 → i.2 = j.2

/-- As many bytes are read of the items as `st_size` says. -/
def Sized (w : World) (items : List (Path × Path)) : Prop :=
  ∀ i ∈ items, ∀ info content, w.sourceFile i.1 = some (.file info content) →
    (w.read info content).length = content.length

/-- Copying meets nothing in its way, where the destination tells the items apart, and what it has
copied is what was planned, where the reads of the files agree with their `st_size`. -/
structure Unhindered (lib : Library) (w : World) (plan : BackupPlan) (base : Path) (u : World)
    (items : List (Path × Path)) : Prop where
  /-- Nothing is where `mkdir(exist_ok=False)` makes a directory. -/
  free : Distinguishes w.toMedium items → ∀ before item after, items = before ++ item :: after →
    u.kindAt item.1 = some .directory →
    ∀ r t, (copyEntries lib base before).serve World.server u = (.ok r, t) →
      t.lstat (base ++ item.2) = none
  compared : Sized w items → ∀ entries bytesDone t,
    (copyEntries lib base items).serve World.server u = (.ok (entries, bytesDone), t) →
      fileCount entries = plan.includedFileCount ∧
      directoryCount entries = plan.includedDirectoryCount ∧
      totalSize entries = plan.source.estimatedSizeBytes ∧ bytesDone = totalSize entries

theorem Begun.unhindered {scan : Scan} (hsound : w.source.Sound)
    (hscan : w.scan w.sourceRoot plan.source.deviceId plan.policy = .ok scan)
    (h : Begun lib w plan base u) :
    Unhindered lib w plan base u
      ((w.walked plan.policy plan.source.deviceId).map fun p => (p.1, p.2.relative)) := by
  obtain ⟨now, t, aresRoot, final, hvalid, hprepared⟩ := h.ran
  obtain ⟨rfl, scan', hscan', hbytes, hfiles, hdirectories⟩ := revalidatePlan_counts hvalid
  rw [h.source, hscan, Except.ok.injEq] at hscan'
  subst hscan'
  have hplaced : Placed { w with readings := w.readings + 1 } :=
    ⟨h.placed.above, h.placed.closed, h.placed.unlocked⟩
  obtain ⟨hsame, root, hholds, hsource, hpart⟩ := prepared_ok hplaced hprepared
  obtain ⟨readings, drawn, disk, rfl⟩ := hsame
  have hpairs : ∀ p ∈ w.walked plan.policy plan.source.deviceId,
      w.sourceFile p.1 = some p.2.node ∧ Copyable p.2.node := fun p hp => walked_at hsound p hp
  have hordered : Ordered [] ((w.walked plan.policy plan.source.deviceId).map (·.2)) :=
    walked_ordered hsound h.top
  constructor
  · intro hapart before item after hsplit _ r t hcopied
    obtain ⟨first, rest, hwalked, rfl, hrest⟩ := List.map_eq_append_iff.mp hsplit
    obtain ⟨p, last, rfl, rfl, -⟩ := List.map_eq_cons_iff.mp hrest
    have hfirst : ∀ q ∈ first, q ∈ w.walked plan.policy plan.source.deviceId := fun q hq =>
      hwalked ▸ List.mem_append_left _ hq
    have hp : p ∈ w.walked plan.policy plan.source.deviceId :=
      hwalked ▸ List.mem_append_right _ List.mem_cons_self
    rw [hwalked, List.map_append, List.map_cons, ordered_append] at hordered
    obtain ⟨ha, hmade⟩ := copyEntries_eq_ok lib hholds (fun q hq => hpairs q (hfirst q hq)) hpart
      hordered.1 hcopied
    have hrun := serve_copyEntries lib hholds (fun q hq => hpairs q (hfirst q hq)) hpart
      hordered.1 ha hmade
    obtain ⟨-, rfl⟩ := Prod.mk.inj (hrun.symm.trans hcopied)
    have hfresh := hordered.2.1
    have hfree := ((hpart.run hordered.1 ha).free_iff hfresh.ne_nil).mpr fun s hs heq => by
      rw [List.append_nil, List.mem_reverse] at hs
      obtain ⟨q, hq, rfl⟩ := List.mem_map.mp hs
      refine hfresh.new q.2 (by simpa using hs) ?_
      exact hapart _ (List.mem_map_of_mem (hfirst q hq)) _ (List.mem_map_of_mem hp) heq
    rw [World.lstat]
    split
    · next rel hon =>
      obtain ⟨-, rfl⟩ := hholds.eq_of_onDisk hon
      exact congrArg (Option.map Node.stat) hfree
    · exact congrArg (Option.map Tree.stat) (hsource p.2.relative)
  · intro hsized entries bytesDone t hcopied
    obtain ⟨ha, hmade⟩ := copyEntries_eq_ok lib hholds hpairs hpart hordered hcopied
    have hrun := serve_copyEntries lib hholds hpairs hpart hordered ha hmade
    obtain ⟨heq, -⟩ := Prod.mk.inj (hrun.symm.trans hcopied)
    obtain ⟨rfl, rfl⟩ := Prod.mk.inj (Except.ok.inj heq)
    have hkinds : ∀ v ∈ (w.walked plan.policy plan.source.deviceId).map (·.2), Copyable v.node := by
      intro v hv
      obtain ⟨p, hp, rfl⟩ := List.mem_map.mp hv
      exact (hpairs p hp).2
    have hread : (w.walked plan.policy plan.source.deviceId).map
        (fun p => copiedBytes w.read p.2.node) =
          (w.walked plan.policy plan.source.deviceId).map fun p => p.2.node.size := by
      refine List.map_congr_left fun p hp => ?_
      obtain ⟨hfile, hcopyable⟩ := hpairs p hp
      rcases hcopyable with ⟨info, inner, hnode⟩ | ⟨info, content, hnode⟩
      · rw [hnode]
        rfl
      · rw [hnode] at hfile ⊢
        exact hsized _ (List.mem_map_of_mem hp) info content hfile
    obtain ⟨hf, hd, hb⟩ := scan_walked hscan
    refine ⟨?_, ?_, ?_, ?_⟩
    · rw [fileCount_entries lib hkinds, ← hfiles, hf, List.countP_map]
      rfl
    · rw [directoryCount_entries lib hkinds, ← hdirectories, hd, List.countP_map]
      rfl
    · rw [totalSize_entries lib hkinds, ← hbytes, hb, List.map_map]
      rfl
    · rw [totalSize_entries lib hkinds, List.map_map]
      exact congrArg List.sum hread

/-- Planning and copying walk the same tree of an unchanged source; so nothing is in the way of a
copying that has begun when the destination tells the items apart, and what it copies is what was
planned when the reads of the files agree with their `st_size`. -/
theorem walks_same {policy : BackupPolicy} {deviceId : String} {scan : Scan} (hsound : w.source.Sound)
    (htop : w.sourceRoot = [] → w.source.kind = .directory)
    (hscan : w.scan w.sourceRoot deviceId policy = .ok scan) :
    ∃ items, w.walkCopy w.sourceRoot deviceId policy = (items, none) ∧
      SameWalk w policy deviceId scan items ∧
      ∀ lib plan base u, plan.policy = policy → plan.source.deviceId = deviceId →
        Begun lib w plan base u → Unhindered lib w plan base u items := by
  refine ⟨_, walkCopy_walked hscan, sameWalk hsound htop hscan, ?_⟩
  rintro lib plan base u rfl rfl hbegun
  exact hbegun.unhindered hsound hscan

end Copies

/-- The machine of the round trip, when its backup is about to be copied. -/
theorem walks_same_sample :
    ∃ items, (sampleWorld "notes.txt").planned.walkCopy ["src"] "8:1" samplePolicy = (items, none) ∧
      SameWalk (sampleWorld "notes.txt").planned samplePolicy "8:1"
        (scanEntries samplePolicy "8:1" (sampleEntries "notes.txt")) items ∧
      Unhindered (sampleLibrary "notes.txt") (sampleWorld "notes.txt").planned
        ((sampleWorld "notes.txt").plan (sampleLibrary "notes.txt") samplePolicy
          (sampleEntries "notes.txt") (sampleMount "8:1" ["src"]) (sampleMount "8:17" ["dst"]))
        ((sampleWorld "notes.txt").destinationRoot ++ (sampleWorld "notes.txt").partialRel)
        { (sampleWorld "notes.txt").begun with disk := (sampleWorld "notes.txt").prepared } items := by
  have hlegal : Legal "notes.txt" := ⟨by decide, by decide, by decide⟩
  have hready := sample_ready samplePolicy "notes.txt" hlegal (by decide) (by decide) (by decide)
  have hsound : (sampleWorld "notes.txt").planned.source.Sound := by
    simp [World.planned, sampleWorld, Tree.Sound, SoundIn, hlegal]
  have hscan : (sampleWorld "notes.txt").planned.scan (sampleWorld "notes.txt").planned.sourceRoot
      "8:1" samplePolicy = .ok (scanEntries samplePolicy "8:1" (sampleEntries "notes.txt")) := rfl
  obtain ⟨items, hwalk, hsame, hall⟩ := walks_same hsound (by decide) hscan
  refine ⟨items, hwalk, hsame, hall _ _ _ _ rfl rfl ⟨⟨fun rel hpre => ?_, ?_, rfl⟩, ?_, by decide, ?_⟩⟩
  · simp [World.planned, sampleWorld] at hpre
  · exact fun entry hmem => by cases hmem
  · exact components_str (named_of_legal hready.sourceLegal)
  · exact ⟨_, _, _, _, runs_revalidatePlan hready (by decide), hready.runs_prepare⟩

/-! ### Names that the destination does not tell apart, and reads that end early -/

def foldingEntries : Entries :=
  [("Docs", .directory ⟨0o755, 0, "8:1", 3, false⟩ []),
    ("docs", .directory ⟨0o755, 0, "8:1", 4, false⟩ [])]

/-- The destination takes `docs` for `Docs`. -/
def foldingWorld : World :=
  { sampleWorld "notes.txt" with
    source := .directory ⟨0o755, 0, "8:1", 2, false⟩ foldingEntries
    fold := fun name => if name = "docs" then "Docs" else name
    ids := fun _ => "id" }

/-- The reads of `notes.txt` give one byte of its two. -/
def shortWorld : World :=
  { sampleWorld "notes.txt" with blocks := fun _ _ => [[104]], ids := fun _ => "id" }

def foldingPlan : BackupPlan :=
  foldingWorld.plan (sampleLibrary "notes.txt") samplePolicy foldingEntries (sampleMount "8:1" ["src"])
    (sampleMount "8:17" ["dst"])

def shortPlan : BackupPlan :=
  shortWorld.plan (sampleLibrary "notes.txt") samplePolicy (sampleEntries "notes.txt")
    (sampleMount "8:1" ["src"]) (sampleMount "8:17" ["dst"])

def preparedFor (w : World) (plan : BackupPlan) : Except Error Unit × World :=
  (prepareBackupDestination (w.destinationRoot ++ ["ARES"]) (w.destinationRoot ++ w.finalRel)
    (w.destinationRoot ++ w.partialRel)).serve World.server
      (w.planned.runs (revalidatePlan (sampleLibrary "notes.txt") plan)).2

theorem begun_prepared {w : World} {plan : BackupPlan} (now : DateTime) (hplaced : Placed w.planned)
    (hsource : components plan.source.path = w.sourceRoot) (hne : w.sourceRoot ≠ [])
    (hvalid : (w.planned.runs (revalidatePlan (sampleLibrary "notes.txt") plan)).1 = .ok now)
    (hprepared : (preparedFor w plan).1 = .ok ()) :
    Begun (sampleLibrary "notes.txt") w.planned plan (w.destinationRoot ++ w.partialRel)
      (preparedFor w plan).2 :=
  ⟨hplaced, hsource, fun hnil => absurd hnil hne, now, _, _, _, Prod.ext hvalid rfl,
    Prod.ext hprepared rfl⟩

/-- On the first machine `mkdir` finds its target present; on the second, fewer bytes are read than
were counted. -/
theorem folded_and_short : (∃ u before item r t,
      Begun (sampleLibrary "notes.txt") foldingWorld.planned foldingPlan
        (foldingWorld.destinationRoot ++ foldingWorld.partialRel) u ∧
      foldingWorld.planned.walkCopy ["src"] "8:1" samplePolicy = (before ++ [item], none) ∧
      u.kindAt item.1 = some .directory ∧
      (copyEntries (sampleLibrary "notes.txt")
        (foldingWorld.destinationRoot ++ foldingWorld.partialRel) before).serve World.server u =
          (.ok r, t) ∧
      t.lstat (foldingWorld.destinationRoot ++ foldingWorld.partialRel ++ item.2) ≠ none) ∧
    (foldingWorld.planned.runs (createBackup (sampleLibrary "notes.txt") foldingPlan)).1 =
      .error (.tool "BACKUP_IO_FAILED") ∧
    (∃ u items entries bytesDone t,
      Begun (sampleLibrary "notes.txt") shortWorld.planned shortPlan
        (shortWorld.destinationRoot ++ shortWorld.partialRel) u ∧
      shortWorld.planned.walkCopy ["src"] "8:1" samplePolicy = (items, none) ∧
      (copyEntries (sampleLibrary "notes.txt")
        (shortWorld.destinationRoot ++ shortWorld.partialRel) items).serve World.server u =
          (.ok (entries, bytesDone), t) ∧ bytesDone ≠ totalSize entries) ∧
    (shortWorld.planned.runs (createBackup (sampleLibrary "notes.txt") shortPlan)).1 =
      .error (.tool "BACKUP_SOURCE_CHANGED") := by
  have hplaced : ∀ w : World, w.disk = [] → w.sourceRoot = ["src"] → w.destinationRoot = ["dst"] →
      w.locks 0o700 = false → Placed w := by
    intro w hdisk hsource hdestination hunlocked
    refine ⟨fun rel hpre => ?_, fun entry hmem => ?_, hunlocked⟩
    · simp [hsource, hdestination] at hpre
    · rw [hdisk] at hmem
      cases hmem
  refine ⟨⟨(preparedFor foldingWorld foldingPlan).2, [(["src", "Docs"], ["Docs"])],
    (["src", "docs"], ["docs"]), ([⟨"Docs", 0, 0, 0o755, .directory, none⟩], 0), _,
    begun_prepared 2 (hplaced _ rfl rfl rfl rfl) ?_ ?_ ?_ ?_, rfl, ?_,
    Prod.ext ?_ rfl, ?_⟩, ?_, ⟨(preparedFor shortWorld shortPlan).2,
    [(["src", "notes.txt"], ["notes.txt"])],
    [⟨"notes.txt", 2, 0, 0o644, .file, some (Storage.sampleSha 'c' '0')⟩], 1, _,
    begun_prepared 2 (hplaced _ rfl rfl rfl rfl) ?_ ?_ ?_ ?_, rfl, Prod.ext ?_ rfl, ?_⟩, ?_⟩
  all_goals decide +kernel

end Ares.Backups
