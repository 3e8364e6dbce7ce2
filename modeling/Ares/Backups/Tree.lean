import Ares.Backups.Tools

/-! The source of a backup as a tree, and the walk over it that planning and copying share. -/

namespace Ares.Backups

open Data

/-- What `stat` says about a file of the source, apart from its kind and size. -/
structure FileInfo where
  mode : Nat
  mtimeNs : Int
  device : String
  inode : Nat
  /-- `entry.stat` raises `OSError`. -/
  unstatable : Bool
deriving DecidableEq

/-- A file of the source.  The entries of a directory stand in the order in which `sorted` puts them,
by their names. -/
inductive Tree
  | file (info : FileInfo) (content : List UInt8)
  | directory (info : FileInfo) (entries : List (String × Tree))
  | symlink (info : FileInfo)
  | special (info : FileInfo)

abbrev Entries := List (String × Tree)

namespace Tree

def info : Tree → FileInfo
  | file info _ | directory info _ | symlink info | special info => info

def kind : Tree → FileKind
  | file _ _ => .regular
  | directory _ _ => .directory
  | symlink _ => .symlink
  | special _ => .special

def size : Tree → Nat
  | file _ content => content.length
  | _ => 0

def stat (t : Tree) : Stat where
  kind := t.kind
  mode := t.info.mode
  size := t.size
  mtimeNs := t.info.mtimeNs
  device := t.info.device
  inode := t.info.inode

end Tree

/-- Something that the walk yields. -/
structure Visit where
  relative : Path
  node : Tree
  reason : Option String

section Walk

variable (policy : BackupPolicy) (deviceId : String)

def excludedReason (name : String) (node : Tree) : Option String :=
  if policy.excludedNames.contains name then some "policy_excluded_name"
  else if node.kind = .symlink then some "symlink_not_followed"
  else if node.info.unstatable then some "stat_failed"
  else if node.info.device ≠ deviceId then some "cross_filesystem"
  else if node.kind = .directory || node.kind = .regular then none
  else some "special_file"

def visit (base : Path) (entry : String × Tree) : Visit where
  relative := base ++ [entry.1]
  node := entry.2
  reason := excludedReason policy deviceId entry.1 entry.2

def Visit.pending (v : Visit) : Option (Path × Entries) :=
  match v.reason, v.node with
  | none, .directory _ entries => some (v.relative, entries)
  | _, _ => none

/-- `_walk_source`, with at most `fuel` directories; the stack has its top first. -/
def walk : Nat → List (Path × Entries) → List Visit
  | 0, _ | _, [] => []
  | fuel + 1, (base, entries) :: stack =>
    let found := entries.map (visit policy deviceId base)
    found ++ walk fuel ((found.filterMap Visit.pending).reverse ++ stack)

end Walk

mutual

def Tree.directories : Tree → Nat
  | .directory _ entries => 1 + directoriesIn entries
  | .file _ _ | .symlink _ | .special _ => 0

def directoriesIn : Entries → Nat
  | [] => 0
  | (_, t) :: entries => t.directories + directoriesIn entries

end

/-- All that `_walk_source` yields for a directory. -/
def walkSource (policy : BackupPolicy) (deviceId : String) (entries : Entries) : List Visit :=
  walk policy deviceId (1 + directoriesIn entries) [([], entries)]

def included (policy : BackupPolicy) (deviceId : String) (entries : Entries) : List Visit :=
  (walkSource policy deviceId entries).filter (·.reason = none)

/-- `_scan_source` of a directory. -/
def scanEntries (policy : BackupPolicy) (deviceId : String) (entries : Entries) : Scan where
  bytesTotal := ((included policy deviceId entries).map (·.node.size)).sum
  fileCount := (included policy deviceId entries).countP fun v => v.node.kind = .regular
  directoryCount := (included policy deviceId entries).countP fun v => v.node.kind = .directory
  exclusions := ((walkSource policy deviceId entries).filterMap fun v =>
    v.reason.map fun reason => ⟨v.relative.posix, reason⟩).take 1024

/-! ### What the walk yields -/

section Reach

variable {policy : BackupPolicy} {deviceId : String}

/-- The walk of `entries` comes to the file `node` with the name `name` in the directory `base`. -/
inductive Reaches (policy : BackupPolicy) (deviceId : String) :
    Entries → Path → String → Tree → Prop
  | here {entries : Entries} {name : String} {node : Tree} (mem : (name, node) ∈ entries) :
      Reaches policy deviceId entries [] name node
  | inside {entries inner : Entries} {dir name : String} {info : FileInfo} {base : Path}
      {node : Tree} (mem : (dir, .directory info inner) ∈ entries)
      (open_ : excludedReason policy deviceId dir (.directory info inner) = none)
      (rest : Reaches policy deviceId inner base name node) :
      Reaches policy deviceId entries (dir :: base) name node

def weight (stack : List (Path × Entries)) : Nat :=
  (stack.map fun d => 1 + directoriesIn d.2).sum

theorem pending_eq_some {v : Visit} {d : Path × Entries} (h : v.pending = some d) :
    v.reason = none ∧ v.relative = d.1 ∧ ∃ info, v.node = .directory info d.2 := by
  obtain ⟨relative, node, reason⟩ := v
  cases reason with
  | some r => simp [Visit.pending] at h
  | none =>
    cases node with
    | directory info entries =>
      simp only [Visit.pending, Option.some.injEq] at h
      subst h
      exact ⟨rfl, rfl, info, rfl⟩
    | _ => simp [Visit.pending] at h

theorem weight_append (a b : List (Path × Entries)) : weight (a ++ b) = weight a + weight b := by
  simp [weight]

theorem weight_reverse (a : List (Path × Entries)) : weight a.reverse = weight a := by
  simp [weight, List.sum_reverse]

theorem weight_pending (base : Path) (entries : Entries) :
    weight ((entries.map (visit policy deviceId base)).filterMap Visit.pending) ≤
      directoriesIn entries := by
  induction entries with
  | nil => simp [weight]
  | cons entry entries ih =>
    obtain ⟨name, node⟩ := entry
    rw [List.map_cons, directoriesIn]
    cases hp : (visit policy deviceId base (name, node)).pending with
    | none =>
      rw [List.filterMap_cons_none hp]
      omega
    | some d =>
      obtain ⟨-, -, info, hnode⟩ := pending_eq_some hp
      rw [List.filterMap_cons_some hp]
      have hcount : node.directories = 1 + directoriesIn d.2 := by
        rw [show node = .directory info d.2 from hnode, Tree.directories]
      simp only [weight, List.map_cons, List.sum_cons] at ih ⊢
      omega

variable (policy deviceId) in
theorem weight_next (base : Path) (entries : Entries) (stack : List (Path × Entries)) :
    weight (((entries.map (visit policy deviceId base)).filterMap Visit.pending).reverse ++ stack) <
      weight ((base, entries) :: stack) := by
  have hsub : weight ((entries.map (visit policy deviceId base)).filterMap Visit.pending) ≤
      directoriesIn entries := weight_pending base entries
  rw [weight_append, weight_reverse]
  simp only [weight, List.map_cons, List.sum_cons] at hsub ⊢
  omega

theorem pending_visit {base : Path} {name : String} {info : FileInfo} {inner : Entries}
    (hopen : excludedReason policy deviceId name (.directory info inner) = none) :
    (visit policy deviceId base (name, .directory info inner)).pending =
      some (base ++ [name], inner) := by
  simp [visit, Visit.pending, hopen]

/-- With enough fuel, the walk yields what can be reached from its stack. -/
theorem mem_walk {fuel : Nat} {stack : List (Path × Entries)} (hfuel : weight stack ≤ fuel)
    {v : Visit} :
    v ∈ walk policy deviceId fuel stack ↔ ∃ d ∈ stack, ∃ base name node,
      Reaches policy deviceId d.2 base name node ∧
        v = visit policy deviceId (d.1 ++ base) (name, node) := by
  induction fuel generalizing stack with
  | zero =>
    cases stack with
    | nil => simp [walk]
    | cons d stack => simp [weight] at hfuel
  | succ fuel ih =>
    cases stack with
    | nil => simp [walk]
    | cons d stack =>
      obtain ⟨root, entries⟩ := d
      have hrest : weight (((entries.map (visit policy deviceId root)).filterMap
          Visit.pending).reverse ++ stack) ≤ fuel := by
        have hnext := weight_next policy deviceId root entries stack
        omega
      rw [walk, List.mem_append, ih hrest]
      constructor
      · rintro (hmem | ⟨d, hd, base, name, node, hreach, rfl⟩)
        · obtain ⟨⟨name, node⟩, hentry, rfl⟩ := List.mem_map.mp hmem
          exact ⟨_, List.mem_cons_self, [], name, node, .here hentry, by simp⟩
        · rcases List.mem_append.mp hd with hd | hd
          · obtain ⟨u, hu, hpending⟩ := List.mem_filterMap.mp (List.mem_reverse.mp hd)
            obtain ⟨⟨dir, inner⟩, hentry, rfl⟩ := List.mem_map.mp hu
            obtain ⟨hopen, hpath, info, hnode⟩ := pending_eq_some hpending
            have hdir : inner = .directory info d.2 := hnode
            rw [hdir] at hentry
            have hopen' : excludedReason policy deviceId dir (.directory info d.2) = none :=
              hdir ▸ hopen
            refine ⟨_, List.mem_cons_self, dir :: base, name, node, .inside hentry hopen' hreach, ?_⟩
            rw [← hpath]
            simp [visit]
          · exact ⟨d, List.mem_cons_of_mem _ hd, base, name, node, hreach, rfl⟩
      · rintro ⟨d, hd, base, name, node, hreach, rfl⟩
        rcases List.mem_cons.mp hd with rfl | hd
        · cases hreach with
          | here hentry => exact .inl (List.mem_map.mpr ⟨_, hentry, by simp⟩)
          | @inside _ inner dir _ info base _ hentry hopen hrest' =>
            refine .inr ⟨(root ++ [dir], inner), ?_, base, name, node, hrest', by simp⟩
            refine List.mem_append_left _ (List.mem_reverse.mpr (List.mem_filterMap.mpr ?_))
            exact ⟨_, List.mem_map_of_mem hentry, pending_visit hopen⟩
        · exact .inr ⟨d, List.mem_append_right _ hd, base, name, node, hreach, rfl⟩

theorem mem_walkSource {entries : Entries} {v : Visit} :
    v ∈ walkSource policy deviceId entries ↔ ∃ base name node,
      Reaches policy deviceId entries base name node ∧
        v = visit policy deviceId base (name, node) := by
  rw [walkSource, mem_walk (by simp [weight])]
  simp

theorem mem_included {entries : Entries} {v : Visit} :
    v ∈ included policy deviceId entries ↔ ∃ base name node,
      Reaches policy deviceId entries base name node ∧
        excludedReason policy deviceId name node = none ∧
        v = visit policy deviceId base (name, node) := by
  simp only [included, List.mem_filter, mem_walkSource, decide_eq_true_eq]
  constructor
  · rintro ⟨⟨base, name, node, hreach, rfl⟩, hreason⟩
    exact ⟨base, name, node, hreach, hreason, rfl⟩
  · rintro ⟨base, name, node, hreach, hreason, rfl⟩
    exact ⟨⟨base, name, node, hreach, rfl⟩, hreason⟩

end Reach

/-! ### The order of the walk -/

/-- A name that an entry of a directory can have. -/
structure Legal (name : String) : Prop where
  named : Named name
  notParent : name ≠ ".."
  noNul : Char.ofNat 0 ∉ name.toList

theorem named_of_legal {path : Path} (h : ∀ part ∈ path, Legal part) : ∀ part ∈ path, Named part :=
  fun part hmem => (h part hmem).named

mutual

/-- Every directory of the tree has different names, all legal. -/
def Tree.Sound : Tree → Prop
  | .directory _ entries => (entries.map Prod.fst).Nodup ∧ SoundIn entries
  | .file _ _ | .symlink _ | .special _ => True

def SoundIn : Entries → Prop
  | [] => True
  | (name, t) :: entries => Legal name ∧ t.Sound ∧ SoundIn entries

end

section Order

variable {policy : BackupPolicy} {deviceId : String}

variable {entries : Entries}

theorem soundIn_mem (h : SoundIn entries) {name : String} {t : Tree}
    (hmem : (name, t) ∈ entries) : Legal name ∧ t.Sound := by
  induction entries with
  | nil => cases hmem
  | cons entry entries ih =>
    obtain ⟨name', t'⟩ := entry
    rw [SoundIn] at h
    rcases List.mem_cons.mp hmem with heq | hmem
    · obtain ⟨rfl, rfl⟩ := Prod.mk.inj heq
      exact ⟨h.1, h.2.1⟩
    · exact ih h.2.2 hmem

theorem lookup_of_mem (hnodup : (entries.map Prod.fst).Nodup) {name : String}
    {node : Tree} (hmem : (name, node) ∈ entries) : entries.lookup name = some node := by
  induction entries with
  | nil => cases hmem
  | cons entry entries ih =>
    rw [List.map_cons, List.nodup_cons] at hnodup
    rcases List.mem_cons.mp hmem with rfl | hmem
    · simp
    · have hne : name ≠ entry.1 := by
        rintro rfl
        exact hnodup.1 (List.mem_map.mpr ⟨_, hmem, rfl⟩)
      rw [List.lookup_cons, beq_eq_false_iff_ne.mpr hne]
      exact ih hnodup.2 hmem

theorem mem_of_lookup {name : String} {node : Tree}
    (h : entries.lookup name = some node) : (name, node) ∈ entries := by
  obtain ⟨before, after, heq, -⟩ := List.lookup_eq_some_iff.mp h
  simp [heq]

theorem Reaches.legal {base : Path} {name : String} {node : Tree}
    (hreach : Reaches policy deviceId entries base name node) (h : SoundIn entries) :
    ∀ part ∈ base ++ [name], Legal part := by
  induction hreach with
  | here hmem => simpa using (soundIn_mem h hmem).1
  | inside hmem _ _ ih =>
    obtain ⟨hlegal, -, hinner⟩ := soundIn_mem h hmem
    rw [List.cons_append]
    exact List.forall_mem_cons.mpr ⟨hlegal, ih hinner⟩

def Known (seen : List Visit) (base : Path) : Prop :=
  base = [] ∨ ∃ u ∈ seen, u.relative = base ∧ u.reason = none ∧ u.node.kind = .directory

structure Fresh (seen : List Visit) (v : Visit) : Prop where
  new : ∀ u ∈ seen, u.relative ≠ v.relative
  parent : ∃ base name, v.relative = base ++ [name] ∧ Known seen base

/-- Each of the visits is new where it comes, and its directory came before it. -/
def Ordered : List Visit → List Visit → Prop
  | _, [] => True
  | seen, v :: visits => Fresh seen v ∧ Ordered (v :: seen) visits

theorem ordered_append {seen a b : List Visit} :
    Ordered seen (a ++ b) ↔ Ordered seen a ∧ Ordered (a.reverse ++ seen) b := by
  induction a generalizing seen with
  | nil => simp [Ordered]
  | cons v a ih =>
    simp only [List.cons_append, Ordered, ih, List.reverse_cons, List.append_assoc,
      and_assoc, List.nil_append]

theorem Known.mono {seen seen' : List Visit} {base : Path} (h : Known seen base)
    (hsub : ∀ u ∈ seen, u ∈ seen') : Known seen' base := by
  rcases h with rfl | ⟨u, hu, hrest⟩
  · exact .inl rfl
  · exact .inr ⟨u, hsub u hu, hrest⟩

theorem ordered_level {seen : List Visit} {base : Path}
    (hnew : ∀ e ∈ entries, ∀ u ∈ seen, u.relative ≠ base ++ [e.1])
    (hnodup : (entries.map Prod.fst).Nodup) (hknown : Known seen base) :
    Ordered seen (entries.map (visit policy deviceId base)) := by
  induction entries generalizing seen with
  | nil => trivial
  | cons e entries ih =>
    rw [List.map_cons, List.nodup_cons] at hnodup
    refine ⟨⟨hnew e List.mem_cons_self, base, e.1, rfl, hknown⟩, ?_⟩
    refine ih (fun e' he' u hu => ?_) hnodup.2 (hknown.mono fun u => List.mem_cons_of_mem _)
    rcases List.mem_cons.mp hu with rfl | hu
    · intro heq
      have hname : e.1 = e'.1 := by
        have := List.append_cancel_left heq
        simpa [visit] using this
      exact hnodup.1 (hname ▸ List.mem_map_of_mem he')
    · exact hnew e' (List.mem_cons_of_mem _ he') u hu

/-- The directories on the stack are known, apart from each other, and nothing in them was seen. -/
structure Awaiting (seen : List Visit) (stack : List (Path × Entries)) : Prop where
  known : ∀ d ∈ stack, Known seen d.1
  unseen : ∀ d ∈ stack, ∀ u ∈ seen, ∀ part rest, u.relative ≠ d.1 ++ part :: rest
  apart : stack.Pairwise fun d e => ¬d.1 <+: e.1 ∧ ¬e.1 <+: d.1
  sound : ∀ d ∈ stack, (d.2.map Prod.fst).Nodup ∧ SoundIn d.2

theorem mem_pending {base : Path} {d : Path × Entries}
    (hd : d ∈ (entries.map (visit policy deviceId base)).filterMap Visit.pending) :
    ∃ name info, (name, .directory info d.2) ∈ entries ∧ d.1 = base ++ [name] ∧
      excludedReason policy deviceId name (.directory info d.2) = none := by
  obtain ⟨u, hu, hpending⟩ := List.mem_filterMap.mp hd
  obtain ⟨⟨name, node⟩, hentry, rfl⟩ := List.mem_map.mp hu
  obtain ⟨hopen, hpath, info, hnode⟩ := pending_eq_some hpending
  have hdir : node = .directory info d.2 := hnode
  exact ⟨name, info, hdir ▸ hentry, hpath.symm, hdir ▸ hopen⟩

theorem pairwise_pending {base : Path} (hnodup : (entries.map Prod.fst).Nodup) :
    ((entries.map (visit policy deviceId base)).filterMap Visit.pending).Pairwise
      fun d e => ¬d.1 <+: e.1 ∧ ¬e.1 <+: d.1 := by
  induction entries with
  | nil => exact List.Pairwise.nil
  | cons e entries ih =>
    rw [List.map_cons, List.nodup_cons] at hnodup
    rw [List.map_cons]
    cases hp : (visit policy deviceId base e).pending with
    | none =>
      rw [List.filterMap_cons_none hp]
      exact ih hnodup.2
    | some d =>
      rw [List.filterMap_cons_some hp, List.pairwise_cons]
      refine ⟨fun d' hd' => ?_, ih hnodup.2⟩
      obtain ⟨-, hpath, -⟩ := pending_eq_some hp
      obtain ⟨name, info, hentry, hpath', -⟩ := mem_pending hd'
      have hne : e.1 ≠ name := fun h => hnodup.1 (h ▸ List.mem_map_of_mem (f := Prod.fst) hentry)
      have hlen : d.1.length = d'.1.length := by
        rw [← hpath, hpath']
        simp [visit]
      have hdiff : d.1 ≠ d'.1 := by
        rw [← hpath, hpath']
        intro heq
        exact hne (by simpa [visit] using List.append_cancel_left heq)
      exact ⟨fun h => hdiff (h.eq_of_length hlen), fun h => hdiff (h.eq_of_length hlen.symm).symm⟩

/-- A directory is left, and the directories in it come on the stack. -/
theorem Awaiting.next {seen : List Visit} {base : Path}
    {stack : List (Path × Entries)} (h : Awaiting seen ((base, entries) :: stack)) :
    Awaiting ((entries.map (visit policy deviceId base)).reverse ++ seen)
      (((entries.map (visit policy deviceId base)).filterMap Visit.pending).reverse ++ stack) where
  known d hd := by
    rcases List.mem_append.mp hd with hd | hd
    · obtain ⟨name, info, hentry, hpath, hopen⟩ := mem_pending (List.mem_reverse.mp hd)
      refine .inr ⟨_, List.mem_append_left _ (List.mem_reverse.mpr (List.mem_map_of_mem hentry)),
        hpath.symm, hopen, rfl⟩
    · exact (h.known d (List.mem_cons_of_mem _ hd)).mono fun u => List.mem_append_right _
  unseen d hd u hu part rest := by
    rcases List.mem_append.mp hd with hd | hd
    · obtain ⟨name, info, hentry, hpath, hopen⟩ := mem_pending (List.mem_reverse.mp hd)
      rcases List.mem_append.mp hu with hu | hu
      · obtain ⟨e, -, rfl⟩ := List.mem_map.mp (List.mem_reverse.mp hu)
        intro heq
        have hlen := congrArg List.length heq
        rw [hpath] at hlen
        simp [visit] at hlen
      · rw [hpath, List.append_assoc]
        exact h.unseen _ List.mem_cons_self u hu name (part :: rest)
    · rcases List.mem_append.mp hu with hu | hu
      · obtain ⟨e, -, rfl⟩ := List.mem_map.mp (List.mem_reverse.mp hu)
        intro heq
        -- `d` would be at or above the directory that was left
        have hfront : d.1 <+: base := by
          have hle : d.1.length ≤ base.length := by
            have hlen := congrArg List.length heq
            simp only [visit, List.length_append, List.length_cons, List.length_nil] at hlen
            omega
          have hd' : d.1 <+: base ++ [e.1] := ⟨part :: rest, heq.symm⟩
          exact List.prefix_of_prefix_length_le hd' (List.prefix_append _ _) hle
        have hapart := (List.pairwise_cons.mp h.apart).1 d hd
        exact hapart.2 hfront
      · exact h.unseen d (List.mem_cons_of_mem _ hd) u hu part rest
  apart := by
    obtain ⟨hhead, htail⟩ := List.pairwise_cons.mp h.apart
    have hnodup := (h.sound _ List.mem_cons_self).1
    refine List.pairwise_append.mpr ⟨?_, htail, fun d hd e he => ?_⟩
    · rw [List.pairwise_reverse]
      exact (pairwise_pending hnodup).imp fun hde => ⟨hde.2, hde.1⟩
    · obtain ⟨name, info, -, hpath, -⟩ := mem_pending (List.mem_reverse.mp hd)
      have hbase := hhead e he
      refine ⟨fun hpre => hbase.1 ((List.prefix_append base [name]).trans (hpath ▸ hpre)),
        fun hpre => ?_⟩
      rw [hpath, List.prefix_concat_iff] at hpre
      rcases hpre with heq | hpre
      · exact hbase.1 (heq ▸ List.prefix_append base [name])
      · exact hbase.2 hpre
  sound d hd := by
    rcases List.mem_append.mp hd with hd | hd
    · obtain ⟨name, info, hentry, -, -⟩ := mem_pending (List.mem_reverse.mp hd)
      exact (soundIn_mem (h.sound _ List.mem_cons_self).2 hentry).2
    · exact h.sound d (List.mem_cons_of_mem _ hd)

theorem walk_ordered {fuel : Nat} {seen : List Visit} {stack : List (Path × Entries)}
    (h : Awaiting seen stack) : Ordered seen (walk policy deviceId fuel stack) := by
  induction fuel generalizing seen stack with
  | zero => trivial
  | succ fuel ih =>
    cases stack with
    | nil => trivial
    | cons d stack =>
      obtain ⟨base, entries⟩ := d
      rw [walk, ordered_append]
      refine ⟨ordered_level (fun e _ u hu => ?_) (h.sound _ List.mem_cons_self).1
        (h.known _ List.mem_cons_self), ih h.next⟩
      exact h.unseen _ List.mem_cons_self u hu e.1 []

theorem Ordered.included {seen visits : List Visit} (h : Ordered seen visits) :
    Ordered (seen.filter (·.reason = none)) (visits.filter (·.reason = none)) := by
  induction visits generalizing seen with
  | nil => trivial
  | cons v visits ih =>
    have hrest := ih h.2
    rw [List.filter_cons] at hrest ⊢
    split at hrest
    · next hreason =>
      rw [if_pos hreason]
      refine ⟨⟨fun u hu => h.1.new u (List.mem_filter.mp hu).1, ?_⟩, hrest⟩
      obtain ⟨base, name, hpath, hknown⟩ := h.1.parent
      refine ⟨base, name, hpath, ?_⟩
      rcases hknown with rfl | ⟨u, hu, hu', hopen, hkind⟩
      · exact .inl rfl
      · exact .inr ⟨u, List.mem_filter.mpr ⟨hu, by simp [hopen]⟩, hu', hopen, hkind⟩
    · next hreason =>
      rw [if_neg hreason]
      exact hrest

theorem walkSource_ordered (hnodup : (entries.map Prod.fst).Nodup)
    (hsound : SoundIn entries) : Ordered [] (walkSource policy deviceId entries) := by
  have hawait : Awaiting [] [(([] : Path), entries)] := by
    refine ⟨fun d hd => ?_, by simp, by simp, fun d hd => ?_⟩
    · rw [List.mem_singleton.mp hd]
      exact .inl rfl
    · rw [List.mem_singleton.mp hd]
      exact ⟨hnodup, hsound⟩
  exact walk_ordered hawait

theorem included_ordered (hnodup : (entries.map Prod.fst).Nodup)
    (hsound : SoundIn entries) : Ordered [] (included policy deviceId entries) :=
  (walkSource_ordered hnodup hsound).included

end Order

end Ares.Backups
