import Ares.StorageEvidence.Listing

/-! `findmnt --json` prints the mounts as a tree, and `parse_findmnt_json` reads the items of its
outermost array: when no mount is lost. -/

namespace Ares.StorageEvidence

open Data
open scoped List

variable {lib : ProbeLibrary}

/-! ### The mounts of a document -/

def mountNodes (raw : List Value) : List Value := (Rose.branchesAll [] (trees raw)).map (·.2)

def nodesBelow (item : Value) : List Value :=
  match tree item with
  | .node _ children => (Rose.branchesAll [] children).map (·.2)

/-- The probes of all nodes with a source and an absolute target. -/
def mountListing (lib : ProbeLibrary) (raw : List Value) : List MountProbe :=
  (mountNodes raw).filterMap (mountProbe lib)

/-- The nodes below the first 512 items of the array, and the items after these with all below
them. -/
def unread (raw : List Value) : List Value :=
  (raw.take 512).flatMap nodesBelow ++ mountNodes (raw.drop 512)

theorem tree_value (item : Value) : ∃ children, tree item = .node item children := by
  cases item with
  | dict fields => exact ⟨_, by rw [tree]⟩
  | _ => exact ⟨[], by rw [tree]⟩

theorem mountNodes_cons (item : Value) (raw : List Value) :
    mountNodes (item :: raw) = item :: nodesBelow item ++ mountNodes raw := by
  obtain ⟨children, hchildren⟩ := tree_value item
  have below := Rose.map_snd_branchesAll [item] [] children
  simp only [mountNodes, trees, Rose.branchesAll, nodesBelow, hchildren, Rose.branches,
    List.map_append, List.map_cons, below]

theorem mountNodes_perm (raw : List Value) :
    (mountNodes raw).Perm (raw ++ raw.flatMap nodesBelow) := by
  induction raw with
  | nil => exact .nil
  | cons item raw ih =>
    rw [mountNodes_cons, List.flatMap_cons, List.cons_append, List.cons_append]
    refine .cons item ?_
    calc nodesBelow item ++ mountNodes raw
        ~ nodesBelow item ++ (raw ++ raw.flatMap nodesBelow) := ih.append_left _
      _ ~ raw ++ (nodesBelow item ++ raw.flatMap nodesBelow) := by
        rw [← List.append_assoc, ← List.append_assoc]
        exact List.perm_append_comm.append_right _

theorem mountNodes_append (first second : List Value) :
    mountNodes (first ++ second) = mountNodes first ++ mountNodes second := by
  induction first with
  | nil => rfl
  | cons item first ih => rw [List.cons_append, mountNodes_cons, mountNodes_cons, ih]; simp

theorem mountNodes_split (raw : List Value) : (mountNodes raw).Perm (raw.take 512 ++ unread raw) := by
  have h := mountNodes_append (raw.take 512) (raw.drop 512)
  rw [List.take_append_drop] at h
  rw [h, unread, ← List.append_assoc]
  exact (mountNodes_perm _).append_right _

theorem sublist_mountNodes (raw : List Value) : raw <+ mountNodes raw := by
  induction raw with
  | nil => exact .slnil
  | cons item raw ih =>
    rw [mountNodes_cons]
    exact (ih.trans (List.sublist_append_right _ _)).cons_cons item

/-! ### What is kept -/

/-- The call returns a probe for every node with a source and an absolute target, or for 512 of
them. -/
def KeepsMounts (lib : ProbeLibrary) (text : Text) (raw : List Value) : Prop :=
  ∃ probes, parseFindmntJson lib text = .ok probes ∧
    ∃ kept, kept <+ mountListing lib raw ∧ kept.length = min (mountListing lib raw).length 512 ∧
      probes.Perm kept

/-- No unread node would be given a probe, or the first 512 items are as many and all have one. -/
def NoneUnread (lib : ProbeLibrary) (raw : List Value) : Prop :=
  (∀ node ∈ unread raw, mountProbe lib node = none) ∨
    (raw.take 512).length = 512 ∧ ∀ item ∈ raw.take 512, (mountProbe lib item).isSome

theorem length_filterMap_le (items : List Value) :
    (items.filterMap (mountProbe lib)).length ≤ items.length := List.length_filterMap_le _ _

theorem length_filterMap_eq {items : List Value} :
    (items.filterMap (mountProbe lib)).length = items.length ↔
      ∀ item ∈ items, (mountProbe lib item).isSome := by
  induction items with
  | nil => simp
  | cons item items ih =>
    cases h : mountProbe lib item with
    | none =>
      have : (items.filterMap (mountProbe lib)).length ≤ items.length := length_filterMap_le items
      simp only [List.filterMap_cons, h, List.length_cons, List.mem_cons, forall_eq_or_imp,
        Option.isSome_none, Bool.false_eq_true, false_and, iff_false]
      omega
    | some probe => simp [h, ih]

theorem length_mountListing (raw : List Value) :
    (mountListing lib raw).length =
      ((raw.take 512).filterMap (mountProbe lib)).length +
        ((unread raw).filterMap (mountProbe lib)).length := by
  rw [mountListing, ((mountNodes_split raw).filterMap _).length_eq, List.filterMap_append,
    List.length_append]

theorem filterMap_length_zero {items : List Value} :
    (items.filterMap (mountProbe lib)).length = 0 ↔ ∀ item ∈ items, mountProbe lib item = none := by
  rw [List.length_eq_zero_iff, List.filterMap_eq_nil_iff]

theorem length_read_iff (raw : List Value) :
    ((raw.take 512).filterMap (mountProbe lib)).length = min (mountListing lib raw).length 512 ↔
      NoneUnread lib raw := by
  have total : (mountListing lib raw).length = _ := length_mountListing raw
  have read : ((raw.take 512).filterMap (mountProbe lib)).length ≤ _ := length_filterMap_le _
  have cut : (raw.take 512).length ≤ 512 := List.length_take_le 512 raw
  rw [NoneUnread, ← filterMap_length_zero, ← length_filterMap_eq]
  omega

/-- For a document with a `filesystems` array the call keeps every mount exactly when no node with
a source and an absolute target stands below another or behind the first 512 items, or these alone
make 512 mounts. -/
theorem keeps_mounts_iff (lib : ProbeLibrary) (text : Text) (payload : Value) (raw : List Value)
    (hloads : lib.loads text = some payload)
    (hraw : asList (get payload "filesystems") = some raw) :
    KeepsMounts lib text raw ↔ NoneUnread lib raw := by
  have hparse : parseFindmntJson lib text = .ok ((raw.take 512).filterMap (mountProbe lib)) := by
    rw [parseFindmntJson, hloads]
    simp only [hraw]
  rw [← length_read_iff]
  constructor
  · rintro ⟨probes, h, kept, -, hlength, hperm⟩
    rw [hparse] at h
    obtain rfl := Except.ok.inj h
    rw [hperm.length_eq, hlength]
  · intro hlength
    have hsub : (raw.take 512).filterMap (mountProbe lib) <+ mountListing lib raw :=
      ((List.take_sublist 512 raw).trans (sublist_mountNodes raw)).filterMap _
    exact ⟨_, hparse, _, hsub, hlength, .refl _⟩

/-! ### A mount below the root -/

def rootMount (children : List (String × Value)) : Value :=
  object ([("source", .lit "/dev/sda1"), ("target", .lit "/"), ("fstype", .lit "ext4"),
    ("options", .lit "rw")] ++ children)

def homeMount : Value :=
  object [("source", .lit "/dev/sda2"), ("target", .lit "/home"), ("fstype", .lit "ext4"),
    ("options", .lit "rw")]

def mountLibrary (text : Text) (raw : List Value) : ProbeLibrary :=
  sampleLibrary [(text, object [("filesystems", .list raw)])] []

def flatText : Text :=
  Text.ofString ("\x7b\"filesystems\":[\x7b\"source\":\"/dev/sda1\",\"target\":\"/\"," ++
    "\"fstype\":\"ext4\",\"options\":\"rw\"\x7d]\x7d")

theorem keeps_mounts_sample :
    KeepsMounts (mountLibrary flatText [rootMount []]) flatText [rootMount []] := by
  refine (keeps_mounts_iff _ flatText (object [("filesystems", .list [rootMount []])])
    [rootMount []] (by simp [mountLibrary, sampleLibrary]) (by simp [object, get, asList])).mpr
    (.inl ?_)
  have none : ((unread [rootMount []]).all fun node =>
      (mountProbe (mountLibrary flatText [rootMount []]) node).isNone) = true := by
    decide +kernel
  intro node hm
  exact Option.isNone_iff_eq_none.mp (List.all_eq_true.mp none node hm)

def nestedRoots : List Value := [rootMount [("children", .list [homeMount])]]

def nestedText : Text :=
  Text.ofString ("\x7b\"filesystems\":[\x7b\"source\":\"/dev/sda1\",\"target\":\"/\"," ++
    "\"fstype\":\"ext4\",\"options\":\"rw\",\"children\":[\x7b\"source\":\"/dev/sda2\"," ++
    "\"target\":\"/home\",\"fstype\":\"ext4\",\"options\":\"rw\"\x7d]\x7d]\x7d")

/-- `/home`, printed below `/`, is not among the mounts that are returned. -/
theorem home_mount_lost : (mountLibrary nestedText nestedRoots).loads nestedText =
        some (object [("filesystems", .list nestedRoots)]) ∧
      (mountListing (mountLibrary nestedText nestedRoots) nestedRoots).map (·.target) =
        [Text.ofString "/", Text.ofString "/home"] ∧
      (parseFindmntJson (mountLibrary nestedText nestedRoots) nestedText).map
          (List.map MountProbe.target) = .ok [Text.ofString "/"] ∧
      ¬ KeepsMounts (mountLibrary nestedText nestedRoots) nestedText nestedRoots := by
  obtain ⟨hlisting, hparse⟩ :
      (mountListing (mountLibrary nestedText nestedRoots) nestedRoots).map (·.target) =
        [Text.ofString "/", Text.ofString "/home"] ∧
      (parseFindmntJson (mountLibrary nestedText nestedRoots) nestedText).map
        (List.map MountProbe.target) = .ok [Text.ofString "/"] := by decide +kernel
  refine ⟨by simp [mountLibrary, sampleLibrary], hlisting, hparse, ?_⟩
  rintro ⟨probes, h, kept, -, hlength, hperm⟩
  rw [h] at hparse
  have two := congrArg List.length hlisting
  have one := congrArg List.length (Except.ok.inj hparse)
  rw [List.length_map] at one two
  rw [hperm.length_eq, hlength, two] at one
  cases one

end Ares.StorageEvidence
