import Mathlib.Data.List.Perm.Basic
import Ares.Operations.Placement

/-! Resizing and moving a partition, and creating one and deleting it again: what comes of the
proposed table. -/

namespace Ares.Operations

open Data Storage

variable {lib : TableLibrary} {uuids : Uuids} {request : DeclarativeStorageOperationRequest}
  {original : StorageLayout} {table proposed : PartitionTable} {target changed : PartitionResource}

/-! ### Well-formed tables -/

def Apart (p q : PartitionResource) : Prop :=
  p.endSector < q.startSector ∨ q.endSector < p.startSector

theorem Apart.symm {p q : PartitionResource} (h : Apart p q) : Apart q p := Or.symm h

theorem overlaps_eq_false {start stop : Nat} {q : PartitionResource} :
    overlaps start stop q.startSector q.endSector = false ↔
      stop < q.startSector ∨ q.endSector < start := by
  rw [overlaps, Bool.and_eq_false_iff, decide_eq_false_iff_not, decide_eq_false_iff_not]
  omega

/-- A partition whose fields agree with each other, within the usable range. -/
structure Fits (table : PartitionTable) (p : PartitionResource) : Prop where
  nonempty : 1 ≤ p.sizeSectors
  stop : p.endSector = p.startSector + p.sizeSectors - 1
  bytes : p.sizeBytes = p.sizeSectors * table.sectorSize
  first_le : table.firstUsableSector ≤ p.startSector
  le_last : p.endSector ≤ table.lastUsableSector

theorem Fits.start_le {p : PartitionResource} (h : Fits table p) : p.startSector ≤ p.endSector := by
  have := h.nonempty
  have := h.stop
  omega

structure WellFormed (table : PartitionTable) : Prop where
  numbers : (table.partitions.map (·.number)).Nodup
  fits : ∀ p ∈ table.partitions, Fits table p
  apart : table.partitions.Pairwise Apart

variable (lib) in
theorem wellFormed_withPartitions {partitions : List PartitionResource}
    (h : WellFormed { table with partitions }) : WellFormed (withPartitions lib table partitions) := by
  have hperm := withPartitions_perm lib table partitions
  refine ⟨(hperm.map (·.number)).nodup_iff.2 h.numbers, fun p hp => ?_,
    (hperm.pairwise_iff Apart.symm).2 h.apart⟩
  have hfits := h.fits p (hperm.subset hp)
  exact ⟨hfits.nonempty, hfits.stop, hfits.bytes, hfits.first_le, hfits.le_last⟩

/-! ### The free regions -/

/-- The sector is in the region. -/
def FreeRegion.Has (region : FreeRegion) (sector : Nat) : Prop :=
  region.startSector ≤ sector ∧ sector ≤ region.endSector

/-- The free regions are the sectors of the usable range that no partition has, each as far as it
goes. -/
structure FreeExact (table : PartitionTable) : Prop where
  covers : ∀ sector, (∃ region ∈ table.freeRegions, FreeRegion.Has region sector) ↔
    table.firstUsableSector ≤ sector ∧ sector ≤ table.lastUsableSector ∧
      ∀ p ∈ table.partitions, sector < p.startSector ∨ p.endSector < sector
  apart : table.freeRegions.Pairwise fun a b => a.endSector + 1 < b.startSector
  regions : ∀ region ∈ table.freeRegions, region.startSector ≤ region.endSector ∧
    region = Storage.free region.startSector region.endSector table.sectorSize

theorem freeExact_of_wellFormed (h : WellFormed table)
    (hfree : table.freeRegions = freeRegions table.partitions table.firstUsableSector
      table.lastUsableSector table.sectorSize) : FreeExact table := by
  by_cases hrange : table.lastUsableSector < table.firstUsableSector
  · have hnil : table.freeRegions = [] := hfree.trans (if_pos hrange)
    refine ⟨fun sector => ?_, by simp [hnil], by simp [hnil]⟩
    rw [hnil]
    constructor
    · rintro ⟨region, hmem, -⟩
      cases hmem
    · rintro ⟨hfirst, hlast, -⟩
      omega
  · refine ⟨fun sector => ?_, ?_, fun region hregion => ?_⟩
    · rw [hfree]
      refine exists_freeRegion_iff table.sectorSize (by omega) (fun p hp => ?_) sector
      have := (h.fits p hp).start_le
      have := (h.fits p hp).le_last
      omega
    · rw [hfree]
      exact pairwise_freeRegions _ _ _ fun p hp => (h.fits p hp).start_le
    · rw [hfree] at hregion
      exact freeRegion_spec hregion

/-! ### Another partition in the place of one -/

/-- The proposed table has `changed` where the table has `target`, and is the same otherwise. -/
structure Reshaped (table proposed : PartitionTable) (target changed : PartitionResource) :
    Prop where
  wellFormed : WellFormed proposed
  partitions : proposed.partitions.Perm
    (table.partitions.filter (·.number ≠ target.number) ++ [changed])
  sorted : proposed.partitions.Pairwise fun p q => p.startSector ≤ q.startSector
  free : FreeExact proposed
  frame : proposed = { table with
    partitions := proposed.partitions
    freeRegions := proposed.freeRegions
    fingerprintSha256 := proposed.fingerprintSha256 }

theorem map_replace (hnumbers : (table.partitions.map (·.number)).Nodup)
    (htarget : target ∈ table.partitions) (hnumber : changed.number = target.number) :
    (table.partitions.map fun item => if item.number = changed.number then changed else item).Perm
      (table.partitions.filter (·.number ≠ target.number) ++ [changed]) := by
  obtain ⟨before, after, hsplit⟩ := List.append_of_mem htarget
  rw [hsplit, List.map_append, List.map_cons, List.nodup_append, List.nodup_cons] at hnumbers
  obtain ⟨-, ⟨hafter, -⟩, hbefore⟩ := hnumbers
  have hother : ∀ q ∈ before ++ after, q.number ≠ target.number := by
    intro q hq heq
    rcases List.mem_append.1 hq with hq | hq
    · exact hbefore _ (List.mem_map_of_mem hq) _ List.mem_cons_self heq
    · exact hafter (heq ▸ List.mem_map_of_mem (f := (·.number)) hq)
  have hsame : ∀ l : List PartitionResource, (∀ q ∈ l, q.number ≠ target.number) →
      (l.map fun item => if item.number = changed.number then changed else item) = l ∧
        l.filter (·.number ≠ target.number) = l := by
    intro l hl
    refine ⟨?_, List.filter_eq_self.2 fun q hq => decide_eq_true (hl q hq)⟩
    refine (List.map_congr_left fun q hq => ?_).trans (List.map_id l)
    rw [if_neg (hnumber ▸ hl q hq), id]
  have hfront := hsame before fun q hq => hother q (List.mem_append_left _ hq)
  have hback := hsame after fun q hq => hother q (List.mem_append_right _ hq)
  rw [hsplit, List.map_append, List.map_cons, List.filter_append, List.filter_cons_of_neg (by simp),
    hfront.1, hback.1, hfront.2, hback.2, if_pos hnumber.symm]
  exact List.perm_middle.trans (List.perm_append_singleton _ _).symm

theorem sorted_withPartitions (lib : TableLibrary) (table : PartitionTable)
    (partitions : List PartitionResource) :
    (withPartitions lib table partitions).partitions.Pairwise placeLe :=
  List.pairwise_insertionSort placeLe partitions

variable (lib) in
theorem reshaped_replace (hwf : WellFormed table) (htarget : target ∈ table.partitions)
    (hnumber : changed.number = target.number) (hfits : Fits table changed)
    (hclear : ∀ q ∈ table.partitions, q.number ≠ target.number → Apart changed q) :
    Reshaped table (replacePartition lib table changed) target changed := by
  have hmap := map_replace hwf.numbers htarget hnumber
  have hnumbers : table.partitions.Pairwise fun p q => p.number ≠ q.number :=
    List.pairwise_map.1 hwf.numbers
  have hnew : WellFormed { table with
      partitions := table.partitions.map fun item =>
        if item.number = changed.number then changed else item } := by
    refine ⟨?_, fun p hp => ?_, ?_⟩
    · have hsame : (table.partitions.map fun item =>
          if item.number = changed.number then changed else item).map (·.number) =
            table.partitions.map (·.number) := by
        rw [List.map_map]
        refine List.map_congr_left fun q _ => ?_
        simp only [Function.comp_apply]
        split
        · next h => exact h.symm
        · rfl
      exact hsame ▸ hwf.numbers
    · obtain ⟨q, hq, rfl⟩ := List.mem_map.1 hp
      have hq' : Fits table (if q.number = changed.number then changed else q) := by
        split
        · exact hfits
        · exact hwf.fits q hq
      exact ⟨hq'.nonempty, hq'.stop, hq'.bytes, hq'.first_le, hq'.le_last⟩
    · -- at most one of two partitions has the number of the target
      rw [List.pairwise_map]
      refine (hwf.apart.and hnumbers).imp_of_mem fun {p q} hp hq hpq => ?_
      by_cases hp' : p.number = changed.number
      · have hq' : q.number ≠ changed.number := fun h => hpq.2 (hp'.trans h.symm)
        rw [if_pos hp', if_neg hq']
        exact hclear q hq (hnumber ▸ hq')
      · rw [if_neg hp']
        split
        · exact (hclear p hp (hnumber ▸ hp')).symm
        · exact hpq.1
  have hproposed := wellFormed_withPartitions lib hnew
  exact {
    wellFormed := hproposed
    partitions := (withPartitions_perm lib table _).trans hmap
    sorted := (sorted_withPartitions lib table _).imp fun {p q} h => by
      rcases h with h | h
      · exact h.le
      · exact h.1.le
    free := freeExact_of_wellFormed hproposed rfl
    frame := rfl }

/-! ### Resizing and moving -/

theorem findPartition_mem {partitions : List PartitionResource} {number : Option Nat}
    (h : findPartition partitions number = .ok target) :
    target ∈ partitions ∧ number = some target.number := by
  cases number with
  | none => cases h
  | some number =>
    rw [findPartition] at h
    split at h
    · next found hfind =>
      obtain rfl : found = target := Except.ok.inj h
      have hnumber : found.number = number := by simpa using List.find?_some hfind
      exact ⟨List.mem_of_find?_eq_some hfind, congrArg some hnumber.symm⟩
    · cases h

theorem findPartition_of_mem {partitions : List PartitionResource}
    (hnumbers : (partitions.map (·.number)).Nodup) (hmem : target ∈ partitions) :
    findPartition partitions (some target.number) = .ok target := by
  rw [findPartition]
  cases hfind : partitions.find? (·.number = target.number) with
  | none =>
    have hnone := List.find?_eq_none.1 hfind target hmem
    simp at hnone
  | some found =>
    have hnumber : found.number = target.number := by simpa using List.find?_some hfind
    exact congrArg _ (List.inj_on_of_nodup_map hnumbers (List.mem_of_find?_eq_some hfind) hmem hnumber)

theorem apart_of_conflict {start stop : Nat} (h : conflict table target start stop = false)
    {q : PartitionResource} (hq : q ∈ table.partitions) (hne : q.number ≠ target.number) :
    stop < q.startSector ∨ q.endSector < start := by
  have hq := List.any_eq_false.1 h q hq
  rw [Bool.not_eq_true, Bool.and_eq_false_iff, overlaps_eq_false] at hq
  exact hq.resolve_left (by simp [hne])

theorem planResize_spec {size : Nat} (hwf : WellFormed table) (htarget : target ∈ table.partitions)
    (h : planResize lib size table target = .ok proposed) :
    ∃ sectors, ceilSectors size table.sectorSize = .ok sectors ∧
      Reshaped table proposed target (resized target sectors table.sectorSize) := by
  obtain ⟨sectors, hcount, rfl, hsize, hlast, hconflict⟩ := planResize_ok h
  have hfits := hwf.fits target htarget
  exact ⟨sectors, hcount, reshaped_replace lib hwf htarget rfl
    ⟨Nat.one_le_iff_ne_zero.2 hsize, rfl, rfl, hfits.first_le, hlast⟩
    fun q hq hne => apart_of_conflict hconflict hq hne⟩

theorem planMove_spec {start : Nat} (hwf : WellFormed table) (htarget : target ∈ table.partitions)
    (h : planMove lib start table target = .ok proposed) :
    Reshaped table proposed target (moved target start) := by
  obtain ⟨rfl, hfirst, hlast, hconflict⟩ := planMove_ok h
  have hfits := hwf.fits target htarget
  exact reshaped_replace lib hwf htarget rfl ⟨hfits.nonempty, rfl, hfits.bytes, hfirst, hlast⟩
    fun q hq hne => apart_of_conflict hconflict hq hne

/-- The sectors are the quotient rounded up exactly where the doubles tell it from the whole number
below it. -/
theorem ceilSectors_eq_iff {size sectorSize sectors : Nat}
    (h : ceilSectors size sectorSize = .ok sectors) :
    sectors = ⌈(size / sectorSize : ℚ)⌉₊ ↔ Resolved (size / sectorSize : ℚ) := by
  rw [ceilSectors] at h
  split at h
  · next hquotient => exact Except.ok.inj h ▸ ceilQuotient_eq_iff hquotient
  · cases h

/-- What a request makes of the target: the sectors that its size is counted as, or a start. -/
def Given (request : DeclarativeStorageOperationRequest) (table : PartitionTable)
    (target changed : PartitionResource) : Prop :=
  match request.operation with
  | .resize => ∃ size, request.newSizeBytes = some size ∧
      ceilSectors size table.sectorSize = .ok changed.sizeSectors ∧
      changed.startSector = target.startSector
  | .move => request.newStartSector = some changed.startSector ∧
      changed.sizeSectors = target.sizeSectors
  | _ => True

/-- The partition at hand is the one that the request names, and the proposed table has it changed as
`what` says: under its number, type and PARTUUID, and with the other partitions as they were. -/
def Changes (what : PartitionTable → PartitionResource → PartitionResource → Prop)
    (request : DeclarativeStorageOperationRequest) (table proposed : PartitionTable)
    (target : PartitionResource) : Prop :=
  target ∈ table.partitions ∧ request.partitionNumber = some target.number ∧
    ∃ changed, Reshaped table proposed target changed ∧ changed.number = target.number ∧
      changed.typeCode = target.typeCode ∧ changed.partuuid = target.partuuid ∧
      what table target changed

/-- A well-formed table is still one when a partition was resized or moved: the other partitions are
as they were, and the free regions are what is left. -/
theorem reshape_given (hwf : WellFormed original.partitionTable)
    (hoperation : request.operation = .resize ∨ request.operation = .move)
    (h : proposedTable lib uuids request original = .ok (proposed, target)) :
    Changes (Given request) request original.partitionTable proposed target := by
  rw [proposedTable] at h
  rcases hoperation with hresize | hmove
  · rw [hresize] at h
    obtain ⟨found, hfind, h⟩ := bind_eq_ok (x := findPartition _ _) h
    obtain ⟨htarget, hnumber⟩ := findPartition_mem hfind
    split at h
    · next size hsize =>
      obtain ⟨table, hplan, h⟩ := bind_eq_ok h
      obtain ⟨rfl, rfl⟩ := Prod.mk.inj (Except.ok.inj h)
      obtain ⟨sectors, hcount, hreshaped⟩ := planResize_spec hwf htarget hplan
      refine ⟨htarget, hnumber, _, hreshaped, rfl, rfl, rfl, ?_⟩
      simp only [Given, hresize]
      exact ⟨size, hsize, hcount, rfl⟩
    · cases h
  · rw [hmove] at h
    obtain ⟨found, hfind, h⟩ := bind_eq_ok (x := findPartition _ _) h
    obtain ⟨htarget, hnumber⟩ := findPartition_mem hfind
    split at h
    · next start hstart =>
      obtain ⟨table, hplan, h⟩ := bind_eq_ok h
      obtain ⟨rfl, rfl⟩ := Prod.mk.inj (Except.ok.inj h)
      refine ⟨htarget, hnumber, _, planMove_spec hwf htarget hplan, rfl, rfl, rfl, ?_⟩
      simp only [Given, hmove]
      exact ⟨hstart, rfl⟩
    · cases h

theorem Reshaped.unique {changed' : PartitionResource} (h : Reshaped table proposed target changed)
    (h' : Reshaped table proposed target changed') : changed = changed' := by
  have hperm := (List.perm_append_left_iff _).1 (h.partitions.symm.trans h'.partitions)
  exact List.singleton_injective (List.perm_singleton.1 hperm)

/-- What a request asks of the target: a size, in sectors rounded up, or a start. -/
def Asked (request : DeclarativeStorageOperationRequest) (table : PartitionTable)
    (target changed : PartitionResource) : Prop :=
  match request.operation with
  | .resize => ∃ size, request.newSizeBytes = some size ∧
      changed.sizeSectors = ⌈(size / table.sectorSize : ℚ)⌉₊ ∧
      changed.startSector = target.startSector
  | .move => request.newStartSector = some changed.startSector ∧
      changed.sizeSectors = target.sizeSectors
  | _ => True

/-- The doubles next to the requested size in sectors tell it from the whole number below it. -/
def SizeResolved (request : DeclarativeStorageOperationRequest) (table : PartitionTable) : Prop :=
  request.operation = .resize → ∀ size, request.newSizeBytes = some size →
    Resolved (size / table.sectorSize : ℚ)

theorem asked_iff (hoperation : request.operation = .resize ∨ request.operation = .move)
    (h : Given request table target changed) :
    Asked request table target changed ↔ SizeResolved request table := by
  rcases hoperation with hresize | hmove
  · simp only [Given, Asked, SizeResolved, hresize] at h ⊢
    obtain ⟨size, hsize, hcount, hstart⟩ := h
    have hexact := ceilSectors_eq_iff hcount
    constructor
    · rintro ⟨size', hsize', hsectors, -⟩ - n hn
      obtain rfl := Option.some.inj (hsize.symm.trans hsize')
      obtain rfl := Option.some.inj (hsize.symm.trans hn)
      exact hexact.1 hsectors
    · exact fun hresolved => ⟨size, hsize, hexact.2 (hresolved trivial size hsize), hstart⟩
  · simp only [Given, Asked, SizeResolved, hmove] at h ⊢
    exact iff_of_true h (by simp)

/-- A resized or moved partition is what was asked for, in a well-formed table, exactly when the size
in sectors is one that the doubles resolve. -/
theorem reshape_keeps_iff (hwf : WellFormed original.partitionTable)
    (hoperation : request.operation = .resize ∨ request.operation = .move)
    (h : proposedTable lib uuids request original = .ok (proposed, target)) :
    Changes (Asked request) request original.partitionTable proposed target ↔
      SizeResolved request original.partitionTable := by
  obtain ⟨htarget, hnumber, changed, hreshaped, hnum, htype, huuid, hgiven⟩ :=
    reshape_given hwf hoperation h
  rw [← asked_iff hoperation hgiven]
  constructor
  · rintro ⟨-, -, changed', hreshaped', -, -, -, hasked⟩
    exact hreshaped'.unique hreshaped ▸ hasked
  · exact fun hasked => ⟨htarget, hnumber, changed, hreshaped, hnum, htype, huuid, hasked⟩

theorem sizeResolved_of_lt (hpos : 0 < table.sectorSize) (hle : table.sectorSize ≤ 65536)
    (hsize : ∀ size, request.newSizeBytes = some size → size < 2 ^ 53) :
    SizeResolved request table :=
  fun _ size hn => resolved_of_lt hpos hle (hsize size hn)

/-- A disk with two partitions of 1 MiB. -/
def twoPartitions : StorageLayout :=
  sampleLayout sampleIdentity [samplePartition,
    { samplePartition with number := 2, startSector := 8192, endSector := 10239 }]

theorem twoPartitions_wellFormed : WellFormed twoPartitions.partitionTable where
  numbers := by decide
  fits p hp := by
    rcases List.mem_cons.1 hp with rfl | hp
    · constructor <;> decide
    · rw [List.mem_singleton.1 hp]
      constructor <;> decide
  apart := List.pairwise_pair.2 (.inl (by decide))

/-- A request to move the first partition behind the second. -/
def moveRequest : DeclarativeStorageOperationRequest :=
  { createRequest none 1048576 with
    operation := .move
    partitionNumber := some 1
    sizeBytes := none
    newStartSector := some 20480 }

theorem reshape_keeps_iff_sample : ∃ proposed target,
    proposedTable sampleTables sampleUuids moveRequest twoPartitions = .ok (proposed, target) ∧
    (Changes (Asked moveRequest) moveRequest twoPartitions.partitionTable proposed target ↔
      SizeResolved moveRequest twoPartitions.partitionTable) := by
  obtain ⟨⟨proposed, target⟩, hplan, -⟩ := map_eq_ok (f := fun _ => ()) (b := ())
    (x := proposedTable sampleTables sampleUuids moveRequest twoPartitions) (by decide +kernel)
  exact ⟨proposed, target, hplan, reshape_keeps_iff twoPartitions_wellFormed (.inr rfl) hplan⟩

def vastLayout : StorageLayout :=
  { sampleLayout sampleIdentity [samplePartition] with
    partitionTable := { (sampleLayout sampleIdentity [samplePartition]).partitionTable with
      lastUsableSector := 35184372088831 } }

def vastRequest : DeclarativeStorageOperationRequest :=
  { createRequest none 1048576 with
    operation := .resize
    partitionNumber := some 1
    sizeBytes := none
    newSizeBytes := some 9007199254740993 }

theorem vastLayout_wellFormed : WellFormed vastLayout.partitionTable where
  numbers := by decide
  fits p hp := by
    rw [List.mem_singleton.1 hp]
    constructor <;> decide
  apart := List.pairwise_singleton _ _

/-- The last byte of the size is lost: the partition gets one sector less than was asked for. -/
theorem resize_loses_sector : ¬ ∀ (lib : TableLibrary) (uuids : Uuids)
    (request : DeclarativeStorageOperationRequest) (original : StorageLayout)
    (proposed : PartitionTable) (target : PartitionResource), WellFormed original.partitionTable →
    request.valid = true → (request.operation = .resize ∨ request.operation = .move) →
    proposedTable lib uuids request original = .ok (proposed, target) →
    Changes (Asked request) request original.partitionTable proposed target := by
  intro claim
  obtain ⟨⟨proposed, target⟩, hplan, hsizes⟩ := map_eq_ok
    (f := fun r => r.1.partitions.map (·.sizeSectors)) (b := [17592186044416])
    (x := proposedTable sampleTables sampleUuids vastRequest vastLayout) (by decide +kernel)
  obtain ⟨-, -, changed, hreshaped, -, -, -, size, hsize, hsectors, -⟩ :=
    claim _ _ _ _ _ _ vastLayout_wellFormed (by decide +kernel) (.inl rfl) hplan
  have hmem : changed.sizeSectors ∈ proposed.partitions.map (·.sizeSectors) :=
    List.mem_map_of_mem (hreshaped.partitions.symm.subset (by simp))
  rw [hsizes, List.mem_singleton, hsectors, ← Option.some.inj hsize] at hmem
  have hceil : ⌈((9007199254740993 : Nat) / vastLayout.partitionTable.sectorSize : ℚ)⌉₊ =
      17592186044417 := by decide +kernel
  rw [hceil] at hmem
  omega

/-! ### Creating and deleting again -/

theorem sorted_unique {left right : List PartitionResource} (hleft : left.Pairwise placeLe)
    (hright : right.Pairwise placeLe)
    (hkeys : (left.map fun p => (p.startSector, p.number)).Nodup) (hperm : left.Perm right) :
    left = right := by
  refine hperm.eq_of_pairwise (fun p q hp hq hpq hqp => ?_) hleft hright
  refine List.inj_on_of_nodup_map hkeys hp (hperm.symm.subset hq) (Prod.ext ?_ ?_)
  · unfold placeLe at hpq hqp
    dsimp only
    omega
  · unfold placeLe at hpq hqp
    dsimp only
    omega

theorem withPartitions_congr (lib : TableLibrary) (table : PartitionTable)
    {left right : List PartitionResource} (hperm : left.Perm right)
    (hkeys : (left.map fun p => (p.startSector, p.number)).Nodup) :
    withPartitions lib table left = withPartitions lib table right := by
  have hsort : left.insertionSort placeLe = right.insertionSort placeLe := by
    have hl : (left.insertionSort placeLe).Perm left := List.perm_insertionSort _ _
    have hr : (right.insertionSort placeLe).Perm right := List.perm_insertionSort _ _
    exact sorted_unique (List.pairwise_insertionSort _ _) (List.pairwise_insertionSort _ _)
      ((hl.map _).nodup_iff.2 hkeys) (hl.trans (hperm.trans hr.symm))
  rw [withPartitions, withPartitions, hsort]

/-- A table whose partitions are in order and whose free regions are what they leave. -/
structure Canonical (table : PartitionTable) : Prop where
  numbers : (table.partitions.map (·.number)).Nodup
  sorted : table.partitions.Pairwise placeLe
  free : table.freeRegions = freeRegions table.partitions table.firstUsableSector
    table.lastUsableSector table.sectorSize

theorem withPartitions_canonical (lib : TableLibrary) (h : Canonical table)
    {partitions : List PartitionResource} (hperm : partitions.Perm table.partitions) :
    withPartitions lib table partitions = table.stamp lib := by
  have hkeys : (table.partitions.map fun p => (p.startSector, p.number)).Nodup :=
    .of_map Prod.snd (by simpa [List.map_map, Function.comp_def] using h.numbers)
  have hsort : partitions.insertionSort placeLe = table.partitions := by
    have hp : (partitions.insertionSort placeLe).Perm partitions := List.perm_insertionSort _ _
    exact (sorted_unique h.sorted (List.pairwise_insertionSort _ _) hkeys
      (hp.trans hperm).symm).symm
  rw [withPartitions, hsort, ← h.free]
  rfl

/-- The table is the original one again. -/
structure Restored (lib : TableLibrary) (original restored : PartitionTable) : Prop where
  partitions : restored.partitions = original.partitions
  free : restored.freeRegions = original.freeRegions
  geometry : partitionGeometrySignature lib.toLibrary restored =
    partitionGeometrySignature lib.toLibrary original
  fingerprint : partitionTableFingerprint lib restored = partitionTableFingerprint lib original
  rest : restored = { original with fingerprintSha256 := partitionTableFingerprint lib original }

variable (lib) in
theorem delete_created (hcanonical : Canonical table)
    (hnew : target.number ∉ table.partitions.map (·.number)) :
    ∃ restored,
      withPartitions lib (withPartitions lib table (table.partitions ++ [target]))
        ((withPartitions lib table (table.partitions ++ [target])).partitions.filter
          (·.number ≠ target.number)) = restored ∧ Restored lib table restored := by
  have hperm := withPartitions_perm lib table (table.partitions ++ [target])
  have hkept : table.partitions.filter (·.number ≠ target.number) = table.partitions := by
    refine List.filter_eq_self.2 fun q hq => decide_eq_true fun heq => hnew ?_
    exact heq ▸ List.mem_map_of_mem (f := (·.number)) hq
  have hrest := hperm.filter (·.number ≠ target.number)
  rw [List.filter_append, hkept, List.filter_cons_of_neg (by simp), List.filter_nil,
    List.append_nil] at hrest
  have hsame := withPartitions_canonical lib hcanonical hrest
  refine ⟨table.stamp lib, hsame, rfl, rfl, rfl, rfl, rfl⟩

/-- Creating a partition and deleting it again leaves a table as it was, and a table does not depend
on the order in which its partitions are given. -/
theorem create_delete_restores (lib : TableLibrary) :
    (∀ (uuids uuids' : Uuids) (request delete : DeclarativeStorageOperationRequest)
      (original layout : StorageLayout) (p : PartitionResource),
      original.partitionTable.type ≠ .unknown → Canonical original.partitionTable →
      planCreate lib uuids request original = .ok (layout.partitionTable, p) →
      delete.operation = .delete → delete.partitionNumber = some p.number →
      ∃ restored, proposedTable lib uuids' delete layout = .ok (restored, p) ∧
        Restored lib original.partitionTable restored) ∧
    ∀ (table : PartitionTable) (left right : List PartitionResource), left.Perm right →
      (left.map fun p => (p.startSector, p.number)).Nodup →
      withPartitions lib table left = withPartitions lib table right := by
  refine ⟨fun uuids uuids' request delete original layout p htype hcanonical hcreate hdelete
    hnumber => ?_, fun table left right => withPartitions_congr lib table⟩
  obtain ⟨table, htable, hplace, hproposed⟩ := planCreateBy_spec hcreate
  obtain ⟨-, rfl⟩ | ⟨hunknown, -⟩ := workingTable_cases htable
  · obtain ⟨region, size, hp⟩ := placePartition_spec hplace
    have hnew := hp.number.unused
    have hperm := withPartitions_perm lib original.partitionTable
      (original.partitionTable.partitions ++ [p])
    obtain ⟨restored, hrestored, hsame⟩ := delete_created lib hcanonical hnew
    refine ⟨restored, ?_, hsame⟩
    have hnumbers : (layout.partitionTable.partitions.map (·.number)).Nodup := by
      rw [hproposed, (hperm.map (·.number)).nodup_iff, List.map_append, List.map_singleton]
      exact hcanonical.numbers.append (List.nodup_singleton _) (by simpa using hnew)
    have hmem : p ∈ layout.partitionTable.partitions := by
      rw [hproposed]
      exact hperm.symm.subset (by simp)
    rw [proposedTable, hdelete, hnumber]
    dsimp only
    rw [findPartition_of_mem hnumbers hmem, hproposed]
    exact congrArg (fun table => Except.ok (table, p)) hrestored
  · exact absurd hunknown htype

/-- The disk with two partitions and its free regions. -/
def surveyedPartitions : StorageLayout :=
  { twoPartitions with
    partitionTable := withPartitions sampleTables twoPartitions.partitionTable
      twoPartitions.partitionTable.partitions }

theorem surveyedPartitions_canonical : Canonical surveyedPartitions.partitionTable where
  numbers := ((withPartitions_perm sampleTables _ _).map (·.number)).nodup_iff.2
    twoPartitions_wellFormed.numbers
  sorted := sorted_withPartitions _ _ _
  free := rfl

/-- A request to delete partition 3. -/
def deleteRequest : DeclarativeStorageOperationRequest :=
  { createRequest none 1048576 with
    operation := .delete
    partitionNumber := some 3
    sizeBytes := none }

theorem create_delete_restores_sample : ∃ proposed p restored,
    planCreate sampleTables sampleUuids (createRequest none 1048576) surveyedPartitions =
      .ok (proposed, p) ∧
    proposedTable sampleTables sampleUuids deleteRequest
      { surveyedPartitions with partitionTable := proposed } = .ok (restored, p) ∧
    Restored sampleTables surveyedPartitions.partitionTable restored := by
  obtain ⟨⟨proposed, p⟩, hcreate, hnumber⟩ := map_eq_ok (f := fun r => r.2.number) (b := 3)
    (x := planCreate sampleTables sampleUuids (createRequest none 1048576) surveyedPartitions)
    (by decide +kernel)
  obtain ⟨restored, hdelete, hsame⟩ := (create_delete_restores sampleTables).1 sampleUuids sampleUuids
    (createRequest none 1048576) deleteRequest surveyedPartitions
    { surveyedPartitions with partitionTable := proposed } p (by decide)
    surveyedPartitions_canonical hcreate rfl (congrArg some hnumber.symm)
  exact ⟨proposed, p, restored, hcreate, hdelete, hsame⟩

end Ares.Operations
