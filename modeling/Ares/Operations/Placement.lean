import Mathlib.Algebra.Order.Floor.Semifield
import Mathlib.Data.List.Count
import Ares.Operations.Planning
import Ares.Storage.Parsing

/-! Where a new partition comes to lie, and what planning it does to the partitions that the disk
already has. -/

namespace Ares.Operations

open Data Storage

variable {lib : TableLibrary} {uuids : Uuids} {request : DeclarativeStorageOperationRequest}
  {original : StorageLayout} {table proposed : PartitionTable} {p : PartitionResource}
  {count : SectorCount}

/-! ### What planning does -/

theorem checked_ok {q : PartitionResource} (h : q.checked = .ok p) : p = q := by
  rw [PartitionResource.checked] at h
  split at h
  · exact (Except.ok.inj h).symm
  · cases h

variable {identity : StorageDeviceIdentity}

theorem newPartitionResource_spec {uuid : Uuid}
    {type : PartitionTableType} {number start sectors sectorSize : Nat}
    {typeCode name : Option String}
    (h : newPartitionResource lib uuid identity type number start sectors sectorSize typeCode name =
      .ok p) :
    p.number = number ∧ p.startSector = start ∧ p.sizeSectors = sectors ∧
      p.endSector = start + sectors - 1 := by
  rw [newPartitionResource] at h
  split at h
  · cases h
  · obtain rfl := checked_ok h
    exact ⟨rfl, rfl, rfl, rfl⟩

/-- The number is free, as small as possible and within the limit. -/
structure LeastNumber (table : PartitionTable) (number : Nat) : Prop where
  positive : 1 ≤ number
  le_limit : number ≤ numberLimit table.type
  unused : number ∉ table.partitions.map (·.number)
  least : ∀ n, 1 ≤ n → n < number → n ∈ table.partitions.map (·.number)

theorem nextPartitionNumber_spec {number : Nat}
    (h : nextPartitionNumber table.type table.partitions = .ok number) :
    LeastNumber table number := by
  rw [nextPartitionNumber] at h
  split at h
  · next found hfind =>
    obtain rfl := Except.ok.inj h
    obtain ⟨hunused, before, after, hsplit, hbefore⟩ := List.find?_eq_some_iff_append.1 hfind
    have hmem : found ∈ List.range' 1 (numberLimit table.type) := by simp [hsplit]
    have hrange := List.mem_range'_1.1 hmem
    refine ⟨hrange.1, by omega, by simpa using hunused, fun n hn hlt => ?_⟩
    have hn : n ∈ before ++ found :: after := by
      rw [← hsplit]
      exact List.mem_range'_1.2 ⟨hn, by omega⟩
    -- the numbers are tried in increasing order
    have hsorted : (before ++ found :: after).Pairwise (· < ·) := by
      rw [← hsplit]
      exact List.pairwise_lt_range'
    rcases List.mem_append.1 hn with hn | hn
    · simpa using hbefore n hn
    · have hafter := (List.pairwise_cons.1 (List.pairwise_append.1 hsorted).2.1).1
      rcases List.mem_cons.1 hn with rfl | hn
      · omega
      · have := hafter n hn
        omega
  · cases h

/-- What `_plan_create` puts into the table that it works on. -/
structure Placing (count : SectorCount) (request : DeclarativeStorageOperationRequest)
    (table : PartitionTable) (region : FreeRegion) (size : Nat) (p : PartitionResource) :
    Prop where
  region_eq : table.freeRegions[request.freeRegionIndex]? = some region
  size_eq : request.sizeBytes = some size
  start : p.startSector = alignUp region.startSector (alignment table.sectorSize)
  sectors : count size table.sectorSize = .ok p.sizeSectors
  stop : p.endSector = p.startSector + p.sizeSectors - 1
  inside : p.endSector ≤ region.endSector
  number : LeastNumber table p.number

theorem placePartition_spec (h : placePartition count lib uuids request identity table = .ok p) :
    ∃ region size, Placing count request table region size p := by
  rw [placePartition] at h
  split at h
  · next region size hregion hsize =>
    refine ⟨region, size, ?_⟩
    obtain ⟨sectors, hcount, h⟩ := bind_eq_ok (x := count _ _) h
    dsimp only at h
    split at h
    · cases h
    · next hend =>
      obtain ⟨number, hnumber, h⟩ := bind_eq_ok (x := nextPartitionNumber _ _) h
      obtain ⟨hnum, hstart, hsectors, hstop⟩ := newPartitionResource_spec (mapError_eq_ok h)
      refine ⟨hregion, hsize, hstart, hsectors ▸ hcount, by omega, by omega, ?_⟩
      rw [hnum]
      exact nextPartitionNumber_spec hnumber
  · cases h
  · cases h

theorem planCreateBy_spec (h : planCreateBy count lib uuids request original = .ok (proposed, p)) :
    ∃ table, workingTable lib uuids request original = .ok table ∧
      placePartition count lib uuids request original.disk.identity table = .ok p ∧
      proposed = withPartitions lib table (table.partitions ++ [p]) := by
  obtain ⟨table, htable, h⟩ := bind_eq_ok h
  obtain ⟨q, hq, h⟩ := bind_eq_ok h
  obtain ⟨rfl, rfl⟩ := Prod.mk.inj (Except.ok.inj h)
  exact ⟨table, htable, hq, rfl⟩

def resized (target : PartitionResource) (sizeSectors sectorSize : Nat) : PartitionResource :=
  { target with
    endSector := target.startSector + sizeSectors - 1
    sizeSectors
    sizeBytes := sizeSectors * sectorSize }

def moved (target : PartitionResource) (start : Nat) : PartitionResource :=
  { target with startSector := start, endSector := start + target.sizeSectors - 1 }

theorem planResize_ok {size : Nat} (h : planResize lib size table p = .ok proposed) :
    ∃ sectors, ceilSectors size table.sectorSize = .ok sectors ∧
      proposed = replacePartition lib table (resized p sectors table.sectorSize) ∧ sectors ≠ 0 ∧
      p.startSector + sectors - 1 ≤ table.lastUsableSector ∧
      conflict table p p.startSector (p.startSector + sectors - 1) = false := by
  obtain ⟨sectors, hcount, h⟩ := bind_eq_ok (x := ceilSectors _ _) h
  split at h
  · cases h
  · next hsize =>
    dsimp only at h
    split at h
    · cases h
    · next hlast =>
      split at h
      · cases h
      · next hconflict =>
        simp only [Bool.or_eq_true, decide_eq_true_eq, not_or] at hsize
        exact ⟨sectors, hcount, (Except.ok.inj h).symm, hsize.1, Nat.not_lt.1 hlast,
          by simpa using hconflict⟩

theorem planMove_ok {start : Nat} (h : planMove lib start table p = .ok proposed) :
    proposed = replacePartition lib table (moved p start) ∧ table.firstUsableSector ≤ start ∧
      start + p.sizeSectors - 1 ≤ table.lastUsableSector ∧
      conflict table p start (start + p.sizeSectors - 1) = false := by
  rw [planMove] at h
  dsimp only at h
  split at h
  · cases h
  · next hrange =>
    split at h
    · cases h
    · next hconflict =>
      simp only [Bool.or_eq_true, decide_eq_true_eq, not_or, Nat.not_lt] at hrange
      exact ⟨(Except.ok.inj h).symm, hrange.1, hrange.2, by simpa using hconflict⟩

/-! ### The existing partitions -/

/-- What the claim of a partition on the disk consists of. -/
structure Approved where
  number : Nat
  startSector : Nat
  sizeSectors : Nat
  typeCode : Option String
  partuuid : Option String
  name : Option String
deriving DecidableEq

def approved (p : PartitionResource) : Approved where
  number := p.number
  startSector := p.startSector
  sizeSectors := p.sizeSectors
  typeCode := p.typeCode
  partuuid := p.partuuid
  name := p.name

/-- The proposed table has every partition of the original one and one more, whose number is new. -/
def KeepsPartitions (original proposed : PartitionTable) : Prop :=
  ∃ p ∈ proposed.partitions, p.number ∉ original.partitions.map (·.number) ∧
    (proposed.partitions.map approved).Perm (original.partitions.map approved ++ [approved p])

variable (lib) in
theorem withPartitions_perm (table : PartitionTable) (partitions : List PartitionResource) :
    (withPartitions lib table partitions).partitions.Perm partitions :=
  List.perm_insertionSort _ _

theorem checked_table {draft : PartitionTable} (h : draft.checked lib = .ok table) :
    draft.valid = true ∧ table = draft.stamp lib := by
  rw [PartitionTable.checked] at h
  split at h
  · cases h
  · next hvalid =>
    split at h
    · exact ⟨by simpa using hvalid, (Except.ok.inj h).symm⟩
    · cases h

theorem buildEmptyTable_spec {type : PartitionTableType}
    {guid : String} (h : buildEmptyTable lib identity type guid = .ok table) :
    ∃ first last total, (draftTable type (some guid) identity.logicalSectorSize.toNat first last
      total []).checked lib = .ok table := by
  cases type with
  | unknown => cases h
  | gpt => exact ⟨_, _, _, h⟩
  | mbr => exact ⟨_, _, _, h⟩

theorem buildEmptyTable_partitions {type : PartitionTableType}
    {guid : String} (h : buildEmptyTable lib identity type guid = .ok table) :
    table.partitions = [] := by
  obtain ⟨first, last, total, hchecked⟩ := buildEmptyTable_spec h
  rw [(checked_table hchecked).2]
  rfl

theorem workingTable_cases (h : workingTable lib uuids request original = .ok table) :
    original.partitionTable.type ≠ .unknown ∧ table = original.partitionTable ∨
      original.partitionTable.type = .unknown ∧ ∃ type guid,
        buildEmptyTable lib original.disk.identity type guid = .ok table := by
  rw [workingTable] at h
  split at h
  · next htype =>
    refine .inr ⟨htype, ?_⟩
    split at h
    · exact ⟨_, _, h⟩
    · exact ⟨_, _, h⟩
    · cases h
  · next htype =>
    refine .inl ⟨htype, ?_⟩
    split at h
    · cases h
    · exact (Except.ok.inj h).symm

/-- Planning a partition keeps the partitions of the disk unless their table is of no known type. -/
theorem create_keeps_iff (h : proposedTable lib uuids request original = .ok (proposed, p))
    (hcreate : request.operation = .create) :
    KeepsPartitions original.partitionTable proposed ↔
      original.partitionTable.type ≠ .unknown ∨ original.partitionTable.partitions = [] := by
  rw [proposedTable, hcreate] at h
  obtain ⟨table, htable, hplace, rfl⟩ := planCreateBy_spec h
  obtain ⟨region, size, hp⟩ := placePartition_spec hplace
  have hperm := withPartitions_perm lib table (table.partitions ++ [p])
  have hkeeps : table.partitions = original.partitionTable.partitions →
      KeepsPartitions original.partitionTable
        (withPartitions lib table (table.partitions ++ [p])) := by
    intro heq
    refine ⟨p, hperm.symm.subset (by simp), heq ▸ hp.number.unused, ?_⟩
    rw [← heq]
    simpa using hperm.map approved
  rcases workingTable_cases htable with ⟨htype, rfl⟩ | ⟨htype, type, guid, hbuild⟩
  · exact ⟨fun _ => .inl htype, fun _ => hkeeps rfl⟩
  · have hempty := buildEmptyTable_partitions hbuild
    constructor
    · rintro ⟨q, -, -, hq⟩
      right
      -- the proposed table has one partition, so the original one has none
      have hone : (withPartitions lib table (table.partitions ++ [p])).partitions.length = 1 := by
        simpa [hempty] using hperm.length_eq
      have hlength := hq.length_eq
      simp only [List.length_map, List.length_append, List.length_singleton, hone] at hlength
      exact List.length_eq_zero_iff.1 (by omega)
    · rintro (hne | hnil)
      · exact absurd htype hne
      · exact hkeeps (by rw [hempty, hnil])

/-! ### The place of the new partition -/

theorem le_alignUp (value : Nat) {a : Nat} (ha : 0 < a) : value ≤ alignUp value a := by
  have h := Nat.div_add_mod (value + a - 1) a
  have hlt := Nat.mod_lt (value + a - 1) ha
  have hcomm := Nat.mul_comm a ((value + a - 1) / a)
  rw [alignUp]
  omega

/-- How many alignment units an aligned start lies behind the first sector. -/
def alignmentSteps (start sectorSize : Nat) : Nat :=
  (start + alignment sectorSize - 1) / alignment sectorSize

theorem alignment_eq {sectorSize : Nat} (hpos : 0 < sectorSize) (hle : sectorSize ≤ 65536) :
    alignment sectorSize = 1048576 / sectorSize ∧ 0 < alignment sectorSize := by
  have hdiv : 0 < 1048576 / sectorSize := Nat.div_pos (by omega) hpos
  have heq : alignment sectorSize = 1048576 / sectorSize := max_eq_right hdiv
  exact ⟨heq, heq ▸ hdiv⟩

/-- An aligned start lies on a boundary of 1 MiB exactly where the bytes of 1 MiB that no whole
sector takes up add to whole boundaries. -/
theorem boundary_iff {sectorSize : Nat} (hpos : 0 < sectorSize) (hle : sectorSize ≤ 65536)
    (start : Nat) :
    1048576 ∣ alignUp start (alignment sectorSize) * sectorSize ↔
      1048576 ∣ alignmentSteps start sectorSize * (1048576 % sectorSize) := by
  have hsum : alignUp start (alignment sectorSize) * sectorSize +
      alignmentSteps start sectorSize * (1048576 % sectorSize) =
        alignmentSteps start sectorSize * 1048576 := by
    rw [alignUp, ← alignmentSteps, Nat.mul_assoc, ← Nat.mul_add,
      (alignment_eq hpos hle).1, Nat.div_add_mod']
  have hdvd : 1048576 ∣ alignmentSteps start sectorSize * 1048576 := Nat.dvd_mul_left _ _
  rw [← hsum] at hdvd
  exact ⟨fun h => (Nat.dvd_add_right h).1 hdvd, fun h => (Nat.dvd_add_left h).1 hdvd⟩

theorem exactCeil_eq (size : Nat) {sectorSize : Nat} (hpos : 0 < sectorSize) :
    exactCeil size sectorSize = ⌈(size / sectorSize : ℚ)⌉₊ := by
  refine eq_of_forall_ge_iff fun k => ?_
  have hq : (0 : ℚ) < sectorSize := by exact_mod_cast hpos
  have hmul : (size / sectorSize : ℚ) ≤ k ↔ size ≤ k * sectorSize := by
    rw [div_le_iff₀ hq]
    exact_mod_cast Iff.rfl
  rw [Nat.ceil_le, hmul, exactCeil, Nat.div_le_iff_le_mul_add_pred hpos, Nat.mul_comm]
  omega

/-- The free regions of a table lie behind its first usable sector and have no sector in common
with its partitions. -/
structure Surveyed (table : PartitionTable) : Prop where
  sector_ge : 512 ≤ table.sectorSize
  sector_le : table.sectorSize ≤ 65536
  behind : ∀ region ∈ table.freeRegions, table.firstUsableSector ≤ region.startSector
  apart : ∀ region ∈ table.freeRegions, ∀ q ∈ table.partitions,
    region.endSector < q.startSector ∨ q.endSector < region.startSector

theorem surveyed_draft {type : PartitionTableType} {guid : Option String}
    {sectorSize first last total : Nat} {partitions : List PartitionResource}
    (h : (draftTable type guid sectorSize first last total partitions).checked lib = .ok table) :
    Surveyed table := by
  obtain ⟨hvalid, rfl⟩ := checked_table h
  simp only [PartitionTable.valid, Bool.and_eq_true, decide_eq_true_eq] at hvalid
  refine ⟨hvalid.1.2, hvalid.2, fun region hmem => ?_, fun region hmem q hq => ?_⟩
  · obtain ⟨-, g, hg, rfl⟩ := mem_freeRegions.1 hmem
    exact le_of_mem_gaps hg
  · obtain ⟨-, g, hg, rfl⟩ := mem_freeRegions.1 hmem
    exact apart_of_mem_gaps (sortedByStart_sorted partitions) hg (mem_sortedByStart.2 hq)

/-- The tables that `parse_sfdisk_json`, `build_empty_table` and `_empty_table` produce, also with the
details that an inspection adds to their partitions. -/
inductive Produced (lib : TableLibrary) : PartitionTable → Prop
  | parsed {payload : Option Json} {identity : StorageDeviceIdentity} {table : PartitionTable} :
      parseSfdiskJson lib payload identity = .ok table → Produced lib table
  | built {identity : StorageDeviceIdentity} {type : PartitionTableType} {guid : String}
      {table : PartitionTable} :
      buildEmptyTable lib identity type guid = .ok table → Produced lib table
  | empty {identity : StorageDeviceIdentity} {table : PartitionTable} :
      emptyTable lib identity = .ok table → Produced lib table
  | enriched {table : PartitionTable} (details : PartitionResource → Details) :
      Produced lib table → Produced lib (enrich lib details table)

theorem parseSfdiskJson_draft {payload : Option Json}
    (h : parseSfdiskJson lib payload identity = .ok table) :
    ∃ type guid sectorSize first last total partitions,
      (draftTable type guid sectorSize first last total partitions).checked lib = .ok table := by
  unfold parseSfdiskJson at h
  split at h
  · split at h
    · obtain ⟨partitions, -, h⟩ := bind_eq_ok h
      exact ⟨_, _, _, _, _, _, _, h⟩
    · cases h
  · cases h

theorem Produced.surveyed (h : Produced lib table) : Surveyed table := by
  induction h with
  | parsed hparse =>
    obtain ⟨_, _, _, _, _, _, _, hdraft⟩ := parseSfdiskJson_draft hparse
    exact surveyed_draft hdraft
  | built hbuild =>
    obtain ⟨_, _, _, hdraft⟩ := buildEmptyTable_spec hbuild
    exact surveyed_draft hdraft
  | empty hempty => exact surveyed_draft hempty
  | enriched details _ ih =>
    refine ⟨ih.sector_ge, ih.sector_le, ih.behind, fun region hregion q hq => ?_⟩
    obtain ⟨q', hq', rfl⟩ := List.mem_map.1 hq
    exact ih.apart region hregion q' hq'

theorem produced_of_inspected (h : Inspected lib original) :
    Produced lib original.partitionTable := by
  obtain ⟨payload, details, table, htable, heq⟩ := h
  rw [heq]
  rcases htable with hparse | ⟨-, hempty⟩
  · exact .enriched details (.parsed hparse)
  · exact .enriched details (.empty hempty)

theorem workingTable_surveyed (h : workingTable lib uuids request original = .ok table)
    (hproduced : Produced lib original.partitionTable) : Surveyed table := by
  rcases workingTable_cases h with ⟨-, rfl⟩ | ⟨-, type, guid, hbuild⟩
  · exact hproduced.surveyed
  · exact (Produced.built hbuild).surveyed

/-- The partition lies in the usable range and off every other partition, begins on a boundary of
1 MiB, has the requested size and the least free number. -/
structure WellPlaced (table : PartitionTable) (request : DeclarativeStorageOperationRequest)
    (p : PartitionResource) : Prop where
  first_le : table.firstUsableSector ≤ p.startSector
  le_last : p.endSector ≤ table.lastUsableSector
  boundary : 1048576 ∣ p.startSector * table.sectorSize
  sectors : ∀ size, request.sizeBytes = some size →
    p.sizeSectors = ⌈(size / table.sectorSize : ℚ)⌉₊
  stop : p.endSector + 1 = p.startSector + p.sizeSectors
  apart : ∀ q ∈ table.partitions, p.endSector < q.startSector ∨ q.endSector < p.startSector
  number : LeastNumber table p.number

/-- The requested free region begins, once aligned, on a boundary, and it ends in the usable range or
is needed only as far as that goes. -/
def RegionUsable (table : PartitionTable) (request : DeclarativeStorageOperationRequest) : Prop :=
  ∃ region size, table.freeRegions[request.freeRegionIndex]? = some region ∧
    request.sizeBytes = some size ∧
    1048576 ∣ alignmentSteps region.startSector table.sectorSize * (1048576 % table.sectorSize) ∧
    (region.endSector ≤ table.lastUsableSector ∨
      alignmentSteps region.startSector table.sectorSize * alignment table.sectorSize +
        exactCeil size table.sectorSize ≤ table.lastUsableSector + 1)

/-- Every partition that is planned in a surveyed table is placed well as soon as its free region is
usable for it, and only then. -/
theorem wellPlaced_iff (hs : Surveyed table) (hvalid : request.valid = true)
    (h : placePartition exactSectors lib uuids request identity table = .ok p) :
    WellPlaced table request p ↔ RegionUsable table request := by
  obtain ⟨region, size, hp⟩ := placePartition_spec h
  have hpos : 0 < table.sectorSize := by have := hs.sector_ge; omega
  have hcount : p.sizeSectors = exactCeil size table.sectorSize := (Except.ok.inj hp.sectors).symm
  have hregion := List.mem_of_getElem? hp.region_eq
  have hbound := boundary_iff hpos hs.sector_le region.startSector
  have hle := le_alignUp region.startSector (alignment_eq hpos hs.sector_le).2
  have hsize : 1048576 ≤ size := by
    simp only [DeclarativeStorageOperationRequest.valid, hp.size_eq, Option.all_some,
      Bool.and_eq_true, decide_eq_true_eq] at hvalid
    omega
  have hsectors : 1 ≤ p.sizeSectors := by
    rw [hcount, exactCeil]
    exact Nat.div_pos (by omega) hpos
  have hend : p.endSector + 1 = p.startSector + p.sizeSectors := by
    have := hp.stop
    omega
  have hstart : p.startSector = alignmentSteps region.startSector table.sectorSize *
      alignment table.sectorSize := hp.start
  constructor
  · intro hw
    refine ⟨region, size, hp.region_eq, hp.size_eq, hbound.1 (hp.start ▸ hw.boundary), .inr ?_⟩
    rw [← hstart, ← hcount]
    have := hw.le_last
    omega
  · rintro ⟨region', size', hregion', hsize', hboundary, hlast⟩
    obtain rfl := Option.some.inj (hp.region_eq.symm.trans hregion')
    obtain rfl := Option.some.inj (hp.size_eq.symm.trans hsize')
    have hinside := hp.inside
    refine {
      first_le := by rw [hp.start]; exact (hs.behind _ hregion).trans hle
      le_last := ?_
      boundary := hp.start ▸ hbound.2 hboundary
      sectors := fun n hn => ?_
      stop := hend
      apart := fun q hq => ?_
      number := hp.number }
    · rw [← hstart, ← hcount] at hlast
      omega
    · obtain rfl := Option.some.inj (hp.size_eq.symm.trans hn)
      exact hcount.trans (exactCeil_eq _ hpos)
    · rw [← hp.start] at hle
      rcases hs.apart _ hregion q hq with hq | hq <;> omega

/-- The new partition of a plan whose sectors are counted exactly is placed well exactly when the
requested free region is usable. -/
theorem create_placed_iff (hproduced : Produced lib original.partitionTable)
    (hvalid : request.valid = true)
    (h : planCreateBy exactSectors lib uuids request original = .ok (proposed, p))
    (htable : workingTable lib uuids request original = .ok table) :
    WellPlaced table request p ↔ RegionUsable table request := by
  obtain ⟨table', htable', hplace, -⟩ := planCreateBy_spec h
  obtain rfl := Except.ok.inj (htable'.symm.trans htable)
  exact wellPlaced_iff (workingTable_surveyed htable hproduced) hvalid hplace

/-! ### Sample tables -/

def sampleUuids : Uuids := ⟨⟨List.replicate 32 0, rfl⟩, ⟨List.replicate 32 1, rfl⟩⟩

/-- An item of the JSON of `sfdisk`. -/
def sampleItem (start size : Int) : Json :=
  .obj [("start", .int start), ("size", .int size), ("type", .str "83")]

def sampleSfdisk (label : String) (items : List Json) : Option Json :=
  some (.obj [("partitiontable", .obj [("label", .str label), ("partitions", .arr items)])])

def sampleDetails (p : PartitionResource) : Details where
  role := p.role
  filesystemId := none
  mountPointIds := []
  operatingSystemIds := []
  volumeIds := []
  encryptionStatus := .unknown

/-- The layout of the sample device whose table `sfdisk` reports as `payload`. -/
def inspectedLayout (payload : Option Json) : StorageLayout :=
  match parseSfdiskJson sampleTables payload sampleIdentity with
  | .ok table =>
    { sampleLayout sampleIdentity [] with
      partitionTable := enrich sampleTables sampleDetails table }
  | .error _ => sampleLayout sampleIdentity []

theorem inspected_sample {payload : Option Json}
    (h : (parseSfdiskJson sampleTables payload sampleIdentity).isOk = true) :
    Inspected sampleTables (inspectedLayout payload) := by
  cases hparse : parseSfdiskJson sampleTables payload sampleIdentity with
  | error e => simp [hparse, Except.isOk, Except.toBool] at h
  | ok table =>
    rw [inspectedLayout, hparse]
    exact ⟨payload, sampleDetails, table, .inl hparse, rfl⟩

def createRequest (tableType : Option PartitionTableType) (size : Nat) :
    DeclarativeStorageOperationRequest where
  operation := .create
  targetDisk := "/dev/loop0"
  partitionNumber := none
  sizeBytes := some size
  newSizeBytes := none
  newStartSector := none
  tableType
  partitionType := none
  partitionName := none
  freeRegionIndex := 0

/-- A disk image whose second partition lies behind the end of the disk. -/
def truncatedSfdisk : Option Json :=
  sampleSfdisk "dos" [sampleItem 2048 2048, sampleItem 400000 2048]

theorem create_placed_iff_sample : ∃ table proposed p,
    planCreateBy exactSectors sampleTables sampleUuids (createRequest none 1048576)
      (inspectedLayout truncatedSfdisk) = .ok (proposed, p) ∧
    (WellPlaced table (createRequest none 1048576) p ↔
      RegionUsable table (createRequest none 1048576)) := by
  obtain ⟨⟨proposed, p⟩, hplan, -⟩ := map_eq_ok (f := fun _ => ()) (b := ())
    (x := planCreateBy exactSectors sampleTables sampleUuids (createRequest none 1048576)
      (inspectedLayout truncatedSfdisk)) (by decide +kernel)
  obtain ⟨table, htable, -⟩ := planCreateBy_spec hplan
  exact ⟨table, proposed, p, hplan, create_placed_iff
    (produced_of_inspected (inspected_sample (by decide +kernel))) (by decide +kernel) hplan htable⟩

/-- A request of 100 MiB on a disk of 64 MiB is placed in front of a partition that lies behind the
end of the disk. -/
theorem create_behind_last : ¬ ∀ (lib : TableLibrary) (uuids : Uuids)
    (request : DeclarativeStorageOperationRequest) (original : StorageLayout)
    (table proposed : PartitionTable) (p : PartitionResource),
    Produced lib original.partitionTable → request.valid = true →
    planCreateBy exactSectors lib uuids request original = .ok (proposed, p) →
    workingTable lib uuids request original = .ok table → WellPlaced table request p := by
  intro h
  obtain ⟨⟨proposed, p⟩, hplan, hp⟩ := map_eq_ok (f := fun r => r.2.endSector) (b := 208895)
    (x := planCreateBy exactSectors sampleTables sampleUuids (createRequest none 104857600)
      (inspectedLayout truncatedSfdisk)) (by decide +kernel)
  obtain ⟨table, htable, -⟩ := planCreateBy_spec hplan
  obtain ⟨_, hwork, hlast⟩ := map_eq_ok (f := (·.lastUsableSector)) (b := 131071)
    (x := workingTable sampleTables sampleUuids (createRequest none 104857600)
      (inspectedLayout truncatedSfdisk)) (by decide +kernel)
  obtain rfl := Except.ok.inj (hwork.symm.trans htable)
  have hplaced := (h _ _ _ _ _ _ _ (produced_of_inspected (inspected_sample (by decide +kernel)))
    (by decide +kernel) hplan htable).le_last
  dsimp only at hp hlast
  omega

/-- A disk whose table has a label that is neither GPT nor MBR, and one partition. -/
def sunSfdisk : Option Json := sampleSfdisk "sun" [sampleItem 2048 2048]

theorem create_keeps_iff_sample : ∃ proposed p,
    proposedTable sampleTables sampleUuids (createRequest none 1048576)
      (inspectedLayout truncatedSfdisk) = .ok (proposed, p) ∧
    (KeepsPartitions (inspectedLayout truncatedSfdisk).partitionTable proposed ↔
      (inspectedLayout truncatedSfdisk).partitionTable.type ≠ .unknown ∨
        (inspectedLayout truncatedSfdisk).partitionTable.partitions = []) := by
  obtain ⟨⟨proposed, p⟩, hplan, -⟩ := map_eq_ok (f := fun _ => ()) (b := ())
    (x := proposedTable sampleTables sampleUuids (createRequest none 1048576)
      (inspectedLayout truncatedSfdisk)) (by decide +kernel)
  exact ⟨proposed, p, hplan, create_keeps_iff hplan rfl⟩

/-- The partition of a disk with another label is not in the proposed table. -/
theorem create_drops_partitions : ¬ ∀ (lib : TableLibrary) (uuids : Uuids)
    (request : DeclarativeStorageOperationRequest) (original : StorageLayout)
    (proposed : PartitionTable) (p : PartitionResource), Inspected lib original →
    request.valid = true → request.operation = .create →
    proposedTable lib uuids request original = .ok (proposed, p) →
    KeepsPartitions original.partitionTable proposed := by
  intro h
  obtain ⟨⟨proposed, p⟩, hplan, hone⟩ := map_eq_ok (f := fun r => r.1.partitions.length) (b := 1)
    (x := proposedTable sampleTables sampleUuids (createRequest (some .gpt) 1048576)
      (inspectedLayout sunSfdisk)) (by decide +kernel)
  obtain ⟨q, -, -, hq⟩ := h _ _ _ _ _ _ (inspected_sample (by decide +kernel)) (by decide +kernel)
    rfl hplan
  have horiginal : (inspectedLayout sunSfdisk).partitionTable.partitions.length = 1 := by
    decide +kernel
  have hlength := hq.length_eq
  simp only [List.length_map, List.length_append, List.length_singleton, horiginal] at hlength
  dsimp only at hone
  omega

end Ares.Operations
