import Ares.Storage.Devices
import Ares.Storage.Sfdisk

/-! The free regions of a table, for partitions in any order that may overlap, lie inside one another
or touch. -/

namespace Ares.Storage

open Data

variable {partitions : List PartitionResource} {first last sectorSize : Nat}

/-- The fields of a partition agree with each other. -/
structure PartitionResource.Proper (p : PartitionResource) : Prop where
  nonempty : 1 ≤ p.sizeSectors
  stop : p.endSector = p.startSector + p.sizeSectors - 1

theorem PartitionResource.Proper.start_le {p : PartitionResource} (h : p.Proper) :
    p.startSector ≤ p.endSector := by
  have := h.nonempty
  have := h.stop
  omega

theorem freeRegions_eq (hrange : first ≤ last) :
    freeRegions partitions first last sectorSize =
      (gaps PartitionResource.startSector PartitionResource.endSector last first
        (sortedByStart partitions)).map fun g => free g.1 g.2 sectorSize :=
  if_neg (by omega)

theorem mem_freeRegions {region : FreeRegion} :
    region ∈ freeRegions partitions first last sectorSize ↔ first ≤ last ∧
      ∃ g ∈ gaps PartitionResource.startSector PartitionResource.endSector last first
        (sortedByStart partitions), region = free g.1 g.2 sectorSize := by
  rw [freeRegions]
  split
  · next h =>
    simp only [List.not_mem_nil, false_iff, not_and]
    omega
  · next h =>
    simp only [List.mem_map, eq_comm, not_lt.1 h, true_and]

theorem mem_sortedByStart {p : PartitionResource} : p ∈ sortedByStart partitions ↔ p ∈ partitions :=
  List.mem_insertionSort _

theorem sortedByStart_sorted (partitions : List PartitionResource) :
    (sortedByStart partitions).Pairwise fun p q => p.startSector ≤ q.startSector :=
  List.pairwise_insertionSort _ _

theorem exists_freeRegion_iff (sectorSize : Nat) (hrange : first ≤ last)
    (hlast : ∀ p ∈ partitions, p.startSector ≤ last + 1) (sector : Nat) :
    (∃ region ∈ freeRegions partitions first last sectorSize,
        region.startSector ≤ sector ∧ sector ≤ region.endSector) ↔
      first ≤ sector ∧ sector ≤ last ∧
        ∀ p ∈ partitions, sector < p.startSector ∨ p.endSector < sector := by
  have hcover := exists_gap_iff PartitionResource.endSector last first
    (sortedByStart_sorted partitions) (fun p hp => hlast p (mem_sortedByStart.mp hp)) sector
  simp only [mem_sortedByStart] at hcover
  rw [← hcover, freeRegions_eq hrange]
  simp only [List.mem_map, exists_exists_and_eq_and]
  rfl

theorem pairwise_freeRegions (first last sectorSize : Nat)
    (hproper : ∀ p ∈ partitions, p.startSector ≤ p.endSector) :
    (freeRegions partitions first last sectorSize).Pairwise fun a b =>
      a.endSector + 1 < b.startSector := by
  by_cases hrange : first ≤ last
  · rw [freeRegions_eq hrange, List.pairwise_map]
    exact pairwise_gaps fun p hp => hproper p (mem_sortedByStart.mp hp)
  · rw [freeRegions, if_pos (Nat.lt_of_not_le hrange)]
    exact List.Pairwise.nil

theorem freeRegion_spec {region : FreeRegion}
    (h : region ∈ freeRegions partitions first last sectorSize) :
    region.startSector ≤ region.endSector ∧
      region = free region.startSector region.endSector sectorSize := by
  obtain ⟨-, g, hg, rfl⟩ := mem_freeRegions.mp h
  exact ⟨gap_nonempty hg, rfl⟩

/-- The free regions are in ascending order, not empty and apart from each other, and together they
are the sectors of the range that are in no partition. -/
theorem free_regions_exact (partitions : List PartitionResource) (first last sectorSize : Nat)
    (hproper : ∀ p ∈ partitions, p.Proper)
    (hlast : ∀ p ∈ partitions, p.startSector ≤ last + 1) (hrange : first ≤ last) :
    (freeRegions partitions first last sectorSize).Pairwise
        (fun a b => a.startSector < b.startSector ∧ a.endSector + 1 < b.startSector) ∧
      (∀ region ∈ freeRegions partitions first last sectorSize,
        region.startSector ≤ region.endSector ∧
          region.sizeSectors = region.endSector - region.startSector + 1 ∧
          region.sizeBytes = region.sizeSectors * sectorSize ∧
          first ≤ region.startSector ∧ region.endSector ≤ last) ∧
      ∀ sector, first ≤ sector → sector ≤ last →
        ((∃ region ∈ freeRegions partitions first last sectorSize,
            region.startSector ≤ sector ∧ sector ≤ region.endSector) ↔
          ∀ p ∈ partitions, ¬ (p.startSector ≤ sector ∧ sector ≤ p.endSector)) := by
  have hcover := exists_freeRegion_iff sectorSize hrange hlast
  refine ⟨?_, fun region hregion => ?_, fun sector hfirst hle => ?_⟩
  · have hapart := pairwise_freeRegions first last sectorSize
      fun p hp => (hproper p hp).start_le
    refine hapart.imp_of_mem fun {a b} ha _ hab => ⟨?_, hab⟩
    have := (freeRegion_spec ha).1
    omega
  · obtain ⟨hnonempty, heq⟩ := freeRegion_spec hregion
    have hstart := (hcover region.startSector).mp ⟨region, hregion, le_rfl, hnonempty⟩
    have hstop := (hcover region.endSector).mp ⟨region, hregion, hnonempty, le_rfl⟩
    have hsize : region.sizeSectors = region.endSector + 1 - region.startSector := by
      conv_lhs => rw [heq]
      rfl
    have hbytes : region.sizeBytes = (region.endSector + 1 - region.startSector) * sectorSize := by
      conv_lhs => rw [heq]
      rfl
    refine ⟨hnonempty, by omega, ?_, hstart.1, hstop.2.1⟩
    rw [hbytes, hsize]
  · rw [hcover sector]
    constructor
    · rintro ⟨-, -, hout⟩ p hp ⟨hstart, hstop⟩
      have := hout p hp
      omega
    · intro hout
      refine ⟨hfirst, hle, fun p hp => ?_⟩
      have := hout p hp
      omega

/-! ### Partitions that overlap -/

def span (start size : Nat) : PartitionResource :=
  { samplePartition with
    startSector := start
    endSector := start + size - 1
    sizeSectors := size }

/-- One partition begins before the range, one lies inside another and one begins behind the range. -/
def overlapping : List PartitionResource := [span 51 10, span 20 10, span 22 3, span 5 10]

theorem free_regions_sample : freeRegions overlapping 10 50 512 = [free 15 19 512, free 30 50 512] ∧
      ∀ sector, 10 ≤ sector → sector ≤ 50 →
        ((∃ region ∈ freeRegions overlapping 10 50 512,
            region.startSector ≤ sector ∧ sector ≤ region.endSector) ↔
          ∀ p ∈ overlapping, ¬ (p.startSector ≤ sector ∧ sector ≤ p.endSector)) := by
  have hproper : ∀ p ∈ overlapping, p.Proper := by
    simp only [overlapping, List.forall_mem_cons, List.not_mem_nil, false_implies, implies_true,
      and_true]
    exact ⟨⟨by decide, rfl⟩, ⟨by decide, rfl⟩, ⟨by decide, rfl⟩, ⟨by decide, rfl⟩⟩
  have hlast : ∀ p ∈ overlapping, p.startSector ≤ 50 + 1 := by decide
  exact ⟨by decide +kernel, (free_regions_exact overlapping 10 50 512 hproper hlast (by decide)).2.2⟩

end Ares.Storage
