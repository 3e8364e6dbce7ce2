import Ares.Storage.Enrichment
import Ares.Storage.Parsing
import Ares.Storage.Policy

/-! Which signs of use the policy sees when it judges the delete of a partition, and which it does
not. -/

namespace Ares.Storage

open Data

variable {lib : TableLibrary} {env : Surroundings} {identity : StorageDeviceIdentity}
  {records : List MountPointResource} {swap : List Nat} {i : Nat} {p : PartitionResource}
  {probe : Probe} {probed : Probed} {found : Found} {founds : List Found}

/-! ### One partition -/

theorem validated_eq_ok {α : Type} {valid : α → Bool} {value a : α}
    (h : validated valid value = .ok a) : a = value := by
  rw [validated] at h
  split at h
  · exact (Except.ok.inj h).symm
  · cases h

/-- What the branches over the probe leave behind. -/
def Probed.Shows (p : PartitionResource) (probed : Probed) : Signature → Prop
  | .luks => probed.encryption = .luks ∧ probed.role = p.role ∧ probed.swap = []
  | .bitlocker => probed.encryption = .bitlocker ∧ probed.role = p.role ∧ probed.swap = []
  | .lvm => (∃ name, probed.volume =
      some ⟨"volume:" ++ "lvm-pv" ++ ":" ++ p.id, .lvmPv, name, [p.path]⟩) ∧
      probed.role = .lvm ∧ probed.swap = []
  | .raid => (∃ name, probed.volume =
      some ⟨"volume:" ++ "mdraid" ++ ":" ++ p.id, .mdraid, name, [p.path]⟩) ∧
      probed.role = .raid ∧ probed.swap = []
  | .swap => probed = { Probed.nothing p with role := .swap, swap := [p.number] }
  | .filesystem _ => probed.filesystem.isSome ∧ probed.role = p.role ∧ probed.swap = []
  | .none => probed = Probed.nothing p

def memberKinds : List (VolumeKind × String) :=
  [(.crypt, "crypt"), (.lvmPv, "lvm-pv"), (.mdraid, "mdraid")]

def VolumeResource.Member (v : VolumeResource) : Prop :=
  ∃ k ∈ memberKinds, ∃ id, v.kind = k.1 ∧ v.id = "volume:" ++ k.2 ++ ":" ++ id

theorem memberVolume_map {kind : VolumeKind} {label name : String} {g : VolumeResource → Probed}
    (h : (memberVolume p kind label name).map g = .ok probed) :
    probed = g ⟨"volume:" ++ label ++ ":" ++ p.id, kind, name, [p.path]⟩ := by
  obtain ⟨v, hv, rfl⟩ := map_eq_ok h
  rw [validated_eq_ok hv]

theorem member_of_mem {k : VolumeKind × String} (hk : k ∈ memberKinds) (name : String)
    {v : VolumeResource}
    (hv : v ∈ some (⟨"volume:" ++ k.2 ++ ":" ++ p.id, k.1, name, [p.path]⟩ : VolumeResource)) :
    v.Member := by
  obtain rfl := Option.some.inj hv
  exact ⟨k, hk, p.id, rfl, rfl⟩

theorem readProbe_spec (h : readProbe lib p probe = .ok probed) :
    probed.Shows p (signatureOf lib probe) ∧ (∀ v ∈ probed.volume, v.Member) := by
  rw [readProbe] at h
  split at h <;> rename_i hs <;> rw [hs]
  · obtain rfl := memberVolume_map h
    exact ⟨⟨rfl, rfl, rfl⟩, fun v => member_of_mem (k := (.crypt, "crypt")) (by simp [memberKinds]) _⟩
  · obtain rfl := memberVolume_map h
    exact ⟨⟨rfl, rfl, rfl⟩, fun v => member_of_mem (k := (.crypt, "crypt")) (by simp [memberKinds]) _⟩
  · obtain rfl := memberVolume_map h
    exact ⟨⟨⟨_, rfl⟩, rfl, rfl⟩,
      fun v => member_of_mem (k := (.lvmPv, "lvm-pv")) (by simp [memberKinds]) _⟩
  · obtain rfl := memberVolume_map h
    exact ⟨⟨⟨_, rfl⟩, rfl, rfl⟩,
      fun v => member_of_mem (k := (.mdraid, "mdraid")) (by simp [memberKinds]) _⟩
  · obtain rfl := Except.ok.inj h
    exact ⟨rfl, nofun⟩
  · obtain ⟨f, -, rfl⟩ := map_eq_ok h
    exact ⟨⟨rfl, rfl, rfl⟩, nofun⟩
  · obtain rfl := Except.ok.inj h
    exact ⟨rfl, nofun⟩

theorem probePartition_eq_ok (h : probePartition env identity i p = .ok probe) :
    probe = blkidReport env identity i p := by
  rw [probePartition] at h
  split at h
  · obtain ⟨_, -, rfl⟩ := map_eq_ok h
    rfl
  · exact (Except.ok.inj h).symm

def Signature.role (s : Signature) (role : PartitionRole) : PartitionRole :=
  match s with
  | .lvm => .lvm
  | .raid => .raid
  | .swap => .swap
  | _ => role

theorem takeSwap_eq {sources : List String} {s : Signature} (h : probed.Shows p s) :
    takeSwap sources swap p probed =
      if s = .swap ∨ p.path ∈ sources ∧ p.number ∉ swap then (.swap, [p.number])
      else (s.role p.role, []) := by
  have hother : s ≠ .swap → probed.role = s.role p.role ∧ probed.swap = [] := by
    intro hne
    cases s with
    | luks => exact h.2
    | bitlocker => exact h.2
    | lvm => exact h.2
    | raid => exact h.2
    | swap => exact absurd rfl hne
    | filesystem _ => exact h.2
    | none =>
      obtain rfl : probed = Probed.nothing p := h
      exact ⟨rfl, rfl⟩
  by_cases hs : s = .swap
  · subst hs
    obtain rfl : probed = { Probed.nothing p with role := .swap, swap := [p.number] } := h
    simp [takeSwap]
  · obtain ⟨hrole, hswap⟩ := hother hs
    simp [takeSwap, hrole, hswap, hs]

variable (lib env identity) in
def shown (i : Nat) (p : PartitionResource) : Signature :=
  signatureOf lib (blkidReport env identity i p)

/-- What the body of the loop finds about a partition. -/
structure Found.Of (lib : TableLibrary) (env : Surroundings) (records : List MountPointResource)
    (s : Signature) (taken : Prop) (p : PartitionResource) (found : Found) : Prop where
  number : found.partition.number = p.number
  role_taken : taken → found.partition.role = .swap
  role_kept : ¬taken → found.partition.role = s.role p.role
  swap_taken : taken → found.swap = [p.number]
  swap_kept : ¬taken → found.swap = []
  encryption : s = .none → found.partition.encryptionStatus = p.encryptionStatus
  luks : s = .luks → found.partition.encryptionStatus = .luks
  bitlocker : s = .bitlocker → found.partition.encryptionStatus = .bitlocker
  filesystem_id : found.partition.filesystemId = found.filesystems.head?.map (·.id)
  filesystem : ∀ type, s = .filesystem type → found.filesystems ≠ []
  no_filesystem : s = .none → found.filesystems = []
  volume_ids : found.partition.volumeIds = found.volumes.map (·.id)
  volumes : ∀ v ∈ found.volumes, v.Member
  lvm : s = .lvm → ∃ v ∈ found.volumes, v.kind = .lvmPv
  raid : s = .raid → ∃ v ∈ found.volumes, v.kind = .mdraid
  no_volume : s = .none → found.volumes = []
  mount_ids : found.partition.mountPointIds = found.mounts.map (·.id)
  mounts : found.mounts = [] ↔ ∀ m ∈ records, m.source ≠ p.path
  boot_number : ∀ d ∈ found.bootDependencies, d.partitionNumber = some p.number
  boot : found.bootDependencies = [] ↔ p.bootable = false ∧ found.partition.role ≠ .efi ∧
    ∀ m ∈ records, m.source = p.path → m.path ∉ bootPaths

theorem readMount_spec {record : MountPointResource} {m : Mounted}
    (h : readMount lib env p record = .ok m) :
    (m.bootDependency = none ↔ record.path ∉ bootPaths) ∧
      ∀ d ∈ m.bootDependency, d.partitionNumber = some p.number := by
  obtain ⟨mount, -, h⟩ := bind_eq_ok h
  obtain ⟨os, -, h⟩ := bind_eq_ok h
  obtain ⟨boot, hboot, h⟩ := bind_eq_ok h
  obtain rfl := Except.ok.inj h
  rw [bootMount] at hboot
  split at hboot
  · next hpath =>
    obtain ⟨d, hd, rfl⟩ := map_eq_ok hboot
    obtain rfl := validated_eq_ok hd
    refine ⟨by simpa using hpath, ?_⟩
    rintro _ ⟨⟩
    rfl
  · next hpath =>
    obtain rfl := Except.ok.inj hboot
    exact ⟨by simpa using hpath, nofun⟩

theorem mapM_validated {α : Type} {valid : α → Bool} {items results : List α}
    (h : items.mapM (validated valid) = .ok results) : results = items := by
  have hsame := (mapM_eq_ok h).imp fun a b hab => (validated_eq_ok hab).symm
  rw [List.forall₂_eq_eq_eq] at hsame
  exact hsame.symm

section Body

variable {mounted : List Mounted} {taken : PartitionRole × List Nat}

theorem enrichPartition_eq_ok (h : enrichPartition lib env identity records swap i p = .ok found) :
    ∃ probed mounted taken, probed.Shows p (shown lib env identity i p) ∧
      (∀ v ∈ probed.volume, v.Member) ∧
      List.Forall₂ (fun record m => readMount lib env p record = .ok m)
        (records.filter (·.source = p.path)) mounted ∧
      taken = takeSwap (swapSources lib env) swap p probed ∧
      found = foundWith p probed mounted taken (ownDependencies p taken.1) := by
  obtain ⟨probe, hprobe, h⟩ := bind_eq_ok h
  obtain rfl := probePartition_eq_ok hprobe
  obtain ⟨probed, hprobed, h⟩ := bind_eq_ok h
  obtain ⟨mounted, hmounted, h⟩ := bind_eq_ok h
  obtain ⟨own, hown, h⟩ := bind_eq_ok h
  obtain ⟨hshows, hmembers⟩ := readProbe_spec hprobed
  obtain rfl := mapM_validated hown
  exact ⟨probed, mounted, _, hshows, hmembers, mapM_eq_ok hmounted, rfl, (Except.ok.inj h).symm⟩

variable (hmounts : List.Forall₂ (fun record m => readMount lib env p record = .ok m)
  (records.filter (·.source = p.path)) mounted)
include hmounts

theorem mounted_eq_nil : mounted = [] ↔ ∀ m ∈ records, m.source ≠ p.path := by
  rw [← List.length_eq_zero_iff, ← hmounts.length_eq, List.length_eq_zero_iff,
    List.filter_eq_nil_iff]
  simp

theorem bootMounts_eq_nil : (∀ m ∈ mounted, m.bootDependency = none) ↔
    ∀ m ∈ records, m.source = p.path → m.path ∉ bootPaths := by
  constructor
  · intro hall r hr hsource
    obtain ⟨m, hm, hread⟩ := forall₂_left hmounts (List.mem_filter.2 ⟨hr, by simpa using hsource⟩)
    exact (readMount_spec hread).1.1 (hall m hm)
  · intro hall m hm
    obtain ⟨r, hr, hread⟩ := forall₂_right hmounts hm
    obtain ⟨hr, hsource⟩ := List.mem_filter.1 hr
    exact (readMount_spec hread).1.2 (hall r hr (by simpa using hsource))

theorem foundWith_boot_number :
    ∀ d ∈ (foundWith p probed mounted taken (ownDependencies p taken.1)).bootDependencies,
      d.partitionNumber = some p.number := by
  intro d hd
  rcases List.mem_append.1 hd with hd | hd
  · obtain ⟨m, hm, hd⟩ := List.mem_filterMap.1 hd
    obtain ⟨r, -, hr⟩ := forall₂_right hmounts hm
    exact (readMount_spec hr).2 d hd
  · rcases List.mem_append.1 hd with hd | hd <;>
    · rw [List.mem_ite_nil_right] at hd
      obtain rfl := List.mem_singleton.1 hd.2
      rfl

theorem foundWith_boot :
    (foundWith p probed mounted taken (ownDependencies p taken.1)).bootDependencies = [] ↔
    p.bootable = false ∧ taken.1 ≠ .efi ∧
      ∀ m ∈ records, m.source = p.path → m.path ∉ bootPaths := by
  have hefi : (if taken.1 = .efi then [efiDependency p] else []) = [] ↔ taken.1 ≠ .efi := by simp
  have hlegacy : (if p.bootable then [legacyDependency p] else []) = [] ↔ p.bootable = false := by
    simp
  rw [foundWith, List.append_eq_nil_iff, ownDependencies, List.append_eq_nil_iff, List.filterMap_eq_nil_iff,
    bootMounts_eq_nil hmounts, hefi, hlegacy]
  tauto

end Body

theorem enrichPartition_spec (h : enrichPartition lib env identity records swap i p = .ok found) :
    found.Of lib env records (shown lib env identity i p) (shown lib env identity i p = .swap ∨
      p.path ∈ swapSources lib env ∧ p.number ∉ swap) p := by
  obtain ⟨probed, mounted, taken, hshows, hmembers, hmounts, htaken, rfl⟩ :=
    enrichPartition_eq_ok h
  rw [takeSwap_eq hshows] at htaken
  subst htaken
  generalize shown lib env identity i p = s at hshows ⊢
  have hnone : s = .none → probed = Probed.nothing p := fun h => by rwa [h] at hshows
  constructor
  case role_taken | swap_taken =>
    intro htaken
    rw [foundWith, if_pos htaken]
  case role_kept | swap_kept =>
    intro hkept
    rw [foundWith, if_neg hkept]
  case encryption | no_filesystem | no_volume =>
    intro h
    rw [hnone h]
    rfl
  case luks | bitlocker =>
    intro h
    rw [h] at hshows
    exact hshows.1
  case filesystem =>
    intro type h
    rw [h] at hshows
    obtain ⟨f, hf⟩ := Option.isSome_iff_exists.1 hshows.1
    simp [foundWith, hf]
  case lvm | raid =>
    intro h
    rw [h] at hshows
    obtain ⟨⟨name, hv⟩, -⟩ := hshows
    exact ⟨_, Option.mem_toList.2 hv, rfl⟩
  case number => rfl
  case filesystem_id => cases hf : probed.filesystem <;> simp [foundWith, hf]
  case volume_ids => cases hv : probed.volume <;> simp [foundWith, hv]
  case volumes => exact fun v hv => hmembers v (Option.mem_toList.1 hv)
  case mount_ids => simp [foundWith]
  case mounts => rw [foundWith, List.map_eq_nil_iff, mounted_eq_nil hmounts]
  case boot_number => exact foundWith_boot_number hmounts
  case boot => exact foundWith_boot hmounts

/-! ### The loop -/

section Loop

variable {partitions : List PartitionResource}

theorem enrichFrom_spec (h : enrichFrom lib env identity records swap i partitions = .ok founds) :
    founds.length = partitions.length ∧ ∀ k p, partitions[k]? = some p →
      ∃ found, founds[k]? = some found ∧
        enrichPartition lib env identity records (swap ++ (founds.take k).flatMap (·.swap)) (i + k) p =
          .ok found := by
  induction partitions generalizing swap i founds with
  | nil =>
    obtain rfl := Except.ok.inj h
    exact ⟨rfl, fun k p hp => by simp at hp⟩
  | cons q rest ih =>
    obtain ⟨found, hfound, h⟩ := bind_eq_ok h
    obtain ⟨founds', hfounds, h⟩ := bind_eq_ok h
    obtain rfl := Except.ok.inj h
    obtain ⟨hlength, hall⟩ := ih hfounds
    refine ⟨by simp [hlength], fun k p hp => ?_⟩
    cases k with
    | zero =>
      obtain rfl := Option.some.inj hp
      exact ⟨found, rfl, by simpa using hfound⟩
    | succ k =>
      obtain ⟨f, hf, hstep⟩ := hall k p hp
      refine ⟨f, hf, ?_⟩
      rw [List.take_succ_cons, List.flatMap_cons, ← List.append_assoc,
        show i + (k + 1) = i + 1 + k by omega]
      exact hstep

variable (lib env identity partitions)

/-- A partition in front of position `k` has the number and is used as swap. -/
def SwapBefore (n k : Nat) : Prop :=
  ∃ j < k, ∃ q, partitions[j]? = some q ∧ q.number = n ∧
    (shown lib env identity j q = .swap ∨ q.path ∈ swapSources lib env)

/-- The partition at position `k` is taken as a swap area. -/
def TakenAsSwap (k : Nat) (p : PartitionResource) : Prop :=
  shown lib env identity k p = .swap ∨
    p.path ∈ swapSources lib env ∧ ¬SwapBefore lib env identity partitions p.number k

variable {lib env identity partitions}

/-- The swap areas at a position, as the loop has collected them. -/
theorem mem_swap_iff (h : enrichFrom lib env identity records [] 0 partitions = .ok founds)
    {n k : Nat} (hk : k ≤ partitions.length) :
    n ∈ (founds.take k).flatMap (·.swap) ↔ SwapBefore lib env identity partitions n k := by
  obtain ⟨hlength, hall⟩ := enrichFrom_spec h
  induction k with
  | zero => simp [SwapBefore]
  | succ k ih =>
    have hp : partitions[k]? = some partitions[k] := List.getElem?_eq_getElem hk
    obtain ⟨found, hfound, hstep⟩ := hall k _ hp
    obtain hof := enrichPartition_spec hstep
    rw [Nat.zero_add, List.nil_append] at hof
    have hbefore : SwapBefore lib env identity partitions n (k + 1) ↔
        SwapBefore lib env identity partitions n k ∨ partitions[k].number = n ∧
          (shown lib env identity k partitions[k] = .swap ∨
            partitions[k].path ∈ swapSources lib env) := by
      constructor
      · rintro ⟨j, hj, q, hq, hused⟩
        rcases Nat.lt_succ_iff_lt_or_eq.1 hj with hj | rfl
        · exact .inl ⟨j, hj, q, hq, hused⟩
        · obtain rfl := Option.some.inj (hp.symm.trans hq)
          exact .inr hused
      · rintro (⟨j, hj, hused⟩ | hused)
        · exact ⟨j, by omega, hused⟩
        · exact ⟨k, by omega, _, hp, hused⟩
    have hih := ih (by omega)
    rw [hbefore, List.take_add_one, hfound, List.flatMap_append, List.mem_append, hih]
    by_cases hin : SwapBefore lib env identity partitions n k
    · exact iff_of_true (.inl hin) (.inl hin)
    · refine or_congr_right ?_
      simp only [Option.toList_some, List.flatMap_cons, List.flatMap_nil, List.append_nil]
      by_cases hn : partitions[k].number = n
      · have hnot : partitions[k].number ∉ (founds.take k).flatMap (·.swap) := by
          rwa [hn, hih]
        rw [and_iff_right hn]
        by_cases hused : shown lib env identity k partitions[k] = .swap ∨
            partitions[k].path ∈ swapSources lib env
        · rw [hof.swap_taken (hused.imp_right fun h => ⟨h, hnot⟩)]
          exact iff_of_true (by simp [hn]) hused
        · rw [hof.swap_kept fun h => hused (h.imp_right And.left)]
          exact iff_of_false (by simp) hused
      · refine iff_of_false (fun hmem => hn ?_) fun h => hn h.1
        by_cases htaken : shown lib env identity k partitions[k] = .swap ∨
            partitions[k].path ∈ swapSources lib env ∧
              partitions[k].number ∉ (founds.take k).flatMap (·.swap)
        · rw [hof.swap_taken htaken, List.mem_singleton] at hmem
          exact hmem.symm
        · rw [hof.swap_kept htaken] at hmem
          cases hmem

theorem found_at (h : enrichFrom lib env identity records [] 0 partitions = .ok founds) {k : Nat}
    (hp : partitions[k]? = some p) :
    ∃ found, founds[k]? = some found ∧ found.Of lib env records (shown lib env identity k p)
      (TakenAsSwap lib env identity partitions k p) p := by
  obtain ⟨found, hfound, hstep⟩ := (enrichFrom_spec h).2 k p hp
  refine ⟨found, hfound, ?_⟩
  have hlt := (List.getElem?_eq_some_iff.1 hp).1
  have hof := enrichPartition_spec hstep
  rw [Nat.zero_add, List.nil_append, mem_swap_iff h hlt.le] at hof
  exact hof

theorem found_of_mem (h : enrichFrom lib env identity records [] 0 partitions = .ok founds)
    (hmem : found ∈ founds) :
    ∃ k p, partitions[k]? = some p ∧ found.Of lib env records (shown lib env identity k p)
      (TakenAsSwap lib env identity partitions k p) p := by
  obtain ⟨k, hk⟩ := List.getElem?_of_mem hmem
  have hlt : k < partitions.length := by
    rw [← (enrichFrom_spec h).1]
    exact (List.getElem?_eq_some_iff.1 hk).1
  have hp : partitions[k]? = some partitions[k] := List.getElem?_eq_getElem hlt
  obtain ⟨found', hfound', hof⟩ := found_at h hp
  obtain rfl := Option.some.inj (hk.symm.trans hfound')
  exact ⟨k, _, hp, hof⟩

end Loop

/-! ### The verdict -/

/-- Both assessments of the policy report that the delete of a partition can be carried out. -/
def Deletable (layout : StorageLayout) (target : PartitionResource) : Prop :=
  (analyzeDataImpact .delete layout (some target)).executable = true ∧
    (analyzeBootImpact .delete layout (some target)).executable = true

theorem analyzeBootImpact_delete (layout : StorageLayout) (target : PartitionResource) :
    (analyzeBootImpact .delete layout (some target)).executable = true ↔
      (∀ d ∈ layout.bootDependencies, d.partitionNumber ≠ some target.number) ∧
        target.role ∉ [.efi, .boot, .recovery] := by
  have hrelated : (layout.bootDependencies.filter (·.partitionNumber = some target.number)).isEmpty =
      true ↔ ∀ d ∈ layout.bootDependencies, d.partitionNumber ≠ some target.number := by
    simp [List.isEmpty_iff, List.filter_eq_nil_iff]
  rw [← hrelated]
  unfold analyzeBootImpact
  rw [if_neg (by decide)]
  dsimp only
  cases (layout.bootDependencies.filter (·.partitionNumber = some target.number)).isEmpty <;>
    cases target.role <;> simp

theorem deleteImpact_executable (layout : StorageLayout) (target : PartitionResource) :
    (deleteImpact layout target).executable = true ↔
      (∀ id ∈ target.filesystemId, ∀ f ∈ layout.filesystems, f.id ≠ id) ∧
      (∀ id ∈ target.mountPointIds, ∀ m ∈ layout.mountPoints, m.id ≠ id) ∧
      (∀ id ∈ target.volumeIds, ∀ v, volumeOf layout id = some v → v.kind = .crypt) ∧
      target.encryptionStatus ∈ [.none, .unknown] ∧ target.role.protected_ = false := by
  have hkind : ∀ kind : VolumeKind, kind = .crypt ↔
      ((kind ≠ .lvmPv ∧ kind ≠ .lvmVg) ∧ kind ≠ .lvmLv) ∧ kind ≠ .mdraid ∧ kind ≠ .hardwareRaid := by
    intro kind
    cases kind <;> simp
  simp only [deleteImpact, Bool.not_eq_true', Bool.or_eq_false_iff, and_assoc]
  refine and_congr ?_ (and_congr ?_ (and_assoc.symm.trans (and_congr ?_ (and_congr_left' ?_))))
  · cases target.filesystemId <;> simp
  · simp
  · simp only [hkind, List.any_eq_false, List.mem_filterMap, forall_exists_index, and_imp,
      Bool.or_eq_true, decide_eq_true_eq, not_or, ne_eq]
    exact ⟨fun h id hid v hv => ⟨h.1 v id hid hv, h.2 v id hid hv⟩,
      fun h => ⟨fun v id hid hv => (h id hid v hv).1, fun v id hid hv => (h id hid v hv).2⟩⟩
  · cases target.encryptionStatus <;> decide

theorem Member.kind_eq {v w : VolumeResource} (hv : v.Member) (hw : w.Member) (h : v.id = w.id) :
    v.kind = w.kind := by
  obtain ⟨k, hk, id, hkind, hid⟩ := hv
  obtain ⟨k', hk', id', hkind', hid'⟩ := hw
  have hchar := congrArg (fun text => text.toList[7]?) (hid.symm.trans (h.trans hid'))
  rw [hkind, hkind']
  simp only [memberKinds, List.mem_cons, List.not_mem_nil, or_false] at hk hk'
  rcases hk with rfl | rfl | rfl <;> rcases hk' with rfl | rfl | rfl <;>
    first | rfl | (simp at hchar)

theorem volumeOf_spec {layout : StorageLayout} {id : String} {v : VolumeResource}
    (h : volumeOf layout id = some v) : v ∈ layout.volumes ∧ v.id = id := by
  refine ⟨List.mem_reverse.1 (List.mem_of_find?_eq_some h), ?_⟩
  simpa using List.find?_some h

theorem volumeOf_exists (layout : StorageLayout) {v : VolumeResource} (h : v ∈ layout.volumes) :
    ∃ w, volumeOf layout v.id = some w := by
  rw [← Option.isSome_iff_exists, volumeOf, List.find?_isSome]
  exact ⟨v, List.mem_reverse.2 h, by simp⟩

theorem roleOf_eq (type : PartitionTableType) (typeCode : Option String) (bootable : Bool) :
    roleOf type typeCode bootable =
      if bootable = true ∧ type ≠ .gpt ∧ roleOf type typeCode false = .normal then .boot
      else roleOf type typeCode false := by
  cases bootable with
  | false => simp only [Bool.false_eq_true, false_and, if_false]
  | true =>
    by_cases htype : type = .gpt
    · subst htype
      rw [if_neg fun h => h.2.1 rfl]
      rfl
    · simp only [roleOf, ne_eq, htype, not_false_eq_true, true_and, if_true, Bool.false_eq_true,
        if_false]
      split_ifs <;> first | rfl | assumption | exact absurd rfl ‹_›

/-! ### The signs of use -/

inductive TypeUse
  | efi | swap | lvm | raid | recovery
deriving DecidableEq

/-- The type codes of a use: the GUID in a GPT, and in any other table the number, with or without
`0x`. -/
def TypeUse.codes : PartitionTableType → TypeUse → List String
  | .gpt, .efi => ["C12A7328-F81F-11D2-BA4B-00A0C93EC93B"]
  | .gpt, .swap => ["0657FD6D-A4AB-43C4-84E5-0933C84B4F4F"]
  | .gpt, .lvm => ["E6D6D379-F507-44C2-A23C-238F2A3DF928"]
  | .gpt, .raid => ["A19D880F-05FC-4D3B-A006-743F0F84911E"]
  | .gpt, .recovery => ["DE94BBA4-06D1-4D40-A16A-BFD50179D6AC"]
  | _, .efi => ["ef", "0xef"]
  | _, .swap => ["82", "0x82"]
  | _, .lvm => ["8e", "0x8e"]
  | _, .raid => ["fd", "0xfd"]
  | _, .recovery => ["27", "0x27"]

def TypeUse.Announced (use : TypeUse) (type : PartitionTableType) (p : PartitionResource) : Prop :=
  let value := (p.typeCode.getD "").toUpper
  (if type = .gpt then value else value.toLower) ∈ use.codes type

section Signs

variable (lib : TableLibrary) (env : Surroundings) (identity : StorageDeviceIdentity)
  (type : PartitionTableType) (partitions : List PartitionResource)

/-- What the role that `_role` reads from the type code alone is. -/
def codeRole (p : PartitionResource) : PartitionRole := roleOf type p.typeCode false

/-- A partition to which the machine boots. -/
inductive BootSign (k : Nat) (p : PartitionResource) : Prop
  | bootable (h : p.bootable = true)
  | efi (code : TypeUse.efi.Announced type p)
    (probe : shown lib env identity k p ∉ [.lvm, .raid])
    (swap : ¬TakenAsSwap lib env identity partitions k p)
  | mounted (m : MountPointResource) (listed : m ∈ readMounts lib env) (source : m.source = p.path)
    (path : m.path ∈ bootPaths)

/-- Something stops the delete of the partition at position `k`. -/
inductive Stopped (k : Nat) (p : PartitionResource) : Prop
  | probe (h : shown lib env identity k p ≠ .none)
  | mounted (m : MountPointResource) (listed : m ∈ readMounts lib env) (source : m.source = p.path)
  | efi (h : TypeUse.efi.Announced type p)
  | swapCode (h : TypeUse.swap.Announced type p)
  | recovery (gpt : type = .gpt) (h : TypeUse.recovery.Announced type p)
  | swap (h : TakenAsSwap lib env identity partitions k p)
  | boot (j : Nat) (q : PartitionResource) (at_ : partitions[j]? = some q)
    (number : q.number = p.number) (sign : BootSign lib env identity type partitions j q)

/-- The report names a file system, a swap area, a member of LVM or of a RAID, or an encryption. -/
def Reported (lib : TableLibrary) (probe : Probe) : Prop :=
  probe ≠ [] ∧ (((probe.lookup "TYPE").bind nonempty).isSome ∨
    usageOf lib probe ∈ ["filesystem", "lvm", "raid", "crypto"])

/-- No sign of use is on the partition at position `k`. -/
structure Unused (k : Nat) (p : PartitionResource) : Prop where
  code : ∀ use : TypeUse, ¬use.Announced type p
  bootable : p.bootable = false
  unmounted : ∀ m ∈ listedMounts lib env, m.source ≠ p.path
  swap : p.path ∉ swapSources lib env
  probe : ¬Reported lib (blkidReport env identity k p)

/-- None of the signs of use that the policy does not see is on the partition. -/
structure NothingMissed (k : Nat) (p : PartitionResource) : Prop where
  lvm : ¬TypeUse.lvm.Announced type p
  raid : ¬TypeUse.raid.Announced type p
  recovery : type ≠ .gpt → ¬TypeUse.recovery.Announced type p
  unmounted : ∀ m ∈ listedMounts lib env, m.source ≠ p.path
  swap : p.path ∉ swapSources lib env
  usage : blkidReport env identity k p ≠ [] →
    usageOf lib (blkidReport env identity k p) ∉ ["filesystem", "crypto"]

end Signs

/-! ### The role of a type code -/

theorem removePrefix_eq {text : String} (code : String)
    (hcode : "0x".toList.isPrefixOf code.toList = false) :
    (if "0x".toList.isPrefixOf text.toList then String.ofList (text.toList.drop 2) else text) =
      code ↔ text ∈ [code, "0x" ++ code] := by
  have hsplit : ∀ {list : List Char}, "0x".toList.isPrefixOf list = true →
      list = "0x".toList ++ list.drop 2 := by
    intro list h
    obtain ⟨rest, rfl⟩ := List.isPrefixOf_iff_prefix.1 h
    rfl
  have heq : ∀ a b : String, a = b ↔ a.toList = b.toList := fun a b => String.toList_inj.symm
  rw [List.mem_cons, List.mem_singleton, heq text code, heq text, String.toList_append]
  split
  · next h =>
    have hne : text.toList ≠ code.toList := by
      intro htext
      rw [htext, hcode] at h
      cases h
    rw [heq, String.toList_ofList, or_iff_right hne]
    constructor
    · intro hdrop
      rw [← hdrop]
      exact hsplit h
    · intro htext
      rw [htext]
      rfl
  · next h =>
    rw [heq, or_iff_left]
    intro htext
    rw [htext] at h
    exact h (List.isPrefixOf_iff_prefix.2 (List.prefix_append _ _))

def TypeUse.role : TypeUse → PartitionRole
  | .efi => .efi
  | .swap => .swap
  | .lvm => .lvm
  | .raid => .raid
  | .recovery => .recovery

theorem codeRole_eq_iff (type : PartitionTableType) (p : PartitionResource) (use : TypeUse) :
    codeRole type p = use.role ↔ use.Announced type p ∧ (type = .gpt ∨ use ≠ .recovery) := by
  simp only [codeRole, roleOf, TypeUse.Announced]
  by_cases htype : type = .gpt
  · subst htype
    simp only [if_true, true_or, and_true]
    generalize (p.typeCode.getD "").toUpper = value
    cases use <;> simp only [TypeUse.role, TypeUse.codes, List.mem_singleton] <;> split_ifs <;>
      simp_all
  · have hcodes : ∀ use : TypeUse, use.codes type = use.codes .mbr := by
      intro use
      cases type with
      | gpt => exact absurd rfl htype
      | mbr => rfl
      | unknown => cases use <;> rfl
    simp only [hcodes, htype, if_false, false_or, Bool.false_eq_true,
      removePrefix_eq "ef" rfl, removePrefix_eq "82" rfl,
      removePrefix_eq "8e" rfl, removePrefix_eq "fd" rfl]
    generalize (p.typeCode.getD "").toUpper.toLower = value
    cases use <;>
      simp only [TypeUse.role, TypeUse.codes, List.mem_cons, List.not_mem_nil, or_false] <;>
      split_ifs with hefi hswap hlvm hraid <;> simp_all <;> grind

theorem codeRole_eq_efi {type : PartitionTableType} :
    codeRole type p = .efi ↔ TypeUse.efi.Announced type p :=
  (codeRole_eq_iff type p .efi).trans (and_iff_left (.inr nofun))

theorem protected_codeRole {type : PartitionTableType} :
    codeRole type p ∈ [.efi, .swap, .recovery] ↔ TypeUse.efi.Announced type p ∨
      TypeUse.swap.Announced type p ∨ type = .gpt ∧ TypeUse.recovery.Announced type p := by
  have hswap := codeRole_eq_iff type p .swap
  have hrecovery := codeRole_eq_iff type p .recovery
  simp only [TypeUse.role, ne_eq, reduceCtorEq, not_false_eq_true, not_true_eq_false, or_true,
    and_true, or_false] at hswap hrecovery
  simp only [List.mem_cons, List.not_mem_nil, or_false, codeRole_eq_efi, hswap, hrecovery,
    and_comm (a := type = .gpt)]

theorem codeRole_ne_boot (type : PartitionTableType) (p : PartitionResource) :
    codeRole type p ≠ .boot := by
  have hite : ∀ {c : Prop} [Decidable c] {a b : PartitionRole}, a ≠ .boot → b ≠ .boot →
      (if c then a else b) ≠ .boot := by
    intro c _ a b ha hb
    split
    · exact ha
    · exact hb
  simp only [codeRole, roleOf, Bool.false_eq_true, if_false]
  repeat' apply hite
  all_goals decide

theorem signatureOf_eq_none : signatureOf lib probe = .none ↔ probe = [] ∨
      (probe.lookup "TYPE").bind nonempty = none ∧ usageOf lib probe ∉ ["lvm", "raid"] := by
  rw [signatureOf]
  split
  · next h => simp [h]
  · next h =>
    dsimp only
    cases (probe.lookup "TYPE").bind nonempty with
    | none =>
      simp [h]
      split_ifs <;> simp_all
    | some t =>
      simp [h]
      split_ifs <;> simp

section Layout

variable {table : PartitionTable} {k : Nat}
  (hrole : p.role = roleOf table.type p.typeCode p.bootable)
include hrole

theorem role_efi_iff (s : Signature) (hs : s ≠ .swap) :
    s.role p.role = .efi ↔ TypeUse.efi.Announced table.type p ∧ s ∉ [.lvm, .raid] := by
  have hcode : p.role = .efi ↔ TypeUse.efi.Announced table.type p := by
    rw [← codeRole_eq_efi, hrole, roleOf_eq, codeRole]
    split
    · next h => simp [h.2.2]
    · rfl
  cases s <;> simp_all [Signature.role]

theorem bootSign_iff (hof : found.Of lib env (readMounts lib env) (shown lib env identity k p)
      (TakenAsSwap lib env identity table.partitions k p) p) :
    found.bootDependencies ≠ [] ↔ BootSign lib env identity table.type table.partitions k p := by
  have hefi : found.partition.role = .efi ↔ TypeUse.efi.Announced table.type p ∧
      shown lib env identity k p ∉ [.lvm, .raid] ∧
      ¬TakenAsSwap lib env identity table.partitions k p := by
    by_cases htaken : TakenAsSwap lib env identity table.partitions k p
    · rw [hof.role_taken htaken]
      exact iff_of_false nofun fun h => h.2.2 htaken
    · rw [hof.role_kept htaken, role_efi_iff hrole _ fun h => htaken (.inl h)]
      simp [htaken]
  simp only [ne_eq, hof.boot, hefi]
  constructor
  · intro h
    by_contra hnone
    refine h ⟨?_, fun ⟨hcode, hprobe, hswap⟩ => hnone (.efi hcode hprobe hswap), fun m hm hs hpath =>
      hnone (.mounted m hm hs hpath)⟩
    exact Bool.eq_false_iff.2 fun hbootable => hnone (.bootable hbootable)
  · rintro (hbootable | ⟨hcode, hprobe, hswap⟩ | ⟨m, hm, hsource, hpath⟩) ⟨hnot, hnotefi, hmounts⟩
    · rw [hbootable] at hnot
      cases hnot
    · exact hnotefi ⟨hcode, hprobe, hswap⟩
    · exact hmounts m hm hsource hpath

end Layout

section Verdict

variable {inspect : InspectLibrary} {table : PartitionTable} {id : String} {now : DateTime}
  {layout : StorageLayout} {k : Nat} {p' : PartitionResource}

theorem enrichLayout_spec (h : enrichLayout inspect env identity table id now = .ok layout) :
    ∃ founds, enrichFrom inspect.toTableLibrary env identity (readMounts inspect.toTableLibrary env)
      [] 0 table.partitions = .ok founds ∧
      layout = foundLayout inspect identity table founds id now := by
  obtain ⟨records, hrecords, h⟩ := bind_eq_ok h
  obtain rfl := mapM_validated hrecords
  obtain ⟨founds, hfounds, h⟩ := bind_eq_ok h
  obtain ⟨_, -, h⟩ := bind_eq_ok h
  exact ⟨founds, hfounds, (Except.ok.inj h).symm⟩

theorem PartitionRole.unprotected_of {role : PartitionRole}
    (hcode : role ∉ [.efi, .swap, .recovery]) (hboot : role ≠ .boot) :
    role.protected_ = false ∧ role ∉ [.efi, .boot, .recovery] := by
  revert hcode hboot
  cases role <;> decide

section Found

variable (hfounds : enrichFrom inspect.toTableLibrary env identity
    (readMounts inspect.toTableLibrary env) [] 0 table.partitions = .ok founds)
  (hmem : found ∈ founds)
  (hof : found.Of inspect.toTableLibrary env (readMounts inspect.toTableLibrary env)
    (shown inspect.toTableLibrary env identity k p)
    (TakenAsSwap inspect.toTableLibrary env identity table.partitions k p) p)
include hfounds

theorem member_of_layout {v : VolumeResource}
    (hv : v ∈ (foundLayout inspect identity table founds id now).volumes) : v.Member := by
  obtain ⟨g, hg, hv⟩ := List.mem_flatMap.1 hv
  obtain ⟨j, q, -, hgof⟩ := found_of_mem hfounds hg
  exact hgof.volumes v hv

include hmem hof

theorem volumes_crypt (h : ∀ vid ∈ found.partition.volumeIds, ∀ v,
      volumeOf (foundLayout inspect identity table founds id now) vid = some v → v.kind = .crypt) :
    ∀ v ∈ found.volumes, v.kind = .crypt := by
  intro v hv
  have hin : v ∈ (foundLayout inspect identity table founds id now).volumes :=
    List.mem_flatMap.2 ⟨found, hmem, hv⟩
  obtain ⟨w, hw⟩ := volumeOf_exists _ hin
  obtain ⟨hw', hid⟩ := volumeOf_spec hw
  rw [Member.kind_eq (hof.volumes v hv) (member_of_layout hfounds hw') hid.symm]
  exact h v.id (by rw [hof.volume_ids]; exact List.mem_map_of_mem hv) w hw

/-- A delete that the data assessment lets pass is one of a partition whose probe shows nothing,
that is not mounted, and that is not taken as a swap area. -/
theorem unused_of_deleteImpact (h : (deleteImpact (foundLayout inspect identity table founds id now)
      found.partition).executable = true) :
    shown inspect.toTableLibrary env identity k p = .none ∧
      ¬TakenAsSwap inspect.toTableLibrary env identity table.partitions k p ∧
      ∀ m ∈ readMounts inspect.toTableLibrary env, m.source ≠ p.path := by
  obtain ⟨hfs, hmounts, hvolumes, hencrypted, hprotected⟩ := (deleteImpact_executable _ _).1 h
  have htaken : ¬TakenAsSwap inspect.toTableLibrary env identity table.partitions k p := by
    intro htaken
    rw [hof.role_taken htaken] at hprotected
    cases hprotected
  have hcrypt := volumes_crypt hfounds hmem hof hvolumes
  refine ⟨?_, htaken, ?_⟩
  · cases hs : shown inspect.toTableLibrary env identity k p with
    | luks => simp [hof.luks hs] at hencrypted
    | bitlocker => simp [hof.bitlocker hs] at hencrypted
    | lvm =>
      obtain ⟨v, hv, hkind⟩ := hof.lvm hs
      cases hkind.symm.trans (hcrypt v hv)
    | raid =>
      obtain ⟨v, hv, hkind⟩ := hof.raid hs
      cases hkind.symm.trans (hcrypt v hv)
    | swap => exact absurd (.inl hs) htaken
    | filesystem type =>
      obtain ⟨f, rest, hf⟩ := List.exists_cons_of_ne_nil (hof.filesystem type hs)
      have hid : found.partition.filesystemId = some f.id := by rw [hof.filesystem_id, hf]; rfl
      exact absurd rfl (hfs f.id hid f (List.mem_flatMap.2 ⟨found, hmem, by simp [hf]⟩))
    | none => rfl
  · rw [← hof.mounts, List.eq_nil_iff_forall_not_mem]
    intro mount hmount
    have hid : mount.id ∈ found.partition.mountPointIds := by
      rw [hof.mount_ids]
      exact List.mem_map_of_mem hmount
    exact hmounts _ hid mount (List.mem_flatMap.2 ⟨found, hmem, hmount⟩) rfl

end Found

theorem roleOf_kept (hrole : p.role = roleOf table.type p.typeCode p.bootable) {taken : Prop}
    {s : Signature} (hof : found.Of lib env records s taken p) (hnone : s = .none)
    (htaken : ¬taken) :
    found.partition.role =
      if p.bootable = true ∧ table.type ≠ .gpt ∧ codeRole table.type p = .normal then .boot
      else codeRole table.type p := by
  rw [hof.role_kept htaken, hnone, codeRole, ← roleOf_eq]
  exact hrole

theorem not_stopped_of_deletable
    (hroles : ∀ p ∈ table.partitions, p.role = roleOf table.type p.typeCode p.bootable)
    (hfounds : enrichFrom inspect.toTableLibrary env identity
      (readMounts inspect.toTableLibrary env) [] 0 table.partitions = .ok founds)
    (hp : table.partitions[k]? = some p) (hmem : founds[k]? = some found)
    (h : Deletable (foundLayout inspect identity table founds id now) found.partition) :
    ¬Stopped inspect.toTableLibrary env identity table.type table.partitions k p := by
  obtain ⟨found', hfound, hof⟩ := found_at hfounds hp
  obtain rfl := Option.some.inj (hmem.symm.trans hfound)
  rw [Deletable, analyzeBootImpact_delete] at h
  obtain ⟨hdata, hboot, -⟩ := h
  change (deleteImpact _ _).executable = true at hdata
  obtain ⟨hshown, htaken, hunmounted⟩ :=
    unused_of_deleteImpact hfounds (List.mem_of_getElem? hmem) hof hdata
  have hunprotected := ((deleteImpact_executable _ _).1 hdata).2.2.2.2
  have hcode : codeRole table.type p ∉ [.efi, .swap, .recovery] := by
    rw [roleOf_kept (hroles p (List.mem_of_getElem? hp)) hof hshown htaken] at hunprotected
    intro hin
    simp only [List.mem_cons, List.not_mem_nil, or_false] at hin
    split at hunprotected
    · cases hunprotected
    · rcases hin with hin | hin | hin <;>
      · rw [hin] at hunprotected
        cases hunprotected
  rw [protected_codeRole] at hcode
  rintro (hprobe | ⟨m, hm, hsource⟩ | hefi | hswap | ⟨hgpt, hrecovery⟩ | hswap |
    ⟨j, q, hq, hnumber, hsign⟩)
  · exact hprobe hshown
  · exact hunmounted m hm hsource
  · exact hcode (.inl hefi)
  · exact hcode (.inr (.inl hswap))
  · exact hcode (.inr (.inr ⟨hgpt, hrecovery⟩))
  · exact htaken hswap
  · obtain ⟨g, hg, hgof⟩ := found_at hfounds hq
    have hne := (bootSign_iff (hroles q (List.mem_of_getElem? hq)) hgof).2 hsign
    obtain ⟨d, hd⟩ := List.exists_mem_of_ne_nil _ hne
    refine hboot d (List.mem_flatMap.2 ⟨g, List.mem_of_getElem? hg, hd⟩) ?_
    rw [hgof.boot_number d hd, hof.number, hnumber]

theorem deletable_of_not_stopped
    (hroles : ∀ p ∈ table.partitions, p.role = roleOf table.type p.typeCode p.bootable ∧
      p.encryptionStatus = .unknown)
    (hfounds : enrichFrom inspect.toTableLibrary env identity
      (readMounts inspect.toTableLibrary env) [] 0 table.partitions = .ok founds)
    (hp : table.partitions[k]? = some p) (hmem : founds[k]? = some found)
    (hnot : ¬Stopped inspect.toTableLibrary env identity table.type table.partitions k p) :
    Deletable (foundLayout inspect identity table founds id now) found.partition := by
  obtain ⟨found', hfound, hof⟩ := found_at hfounds hp
  obtain rfl := Option.some.inj (hmem.symm.trans hfound)
  obtain ⟨hrole, hencryption⟩ := hroles p (List.mem_of_getElem? hp)
  have hshown : shown inspect.toTableLibrary env identity k p = .none := by
    by_contra h
    exact hnot (.probe h)
  have htaken : ¬TakenAsSwap inspect.toTableLibrary env identity table.partitions k p :=
    fun h => hnot (.swap h)
  have hbootable : p.bootable = false :=
    Bool.eq_false_iff.2 fun h => hnot (.boot k p hp rfl (.bootable h))
  have hsame : found.partition.role = codeRole table.type p := by
    rw [roleOf_kept hrole hof hshown htaken, if_neg]
    simp [hbootable]
  have hcode : codeRole table.type p ∉ [.efi, .swap, .recovery] := by
    rw [protected_codeRole]
    rintro (h | h | ⟨hgpt, h⟩)
    · exact hnot (.efi h)
    · exact hnot (.swapCode h)
    · exact hnot (.recovery hgpt h)
  have hfree := PartitionRole.unprotected_of hcode (codeRole_ne_boot table.type p)
  rw [← hsame] at hfree
  rw [Deletable, analyzeBootImpact_delete]
  change (deleteImpact _ _).executable = true ∧ _
  rw [deleteImpact_executable]
  refine ⟨⟨?_, ?_, ?_, ?_, hfree.1⟩, ?_, hfree.2⟩
  · rw [hof.filesystem_id, hof.no_filesystem hshown]
    simp
  · rw [hof.mount_ids, hof.mounts.2 fun m hm hsource => hnot (.mounted m hm hsource)]
    simp
  · rw [hof.volume_ids, hof.no_volume hshown]
    simp
  · rw [hof.encryption hshown, hencryption]
    decide
  · intro d hd heq
    obtain ⟨g, hg, hd⟩ := List.mem_flatMap.1 hd
    obtain ⟨j, q, hq, hgof⟩ := found_of_mem hfounds hg
    have hsign := (bootSign_iff (hroles q (List.mem_of_getElem? hq)).1 hgof).1
      (List.ne_nil_of_mem hd)
    rw [hgof.boot_number d hd, hof.number] at heq
    exact hnot (.boot j q hq (Option.some.inj heq) hsign)

theorem deletable_iff
    (hroles : ∀ p ∈ table.partitions, p.role = roleOf table.type p.typeCode p.bootable ∧
      p.encryptionStatus = .unknown)
    (h : enrichLayout inspect env identity table id now = .ok layout)
    (hp : table.partitions[k]? = some p) (hp' : layout.partitionTable.partitions[k]? = some p') :
    Deletable layout p' ↔
      ¬Stopped inspect.toTableLibrary env identity table.type table.partitions k p := by
  obtain ⟨founds, hfounds, rfl⟩ := enrichLayout_spec h
  obtain ⟨found, hfound, -⟩ := found_at hfounds hp
  obtain rfl : p' = found.partition := by
    have hget : (founds.map (·.partition))[k]? = some p' := hp'
    rw [List.getElem?_map, hfound] at hget
    exact (Option.some.inj hget).symm
  exact ⟨not_stopped_of_deletable (fun p hp => (hroles p hp).1) hfounds hp hfound,
    deletable_of_not_stopped hroles hfounds hp hfound⟩

theorem not_stopped_iff (hnot : ¬Stopped lib env identity table.type table.partitions k p)
    (hp : table.partitions[k]? = some p) :
    Unused lib env identity table.type k p ↔ NothingMissed lib env identity table.type k p := by
  have hshown : shown lib env identity k p = .none := by
    by_contra h
    exact hnot (.probe h)
  constructor
  · intro h
    refine ⟨h.code .lvm, h.code .raid, fun _ => h.code .recovery, h.unmounted, h.swap,
      fun hne hin => h.probe ⟨hne, .inr ?_⟩⟩
    simp only [List.mem_cons, List.not_mem_nil, or_false] at hin ⊢
    tauto
  · intro h
    have hcode : ∀ use : TypeUse, ¬use.Announced table.type p := by
      intro use
      cases use with
      | efi => exact fun hefi => hnot (.efi hefi)
      | swap => exact fun hswap => hnot (.swapCode hswap)
      | lvm => exact h.lvm
      | raid => exact h.raid
      | recovery =>
        by_cases hgpt : table.type = .gpt
        · exact fun hrecovery => hnot (.recovery hgpt hrecovery)
        · exact h.recovery hgpt
    refine ⟨hcode, ?_, h.unmounted, h.swap, fun hprobe => ?_⟩
    · exact Bool.eq_false_iff.2 fun hbootable => hnot (.boot k p hp rfl (.bootable hbootable))
    · obtain ⟨hne, hreport⟩ := hprobe
      rcases signatureOf_eq_none.1 hshown with hnil | ⟨htype, husage⟩
      · exact hne hnil
      · have := h.usage hne
        rw [htype] at hreport
        simp only [List.mem_cons, List.not_mem_nil, or_false] at hreport husage this
        tauto

end Verdict

/-! ### Samples -/

def sampleInspect : InspectLibrary := { sampleTables with bodySha256 := fun _ => sampleSha 'a' '1' }

/-- A machine without mounts, swap areas and `blkid`. -/
def bareMachine : Surroundings where
  mountinfo := none
  swaps := none
  blkidAvailable _ := false
  blkid _ _ := none
  osRelease _ := none

/-- A GPT disk with one partition, whose type code is the one of LVM. -/
def lvmText : String :=
  "\x7b\"partitiontable\": \x7b\"label\": \"gpt\", \"partitions\": [\x7b\"start\": 2048, " ++
  "\"size\": 2048, \"type\": \"E6D6D379-F507-44C2-A23C-238F2A3DF928\"\x7d]\x7d\x7d"

def lvmDocument : Json :=
  tableDocument [("label", .str "gpt"), ("partitions", .arr [.obj [("start", .int 2048),
    ("size", .int 2048), ("type", .str "E6D6D379-F507-44C2-A23C-238F2A3DF928")]])]

theorem enrich_lvmText : ∃ table layout p p',
    parseSfdiskText sampleInspect.toTableLibrary (loadsOnly lvmText lvmDocument) lvmText
      sampleIdentity = .ok table ∧
    enrichLayout sampleInspect bareMachine sampleIdentity table "l" 0 = .ok layout ∧
    table.partitions[0]? = some p ∧ layout.partitionTable.partitions[0]? = some p' ∧
    codeRole table.type p = .lvm ∧ Deletable layout p' := by
  rw [parseSfdiskText, loadsOnly_self]
  have hchecks : (parseSfdiskJson sampleInspect.toTableLibrary (some lvmDocument)
        sampleIdentity).map (fun table => table.partitions[0]?.map (codeRole table.type)) =
        .ok (some .lvm) ∧
      (parseSfdiskJson sampleInspect.toTableLibrary (some lvmDocument) sampleIdentity >>= fun table =>
        enrichLayout sampleInspect bareMachine sampleIdentity table "l" 0).map
        (fun layout => layout.partitionTable.partitions[0]?.map fun p' =>
          ((analyzeDataImpact .delete layout (some p')).executable,
            (analyzeBootImpact .delete layout (some p')).executable)) =
        .ok (some (true, true)) := by decide +kernel
  obtain ⟨table, hparse, hcode⟩ := map_eq_ok hchecks.1
  obtain ⟨p, hp, hcode⟩ := Option.map_eq_some_iff.1 hcode
  obtain ⟨layout, hlayout, hdelete⟩ := map_eq_ok hchecks.2
  obtain ⟨p', hp', hdelete⟩ := Option.map_eq_some_iff.1 hdelete
  obtain ⟨other, hother, hlayout⟩ := bind_eq_ok hlayout
  obtain rfl := Except.ok.inj (hparse.symm.trans hother)
  obtain ⟨hdata, hboot⟩ := Prod.mk.inj hdelete
  exact ⟨table, layout, p, p', hparse, hlayout, hp, hp', hcode, hdata, hboot⟩

end Ares.Storage
