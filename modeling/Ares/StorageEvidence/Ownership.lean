import Ares.StorageEvidence.Projection

/-! Which disk the volumes of a listing belong to: a volume is looked up at the path of the node
directly above it, once for every place where it is listed. -/

namespace Ares.StorageEvidence

open Data

/-! ### Lists in step -/

section Lists

variable {α β : Type} {R : α → β → Prop} {as : List α} {bs : List β}

theorem forall₂_right_of_mem (h : List.Forall₂ R as bs) {a : α} (ha : a ∈ as) :
    ∃ b ∈ bs, R a b := by
  induction h with
  | nil => cases ha
  | @cons x y _ _ head _ ih =>
    rcases List.mem_cons.mp ha with rfl | ha
    · exact ⟨y, List.mem_cons_self, head⟩
    · obtain ⟨b, hb, hr⟩ := ih ha
      exact ⟨b, List.mem_cons_of_mem _ hb, hr⟩

theorem forall₂_left_of_mem (h : List.Forall₂ R as bs) {b : β} (hb : b ∈ bs) :
    ∃ a ∈ as, R a b :=
  forall₂_right_of_mem h.flip hb

theorem map_eq_of_forall₂ {γ : Type} {f : α → γ} {g : β → γ} (h : List.Forall₂ R as bs)
    (hfg : ∀ a b, R a b → f a = g b) : as.map f = bs.map g := by
  induction h with
  | nil => rfl
  | cons head _ ih => rw [List.map_cons, List.map_cons, hfg _ _ head, ih]

theorem find?_eq_of_forall₂ {γ : Type} {p : α → Bool} {q : β → Bool} {f : α → γ} {g : β → γ}
    (h : List.Forall₂ R as bs) (hpq : ∀ a b, R a b → p a = q b)
    (hfg : ∀ a b, R a b → f a = g b) : (as.find? p).map f = (bs.find? q).map g := by
  induction h with
  | nil => rfl
  | @cons x y _ _ head _ ih =>
    rw [List.find?_cons, List.find?_cons, hpq x y head]
    cases q y with
    | false => exact ih
    | true => exact congrArg some (hfg x y head)

end Lists

/-! ### The devices of a listing -/

variable (lib : SnapshotLibrary)

def typeOf (raw : Value) : Text :=
  (clean lib.toProbeLibrary (get raw "type") 24).getD (Text.ofString "unknown")

def diskNodeOf (raw : Value) : Bool := typeOf lib raw = Text.ofString "disk"

def volumeNodeOf (raw : Value) : Bool :=
  ["part", "lvm", "crypt", "raid"].any fun type => typeOf lib raw = Text.ofString type

/-- A node with this path is listed as a volume. -/
def volumeListed (raw : List Value) (path : Text) : Bool :=
  (listing raw).any fun entry => volumeNodeOf lib entry.2 && pathOf entry.2 = path

def diskListed (raw : List Value) (path : Text) : Bool :=
  (listing raw).any fun entry => diskNodeOf lib entry.2 && pathOf entry.2 = path

def below (diskPath : Text) (above : List Value) : Prop :=
  ∃ up ∈ above, diskNodeOf lib up ∧ pathOf up = diskPath

def diskResource (raw : Value) : Text :=
  resourceId lib "disk"
    (match identityHash lib.toProbeLibrary (identityParts raw) with
      | .ok identity => (identity.bind nonempty).getD (pathOf raw)
      | .error _ => pathOf raw)

def diskAt (raw : List Value) (path : Text) : Option Text :=
  ((listing raw).reverse.find? fun entry => diskNodeOf lib entry.2 && path == pathOf entry.2).map
    fun entry => diskResource lib entry.2

def volumeIds (raw : List Value) : List Text :=
  ((listing raw).filter fun entry => volumeNodeOf lib entry.2).map fun entry =>
    resourceId lib "partition" (pathOf entry.2)

variable {lib}

theorem lsblkProbe_fields {probes : ProbeLibrary} {parent : Option Value} {raw : Value}
    {probe : BlockDeviceProbe} (h : lsblkProbe probes parent raw = .ok probe) :
    probe.deviceType = (clean probes (get raw "type") 24).getD (Text.ofString "unknown") ∧
      identityHash probes (identityParts raw) = .ok probe.hardwareIdentity := by
  obtain ⟨identity, hidentity, h⟩ := bind_eq_ok h
  obtain ⟨size, -, h⟩ := bind_eq_ok h
  obtain rfl := Except.ok.inj h
  exact ⟨rfl, hidentity⟩

/-- What a snapshot reads of the probe of a listed node. -/
structure Probes (lib : SnapshotLibrary) (entry : List Value × Value) (probe : BlockDeviceProbe) :
    Prop where
  path : pathOf entry.2 = probe.path
  parentPath : parentPathOf entry.1.head? entry.2 = probe.parentPath
  isDisk : diskNodeOf lib entry.2 = isDisk probe
  isVolume : volumeNodeOf lib entry.2 = isVolume probe
  diskId : diskResource lib entry.2 = (diskSnapshot lib probe).id

theorem probes_of_lists {entry : List Value × Value} {probe : BlockDeviceProbe}
    (h : Lists lib.toProbeLibrary entry probe) : Probes lib entry probe := by
  obtain ⟨hpath, hparent⟩ := lsblkProbe_path h.probed
  obtain ⟨htype, hidentity⟩ := lsblkProbe_fields h.probed
  refine ⟨hpath.symm, hparent.symm, ?_, ?_, ?_⟩
  · rw [diskNodeOf, isDisk, htype, typeOf]
  · unfold volumeNodeOf isVolume typeOf
    rw [htype]
  · rw [diskResource, hidentity, diskSnapshot, diskIdentity, hpath]

section Listed

variable {raw : List Value} {probes : List BlockDeviceProbe}
  (h : List.Forall₂ (Probes lib) (listing raw) probes)

include h

theorem volumeIds_eq : volumeIds lib raw = (probes.filter isVolume).map fun probe =>
      resourceId lib "partition" probe.path :=
  map_eq_of_forall₂ (List.rel_filter (fun _ _ hp => by simp only [hp.isVolume]) h)
    fun _ _ hp => by rw [hp.path]

theorem diskAt_eq (path : Text) :
    diskAt lib raw path = ((disksByPath lib probes).get? path).map (·.id) := by
  rw [disksByPath, Dict.get?_index_eq, ← List.map_reverse, List.find?_map, Option.map_map,
    ← List.filter_reverse, List.find?_filter, diskAt]
  refine find?_eq_of_forall₂ (List.forall₂_reverse_iff.mpr h) (fun _ _ hp => ?_)
    fun _ _ hp => hp.diskId
  rw [hp.isDisk, hp.path, Bool.decide_and, Bool.decide_eq_true, Bool.decide_eq_true]
  rfl

theorem volumeListed_iff {path : Text} :
    volumeListed lib raw path = true ↔ ∃ probe ∈ probes, isVolume probe ∧ probe.path = path := by
  rw [volumeListed, List.any_eq_true]
  constructor
  · rintro ⟨entry, hm, hentry⟩
    obtain ⟨probe, hprobe, hp⟩ := forall₂_right_of_mem h hm
    rw [Bool.and_eq_true, decide_eq_true_eq, hp.isVolume, hp.path] at hentry
    exact ⟨probe, hprobe, hentry⟩
  · rintro ⟨probe, hm, hprobe⟩
    obtain ⟨entry, hentry, hp⟩ := forall₂_left_of_mem h hm
    refine ⟨entry, hentry, ?_⟩
    rw [Bool.and_eq_true, decide_eq_true_eq, hp.isVolume, hp.path]
    exact hprobe

theorem diskListed_iff {path : Text} :
    diskListed lib raw path = true ↔ ∃ probe ∈ probes, isDisk probe ∧ probe.path = path := by
  rw [diskListed, List.any_eq_true]
  constructor
  · rintro ⟨entry, hm, hentry⟩
    obtain ⟨probe, hprobe, hp⟩ := forall₂_right_of_mem h hm
    rw [Bool.and_eq_true, decide_eq_true_eq, hp.isDisk, hp.path] at hentry
    exact ⟨probe, hprobe, hentry⟩
  · rintro ⟨probe, hm, hprobe⟩
    obtain ⟨entry, hentry, hp⟩ := forall₂_left_of_mem h hm
    refine ⟨entry, hentry, ?_⟩
    rw [Bool.and_eq_true, decide_eq_true_eq, hp.isDisk, hp.path]
    exact hprobe

end Listed

/-! ### What the loop keeps of each device -/

section Loop

variable {disks : Dict Text DiskSnapshot} {mounts : Dict Text MountPointSnapshot} {v : Volumes}

theorem partitionIds_foldl (devices : List BlockDeviceProbe) (diskId : Text) :
    ((devices.foldl (addDevice lib disks mounts) v).partitionIdsByDisk.get? diskId).getD [] =
      (v.partitionIdsByDisk.get? diskId).getD [] ++
        (devices.filter fun device => isVolume device && diskIdOf disks device = some diskId).map
          fun device => resourceId lib "partition" device.path := by
  induction devices generalizing v with
  | nil => simp
  | cons device devices ih =>
    have first : ((addDevice lib disks mounts v device).partitionIdsByDisk.get? diskId).getD [] =
        (v.partitionIdsByDisk.get? diskId).getD [] ++
          if isVolume device && diskIdOf disks device = some diskId then
            [resourceId lib "partition" device.path] else [] := by
      cases hvolume : isVolume device with
      | false =>
        rw [addDevice_other hvolume]
        split
        · split <;> simp
        · simp
      | true =>
        cases hdisk : diskIdOf disks device with
        | none => simp [addDevice_volume hvolume, hdisk]
        | some owner =>
          simp only [addDevice_volume hvolume, hdisk, Dict.append, Dict.get?_set]
          by_cases howner : diskId = owner
          · simp [howner]
          · simp [howner, Ne.symm howner]
    rw [List.foldl_cons, ih, first, List.filter_cons]
    split <;> simp

theorem sourceToDisk_foldl {devices : List BlockDeviceProbe} {path : Text}
    (hdisk : ∀ device ∈ devices, isDisk device → device.path ≠ path) :
    (devices.foldl (addDevice lib disks mounts) v).sourceToDisk.get? path =
      ((devices.reverse.find? fun device => isVolume device && path == device.path).map
        fun device => (diskIdOf disks device).getD []).or (v.sourceToDisk.get? path) := by
  induction devices generalizing v with
  | nil => rfl
  | cons device devices ih =>
    rw [List.foldl_cons, ih fun other hm => hdisk other (List.mem_cons_of_mem _ hm),
      List.reverse_cons, List.find?_append]
    have first : (addDevice lib disks mounts v device).sourceToDisk.get? path =
        if isVolume device && path == device.path then some ((diskIdOf disks device).getD [])
        else v.sourceToDisk.get? path := by
      cases hvolume : isVolume device with
      | true => rw [addDevice_volume hvolume, Dict.get?_set, Bool.true_and]
      | false =>
        rw [addDevice_other hvolume]
        split
        · next hisDisk =>
          have other : (path == device.path) = false :=
            beq_eq_false_iff_ne.mpr (hdisk device List.mem_cons_self hisDisk).symm
          split
          · rw [Dict.get?_set, other]
            rfl
          · rfl
        · rfl
    rw [first]
    cases devices.reverse.find? fun device => isVolume device && path == device.path with
    | some last => rfl
    | none => cases hlast : isVolume device && path == device.path <;> simp [hlast]

end Loop

/-! ### Volumes and their disks -/

/-- A volume path has one entry and the ids of the entries differ; and a volume that is listed
below one and the same disk wherever it is listed has the id of that disk, is among its partitions,
and hands the id on to an operating system that was found on it. -/
structure VolumesOwned (lib : SnapshotLibrary) (raw : List Value)
    (snapshot : SystemStorageSnapshot) : Prop where
  unique : (snapshot.partitions.map (·.id)).Nodup
  one : ∀ path, (snapshot.partitions.map (·.path)).count path =
    if volumeListed lib raw path then 1 else 0
  owned : ∀ path diskPath, volumeListed lib raw path →
    (∀ entry ∈ listing raw, pathOf entry.2 = path → below lib diskPath entry.1) →
    ∃ disk ∈ snapshot.disks, disk.path = diskPath ∧
      (∀ partition ∈ snapshot.partitions, partition.path = path →
        partition.diskId = some disk.id ∧ partition.id ∈ disk.partitionIds) ∧
      (diskListed lib raw path = false → ∀ os ∈ snapshot.operatingSystems, os.source = path →
        os.diskId = some disk.id)

/-- The snapshot of the evidence with the devices of an `lsblk` document is built, and its volumes
are owned. -/
def SnapshotOwns (lib : SnapshotLibrary) (text : Text) (raw : List Value) (rest : StorageEvidence)
    (sessionId : Text) (stamp : Stamp) : Prop :=
  ∃ probes snapshot, parseLsblkJson lib.toProbeLibrary text = .ok probes ∧
    buildStorageSnapshot lib { rest with devices := probes } sessionId stamp = some snapshot ∧
    VolumesOwned lib raw snapshot

def otherIdentities (rest : StorageEvidence) : List Text :=
  rest.mounts.map (·.target) ++
    rest.operatingSystems.map fun item => item.source ++ Text.ofString ":" ++ item.name

/-- The document can be read and the texts encoded, no two listed volumes share an id, and a volume
that is listed below one disk lies directly below it, or below one with the same id. -/
structure Ownable (lib : SnapshotLibrary) (raw : List Value) (rest : StorageEvidence) : Prop where
  legible : ∀ entry ∈ listing raw, legible lib.toProbeLibrary entry.2
  encodable : ∀ text ∈ otherIdentities rest, encodable text
  once : (volumeIds lib raw).Nodup
  directly : ∀ path diskPath, volumeListed lib raw path →
    (∀ entry ∈ listing raw, pathOf entry.2 = path → below lib diskPath entry.1) →
    ∀ entry ∈ listing raw, volumeNodeOf lib entry.2 → pathOf entry.2 = path →
    ∀ up above, entry.1 = up :: above → diskAt lib raw (pathOf up) = diskAt lib raw diskPath

/-! ### Texts that can be encoded -/

theorem encodable_of_hex {text : Text} (h : text.all hexDigit) : encodable text := by
  rw [encodable, List.all_eq_true]
  rw [List.all_eq_true] at h
  intro c hc
  have hdigit := h c hc
  simp only [hexDigit, Knowledge.decimal, Bool.or_eq_true, Bool.and_eq_true,
    decide_eq_true_eq] at hdigit ⊢
  omega

theorem encodable_of_safe {path : Text} (h : safeDevice path) : encodable path := by
  simp only [safeDevice, Bool.and_eq_true, List.isPrefixOf_iff_prefix] at h
  obtain ⟨⟨⟨⟨rest, rfl⟩, -⟩, -⟩, hchars⟩ := h
  have hrest : rest.all deviceChar := by
    have hdrop : (Text.ofString "/dev/" ++ rest).drop 5 = rest := rfl
    rwa [hdrop] at hchars
  have punctuation : (Text.ofString "_.:+/-").all (fun c => c.val < 0xD800) = true := by
    decide +kernel
  rw [encodable, List.all_append, Bool.and_eq_true]
  refine ⟨by decide +kernel, ?_⟩
  rw [List.all_eq_true] at hrest punctuation ⊢
  intro c hc
  have hchar := hrest c hc
  simp only [deviceChar, Bool.or_eq_true, Bool.and_eq_true, decide_eq_true_eq,
    List.contains_iff_mem] at hchar ⊢
  rcases hchar with hchar | hchar
  · omega
  · exact .inl (of_decide_eq_true (punctuation c hchar))

theorem listing_accepted {raw : List Value} {entry : List Value × Value}
    (h : entry ∈ listing raw) : accepted entry.2 :=
  Rose.keep_pruneAll accepted 128 [] 256 (trees raw) entry (List.mem_of_mem_take h)

theorem safe_of_accepted {raw : Value} (h : accepted raw) : safeDevice (pathOf raw) := by
  unfold accepted at h
  split at h
  · next path _ hpath _ =>
    rw [pathOf, hpath]
    exact h
  · cases h

theorem encodable_diskIdentity (digest : lib.HexDigest) {entry : List Value × Value}
    {probe : BlockDeviceProbe} (h : Lists lib.toProbeLibrary entry probe)
    (hsafe : safeDevice probe.path) : encodable (diskIdentity probe) := by
  have hidentity := (lsblkProbe_fields h.probed).2
  rw [diskIdentity]
  cases hhardware : probe.hardwareIdentity.bind nonempty with
  | none => exact encodable_of_safe hsafe
  | some identity =>
    obtain ⟨hashed, hsome, hnonempty⟩ := Option.bind_eq_some_iff.mp hhardware
    rw [hsome] at hidentity
    simp only [identityHash] at hidentity
    split at hidentity
    · cases hidentity
    · split at hidentity
      · obtain rfl := Option.some.inj (Except.ok.inj hidentity)
        refine (nonempty_eq_some.mp hnonempty).2 ▸ encodable_of_hex ?_
        rw [List.all_eq_true]
        exact fun c hc => List.all_eq_true.mp (digest _).2 c (List.mem_of_mem_take hc)
      · cases hidentity

/-! ### When every volume is owned -/

section Owned

variable {raw : List Value} {rest : StorageEvidence} {probes : List BlockDeviceProbe}
  {snapshot : SystemStorageSnapshot}

theorem diskAt_of_mem (h : List.Forall₂ (Probes lib) (listing raw) probes)
    (hbuilt : Built lib { rest with devices := probes } snapshot) {disk : DiskSnapshot}
    (hdisk : disk ∈ snapshot.disks) : diskAt lib raw disk.path = some disk.id := by
  rw [hbuilt.disks] at hdisk
  obtain ⟨found, hfound, rfl⟩ := List.mem_map.mp hdisk
  obtain ⟨path, hpath⟩ := Dict.mem_values.mp hfound
  obtain ⟨device, -, -, hdevice, hfound⟩ := get?_disksByPath hpath
  have hkey : found.path = path := by rw [hfound, ← hdevice]; rfl
  rw [diskAt_eq h]
  change ((disksByPath lib probes).get? found.path).map (·.id) = some found.id
  rw [hkey, hpath]
  rfl

theorem mem_of_diskAt (h : List.Forall₂ (Probes lib) (listing raw) probes)
    (hbuilt : Built lib { rest with devices := probes } snapshot) {path diskId : Text}
    (hdisk : diskAt lib raw path = some diskId) :
    ∃ disk ∈ snapshot.disks, disk.path = path ∧ disk.id = diskId ∧
      disk.partitionIds =
        ((volumesOf lib { rest with devices := probes }).partitionIdsByDisk.get? diskId).getD [] := by
  rw [diskAt_eq h] at hdisk
  obtain ⟨found, hfound, rfl⟩ := Option.map_eq_some_iff.mp hdisk
  obtain ⟨device, -, -, hdevice, rfl⟩ := get?_disksByPath hfound
  rw [hbuilt.disks]
  exact ⟨_, List.mem_map_of_mem (Dict.mem_values.mpr ⟨path, hfound⟩), hdevice, rfl, rfl⟩

theorem diskAt_isSome {diskPath : Text} {entry : List Value × Value} (hm : entry ∈ listing raw)
    (hbelow : below lib diskPath entry.1) : ∃ diskId, diskAt lib raw diskPath = some diskId := by
  obtain ⟨up, hup, hdisk, hpath⟩ := hbelow
  obtain ⟨front, back, hsplit⟩ := List.append_of_mem hm
  obtain ⟨above, habove⟩ := (listing_led raw).above hsplit up hup
  have found : ((listing raw).reverse.find? fun entry =>
      diskNodeOf lib entry.2 && diskPath == pathOf entry.2).isSome := by
    rw [List.find?_isSome]
    refine ⟨(above, up), ?_, by simp [hdisk, hpath]⟩
    rw [List.mem_reverse, hsplit]
    exact List.mem_append_left _ habove
  obtain ⟨last, hlast⟩ := Option.isSome_iff_exists.mp found
  exact ⟨_, by rw [diskAt, hlast]; rfl⟩

theorem diskIdOf_eq (h : List.Forall₂ (Probes lib) (listing raw) probes)
    {entry : List Value × Value} {probe : BlockDeviceProbe} (hp : Probes lib entry probe)
    {up : Value} {above : List Value} (hentry : entry.1 = up :: above) :
    diskIdOf (disksByPath lib probes) probe = diskAt lib raw (pathOf up) := by
  rw [diskAt_eq h, diskIdOf, ← hp.parentPath, hentry]
  rfl

theorem partitions_ids (h : List.Forall₂ (Probes lib) (listing raw) probes)
    (hbuilt : Built lib { rest with devices := probes } snapshot) :
    snapshot.partitions.map (·.id) = volumeIds lib raw := by
  rw [hbuilt.partitions, partitions_volumesOf, List.map_map, volumeIds_eq h]
  rfl

theorem count_partitions (h : List.Forall₂ (Probes lib) (listing raw) probes)
    (hbuilt : Built lib { rest with devices := probes } snapshot)
    (once : (volumeIds lib raw).Nodup) (path : Text) :
    (snapshot.partitions.map (·.path)).count path =
      if volumeListed lib raw path then 1 else 0 := by
  have paths : snapshot.partitions.map (·.path) = (probes.filter isVolume).map (·.path) := by
    rw [hbuilt.partitions, partitions_volumesOf, List.map_map]
    rfl
  have nodup : ((probes.filter isVolume).map (·.path)).Nodup := by
    rw [volumeIds_eq h] at once
    refine List.Nodup.of_map (resourceId lib "partition") ?_
    rwa [List.map_map]
  rw [paths]
  split
  · next hlisted =>
    obtain ⟨probe, hm, hvolume, hpath⟩ := (volumeListed_iff h).mp hlisted
    exact List.count_eq_one_of_mem nodup
      (List.mem_map.mpr ⟨probe, List.mem_filter.mpr ⟨hm, hvolume⟩, hpath⟩)
  · next hlisted =>
    rw [List.count_eq_zero]
    intro hm
    obtain ⟨probe, hprobe, hpath⟩ := List.mem_map.mp hm
    obtain ⟨hm, hvolume⟩ := List.mem_filter.mp hprobe
    exact hlisted ((volumeListed_iff h).mpr ⟨probe, hm, hvolume, hpath⟩)

theorem operatingSystem_disk (h : List.Forall₂ (Probes lib) (listing raw) probes)
    (hbuilt : Built lib { rest with devices := probes } snapshot) {path diskId : Text}
    (hvolume : volumeListed lib raw path) (hother : diskListed lib raw path = false)
    (hnonempty : diskId ≠ [])
    (hdisk : ∀ probe ∈ probes, isVolume probe → probe.path = path →
      diskIdOf (disksByPath lib probes) probe = some diskId) :
    ∀ os ∈ snapshot.operatingSystems, os.source = path → os.diskId = some diskId := by
  intro os hos hsource
  rw [hbuilt.operatingSystems] at hos
  obtain ⟨item, -, rfl⟩ := List.mem_map.mp hos
  have hsource : item.source = path := hsource
  have notDisk : ∀ probe ∈ probes, isDisk probe → probe.path ≠ path := by
    intro probe hm hisDisk hpath
    have hlisted := (diskListed_iff h).mpr ⟨probe, hm, hisDisk, hpath⟩
    rw [hother] at hlisted
    cases hlisted
  have hlast : (probes.foldl (addDevice lib (disksByPath lib probes)
      (mountByPath lib { rest with devices := probes })) .empty).sourceToDisk.get? path = _ :=
    sourceToDisk_foldl notDisk
  have found : (probes.reverse.find? fun probe => isVolume probe && path == probe.path).isSome := by
    obtain ⟨probe, hm, hisVolume, hpath⟩ := (volumeListed_iff h).mp hvolume
    rw [List.find?_isSome]
    exact ⟨probe, List.mem_reverse.mpr hm, by simp [hisVolume, hpath]⟩
  obtain ⟨last, hfind⟩ := Option.isSome_iff_exists.mp found
  have hprobe := List.find?_some hfind
  rw [Bool.and_eq_true, beq_iff_eq] at hprobe
  rw [hfind, Option.map_some, hdisk last (List.mem_reverse.mp (List.mem_of_find?_eq_some hfind))
    hprobe.1 hprobe.2.symm] at hlast
  change ((volumesOf lib { rest with devices := probes }).sourceToDisk.get? item.source).bind
    nonempty = some diskId
  rw [hsource, volumesOf, hlast]
  exact nonempty_eq_some.mpr ⟨hnonempty, rfl⟩

theorem ownable_of_owned (h : List.Forall₂ (Probes lib) (listing raw) probes)
    (hbuilt : Built lib { rest with devices := probes } snapshot)
    (howned : VolumesOwned lib raw snapshot) {path diskPath : Text}
    (hvolume : volumeListed lib raw path)
    (hbelow : ∀ entry ∈ listing raw, pathOf entry.2 = path → below lib diskPath entry.1)
    {entry : List Value × Value} (hm : entry ∈ listing raw) (hentry : volumeNodeOf lib entry.2)
    (hpath : pathOf entry.2 = path) {up : Value} {above : List Value}
    (hup : entry.1 = up :: above) :
    diskAt lib raw (pathOf up) = diskAt lib raw diskPath := by
  obtain ⟨disk, hdisk, hdiskPath, hpartitions, -⟩ := howned.owned path diskPath hvolume hbelow
  obtain ⟨probe, hprobe, hp⟩ := forall₂_right_of_mem h hm
  have hpartition : partitionOf lib (disksByPath lib probes)
      (mountByPath lib { rest with devices := probes }) probe ∈ snapshot.partitions := by
    rw [hbuilt.partitions, partitions_volumesOf]
    exact List.mem_map_of_mem (List.mem_filter.mpr ⟨hprobe, hp.isVolume ▸ hentry⟩)
  have hid : diskIdOf (disksByPath lib probes) probe = some disk.id :=
    (hpartitions _ hpartition (hp.path.symm.trans hpath)).1
  rw [← diskIdOf_eq h hp hup, hid, ← hdiskPath]
  exact (diskAt_of_mem h hbuilt hdisk).symm

theorem owned_of_ownable (h : List.Forall₂ (Probes lib) (listing raw) probes)
    (hbuilt : Built lib { rest with devices := probes } snapshot)
    (hownable : Ownable lib raw rest) : VolumesOwned lib raw snapshot where
  unique := by
    rw [partitions_ids h hbuilt]
    exact hownable.once
  one := count_partitions h hbuilt hownable.once
  owned path diskPath hvolume hbelow := by
    obtain ⟨first, hfirst, hisVolume⟩ := List.any_eq_true.mp hvolume
    rw [Bool.and_eq_true, decide_eq_true_eq] at hisVolume
    obtain ⟨diskId, hdiskId⟩ := diskAt_isSome hfirst (hbelow first hfirst hisVolume.2)
    obtain ⟨disk, hdisk, hdiskPath, rfl, hids⟩ := mem_of_diskAt h hbuilt hdiskId
    have put : ∀ probe ∈ probes, isVolume probe → probe.path = path →
        diskIdOf (disksByPath lib probes) probe = some disk.id := by
      intro probe hprobe hvolume hpath
      obtain ⟨entry, hm, hp⟩ := forall₂_left_of_mem h hprobe
      obtain ⟨up, hup, -⟩ := hbelow entry hm (hp.path.trans hpath)
      obtain ⟨nearest, above, habove⟩ := List.exists_cons_of_ne_nil (List.ne_nil_of_mem hup)
      rw [diskIdOf_eq h hp habove, hownable.directly path diskPath ‹_› hbelow entry hm
        (hp.isVolume ▸ hvolume) (hp.path.trans hpath) nearest above habove, hdiskId]
    refine ⟨disk, hdisk, hdiskPath, fun partition hpartition hpath => ?_, fun hother => ?_⟩
    · rw [hbuilt.partitions, partitions_volumesOf] at hpartition
      obtain ⟨probe, hprobe, rfl⟩ := List.mem_map.mp hpartition
      obtain ⟨hprobe, hisVolume⟩ := List.mem_filter.mp hprobe
      have hput := put probe hprobe hisVolume hpath
      refine ⟨hput, ?_⟩
      rw [hids, volumesOf, partitionIds_foldl]
      refine List.mem_append_right _ (List.mem_map.mpr ⟨probe, ?_, rfl⟩)
      exact List.mem_filter.mpr ⟨hprobe, by rw [hisVolume, hput, decide_eq_true rfl]; rfl⟩
    · refine operatingSystem_disk h hbuilt hvolume hother ?_ put
      obtain ⟨entry, -, hid⟩ := Option.map_eq_some_iff.mp hdiskId
      rw [← hid]
      exact fun h => nomatch h

theorem encodable_identities (digest : lib.HexDigest)
    (h : List.Forall₂ (Lists lib.toProbeLibrary) (listing raw) probes)
    (hothers : ∀ text ∈ otherIdentities rest, encodable text) :
    (identities { rest with devices := probes }).all encodable := by
  have safe : ∀ probe ∈ probes, ∃ entry, Lists lib.toProbeLibrary entry probe ∧
      safeDevice probe.path := by
    intro probe hm
    obtain ⟨entry, hentry, hlists⟩ := forall₂_left_of_mem h hm
    exact ⟨entry, hlists, hlists.path ▸ safe_of_accepted (listing_accepted hentry)⟩
  simp only [identities, List.all_append, Bool.and_eq_true, List.all_eq_true]
  refine ⟨⟨⟨fun text hm => hothers text (List.mem_append_left _ hm), ?_⟩, ?_⟩,
    fun text hm => hothers text (List.mem_append_right _ hm)⟩
  · intro text hm
    obtain ⟨probe, hprobe, rfl⟩ := List.mem_map.mp hm
    obtain ⟨entry, hlists, hsafe⟩ := safe probe (List.mem_of_mem_filter hprobe)
    exact encodable_diskIdentity digest hlists hsafe
  · intro text hm
    obtain ⟨probe, hprobe, rfl⟩ := List.mem_map.mp hm
    obtain ⟨entry, -, hsafe⟩ := safe probe (List.mem_of_mem_filter hprobe)
    exact encodable_of_safe hsafe

end Owned

section Document

variable {text : Text} {payload : Value} {raw : List Value} {rest : StorageEvidence}
  {sessionId : Text} {stamp : Stamp}

theorem ownable_of_snapshotOwns (hloads : lib.loads text = some payload)
    (hraw : asList (get payload "blockdevices") = some raw)
    (h : SnapshotOwns lib text raw rest sessionId stamp) : Ownable lib raw rest := by
  obtain ⟨probes, snapshot, hparse, hsnapshot, howned⟩ := h
  have hlists := lists_of_parse hloads hraw hparse
  have h := hlists.imp fun _ _ => probes_of_lists
  have hbuilt := built hsnapshot
  refine ⟨fun entry hm => ?_, fun identity hm => ?_, ?_, ?_⟩
  · obtain ⟨probe, -, hprobe⟩ := forall₂_right_of_mem hlists hm
    exact (lsblkProbe_isOk _ _).mp ⟨_, hprobe.probed⟩
  · refine List.all_eq_true.mp hbuilt.encodable identity ?_
    simp only [identities, List.mem_append]
    rcases List.mem_append.mp hm with hm | hm
    · exact .inl (.inl (.inl hm))
    · exact .inr hm
  · rw [← partitions_ids h hbuilt]
    exact howned.unique
  · intro path diskPath hvolume hbelow entry hm hentry hpath up above hup
    exact ownable_of_owned h hbuilt howned hvolume hbelow hm hentry hpath hup

theorem snapshotOwns_of_ownable (digest : lib.HexDigest) (hloads : lib.loads text = some payload)
    (hraw : asList (get payload "blockdevices") = some raw) (h : Ownable lib raw rest) :
    SnapshotOwns lib text raw rest sessionId stamp := by
  obtain ⟨probes, hparse⟩ := parse_returns hloads hraw h.legible
  have hlists := lists_of_parse hloads hraw hparse
  have hbuilds : (buildStorageSnapshot lib { rest with devices := probes } sessionId
      stamp).isSome := by
    rw [buildStorageSnapshot, if_pos (encodable_identities digest hlists h.encodable)]
    rfl
  obtain ⟨snapshot, hsnapshot⟩ := Option.isSome_iff_exists.mp hbuilds
  exact ⟨probes, snapshot, hparse, hsnapshot,
    owned_of_ownable (hlists.imp fun _ _ => probes_of_lists) (built hsnapshot) h⟩

end Document

/-- The volumes of a document are owned exactly when it is ownable. -/
theorem snapshot_owns_iff (lib : SnapshotLibrary) (digest : lib.HexDigest) (text : Text)
    (payload : Value) (raw : List Value) (rest : StorageEvidence) (sessionId : Text) (stamp : Stamp)
    (hloads : lib.loads text = some payload)
    (hraw : asList (get payload "blockdevices") = some raw) :
    SnapshotOwns lib text raw rest sessionId stamp ↔ Ownable lib raw rest :=
  ⟨ownable_of_snapshotOwns hloads hraw, snapshotOwns_of_ownable digest hloads hraw⟩

theorem listing_of_within {raw : List Value} (roots : raw.length ≤ 256)
    (h : Rose.WithinAll accepted 128 (trees raw))
    (size : (Rose.branchesAll [] (trees raw)).length ≤ 512) :
    listing raw = Rose.branchesAll [] (trees raw) := by
  have hlength : (trees raw).length = raw.length := by
    clear h size roots
    induction raw with
    | nil => rfl
    | cons value raw ih => rw [trees, List.length_cons, ih, List.length_cons]
  rw [listing, deviceTrees, Rose.pruneAll_of_within (hlength ▸ roots) h,
    List.take_of_length_le size]

/-! ### An encrypted partition -/

/-- Evidence with an operating system, apart from the devices. -/
def debianOn (source : String) : StorageEvidence where
  devices := []
  mounts := []
  usage := []
  smart := []
  operatingSystems :=
    [⟨Text.ofString source, Text.ofString "/", Text.ofString "Debian", none, none⟩]
  toolAvailability := []
  warnings := []
  errors := []

def ownershipDigests : List (Text × Nat) :=
  [(Text.ofString "/dev/sda",
      0x36b8377a5b0cc272a5b4e50929623191c027543c4facb1c6f3c35bacaa7455ef),
    (Text.ofString "/dev/sda1",
      0xd8d8d2c47b672edb91407c0014286b472673b2ff9d6636fd567d11650986ba3c),
    (Text.ofString "36b8377a5b0cc272a5b4e50929623191",
      0x14893b5b3cbd96f607d69ab6cb75cc8e4f4a19314319ca286d1cb87ca415bb1f),
    (Text.ofString "/dev/mapper/luks",
      0x502cd8ea8606c22b6a5d2b1fa3344053c5d5fa22882955381a681de6c61336dd),
    (Text.ofString "/dev/sda1:Debian",
      0x5b4477a3faabf9ae4c16873da6a78de90757121197640698ad5132f414cfbd4f),
    (Text.ofString "/dev/mapper/luks:Debian",
      0x3bb22b29ad540bfef6e4362a0c3a3f937bea145308cf43cf9aa3903df9ffeef2)]

def plainLibrary : SnapshotLibrary :=
  snapshotLibrary [(plainText, object [("blockdevices", .list plainRoots)])] ownershipDigests
    0xa82e7b9d409a5940d4df7c161441341bfcfcfca5a70d73098bd2408f7cd78a55

theorem snapshot_owns_sample :
    SnapshotOwns plainLibrary plainText plainRoots (debianOn "/dev/sda1") (Text.ofString "session")
      sampleStamp ∧ volumeListed plainLibrary plainRoots (Text.ofString "/dev/sda1") = true := by
  refine ⟨(snapshot_owns_iff plainLibrary (hexDigest_snapshotLibrary _ _ _) plainText
    (object [("blockdevices", .list plainRoots)]) plainRoots (debianOn "/dev/sda1") _ _
    (by simp [plainLibrary, snapshotLibrary, sampleLibrary])
    (by simp [object, get, asList])).mpr ?_, by decide +kernel⟩
  have hlegible : (listing plainRoots).all (fun entry =>
      legible plainLibrary.toProbeLibrary entry.2) = true := by decide +kernel
  have hencodable : (otherIdentities (debianOn "/dev/sda1")).all encodable = true := by
    decide +kernel
  have shallow : (listing plainRoots).all (fun entry =>
      !volumeNodeOf plainLibrary entry.2 || entry.1.length ≤ 1) = true := by decide +kernel
  refine ⟨List.all_eq_true.mp hlegible, List.all_eq_true.mp hencodable, by decide +kernel, ?_⟩
  intro path diskPath _ hbelow entry hm hentry hpath up above hup
  have hlength := List.all_eq_true.mp shallow entry hm
  rw [hentry, hup] at hlength
  obtain rfl : above = [] := by simpa using hlength
  obtain ⟨disk, hdisk, -, rfl⟩ := hbelow entry hm hpath
  rw [hup, List.mem_singleton] at hdisk
  rw [hdisk]

def cryptText : Text :=
  Text.ofString "\x7b\"blockdevices\":[" ++
    Text.ofString "\x7b\"name\":\"sda\",\"path\":\"/dev/sda\"," ++
    Text.ofString "\"type\":\"disk\",\"size\":\"512\",\"children\":[" ++
    Text.ofString "\x7b\"name\":\"sda1\",\"path\":\"/dev/sda1\"," ++
    Text.ofString "\"type\":\"part\",\"size\":\"256\",\"children\":[" ++
    Text.ofString "\x7b\"name\":\"luks\",\"path\":\"/dev/mapper/luks\"," ++
    Text.ofString "\"type\":\"crypt\",\"size\":\"128\"\x7d]\x7d]\x7d]\x7d"

def cryptRoots : List Value :=
  [object [("name", .lit "sda"), ("path", .lit "/dev/sda"), ("type", .lit "disk"),
    ("size", .lit "512"),
    ("children", .list [object [("name", .lit "sda1"), ("path", .lit "/dev/sda1"),
      ("type", .lit "part"), ("size", .lit "256"),
      ("children", .list [object [("name", .lit "luks"), ("path", .lit "/dev/mapper/luks"),
        ("type", .lit "crypt"), ("size", .lit "128")]])]])]]

def cryptLibrary : SnapshotLibrary :=
  snapshotLibrary [(cryptText, object [("blockdevices", .list cryptRoots)])] ownershipDigests
    0xa8471a8620c3742952ba3da98dfea299a7ad043b2d9dd02983c1772b972ff4ac

/-- The encrypted volume lies below one disk and gets none, and neither does the system on it. -/
theorem crypt_volume_orphaned :
    ((parseLsblkJson cryptLibrary.toProbeLibrary cryptText).toOption.bind fun probes =>
        (buildStorageSnapshot cryptLibrary { debianOn "/dev/mapper/luks" with devices := probes }
          (Text.ofString "session") sampleStamp).map fun snapshot =>
            (snapshot.partitions.map (·.diskId.isSome),
              snapshot.operatingSystems.map (·.diskId.isSome))) = some ([true, false], [false]) ∧
      ¬ SnapshotOwns cryptLibrary cryptText cryptRoots (debianOn "/dev/mapper/luks")
        (Text.ofString "session") sampleStamp := by
  obtain ⟨hbuilt, beneath, nested, hnode⟩ :
      ((parseLsblkJson cryptLibrary.toProbeLibrary cryptText).toOption.bind fun probes =>
        (buildStorageSnapshot cryptLibrary { debianOn "/dev/mapper/luks" with devices := probes }
          (Text.ofString "session") sampleStamp).map fun snapshot =>
            (snapshot.partitions.map (·.diskId.isSome),
              snapshot.operatingSystems.map (·.diskId.isSome))) = some ([true, false], [false]) ∧
      (listing cryptRoots).all (fun entry => pathOf entry.2 ≠ Text.ofString "/dev/mapper/luks" ||
        entry.1.any fun up => diskNodeOf cryptLibrary up && pathOf up = Text.ofString "/dev/sda") =
        true ∧
      (listing cryptRoots).any (fun entry =>
        volumeNodeOf cryptLibrary entry.2 && pathOf entry.2 = Text.ofString "/dev/mapper/luks" &&
          entry.1.head?.map pathOf = some (Text.ofString "/dev/sda1")) = true ∧
      volumeListed cryptLibrary cryptRoots (Text.ofString "/dev/mapper/luks") := by decide +kernel
  refine ⟨hbuilt, fun h => ?_⟩
  have hloads : cryptLibrary.loads cryptText = some (object [("blockdevices", .list cryptRoots)]) := by
    simp [cryptLibrary, snapshotLibrary, sampleLibrary]
  have ownable := ownable_of_snapshotOwns hloads (by simp [object, get, asList]) h
  obtain ⟨entry, hm, hentry⟩ := List.any_eq_true.mp nested
  simp only [Bool.and_eq_true, decide_eq_true_eq] at hentry
  obtain ⟨⟨hvolume, hpath⟩, habove⟩ := hentry
  obtain ⟨up, hhead, hup⟩ := Option.map_eq_some_iff.mp habove
  obtain ⟨above, habove⟩ := List.head?_eq_some_iff.mp hhead
  have same := ownable.directly (Text.ofString "/dev/mapper/luks") (Text.ofString "/dev/sda")
    hnode (fun other hother hsame => ?_) entry hm hvolume hpath up above habove
  · rw [hup] at same
    exact absurd same (by decide +kernel)
  · have hall := List.all_eq_true.mp beneath other hother
    simp only [hsame, ne_eq, not_true_eq_false, decide_false, Bool.false_or, List.any_eq_true,
      Bool.and_eq_true, decide_eq_true_eq] at hall
    exact hall

end Ares.StorageEvidence
