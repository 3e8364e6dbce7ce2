import Ares.Backups.RoundTrip
import Ares.Coop.Apart

/-! The disks that a backup and its source lie on.  The tools take one step, from a partition to the
disk that has it; below a stacked device there are others. -/

namespace Ares.Backups

open Coop Relation

/-! ### The devices of sysfs -/

structure Block where
  name : String
  /-- What the file `dev` says. -/
  dev : String
  /-- The disk in whose directory a partition is; it has the file `partition`. -/
  partitionOf : Option String
  slaves : List String
deriving DecidableEq

/-- `/sys/dev/block`, by the numbers of the devices. -/
structure Sysfs where
  block : String → Option Block
  numbered : ∀ {id b}, block id = some b → b.dev = id ∧ id ≠ ""
  disk : ∀ {id b d}, block id = some b → b.partitionOf = some d →
    b.slaves = [] ∧ ∃ disk, block d = some disk ∧ disk.partitionOf = none
  slave : ∀ {id b s}, block id = some b → s ∈ b.slaves → (block s).isSome

/-- `_physical_device_id`. -/
def physicalDeviceId (sys : Sysfs) (deviceId : String) : Option String :=
  match sys.block deviceId with
  | none => none
  | some resolved =>
    let candidate := (resolved.partitionOf.bind sys.block).getD resolved
    if candidate.dev ≠ "" then some candidate.dev
    else if candidate.name ≠ "" then some candidate.name
    else none

namespace Sysfs

variable (sys : Sysfs)

/-- One step down: from a partition to its disk, from a stacked device to what it lies on. -/
def Below (a b : String) : Prop :=
  ∃ block, sys.block a = some block ∧ (block.partitionOf = some b ∨ b ∈ block.slaves)

def WholeDisk (d : String) : Prop :=
  ∃ block, sys.block d = some block ∧ block.partitionOf = none ∧ block.slaves = []

/-- Some whole disk is below both devices. -/
def Shared (a b : String) : Prop :=
  ∃ d, sys.WholeDisk d ∧ ReflTransGen sys.Below a d ∧ ReflTransGen sys.Below b d

/-- The disk of a partition, and any other device itself. -/
def base (a : String) : String := ((sys.block a).bind (·.partitionOf)).getD a

/-- The device, or the disk that it is a partition of, lies on `b`. -/
def LiesOn (a b : String) : Prop := ∃ block, sys.block (sys.base a) = some block ∧ b ∈ block.slaves

def Stacked (a : String) : Prop := ∃ b, sys.LiesOn a b

/-- The devices at the bottom of the stack of `a`. -/
def Bottom (a x : String) : Prop := ReflTransGen sys.LiesOn a x ∧ ¬sys.Stacked x

variable {sys} {a b x y d : String}

theorem base_of_partition {block : Block} (h : sys.block a = some block)
    (hpart : block.partitionOf = some d) : sys.base a = d := by
  simp [base, h, hpart]

theorem base_of_disk {block : Block} (h : sys.block a = some block)
    (hpart : block.partitionOf = none) : sys.base a = a := by
  simp [base, h, hpart]

theorem base_listed (h : (sys.block a).isSome) :
    ∃ block, sys.block (sys.base a) = some block ∧ block.partitionOf = none := by
  obtain ⟨block, hblock⟩ := Option.isSome_iff_exists.mp h
  cases hpart : block.partitionOf with
  | none => exact ⟨block, by rwa [base_of_disk hblock hpart], hpart⟩
  | some d =>
    obtain ⟨-, disk, hdisk, hwhole⟩ := sys.disk hblock hpart
    exact ⟨disk, by rwa [base_of_partition hblock hpart], hwhole⟩

theorem liesOn_listed (h : sys.LiesOn a b) : (sys.block b).isSome :=
  let ⟨_, hblock, hslave⟩ := h
  sys.slave hblock hslave

theorem reaches_listed (h : ReflTransGen sys.LiesOn a x) (ha : (sys.block a).isSome) :
    (sys.block x).isSome := by
  induction h with
  | refl => exact ha
  | tail _ hlies => exact liesOn_listed hlies

theorem physicalDeviceId_eq (h : (sys.block a).isSome) :
    physicalDeviceId sys a = some (sys.base a) := by
  obtain ⟨block, hblock⟩ := Option.isSome_iff_exists.mp h
  obtain ⟨candidate, hbase, -⟩ := base_listed h
  obtain ⟨hdev, hne⟩ := sys.numbered hbase
  have hcandidate : (block.partitionOf.bind sys.block).getD block = candidate := by
    cases hpart : block.partitionOf with
    | none =>
      rw [base_of_disk hblock hpart, hblock] at hbase
      exact Option.some.inj hbase
    | some d =>
      rw [base_of_partition hblock hpart] at hbase
      simp [hbase]
  simp [physicalDeviceId, hblock, hcandidate, hdev, hne]

/-! ### The disks below a device -/

theorem below_base (h : (sys.block a).isSome) : ReflTransGen sys.Below a (sys.base a) := by
  obtain ⟨block, hblock⟩ := Option.isSome_iff_exists.mp h
  cases hpart : block.partitionOf with
  | none =>
    rw [base_of_disk hblock hpart]
  | some d =>
    rw [base_of_partition hblock hpart]
    exact .single ⟨block, hblock, .inl hpart⟩

theorem below_of_liesOn (h : sys.LiesOn a b) (ha : (sys.block a).isSome) :
    ReflTransGen sys.Below a b :=
  let ⟨block, hblock, hslave⟩ := h
  (below_base ha).tail ⟨block, hblock, .inr hslave⟩

theorem below_of_reaches (h : ReflTransGen sys.LiesOn a x) (ha : (sys.block a).isSome) :
    ReflTransGen sys.Below a x := by
  induction h with
  | refl => exact .refl
  | tail hreach hlies ih => exact ih.trans (below_of_liesOn hlies (reaches_listed hreach ha))

theorem liesOn_congr (h : sys.base a = sys.base b) : sys.LiesOn a x ↔ sys.LiesOn b x := by
  rw [LiesOn, LiesOn, h]

theorem Bottom.of_base (hbase : sys.base a = sys.base b) (h : sys.Bottom b x) :
    ∃ x', sys.Bottom a x' ∧ sys.base x' = sys.base x := by
  obtain ⟨hreach, hbottom⟩ := h
  rcases ReflTransGen.cases_head hreach with rfl | ⟨y, hlies, hrest⟩
  · refine ⟨a, ⟨.refl, ?_⟩, hbase⟩
    rintro ⟨y, hlies⟩
    exact hbottom ⟨y, (liesOn_congr hbase).mp hlies⟩
  · exact ⟨x, ⟨.head ((liesOn_congr hbase).mpr hlies) hrest, hbottom⟩, rfl⟩

theorem exists_bottom_iff (ha : (sys.block a).isSome) :
    sys.WholeDisk d ∧ ReflTransGen sys.Below a d ↔ ∃ x, sys.Bottom a x ∧ sys.base x = d := by
  constructor
  · rintro ⟨hdisk, hbelow⟩
    induction hbelow using ReflTransGen.head_induction_on with
    | refl =>
      obtain ⟨block, hblock, hpart, hslaves⟩ := hdisk
      have hbase := base_of_disk hblock hpart
      refine ⟨d, ⟨.refl, ?_⟩, hbase⟩
      rintro ⟨y, other, hother, hy⟩
      rw [hbase, hblock, Option.some.injEq] at hother
      rw [← hother, hslaves] at hy
      cases hy
    | @head a b hstep _ ih =>
      obtain ⟨block, hblock, hpart | hslave⟩ := hstep
      · obtain ⟨-, disk, hb, hwhole⟩ := sys.disk hblock hpart
        obtain ⟨x, hx, hxd⟩ := ih (by simp [hb])
        have hbase : sys.base a = sys.base b := by
          rw [base_of_partition hblock hpart, base_of_disk hb hwhole]
        obtain ⟨x', hx', hx'd⟩ := hx.of_base hbase
        exact ⟨x', hx', hx'd.trans hxd⟩
      · obtain ⟨x, hx, hxd⟩ := ih (sys.slave hblock hslave)
        have hpart : block.partitionOf = none := by
          by_contra hne
          obtain ⟨disk, hdisk⟩ := Option.ne_none_iff_exists'.mp hne
          rw [(sys.disk hblock hdisk).1] at hslave
          cases hslave
        have hlies : sys.LiesOn a b := ⟨block, by rwa [base_of_disk hblock hpart], hslave⟩
        exact ⟨x, ⟨.head hlies hx.1, hx.2⟩, hxd⟩
  · rintro ⟨x, ⟨hreach, hbottom⟩, rfl⟩
    have hx := reaches_listed hreach ha
    obtain ⟨block, hblock, hpart⟩ := base_listed hx
    refine ⟨⟨block, hblock, hpart, ?_⟩, (below_of_reaches hreach ha).trans (below_base hx)⟩
    rw [List.eq_nil_iff_forall_not_mem]
    exact fun y hy => hbottom ⟨y, block, hblock, hy⟩

/-- Two devices share a disk exactly when the tools give one physical device to two devices at the
bottoms of their stacks. -/
theorem shared_iff (ha : (sys.block a).isSome) (hb : (sys.block b).isSome) :
    sys.Shared a b ↔ ∃ x y, sys.Bottom a x ∧ sys.Bottom b y ∧
      physicalDeviceId sys x = physicalDeviceId sys y := by
  constructor
  · rintro ⟨d, hdisk, hda, hdb⟩
    obtain ⟨x, hx, hxd⟩ := (exists_bottom_iff ha).mp ⟨hdisk, hda⟩
    obtain ⟨y, hy, hyd⟩ := (exists_bottom_iff hb).mp ⟨hdisk, hdb⟩
    refine ⟨x, y, hx, hy, ?_⟩
    rw [physicalDeviceId_eq (reaches_listed hx.1 ha), physicalDeviceId_eq (reaches_listed hy.1 hb),
      hxd, hyd]
  · rintro ⟨x, y, hx, hy, hsame⟩
    rw [physicalDeviceId_eq (reaches_listed hx.1 ha), physicalDeviceId_eq (reaches_listed hy.1 hb),
      Option.some.injEq] at hsame
    obtain ⟨hdisk, hda⟩ := (exists_bottom_iff ha).mpr ⟨x, hx, rfl⟩
    obtain ⟨-, hdb⟩ := (exists_bottom_iff hb).mpr ⟨y, hy, rfl⟩
    exact ⟨_, hdisk, hda, hsame ▸ hdb⟩

theorem bottom_of_not_stacked (h : ¬sys.Stacked a) : sys.Bottom a x ↔ x = a := by
  constructor
  · rintro ⟨hreach, -⟩
    rcases ReflTransGen.cases_head hreach with rfl | ⟨y, hlies, -⟩
    · rfl
    · exact absurd ⟨y, hlies⟩ h
  · rintro rfl
    exact ⟨.refl, h⟩

end Sysfs

/-! ### What is accepted -/

/-- The two devices pass `_reject_same_storage`. -/
def PassesCheck (sys : Sysfs) (a b : String) : Prop :=
  physicalDeviceId sys a = none ∨ physicalDeviceId sys b = none ∨
    physicalDeviceId sys a ≠ physicalDeviceId sys b

/-- The server answers with what sysfs shows. -/
def ShowsSysfs {μ : Type} (sys : Sysfs) (server : Server μ Res) : Prop :=
  ∀ id m, (server (.call (.physicalDeviceId id)) m).1 = .ok (physicalDeviceId sys id)

section Runs

variable {σ μ α : Type} {sys : Sysfs} {server : Server μ Res} {m : μ} {lib : Library}
  {policy : BackupPolicy} {plan : BackupPlan}

theorem obeys_physical {id : String} {f : Option String → Tool σ α} {Q : α → μ → Prop}
    (hsys : ShowsSysfs sys server)
    (h : ∀ m, (f (physicalDeviceId sys id)).Obeys (serverProtocol server) Q (fun _ _ => True) m) :
    ((attempt (.physicalDeviceId id)).bind f).Obeys (serverProtocol server) Q (fun _ _ => True) m := by
  rw [attempt, Proc.attempt, Proc.bind_assoc, obeys_bind, obeys_call, hsys]
  exact h _

theorem obeys_rejectSameStorage {a b : String} {f : Unit → Tool σ α} {Q : α → μ → Prop}
    (h : PassesCheck sys a b → ∀ m, (f ()).Obeys (serverProtocol server) Q (fun _ _ => True) m) :
    ((rejectSameStorage a b (physicalDeviceId sys a) (physicalDeviceId sys b)).bind f).Obeys
      (serverProtocol server) Q (fun _ _ => True) m := by
  rw [rejectSameStorage, bind_eq, Proc.bind_assoc]
  refine obeys_bind_any (fun _ _ => trivial) fun _ m => ?_
  rw [obeys_bind, obeys_require]
  refine ⟨fun hpasses => h ?_ m, fun _ => trivial⟩
  simpa [PassesCheck, or_assoc] using hpasses

variable (lib policy) in
theorem buildPlan_obeys (hsys : ShowsSysfs sys server) (sourcePath destinationPath : String) :
    (buildPlan lib sourcePath destinationPath policy : Tool σ BackupPlan).Obeys
      (serverProtocol server)
      (fun plan _ => PassesCheck sys plan.source.deviceId plan.destination.deviceId)
      (fun _ _ => True) m := by
  have hE : ∀ (e : Error) (m : μ), True := fun _ _ => trivial
  simp only [buildPlan, bind_eq]
  refine obeys_bind_any hE fun sourceRoot m => ?_
  refine obeys_bind_any hE fun destinationRoot m => ?_
  refine obeys_bind_any hE fun sourceMount m => ?_
  refine obeys_bind_any hE fun destinationMount m => ?_
  refine obeys_bind_any hE fun sourceInfo m => ?_
  refine obeys_bind_any hE fun destinationInfo m => ?_
  refine obeys_bind_any hE fun _ m => ?_
  refine obeys_physical hsys fun m => obeys_physical hsys fun m => ?_
  refine obeys_rejectSameStorage fun hpasses m => ?_
  refine obeys_bind_any hE fun _ m => ?_
  refine obeys_bind_any hE fun scan m => ?_
  refine obeys_bind_any hE fun available m => ?_
  refine obeys_bind_any hE fun _ m => ?_
  refine obeys_bind_any hE fun backupId m => ?_
  refine obeys_bind_any hE fun planId m => ?_
  refine obeys_bind_any hE fun taken m => ?_
  refine obeys_bind_any hE fun _ m => ?_
  refine obeys_bind_any hE fun _ m => ?_
  refine obeys_bind_any hE fun kind m => ?_
  refine obeys_bind_any hE fun _ m => ?_
  refine obeys_bind_any hE fun createdAt m => ?_
  refine obeys_bind_any hE fun expires m => ?_
  exact hpasses

variable (lib plan) in
theorem revalidatePlan_obeys (hsys : ShowsSysfs sys server) :
    (revalidatePlan lib plan : Tool σ DateTime).Obeys (serverProtocol server)
      (fun _ _ => PassesCheck sys plan.source.deviceId plan.destination.deviceId)
      (fun _ _ => True) m := by
  have hE : ∀ (e : Error) (m : μ), True := fun _ _ => trivial
  simp only [revalidatePlan, bind_eq]
  refine obeys_bind_any hE fun now m => ?_
  refine obeys_bind_any hE fun _ m => ?_
  refine obeys_bind_any hE fun source m => ?_
  refine obeys_bind_any hE fun destination m => ?_
  refine obeys_bind_any hE fun sourceMount m => ?_
  refine obeys_bind_any hE fun destinationMount m => ?_
  refine obeys_bind_any hE fun sourceInfo m => ?_
  rw [obeys_bind, obeys_require]
  refine ⟨fun hsource => ?_, fun _ => trivial⟩
  refine obeys_bind_any hE fun destinationInfo m => ?_
  rw [obeys_bind, obeys_require]
  refine ⟨fun hdestination => ?_, fun _ => trivial⟩
  refine obeys_physical hsys fun m => obeys_physical hsys fun m => ?_
  refine obeys_bind_any hE fun _ m => ?_
  refine obeys_bind_any hE fun _ m => ?_
  refine obeys_rejectSameStorage fun hpasses m => ?_
  rw [of_decide_eq_true hsource, of_decide_eq_true hdestination] at hpasses
  exact Proc.obeys_of_forall (fun _ _ => hpasses) hE

end Runs

/-! ### Disks that are shared -/

section Plans

variable {sys : Sysfs} {a b : String}

theorem Sysfs.not_shared_of_passes (hsource : (sys.block a).isSome)
    (hdestination : (sys.block b).isSome) (hpasses : PassesCheck sys a b) (ha : ¬sys.Stacked a)
    (hb : ¬sys.Stacked b) : ¬sys.Shared a b := by
  rw [shared_iff hsource hdestination]
  rintro ⟨x, y, hx, hy, hsame⟩
  obtain rfl := (bottom_of_not_stacked ha).mp hx
  obtain rfl := (bottom_of_not_stacked hb).mp hy
  rcases hpasses with hnone | hnone | hne
  · simp [physicalDeviceId_eq hsource] at hnone
  · simp [physicalDeviceId_eq hdestination] at hnone
  · exact hne hsame

theorem Sysfs.not_shared_iff (hsource : (sys.block a).isSome) (hdestination : (sys.block b).isSome)
    (hpasses : PassesCheck sys a b) :
    ¬sys.Shared a b ↔ ∀ x y, sys.Bottom a x → sys.Bottom b y → sys.Stacked a ∨ sys.Stacked b →
      physicalDeviceId sys x ≠ physicalDeviceId sys y := by
  constructor
  · intro hapart x y hx hy _ hsame
    exact hapart ((shared_iff hsource hdestination).mpr ⟨x, y, hx, hy, hsame⟩)
  · intro hdiffer
    by_cases hstacked : sys.Stacked a ∨ sys.Stacked b
    · rw [shared_iff hsource hdestination]
      rintro ⟨x, y, hx, hy, hsame⟩
      exact hdiffer x y hx hy hstacked hsame
    · exact not_shared_of_passes hsource hdestination hpasses (fun h => hstacked (.inl h))
        fun h => hstacked (.inr h)

/-- The plan is built, or accepted again. -/
def Accepted {σ μ : Type} (lib : Library) (server : Server μ Res) (s : σ) (m : μ)
    (plan : BackupPlan) : Prop :=
  (∃ sourcePath destinationPath policy s' m',
    (buildPlan lib sourcePath destinationPath policy : Tool σ BackupPlan).apart server s m =
      (.ok plan, s', m')) ∨
  ∃ now s' m', (revalidatePlan lib plan : Tool σ DateTime).apart server s m = (.ok now, s', m')

theorem Accepted.passesCheck {σ μ : Type} {lib : Library} {server : Server μ Res} {s : σ} {m : μ}
    {plan : BackupPlan} (h : Accepted lib server s m plan) (hsys : ShowsSysfs sys server) :
    PassesCheck sys plan.source.deviceId plan.destination.deviceId := by
  rcases h with ⟨sourcePath, destinationPath, policy, s', m', hrun⟩ | ⟨now, s', m', hrun⟩
  · have hends := (buildPlan_obeys lib policy hsys sourcePath destinationPath).apart (s := s) (m := m)
    rwa [hrun] at hends
  · have hends := (revalidatePlan_obeys lib plan hsys).apart (s := s) (m := m)
    rwa [hrun] at hends

/-- A backup and its source share no disk exactly when, of what a stacked device among the two lies
on, nothing at the bottom has the physical device of something at the bottom of the other. -/
theorem accepted_apart_iff {σ μ : Type} (sys : Sysfs) (server : Server μ Res)
    (hsys : ShowsSysfs sys server) (lib : Library) (s : σ) (m : μ) (plan : BackupPlan)
    (haccepted : Accepted lib server s m plan)
    (hsource : (sys.block plan.source.deviceId).isSome)
    (hdestination : (sys.block plan.destination.deviceId).isSome) :
    ¬sys.Shared plan.source.deviceId plan.destination.deviceId ↔
      ∀ x y, sys.Bottom plan.source.deviceId x → sys.Bottom plan.destination.deviceId y →
        sys.Stacked plan.source.deviceId ∨ sys.Stacked plan.destination.deviceId →
        physicalDeviceId sys x ≠ physicalDeviceId sys y :=
  Sysfs.not_shared_iff hsource hdestination (haccepted.passesCheck hsys)

end Plans

/-! ### A volume over a partition of the destination's disk -/

def sampleBlock (id : String) : Option Block :=
  if id = "8:0" then some ⟨"sda", "8:0", none, []⟩
  else if id = "8:1" then some ⟨"sda1", "8:1", some "8:0", []⟩
  else if id = "8:2" then some ⟨"sda2", "8:2", some "8:0", []⟩
  else if id = "253:0" then some ⟨"dm-0", "253:0", none, ["8:1"]⟩
  else none

theorem sampleBlock_cases {id : String} {b : Block} (h : sampleBlock id = some b) :
    (id, b) ∈ [("8:0", ⟨"sda", "8:0", none, []⟩), ("8:1", ⟨"sda1", "8:1", some "8:0", []⟩),
      ("8:2", ⟨"sda2", "8:2", some "8:0", []⟩), ("253:0", ⟨"dm-0", "253:0", none, ["8:1"]⟩)] := by
  unfold sampleBlock at h
  split_ifs at h with h0 h1 h2 h3
  · simp [h0, (Option.some.inj h).symm]
  · simp [h1, (Option.some.inj h).symm]
  · simp [h2, (Option.some.inj h).symm]
  · simp [h3, (Option.some.inj h).symm]

/-- A disk with two partitions, and a volume over the first of them. -/
def sampleSysfs : Sysfs where
  block := sampleBlock
  numbered h := by
    have hcase := sampleBlock_cases h
    simp only [List.mem_cons, Prod.mk.injEq, List.not_mem_nil, or_false] at hcase
    obtain ⟨rfl, rfl⟩ | ⟨rfl, rfl⟩ | ⟨rfl, rfl⟩ | ⟨rfl, rfl⟩ := hcase <;> decide
  disk h hpart := by
    have hcase := sampleBlock_cases h
    simp only [List.mem_cons, Prod.mk.injEq, List.not_mem_nil, or_false] at hcase
    obtain ⟨rfl, rfl⟩ | ⟨rfl, rfl⟩ | ⟨rfl, rfl⟩ | ⟨rfl, rfl⟩ := hcase
    · cases hpart
    · exact ⟨rfl, _, by rw [← Option.some.inj hpart]; rfl, rfl⟩
    · exact ⟨rfl, _, by rw [← Option.some.inj hpart]; rfl, rfl⟩
    · cases hpart
  slave h hslave := by
    have hcase := sampleBlock_cases h
    simp only [List.mem_cons, Prod.mk.injEq, List.not_mem_nil, or_false] at hcase
    obtain ⟨rfl, rfl⟩ | ⟨rfl, rfl⟩ | ⟨rfl, rfl⟩ | ⟨rfl, rfl⟩ := hcase
    · cases hslave
    · cases hslave
    · cases hslave
    · rw [List.mem_singleton.mp hslave]
      rfl

/-- The volume is mounted at the root, and the other partition at `/mnt`. -/
def volumeServer : Server Unit Res
  | .lock, m => (.ok (), m)
  | .thread, m => (.ok (), m)
  | .append _, m => (.acked, m)
  | .call .now, m => (.ok 0, m)
  | .call .randomId, m => (.ok "9f3c", m)
  | .call (.resolve path), m => (.ok path, m)
  | .call .mounts, m => (.ok [⟨"253:0", [], "ext4", "/dev/mapper/root", ["rw"]⟩,
      ⟨"8:2", ["mnt"], "ext4", "/dev/sda2", ["rw"]⟩], m)
  | .call (.physicalDeviceId id), m => (.ok (physicalDeviceId sampleSysfs id), m)
  | .call (.isRemovable _), m => (.ok false, m)
  | .call (.access _), m => (.ok true, m)
  | .call (.available _), m => (.ok 1000000000, m)
  | .call (.lexists _), m => (.ok false, m)
  | .call (.scanSource _ _ _), m => (.ok ⟨0, 0, 0, []⟩, m)
  | .call _, m => (.error .os, m)

theorem volumeServer_shows : ShowsSysfs sampleSysfs volumeServer := fun _ _ => rfl

theorem volume_accepted : ∃ plan, Accepted (sampleLibrary "home") volumeServer () () plan ∧
    plan.source.deviceId = "253:0" ∧ plan.destination.deviceId = "8:2" := by
  have hrun : ((buildPlan (sampleLibrary "home") "/home" "/mnt" ⟨[]⟩ :
      Tool Unit BackupPlan).apart volumeServer () ()).1.toOption.map
        (fun plan => (plan.source.deviceId, plan.destination.deviceId)) = some ("253:0", "8:2") := by
    decide +kernel
  obtain ⟨plan, hplan, hids⟩ := Option.map_eq_some_iff.mp hrun
  obtain ⟨hsource, hdestination⟩ := Prod.mk.inj hids
  refine ⟨plan, .inl ⟨"/home", "/mnt", ⟨[]⟩, _, _, Prod.ext ?_ rfl⟩, hsource, hdestination⟩
  revert hplan
  generalize ((buildPlan _ _ _ _ : Tool Unit BackupPlan).apart volumeServer () ()).1 = r
  cases r with
  | error e => simp [Except.toOption]
  | ok a => simp [Except.toOption]

theorem volume_shared : sampleSysfs.Shared "253:0" "8:2" := by
  refine ⟨"8:0", ⟨_, rfl, rfl, rfl⟩, ?_, .single ⟨_, rfl, .inl rfl⟩⟩
  exact .head (b := "8:1") ⟨_, rfl, .inr (List.mem_singleton.mpr rfl)⟩
    (.single ⟨_, rfl, .inl rfl⟩)

/-- A plan is built for a backup onto the disk that the source's volume lies on. -/
theorem volume_backed_up_onto_its_disk :
    ¬∀ (sys : Sysfs) (server : Server Unit Res) (lib : Library) (plan : BackupPlan),
      ShowsSysfs sys server → Accepted lib server () () plan →
      (sys.block plan.source.deviceId).isSome → (sys.block plan.destination.deviceId).isSome →
      ¬sys.Shared plan.source.deviceId plan.destination.deviceId := by
  intro claim
  obtain ⟨plan, haccepted, hsource, hdestination⟩ := volume_accepted
  refine claim sampleSysfs volumeServer _ plan volumeServer_shows haccepted ?_ ?_ ?_
  · rw [hsource]
    rfl
  · rw [hdestination]
    rfl
  · rw [hsource, hdestination]
    exact volume_shared

theorem accepted_apart_sample : ∃ plan : BackupPlan, plan.source.deviceId = "253:0" ∧
    plan.destination.deviceId = "8:2" ∧
    (¬sampleSysfs.Shared plan.source.deviceId plan.destination.deviceId ↔
      ∀ x y, sampleSysfs.Bottom plan.source.deviceId x →
        sampleSysfs.Bottom plan.destination.deviceId y →
        sampleSysfs.Stacked plan.source.deviceId ∨ sampleSysfs.Stacked plan.destination.deviceId →
        physicalDeviceId sampleSysfs x ≠ physicalDeviceId sampleSysfs y) := by
  obtain ⟨plan, haccepted, hsource, hdestination⟩ := volume_accepted
  refine ⟨plan, hsource, hdestination, accepted_apart_iff sampleSysfs volumeServer
    volumeServer_shows (sampleLibrary "home") () () plan haccepted ?_ ?_⟩
  · rw [hsource]
    rfl
  · rw [hdestination]
    rfl

end Ares.Backups
