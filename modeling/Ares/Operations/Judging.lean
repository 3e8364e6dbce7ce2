import Ares.Operations.Execution
import Ares.Operations.Reconcile
import Ares.Storage.Impact

/-! Which evidence the validation of a delete is judged on: the layout is inspected again, but the
partition is the one that the plan captured. -/

namespace Ares.Operations

open Coop Data Storage

variable {cfg : Config} {env : Env State Res} {operationId sessionId : String} {task : Nat}
  {record : StorageOperationRecord} {s s' : State} {current : StorageLayout}
  {target : PartitionResource} {dev : Devices} {v : StorageOperationPlan}

/-! ### The evidence -/

/-- Nothing in a layout says that the partition of a number is in use. -/
structure Clean (layout : StorageLayout) (n : Nat) : Prop where
  filesystem : ∀ p ∈ layout.partitionTable.partitions, p.number = n → p.filesystemId = none
  mounts : ∀ p ∈ layout.partitionTable.partitions, p.number = n → p.mountPointIds = []
  volumes : ∀ p ∈ layout.partitionTable.partitions, p.number = n →
    ∀ v ∈ layout.volumes, v.id ∉ p.volumeIds
  encryption : ∀ p ∈ layout.partitionTable.partitions, p.number = n →
    p.encryptionStatus ∈ [.none, .unknown]
  role : ∀ p ∈ layout.partitionTable.partitions, p.number = n →
    p.role ∉ [.efi, .boot, .recovery, .swap, .lvm, .raid]
  swap : n ∉ layout.swapPartitions
  boot : ∀ d ∈ layout.bootDependencies, d.partitionNumber ≠ some n

/-- What the plan captured about its partition still stands in a layout, or the layout names the
number of the partition as needed to boot. -/
inductive StillShown (layout : StorageLayout) (target : PartitionResource) : Prop
  | filesystem (f : FilesystemResource) (listed : f ∈ layout.filesystems)
    (captured : target.filesystemId = some f.id)
  | mounted (m : MountPointResource) (listed : m ∈ layout.mountPoints)
    (captured : m.id ∈ target.mountPointIds)
  | member (w : VolumeResource) (id : String) (captured : id ∈ target.volumeIds)
    (listed : volumeOf layout id = some w) (kind : w.kind ≠ .crypt)
  | encrypted (captured : target.encryptionStatus ∉ [.none, .unknown])
  | role (captured : target.role.protected_ = true)
  | boot (d : BootDependency) (listed : d ∈ layout.bootDependencies)
    (number : d.partitionNumber = some target.number)

theorem deletable_iff_not_stillShown : Deletable current target ↔ ¬StillShown current target := by
  rw [Deletable, analyzeBootImpact_delete]
  change (deleteImpact _ _).executable = true ∧ _ ↔ _
  rw [deleteImpact_executable]
  constructor
  · rintro ⟨⟨hfs, hmounts, hvolumes, hencrypted, hrole⟩, hboot, -⟩ hshown
    cases hshown with
    | filesystem f hf hid => exact hfs f.id hid f hf rfl
    | mounted m hm hid => exact hmounts m.id hid m hm rfl
    | member w id hid hw hkind => exact hkind (hvolumes id hid w hw)
    | encrypted h => exact h hencrypted
    | role h => exact Bool.false_ne_true (hrole.symm.trans h)
    | boot d hd hnumber => exact hboot d hd hnumber
  · intro hnot
    have hrole : target.role.protected_ = false := Bool.eq_false_iff.2 fun h => hnot (.role h)
    refine ⟨⟨?_, ?_, ?_, ?_, hrole⟩, fun d hd hnumber => hnot (.boot d hd hnumber), ?_⟩
    · rintro id hid f hf rfl
      exact hnot (.filesystem f hf hid)
    · rintro id hid m hm rfl
      exact hnot (.mounted m hm hid)
    · intro id hid w hw
      by_contra hkind
      exact hnot (.member w id hid hw hkind)
    · by_contra h
      exact hnot (.encrypted h)
    · cases hr : target.role <;> simp_all [PartitionRole.protected_]

/-! ### The call -/

/-- The environment keeps the record of the operation as the call left it. -/
structure Keeping (cfg : Config) (operationId : String) (env : Env State Res) : Prop where
  kept : ∀ s record, Stored cfg operationId record s → Stored cfg operationId record (env.wait s)

/-- The environment in which the device shows a layout. -/
structure Shows (dev : Devices) (current : StorageLayout) (env : Env State Res) : Prop where
  inspect : ∀ s target, env.answer s (.call (.inspect target)) = .ok current
  devices : ∀ s, (env.wait s).devices = dev

theorem Stored.see (task : Nat) (t : StorageTransaction) (h : Stored cfg operationId record s) :
    Stored cfg operationId record (s.see task t) :=
  h.same (.see task t s)

theorem get_eq_ok {α : Type} {find : State → Option α} {r : Option α}
    (h : (get find).alone env s = (.ok r, s')) :
    s' = env.wait s ∧ (r = none ∨ r = find s') := by
  obtain ⟨readable, s₁, hread, h⟩ := alone_bind_eq_ok h
  have hs : s₁ = env.wait s := by
    obtain ⟨_, s₂, hperform, hread⟩ := alone_bind_eq_ok hread
    obtain ⟨-, rfl⟩ := Prod.mk.inj hperform
    rw [alone_ofExcept] at hread
    exact (Prod.mk.inj hread).2.symm
  cases readable with
  | false =>
    obtain ⟨hr, rfl⟩ := Prod.mk.inj h
    exact ⟨hs, .inl (Except.ok.inj hr).symm⟩
  | true =>
    obtain ⟨hr, rfl⟩ := Prod.mk.inj h
    exact ⟨hs, .inr (Except.ok.inj hr).symm⟩

theorem getTransaction_eq_ok {r : Option StorageTransaction}
    (keeping : Keeping cfg operationId env) (stored : Stored cfg operationId record s)
    (h : (getTransaction cfg task operationId).alone env s = (.ok r, s')) :
    Stored cfg operationId record s' ∧ ∀ t ∈ r, t = record.transaction := by
  have hid : safeId cfg operationId = operationId := if_pos stored.safe
  obtain ⟨t, s₁, hget, h⟩ := alone_bind_eq_ok h
  obtain ⟨rfl, ht⟩ := get_eq_ok hget
  have h1 := keeping.kept s record stored
  rw [hid, h1.transaction] at ht
  cases t with
  | none =>
    obtain ⟨rfl, rfl⟩ := alone_ret_eq_ok h
    exact ⟨h1, by simp⟩
  | some t =>
    obtain rfl : t = record.transaction := by simpa using ht
    obtain ⟨_, s₂, hsee, h⟩ := alone_bind_eq_ok h
    obtain rfl := Proc.alone_modify_eq_ok hsee
    obtain ⟨rfl, rfl⟩ := alone_ret_eq_ok h
    exact ⟨h1.see task _, by rintro _ ⟨⟩; rfl⟩

theorem getRest_eq_ok {r : Option StorageOperationRecord}
    (keeping : Keeping cfg operationId env) (stored : Stored cfg operationId record s)
    (h : (getRest cfg operationId record.transaction).alone env s = (.ok r, s')) :
    Stored cfg operationId record s' ∧
      ∀ read ∈ r, read.plan = record.plan ∧ read.transaction = record.transaction := by
  obtain ⟨plan, s₁, hplan, h⟩ := alone_bind_eq_ok h
  obtain ⟨rfl, hp⟩ := get_eq_ok hplan
  have h1 := keeping.kept s record stored
  rw [h1.plan] at hp
  cases plan with
  | none =>
    obtain ⟨rfl, rfl⟩ := alone_ret_eq_ok h
    exact ⟨h1, by simp⟩
  | some plan =>
    obtain rfl : plan = record.plan := by simpa using hp
    obtain ⟨verification, s₂, hverification, h⟩ := alone_bind_eq_ok h
    obtain ⟨rfl, -⟩ := get_eq_ok hverification
    obtain ⟨rfl, rfl⟩ := alone_ret_eq_ok h
    refine ⟨keeping.kept _ record h1, ?_⟩
    rintro _ ⟨⟩
    exact ⟨rfl, rfl⟩

theorem getRecord_eq_ok (keeping : Keeping cfg operationId env)
    (stored : Stored cfg operationId record s) {r : Option StorageOperationRecord}
    (h : (getRecord cfg task operationId).alone env s = (.ok r, s')) :
    Stored cfg operationId record s' ∧
      ∀ read ∈ r, read.plan = record.plan ∧ read.transaction = record.transaction := by
  obtain ⟨transaction, s₁, htransaction, h⟩ := alone_bind_eq_ok h
  obtain ⟨h1, ht⟩ := getTransaction_eq_ok keeping stored htransaction
  cases transaction with
  | none =>
    obtain ⟨rfl, rfl⟩ := alone_ret_eq_ok h
    exact ⟨h1, by simp⟩
  | some t =>
    obtain rfl := ht t rfl
    exact getRest_eq_ok keeping h1 h

theorem asEngine_eq_ok {α : Type} {p : Task α} {a : α}
    (h : (asEngine p).alone env s = (.ok a, s')) : p.alone env s = (.ok a, s') := by
  rw [asEngine, alone_handle] at h
  split at h
  · next hp => exact hp.trans h
  · next e s₁ _ => cases e <;> cases h

theorem attempt_eq_ok {c : Call} {a : c.Answer} (h : (attempt c).alone env s = (.ok a, s')) :
    env.answer (env.wait s) (.call c) = .ok a ∧ s' = env.wait s := by
  obtain ⟨r, s₁, hperform, h⟩ := alone_bind_eq_ok h
  obtain ⟨hr, rfl⟩ := Prod.mk.inj hperform
  obtain rfl := (Except.ok.inj hr).symm
  rw [alone_ofExcept] at h
  exact ⟨(Prod.mk.inj h).1, (Prod.mk.inj h).2.symm⟩

/-- A plan that is validated is executable only where the gate and the policy let the captured
partition pass. -/
theorem validateRecord_eq_ok (shows_ : Shows dev current env)
    (h : (validateRecord cfg task record).alone env s = (.ok v, s')) :
    validatable record.transaction.status = true ∧ (v.executable = true →
      (preflightOf cfg dev record.plan current).candidate record.plan = true) := by
  obtain ⟨_, s₁, hstatus, h⟩ := alone_bind_eq_ok h
  obtain ⟨now, s₂, -, h⟩ := alone_bind_eq_ok h
  obtain ⟨_, s₃, -, h⟩ := alone_bind_eq_ok h
  obtain ⟨layout, s₄, hinspect, h⟩ := alone_bind_eq_ok h
  obtain ⟨hlayout, rfl⟩ := attempt_eq_ok (asEngine_eq_ok hinspect)
  obtain rfl : current = layout := Except.ok.inj ((shows_.inspect _ _).symm.trans hlayout)
  obtain ⟨_, s₅, hidentity, h⟩ := alone_bind_eq_ok h
  obtain ⟨-, rfl⟩ := alone_require_eq_ok hidentity
  obtain ⟨_, s₆, hgeometry, h⟩ := alone_bind_eq_ok h
  obtain ⟨-, rfl⟩ := alone_require_eq_ok hgeometry
  obtain ⟨dev', s₇, hreading, h⟩ := alone_bind_eq_ok h
  obtain ⟨hdev, rfl⟩ := alone_reading_eq_ok hreading
  rw [shows_.devices] at hdev
  subst hdev
  obtain ⟨dryRun, s₈, -, h⟩ := alone_bind_eq_ok h
  obtain ⟨checkpoint, s₉, -, h⟩ := alone_bind_eq_ok h
  obtain ⟨_, s₁₀, -, h⟩ := alone_bind_eq_ok h
  obtain ⟨_, s₁₁, -, h⟩ := alone_bind_eq_ok h
  obtain ⟨rfl, -⟩ := alone_ret_eq_ok h
  refine ⟨(alone_require_eq_ok hstatus).1, fun hexecutable => ?_⟩
  simp only [validatedPlan, stampPlan, Bool.and_eq_true] at hexecutable
  exact hexecutable.1.1

theorem put_eq_ok {writer : Writer} {d : Document} {base : Option StorageOperationRecord} {a : Unit}
    (h : (put task writer d base).alone env s = (.ok a, s')) :
    s' = env.wait ((env.wait (env.wait s)).store task writer d) := by
  obtain ⟨_, s₁, hawait, h⟩ := alone_bind_eq_ok h
  obtain ⟨-, rfl⟩ := attempt_eq_ok hawait
  obtain ⟨written, s₂, hwrite, h⟩ := alone_bind_eq_ok h
  obtain ⟨-, rfl⟩ := Prod.mk.inj hwrite
  obtain ⟨_, s₃, hplace, h⟩ := alone_bind_eq_ok h
  obtain ⟨_, s₄, hawait', h⟩ := alone_bind_eq_ok h
  obtain ⟨-, rfl⟩ := attempt_eq_ok hawait'
  obtain ⟨rfl, rfl⟩ := alone_require_eq_ok h
  rw [Proc.alone_modify_eq_ok hplace]

theorem Stored.putVerification {w : StorageVerification} (h : Stored cfg operationId record s)
    (task : Nat) (writer : Writer) (hw : w.operationId = operationId) :
    Stored cfg operationId { record with verification := some w }
      (s.store task writer (.verification w)) :=
  ⟨h.safe, h.key, h.transaction, h.plan, by simp [State.store, hw]⟩

theorem Stored.putTransaction {t : StorageTransaction} (h : Stored cfg operationId record s)
    (task : Nat) (writer : Writer) (ht : t.operationId = operationId)
    (hplan : t.planId = record.transaction.planId) :
    Stored cfg operationId { record with transaction := t }
      (s.store task writer (.transaction t)) := by
  refine ⟨h.safe, ht, ?_, ?_, h.verification⟩
  · simp [State.store, State.storeTransaction, ht]
  · dsimp only
    rw [hplan]
    exact h.plan

theorem reconcileUnknown_eq_ok (keeping : Keeping cfg operationId env)
    (stored : Stored cfg operationId record s) {w : StorageVerification}
    (h : (reconcileUnknown cfg task operationId sessionId).alone env s = (.ok w, s')) :
    ∃ t v, Stored cfg operationId ⟨record.plan, t, v⟩ s' := by
  obtain ⟨read, s₁, hread, k1⟩ := alone_bind_eq_ok h
  obtain ⟨h1, hsame⟩ := getRecord_eq_ok keeping stored hread
  obtain ⟨read', s₂, hsome, k2⟩ := alone_bind_eq_ok k1
  obtain ⟨rfl, rfl⟩ := alone_ofOption_eq_ok hsome
  obtain ⟨hplan, htransaction⟩ := hsame read' rfl
  split at k2
  · obtain ⟨-, rfl⟩ := alone_ofOption_eq_ok k2
    exact ⟨_, _, h1⟩
  · obtain ⟨_, s₃, hsession, k3⟩ := alone_bind_eq_ok k2
    obtain ⟨-, rfl⟩ := alone_require_eq_ok hsession
    obtain ⟨layout, s₄, hinspect, k4⟩ := alone_bind_eq_ok k3
    obtain ⟨-, rfl⟩ := attempt_eq_ok (asEngine_eq_ok hinspect)
    obtain ⟨now, s₅, hnow, k5⟩ := alone_bind_eq_ok k4
    obtain ⟨-, rfl⟩ := alone_reading_eq_ok hnow
    obtain ⟨_, s₆, hverification, k6⟩ := alone_bind_eq_ok k5
    obtain rfl := put_eq_ok hverification
    obtain ⟨now', s₇, hnow', k7⟩ := alone_bind_eq_ok k6
    obtain ⟨-, rfl⟩ := alone_reading_eq_ok hnow'
    obtain ⟨_, s₈, htransaction', k8⟩ := alone_bind_eq_ok k7
    obtain rfl := put_eq_ok htransaction'
    obtain ⟨-, rfl⟩ := alone_ret_eq_ok k8
    have kept := keeping.kept
    have h2 := (kept _ _ (kept _ _ (kept _ _ h1))).putVerification task .reconciled
      (judge_operationId cfg operationId (cfg.uuid4 task 2) now read'.plan layout)
    refine ⟨_, _, kept _ _
      ((kept _ _ (kept _ _ (kept _ _ h2))).putTransaction task .reconciled ?_ ?_)⟩
    · rw [← h1.key, ← htransaction]
      rfl
    · rw [← htransaction]
      rfl

theorem validateUnknown_eq_ok (keeping : Keeping cfg operationId env)
    (stored : Stored cfg operationId record s)
    (h : (validateUnknown cfg task operationId sessionId).alone env s = (.ok v, s')) :
    v = record.plan := by
  obtain ⟨w, s₁, hreconcile, k1⟩ := alone_bind_eq_ok h
  obtain ⟨t, u, h1⟩ := reconcileUnknown_eq_ok keeping stored hreconcile
  obtain ⟨read, s₂, hread, k2⟩ := alone_bind_eq_ok k1
  obtain ⟨-, hsame⟩ := getRecord_eq_ok keeping h1 hread
  obtain ⟨read', s₃, hsome, k3⟩ := alone_bind_eq_ok k2
  obtain ⟨rfl, rfl⟩ := alone_ofOption_eq_ok hsome
  obtain ⟨_, s₄, hstatus, k4⟩ := alone_bind_eq_ok k3
  obtain ⟨rfl, -⟩ := alone_ret_eq_ok k4
  exact (hsame read' rfl).1

theorem validate_eq_ok (keeping : Keeping cfg operationId env) (shows_ : Shows dev current env)
    (stored : Stored cfg operationId record s)
    (h : (validate cfg task operationId sessionId).alone env s = (.ok v, s'))
    (hexecutable : v.executable = true) :
    record.transaction.status = .unknown ∧ record.plan.executable = true ∨
      validatable record.transaction.status = true ∧
        (preflightOf cfg dev record.plan current).candidate record.plan = true := by
  obtain ⟨read, s₁, hread, k1⟩ := alone_bind_eq_ok h
  obtain ⟨h1, hsame⟩ := getRecord_eq_ok keeping stored hread
  obtain ⟨read', s₂, hsome, k2⟩ := alone_bind_eq_ok k1
  obtain ⟨rfl, rfl⟩ := alone_ofOption_eq_ok hsome
  obtain ⟨hplan, htransaction⟩ := hsame read' rfl
  obtain ⟨_, s₃, hsession, k3⟩ := alone_bind_eq_ok k2
  obtain ⟨-, rfl⟩ := alone_require_eq_ok hsession
  split at k3
  · next hunknown =>
    obtain rfl := validateUnknown_eq_ok keeping h1 k3
    exact .inl ⟨htransaction ▸ hunknown, hexecutable⟩
  · obtain ⟨hstatus, hcandidate⟩ := validateRecord_eq_ok shows_ k3
    rw [hplan] at hcandidate
    rw [htransaction] at hstatus
    exact .inr ⟨hstatus, hcandidate hexecutable⟩

/-! ### An environment in which everything succeeds -/

def readyCheckpoint (plan : StorageOperationPlan) : StorageCheckpointBundle where
  checkpoint := { sampleCheckpoint plan.targetDisk with sessionId := plan.sessionId }
  artifact :=
    { sampleArtifact with
      partitionTableFingerprintSha256 := plan.originalLayout.partitionTable.fingerprintSha256 }

/-- A dry run that finds nothing wrong. -/
def cleanRun : StorageDryRunResult :=
  ⟨sampleSha 'e' '0', sampleSha 'e' '0', sampleSha 'f' '0', 0, true, []⟩

theorem cleanRun_valid : cleanRun.valid = true := rfl

/-- The device shows a layout, the dry run is valid and the checkpoint ready. -/
def permissive (dev : Devices) (current : StorageLayout) (plan : StorageOperationPlan) :
    Env State Res where
  wait s := { s with now := 0, devices := dev }
  answer _
    | .call (.inspect _) => .ok current
    | .call (.dryRun _) => .ok cleanRun
    | .call (.createCheckpoint _) => .ok (readyCheckpoint plan)
    | o => sampleAnswer [] o

section Permissive

variable {plan : StorageOperationPlan}

theorem permissive_calm : Calm (permissive dev current plan) :=
  ⟨fun _ => ⟨0, dev, rfl⟩, fun _ => rfl, fun _ => rfl, fun _ _ _ _ _ => rfl⟩

theorem permissive_keeping : Keeping cfg operationId (permissive dev current plan) :=
  ⟨fun s _ h => h.same (permissive_calm.sameStore s)⟩

theorem permissive_shows : Shows dev current (permissive dev current plan) :=
  ⟨fun _ _ => rfl, fun _ => rfl⟩

theorem getRecord_now {read : StorageOperationRecord}
    (h : (getRecord cfg task operationId).alone (permissive dev current plan) s =
      (.ok (some read), s')) : s'.now = 0 := by
  obtain ⟨transaction, s₁, htransaction, k1⟩ := alone_bind_eq_ok h
  cases transaction with
  | none =>
    obtain ⟨hnone, -⟩ := alone_ret_eq_ok k1
    cases hnone
  | some t =>
    obtain ⟨found, s₂, hplan, k2⟩ := alone_bind_eq_ok k1
    cases found with
    | none =>
      obtain ⟨hnone, -⟩ := alone_ret_eq_ok k2
      cases hnone
    | some p =>
      obtain ⟨verification, s₃, hverification, k3⟩ := alone_bind_eq_ok k2
      obtain ⟨rfl, -⟩ := get_eq_ok hverification
      obtain ⟨-, rfl⟩ := alone_ret_eq_ok k3
      rfl

theorem readyCheckpoint_ready : checkpointReady plan (readyCheckpoint plan).checkpoint = true := by
  simp [checkpointReady, readyCheckpoint, sampleCheckpoint,
    StorageOperationPlan.protectedResourceId]

variable (task dev current s) in
theorem protect_passes {f : Preflight} {dryRun : StorageDryRunResult}
    (hcandidate : f.candidate plan = true) (hvalid : dryRun.valid = true) :
    ∃ c s', (protect cfg task plan f dryRun).alone (permissive dev current plan) s =
      (.ok (some c), s') := by
  have hcreate : ∀ s, (asEngine (attempt (.createCheckpoint
      (stampPlan cfg { preflightPlan cfg plan f with dryRun := some dryRun })))).alone
      (permissive dev current plan) s =
        (.ok (readyCheckpoint plan), (permissive dev current plan).wait s) := by
    intro s
    rw [asEngine, alone_handle, attempt_alone _ rfl]
    rfl
  have hcalm : Calm (permissive dev current plan) := permissive_calm
  obtain ⟨s₂, hartifact, -⟩ := put_alone (s := (permissive dev current plan).wait s) task hcalm
    .validated (.artifact (readyCheckpoint plan).artifact) none
  obtain ⟨s₃, hcheckpoint, -⟩ := put_alone (s := s₂) task hcalm .validated
    (.checkpoint (readyCheckpoint plan).checkpoint) none
  refine ⟨(readyCheckpoint plan).checkpoint, s₃, ?_⟩
  rw [protect, if_pos (by simp [hcandidate, hvalid]), bind_eq, alone_bind_ok (hcreate s),
    bind_eq, alone_bind_ok (alone_require_true ?_), bind_eq,
    alone_bind_ok hartifact, bind_eq, alone_bind_ok hcheckpoint]
  · rfl
  · simp [readyCheckpoint_ready]
    rfl

/-- A plan whose captured partition passes is validated. -/
theorem validateRecord_passes (hstatus : validatable record.transaction.status = true)
    (hnow : s.now < record.plan.expiresAt) (hidentity : identityOk record.plan current = true)
    (hgeometry : sameGeometry cfg current record.plan.originalLayout = true)
    (hcandidate : (preflightOf cfg dev record.plan current).candidate record.plan = true) :
    ∃ v s', (validateRecord cfg task record).alone (permissive dev current record.plan) s =
      (.ok v, s') ∧ v.executable = true := by
  have hcalm : Calm (permissive dev current record.plan) := permissive_calm
  have hdevices : (reading State.devices : Task Devices).alone
      (permissive dev current record.plan) ((permissive dev current record.plan).wait s) =
        (.ok dev, (permissive dev current record.plan).wait s) := rfl
  have hdryRun : (asEngine (attempt (.dryRun (preflightPlan cfg record.plan
      (preflightOf cfg dev record.plan current))))).alone (permissive dev current record.plan)
        ((permissive dev current record.plan).wait s) =
          (.ok cleanRun, (permissive dev current record.plan).wait
            ((permissive dev current record.plan).wait s)) := by
    rw [asEngine, alone_handle, attempt_alone _ rfl]
    rfl
  obtain ⟨c, s₂, hprotect⟩ := protect_passes task
    ((permissive dev current record.plan).wait ((permissive dev current record.plan).wait s))
    current dev hcandidate cleanRun_valid
  set v := validatedPlan cfg record.plan (preflightOf cfg dev record.plan current) cleanRun (some c)
    with hv
  obtain ⟨s₃, hplan, -⟩ := put_alone (s := s₂) task hcalm .validated (.plan v) none
  obtain ⟨s₄, htransaction, -⟩ := put_alone (s := s₃) task hcalm .validated
    (.transaction { record.transaction with
      status := if v.protectionCheckpoint.isSome then .protected_ else .validated
      checkpointId := v.protectionCheckpoint.map (·.id)
      lastKnownStage := some "preflight-completed" }) (some { record with plan := v })
  refine ⟨v, s₄, ?_, ?_⟩
  · rw [validateRecord, bind_eq, alone_bind_ok (alone_require_true hstatus)]
    dsimp only
    rw [bind_eq, alone_bind_ok (alone_reading _), bind_eq,
      alone_bind_ok (alone_require_true (by simpa using hnow)), bind_eq,
      alone_bind_ok (inspect_alone_ok rfl), bind_eq,
      alone_bind_ok (alone_require_true hidentity), bind_eq,
      alone_bind_ok (alone_require_true hgeometry), bind_eq,
      alone_bind_ok hdevices, bind_eq, alone_bind_ok hdryRun, bind_eq,
      alone_bind_ok hprotect, ← hv, storeValidated, bind_eq, alone_bind_ok hplan,
      bind_eq]
    exact alone_bind_ok htransaction
  · simp [hv, validatedPlan, stampPlan, hcandidate, cleanRun_valid]

theorem Reconciled.settled {w : StorageVerification} {t : StorageTransaction}
    (h : Reconciled cfg plan current t w) (hidentity : identityOk plan current = true)
    (hgeometry : sameGeometry cfg current plan.originalLayout = true) : t.status ≠ .unknown := by
  have hid := of_decide_eq_true hidentity
  have hgeo := of_decide_eq_true hgeometry
  intro hunknown
  by_cases hproposed : partitionGeometrySignature cfg.lib current.partitionTable =
      partitionGeometrySignature cfg.lib plan.proposedLayout.partitionTable
  · have := h.committed.2 ⟨hid, hproposed⟩
    simp [hunknown] at this
  · have := h.aborted.2 ⟨hid, hgeo, hproposed⟩
    simp [hunknown] at this

theorem validateUnknown_passes (stored : Stored cfg operationId record s)
    (hstatus : record.transaction.status = .unknown)
    (hsession : record.transaction.sessionId = sessionId)
    (hidentity : identityOk record.plan current = true)
    (hgeometry : sameGeometry cfg current record.plan.originalLayout = true) :
    ∃ s', (validateUnknown cfg task operationId sessionId).alone
      (permissive dev current record.plan) s = (.ok record.plan, s') := by
  have hcalm : Calm (permissive dev current record.plan) := permissive_calm
  obtain ⟨s₁, same, hcall⟩ := reconcileUnknown_unknown task hcalm stored hstatus hsession
  obtain ⟨w, t, s₂, hreinspect, stored', hreconciled⟩ :=
    reinspect_alone task hcalm (stored.same same) fun _ => rfl
  obtain ⟨s₃, hrecord, -⟩ := getRecord_alone task hcalm stored'
  refine ⟨s₃, ?_⟩
  rw [validateUnknown, bind_eq, alone_bind_ok (hcall.trans hreinspect)]
  dsimp only
  rw [bind_eq, alone_bind_ok hrecord, bind_eq,
    alone_bind_ok (alone_ofOption _ _), bind_eq,
    alone_bind_ok (alone_require_true ?_)]
  · rfl
  · simpa using hreconciled.settled hidentity hgeometry

variable (sessionId task dev) in
/-- Where nothing that the validation looks at stops it, there is an environment in which it returns
an executable plan. -/
theorem validate_passes (stored : Stored cfg operationId record s)
    (hsession : record.transaction.sessionId = sessionId) (hexpires : 0 < record.plan.expiresAt)
    (hidentity : identityOk record.plan current = true)
    (hgeometry : sameGeometry cfg current record.plan.originalLayout = true)
    (h : record.transaction.status = .unknown ∧ record.plan.executable = true ∨
      validatable record.transaction.status = true ∧
        (preflightOf cfg dev record.plan current).candidate record.plan = true) :
    ∃ v s', (validate cfg task operationId sessionId).alone (permissive dev current record.plan) s =
      (.ok v, s') ∧ v.executable = true := by
  have hcalm : Calm (permissive dev current record.plan) := permissive_calm
  obtain ⟨s₁, hrecord, same⟩ := getRecord_alone task hcalm stored
  have hstart : (validate cfg task operationId sessionId).alone
      (permissive dev current record.plan) s =
        (if record.transaction.status = .unknown then validateUnknown cfg task operationId sessionId
          else validateRecord cfg task record).alone (permissive dev current record.plan) s₁ := by
    rw [validate, bind_eq, alone_bind_ok hrecord, bind_eq,
      alone_bind_ok (alone_ofOption _ _), bind_eq,
      alone_bind_ok (alone_require_true (by simpa using hsession))]
  rw [hstart]
  rcases h with ⟨hunknown, hexecutable⟩ | ⟨hstatus, hcandidate⟩
  · rw [if_pos hunknown]
    obtain ⟨s₂, h⟩ := validateUnknown_passes (stored.same same) hunknown hsession hidentity hgeometry
    exact ⟨record.plan, s₂, h, hexecutable⟩
  · rw [if_neg (by rintro hunknown; simp [hunknown, validatable] at hstatus)]
    refine validateRecord_passes hstatus ?_ hidentity hgeometry hcandidate
    rw [getRecord_now hrecord]
    exact hexpires

end Permissive

/-! ### The judgement -/

/-- Something stops the validation of a delete, or keeps it from returning an executable plan, by
what the plan captured, by the status of the operation or by the gate. -/
inductive Stops (cfg : Config) (dev : Devices) (record : StorageOperationRecord)
    (target : PartitionResource) (current : StorageLayout) : Prop
  | settled (unknown : record.transaction.status ≠ .unknown)
    (h : validatable record.transaction.status = false)
  | unknown (h : record.transaction.status = .unknown) (plan : record.plan.executable = false)
  | gate (h : record.transaction.status ≠ .unknown)
    (refused : (cfg.gate.evaluate dev current.disk.identity).allowed = false)
  | captured (h : record.transaction.status ≠ .unknown) (shown : StillShown current target)

theorem stops_iff (hdelete : record.plan.operation = .delete)
    (htarget : record.plan.targetPartition = some target) :
    Stops cfg dev record target current ↔
      ¬(record.transaction.status = .unknown ∧ record.plan.executable = true ∨
        validatable record.transaction.status = true ∧
          (preflightOf cfg dev record.plan current).candidate record.plan = true) := by
  have hcandidate : (preflightOf cfg dev record.plan current).candidate record.plan = true ↔
      (cfg.gate.evaluate dev current.disk.identity).allowed = true ∧ ¬StillShown current target := by
    rw [← deletable_iff_not_stillShown, Deletable, Preflight.candidate, preflightOf, hdelete, htarget]
    simp [adapterEnabled, and_assoc]
  rw [hcandidate]
  by_cases hunknown : record.transaction.status = .unknown
  · have hnot : validatable record.transaction.status = false := by simp [hunknown, validatable]
    rw [hnot]
    constructor
    · rintro (⟨h, -⟩ | ⟨-, hplan⟩ | ⟨h, -⟩ | ⟨h, -⟩)
      · exact absurd hunknown h
      · simp [hplan]
      · exact absurd hunknown h
      · exact absurd hunknown h
    · intro h
      exact .unknown hunknown (by simpa [hunknown] using h)
  · constructor
    · rintro (⟨-, h⟩ | ⟨h, -⟩ | ⟨-, h⟩ | ⟨-, h⟩)
      · simp [hunknown, h]
      · exact absurd h hunknown
      · simp [hunknown, h]
      · simp [hunknown, h]
    · intro h
      by_contra hstops
      refine h (.inr ⟨?_, ?_, fun hshown => hstops (.captured hunknown hshown)⟩)
      · exact Bool.eq_true_of_not_eq_false fun h => hstops (.settled hunknown h)
      · exact Bool.eq_true_of_not_eq_false fun h => hstops (.gate hunknown h)

/-- Every validation of a stored delete whose inspection shows a layout with the device and the
geometry of the plan returns an executable plan only if the partition is clean in that layout,
exactly where the partition is clean or something stops the validation. -/
theorem delete_judged_iff (cfg : Config) (task : Nat) (operationId sessionId : String)
    (record : StorageOperationRecord) (s : State) (target : PartitionResource)
    (current : StorageLayout) (dev : Devices) (stored : Stored cfg operationId record s)
    (hsession : record.transaction.sessionId = sessionId) (hexpires : 0 < record.plan.expiresAt)
    (hdelete : record.plan.operation = .delete)
    (htarget : record.plan.targetPartition = some target)
    (hidentity : identityOk record.plan current = true)
    (hgeometry : sameGeometry cfg current record.plan.originalLayout = true) :
    (∀ env, Keeping cfg operationId env → Shows dev current env → ∀ v s',
      (validate cfg task operationId sessionId).alone env s = (.ok v, s') → v.executable = true →
        Clean current target.number) ↔
      Clean current target.number ∨ Stops cfg dev record target current := by
  rw [stops_iff hdelete htarget]
  constructor
  · intro h
    by_contra hnot
    rw [not_or, not_not] at hnot
    obtain ⟨v, s', hvalidate, hexecutable⟩ :=
      validate_passes sessionId task dev stored hsession hexpires hidentity hgeometry hnot.2
    exact hnot.1 (h _ permissive_keeping permissive_shows v s' hvalidate hexecutable)
  · rintro (hclean | hstops) env keeping shows_ v s' hvalidate hexecutable
    · exact hclean
    · exact absurd (validate_eq_ok keeping shows_ stored hvalidate hexecutable) hstops

/-! ### A file system that is made after planning -/

/-- The plan to delete the sample partition, as it was planned. -/
def deletePlan : StorageOperationPlan :=
  { samplePlan sampleIdentity with
    capability := .delete
    operation := .delete
    targetPartition := some samplePartition
    originalLayout := sampleLayout sampleIdentity [samplePartition]
    proposedLayout := sampleLayout sampleIdentity []
    protectionCheckpoint := none
    dryRun := none
    executable := false }

def deleteRecord : StorageOperationRecord where
  plan := deletePlan
  transaction := plannedTransaction sampleConfig deletePlan "user" 0
  verification := none

/-- A store with the planned delete. -/
def deleteState : State :=
  State.start 0 sampleDevices (fun id => if id = "plan-one" then some deletePlan else none)
    (fun id => if id = "operation" then some deleteRecord.transaction else none) (fun _ => none)
    (fun _ => none) (fun _ => none)

theorem deleteState_stored : Stored sampleConfig "operation" deleteRecord deleteState := by
  have hplan : safeId sampleConfig "plan-one" = "plan-one" := by decide
  refine ⟨by decide, rfl, rfl, ?_, rfl⟩
  show deleteState.plans (safeId sampleConfig "plan-one") = _
  rw [hplan]
  rfl

/-- The layout after a file system was made on the partition. -/
def formattedLayout : StorageLayout :=
  { sampleLayout sampleIdentity [{ samplePartition with filesystemId := some "filesystem:new" }] with
    filesystems := [{
      id := "filesystem:new"
      devicePath := "/dev/loop0p1"
      filesystemType := some "ext4"
      uuid := none
      label := none
      totalBytes := none
      usedBytes := none
      availableBytes := none
      resizeSupport := .shrinkAndGrow }] }

theorem formatted_same : identityOk deletePlan formattedLayout = true ∧
    sameGeometry sampleConfig formattedLayout deletePlan.originalLayout = true := by
  decide +kernel

theorem delete_judged_sample :
    (∀ env, Keeping sampleConfig "operation" env → Shows sampleDevices formattedLayout env →
      ∀ v s', (validate sampleConfig 0 "operation" "session1").alone env deleteState = (.ok v, s') →
        v.executable = true → Clean formattedLayout 1) ↔
      Clean formattedLayout 1 ∨
        Stops sampleConfig sampleDevices deleteRecord samplePartition formattedLayout :=
  delete_judged_iff sampleConfig 0 "operation" "session1" deleteRecord deleteState samplePartition
    formattedLayout sampleDevices deleteState_stored rfl (by decide) rfl rfl formatted_same.1
    formatted_same.2

/-- The file system that was made after planning does not keep the delete from being executable. -/
theorem delete_judged_on_old : ¬ ∀ (cfg : Config) (task : Nat) (operationId sessionId : String)
    (record : StorageOperationRecord) (s : State) (target : PartitionResource)
    (current : StorageLayout) (dev : Devices) (env : Env State Res) (v : StorageOperationPlan)
    (s' : State), Stored cfg operationId record s → record.plan.operation = .delete →
    record.plan.targetPartition = some target → identityOk record.plan current = true →
    sameGeometry cfg current record.plan.originalLayout = true → Keeping cfg operationId env →
    Shows dev current env →
    (validate cfg task operationId sessionId).alone env s = (.ok v, s') → v.executable = true →
    Clean current target.number := by
  intro h
  obtain ⟨v, s', hvalidate, hexecutable⟩ := validate_passes "session1" 0 sampleDevices
    deleteState_stored rfl (by decide) formatted_same.1 formatted_same.2
    (.inr ⟨rfl, by decide +kernel⟩)
  have hclean := h _ _ _ _ _ _ samplePartition _ _ _ _ _ deleteState_stored rfl rfl
    formatted_same.1 formatted_same.2 permissive_keeping permissive_shows hvalidate hexecutable
  exact absurd (hclean.filesystem _ List.mem_cons_self rfl) (by decide)

end Ares.Operations
