import Ares.Coop.Alone
import Ares.Operations.Engine

/-! The reconciliation of an operation whose outcome is unknown, when nothing else happens to the
operation: the verdict that a reinspection reaches, what it stores, and the calls after a verdict. -/

namespace Ares.Operations

open Coop Data Storage

/-- Two states with the same documents and the same grants. -/
structure SameStore (s s' : State) : Prop where
  plans : s'.plans = s.plans
  transactions : s'.transactions = s.transactions
  verifications : s'.verifications = s.verifications
  artifacts : s'.artifacts = s.artifacts
  checkpoints : s'.checkpoints = s.checkpoints
  grants : s'.grants = s.grants

namespace SameStore

variable {s s' s'' : State}

theorem refl (s : State) : SameStore s s := ⟨rfl, rfl, rfl, rfl, rfl, rfl⟩

theorem trans (h : SameStore s s') (h' : SameStore s' s'') : SameStore s s'' :=
  ⟨h'.plans.trans h.plans, h'.transactions.trans h.transactions,
    h'.verifications.trans h.verifications, h'.artifacts.trans h.artifacts,
    h'.checkpoints.trans h.checkpoints, h'.grants.trans h.grants⟩

theorem see (task : Nat) (t : StorageTransaction) (s : State) : SameStore s (s.see task t) := by
  unfold State.see
  split
  · exact refl s
  · exact ⟨rfl, rfl, rfl, rfl, rfl, rfl⟩

theorem store (h : SameStore s s') (task : Nat) (writer : Writer) (d : Document) :
    SameStore (s.store task writer d) (s'.store task writer d) := by
  obtain ⟨hp, ht, hv, ha, hc, hg⟩ := h
  cases d <;> constructor <;> simp [State.store, State.storeTransaction, hp, ht, hv, ha, hc, hg]

end SameStore

/-- An environment in which the files and the locks work and only the clock and the devices
move. -/
structure Calm (env : Env State Res) : Prop where
  wait : ∀ s, ∃ now devices, env.wait s = { s with now, devices }
  await : ∀ s, env.answer s (.call .await) = .ok ()
  read : ∀ s, env.answer s (.call .read) = .ok true
  write : ∀ s task writer document base, env.answer s (.write task writer document base) = true

theorem Calm.sameStore {env : Env State Res} (calm : Calm env) (s : State) :
    SameStore s (env.wait s) := by
  obtain ⟨now, devices, h⟩ := calm.wait s
  rw [h]
  exact ⟨rfl, rfl, rfl, rfl, rfl, rfl⟩

/-- The record of an operation, in the files of the store that are named after it. -/
structure Stored (cfg : Config) (operationId : String) (record : StorageOperationRecord)
    (s : State) : Prop where
  safe : isSafeId cfg operationId = true
  key : record.transaction.operationId = operationId
  transaction : s.transactions operationId = some record.transaction
  plan : s.plans (safeId cfg record.transaction.planId) = some record.plan
  verification : s.verifications operationId = record.verification

theorem Stored.same {cfg : Config} {operationId : String} {record : StorageOperationRecord}
    {s s' : State} (h : Stored cfg operationId record s) (same : SameStore s s') :
    Stored cfg operationId record s' :=
  ⟨h.safe, h.key, by rw [same.transactions, h.transaction], by rw [same.plans, h.plan],
    by rw [same.verifications, h.verification]⟩

/-! ### The store, alone -/

section Alone

variable {cfg : Config} {env : Env State Res} {operationId : String}
  {record : StorageOperationRecord} {s : State}

theorem attempt_alone (c : Call) {r : Except Error c.Answer}
    (h : env.answer (env.wait s) (.call c) = r) :
    (attempt c).alone env s = (r, env.wait s) := by
  have hp : (perform (Op.call c) : Task (Res (.call c))).alone env s = (.ok r, env.wait s) := by
    rw [Proc.alone_perform, h]
  rw [attempt, Proc.attempt, alone_bind_ok hp, alone_ofExcept]

theorem get_alone {α : Type} (calm : Calm env) (find : State → Option α) :
    (get find).alone env s = (.ok (find (env.wait s)), env.wait s) := by
  have hread := attempt_alone (s := s) .read (calm.read (env.wait s))
  rw [get, bind_eq, alone_bind_ok hread, if_pos rfl, alone_reading]

theorem getRecord_alone (task : Nat) (calm : Calm env) (stored : Stored cfg operationId record s) :
    ∃ s', (getRecord cfg task operationId).alone env s = (.ok (some record), s') ∧
      SameStore s s' := by
  have hid : safeId cfg operationId = operationId := if_pos stored.safe
  have h1 := stored.same (calm.sameStore s)
  have htransaction : (getTransaction cfg task operationId).alone env s =
      (.ok (some record.transaction), (env.wait s).see task record.transaction) := by
    rw [getTransaction, bind_eq, alone_bind_ok (get_alone calm _), hid, h1.transaction]
    rfl
  have same2 := (calm.sameStore s).trans (.see task record.transaction (env.wait s))
  have same3 := same2.trans (calm.sameStore _)
  have same4 := same3.trans (calm.sameStore _)
  have hplan := get_alone (s := (env.wait s).see task record.transaction) calm
    fun s => s.plans (safeId cfg record.transaction.planId)
  have hverification := get_alone
    (s := env.wait ((env.wait s).see task record.transaction)) calm
    fun s => s.verifications (safeId cfg operationId)
  rw [(stored.same same3).plan] at hplan
  rw [hid, (stored.same same4).verification] at hverification
  refine ⟨_, ?_, same4⟩
  rw [getRecord, bind_eq, alone_bind_ok htransaction]
  show (getRest cfg operationId record.transaction).alone env _ = _
  rw [getRest, bind_eq, getPlan, alone_bind_ok hplan]
  show Proc.alone env (Proc.bind (getVerification cfg operationId) _) _ = _
  rw [getVerification, hid, alone_bind_ok hverification]
  rfl

theorem put_alone (task : Nat) (calm : Calm env) (writer : Writer) (d : Document)
    (base : Option StorageOperationRecord) :
    ∃ s', (put task writer d base).alone env s = (.ok (), s') ∧
      SameStore (s.store task writer d) s' := by
  have hwrite : (perform (Op.write task writer d base) : Task Bool).alone env (env.wait s) =
      (.ok true, env.wait (env.wait s)) := by
    rw [Proc.alone_perform, calm.write]
  have same := ((calm.sameStore s).trans (calm.sameStore _)).store task writer d
  refine ⟨_, ?_, same.trans (calm.sameStore _)⟩
  rw [put, bind_eq, alone_bind_ok (attempt_alone .await (calm.await _)), bind_eq,
    alone_bind_ok hwrite]
  have hplace : (write task writer d true).alone env (env.wait (env.wait s)) =
      (.ok (), (env.wait (env.wait s)).store task writer d) := rfl
  rw [bind_eq, alone_bind_ok hplace, bind_eq,
    alone_bind_ok (attempt_alone .await (calm.await _))]
  rfl

theorem inspect_alone_ok {target : String} {layout : StorageLayout}
    (h : env.answer (env.wait s) (.call (.inspect target)) = .ok layout) :
    (inspect target).alone env s = (.ok layout, env.wait s) := by
  rw [inspect, asEngine, alone_handle, attempt_alone _ h]

theorem inspect_alone_error {target : String} {e : Error}
    (h : env.answer (env.wait s) (.call (.inspect target)) = .error e) :
    ∃ e', (inspect target).alone env s = (.error e', env.wait s) := by
  rw [inspect, asEngine, alone_handle, attempt_alone _ h]
  cases e <;> exact ⟨_, rfl⟩

end Alone

/-! ### The verdict -/

section Verdict

variable (cfg : Config) (operationId id : String) (now : DateTime) (plan : StorageOperationPlan)
  (current : StorageLayout)

theorem judge_status : (judge cfg operationId id now plan current).status =
      if identityOk plan current then
        if sameGeometry cfg current plan.proposedLayout then .committed
        else if sameGeometry cfg current plan.originalLayout then .aborted else .unknown
      else .unknown := by
  unfold judge
  cases identityOk plan current <;> cases sameGeometry cfg current plan.proposedLayout <;>
    cases sameGeometry cfg current plan.originalLayout <;> rfl

theorem judge_operationId :
    (judge cfg operationId id now plan current).verification.operationId = operationId := by
  unfold judge
  dsimp only
  split
  · rfl
  · split <;> rfl

theorem judge_after :
    (judge cfg operationId id now plan current).verification.after = some current := by
  unfold judge
  dsimp only
  split
  · rfl
  · split <;> rfl

end Verdict

/-- What the stored record of an operation says after the layout `current` was observed: `t` is
its transaction and `v` its verification. -/
structure Reconciled (cfg : Config) (plan : StorageOperationPlan) (current : StorageLayout)
    (t : StorageTransaction) (v : StorageVerification) : Prop where
  committed : t.status = .committed ↔
    current.disk.identity.fingerprintSha256 = plan.targetDisk.fingerprintSha256 ∧
    partitionGeometrySignature cfg.lib current.partitionTable =
      partitionGeometrySignature cfg.lib plan.proposedLayout.partitionTable
  aborted : t.status = .aborted ↔
    current.disk.identity.fingerprintSha256 = plan.targetDisk.fingerprintSha256 ∧
    partitionGeometrySignature cfg.lib current.partitionTable =
      partitionGeometrySignature cfg.lib plan.originalLayout.partitionTable ∧
    partitionGeometrySignature cfg.lib current.partitionTable ≠
      partitionGeometrySignature cfg.lib plan.proposedLayout.partitionTable
  unknown : t.status ≠ .committed → t.status ≠ .aborted → t.status = .unknown
  required : t.reconciliationRequired = true ↔ t.status = .unknown
  finished : t.finishedAt.isSome ↔ t.status = .committed ∨ t.status = .aborted
  verificationId : t.verificationId = some v.id
  layout : v.after = some current ∧
    t.afterLayoutSha256 = some (layoutFingerprint cfg.lib current)

theorem reconciled_judge (cfg : Config) (operationId id : String) (now now' : DateTime)
    (plan : StorageOperationPlan) (current : StorageLayout) (t : StorageTransaction) :
    Reconciled cfg plan current
      (reconciledTransaction cfg t (judge cfg operationId id now plan current) current now')
      (judge cfg operationId id now plan current).verification := by
  have hstatus := judge_status cfg operationId id now plan current
  have hafter := judge_after cfg operationId id now plan current
  generalize judge cfg operationId id now plan current = verdict at hstatus hafter
  constructor <;> simp only [reconciledTransaction, hstatus, identityOk, sameGeometry] <;> grind

section Calls

variable {cfg : Config} {env : Env State Res} {operationId : String}
  {record : StorageOperationRecord} {s : State}

theorem reinspect_alone (task : Nat) (calm : Calm env) (stored : Stored cfg operationId record s)
    {current : StorageLayout}
    (hinspect : ∀ s, env.answer s (.call (.inspect record.plan.targetDisk.requestedPath)) =
      .ok current) :
    ∃ v t s', (reinspect cfg task operationId record).alone env s = (.ok v, s') ∧
      Stored cfg operationId ⟨record.plan, t, some v⟩ s' ∧
      Reconciled cfg record.plan current t v := by
  set verdict := judge cfg operationId (cfg.uuid4 task 2) (env.wait s).now record.plan current
    with hverdict
  obtain ⟨s1, hverification, same1⟩ := put_alone (s := env.wait s) task calm .reconciled
    (.verification verdict.verification) none
  set t := reconciledTransaction cfg record.transaction verdict current s1.now with ht
  obtain ⟨s2, htransaction, same2⟩ := put_alone (s := s1) task calm .reconciled
    (.transaction t) (some record)
  have same := (((calm.sameStore s).store task .reconciled
    (.verification verdict.verification)).trans same1).store task .reconciled (.transaction t)
  have hkey : verdict.verification.operationId = operationId := judge_operationId ..
  refine ⟨verdict.verification, t, s2, ?_, ?_, ?_⟩
  · rw [reinspect, bind_eq, alone_bind_ok (inspect_alone_ok (hinspect _)), bind_eq,
      alone_bind_ok (alone_reading _), bind_eq, alone_bind_ok hverification,
      bind_eq, alone_bind_ok (alone_reading _), bind_eq]
    exact alone_bind_ok htransaction
  · have hstored : Stored cfg operationId ⟨record.plan, t, some verdict.verification⟩
        ((s.store task .reconciled (.verification verdict.verification)).store task .reconciled
          (.transaction t)) := by
      refine ⟨stored.safe, stored.key, ?_, stored.plan, ?_⟩
      · have ht' : t.operationId = operationId := stored.key
        simp [State.store, State.storeTransaction, ht']
      · simp [State.store, State.storeTransaction, hkey]
    exact (hstored.same same).same same2
  · exact reconciled_judge cfg operationId _ _ _ record.plan current record.transaction

theorem reconcileUnknown_settled (task : Nat) (sessionId : String) (calm : Calm env)
    (stored : Stored cfg operationId record s) {v : StorageVerification}
    (hv : record.verification = some v)
    (hstatus : record.transaction.status ≠ .unknown) :
    ∃ s', (reconcileUnknown cfg task operationId sessionId).alone env s = (.ok v, s') ∧
      SameStore s s' := by
  obtain ⟨s', hrecord, same⟩ := getRecord_alone task calm stored
  refine ⟨s', ?_, same⟩
  rw [reconcileUnknown, bind_eq, alone_bind_ok hrecord]
  show Proc.alone env (Proc.bind (ofOption _ (some record)) _) s' = _
  rw [alone_bind_ok (alone_ofOption _ _), if_pos hstatus, alone_ofOption, hv]
  rfl

theorem reconcileUnknown_unknown (task : Nat) {sessionId : String} (calm : Calm env)
    (stored : Stored cfg operationId record s) (hstatus : record.transaction.status = .unknown)
    (hsession : record.transaction.sessionId = sessionId) :
    ∃ s', SameStore s s' ∧ (reconcileUnknown cfg task operationId sessionId).alone env s =
      (reinspect cfg task operationId record).alone env s' := by
  obtain ⟨s', hrecord, same⟩ := getRecord_alone task calm stored
  refine ⟨s', same, ?_⟩
  rw [reconcileUnknown, bind_eq, alone_bind_ok hrecord]
  show Proc.alone env (Proc.bind (ofOption _ (some record)) _) s' = _
  rw [alone_bind_ok (alone_ofOption _ _), if_neg (by simp [hstatus]), bind_eq]
  refine alone_bind_ok (a := ()) ?_
  simp [hsession]

theorem reinspect_failed (cfg : Config) (task : Nat) (operationId : String) (s : State)
    (calm : Calm env) {e : Error}
    (hinspect : ∀ s, env.answer s (.call (.inspect record.plan.targetDisk.requestedPath)) =
      .error e) :
    ∃ e' s', (reinspect cfg task operationId record).alone env s = (.error e', s') ∧
      SameStore s s' := by
  obtain ⟨e', he⟩ := inspect_alone_error (s := s) (hinspect _)
  refine ⟨e', env.wait s, ?_, calm.sameStore s⟩
  rw [reinspect, bind_eq]
  exact Proc.alone_bind_error he

end Calls

/-! ### Later calls -/

/-- A call of `reconcile_unknown` that is made later: what happened before it, to the rest of the
system, and the environment that it meets. -/
structure LaterCall where
  before : State → State
  env : Env State Res
  task : Nat
  sessionId : String

/-- The record of the operation is still in place when the call begins. -/
structure LaterCall.Undisturbed (cfg : Config) (operationId : String) (c : LaterCall) : Prop where
  kept : ∀ s record, Stored cfg operationId record s → Stored cfg operationId record (c.before s)
  calm : Calm c.env

/-- The calls of a list, each with the state that it finds, its answer and the state that it
leaves. -/
def laterCalls (cfg : Config) (operationId : String) :
    List LaterCall → State → List (State × Except Error StorageVerification × State)
  | [], _ => []
  | c :: cs, s =>
    let r := (reconcileUnknown cfg c.task operationId c.sessionId).alone c.env (c.before s)
    (c.before s, r) :: laterCalls cfg operationId cs r.2

theorem laterCalls_inert {cfg : Config} {operationId : String} {record : StorageOperationRecord}
    {v : StorageVerification} (hv : record.verification = some v)
    (hstatus : record.transaction.status ≠ .unknown) {cs : List LaterCall}
    (undisturbed : ∀ c ∈ cs, c.Undisturbed cfg operationId) {s : State}
    (stored : Stored cfg operationId record s) :
    ∀ r ∈ laterCalls cfg operationId cs s, r.2.1 = .ok v ∧ SameStore r.1 r.2.2 := by
  induction cs generalizing s with
  | nil => simp [laterCalls]
  | cons c cs ih =>
    have hc := undisturbed c List.mem_cons_self
    have stored' := hc.kept s record stored
    obtain ⟨s', hcall, same⟩ := reconcileUnknown_settled c.task c.sessionId
      hc.calm stored' hv hstatus
    intro r hr
    simp only [laterCalls, hcall, List.mem_cons] at hr
    rcases hr with rfl | hr
    · exact ⟨rfl, same⟩
    · exact ih (fun c hc => undisturbed c (List.mem_cons_of_mem _ hc)) (stored'.same same) r hr

/-! ### The executor -/

/-- The calls that `executor.execute` makes. -/
def Executing : Op → Prop
  | .call .connect | .call .message | .call (.outcome _) | .rounds => True
  | _ => False

theorem attempt_avoids {c : Call} (h : ¬Executing (.call c)) : (attempt c).Avoids Executing :=
  (avoids_perform h).bind fun _ => avoids_ofExcept _

theorem get_avoids {α : Type} (find : State → Option α) : (get find).Avoids Executing := by
  refine (attempt_avoids id).bind fun readable => ?_
  cases readable
  · trivial
  · exact avoids_reading _

theorem getRecord_avoids (cfg : Config) (task : Nat) (operationId : String) :
    (getRecord cfg task operationId).Avoids Executing := by
  refine Proc.Avoids.bind ?_ fun transaction => ?_
  · refine (get_avoids _).bind fun t => ?_
    cases t
    · trivial
    · exact (avoids_modify _).bind fun _ => trivial
  · cases transaction
    · trivial
    · refine (get_avoids _).bind fun plan => ?_
      cases plan
      · trivial
      · exact (get_avoids _).bind fun _ => trivial

theorem put_avoids (task : Nat) (writer : Writer) (d : Document)
    (base : Option StorageOperationRecord) : (put task writer d base).Avoids Executing := by
  refine (attempt_avoids id).bind fun _ => (avoids_perform id).bind fun written => ?_
  refine Proc.Avoids.bind ?_ fun _ =>
    (attempt_avoids (c := .await) id).bind fun _ => avoids_require _ _
  cases written
  · trivial
  · exact avoids_modify _

theorem reconcileUnknown_avoids (cfg : Config) (task : Nat) (operationId sessionId : String) :
    (reconcileUnknown cfg task operationId sessionId).Avoids Executing := by
  refine (getRecord_avoids _ _ _).bind fun record => (avoids_ofOption _ _).bind fun record => ?_
  split
  · exact avoids_ofOption _ _
  · refine (avoids_require _ _).bind fun _ => ?_
    refine Proc.Avoids.bind ?_ fun current => (avoids_reading _).bind fun now => ?_
    · refine Proc.Avoids.handle (attempt_avoids id) fun e => ?_
      cases e <;> trivial
    · exact (put_avoids _ _ _ _).bind fun _ => (avoids_reading _).bind fun _ =>
        (put_avoids _ _ _ _).bind fun _ => trivial

/-- The reconciliation of an unknown operation of the session, in an environment that lets it be:
the executor is never asked to execute; an observed layout decides the status and the fields that
go with it, and after a verdict every later call is inert; without a layout nothing changes. -/
theorem reconciliation_verdict (cfg : Config) (env : Env State Res) (s : State) (task : Nat)
    (operationId sessionId : String) (record : StorageOperationRecord) (calm : Calm env)
    (stored : Stored cfg operationId record s) (hstatus : record.transaction.status = .unknown)
    (hsession : record.transaction.sessionId = sessionId) :
    (reconcileUnknown cfg task operationId sessionId).Avoids Executing ∧
    (∀ current, (∀ s, env.answer s (.call (.inspect record.plan.targetDisk.requestedPath)) =
        .ok current) →
      ∃ v t s', (reconcileUnknown cfg task operationId sessionId).alone env s = (.ok v, s') ∧
        Stored cfg operationId ⟨record.plan, t, some v⟩ s' ∧
        Reconciled cfg record.plan current t v ∧
        (t.status = .committed ∨ t.status = .aborted →
          ∀ cs, (∀ c ∈ cs, LaterCall.Undisturbed cfg operationId c) →
            ∀ r ∈ laterCalls cfg operationId cs s', r.2.1 = .ok v ∧ SameStore r.1 r.2.2)) ∧
    (∀ e, (∀ s, env.answer s (.call (.inspect record.plan.targetDisk.requestedPath)) =
        .error e) →
      ∃ e' s', (reconcileUnknown cfg task operationId sessionId).alone env s = (.error e', s') ∧
        SameStore s s') := by
  obtain ⟨s1, same1, hcall⟩ := reconcileUnknown_unknown task calm stored hstatus hsession
  refine ⟨reconcileUnknown_avoids .., fun current hinspect => ?_, fun e hinspect => ?_⟩
  · obtain ⟨v, t, s', hend, stored', reconciled⟩ :=
      reinspect_alone task calm (stored.same same1) hinspect
    refine ⟨v, t, s', hcall.trans hend, stored', reconciled, fun hsettled cs undisturbed => ?_⟩
    have hknown : t.status ≠ .unknown := by
      rcases hsettled with h | h <;> simp [h]
    exact laterCalls_inert (v := v) rfl hknown undisturbed stored'
  · obtain ⟨e', s', hend, same⟩ := reinspect_failed cfg task operationId s1 calm hinspect
    exact ⟨e', s', hcall.trans hend, same1.trans same⟩

/-! ### A sample operation -/

def sampleConfig : Config where
  lib := sampleDigests
  gate := ⟨false, [sampleRoot]⟩
  isalnum := Char.isAlphanum
  uuid4 task n := String.ofList (List.replicate (task + 8) 'a' ++ List.replicate n 'b')
  propose _ original _ _ := .ok (sampleLayout original.disk.identity [samplePartition], none)

def sampleTransaction (status : StorageTransactionStatus) : StorageTransaction :=
  { plannedTransaction sampleConfig (samplePlan sampleIdentity) "user" 0 with
    status
    checkpointId := some "checkpoint" }

/-- A store with the sample operation and its checkpoint. -/
def sampleState (status : StorageTransactionStatus) : State :=
  State.start 0 sampleDevices
    (fun id => if id = "plan-one" then some (samplePlan sampleIdentity) else none)
    (fun id => if id = "operation" then some (sampleTransaction status) else none)
    (fun _ => none)
    (fun id => if id = "checkpoint" then some sampleArtifact else none)
    (fun id => if id = "checkpoint" then some (sampleCheckpoint sampleIdentity) else none)

theorem sampleState_stored (status : StorageTransactionStatus) :
    Stored sampleConfig "operation"
      ⟨samplePlan sampleIdentity, sampleTransaction status, none⟩ (sampleState status) := by
  have hplan : safeId sampleConfig "plan-one" = "plan-one" := by decide
  refine ⟨by decide, rfl, rfl, ?_, rfl⟩
  show (sampleState status).plans (safeId sampleConfig "plan-one") = _
  rw [hplan]
  rfl

theorem sampleState_keyed (status : StorageTransactionStatus) (k : String) (t : StorageTransaction)
    (h : (sampleState status).transactions k = some t) : t.operationId = k := by
  simp only [sampleState, State.start] at h
  split at h
  · next hk =>
    rw [Option.some.injEq] at h
    rw [← h, hk]
    rfl
  · cases h

/-- The broker of the samples: every call succeeds, and the device shows `partitions`. -/
def sampleAnswer (partitions : List PartitionResource) : (o : Op) → Res o
  | .call .await | .call (.publish _) | .call .connect | .call .capability | .call .control
  | .call .work => .ok ()
  | .call .read => .ok true
  | .call (.inspect _) => .ok (sampleLayout sampleIdentity partitions)
  | .call (.dryRun _) => .ok ⟨sampleSha 'e' '0', sampleSha 'e' '0', sampleSha 'f' '0', 0, true, []⟩
  | .call (.createCheckpoint _) => .ok ⟨sampleCheckpoint sampleIdentity, sampleArtifact⟩
  | .call .challenge => .ok (some "challenge")
  | .call (.grant plan) => .ok
      { id := "grant"
        challengeId := "challenge"
        operationId := plan.operationId
        planId := plan.id
        sessionId := plan.sessionId
        targetFingerprintSha256 := plan.targetDisk.fingerprintSha256
        planFingerprintSha256 := plan.fingerprintSha256
        operatorUid := some 1000
        expiresAt := minutes 2 }
  | .call .message => .ok .other
  | .call (.outcome plan) => .ok
      { operationId := plan.operationId
        operation := plan.operation
        exitCode := 0
        kernelReread := some true
        before := sampleLayout sampleIdentity []
        after := sampleLayout sampleIdentity partitions
        evidence := [] }
  | .write _ _ _ _ => true
  | .rounds => 0
  | .stop => .task

def sampleEnv (partitions : List PartitionResource) : Env State Res where
  wait s := s
  answer _ := sampleAnswer partitions

theorem sampleEnv_calm (partitions : List PartitionResource) : Calm (sampleEnv partitions) :=
  ⟨fun s => ⟨s.now, s.devices, rfl⟩, fun _ => rfl, fun _ => rfl, fun _ _ _ _ _ => rfl⟩

/-- The layout of the plan is observed after an unknown outcome. -/
theorem reconciliation_verdict_run :
    ∃ v t s', (reconcileUnknown sampleConfig 0 "operation" "session1").alone
        (sampleEnv [samplePartition]) (sampleState .unknown) = (.ok v, s') ∧
      s'.transactions "operation" = some t ∧ t.status = .committed ∧
      s'.verifications "operation" = some v := by
  obtain ⟨v, t, s', hcall, stored, reconciled, -⟩ := (reconciliation_verdict sampleConfig
    (sampleEnv [samplePartition]) (sampleState .unknown) 0 "operation" "session1" _
    (sampleEnv_calm _) (sampleState_stored .unknown) rfl rfl).2.1
    (sampleLayout sampleIdentity [samplePartition]) fun _ => rfl
  exact ⟨v, t, s', hcall, stored.transaction, reconciled.committed.mpr ⟨rfl, rfl⟩,
    stored.verification⟩

end Ares.Operations
