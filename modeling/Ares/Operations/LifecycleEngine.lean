import Ares.Operations.Lifecycle

/-! The calls of the engine keep the lifecycle of a transaction. -/

namespace Ares.Operations.Lifecycle

open Coop Data Storage

variable {cfg : Config} {j : Nat} {s : State} {operationId : String}

theorem inspect_keeps (V : Seen → Prop) (target : String) :
    (inspect target).Keeps (logic cfg j) fun s => V (s.seen j) :=
  asEngine_keeps (keeps_quiet V quiet_attempt)

/-! ### Reconciliation -/

theorem judge_known (cfg : Config) (operationId id : String) (now : DateTime)
    (plan : StorageOperationPlan) (current : StorageLayout) :
    (judge cfg operationId id now plan current).status ∈
      [StorageTransactionStatus.committed, .aborted, .unknown] := by
  rw [judge_status]
  split
  · split
    · simp
    · split <;> simp
  · simp

variable {record : StorageOperationRecord}

theorem reinspect_spec (hi : Inv cfg s) (hseen : s.seen j = some (safeId cfg operationId, .unknown))
    (hkey : record.transaction.operationId = safeId cfg operationId) :
    (reinspect cfg j operationId record).Spec (logic cfg j) (fun _ s' => Inv cfg s')
      (fun _ s' => Inv cfg s') s := by
  let V : Seen → Prop := fun x => x = some (safeId cfg operationId, .unknown)
  refine (inspect_keeps V _).spec_bind hi hseen (fun current s1 hi1 hs1 => ?_)
    fun _ s' hi' _ => hi'
  rw [spec_do, spec_reading]
  refine (put_keeps V _ _ (by simp)).spec_bind hi1 hs1 (fun _ s2 hi2 hs2 => ?_)
    fun _ s' hi' _ => hi'
  rw [spec_do, spec_reading, spec_do]
  refine (putTransaction_spec hi2 hs2 (hi2.seen _ _ _ hs2) ?_ _ ?_).mono (fun _ _ h => h.1)
    fun _ _ h => h.1
  · exact hkey
  · intro a h
    obtain rfl := h.same.eq (by decide)
    have hknown := judge_known cfg operationId (cfg.uuid4 j 2) s1.now record.plan current
    simp only [List.mem_cons, List.not_mem_nil, or_false] at hknown
    rcases hknown with h | h | h <;> simp [reconciledTransaction, h, follows]

theorem reconcileUnknown_spec (hi : Inv cfg s) (sessionId : String)
    (hseen : s.seen j = none ∨ s.seen j = some (safeId cfg operationId, .unknown)) :
    (reconcileUnknown cfg j operationId sessionId).Spec (logic cfg j) (fun _ s' => Inv cfg s')
      (fun _ s' => Inv cfg s') s := by
  rw [reconcileUnknown, spec_do]
  refine (getRecord_spec hi operationId).mono (fun r s1 h1 => ?_) fun _ s1 h1 => h1.1
  obtain ⟨hi1, -, hknows⟩ := h1
  rw [spec_do, spec_ofOption]
  refine ⟨fun record hr => ?_, fun _ => hi1⟩
  have h := hknows record hr
  split
  · rw [spec_ofOption]
    exact ⟨fun _ _ => hi1, fun _ => hi1⟩
  · next hunknown =>
    rw [spec_do, spec_require]
    refine ⟨fun _ => reinspect_spec hi1 ?_ h.key, fun _ => hi1⟩
    have hstatus : record.transaction.status = .unknown := not_not.mp hunknown
    rw [h.seen, hstatus]
    rcases hseen with hs | hs <;> rw [hs] <;> rfl

/-! ### Planning and validation -/

theorem plan_spec (hi : Inv cfg s) (hseen : s.seen j = none)
    (request : DeclarativeStorageOperationRequest) (sessionId createdBy : String) :
    (plan cfg j request sessionId createdBy).Spec (logic cfg j) (fun _ s' => Inv cfg s')
      (fun _ s' => Inv cfg s') s := by
  let V : Seen → Prop := fun x => x = none
  refine (inspect_keeps V _).spec_bind hi hseen (fun original s1 hi1 hs1 => ?_)
    fun _ s' hi' _ => hi'
  rw [spec_do, spec_state, spec_do,
    spec_ofExcept]
  refine ⟨fun ⟨proposed, target⟩ _ => ?_, fun _ _ => hi1⟩
  dsimp only
  rw [spec_do, spec_require]
  refine ⟨fun _ => ?_, fun _ => hi1⟩
  refine (put_keeps V _ _ (by simp)).spec_bind hi1 hs1 (fun _ s2 hi2 hs2 => ?_)
    fun _ s' hi' _ => hi'
  rw [spec_do]
  exact putNew_spec hi2 hs2 _ _ _

theorem protect_keeps (V : Seen → Prop) (plan : StorageOperationPlan) (f : Preflight)
    (dryRun : StorageDryRunResult) :
    (protect cfg j plan f dryRun).Keeps (logic cfg j) fun s => V (s.seen j) := by
  unfold protect
  split
  · refine (asEngine_keeps (keeps_quiet V quiet_attempt)).bind fun bundle =>
      (keeps_quiet V quiet_require).bind fun _ => ?_
    exact (put_keeps V _ _ (by simp)).bind fun _ => (put_keeps V _ _ (by simp)).bind fun _ =>
      keeps_ret _
  · exact keeps_ret _

theorem storeValidated_spec (hi : Inv cfg s)
    (hseen : s.seen j = some (safeId cfg operationId, record.transaction.status))
    (hphase : phase record.transaction.status = 0)
    (hkey : record.transaction.operationId = safeId cfg operationId)
    (validated : StorageOperationPlan) :
    (storeValidated j record validated).Spec (logic cfg j) (fun _ s' => Inv cfg s')
      (fun _ s' => Inv cfg s') s := by
  let V : Seen → Prop := fun x => x = some (safeId cfg operationId, record.transaction.status)
  refine (put_keeps V _ _ (by simp)).spec_bind hi hseen (fun _ s1 hi1 hs1 => ?_)
    fun _ s' hi' _ => hi'
  rw [spec_do]
  refine (putTransaction_spec hi1 hs1 (hi1.seen _ _ _ hs1) ?_ _ ?_).mono (fun _ _ h => h.1)
    fun _ _ h => h.1
  · exact hkey
  · intro a h
    refine follows_of_zero (h.same.phase_eq ▸ hphase) ?_
    dsimp only
    split <;> rfl

theorem validateRecord_spec (hi : Inv cfg s)
    (hseen : s.seen j = some (safeId cfg operationId, record.transaction.status))
    (hkey : record.transaction.operationId = safeId cfg operationId) :
    (validateRecord cfg j record).Spec (logic cfg j) (fun _ s' => Inv cfg s')
      (fun _ s' => Inv cfg s') s := by
  let V : Seen → Prop := fun x => x = some (safeId cfg operationId, record.transaction.status)
  rw [validateRecord, spec_do, spec_require]
  refine ⟨fun hvalidatable => ?_, fun _ => hi⟩
  have hphase : phase record.transaction.status = 0 := by
    unfold validatable at hvalidatable
    cases h : record.transaction.status <;> simp_all [phase]
  rw [spec_do, spec_reading, spec_do,
    spec_require]
  refine ⟨fun _ => ?_, fun _ => hi⟩
  refine (inspect_keeps V _).spec_bind hi hseen (fun current s1 hi1 hs1 => ?_)
    fun _ s' hi' _ => hi'
  rw [spec_do, spec_require]
  refine ⟨fun _ => ?_, fun _ => hi1⟩
  rw [spec_do, spec_require]
  refine ⟨fun _ => ?_, fun _ => hi1⟩
  rw [spec_do, spec_reading]
  refine (asEngine_keeps (keeps_quiet V quiet_attempt)).spec_bind hi1 hs1
    (fun dryRun s2 hi2 hs2 => ?_) fun _ s' hi' _ => hi'
  refine (protect_keeps V _ _ _).spec_bind hi2 hs2 (fun checkpoint s3 hi3 hs3 => ?_)
    fun _ s' hi' _ => hi'
  exact storeValidated_spec hi3 hs3 hphase hkey _

theorem validate_spec (hi : Inv cfg s) (hseen : s.seen j = none) (sessionId : String) :
    (validate cfg j operationId sessionId).Spec (logic cfg j) (fun _ s' => Inv cfg s')
      (fun _ s' => Inv cfg s') s := by
  rw [validate, spec_do]
  refine (getRecord_spec hi operationId).mono (fun r s1 h1 => ?_) fun _ s1 h1 => h1.1
  obtain ⟨hi1, -, hknows⟩ := h1
  rw [spec_do, spec_ofOption]
  refine ⟨fun record hr => ?_, fun _ => hi1⟩
  have h := hknows record hr
  have hs1 : s1.seen j = some (safeId cfg operationId, record.transaction.status) := by
    rw [h.seen, hseen, Option.none_or]
  rw [spec_do, spec_require]
  refine ⟨fun _ => ?_, fun _ => hi1⟩
  split
  · next hunknown =>
    rw [validateUnknown, spec_do]
    refine (reconcileUnknown_spec hi1 sessionId (.inr (hunknown ▸ hs1))).mono
      (fun _ s2 hi2 => ?_) fun _ s2 hi2 => hi2
    rw [spec_do]
    refine (getRecord_spec hi2 operationId).mono (fun r s3 h3 => ?_) fun _ s3 h3 => h3.1
    rw [spec_do, spec_ofOption]
    refine ⟨fun refreshed _ => ?_, fun _ => h3.1⟩
    rw [spec_do, spec_require]
    exact ⟨fun _ => h3.1, fun _ => h3.1⟩
  · exact validateRecord_spec hi1 hs1 h.key

/-! ### Authorization -/

def Unauthorized (cfg : Config) (operationId : String) : Seen → Prop :=
  View (safeId cfg operationId) (phase · = 0)

def Unstarted (cfg : Config) (operationId : String) : Seen → Prop :=
  View (safeId cfg operationId) (phase · ≤ 1)

theorem Unauthorized.unstarted {x : Seen} (h : Unauthorized cfg operationId x) :
    Unstarted cfg operationId x := by
  obtain ⟨b, hx, hb⟩ := h
  exact ⟨b, hx, hb.le.trans (by omega)⟩

theorem rechallenge_keeps (challengeId : String) :
    (rechallenge cfg j operationId challengeId).Keeps (logic cfg j)
      fun s => Unauthorized cfg operationId (s.seen j) := by
  rintro s hi ⟨b, hseen, hb⟩
  rw [rechallenge, spec_do]
  refine (getRecord_known hi hseen).mono (fun r s1 h1 => ?_) fun _ s1 h1 => ⟨h1.1, b, h1.2, hb⟩
  obtain ⟨hi1, hs1, -, hrecord⟩ := h1
  cases r with
  | none => exact ⟨hi1, b, hs1, hb⟩
  | some record =>
    obtain ⟨hkey, hstored, -⟩ := hrecord record rfl
    have hzero : Before record.transaction.status b → phase record.transaction.status = 0 := by
      intro h
      have hle := h.phase_le
      omega
    refine (putTransaction_spec hi1 hs1 hstored ?_ _ ?_).mono
      (fun _ s2 h2 => ⟨h2.1, _, h2.2.1, hzero h2.2.2⟩) fun _ s2 h2 => ?_
    · exact hkey
    · exact fun a h => follows_of_zero (h.same.phase_eq ▸ hb) (hzero h.later)
    · obtain ⟨hi2, x, hx, rfl | ⟨rfl, hcb⟩⟩ := h2
      · exact ⟨hi2, x, hx, hb⟩
      · exact ⟨hi2, _, hx, hzero hcb⟩

theorem challenge_keeps (challengeId : String) :
    (challenge cfg j operationId challengeId).Keeps (logic cfg j)
      fun s => Unauthorized cfg operationId (s.seen j) :=
  (rechallenge_keeps challengeId).bind fun _ => keeps_quiet _ quiet_attempt

theorem authorizationMessages_keeps (plan : StorageOperationPlan) (n : Nat) :
    (authorizationMessages plan (challenge cfg j operationId) n).Keeps (logic cfg j)
      fun s => Unauthorized cfg operationId (s.seen j) := by
  induction n with
  | zero => exact keeps_quiet _ quiet_attempt
  | succ n ih =>
    refine (keeps_quiet _ quiet_attempt).bind fun challengeId => ?_
    refine Proc.Keeps.bind ?_ fun _ => ih
    cases challengeId with
    | none => exact keeps_ret _
    | some id => exact challenge_keeps id

theorem setGrant_same (k : String) (g : Option StorageAuthorizationGrant) (s : State) :
    SameRecords s (s.setGrant k g) :=
  ⟨rfl, rfl, rfl, fun _ _ _ _ _ h => h⟩

theorem obtainGrant_spec (hi : Inv cfg s) (hseen : Unauthorized cfg operationId (s.seen j))
    (hkey : record.transaction.operationId = safeId cfg operationId) :
    (obtainGrant j operationId record (challenge cfg j operationId)).Spec (logic cfg j)
      (fun _ s' => Inv cfg s' ∧ Unstarted cfg operationId (s'.seen j))
      (fun _ s' => Inv cfg s' ∧ Unstarted cfg operationId (s'.seen j)) s := by
  let V : Seen → Prop := Unauthorized cfg operationId
  have hexecutor : (executorRequestAuthorization record.plan (challenge cfg j operationId)).Keeps
      (logic cfg j) fun s => V (s.seen j) :=
    (keeps_quiet V quiet_attempt).bind fun _ => (keeps_quiet V quiet_perform).bind fun n =>
      authorizationMessages_keeps record.plan n
  refine (asEngine_keeps hexecutor).spec_bind hi hseen (fun grant s1 hi1 hs1 => ?_)
    fun _ s' hi' hs' => ⟨hi', Unauthorized.unstarted hs'⟩
  obtain ⟨b, hb, hzero⟩ := hs1
  rw [spec_do]
  refine (putTransaction_spec hi1 hb (hi1.seen _ _ _ hb) ?_ _ ?_).mono (fun _ s2 h2 => ?_)
    fun _ s2 h2 => ?_
  · exact hkey
  · intro a h
    have hphase : phase a = 0 := h.same.phase_eq ▸ hzero
    exact follows_of_arrow (decide_eq_true hphase)
  · have hs2 : Unstarted cfg operationId (s2.seen j) := ⟨_, h2.2.1, le_refl 1⟩
    exact (keeps_same (Unstarted cfg operationId) (setGrant_same operationId (some grant))).spec_bind
      h2.1 hs2 (fun _ s3 hi3 hs3 => ⟨hi3, hs3⟩) fun _ s3 hi3 hs3 => ⟨hi3, hs3⟩
  · obtain ⟨hi2, x, hx, rfl | ⟨rfl, -⟩⟩ := h2
    · exact ⟨hi2, x, hx, hzero.le.trans (by omega)⟩
    · exact ⟨hi2, _, hx, le_refl 1⟩

/-- A request for authorization of an operation that the task has not seen executing. -/
theorem requestAuthorization_spec (hi : Inv cfg s) (sessionId : String)
    (hseen : s.seen j = none ∨ Unstarted cfg operationId (s.seen j)) :
    (requestAuthorization cfg j operationId sessionId (challenge cfg j operationId)).Spec
      (logic cfg j)
      (fun _ s' => Inv cfg s' ∧ Unstarted cfg operationId (s'.seen j))
      (fun _ s' => Inv cfg s' ∧
        (Unstarted cfg operationId (s.seen j) → Unstarted cfg operationId (s'.seen j))) s := by
  let V : Seen → Prop := Unauthorized cfg operationId
  rw [requestAuthorization, spec_do]
  refine (getRecord_spec hi operationId).mono (fun r s1 h1 => ?_) fun _ s1 h1 => ?_
  · obtain ⟨hi1, hreads, hknows⟩ := h1
    have hunstarted : Unstarted cfg operationId (s.seen j) →
        Unstarted cfg operationId (s1.seen j) := by
      rintro ⟨b, hb, hle⟩
      exact ⟨b, hreads.seen _ hb, hle⟩
    rw [spec_do, spec_ofOption]
    refine ⟨fun record hr => ?_, fun _ => ⟨hi1, hunstarted⟩⟩
    have h := hknows record hr
    rw [spec_do, spec_require]
    refine ⟨fun hauthorizable => ?_, fun _ => ⟨hi1, hunstarted⟩⟩
    have hstatus : record.transaction.status = .protected_ := by
      simp only [authorizable, Bool.and_eq_true, decide_eq_true_eq] at hauthorizable
      exact hauthorizable.1.1.1
    have hs1 : V (s1.seen j) := by
      rcases hseen with hs | ⟨b, hs, -⟩
      · exact ⟨_, by rw [h.seen, hs, Option.none_or], by rw [hstatus]; rfl⟩
      · have hle := (h.later b hs).phase_le
        rw [hstatus] at hle
        exact ⟨b, hreads.seen _ hs, Nat.le_zero.mp hle⟩
    have hE : ∀ (s' : State), Inv cfg s' → V (s'.seen j) → Inv cfg s' ∧
        (Unstarted cfg operationId (s.seen j) → Unstarted cfg operationId (s'.seen j)) :=
      fun s' hi' hs' => ⟨hi', fun _ => Unauthorized.unstarted hs'⟩
    rw [spec_do, spec_ofOption]
    refine ⟨fun checkpoint _ => ?_, fun _ => hE s1 hi1 hs1⟩
    rw [spec_do, spec_require]
    refine ⟨fun _ => ?_, fun _ => hE s1 hi1 hs1⟩
    refine (keeps_quiet V (getProtection_quiet _)).spec_bind hi1 hs1 (fun durable s2 hi2 hs2 => ?_)
      fun _ => hE
    refine (keeps_quiet V (get_quiet _)).spec_bind hi2 hs2 (fun artifact s3 hi3 hs3 => ?_) fun _ => hE
    rw [spec_do, spec_require]
    refine ⟨fun _ => ?_, fun _ => hE s3 hi3 hs3⟩
    exact (obtainGrant_spec hi3 hs3 h.key).mono (fun _ _ h => h) fun _ _ h => ⟨h.1, fun _ => h.2⟩
  · refine ⟨h1.1, ?_⟩
    rintro ⟨b, hb, hle⟩
    exact ⟨b, h1.2.seen _ hb, hle⟩

/-! ### Execution -/

/-- What a task has seen of an operation that it may execute or has executed. -/
def Started (cfg : Config) (operationId : String) : Seen → Prop :=
  View (safeId cfg operationId) fun b => 1 ≤ phase b ∧ b ≠ .aborted

def Running (cfg : Config) (operationId : String) : Seen → Prop :=
  View (safeId cfg operationId) (· = .executing)

theorem Running.started {x : Seen} (h : Running cfg operationId x) : Started cfg operationId x := by
  obtain ⟨b, hx, rfl⟩ := h
  exact ⟨_, hx, by decide, by simp⟩

theorem restage_keeps (name : String) :
    (restage cfg j operationId name).Keeps (logic cfg j)
      fun s => Running cfg operationId (s.seen j) := by
  rintro s hi ⟨b, hseen, rfl⟩
  rw [restage, spec_do]
  refine (getRecord_known hi hseen).mono (fun r s1 h1 => ?_) fun _ s1 h1 => ⟨h1.1, _, h1.2, rfl⟩
  obtain ⟨hi1, hs1, -, hrecord⟩ := h1
  cases r with
  | none => exact ⟨hi1, _, hs1, rfl⟩
  | some record =>
    obtain ⟨hkey, hstored, hlater⟩ := hrecord record rfl
    have hexecuting : Before record.transaction.status .executing →
        record.transaction.status = .executing := fun h =>
      ((hlater.antisymm h).eq (by decide)).symm
    refine (putTransaction_spec hi1 hs1 hstored ?_ _ ?_).mono
      (fun _ s2 h2 => ⟨h2.1, _, h2.2.1, hexecuting h2.2.2⟩) fun _ s2 h2 => ?_
    · exact hkey
    · intro a h
      obtain rfl := h.same.eq (by decide)
      show follows .stage .executing record.transaction.status = true
      rw [hexecuting h.later]
      exact follows_self _
    · obtain ⟨hi2, x, hx, rfl | ⟨rfl, hcb⟩⟩ := h2
      · exact ⟨hi2, _, hx, rfl⟩
      · exact ⟨hi2, _, hx, hexecuting hcb⟩

variable {onStage : String → Fields → Task Unit}

theorem stage_keeps (quiet : ∀ n p, (onStage n p).Quiet) (name : String) (payload : Fields) :
    (stage cfg j operationId onStage name payload).Keeps (logic cfg j)
      fun s => Running cfg operationId (s.seen j) :=
  (restage_keeps name).bind fun _ => keeps_quiet _ (quiet name payload)

theorem executionMessages_keeps
    (quiet : ∀ n p, (onStage n p).Quiet) (plan : StorageOperationPlan) (n : Nat) :
    (executionMessages plan (stage cfg j operationId onStage) n).Keeps (logic cfg j)
      fun s => Running cfg operationId (s.seen j) := by
  induction n with
  | zero => exact keeps_quiet _ quiet_attempt
  | succ n ih =>
    refine (keeps_quiet _ quiet_attempt).bind fun message => ?_
    refine Proc.Keeps.bind ?_ fun _ => ih
    cases message with
    | stage name payload => exact stage_keeps quiet name payload
    | other => exact keeps_ret _

theorem setWrite_same (task : Nat) (w : WriteState) (s : State) :
    SameRecords s (s.setWrite task w) :=
  ⟨rfl, rfl, rfl, fun _ _ _ _ _ h => h⟩

theorem executorExecute_keeps (quiet : ∀ n p, (onStage n p).Quiet) (plan : StorageOperationPlan) :
    (executorExecute j plan (stage cfg j operationId onStage)).Keeps (logic cfg j)
      fun s => Running cfg operationId (s.seen j) := by
  refine (keeps_quiet _ quiet_attempt).bind fun _ =>
    (keeps_same _ (setWrite_same j .working)).bind fun _ =>
    (keeps_quiet _ quiet_perform).bind fun n =>
    (executionMessages_keeps quiet plan n).bind fun outcome => ?_
  exact (keeps_same _ (setWrite_same j .compared)).bind fun _ => keeps_ret _

theorem markFailed_spec {b c : StorageTransactionStatus} (hi : Inv cfg s)
    (hseen : s.seen j = some (safeId cfg operationId, b))
    (hc : AtLeast s (safeId cfg operationId) c) {w : Writer}
    (hfollows : ∀ a, Finds w c b a → follows w a .failed = true)
    (hb : 1 ≤ phase b ∧ b ≠ .aborted) (code : String) :
    (markFailed cfg j w operationId code).Spec (logic cfg j)
      (fun _ s' => Inv cfg s' ∧ Started cfg operationId (s'.seen j))
      (fun _ s' => Inv cfg s' ∧ Started cfg operationId (s'.seen j)) s := by
  have hend : ∀ s', Inv cfg s' ∧ View (safeId cfg operationId) (fun c => c = b ∨ c = .failed)
      (s'.seen j) → Inv cfg s' ∧ Started cfg operationId (s'.seen j) := by
    rintro s' ⟨hi', x, hx, rfl | rfl⟩
    · exact ⟨hi', _, hx, hb⟩
    · exact ⟨hi', _, hx, by decide, by simp⟩
  exact (setStatus_spec hi hseen hc _ _ _ hfollows).mono (fun _ => hend) fun _ => hend

theorem recordFailure_spec (hi : Inv cfg s) (hseen : Running cfg operationId (s.seen j))
    (e : Error) :
    (recordFailure cfg j operationId e).Spec (logic cfg j)
      (fun _ s' => Inv cfg s' ∧ Started cfg operationId (s'.seen j))
      (fun _ s' => Inv cfg s' ∧ Started cfg operationId (s'.seen j)) s := by
  obtain ⟨b, hb, rfl⟩ := hseen
  have hend : ∀ s', Inv cfg s' ∧ View (safeId cfg operationId)
      (fun c => c = .executing ∨ c = .unknown) (s'.seen j) →
      Inv cfg s' ∧ Started cfg operationId (s'.seen j) := by
    rintro s' ⟨hi', x, hx, rfl | rfl⟩ <;> exact ⟨hi', _, hx, by decide, by simp⟩
  cases e with
  | executor code =>
    show Proc.Spec _ (if uncertainCodes.contains code then _ else _) _ _ s
    split
    · refine (markUnknown_spec hi hb (hi.seen _ _ _ hb) (fun a ha _ => ?_) code).mono
        (fun _ => hend) fun _ => hend
      obtain rfl := ha.eq (by decide)
      rfl
    · refine markFailed_spec hi hb (hi.seen _ _ _ hb) (fun a h => ?_) ⟨by decide, by simp⟩ code
      obtain rfl := h.same.eq (by decide)
      rfl
  | _ => exact ⟨hi, _, hb, by decide, by simp⟩

theorem terminalStatus_cases (status : StorageVerificationStatus) :
    terminalStatus status ∈ [StorageTransactionStatus.committed, .failed, .unknown] := by
  cases status <;> decide

theorem started_terminal {c : StorageTransactionStatus}
    (hc : c ∈ [StorageTransactionStatus.committed, .failed, .unknown]) :
    1 ≤ phase c ∧ c ≠ .aborted := by
  simp only [List.mem_cons, List.not_mem_nil, or_false] at hc
  rcases hc with rfl | rfl | rfl <;> decide

theorem arrow_terminal {c : StorageTransactionStatus}
    (hc : c ∈ [StorageTransactionStatus.committed, .failed, .unknown]) :
    arrow .verifying c = true := by
  simp only [List.mem_cons, List.not_mem_nil, or_false] at hc
  rcases hc with rfl | rfl | rfl <;> rfl

theorem finishExecution_spec (hi : Inv cfg s) (hseen : Running cfg operationId (s.seen j))
    (plan : StorageOperationPlan) (outcome : StorageOperationOutcome) :
    (finishExecution cfg j operationId plan outcome).Spec (logic cfg j)
      (fun _ s' => Inv cfg s' ∧ Started cfg operationId (s'.seen j))
      (fun _ s' => Inv cfg s' ∧ Started cfg operationId (s'.seen j)) s := by
  let V : Seen → Prop := View (safeId cfg operationId) fun c => c = .executing ∨ c = .verifying
  have hend : ∀ s', Inv cfg s' → V (s'.seen j) →
      Inv cfg s' ∧ Started cfg operationId (s'.seen j) := by
    rintro s' hi' ⟨x, hx, rfl | rfl⟩ <;> exact ⟨hi', _, hx, by decide, by simp⟩
  obtain ⟨b, hb, rfl⟩ := hseen
  rw [finishExecution, spec_do]
  refine (setStatus_spec hi hb (hi.seen _ _ _ hb) _ _ _ ?_).mono (fun _ s1 h1 => ?_)
    fun _ s' h => hend s' h.1 h.2
  · intro a h
    obtain rfl := h.same.eq (by decide)
    rfl
  · rw [spec_do, spec_reading]
    refine (put_keeps V _ _ (by simp)).spec_bind h1.1 h1.2 (fun _ s2 hi2 hs2 => ?_) fun _ => hend
    obtain ⟨b, hb2, hb⟩ := hs2
    rw [spec_do]
    refine (getRecord_known hi2 hb2).mono (fun r s3 h3 => ?_)
      fun _ s' h => hend s' h.1 ⟨b, h.2, hb⟩
    obtain ⟨hi3, hs3, -, hrecord⟩ := h3
    rw [spec_do, spec_ofOption]
    refine ⟨fun record hr => ?_, fun _ => hend s3 hi3 ⟨b, hs3, hb⟩⟩
    obtain ⟨hkey, hstored, -⟩ := hrecord record hr
    rw [spec_do, spec_reading, spec_do]
    refine (putTransaction_spec hi3 hs3 hstored ?_ _ ?_).mono (fun _ s4 h4 => ?_) fun _ s4 h4 => ?_
    · exact hkey
    · intro a h
      obtain rfl := h.verified rfl
      obtain rfl := h.same.eq (by decide)
      exact follows_of_arrow (arrow_terminal (terminalStatus_cases _))
    · exact ⟨h4.1, _, h4.2.1, started_terminal (terminalStatus_cases _)⟩
    · obtain ⟨hi4, x, hx, rfl | ⟨rfl, -⟩⟩ := h4
      · exact hend s4 hi4 ⟨x, hx, hb⟩
      · exact ⟨hi4, _, hx, started_terminal (terminalStatus_cases _)⟩

theorem executeWrite_spec (quiet : ∀ n p, (onStage n p).Quiet) (hi : Inv cfg s)
    (hseen : Running cfg operationId (s.seen j)) (plan : StorageOperationPlan) :
    (executeWrite cfg j operationId plan onStage).Spec (logic cfg j)
      (fun _ s' => Inv cfg s' ∧ Started cfg operationId (s'.seen j))
      (fun _ s' => Inv cfg s' ∧ Started cfg operationId (s'.seen j)) s := by
  rw [executeWrite, asEngine, spec_do, spec_handle, spec_handle]
  refine (executorExecute_keeps quiet plan s hi hseen).mono
    (fun outcome s1 h1 => finishExecution_spec h1.1 h1.2 plan outcome) fun e s1 h1 => ?_
  rw [spec_do]
  refine (recordFailure_spec h1.1 h1.2 e).mono (fun _ s2 h2 => ?_) fun e' s2 h2 => ?_
  · cases e <;> exact h2
  · cases e' <;> exact h2

/-- An execution by a task that has seen nothing of the operation, or has seen it authorized or
later. -/
theorem execute_spec (quiet : ∀ n p, (onStage n p).Quiet)
    (hi : Inv cfg s) (hseen : s.seen j = none ∨ Started cfg operationId (s.seen j))
    (grant : StorageAuthorizationGrant) (sessionId : String) :
    (execute cfg j operationId grant sessionId onStage).Spec (logic cfg j)
      (fun _ s' => Inv cfg s' ∧
        (Started cfg operationId (s.seen j) → Started cfg operationId (s'.seen j)))
      (fun _ s' => Inv cfg s' ∧
        (Started cfg operationId (s.seen j) → Started cfg operationId (s'.seen j))) s := by
  let V : Seen → Prop := fun x => x = some (safeId cfg operationId, .authorized)
  have hV : ∀ s', Inv cfg s' → V (s'.seen j) → Inv cfg s' ∧
      (Started cfg operationId (s.seen j) → Started cfg operationId (s'.seen j)) :=
    fun s' hi' hs' => ⟨hi', fun _ => ⟨_, hs', by decide, by simp⟩⟩
  rw [execute, spec_do]
  refine (getRecord_spec hi operationId).mono (fun r s1 h1 => ?_) fun _ s1 h1 => ?_
  · obtain ⟨hi1, hreads, hknows⟩ := h1
    have hfail : Inv cfg s1 ∧
        (Started cfg operationId (s.seen j) → Started cfg operationId (s1.seen j)) :=
      ⟨hi1, fun ⟨b, hb, h⟩ => ⟨b, hreads.seen _ hb, h⟩⟩
    rw [spec_do, spec_ofOption]
    refine ⟨fun record hr => ?_, fun _ => hfail⟩
    have h := hknows record hr
    rw [spec_do, spec_require]
    refine ⟨fun hauthorized => ?_, fun _ => hfail⟩
    have hstatus : record.transaction.status = .authorized := of_decide_eq_true hauthorized
    have hs1 : V (s1.seen j) := by
      rcases hseen with hs | ⟨b, hs, hb⟩
      · show s1.seen j = _
        rw [h.seen, hs, Option.none_or, hstatus]
      · have hlater := h.later b hs
        rw [hstatus] at hlater
        have hb' : b = .authorized := by
          rcases hlater with h | h | h
          · exact h
          · have : phase b < 1 := h
            omega
          · omega
        show s1.seen j = _
        rw [hreads.seen _ hs, hb']
    rw [spec_do, spec_require]
    refine ⟨fun _ => ?_, fun _ => hfail⟩
    rw [spec_do, spec_require]
    refine ⟨fun _ => ?_, fun _ => hfail⟩
    rw [spec_do, spec_reading, spec_do,
      spec_require]
    refine ⟨fun _ => ?_, fun _ => hfail⟩
    refine (keeps_quiet V (requireCheckpoint_quiet _)).spec_bind hi1 hs1 (fun _ s2 hi2 hs2 => ?_)
      fun _ => hV
    rw [spec_do, spec_reading, spec_do]
    refine (putTransaction_spec hi2 hs2 (hi2.seen _ _ _ hs2) ?_ _ ?_).mono (fun _ s3 h3 => ?_)
      fun _ s3 h3 => ?_
    · exact h.key
    · intro a h
      obtain rfl := h.same.eq (by decide)
      rfl
    · exact (executeWrite_spec quiet h3.1 ⟨_, h3.2.1, rfl⟩ record.plan).mono
        (fun _ _ h => ⟨h.1, fun _ => h.2⟩) fun _ _ h => ⟨h.1, fun _ => h.2⟩
    · obtain ⟨hi3, x, hx, rfl | ⟨rfl, -⟩⟩ := h3
      · exact hV s3 hi3 hx
      · exact ⟨hi3, fun _ => Running.started ⟨_, hx, rfl⟩⟩
  · exact ⟨h1.1, fun ⟨b, hb, h⟩ => ⟨b, h1.2.seen _ hb, h⟩⟩

theorem executeAuthorized_spec (quiet : ∀ n p, (onStage n p).Quiet) (hi : Inv cfg s)
    (hseen : s.seen j = none ∨ Started cfg operationId (s.seen j)) (sessionId : String) :
    (executeAuthorized cfg j operationId sessionId onStage).Spec (logic cfg j)
      (fun _ s' => Inv cfg s' ∧
        (Started cfg operationId (s.seen j) → Started cfg operationId (s'.seen j)))
      (fun _ s' => Inv cfg s' ∧
        (Started cfg operationId (s.seen j) → Started cfg operationId (s'.seen j))) s := by
  have hsame := setGrant_same operationId none s
  have hi1 := hi.same hsame
  rw [executeAuthorized, spec_do, spec_state, bind_eq,
    spec_bind, spec_modify]
  refine ⟨⟨fun i _ => by rw [hsame.seen], hsame.onward⟩, hi1, ?_⟩
  rw [spec_do, spec_ofOption]
  refine ⟨fun grant _ => ?_, fun _ => ⟨hi1, fun h => by rwa [hsame.seen]⟩⟩
  have hs1 : (s.setGrant operationId none).seen j = s.seen j := by rw [hsame.seen]
  have h := execute_spec quiet hi1 (hs1 ▸ hseen) grant sessionId
  rwa [hs1] at h

end Ares.Operations.Lifecycle
