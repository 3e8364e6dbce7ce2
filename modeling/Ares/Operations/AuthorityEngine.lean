import Ares.Operations.Authority

/-! Planning, validation and authorization keep the authority behind a transaction. -/

namespace Ares.Operations.Authority

open Coop Data Storage

variable {cfg : Config} {j : Nat} {s : State} {P R : State → Prop}

def Stable (cfg : Config) (j : Nat) (P : State → Prop) : Prop :=
  ∀ s s', rely cfg j s s' → P s → P s'

def Present (op : String) (s : State) : Prop := (s.transactions op).isSome

theorem stable_true : Stable cfg j fun _ => True := fun _ _ _ h => h

theorem stable_present (cfg : Config) (j : Nat) (op : String) : Stable cfg j (Present op) :=
  fun _ _ hr h => hr.1.present op h

theorem stable_unborn : Stable cfg j (Unborn cfg j) := fun _ _ hr h => hr.2 h

theorem rely_refl (s : State) : rely cfg j s s := ⟨Later.refl s, fun h => h⟩

theorem rely_trans {s s' s'' : State} (h : rely cfg j s s') (h' : rely cfg j s' s'') :
    rely cfg j s s'' :=
  ⟨h.1.trans h'.1, fun hu => h'.2 (h.2 hu)⟩

theorem Same.rely {s' : State} (h : Same s s') : rely cfg j s s' :=
  ⟨h.later, fun hu => by
    show s'.transactions _ = none
    rw [h.transactions]
    exact hu⟩

theorem spec_quiet {α : Type} {p : Task α} (quiet : p.Quiet) (hi : Inv cfg s)
    {Q : α → State → Prop} {E : Error → State → Prop}
    (hQ : ∀ a s', Inv cfg s' → rely cfg j s s' → Q a s')
    (hE : ∀ e s', Inv cfg s' → rely cfg j s s' → E e s') : p.Spec (logic cfg j) Q E s :=
  quiet.spec rely_refl (fun _ _ _ => rely_trans) hi hQ hE

theorem keeps_same (stable : Stable cfg j P) {g : State → State} (same : ∀ s, Same s (g s)) :
    (Proc.modify g : Task Unit).Keeps (logic cfg j) P :=
  keeps_modify fun s hi h => ⟨(same s).guar, hi.same (same s), stable _ _ (same s).rely h⟩

/-! ### The store -/

/-- What is known about a record that was read. -/
structure Bound (cfg : Config) (op : String) (record : StorageOperationRecord) (k : Nat) : Prop where
  operation : op = cfg.uuid4 k 1
  key : record.transaction.operationId = op
  planId : record.transaction.planId = cfg.uuid4 k 0
  plan : record.plan.id = cfg.uuid4 k 0
  planOperation : record.plan.operationId = op

theorem safeId_eq {op : String} (h : safeId cfg op ≠ "invalid") : safeId cfg op = op := by
  unfold safeId at *
  split
  · rfl
  · next hunsafe => exact absurd (if_neg hunsafe) h

theorem see_same (t : StorageTransaction) (s : State) : Same s (s.see j t) :=
  ⟨(SameStore.see j t s).transactions, (SameStore.see j t s).plans, (SameStore.see j t s).grants⟩

section Ids

variable (inj : Function.Injective2 cfg.uuid4) (named : ∀ k n, cfg.uuid4 k n ≠ "invalid")
include inj named

theorem getRecord_spec (hi : Inv cfg s) (op : String) :
    (getRecord cfg j op).Spec (logic cfg j)
      (fun r s' => Inv cfg s' ∧ rely cfg j s s' ∧
        ∀ record, r = some record → Present op s' ∧ ∃ k, Bound cfg op record k)
      (fun _ s' => Inv cfg s' ∧ rely cfg j s s') s := by
  rw [getRecord, spec_do, getTransaction, spec_do, get,
    spec_do]
  refine spec_quiet quiet_attempt hi (fun readable s1 hi1 hr1 => ?_)
    fun _ s1 hi1 hr1 => ⟨hi1, hr1⟩
  cases readable with
  | false => exact ⟨hi1, hr1, fun record h => by cases h⟩
  | true =>
    rw [if_pos rfl, spec_reading]
    cases ht : s1.transactions (safeId cfg op) with
    | none => exact ⟨hi1, hr1, fun record h => by cases h⟩
    | some t =>
      obtain ⟨k, hk, hkey, hplanId⟩ := hi1.transactions _ _ ht
      have hop : safeId cfg op = op := safeId_eq (by rw [hk]; exact named k 1)
      rw [hop] at ht hk hkey
      have hsame := see_same (j := j) t s1
      have hi2 := hi1.same hsame
      refine ⟨hsame.guar, hi2, ?_⟩
      have hr2 : rely cfg j s (s1.see j t) := rely_trans hr1 hsame.rely
      have hpresent : Present op (s1.see j t) := by
        unfold Present
        rw [hsame.transactions, ht]
        rfl
      show (getRest cfg op t).Spec _ _ _ _
      rw [getRest, spec_do, getPlan, get, spec_do]
      refine spec_quiet quiet_attempt hi2 (fun readable s3 hi3 hr3 => ?_)
        fun _ s3 hi3 hr3 => ⟨hi3, rely_trans hr2 hr3⟩
      have hr3' := rely_trans hr2 hr3
      cases readable with
      | false => exact ⟨hi3, hr3', fun record h => by cases h⟩
      | true =>
        rw [if_pos rfl, spec_reading]
        cases hp : s3.plans (safeId cfg t.planId) with
        | none => exact ⟨hi3, hr3', fun record h => by cases h⟩
        | some plan =>
          obtain ⟨hid, k', hk', hplanOp⟩ := hi3.plans _ _ hp
          have hplan : safeId cfg t.planId = t.planId := safeId_eq (by rw [hk']; exact named k' 0)
          show Proc.Spec _ (Proc.bind (getVerification cfg op) _) _ _ s3
          rw [spec_bind]
          refine spec_quiet (get_quiet _) hi3 (fun v s4 hi4 hr4 => ?_)
            fun _ s4 hi4 hr4 => ⟨hi4, rely_trans hr3' hr4⟩
          refine ⟨hi4, rely_trans hr3' hr4, ?_⟩
          rintro record ⟨⟩
          have hkk : k' = k := by
            rw [hplan, hplanId] at hk'
            exact ((inj hk').1).symm
          refine ⟨stable_present cfg j op _ _ (rely_trans hr3 hr4) hpresent, k, hk, hkey, hplanId, ?_, ?_⟩
          · rw [hid, hk', hkk]
          · rw [hplanOp, hkk, hk]

theorem getRecord_keeps (stable : Stable cfg j P) (op : String) :
    (getRecord cfg j op).Keeps (logic cfg j) P :=
  fun _ hi h => (getRecord_spec inj named hi op).mono
    (fun _ _ h' => ⟨h'.1, stable _ _ h'.2.1 h⟩) fun _ _ h' => ⟨h'.1, stable _ _ h'.2 h⟩

end Ids

theorem put_spec (stable : Stable cfg j P) (stable' : Stable cfg j R) {w : Writer} {d : Document}
    {base : Option StorageOperationRecord}
    (hland : ∀ s', Inv cfg s' → P s' → current s' (.write j w d base) true = true →
      Inv cfg (s'.store j w d) ∧ guar cfg j s' (s'.store j w d) ∧ R (s'.store j w d))
    (hi : Inv cfg s) (hP : P s) :
    (put j w d base).Spec (logic cfg j) (fun _ s' => Inv cfg s' ∧ R s')
      (fun _ s' => Inv cfg s' ∧ (P s' ∨ R s')) s := by
  simp only [put, bind_eq, spec_bind]
  refine spec_quiet quiet_attempt hi (fun _ s1 hi1 hr1 => ?_)
    fun _ s1 hi1 hr1 => ⟨hi1, .inl (stable _ _ hr1 hP)⟩
  intro s2 hi2 hr2 written hcurrent
  have hP2 : P s2 := stable _ _ hr2 (stable _ _ hr1 hP)
  cases written with
  | false =>
    refine spec_quiet quiet_attempt hi2 (fun _ s3 hi3 hr3 => ?_)
      fun _ s3 hi3 hr3 => ⟨hi3, .inl (stable _ _ hr3 hP2)⟩
    exact ⟨hi3, .inl (stable _ _ hr3 hP2)⟩
  | true =>
    obtain ⟨hi3, hg, hR⟩ := hland s2 hi2 hP2 hcurrent.2
    refine ⟨hg, hi3, ?_⟩
    refine spec_quiet quiet_attempt hi3 (fun _ s4 hi4 hr4 => ?_)
      fun _ s4 hi4 hr4 => ⟨hi4, .inr (stable' _ _ hr4 hR)⟩
    exact ⟨hi4, stable' _ _ hr4 hR⟩

theorem put_keeps (stable : Stable cfg j P) {w : Writer} {d : Document}
    {base : Option StorageOperationRecord}
    (hland : ∀ s', Inv cfg s' → P s' → current s' (.write j w d base) true = true →
      Inv cfg (s'.store j w d) ∧ guar cfg j s' (s'.store j w d) ∧ P (s'.store j w d)) :
    (put j w d base).Keeps (logic cfg j) P :=
  fun _ hi hP => (put_spec stable stable hland hi hP).mono (fun _ _ h => h)
    fun _ _ h => ⟨h.1, h.2.elim id id⟩

theorem putOther_keeps (stable : Stable cfg j P) {w : Writer} {d : Document}
    {base : Option StorageOperationRecord} (hsame : ∀ s : State, Same s (s.store j w d)) :
    (put j w d base).Keeps (logic cfg j) P :=
  put_keeps stable fun s' hi' hP _ =>
    ⟨hi'.same (hsame s'), (hsame s').guar, stable _ _ (hsame s').rely hP⟩

/-! ### Transactions -/

section Transactions

variable {op : String} {record : StorageOperationRecord} {k : Nat} {t : StorageTransaction}
  {w : Writer} {base : Option StorageOperationRecord}

theorem current_transaction (h : current s (.write j w (.transaction t) (some record)) true = true)
    (hearly : early t.status = true) :
    ∃ t0, s.transactions t.operationId = some t0 ∧ t0.status = record.transaction.status ∧
      t0.checkpointId = record.transaction.checkpointId ∧ s.plans t0.planId = some record.plan := by
  have hunchanged : unchanged s t.operationId record = true := by
    simpa [current, hearly] using h
  unfold unchanged at hunchanged
  split at hunchanged
  · cases hunchanged
  · next t0 ht0 =>
    simp only [Bool.and_eq_true, decide_eq_true_eq] at hunchanged
    exact ⟨t0, ht0, hunchanged.1.1, hunchanged.1.2, hunchanged.2⟩

theorem early_of_backed {status : StorageTransactionStatus} (h : backed status = true) :
    early status = true := by
  cases status <;> first | rfl | cases h

theorem early_of_authorized {status : StorageTransactionStatus} (h : status = .authorized) :
    early status = true := by
  rw [h]
  rfl

theorem putLate_keeps (inj : Function.Injective2 cfg.uuid4) (hb : Bound cfg op record k)
    (hop : t.operationId = record.transaction.operationId)
    (hplanId : t.planId = record.transaction.planId) (hlate : early t.status = false) :
    (putTransaction j w base t).Keeps (logic cfg j) (Present op) := by
  have hop' : t.operationId = op := hop.trans hb.key
  have hvalidatable : validatable t.status = false := by
    simp only [early, Bool.or_eq_false_iff] at hlate
    exact hlate.1
  refine put_keeps (stable_present cfg j op) fun s' hi' hpresent _ => ?_
  obtain ⟨hi1, hg⟩ := hi'.store (j := j) (w := w) inj (hop'.trans hb.operation)
    (hplanId.trans hb.planId)
    (fun h => by rw [early_of_backed h] at hlate; cases hlate)
    (fun t0 _ _ => ⟨hvalidatable, fun h => by rw [early_of_authorized h] at hlate; cases hlate⟩)
    (fun hnone => by
      rw [hop'] at hnone
      unfold Present at hpresent
      rw [hnone] at hpresent
      cases hpresent)
  exact ⟨hi1, hg, hg.1.present op hpresent⟩

/-- An early transaction that is written over the one that it was made from, with a plan that is
ready for it. -/
theorem Inv.storeCurrent (hi : Inv cfg s) (inj : Function.Injective2 cfg.uuid4)
    (hb : Bound cfg op record k) {plan : StorageOperationPlan}
    (hcurrent : current s (.write j w (.transaction t) (some { record with plan })) true = true)
    (hop : t.operationId = record.transaction.operationId)
    (hplanId : t.planId = record.transaction.planId)
    (hearly : early t.status = true)
    (hready : backed t.status = true →
      (backed record.transaction.status = true → Ready cfg record.transaction plan) →
      Ready cfg t plan)
    (hsettled : validatable record.transaction.status = false →
      validatable t.status = false ∧
        (t.status = .authorized → record.transaction.status = .authorized)) :
    Inv cfg (s.storeTransaction j w t) ∧ guar cfg j s (s.storeTransaction j w t) ∧
      s.plans t.planId = some plan := by
  obtain ⟨t0, ht0, hstatus, hcheckpoint, hplan⟩ := current_transaction hcurrent hearly
  have hop' : t.operationId = cfg.uuid4 k 1 := hop.trans (hb.key.trans hb.operation)
  have hplan0 : t0.planId = t.planId := by
    rw [hop'] at ht0
    rw [hi.planId_eq inj ht0, hplanId, hb.planId]
  rw [hplan0] at hplan
  have hrecord : backed record.transaction.status = true → Ready cfg record.transaction plan := by
    intro h
    obtain ⟨plan', hplan', hready'⟩ := hi.ready _ _ ht0 (by rw [hstatus]; exact h)
    rw [hplan0, hplan, Option.some.injEq] at hplan'
    subst hplan'
    obtain ⟨c, hc, hid⟩ := hready'.checkpoint
    exact ⟨hready'.executable, hready'.integrity, c, hc, by rw [← hid]; exact hcheckpoint.symm⟩
  obtain ⟨hi1, hg⟩ := hi.store (j := j) (w := w) inj hop' (hplanId.trans hb.planId)
    (fun h => ⟨plan, hplan, hready h hrecord⟩)
    (fun t1 ht1 hv => by
      obtain rfl : t0 = t1 := by rwa [ht0, Option.some.injEq] at ht1
      rw [hstatus] at hv ⊢
      exact hsettled hv)
    (fun hnone => by rw [ht0] at hnone; cases hnone)
  exact ⟨hi1, hg, hplan⟩

theorem putCopy_keeps (inj : Function.Injective2 cfg.uuid4) (hb : Bound cfg op record k)
    (hop : t.operationId = record.transaction.operationId)
    (hplanId : t.planId = record.transaction.planId)
    (hstatus : t.status = record.transaction.status)
    (hcheckpoint : t.checkpointId = record.transaction.checkpointId) :
    (putTransaction j w (some record) t).Keeps (logic cfg j) (Present op) := by
  cases hearly : early t.status with
  | false => exact putLate_keeps inj hb hop hplanId hearly
  | true =>
    refine put_keeps (stable_present cfg j op) fun s' hi' hpresent hcurrent => ?_
    obtain ⟨hi1, hg, -⟩ := hi'.storeCurrent inj hb hcurrent hop hplanId hearly
      (fun h hrecord => by
        obtain ⟨hx, hv, c, hc, hid⟩ := hrecord (hstatus ▸ h)
        exact ⟨hx, hv, c, hc, by rw [hcheckpoint, hid]⟩)
      (fun h => by rw [hstatus]; exact ⟨h, id⟩)
    exact ⟨hi1, hg, hg.1.present op hpresent⟩

end Transactions

/-! ### The engine -/

def Safe (cfg : Config) (j : Nat) {α : Type} (p : Task α) : Prop :=
  p.Keeps (logic cfg j) fun _ => True

theorem safe_quiet {α : Type} {p : Task α} (quiet : p.Quiet) : Safe cfg j p :=
  quiet.keeps stable_true

theorem present_quiet {α : Type} {p : Task α} (op : String) (quiet : p.Quiet) :
    p.Keeps (logic cfg j) (Present op) :=
  quiet.keeps (stable_present cfg j op)

theorem spec_safe {α : Type} {p : Task α} (h : p.Keeps (logic cfg j) P) (hi : Inv cfg s) (hP : P s) :
    p.Spec (logic cfg j) (fun _ s' => Inv cfg s' ∧ True) (fun _ s' => Inv cfg s' ∧ True) s :=
  (h s hi hP).mono (fun _ _ h' => ⟨h'.1, trivial⟩) fun _ _ h' => ⟨h'.1, trivial⟩

section Engine

variable {op : String} {record : StorageOperationRecord} {k : Nat}
variable (inj : Function.Injective2 cfg.uuid4) (named : ∀ k n, cfg.uuid4 k n ≠ "invalid")

theorem reconciled_late (operationId id : String) (now : DateTime)
    (plan : StorageOperationPlan) (current : StorageLayout) :
    early (judge cfg operationId id now plan current).status = false := by
  rw [judge_status]
  split
  · split
    · rfl
    · split <;> rfl
  · rfl

section Records

include inj named

theorem safe_getRecord {α : Type} {f : Option StorageOperationRecord → Task α}
    (hnone : Safe cfg j (f none))
    (hsome : ∀ record k, Bound cfg op record k → (f (some record)).Keeps (logic cfg j) (Present op)) :
    Safe cfg j ((getRecord cfg j op).bind f) := by
  intro s hi _
  rw [spec_bind]
  refine (getRecord_spec inj named hi op).mono (fun r s1 h1 => ?_) fun _ s1 h1 => ⟨h1.1, trivial⟩
  obtain ⟨hi1, -, hrecord⟩ := h1
  cases r with
  | none => exact hnone s1 hi1 trivial
  | some record =>
    obtain ⟨hpresent, k, hb⟩ := hrecord record rfl
    exact spec_safe (hsome record k hb) hi1 hpresent

theorem setStatus_safe {status : StorageTransactionStatus} (hlate : early status = false)
    (w : Writer) (errorCode lastKnownStage : Option String) (finished : Bool) :
    Safe cfg j (setStatus cfg j w op status errorCode lastKnownStage finished) := by
  refine safe_getRecord inj named (keeps_ret _) fun record k hb => ?_
  refine (present_quiet op quiet_reading).bind fun now => ?_
  exact putLate_keeps inj hb rfl rfl hlate

theorem markUnknown_safe (code : String) : Safe cfg j (markUnknown cfg j op code) :=
  safe_getRecord inj named (keeps_ret _) fun _ _ hb => putLate_keeps inj hb rfl rfl rfl

omit named in
theorem reinspect_keeps (hb : Bound cfg op record k) :
    (reinspect cfg j op record).Keeps (logic cfg j) (Present op) := by
  refine (present_quiet op (inspect_quiet _)).bind fun current =>
    (present_quiet op quiet_reading).bind fun now => ?_
  refine (putOther_keeps (stable_present cfg j op) fun _ => ⟨rfl, rfl, rfl⟩).bind fun _ => ?_
  refine (present_quiet op quiet_reading).bind fun now' => ?_
  refine (putLate_keeps inj hb ?_ ?_ ?_).bind fun _ => keeps_ret _
  · rfl
  · rfl
  · exact reconciled_late _ _ _ _ _

theorem reconcileUnknown_safe (sessionId : String) :
    Safe cfg j (reconcileUnknown cfg j op sessionId) := by
  refine safe_getRecord inj named (keeps_raise _) fun record k hb => ?_
  show Proc.Keeps _ _ (if record.transaction.status ≠ .unknown then _ else _)
  split
  · exact present_quiet op quiet_ofOption
  · exact (present_quiet op quiet_require).bind fun _ => reinspect_keeps inj hb

end Records

/-! #### Plans -/

theorem plan_spec (inj : Function.Injective2 cfg.uuid4) (hi : Inv cfg s) (hunborn : Unborn cfg j s)
    (request : DeclarativeStorageOperationRequest) (sessionId createdBy : String) :
    (plan cfg j request sessionId createdBy).Spec (logic cfg j) (fun _ s' => Inv cfg s' ∧ True)
      (fun _ s' => Inv cfg s' ∧ True) s := by
  have hquiet : ∀ {α : Type} {p : Task α}, p.Quiet → p.Keeps (logic cfg j) (Unborn cfg j) :=
    fun quiet => quiet.keeps stable_unborn
  have hborn : ∀ {s' : State} {u : StorageTransaction}, Unborn cfg j s' →
      s'.transactions (cfg.uuid4 j 1) = some u → False := by
    intro s' u hnone hu
    rw [Unborn, hu] at hnone
    cases hnone
  refine (hquiet (inspect_quiet _)).spec_bind hi hunborn (fun original s1 hi1 hs1 => ?_)
    fun _ s' hi' _ => ⟨hi', trivial⟩
  rw [spec_do, spec_state, spec_do,
    spec_ofExcept]
  refine ⟨fun ⟨proposed, target⟩ _ => ?_, fun _ _ => ⟨hi1, trivial⟩⟩
  dsimp only
  rw [spec_do, spec_require]
  refine ⟨fun _ => ?_, fun _ => ⟨hi1, trivial⟩⟩
  have hplan : (put j .planned (.plan (stampPlan cfg (draftPlan cfg j request sessionId s1.now
      s1.devices original proposed target))) none).Keeps (logic cfg j) (Unborn cfg j) := by
    refine put_keeps stable_unborn fun s' hi' hunborn' _ => ?_
    obtain ⟨hi2, hg⟩ := hi'.storePlan (j := j) (w := .planned) (k := j) inj
      (p := stampPlan cfg (draftPlan cfg j request sessionId s1.now s1.devices original proposed
        target)) rfl rfl fun u hu => (hborn hunborn' hu).elim
    exact ⟨hi2, hg, hunborn'⟩
  refine hplan.spec_bind hi1 hs1 (fun _ s2 hi2 hs2 => ?_) fun _ s' hi' _ => ⟨hi', trivial⟩
  rw [spec_do]
  refine (put_spec stable_unborn stable_true (fun s' hi' hunborn' _ => ?_) hi2 hs2).mono
    (fun _ _ h => h) fun _ _ h => ⟨h.1, trivial⟩
  obtain ⟨hi3, hg⟩ := hi'.store (j := j) (w := .planned) (k := j) inj
    (t := plannedTransaction cfg (stampPlan cfg (draftPlan cfg j request sessionId s1.now s1.devices
      original proposed target)) createdBy s1.now) rfl rfl
    (fun h => by cases h) (fun t0 ht0 _ => (hborn hunborn' ht0).elim) (fun _ => rfl)
  exact ⟨hi3, hg, trivial⟩

theorem validatedPlan_ready {plan : StorageOperationPlan} {f : Preflight}
    {dryRun : StorageDryRunResult} {c : ProtectionCheckpoint}
    (hcandidate : (f.candidate plan && dryRun.valid) = true) {t : StorageTransaction}
    (ht : t.checkpointId = some c.id) :
    Ready cfg t (validatedPlan cfg plan f dryRun (some c)) := by
  refine ⟨?_, ?_, c, rfl, ht⟩
  · show (f.candidate plan && dryRun.valid && true) = true
    rw [hcandidate]
    rfl
  · exact decide_eq_true rfl

theorem protect_spec (hi : Inv cfg s) (hpresent : Present op s) (plan : StorageOperationPlan)
    (f : Preflight) (dryRun : StorageDryRunResult) :
    (protect cfg j plan f dryRun).Spec (logic cfg j)
      (fun checkpoint s' => Inv cfg s' ∧ Present op s' ∧
        (checkpoint.isSome = true → (f.candidate plan && dryRun.valid) = true))
      (fun _ s' => Inv cfg s' ∧ Present op s') s := by
  have stable := stable_present cfg j op
  unfold protect
  split
  · next hcandidate =>
    refine (asEngine_keeps (present_quiet op quiet_attempt)).spec_bind hi hpresent
      (fun bundle s1 hi1 hs1 => ?_) fun _ s' hi' hs' => ⟨hi', hs'⟩
    rw [spec_do, spec_require]
    refine ⟨fun _ => ?_, fun _ => ⟨hi1, hs1⟩⟩
    refine (putOther_keeps stable fun _ => ⟨rfl, rfl, rfl⟩).spec_bind hi1 hs1
      (fun _ s2 hi2 hs2 => ?_) fun _ s' hi' hs' => ⟨hi', hs'⟩
    refine (putOther_keeps stable fun _ => ⟨rfl, rfl, rfl⟩).spec_bind hi2 hs2
      (fun _ s3 hi3 hs3 => ?_) fun _ s' hi' hs' => ⟨hi', hs'⟩
    exact ⟨hi3, hs3, fun _ => hcandidate⟩
  · exact ⟨hi, hpresent, fun h => by cases h⟩

theorem storeValidated_keeps (inj : Function.Injective2 cfg.uuid4) (hb : Bound cfg op record k)
    (hvalidatable : validatable record.transaction.status = true) {f : Preflight}
    {dryRun : StorageDryRunResult} {checkpoint : Option ProtectionCheckpoint}
    (hcandidate : checkpoint.isSome = true → (f.candidate record.plan && dryRun.valid) = true) :
    (storeValidated j record (validatedPlan cfg record.plan f dryRun checkpoint)).Keeps
      (logic cfg j) (Present op) := by
  have stable := stable_present cfg j op
  refine Proc.Keeps.bind ?_ fun _ => Proc.Keeps.bind ?_ fun _ => keeps_ret _
  · refine put_keeps stable fun s' hi' hpresent hcurrent => ?_
    have hop : (validatedPlan cfg record.plan f dryRun checkpoint).operationId = op :=
      hb.planOperation
    obtain ⟨hi1, hg⟩ := hi'.storePlan (j := j) (w := .validated) inj
      (p := validatedPlan cfg record.plan f dryRun checkpoint) hb.plan (hop.trans hb.operation)
      fun u hu => by
        simpa [current, hu] using hcurrent
    exact ⟨hi1, hg, hpresent⟩
  · refine put_keeps stable fun s' hi' hpresent hcurrent => ?_
    obtain ⟨hi1, hg, -⟩ := hi'.storeCurrent inj hb hcurrent rfl rfl
      (by dsimp only; split <;> rfl)
      (fun hbacked _ => by
        cases checkpoint with
        | none => cases hbacked
        | some c => exact validatedPlan_ready (hcandidate rfl) rfl)
      (fun h => by rw [hvalidatable] at h; cases h)
    exact ⟨hi1, hg, hg.1.present op hpresent⟩

theorem validateRecord_keeps (inj : Function.Injective2 cfg.uuid4) (hb : Bound cfg op record k) :
    (validateRecord cfg j record).Keeps (logic cfg j) (Present op) := by
  intro s hi hpresent
  rw [validateRecord, spec_do, spec_require]
  refine ⟨fun hvalidatable => ?_, fun _ => ⟨hi, hpresent⟩⟩
  rw [spec_do, spec_reading, spec_do,
    spec_require]
  refine ⟨fun _ => ?_, fun _ => ⟨hi, hpresent⟩⟩
  refine (present_quiet op (inspect_quiet _)).spec_bind hi hpresent (fun current s1 hi1 hs1 => ?_)
    fun _ s' hi' hs' => ⟨hi', hs'⟩
  rw [spec_do, spec_require]
  refine ⟨fun _ => ?_, fun _ => ⟨hi1, hs1⟩⟩
  rw [spec_do, spec_require]
  refine ⟨fun _ => ?_, fun _ => ⟨hi1, hs1⟩⟩
  rw [spec_do, spec_reading]
  refine (asEngine_keeps (present_quiet op quiet_attempt)).spec_bind hi1 hs1
    (fun dryRun s2 hi2 hs2 => ?_) fun _ s' hi' hs' => ⟨hi', hs'⟩
  rw [spec_do]
  refine (protect_spec hi2 hs2 _ _ _).mono (fun checkpoint s3 h3 => ?_) fun _ _ h => h
  exact storeValidated_keeps inj hb hvalidatable h3.2.2 s3 h3.1 h3.2.1

include inj named in
theorem validate_safe (sessionId : String) : Safe cfg j (validate cfg j op sessionId) := by
  intro s hi _
  rw [validate, spec_do]
  refine (getRecord_spec inj named hi op).mono (fun r s1 h1 => ?_) fun _ s1 h1 => ⟨h1.1, trivial⟩
  obtain ⟨hi1, -, hrecord⟩ := h1
  rw [spec_do, spec_ofOption]
  refine ⟨fun record hr => ?_, fun _ => ⟨hi1, trivial⟩⟩
  obtain ⟨hpresent, k, hb⟩ := hrecord record hr
  rw [spec_do, spec_require]
  refine ⟨fun _ => ?_, fun _ => ⟨hi1, trivial⟩⟩
  split
  · have hrest : Safe cfg j (validateUnknown cfg j op sessionId) := by
      refine (reconcileUnknown_safe inj named sessionId).bind fun _ => ?_
      refine (getRecord_keeps inj named stable_true op).bind fun refreshed => safe_quiet ?_
      exact quiet_ofOption.bind fun _ => quiet_require.bind fun _ => quiet_ret
    exact hrest s1 hi1 trivial
  · exact spec_safe (validateRecord_keeps inj hb) hi1 hpresent

/-! #### Authorization -/

/-- The operation is past its validation, and authorized for no other plan. -/
def Held (op : String) (plan : StorageOperationPlan) (s : State) : Prop :=
  ∃ t, s.transactions op = some t ∧ validatable t.status = false ∧
    (t.status = .authorized → s.plans t.planId = some plan)

theorem stable_held (cfg : Config) (j : Nat) (op : String) (plan : StorageOperationPlan) :
    Stable cfg j (Held op plan) := by
  rintro s s' hr ⟨t, ht, hv, hplan⟩
  obtain ⟨t', ht'⟩ := Option.isSome_iff_exists.mp (hr.1.present op (by rw [ht]; rfl))
  obtain ⟨hv', hsame⟩ := hr.1.settled op t t' ht ht' hv
  refine ⟨t', ht', hv', fun hauthorized => ?_⟩
  obtain ⟨hauthorized', hplan'⟩ := hsame hauthorized
  rw [hplan', hplan hauthorized']

include inj named in
theorem recopy_keeps {w : Writer} {f : StorageTransaction → StorageTransaction}
    (hoperation : ∀ t, (f t).operationId = t.operationId) (hplan : ∀ t, (f t).planId = t.planId)
    (hstatus : ∀ t, (f t).status = t.status)
    (hcheckpoint : ∀ t, (f t).checkpointId = t.checkpointId) :
    (Proc.bind (getRecord cfg j op) fun record => match record with
      | none => pure ()
      | some record => putTransaction j w (some record) (f record.transaction)).Keeps
      (logic cfg j) (Present op) := by
  intro s hi hpresent
  rw [spec_bind]
  refine (getRecord_spec inj named hi op).mono (fun r s1 h1 => ?_)
    fun _ s1 h1 => ⟨h1.1, stable_present cfg j op _ _ h1.2 hpresent⟩
  obtain ⟨hi1, hr1, hrecord⟩ := h1
  cases r with
  | none => exact ⟨hi1, stable_present cfg j op _ _ hr1 hpresent⟩
  | some record =>
    obtain ⟨hpresent1, k, hb⟩ := hrecord record rfl
    exact putCopy_keeps inj hb (hoperation _) (hplan _) (hstatus _) (hcheckpoint _) s1 hi1 hpresent1

include inj named in
theorem challenge_keeps (challengeId : String) :
    (challenge cfg j op challengeId).Keeps (logic cfg j) (Present op) :=
  (recopy_keeps inj named (f := fun t => { t with authorizationChallengeId := some challengeId })
    (fun _ => rfl) (fun _ => rfl) (fun _ => rfl) fun _ => rfl).bind fun _ =>
    present_quiet op quiet_attempt

include inj named in
theorem authorizationMessages_spec (hi : Inv cfg s) (hpresent : Present op s)
    (plan : StorageOperationPlan) (n : Nat) :
    (authorizationMessages plan (challenge cfg j op) n).Spec (logic cfg j)
      (fun g s' => Inv cfg s' ∧ Present op s' ∧ Granted plan g)
      (fun _ s' => Inv cfg s' ∧ Present op s') s := by
  induction n generalizing s with
  | zero =>
    rw [authorizationMessages, attempt, Proc.attempt, spec_bind]
    intro s1 hi1 hr1 answer hanswer
    have hs1 := stable_present cfg j op _ _ hr1 hpresent
    rw [spec_ret, spec_ofExcept]
    refine ⟨?_, fun _ _ => ⟨hi1, hs1⟩⟩
    rintro g rfl
    exact ⟨hi1, hs1, of_decide_eq_true hanswer.1.2⟩
  | succ n ih =>
    refine (present_quiet op quiet_attempt).spec_bind hi hpresent
      (fun challengeId s1 hi1 hs1 => ?_) fun _ s' hi' hs' => ⟨hi', hs'⟩
    have hchallenge : (challengeId.elim (pure ()) (challenge cfg j op)).Keeps (logic cfg j)
        (Present op) := by
      cases challengeId with
      | none => exact keeps_ret _
      | some id => exact challenge_keeps inj named id
    exact hchallenge.spec_bind hi1 hs1 (fun _ s2 hi2 hs2 => ih hi2 hs2)
      fun _ s' hi' hs' => ⟨hi', hs'⟩

include inj named in
theorem obtainGrant_safe (hb : Bound cfg op record k)
    (hstatus : record.transaction.status = .protected_) :
    (obtainGrant j op record (challenge cfg j op)).Keeps (logic cfg j) (Present op) := by
  intro s hi hpresent
  have hexecutor : (asEngine (executorRequestAuthorization record.plan (challenge cfg j op))).Spec
      (logic cfg j) (fun g s' => Inv cfg s' ∧ Present op s' ∧ Granted record.plan g)
      (fun _ s' => Inv cfg s' ∧ Present op s') s := by
    rw [asEngine, spec_handle, executorRequestAuthorization]
    refine (present_quiet op quiet_attempt).spec_bind hi hpresent (fun _ s1 hi1 hs1 => ?_)
      fun e s' hi' hs' => by cases e <;> exact ⟨hi', hs'⟩
    refine (present_quiet op quiet_perform).spec_bind hi1 hs1 (fun n s2 hi2 hs2 => ?_)
      fun e s' hi' hs' => by cases e <;> exact ⟨hi', hs'⟩
    exact (authorizationMessages_spec inj named hi2 hs2 record.plan n).mono (fun _ _ h => h)
      fun e _ h => by cases e <;> exact h
  rw [obtainGrant, spec_do]
  refine hexecutor.mono (fun g s1 h1 => ?_) fun _ _ h => h
  obtain ⟨hi1, hs1, hgranted⟩ := h1
  rw [spec_do]
  refine (put_spec (stable_present cfg j op) (stable_held cfg j op record.plan)
    (fun s' hi' hpresent' hcurrent => ?_) hi1 hs1).mono (fun _ s2 h2 => ?_) fun _ s2 h2 => ?_
  · obtain ⟨hi2, hg, hplan⟩ := hi'.storeCurrent inj hb hcurrent rfl rfl rfl
      (fun _ hrecord => by
        obtain ⟨hx, hv, c, hc, hid⟩ := hrecord (by rw [hstatus]; rfl)
        exact ⟨hx, hv, c, hc, hid⟩)
      (fun h => by rw [hstatus] at h; cases h)
    refine ⟨hi2, hg, _, ?_, rfl, fun _ => hplan⟩
    show Function.update s'.transactions record.transaction.operationId _ op = _
    rw [hb.key, Function.update_self]
  · obtain ⟨hi2, t, ht, hv, hplan⟩ := h2
    obtain ⟨hi3, hg⟩ := hi2.setGrant (j := j) op (some g) (by
      rintro g' ⟨⟩
      exact ⟨t, ht, hv, fun h => ⟨record.plan, hplan h, hgranted⟩⟩)
    refine ⟨hg, hi3, hi3, ?_⟩
    show (s2.transactions op).isSome
    rw [ht]
    rfl
  · obtain ⟨hi2, hs2 | ⟨t, ht, -⟩⟩ := h2
    · exact ⟨hi2, hs2⟩
    · refine ⟨hi2, ?_⟩
      unfold Present
      rw [ht]
      rfl

include inj named in
theorem requestAuthorization_safe (sessionId : String) :
    Safe cfg j (requestAuthorization cfg j op sessionId (challenge cfg j op)) := by
  intro s hi _
  rw [requestAuthorization, spec_do]
  refine (getRecord_spec inj named hi op).mono (fun r s1 h1 => ?_) fun _ s1 h1 => ⟨h1.1, trivial⟩
  obtain ⟨hi1, -, hrecord⟩ := h1
  rw [spec_do, spec_ofOption]
  refine ⟨fun record hr => ?_, fun _ => ⟨hi1, trivial⟩⟩
  obtain ⟨hpresent, k, hb⟩ := hrecord record hr
  rw [spec_do, spec_require]
  refine ⟨fun hauthorizable => ?_, fun _ => ⟨hi1, trivial⟩⟩
  have hstatus : record.transaction.status = .protected_ := by
    simp only [authorizable, Bool.and_eq_true, decide_eq_true_eq] at hauthorizable
    exact hauthorizable.1.1.1
  refine spec_safe (P := Present op) ?_ hi1 hpresent
  refine (present_quiet op quiet_ofOption).bind fun checkpoint =>
    (present_quiet op quiet_require).bind fun _ =>
    (present_quiet op (getProtection_quiet _)).bind fun durable =>
    (present_quiet op (get_quiet _)).bind fun artifact =>
    (present_quiet op quiet_require).bind fun _ => ?_
  exact obtainGrant_safe inj named hb hstatus

end Engine

end Ares.Operations.Authority
