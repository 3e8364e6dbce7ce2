import Ares.Operations.Quiet
import Ares.Operations.Reconcile

/-! The authority behind a transaction.  A protected or authorized transaction has an executable,
unchanged and protected plan, and the grant that the engine holds for it is for that plan, in the
runs in which a validation does not replace the plan of a protected operation and no early status is
written over a record that has changed meanwhile. -/

namespace Ares.Operations.Authority

open Coop Data Storage

def early (status : StorageTransactionStatus) : Bool := validatable status || status = .authorized

def backed (status : StorageTransactionStatus) : Bool := status = .protected_ || status = .authorized

/-- The plan is one that may be executed under the checkpoint of the transaction. -/
structure Ready (cfg : Config) (t : StorageTransaction) (plan : StorageOperationPlan) : Prop where
  executable : plan.executable = true
  integrity : storagePlanIntegrityValid cfg.lib plan = true
  checkpoint : ∃ c, plan.protectionCheckpoint = some c ∧ t.checkpointId = some c.id

def Granted (plan : StorageOperationPlan) (g : StorageAuthorizationGrant) : Prop :=
  g.planId = plan.id ∧ g.planFingerprintSha256 = plan.fingerprintSha256

instance (plan : StorageOperationPlan) (g : StorageAuthorizationGrant) :
    Decidable (Granted plan g) :=
  inferInstanceAs (Decidable (_ ∧ _))

/-- Every protected or authorized transaction has a ready plan, and a grant for an authorized one is
for its plan. -/
def Backed (cfg : Config) (s : State) : Prop :=
  ∀ op t, s.transactions op = some t → backed t.status = true →
    ∃ plan, s.plans t.planId = some plan ∧ Ready cfg t plan ∧
      (t.status = .authorized → ∀ g, s.grants op = some g → Granted plan g)

/-! ### The systems -/

/-- The calls of the engine that make, check, authorize and execute a plan. -/
def engineCall : Request → Bool
  | .plan _ _ _ | .validate _ _ | .requestAuthorization _ _ | .executeAuthorized _ _ => true
  | _ => false

def grantsAsked : (o : Op) → Res o → Bool
  | .call (.grant plan), .ok g => Granted plan g
  | _, _ => true

/-- The engine alone, with an executor that grants what it was asked for. -/
def engineSystem (cfg : Config) : System State Res Error Response Request World :=
  (system cfg).restrict (fun _ request => engineCall request = true)
    fun _ o r => grantsAsked o r = true

def unchanged (s : State) (operationId : String) (record : StorageOperationRecord) : Bool :=
  match s.transactions operationId with
  | none => false
  | some t => t.status = record.transaction.status &&
    t.checkpointId = record.transaction.checkpointId && s.plans t.planId = some record.plan

/-- A validation replaces no plan of a protected or authorized operation, and a transaction with an
early status replaces the one that it was made from. -/
def current (s : State) : (o : Op) → Res o → Bool
  | .write _ .validated (.plan p) _, true =>
    (s.transactions p.operationId).all fun t => !backed t.status
  | .write _ _ (.transaction t) (some record), true =>
    !early t.status || unchanged s t.operationId record
  | _, _ => true

/-- The runs of the engine whose writes are all current. -/
def currentSystem (cfg : Config) : System State Res Error Response Request World :=
  (engineSystem cfg).restrict (fun _ _ => True) fun s o r => current s o r = true

/-! ### The invariant -/

structure Inv (cfg : Config) (s : State) : Prop where
  transactions : ∀ op t, s.transactions op = some t →
    ∃ k, op = cfg.uuid4 k 1 ∧ t.operationId = op ∧ t.planId = cfg.uuid4 k 0
  plans : ∀ key p, s.plans key = some p →
    p.id = key ∧ ∃ k, key = cfg.uuid4 k 0 ∧ p.operationId = cfg.uuid4 k 1
  ready : ∀ op t, s.transactions op = some t → backed t.status = true →
    ∃ plan, s.plans t.planId = some plan ∧ Ready cfg t plan
  grants : ∀ op g, s.grants op = some g → ∃ t, s.transactions op = some t ∧
    validatable t.status = false ∧
    (t.status = .authorized → ∃ plan, s.plans t.planId = some plan ∧ Granted plan g)

theorem backed_of_inv {cfg : Config} {s : State} (hi : Inv cfg s) : Backed cfg s := by
  intro op t ht hb
  obtain ⟨plan, hplan, hready⟩ := hi.ready op t ht hb
  refine ⟨plan, hplan, hready, fun hauthorized g hg => ?_⟩
  obtain ⟨t', ht', -, hgrant⟩ := hi.grants op g hg
  obtain rfl : t = t' := by rwa [ht, Option.some.injEq] at ht'
  obtain ⟨plan', hplan', hgranted⟩ := hgrant hauthorized
  rw [hplan, Option.some.injEq] at hplan'
  rwa [hplan']

/-- What happened to the transactions: none is gone, and one that was past its validation is still
so, and authorized only for the same plan as before. -/
structure Later (s s' : State) : Prop where
  present : ∀ op, (s.transactions op).isSome → (s'.transactions op).isSome
  settled : ∀ op t t', s.transactions op = some t → s'.transactions op = some t' →
    validatable t.status = false → validatable t'.status = false ∧
      (t'.status = .authorized →
        t.status = .authorized ∧ s'.plans t'.planId = s.plans t.planId)

theorem Later.refl (s : State) : Later s s := by
  refine ⟨fun _ h => h, fun op t t' ht ht' hv => ?_⟩
  obtain rfl : t = t' := by rwa [ht, Option.some.injEq] at ht'
  exact ⟨hv, fun h => ⟨h, rfl⟩⟩

theorem Later.trans {s s' s'' : State} (h : Later s s') (h' : Later s' s'') : Later s s'' := by
  refine ⟨fun op hop => h'.present op (h.present op hop), fun op t t'' ht ht'' hv => ?_⟩
  obtain ⟨t', ht'⟩ := Option.isSome_iff_exists.mp (h.present op (by rw [ht]; rfl))
  obtain ⟨hv', hsame⟩ := h.settled op t t' ht ht' hv
  obtain ⟨hv'', hsame'⟩ := h'.settled op t' t'' ht' ht'' hv'
  refine ⟨hv'', fun hauthorized => ?_⟩
  obtain ⟨hauthorized', hplan'⟩ := hsame' hauthorized
  obtain ⟨hauthorized'', hplan⟩ := hsame hauthorized'
  exact ⟨hauthorized'', hplan'.trans hplan⟩

/-- The task `j` has not stored its own operation. -/
def Unborn (cfg : Config) (j : Nat) (s : State) : Prop := s.transactions (cfg.uuid4 j 1) = none

def rely (cfg : Config) (j : Nat) (s s' : State) : Prop :=
  Later s s' ∧ (Unborn cfg j s → Unborn cfg j s')

def guar (cfg : Config) (j : Nat) (s s' : State) : Prop :=
  Later s s' ∧ ∀ op, op ≠ cfg.uuid4 j 1 → s.transactions op = none → s'.transactions op = none

def logic (cfg : Config) (j : Nat) : Logic State Res :=
  ⟨Inv cfg, rely cfg j, guar cfg j, (currentSystem cfg).answers⟩

/-- Two states with the same transactions, plans and grants. -/
structure Same (s s' : State) : Prop where
  transactions : s'.transactions = s.transactions
  plans : s'.plans = s.plans
  grants : s'.grants = s.grants

theorem Inv.same {cfg : Config} {s s' : State} (hi : Inv cfg s) (h : Same s s') : Inv cfg s' := by
  obtain ⟨ht, hp, hg⟩ := h
  refine ⟨?_, ?_, ?_, ?_⟩
  · rw [ht]
    exact hi.transactions
  · rw [hp]
    exact hi.plans
  · rw [ht, hp]
    exact hi.ready
  · rw [hg, ht, hp]
    exact hi.grants

theorem Same.later {s s' : State} (h : Same s s') : Later s s' := by
  have := Later.refl s
  refine ⟨fun op hop => by rwa [h.transactions], fun op t t' ht ht' hv => ?_⟩
  rw [h.transactions] at ht'
  rw [h.plans]
  exact this.settled op t t' ht ht' hv

theorem Same.guar {cfg : Config} {j : Nat} {s s' : State} (h : Same s s') : guar cfg j s s' :=
  ⟨h.later, fun op _ hop => by rw [h.transactions, hop]⟩

/-! ### Writes -/

section Writes

variable {cfg : Config} {j k : Nat} {s : State} {t t0 : StorageTransaction} {w : Writer}

theorem Inv.planId_eq (hi : Inv cfg s) (inj : Function.Injective2 cfg.uuid4)
    (ht : s.transactions (cfg.uuid4 k 1) = some t) : t.planId = cfg.uuid4 k 0 := by
  obtain ⟨k', hk, -, hplan⟩ := hi.transactions _ _ ht
  rw [hplan, (inj hk).1]

theorem Inv.operation_eq (hi : Inv cfg s) (inj : Function.Injective2 cfg.uuid4) {op : String}
    (ht : s.transactions op = some t) (hplan : t.planId = cfg.uuid4 k 0) : op = cfg.uuid4 k 1 := by
  obtain ⟨k', hk, -, hplan'⟩ := hi.transactions _ _ ht
  rw [hplan'] at hplan
  rw [hk, (inj hplan).1]

/-- A write of a transaction keeps the invariant: it has a ready plan where its status needs one, it
does not take a settled transaction back, and only the task `j` stores its own operation. -/
theorem Inv.store (hi : Inv cfg s) (inj : Function.Injective2 cfg.uuid4)
    (hop : t.operationId = cfg.uuid4 k 1) (hplanId : t.planId = cfg.uuid4 k 0)
    (hready : backed t.status = true → ∃ plan, s.plans t.planId = some plan ∧ Ready cfg t plan)
    (hsettled : ∀ t0, s.transactions t.operationId = some t0 → validatable t0.status = false →
      validatable t.status = false ∧ (t.status = .authorized → t0.status = .authorized))
    (hborn : s.transactions t.operationId = none → t.operationId = cfg.uuid4 j 1) :
    Inv cfg (s.storeTransaction j w t) ∧ guar cfg j s (s.storeTransaction j w t) := by
  have hself : (s.storeTransaction j w t).transactions t.operationId = some t := by
    rw [State.storeTransaction_transactions, Function.update_self]
  have hother : ∀ {op}, op ≠ t.operationId →
      (s.storeTransaction j w t).transactions op = s.transactions op := fun h => by
    rw [State.storeTransaction_transactions, Function.update_of_ne h]
  have hplan : ∀ t0, s.transactions t.operationId = some t0 → t0.planId = t.planId := fun t0 ht0 => by
    rw [hop] at ht0
    rw [hi.planId_eq inj ht0, hplanId]
  refine ⟨⟨fun op u hu => ?_, hi.plans, fun op u hu hb => ?_, fun op g hg => ?_⟩,
    ⟨fun op h => ?_, fun op u u' hu hu' hv => ?_⟩, fun op hj h => ?_⟩
  all_goals
    by_cases heq : op = t.operationId
  · subst heq
    rw [hself, Option.some.injEq] at hu
    subst hu
    exact ⟨k, hop, rfl, hplanId⟩
  · exact hi.transactions op u (hother heq ▸ hu)
  · subst heq
    rw [hself, Option.some.injEq] at hu
    subst hu
    exact hready hb
  · exact hi.ready op u (hother heq ▸ hu) hb
  · obtain ⟨u, hu, hv, hgranted⟩ := hi.grants op g hg
    subst heq
    refine ⟨t, hself, (hsettled u hu hv).1, fun hauthorized => ?_⟩
    have := hgranted ((hsettled u hu hv).2 hauthorized)
    rwa [hplan u hu] at this
  · obtain ⟨u, hu, hv, hgranted⟩ := hi.grants op g hg
    exact ⟨u, by rw [hother heq, hu], hv, hgranted⟩
  · subst heq
    rw [hself]
    rfl
  · rwa [hother heq]
  · subst heq
    rw [hself, Option.some.injEq] at hu'
    subst hu'
    refine ⟨(hsettled u hu hv).1, fun hauthorized => ⟨(hsettled u hu hv).2 hauthorized, ?_⟩⟩
    rw [State.storeTransaction_plans, hplan u hu]
  · rw [hother heq] at hu'
    exact (Later.refl s).settled op u u' hu hu' hv
  · subst heq
    exact absurd (hborn h) hj
  · rwa [hother heq]

theorem Inv.storePlan (hi : Inv cfg s) (inj : Function.Injective2 cfg.uuid4)
    {p : StorageOperationPlan} (hid : p.id = cfg.uuid4 k 0) (hop : p.operationId = cfg.uuid4 k 1)
    (hfree : ∀ u, s.transactions p.operationId = some u → backed u.status = false) :
    Inv cfg (s.store j w (.plan p)) ∧ guar cfg j s (s.store j w (.plan p)) := by
  have hother : ∀ {op u}, s.transactions op = some u → backed u.status = true →
      (s.store j w (.plan p)).plans u.planId = s.plans u.planId := by
    intro op u hu hb
    have hne : u.planId ≠ p.id := by
      intro h
      have hop' := hi.operation_eq inj hu (h.trans hid)
      rw [hop', ← hop] at hu
      rw [hfree u hu] at hb
      cases hb
    show Function.update s.plans p.id (some p) u.planId = _
    rw [Function.update_of_ne hne]
  have hauth : ∀ {u : StorageTransaction}, u.status = .authorized → backed u.status = true :=
    fun h => by rw [h]; rfl
  refine ⟨⟨hi.transactions, fun key q hq => ?_, fun op u hu hb => ?_, fun op g hg => ?_⟩,
    ⟨fun _ h => h, fun op u u' hu hu' hv => ?_⟩, fun op _ h => h⟩
  · replace hq : Function.update s.plans p.id (some p) key = some q := hq
    by_cases hkey : key = p.id
    · subst hkey
      rw [Function.update_self, Option.some.injEq] at hq
      subst hq
      exact ⟨rfl, k, hid, hop⟩
    · rw [Function.update_of_ne hkey] at hq
      exact hi.plans key q hq
  · rw [hother hu hb]
    exact hi.ready op u hu hb
  · obtain ⟨u, hu, hv, hgranted⟩ := hi.grants op g hg
    refine ⟨u, hu, hv, fun hauthorized => ?_⟩
    rw [hother hu (hauth hauthorized)]
    exact hgranted hauthorized
  · obtain ⟨hv', hsame⟩ := (Later.refl s).settled op u u' hu hu' hv
    refine ⟨hv', fun hauthorized => ⟨(hsame hauthorized).1, ?_⟩⟩
    rw [hother hu' (hauth hauthorized)]
    exact (hsame hauthorized).2

theorem Inv.setGrant (hi : Inv cfg s) (op : String) (g : Option StorageAuthorizationGrant)
    (hg : ∀ g', g = some g' → ∃ t, s.transactions op = some t ∧ validatable t.status = false ∧
      (t.status = .authorized → ∃ plan, s.plans t.planId = some plan ∧ Granted plan g')) :
    Inv cfg (s.setGrant op g) ∧ guar cfg j s (s.setGrant op g) := by
  refine ⟨⟨hi.transactions, hi.plans, hi.ready, fun op' g' hg' => ?_⟩,
    ⟨fun _ h => h, (Later.refl s).settled⟩, fun _ _ h => h⟩
  replace hg' : Function.update s.grants op g op' = some g' := hg'
  by_cases h : op' = op
  · subst h
    rw [Function.update_self] at hg'
    exact hg g' hg'
  · rw [Function.update_of_ne h] at hg'
    exact hi.grants op' g' hg'

end Writes

end Ares.Operations.Authority
