import Ares.Operations.Quiet
import Ares.Operations.Reconcile

/-! The uncertainty of a write.  While the broker may be writing, the stored transaction is
executing or unknown in the runs whose failures the engine counts as uncertainty.  The engine counts
four error codes of its executor as such, and the service the cancellation of the whole task; every
other failure ends in `mark_failed`. -/

namespace Ares.Operations.Uncertainty

open Coop Data Storage

/-! ### The condition -/

/-- The broker has the request of the task, and has neither compared a layout with the plan nor
ended without a write. -/
def Doubt (s : State) (j : Nat) : Prop := s.writes j = .working ∨ s.writes j = .writing

def raised : (o : Op) → Res o → Option Error
  | .call _, .error e => some e
  | _, _ => none

def smooth : (o : Op) → Res o → Bool
  | .call .read, .ok readable => readable
  | .call _, r => r.isOk
  | .write _ _ _ _, written => written
  | .rounds, _ => true
  | .stop, stop => stop = .task

def awaitsBroker : Op → Bool
  | .call .message | .call (.outcome _) => true
  | _ => false

/-- An answer while a write is in doubt.  The executor raises only the codes that count as
uncertainty.  Until the stored transaction is unknown, nothing else fails, except that the whole
task may be cancelled inside its action; from then on, everything inside the action may fail, and
the rest of the task may be cancelled. -/
def calm (cfg : Config) (op : String) (s : State) (o : Op) (r : Res o) : Prop :=
  ∀ j, Doubt s j →
    (∀ code, raised o r = some (.executor code) → code ∈ uncertainCodes) ∧
    if s.status (safeId cfg op) = some .unknown then
      s.acting j ≠ none ∨ ∀ e, raised o r = some e → e = .cancelled
    else
      smooth o r = true ∨ (awaitsBroker o = true ∧ ∃ code, raised o r = some (.executor code)) ∨
        (raised o r = some .cancelled ∧ s.acting j ≠ none ∧ s.interrupted j = false)

/-- The background task of the execution has begun as task `j`. -/
def Runs (s : State) (j : Nat) : Prop :=
  ∃ handle input seen, .received j (.executeTask handle input seen) ∈ s.history

/-- One call of `execute` for one operation, the task that it creates and its cancellation. -/
def oneExecution (op : String) (s : State) : Request → Prop
  | .execute operationId _ => operationId = op ∧ s.history = []
  | .executeTask _ _ _ => ∀ j, ¬Runs s j
  | .interrupt _ _ _ => True
  | _ => False

/-- The runs of one execution. -/
def executionSystem (cfg : Config) (op : String) :
    System State Res Error Response Request World :=
  (system cfg).restrict (oneExecution op) fun _ _ _ => True

/-- The runs of one execution in which every answer is calm. -/
def calmSystem (cfg : Config) (op : String) : System State Res Error Response Request World :=
  (system cfg).restrict (oneExecution op) (calm cfg op)

/-! ### The invariant -/

def Unknown (cfg : Config) (op : String) (s : State) : Prop :=
  ∃ t, s.transactions (safeId cfg op) = some t ∧ t.status = .unknown ∧
    t.reconciliationRequired = true

/-- A transaction that may be stored while a write is in doubt. -/
def Open (t : StorageTransaction) : Prop :=
  t.status = .executing ∨ t.status = .unknown ∧ t.reconciliationRequired = true

def Inside (cfg : Config) (op : String) (s : State) : Prop :=
  ∃ t, s.transactions (safeId cfg op) = some t ∧ (s.plans (safeId cfg t.planId)).isSome ∧ Open t

structure Inv (cfg : Config) (op : String) (s : State) : Prop where
  keyed : ∀ k t, s.transactions k = some t → t.operationId = k
  pending : ∀ r ∈ s.pending, ∃ handle input seen,
    r = .executeTask handle input seen ∧ input.operationId = op
  unique : ∀ i j, Runs s i → Runs s j → i = j
  begun : ∀ j, s.writes j ≠ .idle → Runs s j
  acting : ∀ j handle operationId, s.acting j = some (handle, operationId) → operationId = op
  inside : ∀ j, Doubt s j → Inside cfg op s

/-- What a task may do to itself and others may do to it: no doubt begins. -/
structure Onward (j : Nat) (s s' : State) : Prop where
  doubt : Doubt s' j → Doubt s j
  acting : s'.acting j = s.acting j
  plans : s'.plans = s.plans
  runs : ∀ i, Runs s i → Runs s' i

/-- What the other tasks leave a task: an unknown outcome stays unknown. -/
structure Rely (cfg : Config) (op : String) (j : Nat) (s s' : State) : Prop extends
    Onward j s s' where
  idle : s.writes j = .idle → s'.writes j = .idle
  unknown : Runs s j → Unknown cfg op s → Unknown cfg op s'
  inside : Runs s j → Inside cfg op s → Inside cfg op s'

def guar (cfg : Config) (op : String) (j : Nat) (s s' : State) : Prop :=
  ∀ i, i ≠ j → Rely cfg op i s s'

/-- The promises of the task `j`. -/
def logic (cfg : Config) (op : String) (j : Nat) : Logic State Res :=
  ⟨Inv cfg op, Rely cfg op j, guar cfg op j, (calmSystem cfg op).answers⟩

section Relations

variable {cfg : Config} {op : String} {j : Nat} {s s' s'' : State}

theorem Onward.refl (j : Nat) (s : State) : Onward j s s := ⟨id, rfl, rfl, fun _ h => h⟩

theorem Onward.trans (h : Onward j s s') (h' : Onward j s' s'') : Onward j s s'' :=
  ⟨fun hd => h.doubt (h'.doubt hd), h'.acting.trans h.acting, h'.plans.trans h.plans,
    fun i hi => h'.runs i (h.runs i hi)⟩

theorem Rely.refl (j : Nat) (s : State) : Rely cfg op j s s :=
  ⟨.refl j s, id, fun _ => id, fun _ => id⟩

theorem Rely.trans (h : Rely cfg op j s s') (h' : Rely cfg op j s' s'') : Rely cfg op j s s'' :=
  ⟨h.toOnward.trans h'.toOnward, fun hi => h'.idle (h.idle hi),
    fun hr hu => h'.unknown (h.runs j hr) (h.unknown hr hu),
    fun hr hu => h'.inside (h.runs j hr) (h.inside hr hu)⟩

/-- Two states that differ in nothing that matters here. -/
structure Same (s s' : State) : Prop where
  transactions : s'.transactions = s.transactions
  plans : s'.plans = s.plans
  pending : s'.pending = s.pending
  acting : s'.acting = s.acting
  writes : s'.writes = s.writes
  history : s'.history = s.history

theorem Same.inside (h : Same s s') : Inside cfg op s' ↔ Inside cfg op s := by
  unfold Inside
  rw [h.transactions, h.plans]

theorem Same.rely (h : Same s s') (j : Nat) : Rely cfg op j s s' where
  doubt hd := by unfold Doubt at hd; rwa [h.writes] at hd
  acting := by rw [h.acting]
  plans := h.plans
  runs i hi := by unfold Runs; rwa [h.history]
  idle hi := by rw [h.writes, hi]
  unknown _ hu := by unfold Unknown; rwa [h.transactions]
  inside _ := h.inside.mpr

theorem Inv.same (hi : Inv cfg op s) (h : Same s s') : Inv cfg op s' where
  keyed k t ht := hi.keyed k t (h.transactions ▸ ht)
  pending r hr := hi.pending r (h.pending ▸ hr)
  unique i j hr hr' := by
    unfold Runs at hr hr'
    rw [h.history] at hr hr'
    exact hi.unique i j hr hr'
  begun j hj := by
    have hrely : Rely cfg op j s s' := h.rely j
    exact hrely.runs j (hi.begun j (h.writes ▸ hj))
  acting j handle operationId ha := hi.acting j handle operationId (h.acting ▸ ha)
  inside j hd := by
    have hrely : Rely cfg op j s s' := h.rely j
    exact h.inside.mpr (hi.inside j (hrely.doubt hd))

theorem same_see (j : Nat) (t : StorageTransaction) (s : State) : Same s (s.see j t) := by
  unfold State.see
  split <;> exact ⟨rfl, rfl, rfl, rfl, rfl, rfl⟩

theorem doubt_setWrite_self (j : Nat) (w : WriteState) :
    Doubt (s.setWrite j w) j ↔ w = .working ∨ w = .writing := by
  simp [Doubt, State.setWrite]

theorem writes_setWrite_of_ne {i : Nat} (h : i ≠ j) (w : WriteState) :
    (s.setWrite j w).writes i = s.writes i := Function.update_of_ne h _ _

theorem doubt_setWrite_of_ne {i : Nat} (h : i ≠ j) (w : WriteState) :
    Doubt (s.setWrite j w) i ↔ Doubt s i := by
  unfold Doubt
  rw [writes_setWrite_of_ne h]

theorem Inside.status (h : Inside cfg op s) :
    s.status (safeId cfg op) ≠ some .failed ∧ s.status (safeId cfg op) ≠ some .aborted := by
  obtain ⟨t, ht, -, hopen⟩ := h
  unfold State.status
  rw [ht]
  rcases hopen with h | h <;> simp [h]

theorem Inside.unknown (h : Inside cfg op s) (hu : s.status (safeId cfg op) = some .unknown) :
    Unknown cfg op s := by
  obtain ⟨t, ht, -, hopen⟩ := h
  rw [State.status, ht, Option.map_some, Option.some.injEq] at hu
  rcases hopen with h | h
  · rw [h] at hu
    cases hu
  · exact ⟨t, ht, h⟩

theorem Inv.store (hi : Inv cfg op s) (w : Writer) {t : StorageTransaction}
    (ht : ∀ i, Doubt s i → t.operationId = safeId cfg op ∧
      (s.plans (safeId cfg t.planId)).isSome ∧ Open t) :
    Inv cfg op (s.storeTransaction j w t) := by
  have hruns : ∀ i, Runs (s.storeTransaction j w t) i → Runs s i := by
    rintro i ⟨handle, input, seen, h⟩
    exact ⟨handle, input, seen, by simpa using h⟩
  refine ⟨fun k u hu => ?_, hi.pending, fun i i' h h' => hi.unique i i' (hruns i h) (hruns i' h'),
    fun i h => ?_, hi.acting, fun i hd => ?_⟩
  · by_cases hk : k = t.operationId
    · subst hk
      simp only [State.storeTransaction_transactions, Function.update_self, Option.some.injEq] at hu
      rw [← hu]
    · rw [State.storeTransaction_transactions, Function.update_of_ne hk] at hu
      exact hi.keyed k u hu
  · obtain ⟨handle, input, seen, h⟩ := hi.begun i h
    exact ⟨handle, input, seen, List.mem_cons_of_mem _ h⟩
  · obtain ⟨hkey, hplan, hopen⟩ := ht i hd
    exact ⟨t, by simp [hkey], hplan, hopen⟩

theorem onward_store (w : Writer) (t : StorageTransaction) (i : Nat) :
    Onward i s (s.storeTransaction j w t) :=
  ⟨id, rfl, rfl, fun _ ⟨handle, input, seen, h⟩ =>
    ⟨handle, input, seen, List.mem_cons_of_mem _ h⟩⟩

theorem Inv.guar_store (hi : Inv cfg op s) (hruns : Runs s j) (w : Writer) (t : StorageTransaction) :
    guar cfg op j s (s.storeTransaction j w t) := by
  intro i hij
  have hother : ¬Runs s i := fun h => hij (hi.unique i j h hruns)
  exact ⟨onward_store w t i, id, fun h => absurd h hother, fun h => absurd h hother⟩

end Relations

/-! ### Failures -/

def Sure (cfg : Config) (op : String) (j : Nat) (s : State) : Prop :=
  Doubt s j → Unknown cfg op s

/-- Where the write is in doubt, the outcome is stored as unknown, or `e` is the cancellation of
the whole task. -/
def Known (cfg : Config) (op : String) (j : Nat) (e : Error) (s : State) : Prop :=
  Doubt s j → Unknown cfg op s ∨ e = .cancelled ∧ s.acting j ≠ none ∧ s.interrupted j = false

/-- How an exception of the task `j` leaves a write that is in doubt. -/
structure Fell (cfg : Config) (op : String) (j : Nat) (e : Error) (s : State) : Prop where
  known : Known cfg op j e s
  codes : Doubt s j → ∀ code, e = .executor code → code ∈ uncertainCodes

/-- How an exception of a call that is not for the broker leaves it. -/
structure Cut (cfg : Config) (op : String) (j : Nat) (e : Error) (s : State) : Prop extends
    Fell cfg op j e s where
  outside : Doubt s j → s.acting j = none → e = .cancelled

section Failures

variable {cfg : Config} {op : String} {j : Nat} {s s' : State} {e : Error}

theorem Inv.runs (hi : Inv cfg op s) (hd : Doubt s j) : Runs s j := by
  refine hi.begun j fun h => ?_
  rcases hd with hd | hd <;> rw [h] at hd <;> cases hd

theorem Sure.rely (h : Sure cfg op j s) (hi : Inv cfg op s) (hr : Rely cfg op j s s') :
    Sure cfg op j s' := fun hd =>
  hr.unknown (hi.runs (hr.doubt hd)) (h (hr.doubt hd))

theorem Known.sure_outside (h : Known cfg op j e s) (hacting : Doubt s j → s.acting j = none) :
    Sure cfg op j s := by
  intro hd
  rcases h hd with h | ⟨-, h, -⟩
  · exact h
  · exact absurd (hacting hd) h

theorem Known.sure (h : Known cfg op j e s) (he : e ≠ .cancelled) : Sure cfg op j s := by
  intro hd
  rcases h hd with h | ⟨h, -⟩
  · exact h
  · exact absurd h he

theorem Sure.known (h : Sure cfg op j s) : Known cfg op j e s := fun hd => .inl (h hd)

theorem fell_of_sure (h : Sure cfg op j s) (he : ∀ code, e ≠ .executor code) :
    Fell cfg op j e s :=
  ⟨h.known, fun _ code hc => absurd hc (he code)⟩

theorem sure_of_calm (hi : Inv cfg op s) {o : Op} {r : Res o} (ha : calm cfg op s o r)
    (hrough : smooth o r = false) (hquiet : raised o r = none) : Sure cfg op j s := by
  intro hd
  obtain ⟨-, h⟩ := ha j hd
  split at h
  · next hu => exact (hi.inside j hd).unknown hu
  · simp [hrough, hquiet] at h

theorem cut_of_calm (hi : Inv cfg op s) {c : Call} (ha : calm cfg op s (.call c) (.error e))
    (hc : awaitsBroker (.call c) = false) : Cut cfg op j e s := by
  have hrough : smooth (.call c) (.error e) = false := by cases c <;> rfl
  refine ⟨⟨fun hd => ?_, fun hd code he => (ha j hd).1 code (by rw [he]; rfl)⟩, fun hd hacting => ?_⟩
  · obtain ⟨-, h⟩ := ha j hd
    split at h
    · next hu => exact .inl ((hi.inside j hd).unknown hu)
    · right
      simpa [hrough, hc, raised] using h
  · obtain ⟨-, h⟩ := ha j hd
    split at h
    · exact (h.resolve_left fun h => h hacting) e rfl
    · simp [hrough, hc, hacting] at h

end Failures

/-! ### The store -/

/-- What a task knows of a record that it has read. -/
structure Read (cfg : Config) (op : String) (j : Nat) (record : StorageOperationRecord)
    (s : State) : Prop where
  key : record.transaction.operationId = safeId cfg op
  plan : (s.plans (safeId cfg record.transaction.planId)).isSome
  opened : Doubt s j → Open record.transaction

section Store

variable {cfg : Config} {op : String} {j : Nat} {s s' : State}

theorem Read.onward {record : StorageOperationRecord} (h : Read cfg op j record s)
    (hr : Onward j s s') : Read cfg op j record s' :=
  ⟨h.key, by rw [hr.plans]; exact h.plan, fun hd => h.opened (hr.doubt hd)⟩

theorem attempt_spec (c : Call) (hc : awaitsBroker (.call c) = false) :
    (attempt c).Spec (logic cfg op j) (fun _ s' => Inv cfg op s' ∧ Rely cfg op j s s')
      (fun e s' => Inv cfg op s' ∧ Rely cfg op j s s' ∧ Cut cfg op j e s') s := by
  intro s1 hi1 hr1 r ha
  cases r with
  | ok => exact ⟨hi1, hr1⟩
  | error e => exact ⟨hi1, hr1, cut_of_calm hi1 ha.2 hc⟩

theorem get_spec {α : Type} (find : State → Option α) :
    (get find).Spec (logic cfg op j)
      (fun r s' => Inv cfg op s' ∧ Rely cfg op j s s' ∧ (r = find s' ∨ r = none ∧ Sure cfg op j s'))
      (fun e s' => Inv cfg op s' ∧ Rely cfg op j s s' ∧ Cut cfg op j e s') s := by
  intro s1 hi1 hr1 r ha
  cases r with
  | error e => exact ⟨hi1, hr1, cut_of_calm hi1 ha.2 rfl⟩
  | ok readable =>
    cases readable with
    | true => exact ⟨hi1, hr1, .inl rfl⟩
    | false => exact ⟨hi1, hr1, .inr ⟨rfl, sure_of_calm hi1 ha.2 rfl rfl⟩⟩

theorem getTransaction_spec : (getTransaction cfg j op).Spec (logic cfg op j)
      (fun r s' => Inv cfg op s' ∧ Rely cfg op j s s' ∧ (r = none → Sure cfg op j s') ∧
        ∀ t, r = some t → s'.transactions (safeId cfg op) = some t)
      (fun e s' => Inv cfg op s' ∧ Rely cfg op j s s' ∧ Cut cfg op j e s') s := by
  rw [getTransaction, spec_do]
  refine (get_spec _).mono (fun r s1 h1 => ?_) fun _ _ h => h
  obtain ⟨hi1, hr1, hfind⟩ := h1
  cases r with
  | none =>
    refine ⟨hi1, hr1, fun _ hd => ?_, by simp⟩
    rcases hfind with h | ⟨-, h⟩
    · obtain ⟨t, ht, -⟩ := hi1.inside j hd
      rw [ht] at h
      cases h
    · exact h hd
  | some t =>
    have hsame := same_see j t s1
    rcases hfind with h | ⟨h, -⟩
    · refine ⟨fun i _ => hsame.rely i, hi1.same hsame, hi1.same hsame, hr1.trans (hsame.rely j),
        by simp, fun u hu => ?_⟩
      rw [hsame.transactions, ← h, hu]
    · cases h

variable {t : StorageTransaction}

theorem getRest_spec (hi : Inv cfg op s) (ht : s.transactions (safeId cfg op) = some t) :
    (getRest cfg op t).Spec (logic cfg op j)
      (fun r s' => Inv cfg op s' ∧ Rely cfg op j s s' ∧ (r = none → Sure cfg op j s') ∧
        ∀ record, r = some record → record.transaction = t ∧ Read cfg op j record s')
      (fun e s' => Inv cfg op s' ∧ Rely cfg op j s s' ∧ Cut cfg op j e s') s := by
  rw [getRest, spec_do]
  refine (get_spec _).mono (fun r s1 h1 => ?_) fun _ _ h => h
  obtain ⟨hi1, hr1, hfind⟩ := h1
  have hopen : Doubt s1 j → (s1.plans (safeId cfg t.planId)).isSome ∧ Open t := by
    intro hd
    obtain ⟨u, hu, hplan, hopen⟩ := hi.inside j (hr1.doubt hd)
    rw [ht, Option.some.injEq] at hu
    subst hu
    exact ⟨by rw [hr1.plans]; exact hplan, hopen⟩
  cases r with
  | none =>
    refine ⟨hi1, hr1, fun _ hd => ?_, by simp⟩
    rcases hfind with h | ⟨-, h⟩
    · have hplan := (hopen hd).1
      rw [← h] at hplan
      cases hplan
    · exact h hd
  | some plan =>
    rcases hfind with h | ⟨h, -⟩
    · dsimp only
      rw [spec_do]
      refine (get_spec _).mono (fun verification s2 h2 => ?_)
        fun e s2 h2 => ⟨h2.1, hr1.trans h2.2.1, h2.2.2⟩
      obtain ⟨hi2, hr2, -⟩ := h2
      refine ⟨hi2, hr1.trans hr2, by simp, ?_⟩
      rintro record ⟨⟩
      refine ⟨rfl, hi.keyed _ t ht, ?_, fun hd => (hopen (hr2.doubt hd)).2⟩
      rw [hr2.plans, ← h]
      rfl
    · cases h

theorem getRecord_spec (hi : Inv cfg op s) :
    (getRecord cfg j op).Spec (logic cfg op j)
      (fun r s' => Inv cfg op s' ∧ Rely cfg op j s s' ∧ (r = none → Sure cfg op j s') ∧
        ∀ record, r = some record → Read cfg op j record s' ∧
          (Sure cfg op j s → Doubt s' j → record.transaction.status = .unknown) ∧
          (record.transaction.status = .unknown → Sure cfg op j s'))
      (fun e s' => Inv cfg op s' ∧ Rely cfg op j s s' ∧ Cut cfg op j e s') s := by
  rw [getRecord, spec_do]
  refine (getTransaction_spec).mono (fun r s1 h1 => ?_) fun _ _ h => h
  obtain ⟨hi1, hr1, hnone, hsome⟩ := h1
  cases r with
  | none => exact ⟨hi1, hr1, fun _ => hnone rfl, by simp⟩
  | some t =>
    have ht := hsome t rfl
    refine (getRest_spec hi1 ht).mono (fun r s2 h2 => ?_)
      fun e s2 h2 => ⟨h2.1, hr1.trans h2.2.1, h2.2.2⟩
    obtain ⟨hi2, hr2, hnone2, hsome2⟩ := h2
    refine ⟨hi2, hr1.trans hr2, hnone2, fun record hrecord => ?_⟩
    obtain ⟨rfl, hread⟩ := hsome2 record hrecord
    refine ⟨hread, fun hsure hd => ?_, fun hunknown => ?_⟩
    · -- the outcome that was unknown at the start is unknown where the transaction is read
      obtain ⟨u, hu, hunknown, -⟩ := (hsure.rely hi hr1) (hr2.doubt hd)
      rw [ht, Option.some.injEq] at hu
      rw [hu]
      exact hunknown
    · have hsure : Sure cfg op j s1 := fun hd =>
        (hi1.inside j hd).unknown (by rw [State.status, ht, Option.map_some, hunknown])
      exact hsure.rely hi1 hr2

theorem putTransaction_spec (w : Writer) (base : Option StorageOperationRecord)
    (hstore : ∀ s', Inv cfg op s' → Rely cfg op j s s' →
      guar cfg op j s' (s'.storeTransaction j w t) ∧ Inv cfg op (s'.storeTransaction j w t)) :
    (putTransaction j w base t).Spec (logic cfg op j)
      (fun _ s' => Inv cfg op s' ∧ Onward j s s' ∧
        ∃ s1, Rely cfg op j s s1 ∧ Inv cfg op (s1.storeTransaction j w t) ∧
          Rely cfg op j (s1.storeTransaction j w t) s')
      (fun e s' => Inv cfg op s' ∧ Onward j s s' ∧ Fell cfg op j e s') s := by
  rw [putTransaction, put, spec_do]
  refine (attempt_spec .await rfl).mono (fun _ s1 h1 => ?_)
    fun e s1 h1 => ⟨h1.1, h1.2.1.toOnward, h1.2.2.toFell⟩
  obtain ⟨hi1, hr1⟩ := h1
  rw [spec_do, spec_perform]
  intro s2 hi2 hr2 written ha
  have hr := hr1.trans hr2
  cases written with
  | true =>
    obtain ⟨hg, hi3⟩ := hstore s2 hi2 hr
    have honward := hr.toOnward.trans (onward_store (j := j) w t j)
    refine ⟨hg, hi3, ?_⟩
    show Proc.Spec _ (Proc.bind (attempt .await) _) _ _ _
    rw [spec_bind]
    refine (attempt_spec .await rfl).mono (fun _ s4 h4 => ?_)
      fun e s4 h4 => ⟨h4.1, honward.trans h4.2.1.toOnward, h4.2.2.toFell⟩
    exact ⟨h4.1, honward.trans h4.2.toOnward, s2, hr, hi3, h4.2⟩
  | false =>
    have hsure : Sure cfg op j s2 := sure_of_calm hi2 ha.2 rfl rfl
    show Proc.Spec _ (Proc.bind (attempt .await) _) _ _ _
    rw [spec_bind]
    refine (attempt_spec .await rfl).mono (fun _ s4 h4 => ?_)
      fun e s4 h4 => ⟨h4.1, (hr.trans h4.2.1).toOnward, h4.2.2.toFell⟩
    exact ⟨h4.1, (hr.trans h4.2).toOnward, fell_of_sure (hsure.rely hi2 h4.2) (by simp)⟩

theorem unknown_store (w : Writer) (hkey : t.operationId = safeId cfg op)
    (hunknown : t.status = .unknown) (hrequired : t.reconciliationRequired = true) :
    Unknown cfg op (s.storeTransaction j w t) :=
  ⟨t, by simp [hkey], hunknown, hrequired⟩

theorem Inv.storeUnknown (hi : Inv cfg op s) (w : Writer)
    (hkey : t.operationId = safeId cfg op) (hplan : (s.plans (safeId cfg t.planId)).isSome)
    (hunknown : t.status = .unknown) (hrequired : t.reconciliationRequired = true) :
    guar cfg op j s (s.storeTransaction j w t) ∧ Inv cfg op (s.storeTransaction j w t) := by
  have hopen : Open t := .inr ⟨hunknown, hrequired⟩
  refine ⟨fun i _ => ⟨onward_store w t i, id, fun _ _ => ?_, fun _ _ => ?_⟩,
    hi.store w fun _ _ => ⟨hkey, hplan, hopen⟩⟩
  · exact unknown_store w hkey hunknown hrequired
  · exact ⟨t, by simp [hkey], hplan, hopen⟩

theorem putOpen_spec (hruns : Runs s j) (w : Writer)
    (base : Option StorageOperationRecord) (hkey : t.operationId = safeId cfg op)
    (hplan : (s.plans (safeId cfg t.planId)).isSome) (hopen : Doubt s j → Open t) :
    (putTransaction j w base t).Spec (logic cfg op j)
      (fun _ s' => Inv cfg op s' ∧ Onward j s s' ∧ (Open t → Inside cfg op s'))
      (fun e s' => Inv cfg op s' ∧ Onward j s s' ∧ Fell cfg op j e s') s := by
  refine (putTransaction_spec w base fun s1 hi1 hr1 => ?_).mono (fun _ s2 h2 => ?_)
    fun _ _ h => h
  · refine ⟨hi1.guar_store (hr1.runs j hruns) w t, hi1.store w fun i hd => ?_⟩
    obtain rfl := hi1.unique i j (hi1.runs hd) (hr1.runs j hruns)
    exact ⟨hkey, by rw [hr1.plans]; exact hplan, hopen (hr1.doubt hd)⟩
  · obtain ⟨hi2, honward, s1, hr1, -, hr2⟩ := h2
    have hruns1 : Runs (s1.storeTransaction j w t) j :=
      (onward_store w t j).runs j (hr1.runs j hruns)
    refine ⟨hi2, honward, fun ho => hr2.inside hruns1 ⟨t, by simp [hkey], ?_, ho⟩⟩
    show (s1.plans _).isSome
    rw [hr1.plans]
    exact hplan

end Store

end Ares.Operations.Uncertainty
