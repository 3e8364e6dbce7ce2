import Ares.Data.Distinct
import Ares.Operations.Judging
import Ares.Operations.Quiet

/-! Validations of one operation after another.  Each starts from the plan that the one before
stored, and what it finds against the plan is added to the limitations of that plan. -/

namespace Ares.Operations

open Coop Data Storage

/-! ### Calls of `validate` -/

/-- A call of `validate`, with what the executor, the devices and the dry run tell it, while nothing
else changes the record of the operation. -/
structure Attempt (cfg : Config) (operationId : String) where
  task : Nat
  sessionId : String
  inspection : Except Error StorageLayout
  devices : Devices
  dryRun : Except Error StorageDryRunResult
  env : Env State Res
  keeping : Keeping cfg operationId env
  inspects : ∀ s target, env.answer s (.call (.inspect target)) = inspection
  shows_ : ∀ s, (env.wait s).devices = devices
  dryRuns : ∀ s plan, env.answer s (.call (.dryRun plan)) = dryRun

/-- What a validation has against a plan. -/
def refusals (operation : StorageOperationType) (f : Preflight) (dryRun : StorageDryRunResult) :
    List String :=
  (if dryRun.valid then [] else ["dry_run_rejected_proposed_layout"]) ++
    ((if f.gate.allowed then [] else [f.gate.reason]) ++
    ((if f.data.executable then [] else f.data.reasons) ++
    ((if f.boot.executable then [] else f.boot.reasons) ++
    (if adapterEnabled operation then [] else ["operation_adapter_disabled"]))))

/-- The limitations that a validation takes over. -/
def kept (limitations : List String) : List String := limitations.filter (· ≠ preflightLimitation)

section Calls

variable {cfg : Config} {operationId : String}

namespace Attempt

def call (a : Attempt cfg operationId) (s : State) : Except Error StorageOperationPlan × State :=
  (validate cfg a.task operationId a.sessionId).alone a.env s

def refusals (a : Attempt cfg operationId) (plan : StorageOperationPlan) : List String :=
  match a.inspection, a.dryRun with
  | .ok current, .ok dryRun =>
    Operations.refusals plan.operation (preflightOf cfg a.devices plan current) dryRun
  | _, _ => []

end Attempt

/-- The state after some calls. -/
def after (attempts : List (Attempt cfg operationId)) (s : State) : State :=
  attempts.foldl (fun s a => (a.call s).2) s

/-- What the calls that stored another plan had against it. -/
def storedRefusals (plan : StorageOperationPlan) : List (Attempt cfg operationId) → State → List String
  | [], _ => []
  | a :: rest, s =>
    (if (a.call s).2.plans plan.id = s.plans plan.id then [] else kept (a.refusals plan)) ++
      storedRefusals plan rest (a.call s).2

end Calls

variable {cfg : Config} {operationId sessionId : String} {record : StorageOperationRecord}
  {s : State} {a : Attempt cfg operationId} {plan first : StorageOperationPlan}

theorem validatedLimitations_eq (plan : StorageOperationPlan) (f : Preflight)
    (dryRun : StorageDryRunResult) : validatedLimitations plan f dryRun =
      (kept plan.limitations ++ refusals plan.operation f dryRun).eraseDups := by
  simp only [validatedLimitations, refusals, kept, List.append_assoc]

theorem kept_eraseDups_append (l m r : List String) :
    (kept (kept l ++ m).eraseDups ++ r).eraseDups = (kept l ++ (kept m ++ r)).eraseDups := by
  have happend : kept (kept l ++ m) = kept l ++ kept m := by simp [kept]
  rw [kept, eraseDups_filter_append]
  change (kept (kept l ++ m) ++ r).eraseDups = _
  rw [happend, List.append_assoc]

/-! ### One call -/

/-- The operation can be validated, and its plan is stored under its own name. -/
structure Open (cfg : Config) (record : StorageOperationRecord) : Prop where
  status : validatable record.transaction.status = true
  planId : record.transaction.planId = record.plan.id
  safe : isSafeId cfg record.plan.id = true

/-- What no validation of a plan changes. -/
structure Descends (first plan : StorageOperationPlan) : Prop where
  id : plan.id = first.id
  operation : plan.operation = first.operation
  targetPartition : plan.targetPartition = first.targetPartition

theorem Descends.refusals (h : Descends first plan) (a : Attempt cfg operationId) :
    a.refusals plan = a.refusals first := by
  unfold Attempt.refusals preflightOf
  rw [h.operation, h.targetPartition]

def Makes (a : Attempt cfg operationId) (plan made : StorageOperationPlan) : Prop :=
  ∃ current dryRun checkpoint, a.inspection = .ok current ∧ a.dryRun = .ok dryRun ∧
    made = validatedPlan cfg plan (preflightOf cfg a.devices plan current) dryRun checkpoint

theorem Makes.descends {made : StorageOperationPlan} (h : Makes a plan made)
    (hplan : Descends first plan) : Descends first made := by
  obtain ⟨current, dryRun, checkpoint, -, -, rfl⟩ := h
  exact ⟨hplan.id, hplan.operation, hplan.targetPartition⟩

theorem Makes.limitations {made : StorageOperationPlan} (h : Makes a plan made) :
    made.limitations = (kept plan.limitations ++ a.refusals plan).eraseDups := by
  obtain ⟨current, dryRun, checkpoint, hinspection, hdryRun, rfl⟩ := h
  simp only [Attempt.refusals, hinspection, hdryRun]
  exact validatedLimitations_eq _ _ _

def Attempt.logic (a : Attempt cfg operationId) : Logic State Res where
  inv _ := True
  rely s s' := (∀ record, Stored cfg operationId record s → Stored cfg operationId record s') ∧
    s'.devices = a.devices
  guar _ _ := True
  answers _ o := match o with
    | .call (.inspect _) => fun r => r = a.inspection
    | .call (.dryRun _) => fun r => r = a.dryRun
    | _ => fun _ => True

theorem Attempt.alone_spec {α : Type} {p : Task α} {Q : α → State → Prop} {E : Error → State → Prop}
    (h : p.Spec a.logic Q E s) : Proc.Leaves Q E (p.alone a.env s) := by
  refine h.alone (fun s => ⟨trivial, fun r hr => a.keeping.kept s r hr, a.shows_ s⟩) fun s o => ?_
  cases o with
  | call c =>
    cases c with
    | inspect target => exact a.inspects _ target
    | dryRun plan => exact a.dryRuns _ plan
    | _ => trivial
  | _ => trivial

section Call

theorem quiet_stored {α : Type} {p : Task α} (hp : p.Quiet) :
    p.Keeps a.logic (Stored cfg operationId record) :=
  hp.keeps fun _ _ hrely h => hrely.1 _ h

theorem put_stored {task : Nat} {writer : Writer} {d : Document}
    {base : Option StorageOperationRecord} {record' : StorageOperationRecord}
    (hland : ∀ s, Stored cfg operationId record s →
      Stored cfg operationId record' (s.store task writer d))
    (h : Stored cfg operationId record s) :
    (put task writer d base).Spec a.logic (fun _ s' => Stored cfg operationId record' s')
      (fun _ s' => Stored cfg operationId record s' ∨ Stored cfg operationId record' s') s := by
  refine (quiet_stored quiet_attempt).spec_bind trivial h (fun _ s1 _ h1 => ?_)
    fun _ s1 _ h1 => .inl h1
  intro s2 _ hrely written _
  have h2 := hrely.1 _ h1
  cases written with
  | false =>
    refine (quiet_stored quiet_attempt).spec_bind trivial h2 (fun _ s3 _ h3 => ?_)
      fun _ s3 _ h3 => .inl h3
    exact .inl h3
  | true =>
    refine ⟨trivial, trivial, ?_⟩
    refine (quiet_stored quiet_attempt).spec_bind trivial (hland s2 h2) (fun _ s3 _ h3 => ?_)
      fun _ s3 _ h3 => .inr h3
    exact h3

theorem put_other {task : Nat} {writer : Writer} {d : Document}
    {base : Option StorageOperationRecord}
    (hland : ∀ s, Stored cfg operationId record s →
      Stored cfg operationId record (s.store task writer d)) :
    (put task writer d base).Keeps a.logic (Stored cfg operationId record) :=
  fun _ _ h => (put_stored hland h).mono (fun _ _ h' => ⟨trivial, h'⟩)
    fun _ _ h' => ⟨trivial, h'.elim id id⟩

theorem get_stored {α : Type} (find : State → Option α) (h : Stored cfg operationId record s) :
    (get find).Spec a.logic
      (fun r s' => Stored cfg operationId record s' ∧ (r = none ∨ r = find s'))
      (fun _ s' => Stored cfg operationId record s') s := by
  refine (quiet_stored quiet_attempt).spec_bind trivial h (fun readable s1 _ h1 => ?_)
    fun _ s1 _ h1 => h1
  cases readable with
  | false => exact ⟨h1, .inl rfl⟩
  | true => exact ⟨h1, .inr rfl⟩

theorem getTransaction_stored (task : Nat) (h : Stored cfg operationId record s) :
    (getTransaction cfg task operationId).Spec a.logic
      (fun r s' => Stored cfg operationId record s' ∧ ∀ t ∈ r, t = record.transaction)
      (fun _ s' => Stored cfg operationId record s') s := by
  have hid : safeId cfg operationId = operationId := if_pos h.safe
  rw [getTransaction, spec_do]
  refine (get_stored _ h).mono (fun r s1 h1 => ?_) fun _ _ h1 => h1
  obtain ⟨hs, hr⟩ := h1
  rw [hid, hs.transaction] at hr
  cases r with
  | none => exact ⟨hs, by simp⟩
  | some t =>
    obtain rfl : t = record.transaction := by simpa using hr
    exact ⟨trivial, trivial, hs.see task _, by simp⟩

theorem getRest_stored (h : Stored cfg operationId record s) :
    (getRest cfg operationId record.transaction).Spec a.logic
      (fun r s' => Stored cfg operationId record s' ∧
        ∀ read ∈ r, read.plan = record.plan ∧ read.transaction = record.transaction)
      (fun _ s' => Stored cfg operationId record s') s := by
  rw [getRest, bind_eq, getPlan, spec_bind]
  refine (get_stored _ h).mono (fun r s1 h1 => ?_) fun _ _ h1 => h1
  obtain ⟨hs, hr⟩ := h1
  rw [hs.plan] at hr
  cases r with
  | none => exact ⟨hs, by simp⟩
  | some plan =>
    obtain rfl : plan = record.plan := by simpa using hr
    refine (quiet_stored (get_quiet _)).spec_bind trivial hs (fun verification s2 _ h2 => ?_)
      fun _ s2 _ h2 => h2
    exact ⟨h2, by simp⟩

theorem getRecord_stored (task : Nat) (h : Stored cfg operationId record s) :
    (getRecord cfg task operationId).Spec a.logic
      (fun r s' => Stored cfg operationId record s' ∧
        ∀ read ∈ r, read.plan = record.plan ∧ read.transaction = record.transaction)
      (fun _ s' => Stored cfg operationId record s') s := by
  rw [getRecord, spec_do]
  refine (getTransaction_stored task h).mono (fun r s1 h1 => ?_) fun _ _ h1 => h1
  obtain ⟨hs, hr⟩ := h1
  cases r with
  | none => exact ⟨hs, by simp⟩
  | some t =>
    obtain rfl := hr t rfl
    exact getRest_stored hs

theorem Stored.artifact (task : Nat) (writer : Writer) (artifact : PartitionTableCheckpointArtifact)
    (h : Stored cfg operationId record s) :
    Stored cfg operationId record (s.store task writer (.artifact artifact)) :=
  ⟨h.safe, h.key, h.transaction, h.plan, h.verification⟩

theorem Stored.checkpoint (task : Nat) (writer : Writer) (checkpoint : ProtectionCheckpoint)
    (h : Stored cfg operationId record s) :
    Stored cfg operationId record (s.store task writer (.checkpoint checkpoint)) :=
  ⟨h.safe, h.key, h.transaction, h.plan, h.verification⟩

theorem ask_found (c : Call) (h : Stored cfg operationId record s) :
    (asEngine (attempt c)).Spec a.logic
      (fun r s' => Stored cfg operationId record s' ∧ a.logic.answers s' (.call c) (.ok r) ∧
        s'.devices = a.devices)
      (fun _ s' => Stored cfg operationId record s') s := by
  rw [asEngine, spec_handle, attempt, Proc.attempt, spec_bind]
  intro s1 _ hrely r hr
  have h1 := hrely.1 _ h
  rw [spec_ret, spec_ofExcept]
  refine ⟨fun v hv => ⟨h1, hv ▸ hr, hrely.2⟩, fun e _ => ?_⟩
  cases e <;> exact h1

theorem protect_stored {task : Nat} {f : Preflight} {dryRun : StorageDryRunResult}
    (h : Stored cfg operationId record s) :
    (protect cfg task plan f dryRun).Spec a.logic
      (fun checkpoint s' => Stored cfg operationId record s' ∧
        checkpoint.isSome = (f.candidate plan && dryRun.valid))
      (fun _ s' => Stored cfg operationId record s') s := by
  unfold protect
  by_cases hcandidate : (f.candidate plan && dryRun.valid) = true
  · rw [if_pos hcandidate]
    refine (asEngine_keeps (quiet_stored quiet_attempt)).spec_bind trivial h
      (fun bundle s1 _ h1 => ?_) fun _ s' _ h' => h'
    rw [spec_do, spec_require]
    refine ⟨fun _ => ?_, fun _ => h1⟩
    refine (put_other fun _ => Stored.artifact _ _ _).spec_bind trivial h1 (fun _ s2 _ h2 => ?_)
      fun _ s' _ h' => h'
    refine (put_other fun _ => Stored.checkpoint _ _ _).spec_bind trivial h2 (fun _ s3 _ h3 => ?_)
      fun _ s' _ h' => h'
    exact ⟨h3, hcandidate.symm⟩
  · rw [if_neg hcandidate]
    exact ⟨h, (Bool.eq_false_iff.mpr hcandidate).symm⟩

/-! ### What a call leaves -/

/-- The record after a call: the plan is as it was, or as the call made it. -/
def Left (a : Attempt cfg operationId) (record : StorageOperationRecord) (s : State) : Prop :=
  ∃ record', Stored cfg operationId record' s ∧ Open cfg record' ∧
    (record'.plan = record.plan ∨ Makes a record.plan record'.plan)

def Returned (a : Attempt cfg operationId) (record : StorageOperationRecord)
    (v : StorageOperationPlan) (s : State) : Prop :=
  ∃ record' current dryRun checkpoint, Stored cfg operationId record' s ∧ Open cfg record' ∧
    record'.plan = v ∧ a.inspection = .ok current ∧ a.dryRun = .ok dryRun ∧
    v = validatedPlan cfg record.plan (preflightOf cfg a.devices record.plan current) dryRun
      checkpoint ∧
    checkpoint.isSome = ((preflightOf cfg a.devices record.plan current).candidate record.plan &&
      dryRun.valid)

theorem Returned.left {v : StorageOperationPlan} (h : Returned a record v s) : Left a record s := by
  obtain ⟨record', current, dryRun, checkpoint, hstored, hopen, hplan, hi, hd, hv, -⟩ := h
  exact ⟨record', hstored, hopen, .inr ⟨current, dryRun, checkpoint, hi, hd, hplan.trans hv⟩⟩

theorem Stored.left (h : Stored cfg operationId record s) (hopen : Open cfg record) :
    Left a record s :=
  ⟨record, h, hopen, .inl rfl⟩

theorem Stored.storePlan (task : Nat) (writer : Writer) (hopen : Open cfg record)
    (hid : plan.id = record.plan.id) (h : Stored cfg operationId record s) :
    Stored cfg operationId { record with plan } (s.store task writer (.plan plan)) := by
  refine ⟨h.safe, h.key, h.transaction, ?_, h.verification⟩
  have hkey : safeId cfg record.transaction.planId = plan.id := by
    rw [hopen.planId, hid]
    exact if_pos hopen.safe
  simp [State.store, hkey]

theorem storeValidated_left (task : Nat) {read : StorageOperationRecord} (hopen : Open cfg record)
    (htransaction : read.transaction = record.transaction) (hmade : Makes a record.plan plan)
    (h : Stored cfg operationId record s) :
    (storeValidated task read plan).Spec a.logic
      (fun v s' => v = plan ∧ ∃ record', Stored cfg operationId record' s' ∧ Open cfg record' ∧
        record'.plan = plan)
      (fun _ => Left a record) s := by
  have hself : Descends record.plan record.plan := ⟨rfl, rfl, rfl⟩
  have hid : plan.id = record.plan.id := (hmade.descends hself).id
  have hopen1 : Open cfg { record with plan } :=
    ⟨hopen.status, hopen.planId.trans hid.symm, hid ▸ hopen.safe⟩
  rw [storeValidated, spec_do]
  refine (put_stored (fun s hs => hs.storePlan task .validated hopen hid) h).mono
    (fun _ s1 h1 => ?_) fun _ s1 h1 => ?_
  · rw [spec_do, putTransaction]
    have hstatus : ∀ checkpoint : Option ProtectionCheckpoint,
        validatable (if checkpoint.isSome then .protected_ else .validated) = true := by
      rintro (_ | checkpoint) <;> rfl
    refine (put_stored (fun s hs => hs.putTransaction task .validated ?_ ?_) h1).mono
      (fun _ s2 h2 => ?_) fun _ s2 h2 => ?_
    · exact htransaction ▸ h.key
    · rw [htransaction]
    · exact ⟨rfl, _, h2, ⟨hstatus _, htransaction ▸ hopen1.planId, hopen1.safe⟩, rfl⟩
    · rcases h2 with h2 | h2
      · exact ⟨_, h2, hopen1, .inr hmade⟩
      · exact ⟨_, h2, ⟨hstatus _, htransaction ▸ hopen1.planId, hopen1.safe⟩, .inr hmade⟩
  · rcases h1 with h1 | h1
    · exact h1.left hopen
    · exact ⟨_, h1, hopen1, .inr hmade⟩

theorem validateRecord_left (task : Nat) {read : StorageOperationRecord} (hopen : Open cfg record)
    (hplan : read.plan = record.plan) (htransaction : read.transaction = record.transaction)
    (h : Stored cfg operationId record s) :
    (validateRecord cfg task read).Spec a.logic (Returned a record) (fun _ => Left a record) s := by
  rw [validateRecord, spec_do, spec_require]
  refine ⟨fun _ => ?_, fun _ => h.left hopen⟩
  rw [hplan, spec_do, spec_reading, spec_do,
    spec_require]
  refine ⟨fun _ => ?_, fun _ => h.left hopen⟩
  rw [spec_do]
  refine (ask_found (.inspect _) h).mono (fun current s1 h1 => ?_) fun _ _ h1 => h1.left hopen
  obtain ⟨h1, hinspection, hdevices⟩ := h1
  rw [spec_do, spec_require]
  refine ⟨fun _ => ?_, fun _ => h1.left hopen⟩
  rw [spec_do, spec_require]
  refine ⟨fun _ => ?_, fun _ => h1.left hopen⟩
  rw [spec_do, spec_reading, hdevices, spec_do]
  refine (ask_found (.dryRun _) h1).mono (fun dryRun s2 h2 => ?_) fun _ _ h2 => h2.left hopen
  obtain ⟨h2, hdryRun, -⟩ := h2
  rw [spec_do]
  refine (protect_stored h2).mono (fun checkpoint s3 h3 => ?_) fun _ _ h3 => h3.left hopen
  obtain ⟨h3, hcheckpoint⟩ := h3
  have hmade : Makes a record.plan (validatedPlan cfg record.plan
      (preflightOf cfg a.devices record.plan current) dryRun checkpoint) :=
    ⟨current, dryRun, checkpoint, Eq.symm hinspection, Eq.symm hdryRun, rfl⟩
  refine (storeValidated_left task hopen htransaction hmade h3).mono (fun v s4 h4 => ?_)
    fun _ _ h4 => h4
  obtain ⟨rfl, record', hstored, hopen', hplan'⟩ := h4
  exact ⟨record', current, dryRun, checkpoint, hstored, hopen', hplan', Eq.symm hinspection,
    Eq.symm hdryRun, rfl, hcheckpoint⟩

theorem validate_left (hopen : Open cfg record) (h : Stored cfg operationId record s) :
    (validate cfg a.task operationId a.sessionId).Spec a.logic (Returned a record)
      (fun _ => Left a record) s := by
  rw [validate, spec_do]
  refine (getRecord_stored a.task h).mono (fun r s1 h1 => ?_) fun _ _ h1 => h1.left hopen
  obtain ⟨h1, hr⟩ := h1
  rw [spec_do, spec_ofOption]
  refine ⟨fun read hread => ?_, fun _ => h1.left hopen⟩
  obtain ⟨hplan, htransaction⟩ := hr read hread
  rw [spec_do, spec_require]
  refine ⟨fun _ => ?_, fun _ => h1.left hopen⟩
  have hknown : read.transaction.status ≠ .unknown := by
    intro hunknown
    have hstatus := hopen.status
    rw [← htransaction, hunknown] at hstatus
    cases hstatus
  rw [if_neg hknown]
  exact validateRecord_left a.task hopen hplan htransaction h1

theorem Attempt.leaves (hopen : Open cfg record) (h : Stored cfg operationId record s) :
    Proc.Leaves (Returned a record) (fun _ => Left a record) (a.call s) :=
  a.alone_spec (validate_left hopen h)

theorem Attempt.left (hopen : Open cfg record) (h : Stored cfg operationId record s) :
    Left a record (a.call s).2 := by
  have hleaves := a.leaves hopen h
  cases hcall : a.call s with
  | mk r s' =>
    rw [hcall] at hleaves
    cases r with
    | ok v => exact Returned.left hleaves
    | error e => exact hleaves

theorem Attempt.returned {v : StorageOperationPlan} {s' : State} (hopen : Open cfg record)
    (h : Stored cfg operationId record s) (hcall : a.call s = (.ok v, s')) :
    Returned a record v s' := by
  have hleaves := a.leaves hopen h
  rwa [hcall] at hleaves

end Call

/-! ### Calls one after another -/

theorem Stored.find_plan (h : Stored cfg operationId record s) (hopen : Open cfg record)
    (hfirst : Descends first record.plan) : s.plans first.id = some record.plan := by
  have hplan := h.plan
  rwa [hopen.planId, safeId, if_pos hopen.safe, hfirst.id] at hplan

/-- A plan that was validated some times still has its first limitations, and with them what every
stored validation had against it. -/
theorem after_limitations (attempts : List (Attempt cfg operationId))
    (h : Stored cfg operationId record s) (hopen : Open cfg record)
    (hfirst : Descends first record.plan) :
    ∃ record', Stored cfg operationId record' (after attempts s) ∧ Open cfg record' ∧
      Descends first record'.plan ∧ ∀ r, (kept record'.plan.limitations ++ r).eraseDups =
        (kept record.plan.limitations ++ (storedRefusals first attempts s ++ r)).eraseDups := by
  induction attempts generalizing record s with
  | nil => exact ⟨record, h, hopen, hfirst, fun r => rfl⟩
  | cons a rest ih =>
    obtain ⟨record1, h1, hopen1, hplan⟩ := a.left hopen h
    have hfirst1 : Descends first record1.plan := by
      rcases hplan with hsame | hmade
      · rwa [hsame]
      · exact hmade.descends hfirst
    obtain ⟨record', h', hopen', hfirst', hlimitations⟩ := ih h1 hopen1 hfirst1
    refine ⟨record', h', hopen', hfirst', fun r => ?_⟩
    have hstored : (a.call s).2.plans first.id = s.plans first.id ↔ record1.plan = record.plan := by
      rw [h1.find_plan hopen1 hfirst1, h.find_plan hopen hfirst, Option.some.injEq]
    rw [hlimitations, storedRefusals]
    by_cases hsame : record1.plan = record.plan
    · rw [if_pos (hstored.mpr hsame), hsame, List.nil_append]
    · rw [if_neg (hstored.not.mpr hsame), (hplan.resolve_left hsame).limitations,
        kept_eraseDups_append, hfirst.refusals, List.append_assoc]

theorem Returned.executable {v : StorageOperationPlan} (h : Returned a record v s) :
    ∃ current dryRun, a.inspection = .ok current ∧ a.dryRun = .ok dryRun ∧
      v.executable = ((preflightOf cfg a.devices record.plan current).candidate record.plan &&
        dryRun.valid) ∧
      v.limitations = (kept record.plan.limitations ++ a.refusals record.plan).eraseDups := by
  obtain ⟨record', current, dryRun, checkpoint, -, -, -, hi, hd, rfl, hcheckpoint⟩ := h
  refine ⟨current, dryRun, hi, hd, ?_, Makes.limitations ⟨current, dryRun, checkpoint, hi, hd, rfl⟩⟩
  simp only [validatedPlan, stampPlan, hcheckpoint, Bool.and_self]

/-- The last of some validations gives its plan the executable flag that it would give the first
plan, and gives it the same limitations exactly when what the earlier ones had against the plan
comes first in what the last one has. -/
theorem validated_afresh_iff (cfg : Config) (operationId : String)
    (record : StorageOperationRecord) (s s₁ : State) (attempts : List (Attempt cfg operationId))
    (last single : Attempt cfg operationId) (v w : StorageOperationPlan) (s' s₁' : State)
    (stored : Stored cfg operationId record s) (stored₁ : Stored cfg operationId record s₁)
    (hopen : Open cfg record) (hinspection : single.inspection = last.inspection)
    (hdevices : single.devices = last.devices) (hdryRun : single.dryRun = last.dryRun)
    (hlast : last.call (after attempts s) = (.ok v, s'))
    (hsingle : single.call s₁ = (.ok w, s₁')) :
    v.executable = w.executable ∧
      (v.limitations = w.limitations ↔
        ((storedRefusals record.plan attempts s).removeAll
          (kept record.plan.limitations)).eraseDups <+:
        ((last.refusals record.plan).removeAll (kept record.plan.limitations)).eraseDups) := by
  obtain ⟨before, hbefore, hopen', hfirst, hlimitations⟩ :=
    after_limitations attempts stored hopen (⟨rfl, rfl, rfl⟩ : Descends record.plan record.plan)
  obtain ⟨current, dryRun, hi, hd, hvexecutable, hvlimitations⟩ :=
    (last.returned hopen' hbefore hlast).executable
  obtain ⟨current', dryRun', hi', hd', hwexecutable, hwlimitations⟩ :=
    (single.returned hopen stored₁ hsingle).executable
  obtain rfl : current = current' := by
    rw [hinspection, hi] at hi'
    exact Except.ok.inj hi'
  obtain rfl : dryRun = dryRun' := by
    rw [hdryRun, hd] at hd'
    exact Except.ok.inj hd'
  have hrefusals : single.refusals record.plan = last.refusals record.plan := by
    simp only [Attempt.refusals, hinspection, hdevices, hdryRun]
  refine ⟨?_, ?_⟩
  · rw [hvexecutable, hwexecutable, hdevices, Preflight.candidate, Preflight.candidate, preflightOf,
      preflightOf, hfirst.operation, hfirst.targetPartition]
  · rw [hvlimitations, hwlimitations, hfirst.refusals, hlimitations, hrefusals, ← List.append_assoc]
    exact eraseDups_append_append_eq_iff _ _ _

/-! ### A dry run that fails once -/

def sampleLayoutNow : StorageLayout := sampleLayout sampleIdentity [samplePartition]

def sampleEnvOf (dryRun : StorageDryRunResult) : Env State Res where
  wait := (permissive sampleDevices sampleLayoutNow deletePlan).wait
  answer s
    | .call (.dryRun _) => .ok dryRun
    | o => (permissive sampleDevices sampleLayoutNow deletePlan).answer s o

/-- A call in which all goes well but for the dry run. -/
def sampleAttempt (dryRun : StorageDryRunResult) : Attempt sampleConfig "operation" where
  task := 0
  sessionId := "session1"
  inspection := .ok sampleLayoutNow
  devices := sampleDevices
  dryRun := .ok dryRun
  env := sampleEnvOf dryRun
  keeping :=
    ⟨fun s r h => (permissive_keeping : Keeping _ _
      (permissive sampleDevices sampleLayoutNow deletePlan)).kept s r h⟩
  inspects _ _ := rfl
  shows_ _ := rfl
  dryRuns _ _ := rfl

def failedRun : StorageDryRunResult := { cleanRun with valid := false }

theorem deleteRecord_open : Open sampleConfig deleteRecord := ⟨rfl, rfl, by decide⟩

theorem call_eq_ok {r : Except Error StorageOperationPlan × State} {limitations : List String}
    (h : r.1.toOption.map (·.limitations) = some limitations) :
    ∃ v s', r = (.ok v, s') ∧ v.limitations = limitations := by
  obtain ⟨result, s'⟩ := r
  cases result with
  | error e => cases h
  | ok v =>
    exact ⟨v, s', rfl, Option.some.inj h⟩

theorem retried : ∃ v s', (sampleAttempt cleanRun).call
    (after [sampleAttempt failedRun] deleteState) = (.ok v, s') ∧
      v.limitations = ["dry_run_rejected_proposed_layout"] :=
  call_eq_ok (by decide +kernel)

theorem tried_once : ∃ v s', (sampleAttempt cleanRun).call deleteState = (.ok v, s') ∧
    v.limitations = [] :=
  call_eq_ok (by decide +kernel)

theorem validated_afresh_sample : ∃ v w s' s₁',
    (sampleAttempt cleanRun).call (after [sampleAttempt failedRun] deleteState) = (.ok v, s') ∧
    (sampleAttempt cleanRun).call deleteState = (.ok w, s₁') ∧ v.executable = w.executable ∧
    (v.limitations = w.limitations ↔
      ((storedRefusals deletePlan [sampleAttempt failedRun] deleteState).removeAll
        (kept deletePlan.limitations)).eraseDups <+:
      (((sampleAttempt cleanRun).refusals deletePlan).removeAll
        (kept deletePlan.limitations)).eraseDups) := by
  obtain ⟨v, s', hv, -⟩ := retried
  obtain ⟨w, s₁', hw, -⟩ := tried_once
  exact ⟨v, w, s', s₁', hv, hw, validated_afresh_iff sampleConfig "operation" deleteRecord deleteState
    deleteState [sampleAttempt failedRun] (sampleAttempt cleanRun) (sampleAttempt cleanRun) v w s'
    s₁' deleteState_stored deleteState_stored deleteRecord_open rfl rfl rfl hv hw⟩

/-- A plan that may be executed still has the refusal of an earlier dry run. -/
theorem old_refusal_kept : ¬∀ (attempts : List (Attempt sampleConfig "operation"))
      (last single : Attempt sampleConfig "operation") (v w : StorageOperationPlan) (s' s₁' : State),
      single.inspection = last.inspection → single.devices = last.devices →
      single.dryRun = last.dryRun → last.call (after attempts deleteState) = (.ok v, s') →
      single.call deleteState = (.ok w, s₁') →
      v.executable = w.executable ∧ v.limitations = w.limitations := by
  intro claim
  obtain ⟨v, s', hv, hvlimitations⟩ := retried
  obtain ⟨w, s₁', hw, hwlimitations⟩ := tried_once
  have hsame := (claim [sampleAttempt failedRun] (sampleAttempt cleanRun) (sampleAttempt cleanRun) v
    w s' s₁' rfl rfl rfl hv hw).2
  rw [hvlimitations, hwlimitations] at hsame
  cases hsame

end Ares.Operations
