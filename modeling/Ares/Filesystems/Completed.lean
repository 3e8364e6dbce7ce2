import Ares.Filesystems.Service
import Ares.Jobs.Invariant

/-! What is behind an order to repair a filesystem, and behind a repair that its record calls
COMPLETED.  Whatever the clients of the service ask for, and whatever is cancelled or fails in
between, the executor writes only to a target that a client's plan is about, that was found as the
plan says, for which the plan has a checkpoint of a verified backup and an authorization was
granted. -/

namespace Ares.Filesystems.Service

open Coop Data Jobs
open Workflows (Outputs Called OutputsIn)

variable {cfg : Config} {disk : List Doc} {h h' : List (Event kind)}

/-! ### The rules -/

/-- What `start` has found when it creates the background task. -/
structure Started (plan : FilesystemRepairPlan) (input : FilesystemRepairInput)
    (inspection : FilesystemInspection) (now : DateTime) : Prop where
  executable : plan.executable = true
  unexpired : now < plan.expiresAt
  session : plan.sessionId = input.sessionId
  identity : inspection.identity.fingerprintSha256 = plan.target.fingerprintSha256
  input : input = repairInput plan input.sessionId input.createdBy

/-- What the first action of the workflow has found. -/
structure Preflight (cfg : Config) (plan : FilesystemRepairPlan) (input : FilesystemRepairInput)
    (inspection : FilesystemInspection) (now : DateTime) : Prop where
  id : plan.id = safeId cfg input.planId
  executable : plan.executable = true
  checkpoint : ∃ c, plan.protectionCheckpoint = some c ∧ c.status = .ready
  unexpired : now < plan.expiresAt
  session : input.sessionId = plan.sessionId
  resource : input.protectedResourceId = plan.protectedResourceId
  fingerprint : input.protectedResourceFingerprintSha256 = plan.target.fingerprintSha256
  identity : inspection.identity.fingerprintSha256 = plan.target.fingerprintSha256
  mount : inspection.mount = plan.mount

/-- An executable plan is for what its inspection has shown, and has a checkpoint for it. -/
structure Planned (h : List (Event kind)) (inspection : FilesystemInspection)
    (plan : FilesystemRepairPlan) : Prop where
  target : plan.target = inspection.identity
  mount : plan.mount = inspection.mount
  supported : plan.executable = true → executable inspection plan.protectionCheckpoint = true
  protection : ∀ checkpoint, plan.protectionCheckpoint = some checkpoint →
    ∃ backup verification manifest, .marked (.protects (protectionRequest inspection plan.sessionId)
      backup verification manifest checkpoint) ∈ h

/-- A started plan's checkpoint has passed the capability manager with the payload. -/
def Admitted (h : List (Event kind)) (input : FilesystemRepairInput) : Prop :=
  ∃ plan inspection now checkpoint, .marked (.started plan input inspection now) ∈ h ∧
    plan.protectionCheckpoint = some checkpoint ∧ protects checkpoint input = true

/-- A verification in the record of a repair is the verdict on what the executor has done. -/
def Verdict (cfg : Config) (h : List (Event kind)) (r : Repair) (v : RepairVerification) : Prop :=
  ∃ plan input grant outcome, .marked (.repaired plan input grant outcome) ∈ h ∧
    r.id = safeId cfg plan.repairId ∧ r.base.verification = some v ∧
    v = (verifyRepair plan outcome r.base).2

def Borne (cfg : Config) (disk : List Doc) (h : List (Event kind)) : Doc → Prop
  | .plan p => .plan p ∈ disk ∨ ∃ inspection, .marked (.planned inspection p) ∈ h
  | .repair r => r.status = .completed →
      (∃ r₀, .repair r₀ ∈ disk ∧
        r = { r₀ with authorizationChallengeId := r.authorizationChallengeId }) ∨
      ∃ v, Verdict cfg h r v ∧ v.status = .success
  | .inspection _ => True

def Follows (cfg : Config) (disk : List Doc) (h : List (Event kind)) : Mark → Prop
  | .protects request backup verification manifest checkpoint => ∃ checkpointId now,
      Backups.fromBackup { cfg.protection with checkpointId, now } request (some backup)
        (some verification) (some manifest) = .ok checkpoint
  | .planned inspection plan => Planned h inspection plan
  | .started plan input inspection now => Started plan input inspection now ∧
      Borne cfg disk h (.plan plan)
  | .preflighted plan input inspection now => Preflight cfg plan input inspection now ∧
      Borne cfg disk h (.plan plan) ∧ Admitted h input
  | .granted plan input _ => ∃ inspection now, .marked (.preflighted plan input inspection now) ∈ h
  | .repairing plan input grant => .marked (.granted plan input grant) ∈ h
  | .repaired plan input grant _ => .marked (.repairing plan input grant) ∈ h

/-- The history bears out the keys of a dictionary. -/
structure EntriesIn (cfg : Config) (h : List (Event kind)) (e : Entries) : Prop where
  request : ∀ plan input, e.plan = some plan → e.request = some input →
    ∃ inspection now, .marked (.preflighted plan input inspection now) ∈ h
  grant : ∀ plan input grant, e.plan = some plan → e.request = some input → e.grant = some grant →
    .marked (.granted plan input grant) ∈ h
  outcome : ∀ plan input outcome, e.plan = some plan → e.request = some input →
    e.outcome = some outcome → ∃ grant, .marked (.repaired plan input grant outcome) ∈ h
  verdict : ∀ r v, e.repair = some r → e.verification = some v → Verdict cfg h r v

def ValueIn (cfg : Config) (h : List (Event kind)) : Value → Prop
  | .input i => Admitted h i
  | .entries e => EntriesIn cfg h e

theorem Admitted.suffix {input : FilesystemRepairInput} (ha : Admitted h input) (hs : h <:+ h') :
    Admitted h' input := by
  obtain ⟨plan, inspection, now, checkpoint, hmem, hplan⟩ := ha
  exact ⟨plan, inspection, now, checkpoint, hs.subset hmem, hplan⟩

theorem Verdict.suffix {r : Repair} {v : RepairVerification} (hv : Verdict cfg h r v)
    (hs : h <:+ h') : Verdict cfg h' r v := by
  obtain ⟨plan, input, grant, outcome, hmem, hrest⟩ := hv
  exact ⟨plan, input, grant, outcome, hs.subset hmem, hrest⟩

theorem Borne.suffix {d : Doc} (hd : Borne cfg disk h d) (hs : h <:+ h') : Borne cfg disk h' d := by
  cases d with
  | plan p =>
    refine hd.imp_right ?_
    rintro ⟨inspection, hmem⟩
    exact ⟨inspection, hs.subset hmem⟩
  | repair r =>
    intro hr
    refine (hd hr).imp_right ?_
    rintro ⟨v, hv, hsuccess⟩
    exact ⟨v, hv.suffix hs, hsuccess⟩
  | inspection => trivial

theorem EntriesIn.suffix {e : Entries} (he : EntriesIn cfg h e) (hs : h <:+ h') :
    EntriesIn cfg h' e where
  request plan input hp hi := by
    obtain ⟨inspection, now, hmem⟩ := he.request plan input hp hi
    exact ⟨inspection, now, hs.subset hmem⟩
  grant plan input grant hp hi hg := hs.subset (he.grant plan input grant hp hi hg)
  outcome plan input outcome hp hi ho := by
    obtain ⟨grant, hmem⟩ := he.outcome plan input outcome hp hi ho
    exact ⟨grant, hs.subset hmem⟩
  verdict r v hr hv := (he.verdict r v hr hv).suffix hs

theorem ValueIn.suffix {v : Value} (hv : ValueIn cfg h v) (hs : h <:+ h') : ValueIn cfg h' v := by
  cases v with
  | input i => exact Admitted.suffix hv hs
  | entries e => exact EntriesIn.suffix hv hs

theorem borne_of_mem {d : Doc} (hd : d ∈ disk) : Borne cfg disk [] d := by
  cases d with
  | plan => exact .inl hd
  | repair r => exact fun _ => .inl ⟨r, hd, rfl⟩
  | inspection => trivial

def rules (cfg : Config) (disk : List Doc) : Rules kind where
  base := disk
  mark := Follows cfg disk
  doc := Borne cfg disk
  value := ValueIn cfg
  payload h p := ∃ inspection now,
    .marked (.started p.plan (repairInput p.plan p.sessionId p.createdBy) inspection now) ∈ h
  doc_base _ := borne_of_mem
  doc_suffix := Borne.suffix
  value_suffix := ValueIn.suffix
  payload_suffix hp hs := by
    obtain ⟨inspection, now, hmem⟩ := hp
    exact ⟨inspection, now, hs.subset hmem⟩

/-! ### Records -/

theorem borne_open {r : Repair} (hr : r.status ≠ .completed) : Borne cfg disk h (.repair r) :=
  fun hstatus => absurd hstatus hr

theorem Borne.challenge {r : Repair} (hr : Borne cfg disk h (.repair r))
    (authorizationChallengeId : Option String) :
    Borne cfg disk h (.repair { r with authorizationChallengeId }) := by
  intro hstatus
  refine (hr hstatus).imp_left ?_
  rintro ⟨r₀, hmem, heq⟩
  exact ⟨r₀, hmem, by rw [heq]⟩

theorem verdict_verified {plan : FilesystemRepairPlan} {input : FilesystemRepairInput}
    {grant : FilesystemAuthorizationGrant} {outcome : FilesystemRepairOutcome} {repair : Repair}
    (hmem : .marked (.repaired plan input grant outcome) ∈ h)
    (hid : repair.id = safeId cfg plan.repairId) :
    Verdict cfg h (verified plan outcome repair) (verifyRepair plan outcome repair.base).2 :=
  ⟨plan, input, grant, outcome, hmem, hid, rfl, rfl⟩

theorem verdict_projected {r : Repair} {v : RepairVerification} (hv : Verdict cfg h r v)
    (now : DateTime) : Verdict cfg h (projected now r v) v := by
  obtain ⟨plan, input, grant, outcome, hmem, hid, hverification, heq⟩ := hv
  exact ⟨plan, input, grant, outcome, hmem, hid, hverification, heq⟩

theorem Verdict.borne {r : Repair} {v : RepairVerification} (hv : Verdict cfg h r v)
    (now : DateTime) : Borne cfg disk h (.repair (projected now r v)) := fun hstatus =>
  .inr ⟨v, verdict_projected hv now, terminalOf_completed.mp hstatus⟩

section Actions

variable {cfg : Config} {who : Handle}

abbrev Keeps (cfg : Config) (disk : List Doc) (h : List (Event kind)) {α : Type} (p : Task α)
    (Q : α → List (Event kind) → Prop) : Prop :=
  Runs (rules cfg disk) h p Q

/-! ### The store and the outside -/

theorem keeps_mark (m : Mark) (he : ∀ h', h <:+ h' → Follows cfg disk h' m) :
    Keeps cfg disk h (mark (K := kind) m) fun _ h' => .marked m ∈ h' :=
  runs_mark he

theorem keeps_put (doc : Doc) (he : ∀ h', h <:+ h' → Borne cfg disk h' doc) :
    Keeps cfg disk h (put (K := kind) who doc) fun _ h' => Known (rules cfg disk) h' doc :=
  runs_put (K := kind) (R := rules cfg disk) who doc he

theorem keeps_getPlan (planId : String) :
    Keeps cfg disk h (getPlan cfg who planId) fun found h' => ∀ p, found = some p →
      Borne cfg disk h' (.plan p) ∧ p.id = safeId cfg planId := by
  refine (runs_fetch (K := kind) who (.plans, safeId cfg planId)).bind fun found h1 _ hfound =>
    runs_ret fun h2 hs p hp => ?_
  obtain ⟨d, rfl, hd⟩ := Option.bind_eq_some_iff.mp hp
  obtain ⟨hknown, hfile⟩ := hfound d rfl
  cases d with
  | plan p' =>
    obtain rfl := Option.some.inj hd
    exact ⟨(hknown.suffix hs).borne, (Prod.mk.inj hfile).2⟩
  | repair | inspection => cases hd

theorem keeps_getRepair (repairId : String) :
    Keeps cfg disk h (getRepair cfg who repairId) fun found h' => ∀ r, found = some r →
      Borne cfg disk h' (.repair r) ∧ r.id = safeId cfg repairId := by
  refine (runs_fetch (K := kind) who (.repairs, safeId cfg repairId)).bind fun found h1 _ hfound =>
    runs_ret fun h2 hs r hr => ?_
  obtain ⟨d, rfl, hd⟩ := Option.bind_eq_some_iff.mp hr
  obtain ⟨hknown, hfile⟩ := hfound d rfl
  cases d with
  | repair r' =>
    obtain rfl := Option.some.inj hd
    exact ⟨(hknown.suffix hs).borne, (Prod.mk.inj hfile).2⟩
  | plan | inspection => cases hd

theorem keeps_ask (c : Call) : Keeps cfg disk h (ask who c) fun _ _ => True := runs_await who _

theorem keeps_entry {α : Type} (value : Value) (key : Entries → Option α) :
    Keeps cfg disk h (entry value key) fun a _ => ∃ e, value = .entries e ∧ key e = some a := by
  refine runs_ofOption.mono fun a _ _ ha => ?_
  cases value with
  | entries e => exact ⟨e, rfl, ha⟩
  | input => cases ha

/-! ### Planning -/

theorem keeps_inspect (device : String) :
    Keeps cfg disk h (inspect who device) fun _ _ => True := by
  refine (keeps_ask _).bind fun answer h1 _ _ => ?_
  refine (RunsOr.handle (Q := fun _ _ => True) (runs_ofReturned answer) fun e _ _ =>
    runs_toServiceError e).bind fun inspection h2 _ _ => ?_
  refine (keeps_put (.inspection inspection) fun _ _ => trivial).bind fun _ h3 _ _ => ?_
  exact (runs_pause who).bind fun _ _ _ _ => runs_ret fun _ _ => trivial

theorem keeps_fromBackup (request : Backups.ProtectionRequest) (backupId checkpointId : String) :
    Keeps cfg disk h (fromBackup cfg who request backupId checkpointId) fun checkpoint h' =>
      ∃ backup verification manifest,
        .marked (.protects request backup verification manifest checkpoint) ∈ h' := by
  refine (keeps_ask _).bind fun backup h1 _ _ => ?_
  refine (keeps_ask _).bind fun verification h2 _ _ => ?_
  refine (keeps_ask _).bind fun manifest h3 _ _ => ?_
  refine (runs_reading _).bind fun now h4 _ _ => ?_
  split
  · next backup verification manifest checkpoint hfrom =>
    refine (keeps_mark (.protects request backup verification manifest checkpoint) fun _ _ =>
      ⟨checkpointId, now, hfrom⟩).bind fun _ h5 _ hmark => ?_
    refine (keeps_ask _).bind fun stored h6 hs6 _ => ?_
    refine (runs_ofCalled stored).bind fun _ h7 hs7 _ => runs_ret fun h8 hs8 => ?_
    exact ⟨backup, verification, manifest, (hs6.trans (hs7.trans hs8)).subset hmark⟩
  · exact runs_raise trivial _
  · exact runs_raise trivial _

theorem keeps_protect (inspection : FilesystemInspection) (sessionId checkpointId : String)
    (backupId : Option String) :
    Keeps cfg disk h (protect cfg who inspection sessionId checkpointId backupId)
      fun protection h' => ∀ checkpoint, protection = .ok checkpoint →
        ∃ backup verification manifest,
          .marked (.protects (protectionRequest inspection sessionId) backup verification manifest
            checkpoint) ∈ h' := by
  cases backupId with
  | none => exact runs_ret fun _ _ _ heq => by cases heq
  | some backupId =>
    refine RunsOr.handle ?_ fun e h1 _ => ?_
    · refine (keeps_fromBackup _ backupId checkpointId).bind fun checkpoint h1 hs1 hfrom => ?_
      refine (runs_pause who).bind fun _ h2 hs2 _ => runs_ret fun h3 hs3 checkpoint' heq => ?_
      obtain rfl := Except.ok.inj heq
      obtain ⟨backup, verification, manifest, hmem⟩ := hfrom
      exact ⟨backup, verification, manifest, (hs2.trans hs3).subset hmem⟩
    · cases e with
      | executor code => exact runs_ret fun _ _ _ heq => by cases heq
      | service | exc => exact runs_raise trivial _

theorem keeps_plan (request : FilesystemRepairPlanRequest)
    (sessionId planId repairId checkpointId : String) :
    Keeps cfg disk h (plan cfg who request sessionId planId repairId checkpointId)
      fun _ _ => True := by
  refine (keeps_inspect _).bind fun inspection h1 _ _ => ?_
  refine runs_ofOption.bind fun filesystem h2 _ _ => ?_
  refine (keeps_protect inspection sessionId checkpointId _).bind
    fun protection h3 _ hprotection => ?_
  refine runs_require.bind fun _ h4 hs4 _ => ?_
  refine (runs_reading _).bind fun now h5 hs5 _ => ?_
  have hplanned : ∀ h', h5 <:+ h' → ∀ fingerprint, Planned h' inspection
      { draft inspection filesystem protection sessionId planId repairId now with
        fingerprintSha256 := fingerprint } := fun h' hs fingerprint =>
    { target := rfl
      mount := rfl
      supported := id
      protection := fun checkpoint hcheckpoint => by
        cases protection with
        | error => cases hcheckpoint
        | ok checkpoint' =>
          obtain rfl := Option.some.inj hcheckpoint
          obtain ⟨backup, verification, manifest, hmem⟩ := hprotection checkpoint' rfl
          exact ⟨backup, verification, manifest, (hs4.trans (hs5.trans hs)).subset hmem⟩ }
  refine (keeps_mark (.planned inspection _) fun h' hs => hplanned h' hs _).bind
    fun _ h6 _ hmark => ?_
  refine (keeps_put (.plan _) fun h' hs => .inr ⟨inspection, hs.subset hmark⟩).bind
    fun _ h7 _ _ => ?_
  refine (runs_pause who).bind fun _ h8 _ _ => ?_
  exact (runs_attempt who).bind fun _ _ _ _ => runs_ret fun _ _ => trivial

/-! ### The actions -/

variable {inputs : Value}

theorem keeps_validateRepair (hv : ValueIn cfg h inputs) :
    Keeps cfg disk h (validateRepair cfg who inputs) fun output h' => ValueIn cfg h' output := by
  refine runs_ofOption.bind fun input h1 hs1 hinput => ?_
  obtain rfl : inputs = .input input := by
    cases inputs with
    | input i => exact congrArg _ (Option.some.inj hinput)
    | entries => cases hinput
  have hadmitted : Admitted h1 input := Admitted.suffix hv hs1
  refine (keeps_getPlan input.planId).bind fun found h2 hs2 hfound => ?_
  refine runs_ofOption.bind fun plan h3 hs3 hplan => ?_
  obtain ⟨hborne, hid⟩ := hfound plan hplan
  refine runs_require.bind fun _ h4 hs4 hchecked => ?_
  refine (runs_reading _).bind fun now h5 hs5 _ => ?_
  refine runs_require.bind fun _ h6 hs6 hunexpired => ?_
  refine runs_require.bind fun _ h7 hs7 hsession => ?_
  refine runs_require.bind fun _ h8 hs8 hresource => ?_
  refine runs_require.bind fun _ h9 hs9 hfingerprint => ?_
  refine (keeps_ask _).bind fun answer h10 hs10 _ => ?_
  refine (RunsOr.handle (Q := fun _ _ => True) (runs_ofReturned answer) fun e _ _ =>
    runs_toActionError e).bind fun inspection h11 hs11 _ => ?_
  refine runs_require.bind fun _ h12 hs12 hidentity => ?_
  refine runs_require.bind fun _ h13 hs13 hmount => ?_
  have hs : h2 <:+ h13 := hs3.trans (hs4.trans (hs5.trans (hs6.trans (hs7.trans (hs8.trans
    (hs9.trans (hs10.trans (hs11.trans (hs12.trans hs13)))))))))
  simp only [Bool.and_eq_true, Option.any_eq_true, decide_eq_true_eq] at hchecked
  obtain ⟨hexecutable, checkpoint, hcheckpoint, hready, -⟩ := hchecked
  have hpreflight : Preflight cfg plan input inspection now :=
    ⟨hid, hexecutable, ⟨checkpoint, hcheckpoint, hready⟩, of_decide_eq_true hunexpired,
      of_decide_eq_true hsession, of_decide_eq_true hresource, of_decide_eq_true hfingerprint,
      of_decide_eq_true hidentity, of_decide_eq_true hmount⟩
  refine (keeps_mark (.preflighted plan input inspection now) fun h' hs' =>
    ⟨hpreflight, hborne.suffix (hs.trans hs'), hadmitted.suffix (hs2.trans (hs.trans hs'))⟩).bind
      fun _ h14 _ hmark => ?_
  refine (keeps_getRepair plan.repairId).bind fun repair h15 hs15 _ => ?_
  refine runs_ofOption.bind fun _ h16 hs16 _ => ?_
  refine (runs_pause who).bind fun _ h17 hs17 _ => runs_ret fun h18 hs18 => ?_
  refine ⟨fun p i hp hi => ?_, fun p i g _ _ hg => (by cases hg), fun p i o _ _ ho => (by cases ho),
    fun r v hr => (by cases hr)⟩
  obtain rfl := Option.some.inj hp
  obtain rfl := Option.some.inj hi
  exact ⟨inspection, now, (hs15.trans (hs16.trans (hs17.trans hs18))).subset hmark⟩

theorem keeps_onChallenge (repairId challengeId : String) :
    Keeps cfg disk h (onChallenge cfg who repairId challengeId) fun _ _ => True := by
  refine (keeps_getRepair repairId).bind fun found h1 _ hfound => ?_
  refine (runs_whenSome fun r hr => ?_).bind fun _ _ _ _ => runs_pause who
  refine (keeps_put _ fun h' hs => ?_).mono fun _ _ _ _ => trivial
  exact ((hfound r hr).1.challenge _).suffix hs

theorem keeps_executorAuthorize (plan : FilesystemRepairPlan) :
    Keeps cfg disk h (executorAuthorize cfg who plan) fun _ _ => True := by
  refine (keeps_ask .messages).bind fun n h1 _ _ => ?_
  refine (runs_attend (fun h' _ => keeps_ask _)
    (fun id h' _ => keeps_onChallenge plan.repairId id) n).bind fun _ h2 _ _ => ?_
  exact (keeps_ask _).bind fun granted h3 _ _ => runs_ofReturned granted

theorem keeps_requestRepairAuthorization (hv : ValueIn cfg h inputs) :
    Keeps cfg disk h (requestRepairAuthorization cfg who inputs) fun output h' =>
      ValueIn cfg h' output := by
  refine (keeps_entry inputs (·.request)).bind fun input h1 hs1 hinput => ?_
  obtain ⟨e, rfl, hinput⟩ := hinput
  refine runs_ofOption.bind fun plan h2 hs2 (hplan : e.plan = some plan) => ?_
  obtain ⟨inspection, now, hpreflighted⟩ := EntriesIn.request hv plan input hplan hinput
  refine (keeps_getRepair plan.repairId).bind fun found h3 hs3 hfound => ?_
  refine runs_ofOption.bind fun repair h4 hs4 _ => ?_
  refine (keeps_put (.repair (repair.withStatus .authorizing)) fun h' _ =>
    borne_open fun heq => by cases heq).bind fun _ h5 hs5 _ => ?_
  refine (RunsOr.handle (keeps_executorAuthorize plan) fun e _ _ =>
    runs_toActionError e).bind fun grant h6 hs6 _ => ?_
  have hs : h <:+ h6 := hs1.trans (hs2.trans (hs3.trans (hs4.trans (hs5.trans hs6))))
  refine (keeps_mark (.granted plan input grant) fun h' hs' =>
    ⟨inspection, now, (hs.trans hs').subset hpreflighted⟩).bind fun _ h7 hs7 hmark =>
      runs_ret fun h8 hs8 => ?_
  refine ⟨fun p i hp hi => ?_, fun p i g hp hi hg => ?_, fun p i o _ _ ho => (by cases ho),
    fun r v hr => (by cases hr)⟩
  · obtain rfl := Option.some.inj hp
    obtain rfl := Option.some.inj hi
    exact ⟨inspection, now, (hs.trans (hs7.trans hs8)).subset hpreflighted⟩
  · obtain rfl := Option.some.inj hp
    obtain rfl := Option.some.inj hi
    obtain rfl := Option.some.inj hg
    exact hs8.subset hmark

theorem keeps_terminal {status : RepairExecutionStatus} (hstatus : status ≠ .completed)
    (repairId code : String) :
    Keeps cfg disk h (terminal cfg who repairId status code) fun _ _ => True := by
  refine (keeps_getRepair repairId).bind fun found h1 _ _ => runs_whenSome fun r _ => ?_
  refine (runs_reading _).bind fun now h2 _ _ => ?_
  exact (keeps_put (.repair (r.ended status now code)) fun h' _ => borne_open hstatus).mono
    fun _ _ _ _ => trivial

theorem keeps_executorExecute (plan : FilesystemRepairPlan) (grant : FilesystemAuthorizationGrant) :
    Keeps cfg disk h (executorExecute who plan grant) fun _ _ => True := by
  refine (keeps_ask .messages).bind fun n h1 _ _ => ?_
  refine (runs_attend (fun h' _ => keeps_ask _) (fun _ h' _ => runs_pause who) n).bind
    fun _ h2 _ _ => ?_
  exact (keeps_ask _).bind fun executed h3 _ _ => runs_ofReturned executed

theorem keeps_onExecuteError {α : Type} {Q : α → List (Event kind) → Prop} (repairId : String)
    (e : Jobs.Error) : Keeps cfg disk h (onExecuteError cfg who repairId e) Q := by
  have hcancelled : Keeps cfg disk h (onExecuteError cfg who repairId .cancelled) Q := by
    refine (keeps_terminal (by decide) repairId _).bind fun _ _ _ _ => ?_
    exact (runs_pause who).bind fun _ _ _ _ => runs_raise trivial _
  cases e with
  | executor code =>
    refine (keeps_terminal (by decide) repairId code).bind fun _ _ _ _ => ?_
    exact (runs_pause who).bind fun _ _ _ _ => runs_raise trivial _
  | service code => exact runs_raise trivial _
  | exc e =>
    cases e with
    | cancelledError => exact hcancelled
    | _ => exact runs_raise trivial _

theorem keeps_executeRepair (hv : ValueIn cfg h inputs) :
    Keeps cfg disk h (executeRepair cfg who inputs) fun output h' => ValueIn cfg h' output := by
  refine (keeps_entry inputs (·.request)).bind fun input h1 hs1 hinput => ?_
  obtain ⟨e, rfl, hinput⟩ := hinput
  refine runs_ofOption.bind fun plan h2 hs2 (hplan : e.plan = some plan) => ?_
  refine runs_ofOption.bind fun grant h3 hs3 (hgrant : e.grant = some grant) => ?_
  have hgranted := EntriesIn.grant hv plan input grant hplan hinput hgrant
  obtain ⟨inspection, now, hpreflighted⟩ := EntriesIn.request hv plan input hplan hinput
  refine (keeps_getRepair plan.repairId).bind fun found h4 hs4 _ => ?_
  refine runs_ofOption.bind fun repair h5 hs5 _ => ?_
  refine (runs_reading _).bind fun started h6 hs6 _ => ?_
  refine (keeps_put _ fun h' _ => borne_open fun heq => by cases heq).bind
    fun _ h7 hs7 _ => ?_
  refine (runs_pause who).bind fun _ h8 hs8 _ => ?_
  have hs : h <:+ h8 :=
    hs1.trans (hs2.trans (hs3.trans (hs4.trans (hs5.trans (hs6.trans (hs7.trans hs8))))))
  refine (keeps_mark (.repairing plan input grant) fun h' hs' =>
    (hs.trans hs').subset hgranted).bind fun _ h9 hs9 hrepairing => ?_
  refine (RunsOr.handle (Q := fun _ _ => True) (keeps_executorExecute plan grant)
    fun e _ _ => keeps_onExecuteError plan.repairId e).bind fun outcome h10 hs10 _ => ?_
  refine (keeps_mark (.repaired plan input grant outcome) fun h' hs' =>
    (hs10.trans hs').subset hrepairing).bind fun _ h11 hs11 hmark => runs_ret fun h12 hs12 => ?_
  have hafter : h <:+ h12 := hs.trans (hs9.trans (hs10.trans (hs11.trans hs12)))
  refine ⟨fun p i hp hi => ?_, fun p i g _ _ hg => (by cases hg), fun p i o hp hi ho => ?_,
    fun r v hr => (by cases hr)⟩
  · obtain rfl := Option.some.inj hp
    obtain rfl := Option.some.inj hi
    exact ⟨inspection, now, hafter.subset hpreflighted⟩
  · obtain rfl := Option.some.inj hp
    obtain rfl := Option.some.inj hi
    obtain rfl := Option.some.inj ho
    exact ⟨grant, hs12.subset hmark⟩

theorem entriesIn_verdict {r : Repair} {v : RepairVerification} {revision : Option Nat}
    (hv : Verdict cfg h r v) :
    EntriesIn cfg h { repair := r, verification := v, knowledgeGraphRevision := revision } := by
  refine ⟨fun p i hp => (by cases hp), fun p i g hp => (by cases hp), fun p i o hp => (by cases hp),
    fun r' v' hr hv' => ?_⟩
  obtain rfl := Option.some.inj hr
  obtain rfl := Option.some.inj hv'
  exact hv

theorem keeps_verifyRepairAction (hv : ValueIn cfg h inputs) :
    Keeps cfg disk h (verifyRepairAction cfg who inputs) fun output h' => ValueIn cfg h' output := by
  refine (keeps_entry inputs (·.request)).bind fun input h1 hs1 hinput => ?_
  obtain ⟨e, rfl, hinput⟩ := hinput
  refine runs_ofOption.bind fun plan h2 hs2 (hplan : e.plan = some plan) => ?_
  refine runs_ofOption.bind fun outcome h3 hs3 (houtcome : e.outcome = some outcome) => ?_
  obtain ⟨grant, hrepaired⟩ := EntriesIn.outcome hv plan input outcome hplan hinput houtcome
  refine (keeps_getRepair plan.repairId).bind fun found h4 hs4 hfound => ?_
  refine runs_ofOption.bind fun repair h5 hs5 hrepair => ?_
  obtain ⟨-, hid⟩ := hfound repair hrepair
  refine (keeps_put (.repair (verified plan outcome repair)) fun h' _ =>
    borne_open fun heq => by cases heq).bind fun _ h6 hs6 _ => ?_
  refine (runs_pause who).bind fun _ h7 hs7 _ => runs_ret fun h8 hs8 => ?_
  have hs : h <:+ h8 := hs1.trans (hs2.trans (hs3.trans (hs4.trans (hs5.trans (hs6.trans
    (hs7.trans hs8))))))
  exact entriesIn_verdict (verdict_verified (hs.subset hrepaired) hid)

theorem keeps_projectRepairGraph (hv : ValueIn cfg h inputs) :
    Keeps cfg disk h (projectRepairGraph who inputs) fun output h' => ValueIn cfg h' output := by
  refine (keeps_entry inputs (·.repair)).bind fun repair h1 hs1 hrepair => ?_
  obtain ⟨e, rfl, hrepair⟩ := hrepair
  refine runs_ofOption.bind fun verification h2 hs2
    (hverification : e.verification = some verification) => ?_
  have hverdict : Verdict cfg h repair verification :=
    EntriesIn.verdict hv repair verification hrepair hverification
  refine (keeps_ask .applyGraph).bind fun applied h3 hs3 _ => ?_
  refine (runs_ofCalled applied).bind fun revision h4 hs4 _ => ?_
  refine (runs_reading _).bind fun now h5 hs5 _ => ?_
  have hs : h <:+ h5 := hs1.trans (hs2.trans (hs3.trans (hs4.trans hs5)))
  refine (keeps_put (.repair (projected now repair verification)) fun h' hs' =>
    (hverdict.suffix (hs.trans hs')).borne now).bind fun _ h6 hs6 _ => ?_
  refine (runs_pause who).bind fun _ h7 hs7 _ => ?_
  refine (runs_pause who).bind fun _ h8 hs8 _ => ?_
  refine runs_require.bind fun _ h9 hs9 _ => runs_ret fun h10 hs10 => ?_
  have hafter : h <:+ h10 := hs.trans (hs6.trans (hs7.trans (hs8.trans (hs9.trans hs10))))
  exact entriesIn_verdict (verdict_projected (hverdict.suffix hafter) now)

theorem keeps_action (n : Nat) (context : ActionContext) (hv : ValueIn cfg h inputs) :
    Keeps cfg disk h (action cfg n context inputs) fun output h' => ValueIn cfg h' output := by
  rw [action]
  split
  · exact keeps_validateRepair hv
  split
  · exact keeps_requestRepairAuthorization hv
  split
  · exact keeps_executeRepair hv
  split
  · exact keeps_verifyRepairAction hv
  split
  · exact keeps_projectRepairGraph hv
  · exact runs_raise trivial _

/-! ### The service -/

theorem callsIn_repairFlow {input : FilesystemRepairInput} (hadmitted : Admitted h input) :
    CallsIn (rules cfg disk) h (repairFlow input).toCalls := by
  intro h' id state value hs hstate heq
  simp only [repairFlow, repairInputs] at heq
  split at heq
  · obtain rfl := Called.returned.inj heq
    exact hadmitted.suffix hs
  · split_ifs at heq <;> exact stateOf_in hstate heq

theorem keeps_markFailed (repairId code : String) :
    Keeps cfg disk h (markFailed cfg who repairId code) fun _ _ => True := by
  refine (keeps_getRepair repairId).bind fun found h1 _ _ => runs_whenSome fun r _ => ?_
  split
  · exact runs_ret fun _ _ => trivial
  · refine (runs_reading _).bind fun now h2 _ _ => ?_
    exact (keeps_put _ fun h' _ => borne_open fun heq => by cases heq).mono
      fun _ _ _ _ => trivial

theorem keeps_tryRepair (task : Nat) {plan : FilesystemRepairPlan}
    {checkpoint : ProtectionCheckpoint} {input : FilesystemRepairInput}
    {inspection : FilesystemInspection} {now : DateTime}
    (hstarted : .marked (.started plan input inspection now) ∈ h)
    (hcheckpoint : plan.protectionCheckpoint = some checkpoint) (uuid : String) :
    Keeps cfg disk h (tryRepair cfg task who plan checkpoint input uuid) fun _ _ => True := by
  have hadmitted : refused cfg checkpoint input = none → Admitted h input := fun hpassed => by
    refine ⟨plan, inspection, now, checkpoint, hstarted, hcheckpoint, ?_⟩
    rw [refused] at hpassed
    split at hpassed
    · cases hpassed
    · split_ifs at hpassed with hvalid hprotects
      simpa using hprotects
  have hexecute : Keeps cfg disk h (executeCapability cfg.engine task who
      (refused cfg checkpoint input) (repairFlow input) validResult (some plan.repairId) uuid)
      fun _ _ => True :=
    runs_executeCapability (K := kind) (R := rules cfg disk) cfg.engine task who _
      (fun hpassed => callsIn_repairFlow (hadmitted hpassed)) _ _ _
  refine hexecute.bind fun execution _ _ _ => ?_
  split
  · exact runs_ret fun _ _ => trivial
  · exact keeps_markFailed _ _

theorem keeps_onRepairError (repairId : String) (e : Jobs.Error) :
    Keeps cfg disk h (onRepairError cfg who repairId e) fun _ _ => True := by
  rw [onRepairError.eq_def]
  split
  · refine (keeps_getRepair repairId).bind fun found h1 _ _ => runs_whenSome fun r _ => ?_
    split
    · refine (runs_reading _).bind fun now h2 _ _ => ?_
      exact (keeps_put _ fun h' _ => borne_open fun heq => by cases heq).mono
        fun _ _ _ _ => trivial
    · exact runs_ret fun _ _ => trivial
  · exact keeps_markFailed _ _

theorem keeps_run (task n : Nat) {p : Payload} {inspection : FilesystemInspection} {now : DateTime}
    (hstarted : .marked (.started p.plan (repairInput p.plan p.sessionId p.createdBy) inspection
      now) ∈ h) :
    Keeps cfg disk h (run cfg task n p) fun _ _ => True := by
  refine runs_ofOption.bind fun checkpoint h1 hs1 hcheckpoint => ?_
  refine runs_require.bind fun _ h2 hs2 _ => ?_
  refine Runs.andFinally (RunsOr.handle (keeps_tryRepair task
    ((hs1.trans hs2).subset hstarted) hcheckpoint p.uuid) fun e _ _ =>
      keeps_onRepairError p.plan.repairId e) fun _ _ => ?_
  refine (runs_await (.job n) .thread).bind fun _ _ _ _ => ?_
  exact runs_aside (fun _ => rfl) (fun _ => rfl) (fun _ => rfl) (fun _ => rfl) fun _ => rfl

theorem keeps_start (planId sessionId createdBy uuid : String) :
    Keeps cfg disk h (start cfg who planId sessionId createdBy uuid) fun _ _ => True := by
  refine (keeps_getPlan planId).bind fun found h1 _ hfound => ?_
  refine runs_ofOption.bind fun plan h2 hs2 hplan => ?_
  obtain ⟨hborne, -⟩ := hfound plan hplan
  refine runs_ofOption.bind fun checkpoint h3 hs3 hcheckpoint => ?_
  obtain ⟨-, hexecutable⟩ := Option.filter_eq_some_iff.mp hcheckpoint
  refine (runs_reading _).bind fun now h4 hs4 _ => ?_
  refine runs_require.bind fun _ h5 hs5 hunexpired => ?_
  refine runs_require.bind fun _ h6 hs6 hsession => ?_
  refine (keeps_getRepair plan.repairId).bind fun existing h7 hs7 _ => ?_
  refine runs_require.bind fun _ h8 hs8 _ => ?_
  refine (keeps_ask _).bind fun answer h9 hs9 _ => ?_
  refine (RunsOr.handle (Q := fun _ _ => True) (runs_ofReturned answer) fun e _ _ =>
    runs_toServiceError e).bind fun current h10 hs10 _ => ?_
  refine runs_require.bind fun _ h11 hs11 hidentity => ?_
  have hs : h1 <:+ h11 := hs2.trans (hs3.trans (hs4.trans (hs5.trans (hs6.trans (hs7.trans
    (hs8.trans (hs9.trans (hs10.trans hs11))))))))
  have hstarted : Started plan (repairInput plan sessionId createdBy) current now :=
    ⟨hexecutable, of_decide_eq_true hunexpired, of_decide_eq_true hsession,
      of_decide_eq_true hidentity, rfl⟩
  refine (keeps_mark (.started plan (repairInput plan sessionId createdBy) current now)
    fun h' hs' => ⟨hstarted, hborne.suffix (hs.trans hs')⟩).bind fun _ h12 _ hmark => ?_
  refine (runs_reading _).bind fun created h13 hs13 _ => ?_
  refine (keeps_put _ fun h' _ => borne_open fun heq => by cases heq).bind
    fun _ h14 hs14 _ => ?_
  refine (runs_reading _).bind fun job h15 hs15 _ => ?_
  refine (runs_modify (P := fun _ => True) fun s hi hs' => ⟨hi.create ?_, List.suffix_refl _,
    trivial⟩).bind fun _ h16 _ _ => ?_
  · exact ⟨current, now, (hs13.trans (hs14.trans (hs15.trans hs'))).subset hmark⟩
  refine (runs_await who .thread).bind fun _ h17 _ _ => ?_
  have htable : Keeps cfg disk h17 (Proc.modify (State.table plan.repairId job)) fun _ _ => True :=
    runs_aside (fun _ => rfl) (fun _ => rfl) (fun _ => rfl) (fun _ => rfl) fun _ => rfl
  exact htable.bind fun _ _ _ _ => runs_ret fun _ _ => trivial

theorem keeps_cancel (repairId : String) :
    Keeps cfg disk h (cancel cfg who repairId) fun _ _ => True := by
  refine (keeps_getRepair repairId).bind fun found h1 _ _ => ?_
  refine runs_ofOption.bind fun repair h2 _ _ => ?_
  split
  · refine (runs_runningTask who repairId).bind fun found h3 _ _ => ?_
    refine runs_ofOption.bind fun job h4 _ _ => ?_
    refine (runs_cancel _).bind fun _ h5 _ _ => ?_
    refine (runs_reading _).bind fun now h6 _ _ => ?_
    refine (keeps_put _ fun h' _ => borne_open fun heq => by cases heq).bind
      fun _ h7 _ _ => ?_
    exact (runs_pause who).bind fun _ _ _ _ => runs_ret fun _ _ => trivial
  · split
    · exact runs_raise trivial _
    · exact runs_ret fun _ _ => trivial

theorem keeps_serve (task : Nat) (request : Request) :
    Keeps cfg disk h (serve cfg task request) fun _ _ => True := by
  have hdone : ∀ {α : Type} {p : Task α} {h : List (Event kind)} {Q} (f : α → Reply),
      Keeps cfg disk h p Q → Keeps cfg disk h (p.bind fun a => pure (f a)) fun _ _ => True :=
    fun f hp => hp.bind fun _ _ _ _ => runs_ret fun _ _ => trivial
  cases request with
  | inspect device => exact hdone .inspection (keeps_inspect device)
  | plan request sessionId planId repairId checkpointId =>
    exact hdone (fun p => .plan (some p)) (keeps_plan request _ _ _ _)
  | getPlan planId => exact hdone .plan (keeps_getPlan planId)
  | start planId sessionId createdBy uuid =>
    exact hdone (fun r => .repair (some r)) (keeps_start _ _ _ _)
  | get repairId => exact hdone .repair (keeps_getRepair repairId)
  | verification repairId =>
    exact hdone (fun r => .verification (r.bind (·.base.verification)))
      (keeps_getRepair repairId)
  | cancel repairId => exact hdone (fun r => .repair (some r)) (keeps_cancel repairId)
  | shutdown => exact hdone (fun _ => .done) (runs_shutdown _)

theorem service_sound (disk : List Doc) : Sound (rules cfg disk) (service cfg) where
  serve task request _ := keeps_serve task request
  job task n _ _ hp := by
    obtain ⟨inspection, now, hstarted⟩ := hp
    exact keeps_run task n hstarted
  action n context _ _ hv := keeps_action n context hv

end Actions

/-! ### Every run -/

/-- Behind an order to repair, the last first: a client has started a plan, the preflight of the
workflow has passed with what the client's plan gave it, and the executor has granted an
authorization for what the preflight has passed. -/
structure Authorized (cfg : Config) (disk : List Doc) (h : List (Event kind))
    (plan : FilesystemRepairPlan) (input : FilesystemRepairInput)
    (grant : FilesystemAuthorizationGrant) (plan₀ : FilesystemRepairPlan)
    (checkpoint : ProtectionCheckpoint) (current inspection : FilesystemInspection)
    (start time : DateTime) : Prop where
  order : [.marked (.granted plan input grant),
    .marked (.preflighted plan input inspection time),
    .marked (.started plan₀ input current start)].Sublist h
  started : Started plan₀ input current start
  protection : plan₀.protectionCheckpoint = some checkpoint
  admitted : protects checkpoint input = true
  preflight : Preflight cfg plan input inspection time
  plan : .plan plan ∈ disk ∨ ∃ inspection, .marked (.planned inspection plan) ∈ h

theorem authorized_of_granted {plan : FilesystemRepairPlan} {input : FilesystemRepairInput}
    {grant : FilesystemAuthorizationGrant} (hh : Always (rules cfg disk).Lawful h)
    (hgranted : .marked (.granted plan input grant) ∈ h) :
    ∃ plan₀ checkpoint current inspection start time,
      Authorized cfg disk h plan input grant plan₀ checkpoint current inspection start time := by
  obtain ⟨past, hs, ⟨inspection, time, hpreflighted⟩, hpast⟩ := hh.exists_past hgranted
  obtain ⟨past', hs', ⟨hpreflight, hborne, hadmitted⟩, hpast'⟩ := hpast.exists_past hpreflighted
  obtain ⟨plan₀, current, start, checkpoint, hmem, hcheckpoint, hprotects⟩ := hadmitted
  obtain ⟨past'', -, ⟨hstarted, -⟩, -⟩ := hpast'.exists_past hmem
  refine ⟨plan₀, checkpoint, current, inspection, start, time, ?_, hstarted, hcheckpoint, hprotects,
    hpreflight, ?_⟩
  · exact sublist_of_suffix (sublist_of_suffix (List.singleton_sublist.mpr hmem) hs') hs
  · exact hborne.suffix (((List.suffix_cons _ _).trans hs').trans ((List.suffix_cons _ _).trans hs))

/-- In every run, whatever the clients ask for and whatever is cancelled or fails: where the executor
is told to repair, a client has started a plan, the preflight has found the target as the plan says,
and the executor has granted the authorization after that. -/
theorem repairs_authorized (cfg : Config) (now : DateTime) (disk : List Doc) (p : Tasks kind)
    (reach : (system (service cfg)).Reachable (State.start now disk) p)
    (plan : FilesystemRepairPlan) (input : FilesystemRepairInput)
    (grant : FilesystemAuthorizationGrant) (past : List (Event kind))
    (hs : (.marked (.repairing plan input grant) :: past) <:+ p.state.history) :
    ∃ plan₀ checkpoint current inspection start time,
      Authorized cfg disk past plan input grant plan₀ checkpoint current inspection start time := by
  have hh := ((service_sound disk).always reach).suffix hs
  exact authorized_of_granted hh.2 hh.1

/-! ### A sample -/

def sampleIdentity : DeviceIdentity where
  requestedPath := "/dev/sdb1"
  canonicalPath := "/dev/sdb1"
  majorMinor := "8:17"
  uuid := none
  filesystemUuid := none
  partuuid := none
  serial := none
  model := none
  sizeBytes := 1024
  blockDevice := true
  fingerprintSha256 := Storage.sampleSha 'a' '1'

def sampleCheck (health : FilesystemHealth) (exitCode : Int) : FilesystemCheckResult :=
  ⟨.ext4, health, "e2fsck", exitCode, [], [], []⟩

def sampleInspection : FilesystemInspection where
  id := "inspection-1"
  inspectedAt := 0
  identity := sampleIdentity
  filesystem := some .ext4
  health := .inconsistent
  mount := ⟨false, false, false, [], [], [], [], true, true, []⟩
  check := some (sampleCheck .inconsistent 4)
  requiredTools := []
  writable := true
  supported := true
  repairSupported := true
  limitations := []

def sampleSource : Backups.BackupSource := ⟨"/data", "8:17", none, "/data", "ext4", 0, 0, 0⟩

def sampleBackup : Backups.Backup where
  id := "backup-0001"
  createdAt := 0
  source := sampleSource
  destination := ⟨"/dst", "/dst/backup-0001", "8:33", none, "/dst", "ext4", .localFilesystem, 9⟩
  size := 0
  fileCount := 0
  status := .completed
  checksum := none
  verificationStatus := .verified
  metadata := []
  createdBy := "local"
  sessionId := "session-1"
  planId := "backup-plan"
  execution := ⟨"execution-1", "backup-0001", none, .completed, none, none, none, none⟩

def sampleManifest : Backups.BackupManifest where
  backupId := "backup-0001"
  source := sampleSource
  entries := []
  fileCount := 0
  directoryCount := 0
  totalSizeBytes := 0
  createdAt := 0
  manifestChecksumSha256 := "sha"

def sampleCall : (c : Call) → c.Answer
  | .inspect _ => .value sampleInspection
  | .backup _ => some sampleBackup
  | .backupVerification _ => some
      ⟨"verification-1", "backup-0001", 0, .verified, 0, 0, 0, 0, true, [], [], [], [], "verified"⟩
  | .backupManifest _ => some sampleManifest
  | .putCheckpoint _ => .returned ()
  | .messages => 1
  | .challenge _ => "challenge-1"
  | .requestAuthorization plan => .value ⟨"grant-1", "challenge-1", plan.id, plan.repairId,
      plan.sessionId, plan.target.fingerprintSha256, plan.fingerprintSha256, some 1000, 9⟩
  | .stage _ => ()
  | .execute _ _ => .value ⟨sampleCheck .inconsistent 4, "e2fsck", 1, [], sampleCheck .healthy 0, none,
      []⟩
  | .applyGraph => .returned 1

def sampleAnswer : (o : Jobs.Op kind) → Jobs.Res o
  | ⟨_, .pause⟩ => .value (.returned ())
  | ⟨_, .thread⟩ | ⟨_, .join _⟩ | ⟨_, .gather _⟩ => .value ()
  | ⟨_, .read⟩ | ⟨_, .write _⟩ => .value true
  | ⟨_, .action _⟩ => .value .finished
  | ⟨_, .call c⟩ => .value (sampleCall c)

def sampleConfig : Config where
  lib := ⟨fun _ => "sha", fun _ => Storage.sampleSha 'd' '0', id, Char.isAlphanum, id⟩
  protection := ⟨fun _ => Storage.sampleSha 'e' '0', id, "", 0⟩
  engine := ⟨fun _ => .returned ⟨"sha", 1, []⟩, fun _ => true⟩
  refuses := none

def samplePlan : Request :=
  .plan ⟨"/dev/sdb1", some "backup-0001"⟩ "session-1" "plan-0001" "repair-0001" "checkpoint-1"

def sampleStart : Request := .start "plan-0001" "session-1" "local" "uuid"

def samplePlanned : Tasks kind :=
  drive (service sampleConfig) sampleAnswer 20
    ((system (service sampleConfig)).next (System.initial (State.start 5 []))
      (.start (.call samplePlan)))

/-- A client plans a repair and starts it, and nothing fails. -/
def sampleRun : Tasks kind :=
  drive (service sampleConfig) sampleAnswer 95
    ((system (service sampleConfig)).next samplePlanned
      (.start (.call sampleStart)))

theorem samplePlanned_reachable :
    (system (service sampleConfig)).Reachable (State.start 5 []) samplePlanned :=
  reachable_drive _ _ _ ⟨[.start (.call samplePlan)], .cons trivial (.nil _)⟩

theorem sampleRun_reachable :
    (system (service sampleConfig)).Reachable (State.start 5 []) sampleRun := by
  have hlegal : (system (service sampleConfig)).Legal samplePlanned (.start (.call sampleStart)) :=
    trivial
  exact reachable_drive _ _ _ (samplePlanned_reachable.next hlegal)

def Event.repairs : Event kind → Bool
  | .marked (.repairing _ _ _) => true
  | _ => false

theorem exists_repairing : ∃ plan input grant past,
    (.marked (.repairing plan input grant) :: past) <:+ sampleRun.state.history := by
  have hany : sampleRun.state.history.any Event.repairs = true := by decide +kernel
  obtain ⟨e, he, hrepairs⟩ := List.any_eq_true.mp hany
  obtain ⟨past, hs⟩ := exists_suffix_of_mem he
  cases e with
  | put => cases hrepairs
  | marked m =>
    cases m with
    | repairing plan input grant => exact ⟨plan, input, grant, past, hs⟩
    | _ => cases hrepairs

theorem repairs_authorized_run : ∃ plan input grant past,
    (.marked (.repairing plan input grant) :: past) <:+ sampleRun.state.history ∧
    ∃ plan₀ checkpoint current inspection start time, Authorized sampleConfig [] past plan input
      grant plan₀ checkpoint current inspection start time := by
  obtain ⟨plan, input, grant, past, hs⟩ := exists_repairing
  exact ⟨plan, input, grant, past, hs, repairs_authorized sampleConfig 5 [] sampleRun
    sampleRun_reachable plan input grant past hs⟩

/-- The plan is for what the inspection has shown, and its checkpoint is a verified backup of all of
this filesystem. -/
structure Protected (cfg : Config) (inspection : FilesystemInspection)
    (plan : FilesystemRepairPlan) (checkpoint : ProtectionCheckpoint) (backup : Backups.Backup)
    (verification : Backups.BackupVerification) (manifest : Backups.BackupManifest) : Prop where
  target : plan.target = inspection.identity
  mount : plan.mount = inspection.mount
  supported : executable inspection (some checkpoint) = true
  protection : plan.protectionCheckpoint = some checkpoint
  resources : checkpoint.protectedResources = [plan.protectedResourceId]
  fingerprints : checkpoint.resourceFingerprints =
    [(plan.protectedResourceId, plan.target.fingerprintSha256)]
  session : checkpoint.sessionId = plan.sessionId
  completed : backup.status = .completed
  verified : verification.status = .verified
  device : backup.source.deviceId = plan.target.majorMinor
  whole : cfg.protection.normalized backup.source.path =
    cfg.protection.normalized backup.source.mountPoint
  source : manifest.source = backup.source
  manifest : manifest.backupId = backup.id

theorem fromBackup_ok {lib : Backups.ProtectionLibrary} {request : Backups.ProtectionRequest}
    {backup : Backups.Backup} {verification : Backups.BackupVerification}
    {manifest : Backups.BackupManifest} {checkpoint : ProtectionCheckpoint}
    (hfrom : Backups.fromBackup lib request (some backup) (some verification) (some manifest) =
      .ok checkpoint) :
    checkpoint = Backups.readyCheckpoint lib request backup verification manifest ∧
    backup.status = .completed ∧ verification.status = .verified ∧
    backup.source.deviceId = request.expectedDeviceId ∧
    lib.normalized backup.source.path = lib.normalized backup.source.mountPoint ∧
    manifest.source = backup.source ∧ manifest.backupId = backup.id := by
  rw [Backups.fromBackup] at hfrom
  split_ifs at hfrom with hcompleted hverified hdevice hwhole hmanifest hsession
  obtain ⟨hsource, hid⟩ := not_or.mp hmanifest
  exact ⟨(Except.ok.inj hfrom).symm, not_not.mp hcompleted, not_not.mp hverified,
    not_not.mp hdevice, not_not.mp hwhole, not_not.mp hsource, not_not.mp hid⟩

theorem protected_of_planned {plan : FilesystemRepairPlan} {inspection : FilesystemInspection}
    (hh : Always (rules cfg disk).Lawful h) (hplanned : .marked (.planned inspection plan) ∈ h)
    (hexecutable : plan.executable = true) :
    ∃ checkpoint backup verification manifest,
      [.marked (.planned inspection plan), .marked (.protects
        (protectionRequest inspection plan.sessionId) backup verification manifest
        checkpoint)].Sublist h ∧
      Protected cfg inspection plan checkpoint backup verification manifest := by
  obtain ⟨past, hs, hplan, hpast⟩ := hh.exists_past hplanned
  have hsupported := hplan.supported hexecutable
  cases hcheckpoint : plan.protectionCheckpoint with
  | none => simp [hcheckpoint, executable] at hsupported
  | some checkpoint =>
    obtain ⟨backup, verification, manifest, hmem⟩ := hplan.protection checkpoint hcheckpoint
    obtain ⟨past', -, ⟨checkpointId, time, hfrom⟩, -⟩ := hpast.exists_past hmem
    obtain ⟨hready, hcompleted, hverified, hdevice, hwhole, hsource, hid⟩ := fromBackup_ok hfrom
    refine ⟨checkpoint, backup, verification, manifest,
      sublist_of_suffix (List.singleton_sublist.mpr hmem) hs, ?_⟩
    have htarget := hplan.target
    exact
      { target := htarget
        mount := hplan.mount
        supported := hcheckpoint ▸ hsupported
        protection := hcheckpoint
        resources := by rw [hready, FilesystemRepairPlan.protectedResourceId, htarget]; rfl
        fingerprints := by rw [hready, FilesystemRepairPlan.protectedResourceId, htarget]; rfl
        session := by rw [hready]; rfl
        completed := hcompleted
        verified := hverified
        device := by rw [htarget]; exact hdevice
        whole := hwhole
        source := hsource
        manifest := hid }

/-- In every run: a plan that the service has made itself comes to a repair only with a checkpoint
that was made, for its very target and session, of a completed and verified backup of that whole
filesystem. -/
theorem repairs_protected (cfg : Config) (now : DateTime) (disk : List Doc) (p : Tasks kind)
    (reach : (system (service cfg)).Reachable (State.start now disk) p)
    (plan : FilesystemRepairPlan) (input : FilesystemRepairInput)
    (grant : FilesystemAuthorizationGrant) (past : List (Event kind))
    (hs : (.marked (.repairing plan input grant) :: past) <:+ p.state.history)
    (hnew : .plan plan ∉ disk) :
    ∃ inspection checkpoint backup verification manifest,
      [.marked (.planned inspection plan), .marked (.protects
        (protectionRequest inspection plan.sessionId) backup verification manifest
        checkpoint)].Sublist past ∧
      Protected cfg inspection plan checkpoint backup verification manifest := by
  have hh := ((service_sound disk).always reach).suffix hs
  obtain ⟨plan₀, checkpoint, current, inspection, start, time, ha⟩ :=
    authorized_of_granted hh.2 hh.1
  obtain ⟨inspection', hplanned⟩ := ha.plan.resolve_left hnew
  exact ⟨inspection', protected_of_planned hh.2 hplanned ha.preflight.executable⟩

theorem repairs_protected_run : ∃ plan inspection checkpoint backup verification manifest,
    Protected sampleConfig inspection plan checkpoint backup verification manifest := by
  obtain ⟨plan, input, grant, past, hs⟩ := exists_repairing
  obtain ⟨inspection, checkpoint, backup, verification, manifest, -, hprotected⟩ :=
    repairs_protected sampleConfig 5 [] sampleRun sampleRun_reachable plan input grant past hs
      List.not_mem_nil
  exact ⟨plan, inspection, checkpoint, backup, verification, manifest, hprotected⟩

/-- In every run: a record that calls its repair completed is, but for its challenge, one that the
store held at the start, or the executor has repaired the filesystem with an authorization for a
client's request, and its check has found the filesystem healthy after that. -/
theorem completed_repaired (cfg : Config) (now : DateTime) (disk : List Doc) (p : Tasks kind)
    (reach : (system (service cfg)).Reachable (State.start now disk) p) (r : Repair)
    (past : List (Event kind)) (hs : (.put (.repair r) :: past) <:+ p.state.history)
    (hr : r.status = .completed) :
    (∃ r₀, .repair r₀ ∈ disk ∧
      r = { r₀ with authorizationChallengeId := r.authorizationChallengeId }) ∨
    ∃ plan input grant outcome before plan₀ checkpoint current inspection start time,
      [.marked (.repaired plan input grant outcome), .marked (.repairing plan input grant)].Sublist
        past ∧
      (.marked (.repairing plan input grant) :: before) <:+ past ∧
      Authorized cfg disk before plan input grant plan₀ checkpoint current inspection start time ∧
      r.id = safeId cfg plan.repairId ∧
      (∃ v, r.base.verification = some v ∧ v.status = .success ∧ v.after = some outcome.after) ∧
      outcome.after.health = .healthy ∧ "repair_tool_failed" ∉ outcome.limitations ∧
      "repair_tool_reported_unresolved_errors" ∉ outcome.limitations ∧
      (plan.filesystem = .ntfs → outcome.repairTool = "none") ∧
      (plan.mount.mounted = true → outcome.remounted = some true) := by
  have hh := ((service_sound disk).always reach).suffix hs
  refine ((show Borne cfg disk past (.repair r) from hh.1) hr).imp_right ?_
  rintro ⟨v, ⟨plan, input, grant, outcome, hrepaired, hid, hverification, rfl⟩, hsuccess⟩
  obtain ⟨past', hs', hrepairing, hpast'⟩ := hh.2.exists_past hrepaired
  obtain ⟨before, hbefore, hgranted, hlawful⟩ := hpast'.exists_past hrepairing
  obtain ⟨plan₀, checkpoint, current, inspection, start, time, ha⟩ :=
    authorized_of_granted hlawful hgranted
  have hpast := hbefore.trans ((List.suffix_cons _ _).trans hs')
  exact ⟨plan, input, grant, outcome, before, plan₀, checkpoint, current, inspection, start, time,
    sublist_of_suffix (List.singleton_sublist.mpr hrepairing) hs', hpast, ha, hid,
    ⟨_, hverification, hsuccess, rfl⟩, verificationStatus_success hsuccess⟩

def Event.completes : Event kind → Bool
  | .put (.repair r) => r.status = .completed
  | _ => false

/-- The repair of the sample is completed, and the executor has found the filesystem healthy. -/
theorem completed_repaired_run : ∃ r past plan input grant outcome,
    (.put (.repair r) :: past) <:+ sampleRun.state.history ∧ r.status = .completed ∧
    .marked (.repaired plan input grant outcome) ∈ past ∧ outcome.after.health = .healthy := by
  have hany : sampleRun.state.history.any Event.completes = true := by decide +kernel
  obtain ⟨e, he, hcompletes⟩ := List.any_eq_true.mp hany
  obtain ⟨past, hs⟩ := exists_suffix_of_mem he
  cases e with
  | marked m => cases hcompletes
  | put d =>
    cases d with
    | repair r =>
      have hr : r.status = .completed := of_decide_eq_true hcompletes
      rcases completed_repaired sampleConfig 5 [] sampleRun sampleRun_reachable r past hs hr with
        ⟨r₀, hmem, -⟩ | ⟨plan, input, grant, outcome, before, plan₀, checkpoint, current, inspection,
          start, time, horder, -, -, -, -, hhealthy, -⟩
      · cases hmem
      · exact ⟨r, past, plan, input, grant, outcome, hs, hr, horder.subset List.mem_cons_self,
          hhealthy⟩
    | _ => cases hcompletes

end Ares.Filesystems.Service
