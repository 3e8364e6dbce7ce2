import Ares.Operations.AuthorityEngine

/-! An execution keeps the authority behind the other transactions; so every run of current writes
keeps all of it. -/

namespace Ares.Operations.Authority

open Coop Data Storage

variable {cfg : Config} {j : Nat} {s : State} {op : String} {record : StorageOperationRecord}
  {k : Nat}

/-! ### Execution -/

theorem terminal_late (status : StorageVerificationStatus) :
    early (terminalStatus status) = false := by
  cases status <;> rfl

section Execution

variable (inj : Function.Injective2 cfg.uuid4) (named : ∀ k n, cfg.uuid4 k n ≠ "invalid")
  {onStage : String → Fields → Task Unit} (quiet : ∀ n p, (onStage n p).Quiet)

include inj named

theorem recordFailure_safe (e : Error) : Safe cfg j (recordFailure cfg j op e) := by
  cases e with
  | executor code =>
    show Safe cfg j (if uncertainCodes.contains code then _ else _)
    split
    · exact markUnknown_safe inj named code
    · exact setStatus_safe inj named rfl _ _ _ _
  | _ => exact keeps_ret _

include quiet in
theorem stage_keeps (name : String) (payload : Fields) :
    (stage cfg j op onStage name payload).Keeps (logic cfg j) (Present op) :=
  (recopy_keeps inj named (f := fun t => { t with lastKnownStage := some name })
    (fun _ => rfl) (fun _ => rfl) (fun _ => rfl) fun _ => rfl).bind fun _ =>
    present_quiet op (quiet name payload)

include quiet in
theorem executionMessages_keeps (plan : StorageOperationPlan) (n : Nat) :
    (executionMessages plan (stage cfg j op onStage) n).Keeps (logic cfg j) (Present op) := by
  induction n with
  | zero => exact present_quiet op quiet_attempt
  | succ n ih =>
    refine (present_quiet op quiet_attempt).bind fun message => ?_
    refine Proc.Keeps.bind ?_ fun _ => ih
    cases message with
    | stage name payload => exact stage_keeps inj named quiet name payload
    | other => exact keeps_ret _

include quiet in
theorem executorExecute_keeps (plan : StorageOperationPlan) :
    (executorExecute j plan (stage cfg j op onStage)).Keeps (logic cfg j) (Present op) := by
  have hwrite : ∀ w, (Proc.modify (State.setWrite j w) : Task Unit).Keeps (logic cfg j)
      (Present op) := fun w => keeps_same (stable_present cfg j op) fun _ => ⟨rfl, rfl, rfl⟩
  refine (present_quiet op quiet_attempt).bind fun _ => (hwrite _).bind fun _ =>
    (present_quiet op quiet_perform).bind fun n =>
    (executionMessages_keeps inj named quiet plan n).bind fun outcome => ?_
  exact (hwrite _).bind fun _ => keeps_ret _

theorem finishExecution_safe (plan : StorageOperationPlan) (outcome : StorageOperationOutcome) :
    Safe cfg j (finishExecution cfg j op plan outcome) := by
  refine (setStatus_safe inj named rfl _ _ _ _).bind fun _ =>
    (safe_quiet quiet_reading).bind fun now => ?_
  refine (putOther_keeps stable_true fun _ => ⟨rfl, rfl, rfl⟩).bind fun _ => ?_
  refine safe_getRecord inj named (keeps_raise _) fun record k hb => ?_
  refine (present_quiet op quiet_reading).bind fun now' => ?_
  refine (putLate_keeps inj hb ?_ ?_ ?_).bind fun _ => keeps_ret _
  · rfl
  · rfl
  · exact terminal_late _

include quiet in
theorem executeWrite_spec (plan : StorageOperationPlan) (hi : Inv cfg s) (hpresent : Present op s) :
    (executeWrite cfg j op plan onStage).Spec (logic cfg j) (fun _ s' => Inv cfg s' ∧ True)
      (fun _ s' => Inv cfg s' ∧ True) s := by
  rw [executeWrite, asEngine, spec_do, spec_handle, spec_handle]
  refine (executorExecute_keeps inj named quiet plan s hi hpresent).mono
    (fun outcome s1 h1 => finishExecution_safe inj named plan outcome s1 h1.1 trivial)
    fun e s1 h1 => ?_
  rw [spec_do]
  exact (recordFailure_safe inj named e s1 h1.1 trivial).mono
    (fun _ s2 h2 => by cases e <;> exact h2) fun e' s2 h2 => by cases e' <;> exact h2

include quiet in
theorem execute_safe (grant : StorageAuthorizationGrant) (sessionId : String) :
    Safe cfg j (execute cfg j op grant sessionId onStage) := by
  intro s hi _
  rw [execute, spec_do]
  refine (getRecord_spec inj named hi op).mono (fun r s1 h1 => ?_) fun _ s1 h1 => ⟨h1.1, trivial⟩
  obtain ⟨hi1, -, hrecord⟩ := h1
  rw [spec_do, spec_ofOption]
  refine ⟨fun record hr => ?_, fun _ => ⟨hi1, trivial⟩⟩
  obtain ⟨hpresent, k, hb⟩ := hrecord record hr
  have hE : ∀ (e : Error) (s' : State), Inv cfg s' → Present op s' → Inv cfg s' ∧ True :=
    fun _ _ hi' _ => ⟨hi', trivial⟩
  refine (present_quiet op quiet_require).spec_bind hi1 hpresent (fun _ s2 hi2 hs2 => ?_) hE
  refine (present_quiet op quiet_require).spec_bind hi2 hs2 (fun _ s3 hi3 hs3 => ?_) hE
  refine (present_quiet op quiet_require).spec_bind hi3 hs3 (fun _ s4 hi4 hs4 => ?_) hE
  refine (present_quiet op quiet_reading).spec_bind hi4 hs4 (fun dev s5 hi5 hs5 => ?_) hE
  refine (present_quiet op quiet_require).spec_bind hi5 hs5 (fun _ s6 hi6 hs6 => ?_) hE
  refine (present_quiet op (requireCheckpoint_quiet _)).spec_bind hi6 hs6
    (fun _ s7 hi7 hs7 => ?_) hE
  refine (present_quiet op quiet_reading).spec_bind hi7 hs7 (fun now s8 hi8 hs8 => ?_) hE
  refine (putLate_keeps inj hb ?_ ?_ ?_).spec_bind hi8 hs8 (fun _ s9 hi9 hs9 => ?_) hE
  · rfl
  · rfl
  · rfl
  · exact executeWrite_spec inj named quiet record.plan hi9 hs9

include quiet in
theorem executeAuthorized_safe (sessionId : String) :
    Safe cfg j (executeAuthorized cfg j op sessionId onStage) := by
  refine (safe_quiet quiet_state).bind fun s => Proc.Keeps.bind ?_ fun _ =>
    (safe_quiet quiet_ofOption).bind fun grant => execute_safe inj named quiet grant sessionId
  refine keeps_modify fun s' hi' _ => ?_
  obtain ⟨hi1, hg⟩ := hi'.setGrant (j := j) op none (by intro g' h; cases h)
  exact ⟨hg, hi1, trivial⟩

end Execution

/-! ### Runs -/

section Runs

variable (inj : Function.Injective2 cfg.uuid4) (named : ∀ k n, cfg.uuid4 k n ≠ "invalid")
include inj named

theorem dispatch_spec (hi : Inv cfg s) (hunborn : Unborn cfg j s) {request : Request}
    (hcall : engineCall request = true) :
    (dispatch cfg j request).Spec (logic cfg j) (fun _ s' => Inv cfg s' ∧ True)
      (fun _ s' => Inv cfg s' ∧ True) s := by
  cases request with
  | plan request sessionId createdBy =>
    rw [dispatch, servicePlan, spec_do, asService, spec_handle]
    refine (plan_spec inj hi hunborn request sessionId createdBy).mono (fun plan s1 h1 => ?_)
      fun e s1 h1 => by cases e <;> exact h1
    refine safe_quiet ?_ s1 h1.1 trivial
    exact quiet_attempt.bind fun _ => quiet_attempt.bind fun _ =>
      quiet_attempt.bind fun _ => quiet_ret
  | validate operationId sessionId =>
    refine ((asService_keeps (validate_safe inj named sessionId)).bind fun plan =>
      safe_quiet ?_) s hi trivial
    exact quiet_attempt.bind fun _ => (publishCheckpoint_quiet plan).bind fun _ =>
      quiet_ret
  | requestAuthorization operationId sessionId =>
    exact ((requestAuthorization_safe inj named sessionId).bind fun _ => keeps_ret _)
      s hi trivial
  | executeAuthorized operationId sessionId =>
    exact ((executeAuthorized_safe inj named (fun _ _ => quiet_attempt) sessionId).bind fun _ =>
      keeps_ret _) s hi trivial
  | _ => cases hcall

def contract : Contract (currentSystem cfg) where
  inv := Inv cfg
  rely := rely cfg
  guar := guar cfg
  fresh := Unborn cfg
  post _ _ _ _ := True
  postE _ _ _ _ := True
  refl _ := rely_refl
  trans _ _ _ _ := rely_trans
  guar_rely j k s s' hjk hg :=
    ⟨hg.1, hg.2 _ fun h => hjk ((inj h).1).symm⟩
  fresh_rely j s s' hf hr := hr.2 hf
  post_rely _ _ _ _ _ _ _ := trivial
  postE_rely _ _ _ _ _ _ _ := trivial
  world s w hi _ := by
    have hsame : Same s ((system cfg).world w s) := by
      cases w <;> exact ⟨rfl, rfl, rfl⟩
    exact ⟨hi.same hsame, fun k => hsame.rely⟩
  handler j request s hi hf hadmits := by
    have hsame : Same s (s.receive j request) := ⟨rfl, rfl, rfl⟩
    show Proc.Spec _ (Proc.bind (Proc.modify _) _) _ _ s
    rw [spec_bind, spec_modify]
    refine ⟨hsame.guar, hi.same hsame, ?_⟩
    exact (dispatch_spec inj named (hi.same hsame) hf hadmits.1.2).mono (fun _ _ _ => trivial)
      fun _ _ _ => trivial

end Runs

/-- A store without documents. -/
def emptyStore (now : DateTime) (devices : Devices) : State :=
  .start now devices (fun _ => none) (fun _ => none) (fun _ => none) (fun _ => none) fun _ => none

/-- In a run of the engine whose writes are current, authority matches the stored plan in every
state. -/
theorem backed_of_current (cfg : Config) (now : DateTime) (devices : Devices)
    (inj : Function.Injective2 cfg.uuid4) (named : ∀ k n, cfg.uuid4 k n ≠ "invalid")
    (p : Pool State Res Error Response Request)
    (reach : (currentSystem cfg).Reachable (emptyStore now devices) p) :
    Backed cfg p.state := by
  have hstart : Inv cfg (emptyStore now devices) := by
    refine ⟨fun _ _ h => ?_, fun _ _ h => ?_, fun _ _ h => ?_, fun _ _ h => ?_⟩ <;> cases h
  have holds := (contract inj named).sound hstart (fun _ => rfl) reach
  exact backed_of_inv holds.inv

/-- The moves of the engine, with current writes if `strict`. -/
def engineMove (strict : Bool) (p : Pool State Res Error Response Request) :
    Move Res Request World → Bool
  | .start request => engineCall request
  | .resume j answer => match p.tasks[j]? with
    | some (_, .call o _) => grantsAsked o (answer o) && (!strict || current p.state o (answer o))
    | _ => false
  | .world _ => false

theorem admits_of_engineCall (cfg : Config) (s : State) {request : Request}
    (h : engineCall request = true) : (system cfg).admits s request := by
  cases request <;> trivial

theorem engineMove_legal (cfg : Config) (p : Pool State Res Error Response Request)
    (m : Move Res Request World) (h : engineMove true p m = true) :
    (currentSystem cfg).Legal p m := by
  cases m with
  | world => cases h
  | start request => exact ⟨⟨admits_of_engineCall cfg p.state h, h⟩, trivial⟩
  | resume j answer =>
    rw [engineMove] at h
    split at h
    · next t o k hj =>
      rw [Bool.and_eq_true] at h
      exact ⟨t, o, k, hj, ⟨trivial, h.1⟩, by simpa using h.2⟩
    · cases h

def sampleRequest : DeclarativeStorageOperationRequest where
  operation := .create
  targetDisk := "/dev/loop0"
  partitionNumber := none
  sizeBytes := some 1048576
  newSizeBytes := none
  newStartSector := none
  tableType := none
  partitionType := none
  partitionName := none
  freeRegionIndex := 0

def validatedMoves : List (Move Res Request World) :=
  .start (.plan sampleRequest "session1" "user") :: List.replicate 10 (.resume 0 (sampleAnswer [])) ++
    .start (.validate (sampleConfig.uuid4 0 1) "session1") ::
      List.replicate 20 (.resume 1 (sampleAnswer []))

/-- The validated operation is authorized. -/
def authorizedMoves : List (Move Res Request World) :=
  validatedMoves ++ .start (.requestAuthorization (sampleConfig.uuid4 0 1) "session1") ::
    List.replicate 11 (.resume 2 (sampleAnswer []))

theorem sampleConfig_injective2 : Function.Injective2 sampleConfig.uuid4 := by
  intro k k' n n' h
  have hlist : List.replicate (k + 8) 'a' ++ List.replicate n 'b' =
      List.replicate (k' + 8) 'a' ++ List.replicate n' 'b' := String.ofList_injective h
  have ha := congrArg (List.count 'a') hlist
  have hb := congrArg (List.count 'b') hlist
  simp [List.count_append, List.count_replicate] at ha hb
  exact ⟨ha, hb⟩

theorem sampleConfig_named (k n : Nat) : sampleConfig.uuid4 k n ≠ "invalid" := by
  intro h
  have hlist : List.replicate (k + 8) 'a' ++ List.replicate n 'b' = "invalid".toList := by
    rw [← h]
    exact String.toList_ofList.symm
  have hhead := congrArg List.head? hlist
  simp [List.replicate_succ] at hhead

set_option maxRecDepth 20000 in
/-- The authorized operation of the sample run and the grant for it. -/
theorem backed_of_current_run :
    (((currentSystem sampleConfig).play (System.initial (emptyStore 0 sampleDevices))
      authorizedMoves).state.status (sampleConfig.uuid4 0 1) = some .authorized ∧
    (((currentSystem sampleConfig).play (System.initial (emptyStore 0 sampleDevices))
      authorizedMoves).state.grants (sampleConfig.uuid4 0 1)).isSome = true) ∧
    Backed sampleConfig ((currentSystem sampleConfig).play
      (System.initial (emptyStore 0 sampleDevices)) authorizedMoves).state := by
  obtain ⟨hgranted, hchecked⟩ :
      (((currentSystem sampleConfig).play (System.initial (emptyStore 0 sampleDevices))
          authorizedMoves).state.status (sampleConfig.uuid4 0 1) = some .authorized ∧
        (((currentSystem sampleConfig).play (System.initial (emptyStore 0 sampleDevices))
          authorizedMoves).state.grants (sampleConfig.uuid4 0 1)).isSome = true) ∧
      (currentSystem sampleConfig).checked (engineMove true)
        (System.initial (emptyStore 0 sampleDevices)) authorizedMoves = true := by decide +kernel
  exact ⟨hgranted, backed_of_current sampleConfig 0 sampleDevices sampleConfig_injective2
    sampleConfig_named _ ⟨_, System.run_of_checked (engineMove_legal sampleConfig) hchecked⟩⟩

theorem engineMove_legal_engine (cfg : Config) (p : Pool State Res Error Response Request)
    (m : Move Res Request World) (h : engineMove false p m = true) :
    (engineSystem cfg).Legal p m := by
  cases m with
  | world => cases h
  | start request => exact ⟨admits_of_engineCall cfg p.state h, h⟩
  | resume j answer =>
    rw [engineMove] at h
    split at h
    · next t o k hj =>
      rw [Bool.and_eq_true] at h
      exact ⟨t, o, k, hj, trivial, h.1⟩
    · cases h

def rejectingAnswer : (o : Op) → Res o
  | .call (.dryRun _) => .ok ⟨sampleSha 'e' '0', sampleSha 'e' '0', sampleSha 'f' '0', 1, false, []⟩
  | o => sampleAnswer [] o

/-- The protected operation is validated again, up to the write of the new plan. -/
def revalidatedMoves : List (Move Res Request World) :=
  validatedMoves ++ .start (.validate (sampleConfig.uuid4 0 1) "session1") ::
    List.replicate 7 (.resume 2 rejectingAnswer)

/-- The operation is protected or authorized, and its stored plan cannot be executed. -/
def unready (s : State) (op : String) : Bool :=
  (s.transactions op).any fun t => backed t.status && (s.plans t.planId).all fun p => !p.executable

theorem not_backed_of_unready {s : State} {op : String} (h : unready s op = true) :
    ¬Backed cfg s := by
  intro hbacked
  obtain ⟨t, ht, hunready⟩ := (Option.any_eq_true _ _).mp h
  rw [Bool.and_eq_true] at hunready
  obtain ⟨plan, hplan, hready, -⟩ := hbacked op t ht hunready.1
  have hx := hunready.2
  rw [hplan, Option.all_some, hready.executable] at hx
  cases hx

set_option maxRecDepth 20000 in
/-- After the new plan is written and before the new status, the operation is protected and its plan
cannot be executed. -/
theorem revalidation_unbacked : ¬∀ (cfg : Config) (now : DateTime) (devices : Devices),
    Function.Injective2 cfg.uuid4 → (∀ k n, cfg.uuid4 k n ≠ "invalid") →
    ∀ p, (engineSystem cfg).Reachable (emptyStore now devices) p → Backed cfg p.state := by
  intro claim
  have hbacked := claim sampleConfig 0 sampleDevices sampleConfig_injective2 sampleConfig_named
    ((engineSystem sampleConfig).play (System.initial (emptyStore 0 sampleDevices)) revalidatedMoves)
    ⟨_, System.run_of_checked (engineMove_legal_engine sampleConfig) (by decide +kernel)⟩
  exact not_backed_of_unready (by decide +kernel : unready _ (sampleConfig.uuid4 0 1) = true) hbacked

end Ares.Operations.Authority
