import Ares.Operations.LifecycleEngine

/-! The calls of the service, its background tasks and the workflow keep the lifecycle of a
transaction; so every run of fresh writes does. -/

namespace Ares.Operations.Lifecycle

open Coop Data Storage

variable {cfg : Config} {j : Nat} {s : State} {operationId : String}

/-! ### The execution task -/

theorem seen_stable (cfg : Config) (j : Nat) (V : Seen → Prop) (s s' : State)
    (hr : (logic cfg j).rely s s')
    (h : V (s.seen j)) : V (s'.seen j) := by
  rw [hr.1]
  exact h

section Execution

variable {handle : Nat} {input : StorageOperationExecutionInput}

theorem validateAction_keeps : (validateAction cfg j input).Keeps (logic cfg j)
    fun s => Started cfg input.operationId (s.seen j) := by
  refine (getRecord_keeps _).bind fun r => keeps_quiet _ ?_
  exact quiet_ofOption.bind fun record => quiet_require.bind fun _ =>
    quiet_require.bind fun _ => quiet_require.bind fun _ => quiet_require.bind fun _ =>
    quiet_require.bind fun _ => quiet_attempt

theorem executeAction_keeps : (executeAction cfg j input).Keeps (logic cfg j)
    fun s => Started cfg input.operationId (s.seen j) := by
  refine (keeps_quiet _ quiet_attempt).bind fun _ => ?_
  refine Proc.Keeps.bind (Proc.Keeps.handle ?_ fun e => ?_) fun _ => ?_
  · intro s hi hs
    refine (executeAuthorized_spec (fun _ _ => quiet_attempt) hi (.inr hs) _).mono ?_ ?_
    · exact fun _ _ h => ⟨h.1, h.2 hs⟩
    · exact fun _ _ h => ⟨h.1, h.2 hs⟩
  · cases e with
    | engine code =>
      exact (getRecord_keeps _).bind fun record => (keeps_quiet _ quiet_attempt).bind fun _ =>
        keeps_raise _
    | _ => exact keeps_raise _
  · exact (getRecord_keeps _).bind fun record => keeps_quiet _ (quiet_require.bind fun _ =>
      quiet_attempt)

theorem runExecution_keeps : (runExecution cfg j handle input).Keeps (logic cfg j)
    fun s => Started cfg input.operationId (s.seen j) := by
  have hsame : ∀ (acting : Option (Nat × String)) (s : State), SameRecords s (s.setActing j acting) :=
    fun _ _ => ⟨rfl, rfl, rfl, fun _ _ _ _ _ h => h⟩
  refine (keeps_same _ (hsame _)).bind fun _ => executeAction_keeps.observe.bind fun r => ?_
  refine (keeps_quiet _ quiet_state).bind fun s => (keeps_same _ (hsame _)).bind fun _ => ?_
  split
  · exact keeps_raise _
  · exact keeps_quiet _ (ended_quiet r)

theorem settleExecution_keeps (execution : Execution) :
    (settleExecution cfg j operationId execution).Keeps (logic cfg j)
      fun s => Started cfg operationId (s.seen j) := by
  rintro s hi ⟨b, hseen, hb⟩
  unfold settleExecution
  split
  · exact ⟨hi, b, hseen, hb⟩
  · rw [spec_do]
    refine (getRecord_known hi hseen).mono (fun r s1 h1 => ?_) fun _ s1 h1 => ⟨h1.1, b, h1.2, hb⟩
    obtain ⟨hi1, hs1, -, hrecord⟩ := h1
    cases r with
    | none => exact ⟨hi1, b, hs1, hb⟩
    | some record =>
      obtain ⟨-, hstored, hlater⟩ := hrecord record rfl
      dsimp only
      split
      · exact ⟨hi1, b, hs1, hb⟩
      · next hstatus =>
        refine markFailed_spec hi1 hs1 hstored (fun a h => ?_) hb _
        -- where the write lands, the status that was read is the one the task has seen
        obtain rfl := h.same.eq (by omega)
        obtain rfl := (hlater.antisymm h.later).eq (by omega)
        cases h : record.transaction.status <;> simp_all [follows, arrow, phase]

theorem afterCancellation_spec (hi : Inv cfg s)
    (hseen : s.seen j = none ∨ Started cfg operationId (s.seen j)) :
    (afterCancellation cfg j operationId).Spec (logic cfg j)
      (fun _ s' => Inv cfg s' ∧
        (Started cfg operationId (s.seen j) → Started cfg operationId (s'.seen j)))
      (fun _ s' => Inv cfg s' ∧
        (Started cfg operationId (s.seen j) → Started cfg operationId (s'.seen j))) s := by
  rw [afterCancellation, spec_do]
  refine (getRecord_spec hi operationId).mono (fun r s1 h1 => ?_)
    fun _ s1 h1 => ⟨h1.1, fun ⟨b, hb, h⟩ => ⟨b, h1.2.seen _ hb, h⟩⟩
  obtain ⟨hi1, hreads, hknows⟩ := h1
  have hkept : Inv cfg s1 ∧
      (Started cfg operationId (s.seen j) → Started cfg operationId (s1.seen j)) :=
    ⟨hi1, fun ⟨b, hb, h⟩ => ⟨b, hreads.seen _ hb, h⟩⟩
  cases r with
  | none => exact hkept
  | some record =>
    have h := hknows record rfl
    dsimp only
    split
    · next hcrossed =>
      have hphase : phase record.transaction.status = 2 ∨ phase record.transaction.status = 3 := by
        unfold crossed at hcrossed
        cases h : record.transaction.status <;> simp_all [phase]
      obtain ⟨b, hs1, hb⟩ : ∃ b, s1.seen j = some (safeId cfg operationId, b) ∧ phase b ≤ 3 := by
        rcases hseen with hs | ⟨b, hs, -⟩
        · exact ⟨_, by rw [h.seen, hs, Option.none_or], by omega⟩
        · have hle := (h.later b hs).phase_le
          exact ⟨b, hreads.seen _ hs, by omega⟩
      have hend : ∀ s', Inv cfg s' ∧ View (safeId cfg operationId) (fun c => c = b ∨ c = .unknown)
          (s'.seen j) → Inv cfg s' ∧
          (Started cfg operationId (s.seen j) → Started cfg operationId (s'.seen j)) := by
        rintro s' ⟨hi', x, hx, rfl | rfl⟩
        · refine ⟨hi', fun ⟨c, hc, h⟩ => ⟨x, hx, ?_⟩⟩
          have heq := hreads.seen _ hc
          rw [hs1, Option.some.injEq, Prod.mk.injEq] at heq
          exact heq.2 ▸ h
        · exact ⟨hi', fun _ => ⟨_, hx, by decide, by simp⟩⟩
      refine (markUnknown_spec hi1 hs1 h.stored (fun a ha hcb => ?_) _).mono
        (fun _ => hend) fun _ => hend
      -- the write lands on the view of the task, which is no earlier than what it has read
      have hle := hcb.phase_le
      obtain rfl := ha.eq (by omega)
      exact arrow_unknown (by omega) (by omega)
    · exact hkept

theorem afterException_keeps : (afterException cfg j operationId).Keeps (logic cfg j)
    fun s => Started cfg operationId (s.seen j) := by
  rintro s hi ⟨b, hseen, hb⟩
  rw [afterException, spec_do]
  refine (getRecord_known hi hseen).mono (fun r s1 h1 => ?_) fun _ s1 h1 => ⟨h1.1, b, h1.2, hb⟩
  obtain ⟨hi1, hs1, -, hrecord⟩ := h1
  cases r with
  | none => exact ⟨hi1, b, hs1, hb⟩
  | some record =>
    obtain ⟨-, hstored, hlater⟩ := hrecord record rfl
    dsimp only
    split
    · next hcrossed =>
      have hend : ∀ s', Inv cfg s' ∧ View (safeId cfg operationId) (fun c => c = b ∨ c = .unknown)
          (s'.seen j) → Inv cfg s' ∧ Started cfg operationId (s'.seen j) := by
        rintro s' ⟨hi', x, hx, rfl | rfl⟩
        · exact ⟨hi', x, hx, hb⟩
        · exact ⟨hi', _, hx, by decide, by simp⟩
      refine (markUnknown_spec hi1 hs1 hstored (fun a ha hcb => ?_) _).mono
        (fun _ => hend) fun _ => hend
      obtain rfl := ha.eq (by omega)
      obtain rfl := (hlater.antisymm hcb).eq (by omega)
      cases h : record.transaction.status <;> simp_all [crossed, arrow]
    · split
      · next hstatus =>
        refine markFailed_spec hi1 hs1 hstored (fun a h => ?_) hb _
        have hunknown := h.escaped rfl
        obtain rfl := h.same.eq (by omega)
        obtain rfl := (hlater.antisymm h.later).eq (by omega)
        cases h : record.transaction.status <;> simp_all [follows, arrow, phase]
      · exact ⟨hi1, b, hs1, hb⟩

theorem setExecutionTask_same (k : String) (handle : Option Nat) (s : State) :
    SameRecords s (s.setExecutionTask k handle) :=
  ⟨rfl, rfl, rfl, fun _ _ _ _ _ h => h⟩

theorem setAuthorizationTask_same (k : String) (handle : Option Nat) (s : State) :
    SameRecords s (s.setAuthorizationTask k handle) :=
  ⟨rfl, rfl, rfl, fun _ _ _ _ _ h => h⟩

theorem finish_same (handle : Nat) (s : State) : SameRecords s (s.finish handle) :=
  ⟨rfl, rfl, rfl, fun _ _ _ _ _ h => h⟩

theorem releaseExecution_keeps (V : Seen → Prop) :
    (releaseExecution operationId).Keeps (logic cfg j) fun s => V (s.seen j) :=
  (keeps_quiet V quiet_attempt).bind fun _ => keeps_same V (setExecutionTask_same _ _)

theorem concludeExecution_keeps (r : Except Error Unit) :
    (concludeExecution cfg j operationId r).Keeps (logic cfg j)
      fun s => Started cfg operationId (s.seen j) := by
  have hcancelled : (afterCancellation cfg j operationId).Keeps (logic cfg j)
      fun s => Started cfg operationId (s.seen j) := fun s hi hs =>
    (afterCancellation_spec hi (.inr hs)).mono (fun _ _ h => ⟨h.1, h.2 hs⟩)
      fun _ _ h => ⟨h.1, h.2 hs⟩
  cases r with
  | ok => exact keeps_ret _
  | error e =>
    cases e with
    | cancelled => exact hcancelled.bind fun _ => keeps_raise _
    | _ => exact afterException_keeps

theorem executeTask_keeps : (executeTask cfg j handle input).Keeps (logic cfg j)
    fun s => Started cfg input.operationId (s.seen j) := by
  have hbody : (capabilitiesExecute cfg j handle input).Keeps (logic cfg j)
      fun s => Started cfg input.operationId (s.seen j) := by
    have hstable := seen_stable cfg j (Started cfg input.operationId)
    exact capabilitiesExecute_keeps hstable
      (stages_keeps hstable validateAction_keeps runExecution_keeps)
  have hconclude : ∀ r, (((concludeExecution cfg j input.operationId r).andFinally
      (releaseExecution input.operationId)).andFinally (Proc.modify (State.finish handle))).Keeps
      (logic cfg j) fun s => Started cfg input.operationId (s.seen j) := fun r =>
    ((concludeExecution_keeps r).andFinally (releaseExecution_keeps _)).andFinally
      (keeps_same _ (finish_same handle))
  refine (hbody.bind fun execution => settleExecution_keeps execution).observe.bind fun r => ?_
  cases r with
  | ok => exact (hconclude _).bind fun _ => keeps_ret _
  | error e =>
    cases e with
    | detached => exact keeps_ret _
    | _ => exact (hconclude _).bind fun _ => keeps_ret _

theorem interrupt_spec (hi : Inv cfg s) (hseen : s.seen j = none) (victim handle : Nat) :
    (interrupt cfg j victim handle operationId).Spec (logic cfg j) (fun _ s' => Inv cfg s')
      (fun _ s' => Inv cfg s') s := by
  let V : Seen → Prop := fun _ => True
  have hsame : SameRecords s (s.interrupt victim) := ⟨rfl, rfl, rfl, fun _ _ _ _ _ h => h⟩
  have hi1 := hi.same hsame
  rw [interrupt, spec_do, spec_modify]
  refine ⟨⟨fun i _ => by rw [hsame.seen], hsame.onward⟩, hi1, ?_⟩
  have hcancelled : (afterCancellation cfg j operationId).Spec (logic cfg j)
      (fun _ s' => Inv cfg s' ∧ V (s'.seen j)) (fun _ s' => Inv cfg s' ∧ V (s'.seen j))
      (s.interrupt victim) :=
    (afterCancellation_spec hi1 (.inl hseen)).mono (fun _ _ h => ⟨h.1, trivial⟩)
      fun _ _ h => ⟨h.1, trivial⟩
  rw [spec_do]
  exact ((hcancelled.andFinally (releaseExecution_keeps V)).andFinally
    (keeps_same V (finish_same handle))).mono (fun _ _ h => h.1) fun _ _ h => h.1

end Execution

/-! ### The authorization task -/

theorem markAborted_spec (hi : Inv cfg s) (hseen : Unstarted cfg operationId (s.seen j))
    (code : String) :
    (markAborted cfg j operationId code).Spec (logic cfg j) (fun _ s' => Inv cfg s')
      (fun _ s' => Inv cfg s') s := by
  obtain ⟨b, hb, hle⟩ := hseen
  refine (setStatus_spec hi hb (hi.seen _ _ _ hb) _ _ _ fun a h => ?_).mono
    (fun _ _ h => h.1) fun _ _ h => h.1
  have hphase : phase a ≤ 1 := h.same.phase_eq ▸ hle
  cases a <;> simp_all [follows, arrow, phase]

theorem authorizeTask_spec (hi : Inv cfg s) (hseen : Unstarted cfg operationId (s.seen j))
    (handle : Nat) (sessionId : String) :
    (authorizeTask cfg j handle operationId sessionId).Spec (logic cfg j) (fun _ s' => Inv cfg s')
      (fun _ s' => Inv cfg s') s := by
  let V : Seen → Prop := fun _ => True
  have haborted : ∀ (code : String) (s' : State), Inv cfg s' ∧
      (Unstarted cfg operationId (s.seen j) → Unstarted cfg operationId (s'.seen j)) →
      (markAborted cfg j operationId code).Spec (logic cfg j)
        (fun _ s' => Inv cfg s' ∧ V (s'.seen j)) (fun _ s' => Inv cfg s' ∧ V (s'.seen j)) s' :=
    fun code s' h => (markAborted_spec h.1 (h.2 hseen) code).mono (fun _ _ h => ⟨h, trivial⟩)
      fun _ _ h => ⟨h, trivial⟩
  have hrelease : ∀ k : String, (Proc.bind (attempt .await) fun _ =>
      Proc.modify (State.setAuthorizationTask k none) : Task Unit).Keeps (logic cfg j)
      fun s => V (s.seen j) := fun k =>
    (keeps_quiet V quiet_attempt).bind fun _ => keeps_same V (setAuthorizationTask_same k none)
  refine ((Proc.Spec.andFinally (Proc.Spec.andFinally ?_ (hrelease operationId))
    (keeps_same V (finish_same handle)))).mono (fun _ _ h => h.1) fun _ _ h => h.1
  rw [spec_handle, spec_do]
  refine (requestAuthorization_spec hi sessionId (.inr hseen)).mono
    (fun grant s1 h1 => ⟨h1.1, trivial⟩) fun e s1 h1 => ?_
  cases e with
  | cancelled =>
    show Proc.Spec _ (Proc.bind (markAborted cfg j operationId _) _) _ _ s1
    rw [spec_bind]
    exact haborted _ s1 h1
  | engine code =>
    show Proc.Spec _ (Proc.bind (markAborted cfg j operationId _) _) _ _ s1
    rw [spec_bind]
    exact haborted _ s1 h1
  | _ => exact ⟨h1.1, trivial⟩

/-! ### The calls of the service -/

theorem recordOf_spec (hi : Inv cfg s) (hseen : s.seen j = none) (sessionId : String) :
    (recordOf cfg j operationId sessionId).Spec (logic cfg j)
      (fun record s' => Inv cfg s' ∧
        s'.seen j = some (safeId cfg operationId, record.transaction.status))
      (fun _ s' => Inv cfg s') s := by
  rw [recordOf, spec_do]
  refine (getRecord_spec hi operationId).mono (fun r s1 h1 => ?_) fun _ s1 h1 => h1.1
  obtain ⟨hi1, -, hknows⟩ := h1
  rw [spec_do, spec_ofOption]
  refine ⟨fun record hr => ?_, fun _ => hi1⟩
  rw [spec_do, spec_require]
  refine ⟨fun _ => ⟨hi1, ?_⟩, fun _ => hi1⟩
  rw [(hknows record hr).seen, hseen, Option.none_or]

theorem create_spec (hi : Inv cfg s) {r : Request} (hr : Awaited cfg s r) {s' : State}
    (hsame : SameRecords (s.create r) s') : guar j s s' ∧ Inv cfg s' := by
  have honward : Onward s (s.create r) := fun _ _ h => h
  have hi' : Inv cfg (s.create r) :=
    ⟨hi.keyed, hi.lifecycle, hi.seen, fun q hq => by
      rcases List.mem_cons.mp hq with rfl | hq
      · exact hr.onward honward
      · exact (hi.pending q hq).onward honward⟩
  refine ⟨⟨fun i _ => ?_, fun op b hb => hsame.onward op b (honward op b hb)⟩, hi'.same hsame⟩
  rw [hsame.seen]
  rfl

theorem createAuthorization_keeps (sessionId : String) :
    (createAuthorization j operationId sessionId).Keeps (logic cfg j)
      fun s => s.seen j = some (safeId cfg operationId, .protected_) := by
  intro s hi hs
  rw [createAuthorization, spec_do, spec_state]
  split
  · have hawaited : Awaited cfg s (.authorizeTask j operationId sessionId (s.seen j)) :=
      ⟨hs, hi.seen _ _ _ hs⟩
    obtain ⟨hg, hi1⟩ := create_spec (j := j) hi hawaited (setAuthorizationTask_same _ (some j) _)
    exact ⟨hg, hi1, hi1, hs⟩
  · exact ⟨hi, hs⟩

theorem authorize_spec (hi : Inv cfg s) (hseen : s.seen j = none) (sessionId : String) :
    (authorize cfg j operationId sessionId).Spec (logic cfg j) (fun _ s' => Inv cfg s')
      (fun _ s' => Inv cfg s') s := by
  let V : Seen → Prop := fun x => x = some (safeId cfg operationId, .protected_)
  rw [authorize, spec_do]
  refine (recordOf_spec hi hseen sessionId).mono (fun record s1 h1 => ?_) fun _ _ h => h
  obtain ⟨hi1, hs1⟩ := h1
  split
  · exact hi1
  · rw [spec_do, spec_require]
    refine ⟨fun hprotected => ?_, fun _ => hi1⟩
    rw [of_decide_eq_true hprotected] at hs1
    refine (keeps_quiet V quiet_attempt).spec_bind hi1 hs1 (fun _ s2 hi2 hs2 => ?_)
      fun _ s' hi' _ => hi'
    refine (createAuthorization_keeps sessionId).spec_bind hi2 hs2 (fun _ s3 hi3 hs3 => ?_)
      fun _ s' hi' _ => hi'
    refine (keeps_quiet V quiet_attempt).spec_bind hi3 hs3 (fun _ s4 hi4 hs4 => ?_)
      fun _ s' hi' _ => hi'
    rw [recordOf, spec_do, spec_do]
    refine (getRecord_spec hi4 operationId).mono (fun r s5 h5 => ?_) fun _ s5 h5 => h5.1
    rw [spec_do, spec_ofOption]
    refine ⟨fun _ _ => ?_, fun _ => h5.1⟩
    rw [spec_do, spec_require]
    exact ⟨fun _ => h5.1, fun _ => h5.1⟩

theorem serviceExecute_spec (hi : Inv cfg s) (hseen : s.seen j = none) (sessionId : String) :
    (serviceExecute cfg j operationId sessionId).Spec (logic cfg j) (fun _ s' => Inv cfg s')
      (fun _ s' => Inv cfg s') s := by
  let V : Seen → Prop := fun x => x = some (safeId cfg operationId, .authorized)
  rw [serviceExecute, spec_do]
  refine (recordOf_spec hi hseen sessionId).mono (fun record s1 h1 => ?_) fun _ _ h => h
  obtain ⟨hi1, hs1⟩ := h1
  rw [spec_do, spec_require]
  refine ⟨fun hauthorized => ?_, fun _ => hi1⟩
  rw [of_decide_eq_true hauthorized] at hs1
  rw [spec_do, spec_require]
  refine ⟨fun _ => ?_, fun _ => hi1⟩
  refine (keeps_quiet V quiet_attempt).spec_bind hi1 hs1 (fun _ s2 hi2 hs2 => ?_)
    fun _ s' hi' _ => hi'
  rw [spec_do, spec_state, spec_do,
    spec_require]
  refine ⟨fun _ => ?_, fun _ => hi2⟩
  have hawaited : Awaited cfg s2 (.executeTask j
      (executionInput operationId sessionId record.plan) (s2.seen j)) := ⟨hs2, hi2.seen _ _ _ hs2⟩
  obtain ⟨hg, hi3⟩ := create_spec (j := j) hi2 hawaited (setExecutionTask_same _ (some j) _)
  exact ⟨hg, hi3, hi3⟩

theorem asService_spec {α β : Type} {p : Task α} {f : α → Task β} (hf : ∀ a, (f a).Quiet)
    (hp : p.Spec (logic cfg j) (fun _ s' => Inv cfg s') (fun _ s' => Inv cfg s') s) :
    ((asService p).bind f).Spec (logic cfg j) (fun _ s' => Inv cfg s') (fun _ s' => Inv cfg s') s := by
  rw [spec_bind, asService, spec_handle]
  refine hp.mono (fun a s1 hi1 => ?_) fun e s1 hi1 => ?_
  · exact spec_quiet (hf a) hi1 (fun _ _ hi2 _ => hi2) fun _ _ hi2 _ => hi2
  · cases e <;> exact hi1

/-! ### Runs -/

theorem begin_spec (hi : Inv cfg s) (handle : Nat) (seen : Seen)
    (hseen : ∀ op b, seen = some (op, b) → AtLeast s op b) :
    guar j s (s.begin j handle seen) ∧ Inv cfg (s.begin j handle seen) ∧
      (s.begin j handle seen).seen j = seen := by
  have honward : Onward s (s.begin j handle seen) := fun _ _ h => h
  refine ⟨⟨fun i hij => Function.update_of_ne hij _ _, honward⟩, ⟨hi.keyed, hi.lifecycle, ?_, ?_⟩,
    Function.update_self ..⟩
  · intro i op b hb
    replace hb : Function.update s.seen j seen i = some (op, b) := hb
    by_cases hij : i = j
    · subst hij
      rw [Function.update_self] at hb
      exact honward op b (hseen op b hb)
    · rw [Function.update_of_ne hij] at hb
      exact honward op b (hi.seen i op b hb)
  · exact fun r hr => (hi.pending r (List.mem_of_mem_filter hr)).onward honward

/-- Every request keeps the invariant. -/
theorem dispatch_spec (hi : Inv cfg s) (hseen : s.seen j = none) (request : Request)
    (hadmits : (system cfg).admits s request) :
    (dispatch cfg j request).Spec (logic cfg j) (fun _ s' => Inv cfg s')
      (fun _ s' => Inv cfg s') s := by
  cases request with
  | plan request sessionId createdBy =>
    refine asService_spec (fun plan => ?_) (plan_spec hi hseen request sessionId createdBy)
    exact quiet_attempt.bind fun _ => quiet_attempt.bind fun _ =>
      quiet_attempt.bind fun _ => quiet_ret
  | validate operationId sessionId =>
    refine asService_spec (fun plan => ?_) (validate_spec hi hseen sessionId)
    exact quiet_attempt.bind fun _ => (publishCheckpoint_quiet plan).bind fun _ =>
      quiet_ret
  | authorize operationId sessionId => exact authorize_spec hi hseen sessionId
  | execute operationId sessionId => exact serviceExecute_spec hi hseen sessionId
  | reconcile operationId sessionId =>
    refine asService_spec (fun v => ?_) (reconcileUnknown_spec hi sessionId (.inl hseen))
    exact quiet_attempt.bind fun _ => quiet_ret
  | requestAuthorization operationId sessionId =>
    rw [dispatch, spec_do]
    exact (requestAuthorization_spec hi sessionId (.inl hseen)).mono (fun _ _ h => h.1)
      fun _ _ h => h.1
  | executeAuthorized operationId sessionId =>
    rw [dispatch, spec_do]
    exact (executeAuthorized_spec (fun _ _ => quiet_attempt) hi (.inl hseen) sessionId).mono
      (fun _ _ h => h.1) fun _ _ h => h.1
  | authorizeTask handle operationId sessionId seen =>
    obtain ⟨rfl, hstored⟩ := hi.pending _ hadmits
    obtain ⟨hg, hi1, hs1⟩ := begin_spec (j := j) hi handle
      (some (safeId cfg operationId, .protected_)) (by rintro op b ⟨⟩; exact hstored)
    rw [dispatch, spec_do, spec_modify]
    exact ⟨hg, hi1, authorizeTask_spec hi1 ⟨_, hs1, by decide⟩ handle sessionId⟩
  | executeTask handle input seen =>
    obtain ⟨rfl, hstored⟩ := hi.pending _ hadmits
    obtain ⟨hg, hi1, hs1⟩ := begin_spec (j := j) hi handle
      (some (safeId cfg input.operationId, .authorized)) (by rintro op b ⟨⟩; exact hstored)
    rw [dispatch, spec_do, spec_modify]
    refine ⟨hg, hi1, ?_⟩
    exact (executeTask_keeps _ hi1 ⟨_, hs1, by decide, by simp⟩).mono (fun _ _ h => h.1)
      fun _ _ h => h.1
  | interrupt victim handle operationId => exact interrupt_spec hi hseen victim handle

def contract (cfg : Config) : Contract (freshSystem cfg) where
  inv := Inv cfg
  rely := rely
  guar := guar
  fresh j s := s.seen j = none
  post _ _ _ _ := True
  postE _ _ _ _ := True
  refl := rely_refl
  trans _ _ _ _ := rely_trans
  guar_rely j k s s' hjk hg := ⟨hg.1 k hjk.symm, hg.2⟩
  fresh_rely j s s' hf hr := hr.1.trans hf
  post_rely _ _ _ _ _ _ _ := trivial
  postE_rely _ _ _ _ _ _ _ := trivial
  world s w hi _ := by
    have hsame : SameRecords s ((system cfg).world w s) := by
      cases w <;> exact ⟨rfl, rfl, rfl, fun _ _ _ _ _ h => h⟩
    exact ⟨hi.same hsame, fun k => ⟨by rw [← hsame.seen]; rfl, hsame.onward⟩⟩
  handler j request s hi hf hadmits := by
    have hsame : SameRecords s (s.receive j request) :=
      ⟨rfl, rfl, rfl, fun _ _ _ _ _ h => by simpa [State.receive] using h⟩
    have hi1 := hi.same hsame
    show Proc.Spec _ (Proc.bind (Proc.modify _) _) _ _ s
    rw [spec_bind, spec_modify]
    refine ⟨⟨fun i _ => by rw [hsame.seen], hsame.onward⟩, hi1, ?_⟩
    refine (dispatch_spec hi1 hf request ?_).mono (fun _ _ _ => trivial) fun _ _ _ => trivial
    cases request <;> exact hadmits.1

/-- Moves that call nothing but `reconcile_unknown`, with fresh writes if `strict`. -/
def reconcileMove (strict : Bool) (p : Pool State Res Error Response Request) :
    Move Res Request World → Bool
  | .start (.reconcile _ _) => true
  | .resume j answer => match p.tasks[j]? with
    | some (_, .call o _) => !strict || fresh p.state o (answer o)
    | _ => false
  | _ => false

theorem reconcileMove_legal (cfg : Config) (p : Pool State Res Error Response Request)
    (m : Move Res Request World) (h : reconcileMove true p m = true) :
    (freshSystem cfg).Legal p m := by
  cases m with
  | world => cases h
  | start request => cases request <;> first | exact ⟨trivial, trivial⟩ | cases h
  | resume j answer =>
    rw [reconcileMove] at h
    split at h
    · next t o k hj => exact ⟨t, o, k, hj, trivial, by simpa using h⟩
    · cases h

/-- One reconciliation, which finds the layout of the plan. -/
def sampleMoves : List (Move Res Request World) :=
  .start (.reconcile "operation" "session1") ::
    List.replicate 9 (.resume 0 (sampleAnswer [samplePartition]))

theorem reconcileMove_legal_system (cfg : Config) (p : Pool State Res Error Response Request)
    (m : Move Res Request World) (h : reconcileMove false p m = true) : (system cfg).Legal p m := by
  cases m with
  | world => cases h
  | start request => cases request <;> first | exact trivial | cases h
  | resume j answer =>
    rw [reconcileMove] at h
    split at h
    · next t o k hj => exact ⟨t, o, k, hj, trivial⟩
    · cases h

/-- Two reconciliations.  The first sees the layout before the write and waits; the second sees the
layout of the plan and ends; then the first writes what it made of its own observation. -/
def overlappingMoves : List (Move Res Request World) :=
  .start (.reconcile "operation" "session1") :: List.replicate 4 (.resume 0 (sampleAnswer [])) ++
    .start (.reconcile "operation" "session1") ::
      List.replicate 9 (.resume 1 (sampleAnswer [samplePartition])) ++
    List.replicate 5 (.resume 0 (sampleAnswer []))

end Ares.Operations.Lifecycle
