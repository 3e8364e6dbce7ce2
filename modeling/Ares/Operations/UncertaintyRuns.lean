import Ares.Operations.UncertaintyEngine

/-! The workflow and the service around an execution store what is known about the write; so every
run of one execution with calm answers does. -/

namespace Ares.Operations.Uncertainty

open Coop Data Storage

variable {cfg : Config} {op : String} {j : Nat} {s s' : State} {e : Error}

/-! ### The action -/

theorem executeAuthorized_spec (sessionId : String) (hi : Inv cfg op s) (hclear : Clear j s) :
    (executeAuthorized cfg j op sessionId fun n _ => attempt (.publish n)).Spec (logic cfg op j)
      (fun _ s' => Inv cfg op s' ∧ Clear j s')
      (fun e s' => Inv cfg op s' ∧ Runs s' j ∧ Known cfg op j e s') s := by
  have hsame : Same s (s.setGrant op none) := ⟨rfl, rfl, rfl, rfl, rfl, rfl⟩
  have hi1 := hi.same hsame
  rw [executeAuthorized, spec_do, spec_state, bind_eq,
    spec_bind, spec_modify]
  refine ⟨fun i _ => hsame.rely i, hi1, ?_⟩
  rw [spec_do, spec_ofOption]
  refine ⟨fun grant _ => execute_spec grant sessionId hi1 hclear, fun _ => ?_⟩
  exact ⟨hi1, hclear.1, hclear.sure.known⟩

theorem reportFailure_spec (code : String) (hi : Inv cfg op s) (hruns : Runs s j)
    (hsure : Sure cfg op j s) :
    (Proc.bind (getRecord cfg j op) fun record =>
      Proc.bind (attempt (.publish (failureEvent record))) fun _ =>
        (Proc.raise (.action code) : Task StorageVerification)).Spec (logic cfg op j)
      (fun _ s' => Inv cfg op s' ∧ Clear j s')
      (fun e s' => Inv cfg op s' ∧ Runs s' j ∧ Known cfg op j e s') s := by
  rw [spec_bind]
  refine (getRecord_spec hi).mono (fun record s1 h1 => ?_) fun e s1 h1 =>
    ⟨h1.1, h1.2.1.runs j hruns, h1.2.2.known⟩
  obtain ⟨hi1, hr1, -⟩ := h1
  rw [spec_bind]
  refine (attempt_spec _ rfl).mono (fun _ s2 h2 => ?_) fun e s2 h2 =>
    ⟨h2.1, (hr1.trans h2.2.1).runs j hruns, h2.2.2.known⟩
  have hr2 := hr1.trans h2.2
  exact ⟨h2.1, hr2.runs j hruns, (hsure.rely hi hr2).known⟩

variable {input : StorageOperationExecutionInput}

theorem executeAction_spec (hop : input.operationId = op) (hi : Inv cfg op s) (hclear : Clear j s) :
    (executeAction cfg j input).Spec (logic cfg op j) (fun _ s' => Inv cfg op s' ∧ Clear j s')
      (fun e s' => Inv cfg op s' ∧ Runs s' j ∧ Known cfg op j e s') s := by
  subst hop
  rw [executeAction, spec_do]
  refine (clear_known (clear_quiet quiet_attempt) hi hclear).mono (fun _ s1 h1 => ?_)
    fun _ _ h => h
  rw [spec_do, spec_handle]
  refine (executeAuthorized_spec input.sessionId h1.1 h1.2).mono (fun _ s2 h2 => ?_)
    fun e s2 h2 => ?_
  · exact clear_known ((clear_getRecord _).bind fun record => clear_quiet
      (quiet_require.bind fun _ => quiet_attempt)) h2.1 h2.2
  · cases e with
    | engine code =>
      refine (reportFailure_spec code h2.1 h2.2.1 (h2.2.2.sure (by simp))).mono ?_ fun _ _ h => h
      exact fun _ s3 h3 => clear_known ((clear_getRecord _).bind fun record => clear_quiet
        (quiet_require.bind fun _ => quiet_attempt)) h3.1 h3.2
    | _ => exact h2

/-- How an exception leaves the wait for the action: the task was cancelled, or the outcome is
stored as unknown. -/
def Left (cfg : Config) (op : String) (j : Nat) (e : Error) (s : State) : Prop :=
  Doubt s j → s.acting j = none ∧ (e = .cancelled ∨ Unknown cfg op s)

theorem Inv.setActing (hi : Inv cfg op s) (acting : Option (Nat × String))
    (h : ∀ handle operationId, acting = some (handle, operationId) → operationId = op) :
    guar cfg op j s (s.setActing j acting) ∧ Inv cfg op (s.setActing j acting) := by
  refine ⟨fun i hij => ⟨⟨id, Function.update_of_ne hij _ _, rfl, fun _ h => h⟩, id, fun _ => id,
    fun _ => id⟩, hi.keyed, hi.pending, hi.unique, hi.begun, fun i handle operationId ha => ?_,
    hi.inside⟩
  change Function.update s.acting j acting i = _ at ha
  by_cases hij : i = j
  · subst hij
    rw [Function.update_self] at ha
    exact h handle operationId ha
  · rw [Function.update_of_ne hij] at ha
    exact hi.acting i handle operationId ha

theorem ended_spec {r : Except Error Unit} (hi : Inv cfg op s) (hruns : Runs s j)
    (hacting : s.acting j = none) (hok : ∀ a, r = .ok a → Clear j s)
    (herror : ∀ e, r = .error e → e = .cancelled ∨ Sure cfg op j s) :
    (ended r).Spec (logic cfg op j) (fun _ s' => Inv cfg op s' ∧ Clear j s')
      (fun e s' => Inv cfg op s' ∧ Runs s' j ∧ Left cfg op j e s') s := by
  cases r with
  | ok a => exact ⟨hi, hok a rfl⟩
  | error e =>
    by_cases he : e = .cancelled
    · subst he
      show Proc.Spec _ (Proc.bind (perform Op.stop) _) _ _ s
      rw [spec_bind, spec_perform]
      intro s1 hi1 hr1 stop ha
      have hacting1 := hr1.acting.trans hacting
      have hleft : ∀ e', (stop = .task → e' = .cancelled) → Left cfg op j e' s1 := by
        intro e' he' hd
        refine ⟨hacting1, ?_⟩
        obtain ⟨-, h⟩ := ha.2 j hd
        split at h
        · next hu => exact .inr ((hi1.inside j hd).unknown hu)
        · have hstop : stop = .task := by simpa [smooth, awaitsBroker, raised] using h
          exact .inl (he' hstop)
      cases stop <;> exact ⟨hi1, hr1.runs j hruns, hleft _ (by simp)⟩
    · have hsure := (herror e rfl).resolve_left he
      have hleft : Left cfg op j e s := fun hd => ⟨hacting, .inr (hsure hd)⟩
      cases e with
      | cancelled => exact absurd rfl he
      | _ => exact ⟨hi, hruns, hleft⟩

theorem runExecution_spec (hop : input.operationId = op)
    (handle : Nat) (hi : Inv cfg op s) (hclear : Clear j s) :
    (runExecution cfg j handle input).Spec (logic cfg op j)
      (fun _ s' => Inv cfg op s' ∧ Clear j s')
      (fun e s' => Inv cfg op s' ∧ Runs s' j ∧ Left cfg op j e s') s := by
  obtain ⟨hg, hi1⟩ := hi.setActing (j := j) (some (handle, input.operationId))
    (by rintro _ _ ⟨⟩; exact hop)
  rw [runExecution, spec_do, spec_modify]
  refine ⟨hg, hi1, ?_⟩
  rw [spec_do, spec_observe]
  have hclear1 : Clear j (s.setActing j (some (handle, input.operationId))) := hclear
  -- the end of the action, which is nobody's if the task was cancelled meanwhile
  have hend : ∀ (r : Except Error Unit) (s2 : State), Inv cfg op s2 → Runs s2 j →
      (∀ a, r = .ok a → Clear j s2) → (∀ e, r = .error e → Known cfg op j e s2) →
      (do
        let s ← Proc.state
        Proc.modify (State.setActing j none)
        if s.interrupted j then throw .detached else ended r : Task Unit).Spec (logic cfg op j)
        (fun _ s' => Inv cfg op s' ∧ Clear j s')
        (fun e s' => Inv cfg op s' ∧ Runs s' j ∧ Left cfg op j e s') s2 := by
    intro r s2 hi2 hruns2 hok herror
    obtain ⟨hg3, hi3⟩ := hi2.setActing (j := j) none (by simp)
    have hacting : (s2.setActing j none).acting j = none := Function.update_self _ _ _
    rw [spec_do, spec_state, spec_do,
      spec_modify]
    refine ⟨hg3, hi3, ?_⟩
    split
    · next hinterrupted =>
      refine ⟨hi3, hruns2, fun hd => ⟨hacting, .inr ?_⟩⟩
      cases r with
      | ok a => exact absurd hd (hok a rfl).2
      | error e =>
        rcases herror e rfl hd with h | ⟨-, -, h⟩
        · exact h
        · rw [hinterrupted] at h
          cases h
    · refine ended_spec hi3 hruns2 hacting hok fun e he => ?_
      by_cases hcancelled : e = .cancelled
      · exact .inl hcancelled
      · exact .inr ((herror e he).sure hcancelled)
  refine (executeAction_spec hop hi1 hclear1).mono (fun a s2 h2 => ?_) fun e s2 h2 => ?_
  · exact hend (.ok a) s2 h2.1 h2.2.1 (fun _ _ => h2.2) (by simp)
  · exact hend (.error e) s2 h2.1 h2.2.1 (by simp) (by rintro e' ⟨⟩; exact h2.2.2)

/-! ### The workflow -/

/-- The exceptions with which a step may end while the outcome is stored as unknown. -/
def stepEnd : Error → Bool
  | .stepFailed _ | .stopped | .detached => true
  | _ => false

def Stepped (cfg : Config) (op : String) (j : Nat) (e : Error) (s : State) : Prop :=
  Doubt s j → s.acting j = none ∧ (e = .cancelled ∨ Unknown cfg op s ∧ stepEnd e = true)

/-- Where the write is in doubt, the action is over and the outcome is stored as unknown. -/
def Settled (cfg : Config) (op : String) (j : Nat) (s : State) : Prop :=
  Doubt s j → s.acting j = none ∧ Unknown cfg op s

theorem Settled.rely (h : Settled cfg op j s) (hi : Inv cfg op s) (hr : Rely cfg op j s s') :
    Settled cfg op j s' := by
  intro hd
  obtain ⟨hacting, hunknown⟩ := h (hr.doubt hd)
  exact ⟨hr.acting.trans hacting, hr.unknown (hi.runs (hr.doubt hd)) hunknown⟩

theorem Clear.settled (h : Clear j s) : Settled cfg op j s := fun hd => absurd hd h.2

theorem settled_attempt (c : Call) (hc : awaitsBroker (.call c) = false) (hi : Inv cfg op s)
    (hruns : Runs s j) (h : Settled cfg op j s) :
    (attempt c).Spec (logic cfg op j)
      (fun _ s' => Inv cfg op s' ∧ Runs s' j ∧ Settled cfg op j s')
      (fun e s' => Inv cfg op s' ∧ Runs s' j ∧
        (Doubt s' j → s'.acting j = none ∧ e = .cancelled)) s := by
  refine (attempt_spec c hc).mono (fun _ s1 h1 => ⟨h1.1, h1.2.runs j hruns, h.rely hi h1.2⟩)
    fun e s1 h1 => ⟨h1.1, h1.2.1.runs j hruns, fun hd => ?_⟩
  have hacting := (h.rely hi h1.2.1 hd).1
  exact ⟨hacting, h1.2.2.outside hd hacting⟩

theorem failStep_spec (code : String) (hi : Inv cfg op s) (hruns : Runs s j)
    (h : Settled cfg op j s) :
    (failStep code).Spec (logic cfg op j) (fun _ s' => Inv cfg op s' ∧ Clear j s')
      (fun e s' => Inv cfg op s' ∧ Runs s' j ∧ Stepped cfg op j e s') s := by
  rw [failStep, spec_do]
  refine (settled_attempt _ rfl hi hruns h).mono (fun _ s1 h1 => ⟨h1.1, h1.2.1, fun hd => ?_⟩)
    fun e s1 h1 => ⟨h1.1, h1.2.1, fun hd => ?_⟩
  · exact ⟨(h1.2.2 hd).1, .inr ⟨(h1.2.2 hd).2, rfl⟩⟩
  · exact ⟨(h1.2.2 hd).1, .inl (h1.2.2 hd).2⟩

theorem clear_stepped {α : Type} {p : Task α} (h : p.Keeps (logic cfg op j) (Clear j))
    (hi : Inv cfg op s) (hclear : Clear j s) :
    p.Spec (logic cfg op j) (fun _ s' => Inv cfg op s' ∧ Clear j s')
      (fun e s' => Inv cfg op s' ∧ Runs s' j ∧ Stepped cfg op j e s') s :=
  (h s hi hclear).mono (fun _ _ h => h) fun _ _ h => ⟨h.1, h.2.1, fun hd => absurd hd h.2.2⟩

theorem runStep_spec {action postcheck : Task Unit} (hi : Inv cfg op s) (hclear : Clear j s)
    (haction : ∀ s, Inv cfg op s → Clear j s → action.Spec (logic cfg op j)
      (fun _ s' => Inv cfg op s' ∧ Clear j s')
      (fun e s' => Inv cfg op s' ∧ Runs s' j ∧ Left cfg op j e s') s)
    (hpostcheck : postcheck.Keeps (logic cfg op j) (Clear j)) :
    (runStep action postcheck).Spec (logic cfg op j) (fun _ s' => Inv cfg op s' ∧ Clear j s')
      (fun e s' => Inv cfg op s' ∧ Runs s' j ∧ Stepped cfg op j e s') s := by
  rw [runStep, spec_do]
  refine (clear_stepped (clear_quiet quiet_attempt) hi hclear).mono (fun _ s1 h1 => ?_)
    fun _ _ h => h
  rw [spec_do]
  refine (clear_stepped (clear_quiet quiet_attempt) h1.1 h1.2).mono (fun _ s2 h2 => ?_)
    fun _ _ h => h
  -- the action and its postcheck
  have hbody : (action.bind fun _ => postcheck).Spec (logic cfg op j)
      (fun _ s' => Inv cfg op s' ∧ Clear j s')
      (fun e s' => Inv cfg op s' ∧ Runs s' j ∧ Left cfg op j e s') s2 := by
    rw [spec_bind]
    refine (haction s2 h2.1 h2.2).mono (fun _ s3 h3 => ?_) fun _ _ h => h
    exact (hpostcheck s3 h3.1 h3.2).mono (fun _ _ h => h) fun _ _ h =>
      ⟨h.1, h.2.1, fun hd => absurd hd h.2.2⟩
  rw [spec_do, spec_observe]
  refine hbody.mono (fun _ s3 h3 => ?_) fun e s3 h3 => ?_
  · exact clear_stepped (clear_quiet quiet_attempt) h3.1 h3.2
  · obtain ⟨hi3, hruns3, hleft⟩ := h3
    have hsettled : e ≠ .cancelled → Settled cfg op j s3 := fun he hd =>
      ⟨(hleft hd).1, (hleft hd).2.resolve_left he⟩
    cases e with
    | cancelled => exact ⟨hi3, hruns3, fun hd => ⟨(hleft hd).1, .inl rfl⟩⟩
    | stopped | detached =>
      have h := hsettled (by simp)
      exact ⟨hi3, hruns3, fun hd => ⟨(h hd).1, .inr ⟨(h hd).2, rfl⟩⟩⟩
    | _ => exact failStep_spec _ hi3 hruns3 (hsettled (by simp))

theorem validateAction_clear (input : StorageOperationExecutionInput) :
    (validateAction cfg j input).Keeps (logic cfg op j) (Clear j) := by
  refine (clear_getRecord _).bind fun r => clear_quiet ?_
  exact quiet_ofOption.bind fun record => quiet_require.bind fun _ =>
    quiet_require.bind fun _ => quiet_require.bind fun _ => quiet_require.bind fun _ =>
    quiet_require.bind fun _ => quiet_attempt

theorem stages_spec (hop : input.operationId = op)
    (handle : Nat) (hi : Inv cfg op s) (hclear : Clear j s) :
    (stages cfg j handle input).Spec (logic cfg op j) (fun _ s' => Inv cfg op s' ∧ Clear j s')
      (fun e s' => Inv cfg op s' ∧ Runs s' j ∧ Stepped cfg op j e s') s := by
  have hstable := clear_stable cfg op j
  rw [stages, spec_do]
  refine (clear_stepped (clear_quiet quiet_attempt) hi hclear).mono (fun _ s1 h1 => ?_)
    fun _ _ h => h
  rw [spec_do]
  refine (clear_stepped (runStep_keeps hstable (runAction_keeps hstable (validateAction_clear input))
    (keeps_ret _)) h1.1 h1.2).mono (fun _ s2 h2 => ?_) fun _ _ h => h
  rw [spec_do]
  refine (clear_stepped (clear_quiet quiet_attempt) h2.1 h2.2).mono (fun _ s3 h3 => ?_)
    fun _ _ h => h
  rw [spec_do]
  refine (runStep_spec h3.1 h3.2 (fun s hi h => runExecution_spec hop handle hi h)
    (clear_quiet verificationPostcheck_quiet)).mono (fun _ s4 h4 => ?_) fun _ _ h => h
  refine clear_stepped ((clear_quiet quiet_attempt).bind fun _ => ?_) h4.1 h4.2
  exact runStep_keeps hstable (runAction_keeps hstable (clear_quiet projectAction_quiet))
    (keeps_ret _)

/-- How an exception leaves the workflow. -/
def Stopped (cfg : Config) (op : String) (j : Nat) (e : Error) (s : State) : Prop :=
  Doubt s j → s.acting j = none ∧ (e = .cancelled ∨ Unknown cfg op s ∧ e = .detached)

theorem settled_stopped (c : Call) (hc : awaitsBroker (.call c) = false) (hi : Inv cfg op s)
    (hruns : Runs s j) (h : Settled cfg op j s) :
    (attempt c).Spec (logic cfg op j)
      (fun _ s' => Inv cfg op s' ∧ Runs s' j ∧ Settled cfg op j s')
      (fun e s' => Inv cfg op s' ∧ Runs s' j ∧ Stopped cfg op j e s') s :=
  (settled_attempt c hc hi hruns h).mono (fun _ _ h => h) fun _ _ h1 =>
    ⟨h1.1, h1.2.1, fun hd => ⟨(h1.2.2 hd).1, .inl (h1.2.2 hd).2⟩⟩

theorem executionOf_spec {r : Except Error Unit} (hi : Inv cfg op s) (hruns : Runs s j)
    (hok : ∀ a, r = .ok a → Clear j s) (herror : ∀ e, r = .error e → Stepped cfg op j e s) :
    (executionOf r).Spec (logic cfg op j)
      (fun _ s' => Inv cfg op s' ∧ Runs s' j ∧ Settled cfg op j s')
      (fun e s' => Inv cfg op s' ∧ Runs s' j ∧ Stopped cfg op j e s') s := by
  cases r with
  | ok a =>
    refine (clear_quiet (executionOf_quiet _) s hi (hok a rfl)).mono
      (fun _ _ h => ⟨h.1, h.2.1, h.2.settled⟩) fun _ _ h => ⟨h.1, h.2.1, fun hd => absurd hd h.2.2⟩
  | error e =>
    have h := herror e rfl
    cases e with
    | stepFailed | stopped =>
      refine ⟨hi, hruns, fun hd => ⟨(h hd).1, ?_⟩⟩
      exact ((h hd).2.resolve_left (by simp)).1
    | _ =>
      refine ⟨hi, hruns, fun hd => ⟨(h hd).1, (h hd).2.imp_right fun h => ⟨h.1, ?_⟩⟩⟩
      have hend := h.2
      simp_all [stepEnd]

theorem capabilitiesExecute_spec
    (hop : input.operationId = op) (handle : Nat) (hi : Inv cfg op s) (hclear : Clear j s) :
    (capabilitiesExecute cfg j handle input).Spec (logic cfg op j)
      (fun _ s' => Inv cfg op s' ∧ Runs s' j ∧ Settled cfg op j s')
      (fun e s' => Inv cfg op s' ∧ Runs s' j ∧ Stopped cfg op j e s') s := by
  have hE : ∀ (e : Error) (s' : State), Inv cfg op s' → Clear j s' →
      Inv cfg op s' ∧ Runs s' j ∧ Stopped cfg op j e s' :=
    fun _ _ hi' h' => ⟨hi', h'.1, fun hd => absurd hd h'.2⟩
  refine (clear_quiet quiet_attempt).spec_bind hi hclear (fun _ s1 hi1 h1 => ?_) hE
  refine (clear_quiet quiet_attempt).spec_bind hi1 h1 (fun _ s2 hi2 h2 => ?_) hE
  refine (clear_quiet quiet_attempt).spec_bind hi2 h2 (fun _ s3 hi3 h3 => ?_) hE
  -- the end of the workflow and its events
  have hend : ∀ (r : Except Error Unit) (s4 : State), Inv cfg op s4 → Runs s4 j →
      (∀ a, r = .ok a → Clear j s4) → (∀ e, r = .error e → Stepped cfg op j e s4) →
      (do
        let execution ← executionOf r
        attempt (.publish execution.status.workflowEvent)
        attempt (.publish execution.status.capabilityEvent)
        checkOutput execution
        pure execution : Task Execution).Spec (logic cfg op j)
        (fun _ s' => Inv cfg op s' ∧ Runs s' j ∧ Settled cfg op j s')
        (fun e s' => Inv cfg op s' ∧ Runs s' j ∧ Stopped cfg op j e s') s4 := by
    intro r s4 hi4 hruns4 hok herror
    rw [spec_do]
    refine (executionOf_spec hi4 hruns4 hok herror).mono (fun execution s5 h5 => ?_) fun _ _ h => h
    rw [spec_do]
    refine (settled_stopped _ rfl h5.1 h5.2.1 h5.2.2).mono (fun _ s6 h6 => ?_) fun _ _ h => h
    rw [spec_do]
    refine (settled_stopped _ rfl h6.1 h6.2.1 h6.2.2).mono (fun _ s7 h7 => ?_) fun _ _ h => h
    rw [spec_do, checkOutput]
    split
    · exact settled_stopped _ rfl h7.1 h7.2.1 h7.2.2
    · exact h7
  rw [spec_do, spec_observe]
  refine (stages_spec hop handle hi3 h3).mono (fun a s4 h4 => ?_) fun e s4 h4 => ?_
  · exact hend (.ok a) s4 h4.1 h4.2.1 (fun _ _ => h4.2) (by simp)
  · exact hend (.error e) s4 h4.1 h4.2.1 (by simp) (by rintro e' ⟨⟩; exact h4.2.2)

/-! ### The service -/

theorem settleExecution_spec (execution : Execution) (hi : Inv cfg op s) (hruns : Runs s j)
    (h : Settled cfg op j s) :
    (settleExecution cfg j op execution).Spec (logic cfg op j)
      (fun _ s' => Inv cfg op s' ∧ Runs s' j ∧ Settled cfg op j s')
      (fun e s' => Inv cfg op s' ∧ Runs s' j ∧ Stopped cfg op j e s') s := by
  unfold settleExecution
  split
  · exact ⟨hi, hruns, h⟩
  · have hsure : Sure cfg op j s := fun hd => (h hd).2
    rw [spec_do]
    refine (getRecord_spec hi).mono (fun r s1 h1 => ?_) fun e s1 h1 => ?_
    · obtain ⟨hi1, hr1, -, hsome⟩ := h1
      have hruns1 := hr1.runs j hruns
      cases r with
      | none => exact ⟨hi1, hruns1, h.rely hi hr1⟩
      | some record =>
        dsimp only
        split
        · exact ⟨hi1, hruns1, h.rely hi hr1⟩
        · next hstatus =>
          -- a status other than unknown was read without doubt
          have hclear : Clear j s1 :=
            ⟨hruns1, fun hd => hstatus (.inl ((hsome record rfl).2.1 hsure hd))⟩
          exact (clear_setStatus _ _ _ _ _ _ s1 hi1 hclear).mono
            (fun _ _ h => ⟨h.1, h.2.1, h.2.settled⟩)
            fun _ _ h => ⟨h.1, h.2.1, fun hd => absurd hd h.2.2⟩
    · refine ⟨h1.1, h1.2.1.runs j hruns, fun hd => ?_⟩
      have hacting := (h.rely hi h1.2.1 hd).1
      exact ⟨hacting, .inl (h1.2.2.outside hd hacting)⟩

theorem afterCancellation_spec (hi : Inv cfg op s) (hacting : Doubt s j → s.acting j = none) :
    (afterCancellation cfg j op).Spec (logic cfg op j)
      (fun _ s' => Inv cfg op s' ∧ Onward j s s' ∧ Sure cfg op j s')
      (fun _ s' => Inv cfg op s' ∧ Onward j s s' ∧ Sure cfg op j s') s := by
  have houtside : ∀ {s'}, Onward j s s' → Doubt s' j → s'.acting j = none := fun h hd =>
    h.acting.trans (hacting (h.doubt hd))
  rw [afterCancellation, spec_do]
  refine (getRecord_spec hi).mono (fun r s1 h1 => ?_) fun e s1 h1 =>
    ⟨h1.1, h1.2.1.toOnward, h1.2.2.known.sure_outside (houtside h1.2.1.toOnward)⟩
  obtain ⟨hi1, hr1, hnone, hsome⟩ := h1
  cases r with
  | none => exact ⟨hi1, hr1.toOnward, hnone rfl⟩
  | some record =>
    obtain ⟨hread, -, hunknown⟩ := hsome record rfl
    dsimp only
    split
    · refine (markUnknown_spec hi1 _).mono
        (fun _ s2 h2 => ⟨h2.1, hr1.toOnward.trans h2.2.1, h2.2.2⟩) fun e s2 h2 => ?_
      have honward := hr1.toOnward.trans h2.2.1
      exact ⟨h2.1, honward, h2.2.2.known.sure_outside (houtside honward)⟩
    · next hcrossed =>
      refine ⟨hi1, hr1.toOnward, fun hd => ?_⟩
      rcases hread.opened hd with h | h
      · exact absurd (by simp [crossed, h]) hcrossed
      · exact hunknown h.1 hd

theorem afterException_clear : (afterException cfg j op).Keeps (logic cfg op j) (Clear j) := by
  refine (clear_getRecord op).bind fun r => ?_
  cases r with
  | none => exact keeps_ret _
  | some record =>
    dsimp only
    split
    · refine (clear_getRecord op).bind fun r => ?_
      cases r with
      | none => exact keeps_ret _
      | some record => exact clear_put _ _ _ (by simp)
    · split
      · exact clear_setStatus _ _ _ _ _ _
      · exact keeps_ret _

def Safe (cfg : Config) (op : String) (j : Nat) (s : State) : Prop :=
  ¬Doubt s j ∨ Runs s j ∧ Unknown cfg op s

theorem safe_stable (cfg : Config) (op : String) (j : Nat) (s s' : State)
    (hr : (logic cfg op j).rely s s') (h : Safe cfg op j s) : Safe cfg op j s' := by
  rcases h with h | h
  · exact .inl fun hd => h (hr.doubt hd)
  · exact .inr ⟨hr.runs j h.1, hr.unknown h.1 h.2⟩

theorem Sure.safe (h : Sure cfg op j s) (hi : Inv cfg op s) : Safe cfg op j s := by
  by_cases hd : Doubt s j
  · exact .inr ⟨hi.runs hd, h hd⟩
  · exact .inl hd

theorem setExecutionTask_same (k : String) (handle : Option Nat) (s : State) :
    Same s (s.setExecutionTask k handle) := ⟨rfl, rfl, rfl, rfl, rfl, rfl⟩

theorem finish_same (handle : Nat) (s : State) : Same s (s.finish handle) :=
  ⟨rfl, rfl, rfl, rfl, rfl, rfl⟩

theorem releaseExecution_safe (operationId : String) :
    (releaseExecution operationId).Keeps (logic cfg op j) (Safe cfg op j) :=
  (quiet_attempt.keeps (safe_stable cfg op j)).bind fun _ =>
    keeps_same (safe_stable cfg op j) (setExecutionTask_same _ _)

theorem concludeExecution_spec {r : Except Error Unit} (hi : Inv cfg op s) (hruns : Runs s j)
    (hok : ∀ a, r = .ok a → Settled cfg op j s) (herror : ∀ e, r = .error e → Stopped cfg op j e s)
    (hdetached : r ≠ .error .detached) :
    (concludeExecution cfg j op r).Spec (logic cfg op j)
      (fun _ s' => Inv cfg op s' ∧ Safe cfg op j s')
      (fun _ s' => Inv cfg op s' ∧ Safe cfg op j s') s := by
  cases r with
  | ok a => exact ⟨hi, Sure.safe (fun hd => (hok a rfl hd).2) hi⟩
  | error e =>
    have h := herror e rfl
    have hclear : e ≠ .cancelled → Clear j s := by
      refine fun he => ⟨hruns, fun hd => ?_⟩
      rcases (h hd).2 with h | h
      · exact he h
      · exact hdetached (by rw [h.2])
    cases e with
    | cancelled =>
      show Proc.Spec _ (Proc.bind (afterCancellation cfg j op) _) _ _ s
      rw [spec_bind]
      exact (afterCancellation_spec hi fun hd => (h hd).1).mono
        (fun _ _ h => ⟨h.1, h.2.2.safe h.1⟩) fun _ _ h => ⟨h.1, h.2.2.safe h.1⟩
    | detached => exact absurd rfl hdetached
    | _ =>
      exact (afterException_clear s hi (hclear (by simp))).mono (fun _ _ h => ⟨h.1, .inl h.2.2⟩)
        fun _ _ h => ⟨h.1, .inl h.2.2⟩

theorem executeTask_spec (hop : input.operationId = op)
    (handle : Nat) (hi : Inv cfg op s) (hclear : Clear j s) :
    (executeTask cfg j handle input).Spec (logic cfg op j)
      (fun _ s' => Inv cfg op s' ∧ Safe cfg op j s')
      (fun _ s' => Inv cfg op s' ∧ Safe cfg op j s') s := by
  have hconclude : ∀ (r : Except Error Unit) (s1 : State), Inv cfg op s1 → Runs s1 j →
      (∀ a, r = .ok a → Settled cfg op j s1) → (∀ e, r = .error e → Stopped cfg op j e s1) →
      r ≠ .error .detached →
      (Proc.bind (((concludeExecution cfg j input.operationId r).andFinally
        (releaseExecution input.operationId)).andFinally (Proc.modify (State.finish handle)))
        fun _ => Proc.ret Response.done).Spec (logic cfg op j)
        (fun _ s' => Inv cfg op s' ∧ Safe cfg op j s')
        (fun _ s' => Inv cfg op s' ∧ Safe cfg op j s') s1 := by
    intro r s1 hi1 hruns1 hok herror hdetached
    rw [spec_bind]
    have hend := concludeExecution_spec hi1 hruns1 hok herror hdetached
    rw [← hop] at hend ⊢
    exact ((hend.andFinally (releaseExecution_safe _)).andFinally
      (keeps_same (safe_stable cfg _ j) (finish_same handle))).mono (fun _ _ h => h) fun _ _ h => h
  have hbody : ((capabilitiesExecute cfg j handle input).bind fun execution =>
      settleExecution cfg j input.operationId execution).Spec (logic cfg op j)
      (fun _ s' => Inv cfg op s' ∧ Runs s' j ∧ Settled cfg op j s')
      (fun e s' => Inv cfg op s' ∧ Runs s' j ∧ Stopped cfg op j e s') s := by
    rw [spec_bind, hop]
    exact (capabilitiesExecute_spec hop handle hi hclear).mono
      (fun execution s1 h1 => settleExecution_spec execution h1.1 h1.2.1 h1.2.2) fun _ _ h => h
  rw [executeTask, spec_do, spec_observe]
  refine hbody.mono (fun a s1 h1 => ?_) fun e s1 h1 => ?_
  · exact hconclude (.ok a) s1 h1.1 h1.2.1 (fun _ _ => h1.2.2) (by simp) (by simp)
  · obtain ⟨hi1, hruns1, hstopped⟩ := h1
    have hstops : ∀ e', (.error e : Except Error Unit) = .error e' → Stopped cfg op j e' s1 := by
      rintro e' ⟨⟩
      exact hstopped
    cases e with
    | detached =>
      refine ⟨hi1, Sure.safe (fun hd => ?_) hi1⟩
      exact ((hstopped hd).2.resolve_left (by simp)).1
    | _ => exact hconclude _ s1 hi1 hruns1 (by simp) hstops (by simp)

theorem interrupt_spec (victim handle : Nat) (hi : Inv cfg op s) (hd : ¬Doubt s j) :
    (interrupt cfg j victim handle op).Spec (logic cfg op j)
      (fun _ s' => Inv cfg op s' ∧ Safe cfg op j s')
      (fun _ s' => Inv cfg op s' ∧ Safe cfg op j s') s := by
  have hsame : Same s (s.interrupt victim) := ⟨rfl, rfl, rfl, rfl, rfl, rfl⟩
  have hi1 := hi.same hsame
  rw [interrupt, spec_do, spec_modify]
  refine ⟨fun i _ => hsame.rely i, hi1, ?_⟩
  have hcancelled : (afterCancellation cfg j op).Spec (logic cfg op j)
      (fun _ s' => Inv cfg op s' ∧ Safe cfg op j s')
      (fun _ s' => Inv cfg op s' ∧ Safe cfg op j s') (s.interrupt victim) :=
    (afterCancellation_spec hi1 fun h => absurd h hd).mono
      (fun _ _ h => ⟨h.1, h.2.2.safe h.1⟩) fun _ _ h => ⟨h.1, h.2.2.safe h.1⟩
  rw [spec_do]
  exact ((hcancelled.andFinally (releaseExecution_safe op)).andFinally
    (keeps_same (safe_stable cfg op j) (finish_same handle))).mono (fun _ _ h => h) fun _ _ h => h

theorem serviceExecute_safe (sessionId : String) :
    (serviceExecute cfg j op sessionId).Keeps (logic cfg op j) (Safe cfg op j) := by
  have hstable := safe_stable cfg op j
  refine Proc.Keeps.bind ((getRecord_keeps hstable op).bind fun r => Proc.Quiet.keeps
    (quiet_ofOption.bind fun record => quiet_require.bind fun _ => quiet_ret)
    hstable) fun record => ?_
  refine (quiet_require.keeps hstable).bind fun _ =>
    (quiet_require.keeps hstable).bind fun _ => (quiet_attempt.keeps hstable).bind fun _ =>
    (quiet_state.keeps hstable).bind fun s => (quiet_require.keeps hstable).bind fun _ =>
    Proc.Keeps.bind ?_ fun _ => keeps_ret _
  refine keeps_modify fun s hi h => ?_
  refine ⟨fun i _ => ⟨⟨id, rfl, rfl, fun _ h => h⟩, id, fun _ => id, fun _ => id⟩,
    ⟨hi.keyed, fun r hr => ?_, hi.unique, hi.begun, hi.acting, hi.inside⟩, h⟩
  rcases List.mem_cons.mp hr with rfl | hr
  · exact ⟨j, executionInput op sessionId record.plan, s.seen j, rfl, rfl⟩
  · exact hi.pending r hr

/-! ### Runs -/

theorem Inv.receive (hi : Inv cfg op s) {request : Request} (hone : oneExecution op s request) :
    guar cfg op j s (s.receive j request) ∧ Inv cfg op (s.receive j request) := by
  have hruns : ∀ i, Runs s i → Runs (s.receive j request) i :=
    fun i ⟨handle, input, seen, h⟩ => ⟨handle, input, seen, List.mem_cons_of_mem _ h⟩
  refine ⟨fun i _ => ⟨⟨id, rfl, rfl, hruns⟩, id, fun _ => id, fun _ => id⟩, hi.keyed, hi.pending,
    fun i i' h h' => ?_, fun i h => hruns i (hi.begun i h), hi.acting, hi.inside⟩
  have hback : ∀ i, Runs (s.receive j request) i →
      Runs s i ∨ i = j ∧ ∃ handle input seen, request = .executeTask handle input seen := by
    rintro i ⟨handle, input, seen, h⟩
    rcases List.mem_cons.mp h with h | h
    · injection h with hij hrequest
      exact .inr ⟨hij, handle, input, seen, hrequest.symm⟩
    · exact .inl ⟨handle, input, seen, h⟩
  rcases hback i h with hold | ⟨hij, handle, input, seen, rfl⟩
  · rcases hback i' h' with hold' | ⟨-, handle, input, seen, rfl⟩
    · exact hi.unique i i' hold hold'
    · exact absurd hold (hone i)
  · rcases hback i' h' with hold' | ⟨hij', -⟩
    · exact absurd hold' (hone i')
    · rw [hij, hij']

theorem dispatch_spec (hi : Inv cfg op s) (hidle : s.writes j = .idle) {request : Request}
    (hadmits : (system cfg).admits s request) (hone : oneExecution op s request) :
    (dispatch cfg j request).Spec (logic cfg op j) (fun _ s' => Inv cfg op s' ∧ Safe cfg op j s')
      (fun _ s' => Inv cfg op s' ∧ Safe cfg op j s') (s.receive j request) := by
  obtain ⟨-, hi1⟩ := hi.receive (j := j) hone
  have hclear : ¬Doubt (s.receive j request) j := by
    rintro (h | h) <;> exact absurd (hidle.symm.trans h) (by simp)
  cases request with
  | execute operationId sessionId =>
    obtain ⟨rfl, -⟩ := hone
    exact serviceExecute_safe sessionId _ hi1 (.inl hclear)
  | executeTask handle input seen =>
    obtain ⟨_, _, _, heq, hop⟩ := hi.pending _ hadmits
    injection heq with _ hinput
    subst hinput
    have hruns : Runs (s.receive j (.executeTask handle input seen)) j :=
      ⟨handle, input, seen, List.mem_cons_self⟩
    rw [dispatch, spec_do, spec_modify]
    have hi2 : Inv cfg op ((s.receive j (.executeTask handle input seen)).begin j handle seen) :=
      ⟨hi1.keyed, fun r hr => hi1.pending r (List.mem_of_mem_filter hr), hi1.unique, hi1.begun,
        hi1.acting, hi1.inside⟩
    refine ⟨fun i _ => ⟨⟨id, rfl, rfl, fun _ h => h⟩, id, fun _ => id, fun _ => id⟩, hi2, ?_⟩
    exact executeTask_spec hop handle hi2 ⟨hruns, hclear⟩
  | interrupt victim handle operationId =>
    obtain rfl := hi.acting victim handle operationId hadmits.1
    exact interrupt_spec victim handle hi1 hclear
  | _ => exact hone.elim

def contract (cfg : Config) (op : String) : Contract (calmSystem cfg op) where
  inv := Inv cfg op
  rely := Rely cfg op
  guar := guar cfg op
  fresh j s := s.writes j = .idle
  post j _ _ s := Safe cfg op j s
  postE j _ _ s := Safe cfg op j s
  refl := .refl
  trans _ _ _ _ := .trans
  guar_rely j k s s' hjk hg := hg k hjk.symm
  fresh_rely j s s' hf hr := hr.idle hf
  post_rely j _ _ s s' h hr := safe_stable cfg op j s s' hr h
  postE_rely j _ _ s s' h hr := safe_stable cfg op j s s' hr h
  world s w hi hmoves := by
    cases w with
    | clock now devices =>
      have hsame : Same s ((system cfg).world (.clock now devices) s) :=
        ⟨rfl, rfl, rfl, rfl, rfl, rfl⟩
      exact ⟨hi.same hsame, fun k => hsame.rely k⟩
    | broker task w =>
      have hbefore : s.writes task = .working ∨ s.writes task = .writing := by
        change (s.writes task).next w = true at hmoves
        unfold WriteState.next at hmoves
        split at hmoves <;> simp_all
      have hruns : Runs s task := hi.runs hbefore
      show Inv cfg op (s.setWrite task w) ∧ _
      refine ⟨hi.setWrite hruns (.inl (hi.inside task hbefore)), fun k => ?_⟩
      show Rely cfg op k s (s.setWrite task w)
      by_cases hk : k = task
      · subst hk
        refine ⟨⟨fun _ => hbefore, rfl, rfl, fun _ h => h⟩, fun h => ?_, fun _ => id, fun _ => id⟩
        rcases hbefore with hb | hb <;> rw [h] at hb <;> cases hb
      · exact guar_setWrite s w k hk
  handler j request s hi hf hadmits := by
    obtain ⟨hg, hi1⟩ := hi.receive (j := j) hadmits.2
    show Proc.Spec _ (Proc.bind (Proc.modify _) _) _ _ s
    rw [spec_bind, spec_modify]
    exact ⟨hg, hi1, (dispatch_spec hi hf hadmits.1 hadmits.2).mono (fun _ _ h => h.2)
      fun _ _ h => h.2⟩

/-- A service that holds grants, on the documents of a store. -/
def holding (now : DateTime) (devices : Devices) (plans : String → Option StorageOperationPlan)
    (transactions : String → Option StorageTransaction)
    (verifications : String → Option StorageVerification)
    (artifacts : String → Option PartitionTableCheckpointArtifact)
    (checkpoints : String → Option ProtectionCheckpoint)
    (grants : String → Option StorageAuthorizationGrant) : State :=
  { State.start now devices plans transactions verifications artifacts checkpoints with grants }

/-- Once the command of the task `j` was started, and as long as no layout was compared with the
plan, the transaction is not stored as failed or aborted; where every task has ended, its outcome is
stored as unknown. -/
def Uncertain (cfg : Config) (op : String) (p : Pool State Res Error Response Request) : Prop :=
  ∀ j, p.state.writes j = .writing →
    (p.state.status (safeId cfg op) ≠ some .failed ∧
      p.state.status (safeId cfg op) ≠ some .aborted) ∧
    ((∀ task ∈ p.tasks, task.2.Ended) → Unknown cfg op p.state)

/-- Nothing fails but a call of the broker, with a code that counts as uncertainty, before the
outcome is unknown. -/
def calmAnswer (cfg : Config) (op : String) (s : State) (o : Op) (r : Res o) : Bool :=
  smooth o r || (awaitsBroker o && s.status (safeId cfg op) ≠ some .unknown &&
    match raised o r with
    | some (.executor code) => uncertainCodes.contains code
    | _ => false)

theorem calm_of_calmAnswer {o : Op} {r : Res o} (h : calmAnswer cfg op s o r = true) :
    calm cfg op s o r := by
  intro i _
  rw [calmAnswer, Bool.or_eq_true] at h
  rcases h with hsmooth | hbroker
  · have hraised : raised o r = none := by
      unfold raised
      split
      · next c e => cases c <;> cases hsmooth
      · rfl
    refine ⟨by simp [hraised], ?_⟩
    split
    · exact .inr (by simp [hraised])
    · exact .inl hsmooth
  · simp only [Bool.and_eq_true, decide_eq_true_eq] at hbroker
    obtain ⟨⟨hawaits, hstatus⟩, hcode⟩ := hbroker
    split at hcode
    · next code hraised =>
      rw [hraised]
      refine ⟨fun code' h => ?_, ?_⟩
      · cases h
        exact List.contains_iff_mem.mp hcode
      · rw [if_neg hstatus]
        exact .inr (.inl ⟨hawaits, code, rfl⟩)
    · cases hcode

/-- The moves of one execution, with calm answers if `strict`. -/
def executionMove (cfg : Config) (op : String) (strict : Bool)
    (p : Pool State Res Error Response Request) : Move Res Request World → Bool
  | .start (.execute operationId _) => operationId = op && p.state.history.isEmpty
  | .start (.executeTask handle input seen) =>
    (match p.state.pending with
      | .executeTask handle' input' seen' :: _ =>
        handle' = handle && input' = input && seen' = seen
      | _ => false) &&
    p.state.history.all fun
      | .received _ (.executeTask _ _ _) => false
      | _ => true
  | .resume j answer => match p.tasks[j]? with
    | some (_, .call o _) => !strict || calmAnswer cfg op p.state o (answer o)
    | _ => false
  | .world (.broker task w) => (p.state.writes task).next w
  | _ => false

theorem executionMove_legal (strict : Bool) (ok : State → (o : Op) → Res o → Prop)
    (hok : ∀ s o r, (!strict || calmAnswer cfg op s o r) = true → ok s o r)
    (p : Pool State Res Error Response Request) (m : Move Res Request World)
    (h : executionMove cfg op strict p m = true) :
    ((system cfg).restrict (oneExecution op) ok).Legal p m := by
  cases m with
  | world w =>
    cases w with
    | clock => cases h
    | broker task w => exact h
  | resume j answer =>
    rw [executionMove] at h
    split at h
    · next t o k hj => exact ⟨t, o, k, hj, trivial, hok _ _ _ h⟩
    · cases h
  | start request =>
    cases request with
    | execute operationId sessionId =>
      simp only [executionMove, Bool.and_eq_true, decide_eq_true_eq, List.isEmpty_iff] at h
      exact ⟨trivial, h⟩
    | executeTask handle input seen =>
      rw [executionMove, Bool.and_eq_true] at h
      obtain ⟨hpending, hhistory⟩ := h
      refine ⟨?_, fun j ⟨_, _, _, hj⟩ => ?_⟩
      · show Request.executeTask handle input seen ∈ p.state.pending
        split at hpending
        · next handle' input' seen' rest heq =>
          simp only [Bool.and_eq_true, decide_eq_true_eq] at hpending
          obtain ⟨⟨rfl, rfl⟩, rfl⟩ := hpending
          rw [heq]
          exact List.mem_cons_self
        · cases hpending
      · have := List.all_eq_true.mp hhistory _ hj
        cases this
    | _ => cases h

def sampleGrant : StorageAuthorizationGrant where
  id := "grant"
  challengeId := "challenge"
  operationId := "operation"
  planId := "plan-one"
  sessionId := "session1"
  targetFingerprintSha256 := sampleIdentity.fingerprintSha256
  planFingerprintSha256 := (samplePlan sampleIdentity).fingerprintSha256
  operatorUid := some 1000
  expiresAt := minutes 2

/-- The sample operation is authorized, and its grant is held. -/
def authorizedState : State :=
  { sampleState .authorized with
    grants := fun id => if id = "operation" then some sampleGrant else none }

/-- The answers of the samples, with an error of the broker in place of the outcome. -/
def brokenAnswer (code : String) : (o : Op) → Res o
  | .call (.outcome _) => .error (.executor code)
  | o => sampleAnswer [] o

/-- The operation is executed, the broker starts the command and then reports `code`. -/
def brokenMoves (code : String) (rest : Nat) : List (Move Res Request World) :=
  .start (.execute "operation" "session1") :: List.replicate 4 (.resume 0 (sampleAnswer [])) ++
    .start (.executeTask 0 (executionInput "operation" "session1" (samplePlan sampleIdentity))
      (some ("operation", .authorized))) :: List.replicate 25 (.resume 1 (sampleAnswer [])) ++
    .world (.broker 1 .writing) :: List.replicate rest (.resume 1 (brokenAnswer code))

end Ares.Operations.Uncertainty
