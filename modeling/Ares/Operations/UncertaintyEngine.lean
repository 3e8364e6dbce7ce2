import Ares.Operations.Uncertainty

/-! The execution of a transaction, from the request to the broker to the end of its action, stores
what it knows about the write. -/

namespace Ares.Operations.Uncertainty

open Coop Data Storage

variable {cfg : Config} {op : String} {j : Nat} {s s' : State}

/-! ### Without doubt -/

def Clear (j : Nat) (s : State) : Prop := Runs s j ∧ ¬Doubt s j

theorem clear_stable (cfg : Config) (op : String) (j : Nat) (s s' : State)
    (hr : (logic cfg op j).rely s s') (h : Clear j s) : Clear j s' :=
  ⟨hr.runs j h.1, fun hd => h.2 (hr.doubt hd)⟩

theorem Clear.sure (h : Clear j s) : Sure cfg op j s := fun hd => absurd hd h.2

theorem clear_quiet {α : Type} {p : Task α} (quiet : p.Quiet) :
    p.Keeps (logic cfg op j) (Clear j) :=
  quiet.keeps (clear_stable cfg op j)

section Stable

variable {P : State → Prop} (stable : ∀ s s', (logic cfg op j).rely s s' → P s → P s')
include stable

theorem keeps_same {g : State → State} (same : ∀ s, Same s (g s)) :
    (Proc.modify g : Task Unit).Keeps (logic cfg op j) P := by
  refine keeps_modify fun s hi h => ⟨fun i _ => (same s).rely i, hi.same (same s), ?_⟩
  exact stable s (g s) ((same s).rely j) h

theorem getRecord_keeps (operationId : String) :
    (getRecord cfg j operationId).Keeps (logic cfg op j) P := by
  refine Proc.Keeps.bind (((get_quiet _).keeps stable).bind fun t => ?_) fun t => ?_
  · cases t with
    | none => exact keeps_ret _
    | some t => exact (keeps_same stable (same_see j t)).bind fun _ => keeps_ret _
  · cases t with
    | none => exact keeps_ret _
    | some t =>
      refine Proc.Quiet.keeps ((get_quiet _).bind fun plan => ?_) stable
      cases plan with
      | none => exact quiet_ret
      | some plan => exact (get_quiet _).bind fun _ => quiet_ret

end Stable

theorem clear_put (w : Writer) (d : Document) (base : Option StorageOperationRecord)
    (hd : ∀ p, d ≠ .plan p) : (put j w d base).Keeps (logic cfg op j) (Clear j) := by
  refine (clear_quiet quiet_attempt).bind fun _ =>
    (clear_quiet quiet_perform).bind fun written => ?_
  refine Proc.Keeps.bind ?_ fun _ => (clear_quiet quiet_attempt).bind fun _ =>
    clear_quiet quiet_require
  cases written with
  | false => exact keeps_ret _
  | true =>
    cases d with
    | plan p => exact absurd rfl (hd p)
    | transaction t =>
      refine keeps_modify fun s hi h => ⟨hi.guar_store h.1 w t, hi.store w fun i hdoubt => ?_,
        (onward_store w t j).runs j h.1, h.2⟩
      rw [hi.unique i j (hi.runs hdoubt) h.1] at hdoubt
      exact absurd hdoubt h.2
    | _ => exact keeps_same (clear_stable cfg op j) fun _ => ⟨rfl, rfl, rfl, rfl, rfl, rfl⟩

theorem clear_getRecord (operationId : String) :
    (getRecord cfg j operationId).Keeps (logic cfg op j) (Clear j) :=
  getRecord_keeps (clear_stable cfg op j) operationId

theorem clear_setStatus (w : Writer) (operationId : String) (status : StorageTransactionStatus)
    (errorCode lastKnownStage : Option String) (finished : Bool) :
    (setStatus cfg j w operationId status errorCode lastKnownStage finished).Keeps
      (logic cfg op j) (Clear j) := by
  refine (clear_getRecord operationId).bind fun r => ?_
  cases r with
  | none => exact keeps_ret _
  | some record =>
    exact (clear_quiet quiet_reading).bind fun _ => clear_put _ _ _ (by simp)

theorem clear_finishExecution (plan : StorageOperationPlan) (outcome : StorageOperationOutcome) :
    (finishExecution cfg j op plan outcome).Keeps (logic cfg op j) (Clear j) := by
  refine (clear_setStatus _ _ _ _ _ _).bind fun _ => (clear_quiet quiet_reading).bind fun _ =>
    (clear_put _ _ _ (by simp)).bind fun _ => (clear_getRecord op).bind fun r => ?_
  exact (clear_quiet quiet_ofOption).bind fun record =>
    (clear_quiet quiet_reading).bind fun _ => (clear_put _ _ _ (by simp)).bind fun _ =>
    keeps_ret _

/-! ### In doubt -/

def Acts (cfg : Config) (op : String) (j : Nat) {α : Type} (p : Task α) : Prop :=
  ∀ s, Inv cfg op s → Runs s j →
    p.Spec (logic cfg op j) (fun _ s' => Inv cfg op s' ∧ Onward j s s')
      (fun e s' => Inv cfg op s' ∧ Onward j s s' ∧ Fell cfg op j e s') s

theorem Acts.bind {α β : Type} {p : Task α} {f : α → Task β} (hp : Acts cfg op j p)
    (hf : ∀ a, Acts cfg op j (f a)) : Acts cfg op j (p.bind f) := by
  intro s hi hruns
  rw [spec_bind]
  refine (hp s hi hruns).mono (fun a s1 h1 => ?_) fun _ _ h => h
  exact (hf a s1 h1.1 (h1.2.runs j hruns)).mono (fun _ s2 h2 => ⟨h2.1, h1.2.trans h2.2⟩)
    fun e s2 h2 => ⟨h2.1, h1.2.trans h2.2.1, h2.2.2⟩

theorem acts_ret {α : Type} (a : α) : Acts cfg op j (Proc.ret a : Task α) :=
  fun s hi _ => ⟨hi, .refl j s⟩

theorem acts_attempt (c : Call) (hc : awaitsBroker (.call c) = false) :
    Acts cfg op j (attempt c) := fun _ _ _ =>
  (attempt_spec c hc).mono (fun _ _ h => ⟨h.1, h.2.toOnward⟩)
    fun _ _ h => ⟨h.1, h.2.1.toOnward, h.2.2.toFell⟩

theorem restage_acts (name : String) : Acts cfg op j (restage cfg j op name) := by
  intro s hi hruns
  rw [restage, spec_do]
  refine (getRecord_spec hi).mono (fun r s1 h1 => ?_)
    fun _ _ h => ⟨h.1, h.2.1.toOnward, h.2.2.toFell⟩
  obtain ⟨hi1, hr1, -, hsome⟩ := h1
  cases r with
  | none => exact ⟨hi1, hr1.toOnward⟩
  | some record =>
    obtain ⟨hread, -⟩ := hsome record rfl
    refine (putOpen_spec (hr1.runs j hruns) _ _ ?_ ?_ ?_).mono
      (fun _ s2 h2 => ⟨h2.1, hr1.toOnward.trans h2.2.1⟩)
      fun _ s2 h2 => ⟨h2.1, hr1.toOnward.trans h2.2.1, h2.2.2⟩
    · exact hread.key
    · exact hread.plan
    · exact hread.opened

theorem stage_acts (name : String) (payload : Fields) :
    Acts cfg op j (stage cfg j op (fun n _ => attempt (.publish n)) name payload) :=
  (restage_acts name).bind fun _ => acts_attempt _ rfl

/-- How an exception of the executor leaves a write that is in doubt. -/
structure Broke (cfg : Config) (op : String) (j : Nat) (e : Error) (s : State) : Prop where
  known : Doubt s j → Unknown cfg op s ∨
    (e = .cancelled ∧ s.acting j ≠ none ∧ s.interrupted j = false) ∨ ∃ code, e = .executor code
  codes : Doubt s j → ∀ code, e = .executor code → code ∈ uncertainCodes

theorem Fell.broke {e : Error} (h : Fell cfg op j e s) : Broke cfg op j e s where
  known hd := (h.known hd).imp_right .inl
  codes := h.codes

theorem broke_of_calm {e : Error} {c : Call} (hi : Inv cfg op s)
    (ha : calm cfg op s (.call c) (.error e)) : Broke cfg op j e s := by
  have hrough : smooth (.call c) (.error e) = false := by cases c <;> rfl
  refine ⟨fun hd => ?_, fun hd code he => (ha j hd).1 code (by rw [he]; rfl)⟩
  obtain ⟨-, h⟩ := ha j hd
  split at h
  · next hu => exact .inl ((hi.inside j hd).unknown hu)
  · right
    rcases h with h | ⟨-, code, h⟩ | ⟨h, hacting⟩
    · rw [hrough] at h
      cases h
    · exact .inr ⟨code, Option.some.inj h⟩
    · exact .inl ⟨Option.some.inj h, hacting⟩

theorem executionMessages_spec (plan : StorageOperationPlan) (n : Nat) (hi : Inv cfg op s)
    (hruns : Runs s j) :
    (executionMessages plan (stage cfg j op fun n _ => attempt (.publish n)) n).Spec (logic cfg op j)
      (fun _ s' => Inv cfg op s' ∧ Onward j s s')
      (fun e s' => Inv cfg op s' ∧ Onward j s s' ∧ Broke cfg op j e s') s := by
  induction n generalizing s with
  | zero =>
    intro s1 hi1 hr1 r ha
    cases r with
    | ok => exact ⟨hi1, hr1.toOnward⟩
    | error e => exact ⟨hi1, hr1.toOnward, broke_of_calm hi1 ha.2⟩
  | succ n ih =>
    intro s1 hi1 hr1 r ha
    cases r with
    | error e => exact ⟨hi1, hr1.toOnward, broke_of_calm hi1 ha.2⟩
    | ok message =>
      have honMessage : Acts cfg op j
          (onMessage (stage cfg j op fun n _ => attempt (.publish n)) message) := by
        cases message with
        | stage name payload => exact stage_acts name payload
        | other => exact acts_ret ()
      show Proc.Spec _ (Proc.bind (onMessage _ message) _) _ _ _
      rw [spec_bind]
      have hruns1 := hr1.runs j hruns
      refine (honMessage s1 hi1 hruns1).mono (fun _ s2 h2 => ?_)
        fun e s2 h2 => ⟨h2.1, hr1.toOnward.trans h2.2.1, h2.2.2.broke⟩
      have honward := hr1.toOnward.trans h2.2
      exact (ih h2.1 (h2.2.runs j hruns1)).mono (fun _ s3 h3 => ⟨h3.1, honward.trans h3.2⟩)
        fun e s3 h3 => ⟨h3.1, honward.trans h3.2.1, h3.2.2⟩

theorem markUnknown_spec (hi : Inv cfg op s) (code : String) :
    (markUnknown cfg j op code).Spec (logic cfg op j)
      (fun _ s' => Inv cfg op s' ∧ Onward j s s' ∧ Sure cfg op j s')
      (fun e s' => Inv cfg op s' ∧ Onward j s s' ∧ Fell cfg op j e s') s := by
  rw [markUnknown, spec_do]
  refine (getRecord_spec hi).mono (fun r s1 h1 => ?_)
    fun _ _ h => ⟨h.1, h.2.1.toOnward, h.2.2.toFell⟩
  obtain ⟨hi1, hr1, hnone, hsome⟩ := h1
  cases r with
  | none => exact ⟨hi1, hr1.toOnward, hnone rfl⟩
  | some record =>
    obtain ⟨hread, -⟩ := hsome record rfl
    dsimp only
    refine (putTransaction_spec _ _ fun s2 hi2 hr2 => ?_).mono (fun _ s3 h3 => ?_)
      fun _ s3 h3 => ⟨h3.1, hr1.toOnward.trans h3.2.1, h3.2.2⟩
    · exact hi2.storeUnknown _ hread.key (hread.onward hr2.toOnward).plan rfl rfl
    · obtain ⟨hi3, honward, s2, hr2, hi2, hr3⟩ := h3
      refine ⟨hi3, hr1.toOnward.trans honward, fun hd => ?_⟩
      exact hr3.unknown (hi2.runs (hr3.doubt hd)) (unknown_store _ hread.key rfl rfl)

theorem recordFailure_spec {e : Error} (hi : Inv cfg op s) (hruns : Runs s j)
    (he : Broke cfg op j e s) :
    (recordFailure cfg j op e).Spec (logic cfg op j)
      (fun _ s' => Inv cfg op s' ∧ Runs s' j ∧ Known cfg op j e s')
      (fun e' s' => Inv cfg op s' ∧ Runs s' j ∧ Known cfg op j e' s') s := by
  have hother : (∀ code, e ≠ .executor code) → Known cfg op j e s := by
    intro hne hd
    rcases he.known hd with h | h | ⟨code, h⟩
    · exact .inl h
    · exact .inr h
    · exact absurd h (hne code)
  cases e with
  | executor code =>
    rw [recordFailure]
    split
    · exact (markUnknown_spec hi code).mono (fun _ s1 h => ⟨h.1, h.2.1.runs j hruns, h.2.2.known⟩)
        fun _ s1 h => ⟨h.1, h.2.1.runs j hruns, h.2.2.known⟩
    · next hcode =>
      have hclear : Clear j s :=
        ⟨hruns, fun hd => hcode (List.contains_iff_mem.mpr (he.codes hd code rfl))⟩
      exact (clear_setStatus _ _ _ _ _ _ s hi hclear).mono
        (fun _ s1 h => ⟨h.1, h.2.1, h.2.sure.known⟩) fun _ s1 h => ⟨h.1, h.2.1, h.2.sure.known⟩
  | _ => exact ⟨hi, hruns, hother (by simp)⟩

theorem guar_setWrite (s : State) (w : WriteState) : guar cfg op j s (s.setWrite j w) := by
  intro i hij
  refine ⟨⟨(doubt_setWrite_of_ne hij w).mp, rfl, rfl, fun _ h => h⟩, fun h => ?_, fun _ => id,
    fun _ => id⟩
  rw [writes_setWrite_of_ne hij, h]

theorem Inv.setWrite (hi : Inv cfg op s) (hruns : Runs s j) {w : WriteState}
    (h : Inside cfg op s ∨ w = .compared) : Inv cfg op (s.setWrite j w) := by
  refine ⟨hi.keyed, hi.pending, hi.unique, fun i hne => ?_, hi.acting, fun i hd => ?_⟩
  · by_cases hij : i = j
    · exact hij ▸ hruns
    · rw [writes_setWrite_of_ne hij] at hne
      exact hi.begun i hne
  · by_cases hij : i = j
    · rw [hij, doubt_setWrite_self] at hd
      rcases h with h | rfl
      · exact h
      · simp at hd
    · exact hi.inside i ((doubt_setWrite_of_ne hij w).mp hd)

theorem executorExecute_spec (plan : StorageOperationPlan) (hclear : Clear j s)
    (hinside : Inside cfg op s) :
    (executorExecute j plan (stage cfg j op fun n _ => attempt (.publish n))).Spec (logic cfg op j)
      (fun _ s' => Inv cfg op s' ∧ Clear j s')
      (fun e s' => Inv cfg op s' ∧ Runs s' j ∧ Broke cfg op j e s') s := by
  rw [executorExecute, spec_do]
  refine (attempt_spec .connect rfl).mono (fun _ s1 h1 => ?_) fun e s1 h1 =>
    ⟨h1.1, h1.2.1.runs j hclear.1, h1.2.2.toFell.broke⟩
  obtain ⟨hi1, hr1⟩ := h1
  have hruns1 := hr1.runs j hclear.1
  have hi2 := hi1.setWrite (w := .working) hruns1 (.inl (hr1.inside hclear.1 hinside))
  rw [spec_do, spec_modify]
  refine ⟨guar_setWrite s1 _, hi2, ?_⟩
  rw [spec_do, spec_perform]
  intro s3 hi3 hr3 n _
  have hruns3 : Runs s3 j := hr3.runs j hruns1
  rw [spec_do]
  refine (executionMessages_spec plan n hi3 hruns3).mono (fun outcome s4 h4 => ?_)
    fun e s4 h4 => ⟨h4.1, h4.2.1.runs j hruns3, h4.2.2⟩
  have hruns4 := h4.2.runs j hruns3
  have hi5 := h4.1.setWrite hruns4 (.inr rfl)
  rw [spec_do, spec_modify]
  refine ⟨guar_setWrite s4 _, hi5, hi5, hruns4, fun hd => ?_⟩
  simp [doubt_setWrite_self] at hd

theorem asEngine_known {α : Type} {p : Task α} {Q : α → State → Prop}
    (h : p.Spec (logic cfg op j) Q
      (fun e s' => Inv cfg op s' ∧ Runs s' j ∧ Known cfg op j e s') s) :
    (asEngine p).Spec (logic cfg op j) Q
      (fun e s' => Inv cfg op s' ∧ Runs s' j ∧ Known cfg op j e s') s := by
  rw [asEngine, spec_handle]
  refine h.mono (fun _ _ h => h) fun e s1 h1 => ?_
  cases e with
  | executor code => exact ⟨h1.1, h1.2.1, (h1.2.2.sure (by simp)).known⟩
  | _ => exact h1

theorem clear_known {α : Type} {p : Task α} (h : p.Keeps (logic cfg op j) (Clear j)) (hi : Inv cfg op s)
    (hclear : Clear j s) : p.Spec (logic cfg op j) (fun _ s' => Inv cfg op s' ∧ Clear j s')
      (fun e s' => Inv cfg op s' ∧ Runs s' j ∧ Known cfg op j e s') s :=
  (h s hi hclear).mono (fun _ _ h => h) fun _ _ h => ⟨h.1, h.2.1, h.2.sure.known⟩

theorem executeWrite_spec (plan : StorageOperationPlan) (hclear : Clear j s)
    (hinside : Inside cfg op s) :
    (executeWrite cfg j op plan fun n _ => attempt (.publish n)).Spec (logic cfg op j)
      (fun _ s' => Inv cfg op s' ∧ Clear j s')
      (fun e s' => Inv cfg op s' ∧ Runs s' j ∧ Known cfg op j e s') s := by
  rw [executeWrite, spec_do]
  refine (asEngine_known (Q := fun _ s' => Inv cfg op s' ∧ Clear j s') ?_).mono
    (fun outcome s1 h1 => clear_known (clear_finishExecution plan outcome) h1.1 h1.2)
    fun _ _ h => h
  rw [spec_handle]
  refine (executorExecute_spec plan hclear hinside).mono (fun _ _ h => h) fun e s1 h1 => ?_
  rw [spec_do]
  exact recordFailure_spec h1.1 h1.2.1 h1.2.2

theorem execute_spec (grant : StorageAuthorizationGrant) (sessionId : String) (hi : Inv cfg op s)
    (hclear : Clear j s) :
    (execute cfg j op grant sessionId fun n _ => attempt (.publish n)).Spec (logic cfg op j)
      (fun _ s' => Inv cfg op s' ∧ Clear j s')
      (fun e s' => Inv cfg op s' ∧ Runs s' j ∧ Known cfg op j e s') s := by
  have hE : ∀ (e : Error) (s' : State), Inv cfg op s' → Clear j s' →
      Inv cfg op s' ∧ Runs s' j ∧ Known cfg op j e s' :=
    fun _ _ hi' h' => ⟨hi', h'.1, h'.sure.known⟩
  rw [execute, spec_do]
  refine (getRecord_spec hi).mono (fun r s1 h1 => ?_) fun e s1 h1 =>
    hE e s1 h1.1 (clear_stable cfg op j s s1 h1.2.1 hclear)
  obtain ⟨hi1, hr1, -, hsome⟩ := h1
  have hclear1 := clear_stable cfg op j s s1 hr1 hclear
  rw [spec_do, spec_ofOption]
  refine ⟨fun record hrecord => ?_, fun _ => hE _ _ hi1 hclear1⟩
  obtain ⟨hread, -⟩ := hsome record hrecord
  -- the checks write nothing, so that the record that was read keeps its plan
  have hstable : ∀ s s', (logic cfg op j).rely s s' → Clear j s ∧ Read cfg op j record s →
      Clear j s' ∧ Read cfg op j record s' := fun s s' hr h =>
    ⟨clear_stable cfg op j s s' hr h.1, h.2.onward hr.toOnward⟩
  have hE' : ∀ (e : Error) (s' : State), Inv cfg op s' → Clear j s' ∧ Read cfg op j record s' →
      Inv cfg op s' ∧ Runs s' j ∧ Known cfg op j e s' := fun e s' hi' h' => hE e s' hi' h'.1
  refine (quiet_require.keeps hstable).spec_bind hi1 ⟨hclear1, hread⟩
    (fun _ s2 hi2 h2 => ?_) hE'
  refine (quiet_require.keeps hstable).spec_bind hi2 h2 (fun _ s3 hi3 h3 => ?_) hE'
  refine (quiet_require.keeps hstable).spec_bind hi3 h3 (fun _ s4 hi4 h4 => ?_) hE'
  refine (quiet_reading.keeps hstable).spec_bind hi4 h4 (fun dev s5 hi5 h5 => ?_) hE'
  refine (quiet_require.keeps hstable).spec_bind hi5 h5 (fun _ s6 hi6 h6 => ?_) hE'
  refine ((requireCheckpoint_quiet _).keeps hstable).spec_bind hi6 h6 (fun _ s7 hi7 h7 => ?_) hE'
  refine (quiet_reading.keeps hstable).spec_bind hi7 h7 (fun now s8 hi8 h8 => ?_) hE'
  obtain ⟨hclear8, hread8⟩ := h8
  rw [spec_do]
  refine (putOpen_spec hclear8.1 _ _ ?_ ?_ fun _ => .inl rfl).mono (fun _ s9 h9 => ?_)
    fun e s9 h9 => ⟨h9.1, h9.2.1.runs j hclear8.1, h9.2.2.known⟩
  · exact hread8.key
  · exact hread8.plan
  · exact executeWrite_spec record.plan
      ⟨h9.2.1.runs j hclear8.1, fun hd => hclear8.2 (h9.2.1.doubt hd)⟩ (h9.2.2 (.inl rfl))

end Ares.Operations.Uncertainty
