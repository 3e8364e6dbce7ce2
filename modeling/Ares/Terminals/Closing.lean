import Ares.Coop.Ending
import Ares.Terminals.Visible

/-! Closing a terminal of an installed system that the broker does not know.  The broker refuses to
close a session that is not in its table, with the code that it has for every such request, and the
service takes any refusal for a cleanup that is still to be done.  So the stored session ends in a state
that does not block an exit exactly when it was stored as closed before. -/

namespace Ares.Terminals.Closing

open Coop Data
open TerminalBroker (Response)

def inSequence (s : State) : Request → Prop
  | .serve _ => True
  | _ => s.working = []

/-- Calls and restarts of the broker, one after the other.  The broker may still be at work on what an
earlier call has asked for. -/
def sequence (cfg : Config) : System State Res Error Outcome Request World where
  handler := (system cfg).handler
  admits s t := (system cfg).admits s t ∧ inSequence s t
  answers := (system cfg).answers
  moves s
    | .restart => s.working = []
    | .outside _ _ => True
  world := (system cfg).world

def Known (s : State) (sid : String) : Prop := TerminalBroker.Known s.broker sid

instance (s : State) (sid : String) : Decidable (Known s sid) :=
  inferInstanceAs (Decidable (_ = true))

/-- Nothing is behind the session: no entry of the broker, no directory and no mount. -/
structure Nothing (cfg : Config) (s : State) (sid : String) : Prop where
  unknown : ¬Known s sid
  directory : s.broker.machine.directories (TerminalBroker.sessionDirOf cfg.broker sid) = false
  mounted : s.broker.machine.mounted (TerminalBroker.sessionDirOf cfg.broker sid ++ ["root"]) = false

/-- The session is one of an installed system. -/
def Installed (s : State) (sid : String) : Prop :=
  ∀ session plan, s.sessions sid = some session → s.plans session.planId = some plan →
    plan.contextKind ≠ .aresLocal

/-- The session is stored as closed. -/
def Closed (s : State) (sid : String) : Prop :=
  ∃ session, s.sessions sid = some session ∧ session.status = .closed

/-- At most one call is in progress, and a close that the broker has answered is one of a session that
it knows. -/
structure Inv (s : State) : Prop where
  alone : ∀ i j, i ∈ s.working → j ∈ s.working → i = j
  keyed : ∀ k session, s.sessions k = some session → session.id = k
  epochs : ∀ (n : Nat) x, s.sent[n]? = some x → x.epoch ≤ s.epoch
  unsent : ∀ n, s.sent.length ≤ n → s.answered n = none
  known : ∀ (n : Nat) x response sid, s.sent[n]? = some x → x.request.closes = some sid →
    x.epoch = s.epoch → s.answered n = some (.ok response) → Known s sid

/-- What the others leave alone of a task. -/
structure Beside (k : Nat) (s s' : State) : Prop where
  epoch : s.epoch ≤ s'.epoch
  sent : ∀ (n : Nat) x, s.sent[n]? = some x → s'.sent[n]? = some x
  known : s'.epoch = s.epoch → ∀ sid, Known s sid → Known s' sid
  working : k ∈ s.working → k ∈ s'.working ∧ s'.plans = s.plans ∧ s'.sessions = s.sessions ∧
    s'.epoch = s.epoch
  fresh : k ∉ s.working → k ∉ s'.working

theorem Beside.refl (k : Nat) (s : State) : Beside k s s :=
  ⟨Nat.le_refl _, fun _ _ => id, fun _ _ => id, fun h => ⟨h, rfl, rfl, rfl⟩, id⟩

theorem Beside.trans {k : Nat} {a b c : State} (hab : Beside k a b) (hbc : Beside k b c) :
    Beside k a c where
  epoch := Nat.le_trans hab.epoch hbc.epoch
  sent n x h := hbc.sent n x (hab.sent n x h)
  known h sid hk := by
    have hle := hab.epoch
    have hle' := hbc.epoch
    exact hbc.known (by omega) sid (hab.known (by omega) sid hk)
  working h := by
    obtain ⟨hb, hplans, hsessions, hepoch⟩ := hab.working h
    obtain ⟨hc, hplans', hsessions', hepoch'⟩ := hbc.working hb
    exact ⟨hc, hplans'.trans hplans, hsessions'.trans hsessions, hepoch'.trans hepoch⟩
  fresh h := hbc.fresh (hab.fresh h)

def Writes (j : Nat) (s s' : State) : Prop := ∀ k, k ≠ j → Beside k s s'

def logic (cfg : Config) (j : Nat) : Logic State Res :=
  ⟨Inv, Beside j, Writes j, (sequence cfg).answers⟩

def Working (j : Nat) (s : State) : Prop := j ∈ s.working

/-! ### The writes -/

section Steps

variable {j n : Nat} {s s' : State} {request : TerminalBroker.Request}

theorem begin_step (hi : Inv s) (hidle : s.working = []) :
    Writes j s (s.begin j) ∧ Inv (s.begin j) ∧ Working j (s.begin j) := by
  refine ⟨fun k hk => ⟨Nat.le_refl _, fun _ _ => id, fun _ _ => id, fun h => ?_, fun _ => ?_⟩,
    { hi with alone := fun i k hi hk => ?_ }, List.mem_cons_self⟩
  · rw [hidle] at h
    cases h
  · simp [State.begin, hidle, hk]
  · simp only [State.begin, hidle, List.mem_singleton] at hi hk
    rw [hi, hk]

theorem leave_step (hi : Inv s) : Writes j s (s.leave j) ∧ Inv (s.leave j) := by
  refine ⟨fun k hk => ⟨Nat.le_refl _, fun _ _ => id, fun _ _ => id,
    fun h => ⟨?_, rfl, rfl, rfl⟩, fun h hm => h ?_⟩, { hi with alone := fun i k hi' hk => ?_ }⟩
  · simp [State.leave, h, hk]
  · exact (List.mem_filter.mp hm).1
  · exact hi.alone i k (List.mem_filter.mp hi').1 (List.mem_filter.mp hk).1

variable (s') in
theorem call_step (hi : Inv s) (hj : Working j s) (hworking : s'.working = s.working)
    (hbroker : s'.broker = s.broker) (hepoch : s'.epoch = s.epoch)
    (hanswered : s'.answered = s.answered) (hsent : s'.sent = s.sent)
    (hkeyed : ∀ k session, s'.sessions k = some session → session.id = k) :
    Writes j s s' ∧ Inv s' := by
  refine ⟨fun k hk => ⟨Nat.le_of_eq hepoch.symm, fun n x h => by rw [hsent]; exact h,
    fun _ sid h => ?_, fun h => absurd (hi.alone k j h hj) hk, fun h => by rw [hworking]; exact h⟩,
    ⟨?_, hkeyed, ?_, ?_, ?_⟩⟩
  · rw [Known, hbroker]
    exact h
  · rw [hworking]
    exact hi.alone
  · rw [hsent, hepoch]
    exact hi.epochs
  · rw [hsent, hanswered]
    exact hi.unsent
  · rw [hsent, hepoch, hanswered]
    intro n x response sid hx hcloses hlive hr
    rw [Known, hbroker]
    exact hi.known n x response sid hx hcloses hlive hr

variable (request) in
theorem send_step (hi : Inv s) : Writes j s (s.send request) ∧ Inv (s.send request) := by
  refine ⟨fun k _ => ⟨Nat.le_refl _, fun _ _ => sent_mono, fun _ _ => id,
    fun h => ⟨h, rfl, rfl, rfl⟩, id⟩, { hi with epochs := ?_, unsent := ?_, known := ?_ }⟩
  · intro m x hx
    rcases sent_send hx with hold | ⟨-, rfl⟩
    · exact hi.epochs m x hold
    · exact Nat.le_refl _
  · intro m hm
    exact hi.unsent m (by simp [State.send] at hm; omega)
  · intro m x response sid hx hcloses hlive hr
    rcases sent_send hx with hold | ⟨rfl, -⟩
    · exact hi.known m x response sid hold hcloses hlive hr
    · cases (hi.unsent _ (Nat.le_refl _)).symm.trans hr

theorem store_keyed (hi : Inv s) (session : TerminalSession) (k : String) (found : TerminalSession)
    (h : (s.storeSession session).sessions k = some found) : found.id = k := by
  by_cases hk : k = session.id
  · subst hk
    obtain rfl : session = found := by simpa [State.storeSession] using h
    rfl
  · exact hi.keyed k found (by simpa [State.storeSession, hk] using h)

end Steps

/-! ### Calls keep to themselves -/

section Calls

variable {cfg : Config} {j : Nat} {s : State} {sid : String}

theorem working_beside (s s' : State) (hr : Beside j s s') (h : Working j s) : Working j s' :=
  (hr.working h).1

theorem quiet_keeps {α : Type} {p : Task α} (quiet : p.Quiet) :
    p.Keeps (logic cfg j) (Working j) :=
  quiet.keeps working_beside

theorem modify_keeps {f : State → State} (hworking : ∀ s, (f s).working = s.working)
    (hbroker : ∀ s, (f s).broker = s.broker) (hepoch : ∀ s, (f s).epoch = s.epoch)
    (hanswered : ∀ s, (f s).answered = s.answered) (hsent : ∀ s, (f s).sent = s.sent)
    (hkeyed : ∀ s, Inv s → ∀ k session, (f s).sessions k = some session → session.id = k) :
    (Proc.modify f : Task Unit).Keeps (logic cfg j) (Working j) :=
  keeps_modify fun s hi h => by
    obtain ⟨hwrites, hi'⟩ := call_step _ hi h (hworking s) (hbroker s) (hepoch s) (hanswered s)
      (hsent s) (hkeyed s hi)
    exact ⟨hwrites, hi', by rw [Working, hworking]; exact h⟩

/-- A write of the standing of a session. -/
structure Marks (mark : State → State) : Prop where
  only : ∀ s, ∃ standing, mark s = { s with standing }

theorem Marks.keeps {mark : State → State} (hm : Marks mark) :
    (Proc.modify mark : Task Unit).Keeps (logic cfg j) (Working j) :=
  keeps_modify fun s hi h => by
    obtain ⟨standing, heq⟩ := hm.only s
    obtain ⟨hwrites, hi'⟩ := call_step { s with standing } hi h rfl rfl rfl rfl rfl hi.keyed
    rw [heq]
    exact ⟨hwrites, hi', h⟩

theorem marks_id : Marks fun s => s := ⟨fun s => ⟨s.standing, rfl⟩⟩

theorem marks_stand (sid : String) (standing : Standing) : Marks (State.stand sid standing) :=
  ⟨fun _ => ⟨_, rfl⟩⟩

theorem marks_check (sid : String) (there : Bool) : Marks (State.check j sid there) :=
  ⟨fun s => by
    rw [State.check]
    split
    · exact ⟨_, rfl⟩
    · exact ⟨s.standing, rfl⟩⟩

theorem getPlan_keeps (planId : String) : (getPlan planId).Keeps (logic cfg j) (Working j) :=
  quiet_keeps (quiet_require.bind fun _ => quiet_attempt.bind fun _ =>
    quiet_reading.bind fun _ => quiet_attempt.bind fun _ => quiet_ret)

theorem getSession_keeps (starting : Bool) {mark : Bool → State → State}
    (hm : ∀ there, Marks (mark there)) (sid : String) :
    (getSession starting mark sid).Keeps (logic cfg j) (Working j) :=
  (quiet_keeps quiet_require).bind fun _ => (quiet_keeps quiet_attempt).bind fun there =>
    (quiet_keeps quiet_reading).bind fun _ => (hm there).keeps.bind fun _ =>
      quiet_keeps (quiet_attempt.bind fun _ => quiet_ret)

theorem putPlan_keeps (plan : TerminalPlan) : (putPlan plan).Keeps (logic cfg j) (Working j) :=
  (quiet_keeps quiet_require).bind fun _ => (quiet_keeps quiet_attempt).bind fun _ =>
    (modify_keeps (f := State.storePlan plan) (fun _ => rfl) (fun _ => rfl) (fun _ => rfl)
      (fun _ => rfl) (fun _ => rfl) fun _ hi => hi.keyed).bind fun _ =>
      quiet_keeps quiet_attempt

theorem putSession_keeps (session : TerminalSession) {mark : State → State} (hm : Marks mark) :
    (putSession session mark).Keeps (logic cfg j) (Working j) := by
  refine (quiet_keeps quiet_require).bind fun _ => (quiet_keeps quiet_attempt).bind fun _ => ?_
  refine Proc.Keeps.bind (keeps_modify fun s hi h => ?_) fun _ => quiet_keeps quiet_attempt
  obtain ⟨standing, heq⟩ := hm.only (s.storeSession session)
  rw [heq]
  obtain ⟨hwrites, hi'⟩ := call_step { s.storeSession session with standing } hi h rfl rfl
    rfl rfl rfl (store_keyed hi session)
  exact ⟨hwrites, hi', h⟩

theorem ask_keeps (request : TerminalBroker.Request) {mark : Nat → State → State}
    (hm : ∀ n, Marks (mark n)) : (ask request mark).Keeps (logic cfg j) (Working j) := by
  refine (quiet_keeps quiet_attempt).bind fun _ => (quiet_keeps quiet_reading).bind fun n => ?_
  refine Proc.Keeps.bind (keeps_modify fun s hi h => ?_) fun _ => quiet_keeps quiet_attempt
  obtain ⟨standing, heq⟩ := (hm n).only (s.send request)
  obtain ⟨hwrites, hi1⟩ := send_step (j := j) request hi
  obtain ⟨hwrites', hi2⟩ := call_step { s.send request with standing } hi1 h rfl rfl rfl rfl
    rfl hi1.keyed
  rw [heq]
  exact ⟨fun k hk => (hwrites k hk).trans (hwrites' k hk), hi2, h⟩

theorem planTarget_keeps (request : TerminalPlanRequest) :
    (planTarget request).Keeps (logic cfg j) (Working j) := by
  rw [planTarget]
  split
  · exact keeps_ret _
  · exact quiet_keeps ((quiet_attempt.bind fun _ => quiet_ofExcept.bind fun _ =>
      quiet_require.bind fun _ => quiet_ret).bind fun _ => quiet_ret)
  · exact keeps_raise _

theorem draw_keeps : (draw cfg).Keeps (logic cfg j) (Working j) :=
  (quiet_keeps quiet_reading).bind fun _ =>
    (modify_keeps (f := State.draw) (fun _ => rfl) (fun _ => rfl) (fun _ => rfl) (fun _ => rfl)
      (fun _ => rfl) fun _ hi => hi.keyed).bind fun _ => keeps_ret _

theorem createPlan_keeps (request : TerminalPlanRequest) :
    (createPlan cfg request).Keeps (logic cfg j) (Working j) :=
  (planTarget_keeps request).bind fun _ => draw_keeps.bind fun _ => draw_keeps.bind fun _ =>
    (quiet_keeps quiet_reading).bind fun _ => (putPlan_keeps _).bind fun _ =>
      (putSession_keeps _ marks_id).bind fun _ =>
        quiet_keeps ((audit_quiet _ _ _).bind fun _ => quiet_ret)

theorem execute_keeps (plan : TerminalPlan) (uid : Int) :
    (execute j plan uid).Keeps (logic cfg j) (Working j) := by
  refine (ask_keeps _ fun _ => marks_id).bind fun granted => ?_
  refine Proc.Keeps.bind (quiet_keeps (by cases granted <;> trivial)) fun grant => ?_
  refine (ask_keeps _ fun n => marks_stand _ _).bind fun response => ?_
  exact quiet_keeps (by cases response <;> trivial)

theorem startSession_keeps (plan : TerminalPlan) (session : TerminalSession) (uid : Int) :
    (startSession cfg j plan session uid).Keeps (logic cfg j) (Working j) := by
  rw [startSession]
  split
  · exact quiet_keeps (quiet_attempt.bind fun _ => quiet_reading.bind fun _ =>
      quiet_ret)
  · refine Proc.Keeps.bind (quiet_keeps (quiet_require.bind fun _ => quiet_attempt.bind
      fun _ => quiet_ofOption.bind fun _ => quiet_require.bind fun _ =>
        quiet_require)) fun _ => ?_
    refine (execute_keeps plan uid).handle fun e => ?_
    cases e with
    | executor code => exact (putSession_keeps _ marks_id).bind fun _ => keeps_raise _
    | _ => exact keeps_raise _
  · exact keeps_raise _

theorem authorizeAndStart_keeps (planId : String) (payload : TerminalAuthorizationRequest)
    (uid : Int) : (authorizeAndStart cfg j planId payload uid).Keeps (logic cfg j) (Working j) := by
  refine (getPlan_keeps planId).bind fun _ => (quiet_keeps quiet_ofOption).bind fun plan => ?_
  refine (getSession_keeps true (fun there => marks_check _ there) _).bind fun _ => ?_
  refine (quiet_keeps quiet_ofOption).bind fun session => ?_
  refine (quiet_keeps quiet_require).bind fun _ => (quiet_keeps quiet_reading).bind fun _ => ?_
  split
  · exact (putSession_keeps _ marks_id).bind fun _ => keeps_raise _
  · exact (quiet_keeps quiet_require).bind fun _ => (startSession_keeps _ _ _).bind fun _ =>
      (putSession_keeps _ (marks_stand _ _)).bind fun _ =>
        quiet_keeps ((audit_quiet _ _ _).bind fun _ => quiet_ret)

/-- Since the call began, nobody has written what is stored, and the broker has not been restarted. -/
structure During (j : Nat) (s₀ s : State) : Prop where
  working : Working j s
  plans : s.plans = s₀.plans
  sessions : s.sessions = s₀.sessions
  epoch : s.epoch = s₀.epoch

variable {s₀ s' : State}

theorem During.beside (hr : Beside j s s') (h : During j s₀ s) : During j s₀ s' := by
  obtain ⟨hw, hplans, hsessions, hepoch⟩ := hr.working h.working
  exact ⟨hw, hplans.trans h.plans, hsessions.trans h.sessions, hepoch.trans h.epoch⟩

theorem during_keeps {α : Type} {p : Task α} (quiet : p.Quiet) :
    p.Keeps (logic cfg j) (During j s₀) :=
  quiet.keeps fun _ _ hr h => h.beside hr

theorem getSession_during (hi : Inv s) (h : During j s₀ s) :
    (getSession false (fun _ s => s) sid).Spec (logic cfg j)
      (fun found s' => Inv s' ∧ During j s₀ s' ∧
        ∀ session, found = some session → s₀.sessions sid = some session)
      (fun _ s' => Inv s') s := by
  refine (during_keeps quiet_require).spec_bind hi h (fun _ s1 hi1 h1 => ?_) fun _ _ h _ => h
  refine (during_keeps quiet_attempt).spec_bind hi1 h1 (fun there s2 hi2 h2 => ?_)
    fun _ _ h _ => h
  refine spec_bind.mpr (spec_reading.mpr ?_)
  obtain ⟨hwrites, hi2'⟩ := call_step _ hi2 h2.working rfl rfl rfl rfl rfl hi2.keyed
  refine spec_bind.mpr ⟨hwrites, hi2', ?_⟩
  refine (during_keeps quiet_attempt).spec_bind hi2 h2 (fun _ s3 hi3 h3 => ?_) fun _ _ h _ => h
  refine ⟨hi3, h3, fun session hsession => ?_⟩
  rw [h2.sessions] at hsession
  split at hsession
  · exact hsession
  · cases hsession

theorem getPlan_during (hi : Inv s) (h : During j s₀ s) (planId : String) :
    (getPlan planId).Spec (logic cfg j)
      (fun found s' => Inv s' ∧ During j s₀ s' ∧
        ∀ plan, found = some plan → s₀.plans planId = some plan)
      (fun _ s' => Inv s') s := by
  refine (during_keeps quiet_require).spec_bind hi h (fun _ s1 hi1 h1 => ?_) fun _ _ h _ => h
  refine (during_keeps quiet_attempt).spec_bind hi1 h1 (fun there s2 hi2 h2 => ?_)
    fun _ _ h _ => h
  refine spec_bind.mpr (spec_reading.mpr ?_)
  refine (during_keeps quiet_attempt).spec_bind hi2 h2 (fun _ s3 hi3 h3 => ?_) fun _ _ h _ => h
  refine ⟨hi3, h3, fun plan hplan => ?_⟩
  rw [h2.plans] at hplan
  split at hplan
  · exact hplan
  · cases hplan

theorem executorClose_spec (hi : Inv s) (h : During j s₀ s) :
    (executorClose sid).Spec (logic cfg j)
      (fun _ s' => Inv s' ∧ During j s₀ s' ∧ Known s' sid)
      (fun _ s' => Inv s' ∧ During j s₀ s') s := by
  refine spec_bind.mpr ?_
  refine (during_keeps quiet_attempt).spec_bind hi h (fun _ s1 hi1 h1 => ?_)
    fun _ _ hi h => ⟨hi, h⟩
  refine spec_bind.mpr (spec_reading.mpr ?_)
  obtain ⟨hwrites, hi2⟩ := send_step (j := j) (closeRequest sid) hi1
  have h2 : During j s₀ (s1.send (closeRequest sid)) := ⟨h1.working, h1.plans, h1.sessions, h1.epoch⟩
  refine spec_bind.mpr ⟨hwrites, hi2, ?_⟩
  refine spec_bind.mpr fun s3 hi3 hr3 r ha => spec_ofExcept.mpr
    ⟨fun response hr => ?_, fun _ _ => ⟨hi3, h2.beside hr3⟩⟩
  subst hr
  have h3 := h2.beside hr3
  have hsent := hr3.sent s1.sent.length ⟨s1.epoch, closeRequest sid⟩ (by simp [State.send])
  have hknown : Known s3 sid :=
    hi3.known _ _ response sid hsent rfl (h1.epoch.trans h3.epoch.symm) ha
  cases response with
  | session b => exact ⟨hi3, h3, hknown⟩
  | grant g => exact ⟨hi3, h3⟩
  | evidence e => exact ⟨hi3, h3⟩

theorem closeSession_spec {plan : TerminalPlan} {session : TerminalSession} (hi : Inv s)
    (h : During j s₀ s) (hkind : plan.contextKind ≠ .aresLocal) (hid : session.id = sid) :
    (closeSession plan session sid).Spec (logic cfg j)
      (fun closed s' => Inv s' ∧ During j s₀ s' ∧
        (Known s' sid ∨ closed.id = sid ∧ closed.status = .cleanupRequired))
      (fun _ s' => Inv s') s := by
  have hhandle : (Proc.handle (executorClose sid) (failClose session)).Spec (logic cfg j)
      (fun closed s' => Inv s' ∧ During j s₀ s' ∧
        (Known s' sid ∨ closed.id = sid ∧ closed.status = .cleanupRequired))
      (fun _ s' => Inv s') s := by
    refine spec_handle.mpr ((executorClose_spec hi h).mono
      (fun _ _ h' => ⟨h'.1, h'.2.1, .inl h'.2.2⟩) fun e s' h' => ?_)
    cases e with
    | executor code => exact ⟨h'.1, h'.2, .inr ⟨hid, rfl⟩⟩
    | _ => exact h'.1
  rw [closeSession]
  split
  · next hlocal => exact absurd hlocal hkind
  · exact hhandle

/-- The stored session blocks an exit unless it was stored as closed. -/
structure Judged (j : Nat) (s₀ : State) (sid : String) (s : State) : Prop where
  working : Working j s
  verdict : ¬Known s sid → (¬Blocking s sid ↔ Closed s₀ sid)

theorem Judged.beside (hr : Beside j s s') (h : Judged j s₀ sid s) : Judged j s₀ sid s' := by
  obtain ⟨hw, -, hsessions, hepoch⟩ := hr.working h.working
  refine ⟨hw, fun hunknown => ?_⟩
  rw [Blocking, hsessions]
  exact h.verdict fun hk => hunknown (hr.known hepoch sid hk)

theorem judged_keeps {α : Type} {p : Task α} (quiet : p.Quiet) :
    p.Keeps (logic cfg j) (Judged j s₀ sid) :=
  quiet.keeps fun _ _ hr h => h.beside hr

theorem closePlan_spec {plan : TerminalPlan} {session : TerminalSession} (hi : Inv s)
    (h : During j s₀ s) (hkind : plan.contextKind ≠ .aresLocal)
    (hsession : s₀.sessions sid = some session) (hid : session.id = sid)
    (hopen : session.status ≠ .closed) : (closePlan cfg plan session sid).Spec (logic cfg j)
      (fun _ s' => Inv s' ∧ Judged j s₀ sid s') (fun _ s' => Inv s') s := by
  refine spec_bind.mpr ((closeSession_spec hi h hkind hid).mono (fun closed s1 h1 => ?_)
    fun _ _ h => h)
  obtain ⟨hi1, h1, hcases⟩ := h1
  have hput : (putSession closed id).Spec (logic cfg j)
      (fun _ s' => Inv s' ∧ Judged j s₀ sid s') (fun _ s' => Inv s') s1 := by
    have hstep : ∀ s2, Inv s2 → During j s₀ s2 → (Known s2 sid ∨ closed.id = sid ∧
        closed.status = .cleanupRequired) → (Proc.bind (Proc.modify fun s => id (s.storeSession closed))
          fun _ => attempt .joined : Task Unit).Spec (logic cfg j)
            (fun _ s' => Inv s' ∧ Judged j s₀ sid s') (fun _ s' => Inv s') s2 := by
      intro s2 hi2 h2 hcases
      obtain ⟨hwrites, hi3⟩ := call_step (s2.storeSession closed) hi2 h2.working rfl rfl rfl rfl
        rfl (store_keyed hi2 closed)
      refine spec_bind.mpr ⟨hwrites, hi3, (judged_keeps quiet_attempt _ hi3
        ⟨h2.working, fun hunknown => ?_⟩).mono (fun _ _ h => h) fun _ _ h => h.1⟩
      rcases hcases with hknown | ⟨hclosed, hstatus⟩
      · exact absurd hknown hunknown
      · have hself : (s2.storeSession closed).sessions sid = some closed := by
          simp [State.storeSession, hclosed]
        refine iff_of_false (fun hfree => hfree ⟨closed, hself, by rw [hstatus]; rfl⟩) ?_
        rintro ⟨found, hfound, hfoundClosed⟩
        obtain rfl : session = found := Option.some.inj (hsession.symm.trans hfound)
        exact absurd hfoundClosed hopen
    have hstill : ∀ s s', Beside j s s' → During j s₀ s ∧ (Known s sid ∨ closed.id = sid ∧
        closed.status = .cleanupRequired) → During j s₀ s' ∧ (Known s' sid ∨ closed.id = sid ∧
          closed.status = .cleanupRequired) := fun s s' hr h =>
      ⟨h.1.beside hr, h.2.imp (hr.known (hr.working h.1.working).2.2.2 sid) id⟩
    refine (quiet_require.keeps hstill).spec_bind hi1 ⟨h1, hcases⟩ (fun _ s2 hi2 h2 => ?_)
      fun _ _ h _ => h
    refine (quiet_attempt.keeps hstill).spec_bind hi2 h2 (fun _ s3 hi3 h3 => ?_)
      fun _ _ h _ => h
    exact hstep s3 hi3 h3.1 h3.2
  refine spec_bind.mpr (hput.mono (fun _ s2 h2 => ?_) fun _ _ h => h)
  exact (judged_keeps (audit_quiet _ _ _)).spec_bind h2.1 h2.2 (fun _ _ hi h => ⟨hi, h⟩)
    fun _ _ h _ => h

variable (s₀) in
theorem close_spec (hi : Inv s) (h : During j s₀ s) (hkeyed : Inv s₀)
    (hinstalled : Installed s₀ sid) : (close cfg sid).Spec (logic cfg j)
      (fun _ s' => Inv s' ∧ Judged j s₀ sid s') (fun _ s' => Inv s') s := by
  refine spec_bind.mpr ((getSession_during hi h).mono (fun found s1 h1 => ?_) fun _ _ h => h)
  obtain ⟨hi1, h1, hfound⟩ := h1
  refine spec_bind.mpr (spec_ofOption.mpr ⟨fun session hsession => ?_, fun _ => hi1⟩)
  have hstored := hfound session hsession
  refine spec_bind.mpr ((getPlan_during hi1 h1 session.planId).mono (fun found s2 h2 => ?_)
    fun _ _ h => h)
  obtain ⟨hi2, h2, hplan⟩ := h2
  refine spec_bind.mpr (spec_ofOption.mpr ⟨fun plan hfoundPlan => ?_, fun _ => hi2⟩)
  have hkind := hinstalled session plan hstored (hplan plan hfoundPlan)
  split
  · next hclosed =>
    refine ⟨hi2, h2.working, fun _ => iff_of_true ?_ ⟨session, hstored, hclosed⟩⟩
    rintro ⟨other, hother, hblocking⟩
    rw [h2.sessions, hstored] at hother
    obtain rfl := Option.some.inj hother
    rw [hclosed] at hblocking
    cases hblocking
  · next hopen => exact closePlan_spec hi2 h2 hkind hstored (hkeyed.keyed sid session hstored) hopen

end Calls

/-! ### The requests of the broker -/

section Serving

variable {cfg : Config} {j n : Nat} {s : State}

/-- A task that handles a request in the broker's process of today. -/
structure Handles (j n : Nat) (x : Sent) (s : State) : Prop where
  sent : s.sent[n]? = some x
  epoch : x.epoch = s.epoch

theorem broker_step {x : Sent} {b : TerminalBroker.State} (hi : Inv s) (h : Handles j n x s)
    (hb : ∀ sid, Known s sid → TerminalBroker.Known b sid) :
    Writes j s { s with broker := b } ∧ Inv { s with broker := b } ∧
      Handles j n x { s with broker := b } :=
  ⟨fun _ _ => ⟨Nat.le_refl _, fun _ _ => id, fun _ => hb, fun h => ⟨h, rfl, rfl, rfl⟩, id⟩,
    ⟨hi.alone, hi.keyed, hi.epochs, hi.unsent, fun m y response sid hy hcloses hlive hr =>
      hb sid (hi.known m y response sid hy hcloses hlive hr)⟩, ⟨h.sent, h.epoch⟩⟩

theorem answer_step {x : Sent} (reply : Except String Response) (hi : Inv s)
    (h : Handles j n x s)
    (hr : ∀ response sid, reply = .ok response → x.request.closes = some sid → Known s sid) :
    Writes j s (s.answer n reply) ∧ Inv (s.answer n reply) := by
  have hlt := (List.getElem?_eq_some_iff.mp h.sent).1
  refine ⟨fun k hk => ⟨Nat.le_refl _, fun _ _ => id, fun _ _ => id, fun h => ⟨h, rfl, rfl, rfl⟩, id⟩,
    { hi with unsent := fun m hm => ?_, known := ?_ }⟩
  · have hne : m ≠ n := by
      have : s.sent.length ≤ m := hm
      omega
    simpa [State.answer, hne] using hi.unsent m hm
  · intro m y response sid hy hcloses hlive hm
    by_cases hne : m = n
    · subst hne
      obtain rfl : x = y := Option.some.inj (h.sent.symm.trans hy)
      have heq : reply = .ok response := by simpa [State.answer] using hm
      exact hr response sid heq hcloses
    · exact hi.known m y response sid hy hcloses hlive (by simpa [State.answer, hne] using hm)

theorem serve_spec (hi : Inv s) (hopen : s.open n) :
    (serve cfg j n).Spec (logic cfg j) (fun _ _ => True) (fun _ _ => True) s := by
  obtain ⟨x, hx, hepoch, -⟩ := hopen
  have hi1 : Inv (s.take j n) := ⟨hi.alone, hi.keyed, hi.epochs, hi.unsent, hi.known⟩
  refine ⟨fun _ _ => ⟨Nat.le_refl _, fun _ _ => id, fun _ _ => id,
    fun h => ⟨h, rfl, rfl, rfl⟩, id⟩, hi1, ?_⟩
  show Proc.Spec _ (handleSent cfg j n (s.sent[n]?)) _ _ (s.take j n)
  rw [hx]
  have hdispatched : (dispatched cfg j x).Spec (logic cfg j)
      (fun _ s' => Inv s' ∧ Handles j n x s' ∧ ∀ sid, x.request.closes = some sid → Known s' sid)
      (fun e s' => ∃ e', e = .broker e' ∧ Inv s' ∧ Handles j n x s' ∧ True) (s.take j n) := by
    refine Proc.Spec.interp (s := s.take j n) (L := logic cfg j) (P := Handles j n x)
      TerminalBroker.dispatch_known hi1 ⟨hx, hepoch⟩
      (fun s b hi h hb _ => ⟨rfl, broker_step hi h hb⟩) fun o s hi h s' hi' hr r ha => ?_
    have hlive : s'.epoch = s.epoch := (show x.epoch = s'.epoch from ha).symm.trans h.epoch
    exact ⟨hi', ⟨hr.sent n x h.sent, ha⟩, trivial, hr.known hlive, trivial⟩
  refine spec_bind.mpr (spec_observe.mpr (hdispatched.mono (fun response s' h' => ?_)
    fun e s' h' => ?_))
  · obtain ⟨hwrites, hi'⟩ := answer_step (.ok response) h'.1 h'.2.1
      fun _ sid _ hcloses => h'.2.2 sid hcloses
    exact ⟨hwrites, hi', trivial⟩
  · obtain ⟨e', rfl, hi', hh, -⟩ := h'
    obtain ⟨hwrites, hi''⟩ := answer_step (.error (codeOf e')) hi' hh (by simp)
    exact ⟨hwrites, hi'', trivial⟩

end Serving

/-- The promises of calls in sequence and of the broker's tasks to each other. -/
def contract (cfg : Config) : Contract (sequence cfg) where
  inv := Inv
  rely := Beside
  guar := Writes
  fresh j s := j ∉ s.working
  post _ _ _ _ := True
  postE _ _ _ _ := True
  refl := .refl
  trans _ _ _ _ := .trans
  guar_rely j k _ _ hne hg := hg k (Ne.symm hne)
  fresh_rely _ _ _ h hr := hr.fresh h
  post_rely _ _ _ _ _ _ _ := trivial
  postE_rely _ _ _ _ _ _ _ := trivial
  world s w hi hw := by
    cases w with
    | outside now machine =>
      exact ⟨⟨hi.alone, hi.keyed, hi.epochs, hi.unsent, hi.known⟩, fun k =>
        ⟨Nat.le_refl _, fun _ _ => id, fun _ _ => id, fun h => ⟨h, rfl, rfl, rfl⟩, id⟩⟩
    | restart =>
      have hidle : s.working = [] := hw
      have hlater : s.restart.epoch = s.epoch + 1 := rfl
      refine ⟨⟨hi.alone, hi.keyed, fun n x hx => Nat.le_succ_of_le (hi.epochs n x hx), hi.unsent,
        fun n x _ _ hx _ hlive _ => ?_⟩, fun k => ⟨Nat.le_succ _, fun _ _ => id,
          fun hsame => ?_, fun h => ?_, id⟩⟩
      · have hle := hi.epochs n x hx
        have hlive' : x.epoch = s.epoch + 1 := hlive
        omega
      · have hsame' : s.epoch + 1 = s.epoch := hsame
        omega
      · rw [hidle] at h
        cases h
  handler j t s hi _ hadmits := by
    have call : ∀ {p : Task Outcome}, s.working = [] → p.Keeps (logic cfg j) (Working j) →
        (inProgress j p).Spec (logic cfg j) (fun _ _ => True) (fun _ _ => True) s := by
      intro p hidle hp
      obtain ⟨hwrites, hi1, h1⟩ := begin_step (j := j) hi hidle
      refine ⟨hwrites, hi1, spec_andFinally.mpr ((hp _ hi1 h1).mono (fun a s' h' => ?_)
        fun e s' h' => ?_)⟩
      · exact ⟨(leave_step h'.1).1, (leave_step h'.1).2, trivial⟩
      · exact ⟨(leave_step h'.1).1, (leave_step h'.1).2, trivial⟩
    cases t with
    | createPlan request =>
      exact call hadmits.2 ((createPlan_keeps request).bind fun _ => keeps_ret _)
    | authorizeAndStart planId payload uid =>
      exact call hadmits.2 ((authorizeAndStart_keeps planId payload uid).bind fun _ =>
        keeps_ret _)
    | close sid =>
      refine call hadmits.2 (Proc.Keeps.bind ?_ fun _ => keeps_ret _)
      refine (getSession_keeps false (fun _ => marks_id) sid).bind fun _ => ?_
      refine (quiet_keeps quiet_ofOption).bind fun session => (getPlan_keeps _).bind fun _ => ?_
      refine (quiet_keeps quiet_ofOption).bind fun plan => ?_
      split
      · exact keeps_ret _
      · refine Proc.Keeps.bind ?_ fun closed => (putSession_keeps _ marks_id).bind fun _ =>
          quiet_keeps ((audit_quiet _ _ _).bind fun _ => quiet_ret)
        rw [closeSession]
        split
        · exact quiet_keeps (quiet_reading.bind fun _ => quiet_ret)
        · refine ((ask_keeps _ fun _ => marks_id).bind fun response => ?_).handle fun e => ?_
          · exact quiet_keeps (by cases response <;> trivial)
          · exact quiet_keeps (by cases e <;> trivial)
    | serve n =>
      exact spec_bind.mpr ((serve_spec hi hadmits.1).mono (fun _ _ _ => trivial)
        fun _ _ _ => trivial)

/-- When a close returns for a session with nothing behind it, the stored session does not block an
exit if and only if it was stored as closed before. -/
theorem unblocked_iff (cfg : Config) (plans : String → Option TerminalPlan)
    (sessions : String → Option TerminalSession) (broker : TerminalBroker.State)
    (keyed : ∀ k session, sessions k = some session → session.id = k)
    (p p' : Pool State Res Error Outcome Request)
    (reach : (sequence cfg).Reachable (State.initial plans sessions broker) p) (sid : String)
    (result : TerminalStartResult)
    (ends : (sequence cfg).Ends p (.close sid) (.ok (.closed result)) p')
    (hinstalled : Installed p.state sid) (hnothing : Nothing cfg p'.state sid) :
    ¬Blocking p'.state sid ↔ Closed p.state sid := by
  have hinitial : Inv (State.initial plans sessions broker) :=
    ⟨fun _ _ h => (nomatch h), keyed, fun _ _ h => (nomatch h), fun _ _ => rfl,
      fun _ _ _ _ h => nomatch h⟩
  have hC : (contract cfg).Holds p :=
    (contract cfg).sound hinitial (fun _ => List.not_mem_nil) reach
  have hi : Inv p.state := hC.inv
  have hidle : p.state.working = [] := ends.start.2
  have hspec : ((sequence cfg).handler p.tasks.length (.close sid)).Spec
      ((contract cfg).logic p.tasks.length)
      (fun _ s' => ¬Known s' sid → (¬Blocking s' sid ↔ Closed p.state sid)) (fun _ _ => True)
      p.state := by
    obtain ⟨hwrites, hi1, h1⟩ := begin_step (j := p.tasks.length) hi hidle
    refine ⟨hwrites, hi1, spec_andFinally.mpr (spec_bind.mpr
      ((close_spec (p.state) hi1 ⟨h1, rfl, rfl, rfl⟩ hi hinstalled).mono
        (fun a s' h' => ?_) fun e s' h' => ?_))⟩
    · exact ⟨(leave_step h'.1).1, (leave_step h'.1).2, h'.2.verdict⟩
    · exact ⟨(leave_step h').1, (leave_step h').2, trivial⟩
  exact (hC.at_end ends hspec).1 _ rfl hnothing.unknown

/-! ### Sample runs -/

def sequenceMove (p : Pool State Res Error Outcome Request) : Move Res Request World → Bool
  | .start (.serve n) => match p.state.sent[n]? with
    | some x => x.epoch = p.state.epoch && p.state.taken n = none
    | none => false
  | .start _ => p.state.working = []
  | .resume j answer => match p.tasks[j]? with
    | some (_, .call o _) => allowed p.state o (answer o)
    | _ => false
  | .world .restart => p.state.working = []
  | .world (.outside _ _) => true

theorem legal_of_sequenceMove (cfg : Config) (p : Pool State Res Error Outcome Request)
    (m : Move Res Request World) (h : sequenceMove p m = true) : (sequence cfg).Legal p m := by
  cases m with
  | world w =>
    cases w with
    | restart => exact of_decide_eq_true (p := p.state.working = []) h
    | outside now machine => exact trivial
  | start request =>
    cases request with
    | serve n =>
      rw [sequenceMove] at h
      split at h
      · next x hx =>
        simp only [Bool.and_eq_true, decide_eq_true_eq] at h
        exact ⟨⟨x, hx, h⟩, trivial⟩
      · cases h
    | createPlan | authorizeAndStart | close =>
      exact ⟨trivial, of_decide_eq_true (p := p.state.working = []) h⟩
  | resume j answer =>
    rw [sequenceMove] at h
    split at h
    · next t o k hj => exact ⟨t, o, k, hj, answers_of_allowed cfg h⟩
    · cases h

theorem ends_of_checked {cfg : Config} {p : Pool State Res Error Outcome Request} {t : Request}
    {r : Except Error Outcome} (ms : List (Move Res Request World)) (m : Move Res Request World)
    (start : sequenceMove p (.start t) = true)
    (run : (sequence cfg).checked sequenceMove ((sequence cfg).next p (.start t)) ms = true)
    (waits : ((sequence cfg).play ((sequence cfg).next p (.start t)) ms).ended p.tasks.length =
      some (t, none))
    (last : sequenceMove ((sequence cfg).play ((sequence cfg).next p (.start t)) ms) m = true)
    (ended : ((sequence cfg).next ((sequence cfg).play ((sequence cfg).next p (.start t)) ms)
      m).ended p.tasks.length = some (t, some r)) :
    (sequence cfg).Ends p t r ((sequence cfg).next
      ((sequence cfg).play ((sequence cfg).next p (.start t)) ms) m) :=
  ⟨legal_of_sequenceMove cfg _ _ start,
    ⟨ms, _, m, System.run_of_checked (legal_of_sequenceMove cfg) run, waits,
      legal_of_sequenceMove cfg _ _ last, rfl⟩, ended⟩

def closedSession : TerminalSession :=
  { plannedSession samplePlan 0 with status := .closed }

def closedSessions (id : String) : Option TerminalSession :=
  if id = "session1" then some closedSession else none

theorem closedSessions_keyed (k : String) (session : TerminalSession)
    (h : closedSessions k = some session) : session.id = k := by
  rw [closedSessions] at h
  split at h
  · next hk =>
    obtain rfl := Option.some.inj h
    exact hk.symm
  · cases h

def closedPool : Pool State Res Error Outcome Request :=
  System.initial (State.initial samplePlans closedSessions sampleBroker)

def afterClosing : Pool State Res Error Outcome Request :=
  (sequence sampleConfig).next ((sequence sampleConfig).play
    ((sequence sampleConfig).next closedPool (.start (.close "session1"))) (sampleResumes [] 0 3))
    (.resume 0 (sampleAnswer []))

theorem sample_installed : Installed closedPool.state "session1" := by
  intro session plan hsession hplan
  obtain rfl : closedSession = session := Option.some.inj hsession
  obtain rfl : samplePlan = plan := Option.some.inj hplan
  decide

set_option maxRecDepth 20000 in
/-- A session that is stored as closed stays so. -/
theorem unblocked_sample :
    ¬Blocking afterClosing.state "session1" ↔ Closed closedPool.state "session1" :=
  unblocked_iff sampleConfig samplePlans closedSessions sampleBroker closedSessions_keyed closedPool
    afterClosing ⟨[], .nil _⟩ "session1"
    ⟨true, closedSession, samplePlan, "La terminal ya estaba cerrada y reconciliada."⟩
    (ends_of_checked _ _ (by decide +kernel) (by decide +kernel) (by decide +kernel)
      (by decide +kernel) (by decide +kernel)) sample_installed
    ⟨by decide +kernel, by decide +kernel, by decide +kernel⟩

def emptyPool : Pool State Res Error Outcome Request :=
  System.initial (State.initial (fun _ => none) (fun _ => none) sampleBroker)

def planning : List (Move Res Request World) :=
  .start (.createPlan ⟨.installedSystemReadOnly, none⟩) :: sampleResumes [] 0 6

def plannedPool : Pool State Res Error Outcome Request :=
  (sequence sampleConfig).play emptyPool planning

def neverStarted : TerminalPlan :=
  planFor sampleLibrary (fun _ => "") (sampleConfig.uuid4 1) (sampleConfig.uuid4 0)
    .installedSystemReadOnly (some sampleResource) 0

/-- The broker does not know the session. -/
def refusals : List (Except Error Response) := [.error (.executor "TERMINAL_SESSION_NOT_FOUND")]

def refusing : List (Move Res Request World) :=
  sampleResumes refusals 1 5 ++ .start (.serve 0) :: sampleResumes refusals 1 3

def refusedPool : Pool State Res Error Outcome Request :=
  (sequence sampleConfig).next ((sequence sampleConfig).play
    ((sequence sampleConfig).next plannedPool (.start (.close neverStarted.sessionId))) refusing)
    (.resume 1 (sampleAnswer refusals))

def refusedResult : TerminalStartResult where
  accepted := false
  session := uncleanSession (plannedSession neverStarted 0) "TERMINAL_SESSION_NOT_FOUND"
  plan := neverStarted
  message := "Cierre de terminal procesado."

theorem planned_installed : Installed plannedPool.state neverStarted.sessionId := by
  intro session plan hsession hplan
  have hsession' : plannedPool.state.sessions neverStarted.sessionId =
      some (plannedSession neverStarted 0) := by decide +kernel
  obtain rfl := Option.some.inj (hsession'.symm.trans hsession)
  have hplan' : plannedPool.state.plans neverStarted.id = some neverStarted := by decide +kernel
  obtain rfl : neverStarted = plan := Option.some.inj (hplan'.symm.trans hplan)
  decide +kernel

theorem planned_reachable : (sequence sampleConfig).Reachable
      (State.initial (fun _ => none) (fun _ => none) sampleBroker) plannedPool :=
  ⟨planning, System.run_of_checked (legal_of_sequenceMove sampleConfig) (by decide +kernel)⟩

theorem refused_ends : (sequence sampleConfig).Ends plannedPool (.close neverStarted.sessionId)
      (.ok (.closed refusedResult)) refusedPool :=
  ends_of_checked refusing (.resume 1 (sampleAnswer refusals)) (by decide +kernel)
    (by decide +kernel) (by decide +kernel) (by decide +kernel) (by decide +kernel)

theorem refused_nothing : Nothing sampleConfig refusedPool.state neverStarted.sessionId :=
  ⟨by decide +kernel, by decide +kernel, by decide +kernel⟩

set_option maxRecDepth 20000 in
/-- A session that was never started blocks an exit once it is closed. -/
theorem never_started_blocks : ¬∀ (cfg : Config) (plans : String → Option TerminalPlan)
    (sessions : String → Option TerminalSession) (broker : TerminalBroker.State),
    (∀ k session, sessions k = some session → session.id = k) →
    ∀ p p' : Pool State Res Error Outcome Request,
    (sequence cfg).Reachable (State.initial plans sessions broker) p → ∀ sid result,
    (sequence cfg).Ends p (.close sid) (.ok (.closed result)) p' → Installed p.state sid →
    Nothing cfg p'.state sid → ¬Blocking p'.state sid := by
  intro claim
  have hkeyed : ∀ (k : String) (session : TerminalSession),
      (fun _ => none : String → Option TerminalSession) k = some session → session.id = k := by
    intro k session h
    cases h
  have hfree := claim sampleConfig (fun _ => none) (fun _ => none) sampleBroker hkeyed plannedPool
    refusedPool planned_reachable neverStarted.sessionId refusedResult refused_ends planned_installed
    refused_nothing
  have hstored : refusedPool.state.sessions neverStarted.sessionId = some refusedResult.session := by
    decide +kernel
  exact hfree ⟨_, hstored, rfl⟩

end Ares.Terminals.Closing
