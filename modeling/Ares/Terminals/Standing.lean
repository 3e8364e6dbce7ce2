import Ares.TerminalBroker.Sessions
import Ares.Terminals.Service

/-! How far a session has been taken, and what the broker may do for it then.  A call that has read a
session as startable holds it until it has stored what became of it; it asks the broker at most once to
start it, and while it waits no other request does so. -/

namespace Ares.Terminals

open Coop Data
open TerminalBroker (Response)

/-- The broker's session is active. -/
def Active (s : State) (sessionId : String) : Prop := TerminalBroker.Active s.broker sessionId

/-- `blocking_sessions` reports the stored session. -/
def Blocking (s : State) (sessionId : String) : Prop :=
  ∃ session, s.sessions sessionId = some session ∧ session.status.blocking = true

/-- A session that blocks an exit is among those that `blocking_sessions` makes of the stored ones. -/
theorem Blocking.reported {s : State} {sessionId : String} {listed : List TerminalSession}
    (h : Blocking s sessionId) (hlisted : ∀ session, s.sessions sessionId = some session →
      session ∈ listed) :
    ∃ session ∈ listed, s.sessions sessionId = some session ∧
      "terminal:" ++ session.id ++ ":" ++ session.status.value ∈ blockingSessions listed := by
  obtain ⟨session, hstored, hblocking⟩ := h
  have hmem := hlisted session hstored
  exact ⟨session, hmem, hstored,
    List.mem_map.mpr ⟨session, List.mem_filter.mpr ⟨hmem, hblocking⟩, rfl⟩⟩

def Starts (s : State) (n : Nat) (sessionId : String) : Prop :=
  ∃ sent, s.sent[n]? = some sent ∧ sent.request.starts = some sessionId

def Live (s : State) (n : Nat) (sessionId : String) : Prop :=
  ∃ sent, s.sent[n]? = some sent ∧ sent.request.starts = some sessionId ∧ sent.epoch = s.epoch ∧
    s.answered n = none

/-- The broker has refused the request, or lost it in a restart. -/
def Lost (s : State) (n : Nat) : Prop :=
  (∃ code, s.answered n = some (.error code)) ∨
    ∃ sent, s.sent[n]? = some sent ∧ sent.epoch < s.epoch

/-- What the standing of a session says of the broker and of the store. -/
def Sound (s : State) (sessionId : String) : Prop :=
  match s.standing sessionId with
  | .free => (∀ n, ¬Live s n sessionId) ∧ (Active s sessionId → Blocking s sessionId)
  | .checked _ => (∀ n, ¬Live s n sessionId) ∧ ¬Active s sessionId
  | .asked _ n => (∀ m, Live s m sessionId → m = n) ∧ Starts s n sessionId ∧
      (Active s sessionId → ¬Lost s n ∧ (s.taken n).isSome = true)
  | .settled _ => (∀ n, ¬Live s n sessionId) ∧ Blocking s sessionId

structure Inv (plans : String → Option TerminalPlan) (s : State) : Prop where
  plans : s.plans = plans
  keyed : ∀ k session, s.sessions k = some session → session.id = k
  epochs : ∀ (n : Nat) sent, s.sent[n]? = some sent → sent.epoch ≤ s.epoch
  held : ∀ sessionId k, (s.standing sessionId).holder = some k → k ∈ s.working
  answers : ∀ (n : Nat) sent response, s.sent[n]? = some sent →
    s.answered n = some (.ok response) → TerminalBroker.Answers sent.request response
  unsent : ∀ n, s.sent.length ≤ n → s.taken n = none
  untaken : ∀ n, s.taken n = none → s.answered n = none
  sound : ∀ sessionId, Sound s sessionId

/-- What the others leave alone of a task: the sessions that it holds, and the request that it
handles. -/
structure Apart (k : Nat) (s s' : State) : Prop where
  sent : ∀ (n : Nat) sent, s.sent[n]? = some sent → s'.sent[n]? = some sent
  epoch : s.epoch ≤ s'.epoch
  answered : ∀ n r, s.answered n = some r → s'.answered n = some r
  working : k ∈ s.working → k ∈ s'.working
  held : ∀ sid, (s.standing sid).holder = some k →
    s'.standing sid = s.standing sid ∧ s'.sessions sid = s.sessions sid
  holds : ∀ sid, (s'.standing sid).holder = some k → (s.standing sid).holder = some k
  settled : ∀ sid j, s.standing sid = .settled j → s'.standing sid = .settled j
  taken : ∀ n, s.taken n = some k → s'.taken n = some k ∧ s'.answered n = s.answered n
  takes : ∀ n, s'.taken n = some k → s.taken n = some k
  active : ∀ n sid, s.taken n = some k → Live s n sid → s'.epoch = s.epoch →
    Active s' sid → Active s sid

section Apart

variable {k n : Nat} {s s' a b c : State} {sid : String}

theorem Apart.refl (k : Nat) (s : State) : Apart k s s where
  sent _ _ := id
  epoch := Nat.le_refl _
  answered _ _ := id
  working := id
  held _ _ := ⟨rfl, rfl⟩
  holds _ := id
  settled _ _ := id
  taken _ h := ⟨h, rfl⟩
  takes _ := id
  active _ _ _ _ _ := id

theorem Live.apart (hr : Apart k s s') (htaken : s.taken n = some k) (hepoch : s'.epoch = s.epoch)
    (h : Live s n sid) : Live s' n sid := by
  obtain ⟨sent, hsent, hstarts, hlive, hanswered⟩ := h
  exact ⟨sent, hr.sent n sent hsent, hstarts, hlive.trans hepoch.symm,
    (hr.taken n htaken).2.trans hanswered⟩

theorem Apart.trans (hab : Apart k a b) (hbc : Apart k b c) : Apart k a c where
  sent n x h := hbc.sent n x (hab.sent n x h)
  epoch := Nat.le_trans hab.epoch hbc.epoch
  answered n r h := hbc.answered n r (hab.answered n r h)
  working h := hbc.working (hab.working h)
  held sid h := by
    obtain ⟨hstanding, hsessions⟩ := hab.held sid h
    obtain ⟨hstanding', hsessions'⟩ := hbc.held sid (hstanding.symm ▸ h)
    exact ⟨hstanding'.trans hstanding, hsessions'.trans hsessions⟩
  holds sid h := hab.holds sid (hbc.holds sid h)
  settled sid j h := hbc.settled sid j (hab.settled sid j h)
  taken n h := by
    obtain ⟨htaken, hanswered⟩ := hab.taken n h
    exact ⟨(hbc.taken n htaken).1, (hbc.taken n htaken).2.trans hanswered⟩
  takes n h := hab.takes n (hbc.takes n h)
  active n sid htaken hlive hepoch ha := by
    have hle := hab.epoch
    have hle' := hbc.epoch
    have hab' : b.epoch = a.epoch := by omega
    exact hab.active n sid htaken hlive hab' (hbc.active n sid (hab.taken n htaken).1
      (hlive.apart hab htaken hab') (by omega) ha)

theorem Lost.apart (hr : Apart k s s') (h : Lost s n) : Lost s' n := by
  rcases h with ⟨code, hcode⟩ | ⟨sent, hsent, hlt⟩
  · exact .inl ⟨code, hr.answered n _ hcode⟩
  · exact .inr ⟨sent, hr.sent n sent hsent, Nat.lt_of_lt_of_le hlt hr.epoch⟩

theorem Lost.not_live (h : Lost s n) : ¬Live s n sid := by
  rintro ⟨sent, hsent, -, hepoch, hanswered⟩
  rcases h with ⟨code, hcode⟩ | ⟨sent', hsent', hlt⟩
  · rw [hcode] at hanswered
    cases hanswered
  · obtain rfl : sent = sent' := Option.some.inj (hsent.symm.trans hsent')
    omega

end Apart

theorem apart_of {k : Nat} {s s' : State} (hbroker : s'.broker = s.broker) (hepoch : s'.epoch = s.epoch)
    (htaken : s'.taken = s.taken)
    (hanswered : s'.answered = s.answered)
    (hsent : ∀ (n : Nat) sent, s.sent[n]? = some sent → s'.sent[n]? = some sent)
    (hworking : k ∈ s.working → k ∈ s'.working)
    (held : ∀ sid, (s.standing sid).holder = some k →
      s'.standing sid = s.standing sid ∧ s'.sessions sid = s.sessions sid)
    (hholds : ∀ sid, (s'.standing sid).holder = some k → (s.standing sid).holder = some k)
    (hsettled : ∀ sid j, s.standing sid = .settled j → s'.standing sid = .settled j) :
    Apart k s s' where
  sent := hsent
  epoch := Nat.le_of_eq hepoch.symm
  answered n r h := by rw [hanswered]; exact h
  working := hworking
  held := held
  holds := hholds
  settled := hsettled
  taken n h := ⟨by rw [htaken]; exact h, by rw [hanswered]⟩
  takes n h := by rw [htaken] at h; exact h
  active n sid _ _ _ h := by rw [Active, hbroker] at h; exact h

def Writes (j : Nat) (s s' : State) : Prop := ∀ k, k ≠ j → Apart k s s'

/-- A session is read as startable while no other call holds it, a start is given up only when the
broker has lost it, and the store takes a session that the broker has started. -/
def careful (s : State) : (o : Op) → Res o → Prop
  | .call (.read (.session sid) true), r =>
    r = .ok true → s.startable sid = true → (s.standing sid).holder = none
  | .call (.reply n), .error _ => (∃ sid, Starts s n sid) → Lost s n
  | .call (.writeSession session), r =>
    session.status = .active → (∃ k n, s.standing session.id = .asked k n) → r = .ok ()
  | _, _ => True

/-- Calls that start the terminal of one plan, and the requests that they send. -/
def starting (planId : String) (_ : State) : Request → Prop
  | .authorizeAndStart planId' _ _ => planId' = planId
  | .serve _ => True
  | _ => False

def starts (cfg : Config) (planId : String) : System State Res Error Outcome Request World :=
  (system cfg).restrict (starting planId) fun _ _ _ => True

/-- The same calls, where every step is careful. -/
def carefulStarts (cfg : Config) (planId : String) :
    System State Res Error Outcome Request World :=
  (system cfg).restrict (starting planId) careful

def logic (cfg : Config) (planId : String) (plans : String → Option TerminalPlan) (j : Nat) :
    Logic State Res :=
  ⟨Inv plans, Apart j, Writes j, (carefulStarts cfg planId).answers⟩

/-! ### The writes of a call -/

section Writes

variable {plans : String → Option TerminalPlan} {j n : Nat} {s : State} {sid : String}
  {session : TerminalSession}

theorem sound_congr {s' : State} {sid : String} (hstanding : s'.standing sid = s.standing sid)
    (hsessions : s'.sessions sid = s.sessions sid) (hbroker : s'.broker = s.broker)
    (htaken : s'.taken = s.taken) (hanswered : s'.answered = s.answered)
    (hepoch : s'.epoch = s.epoch) (hsent : s'.sent = s.sent) (h : Sound s sid) : Sound s' sid := by
  rw [Sound] at h ⊢
  simp only [hstanding, Live, Active, Blocking, Starts, Lost, hsessions, hbroker, htaken, hanswered,
    hepoch, hsent] at h ⊢
  exact h

theorem begin_step (hi : Inv plans s) : Writes j s (s.begin j) ∧ Inv plans (s.begin j) :=
  ⟨fun _ _ => apart_of rfl rfl rfl rfl (fun _ _ => id) (fun h => List.mem_cons_of_mem _ h)
      (fun _ _ => ⟨rfl, rfl⟩) (fun _ => id) fun _ _ => id,
    { hi with
      held := fun sid k h => List.mem_cons_of_mem _ (hi.held sid k h)
      sound := fun sid => sound_congr rfl rfl rfl rfl rfl rfl rfl (hi.sound sid) }⟩

/-- What a call may leave behind: no request that the broker may still carry out. -/
def Leaving (j : Nat) (s : State) : Prop :=
  ∀ sid n, s.standing sid = .asked j n → Lost s n

theorem leave_standing (j : Nat) (s : State) (sid : String) :
    (s.leave j).standing sid = s.standing sid ∨
      (s.standing sid).holder = some j ∧ (s.leave j).standing sid = .free := by
  by_cases h : (s.standing sid).holder = some j <;> simp [State.leave, h]

theorem leave_step (hi : Inv plans s) (h : Leaving j s) :
    Writes j s (s.leave j) ∧ Inv plans (s.leave j) := by
  have hholds : ∀ sid k, ((s.leave j).standing sid).holder = some k →
      k ≠ j ∧ (s.standing sid).holder = some k := by
    intro sid k hk
    by_cases hj : (s.standing sid).holder = some j
    · have hfree : (s.leave j).standing sid = .free := by simp [State.leave, hj]
      rw [hfree] at hk
      cases hk
    · have hk' : (s.standing sid).holder = some k := by simpa [State.leave, hj] using hk
      exact ⟨fun heq => hj (heq ▸ hk'), hk'⟩
  refine ⟨fun k hk => apart_of rfl rfl rfl rfl (fun _ _ => id) (fun hw => ?_) (fun sid hs => ?_)
    (fun sid hs => (hholds sid k hs).2) fun sid i hs => ?_, ?_⟩
  · simp [State.leave, hw, hk]
  · refine ⟨?_, rfl⟩
    simp [State.leave, hs, hk]
  · simp [State.leave, hs, Standing.holder]
  · refine { hi with held := fun sid k hk => ?_, sound := fun sid => ?_ }
    · obtain ⟨hne, hold⟩ := hholds sid k hk
      simp [State.leave, hi.held sid k hold, hne]
    · rcases leave_standing j s sid with hsame | ⟨hj, hfree⟩
      · exact sound_congr hsame rfl rfl rfl rfl rfl rfl (hi.sound sid)
      · have hsound := hi.sound sid
        rw [Sound] at hsound ⊢
        rw [hfree]
        cases hstanding : s.standing sid with
        | free | settled => simp [hstanding, Standing.holder] at hj
        | checked k =>
          rw [hstanding] at hsound
          exact ⟨hsound.1, fun ha => absurd ha hsound.2⟩
        | asked k n =>
          rw [hstanding] at hsound hj
          obtain rfl : k = j := by simpa [Standing.holder] using hj
          have hlost := h sid n hstanding
          refine ⟨fun m hm => ?_, fun ha => absurd hlost (hsound.2.2 ha).1⟩
          obtain rfl := hsound.1 m hm
          exact hlost.not_live hm

/-- A startable session that nobody holds is read. -/
theorem check_step (hi : Inv plans s) (hj : j ∈ s.working) (hstart : s.startable sid = true)
    (hfree : (s.standing sid).holder = none) :
    s.standing sid = .free ∧ Writes j s (s.stand sid (.checked j)) ∧
      Inv plans (s.stand sid (.checked j)) := by
  have hnot : ¬Blocking s sid := by
    rintro ⟨session, hs, hb⟩
    have hst : session.status.startable = true := by simpa [State.startable, hs] using hstart
    rw [TerminalSessionStatus.not_blocking_of_startable hst] at hb
    cases hb
  have hsound := hi.sound sid
  have hstanding : s.standing sid = .free := by
    cases h : s.standing sid with
    | free => rfl
    | checked | asked => simp [h, Standing.holder] at hfree
    | settled =>
      rw [Sound, h] at hsound
      exact absurd hsound.2 hnot
  rw [Sound, hstanding] at hsound
  have hother : ∀ sid', sid' ≠ sid →
      (s.stand sid (.checked j)).standing sid' = s.standing sid' := fun sid' hne => by
    simp [State.stand, hne]
  have hself : (s.stand sid (.checked j)).standing sid = .checked j := by simp [State.stand]
  refine ⟨hstanding, fun k hk => apart_of rfl rfl rfl rfl (fun _ _ => id) id (fun sid' hs => ?_)
    (fun sid' hs => ?_) fun sid' i hs => ?_, ?_⟩
  · refine ⟨hother sid' ?_, rfl⟩
    rintro rfl
    simp [hstanding, Standing.holder] at hs
  · by_cases hne : sid' = sid
    · subst hne
      rw [hself] at hs
      exact absurd (Option.some.inj hs).symm hk
    · rw [hother sid' hne] at hs
      exact hs
  · refine (hother sid' ?_).trans hs
    rintro rfl
    simp [hstanding] at hs
  · refine { hi with held := fun sid' k hs => ?_, sound := fun sid' => ?_ }
    · by_cases hne : sid' = sid
      · subst hne
        rw [hself] at hs
        exact Option.some.inj hs ▸ hj
      · rw [hother sid' hne] at hs
        exact hi.held sid' k hs
    · by_cases hne : sid' = sid
      · subst hne
        rw [Sound, hself]
        exact ⟨hsound.1, fun ha => hnot (hsound.2 ha)⟩
      · exact sound_congr (hother sid' hne) rfl rfl rfl rfl rfl rfl (hi.sound sid')

/-- The call holds the session, and nothing else. -/
structure Holds (j : Nat) (sid : String) (standing : Standing) (s : State) : Prop where
  working : j ∈ s.working
  standing : s.standing sid = standing
  only : ∀ sid', sid' ≠ sid → (s.standing sid').holder ≠ some j

/-- The call holds no session. -/
structure Outside (j : Nat) (s : State) : Prop where
  working : j ∈ s.working
  only : ∀ sid, (s.standing sid).holder ≠ some j

theorem Outside.apart {s' : State} (hr : Apart j s s') (h : Outside j s) : Outside j s' :=
  ⟨hr.working h.working, fun sid hs => h.only sid (hr.holds sid hs)⟩

theorem Holds.apart {s' : State} {standing : Standing} (hr : Apart j s s')
    (hstanding : standing.holder = some j ∨ standing = .settled j) (h : Holds j sid standing s) :
    Holds j sid standing s' := by
  refine ⟨hr.working h.working, ?_, fun sid' hne hs => h.only sid' hne (hr.holds sid' hs)⟩
  rcases hstanding with hholder | rfl
  · exact (hr.held sid (h.standing ▸ hholder)).1.trans h.standing
  · exact hr.settled sid j h.standing

theorem Outside.leaving (h : Outside j s) : Leaving j s := fun sid n hs =>
  absurd (show (s.standing sid).holder = some j by rw [hs]; rfl) (h.only sid)

theorem Holds.leaving {standing : Standing} (h : Holds j sid standing s)
    (hlost : ∀ n, standing = .asked j n → Lost s n) : Leaving j s := by
  intro sid' n hs
  by_cases hne : sid' = sid
  · subst hne
    exact hlost n (h.standing.symm.trans hs)
  · exact absurd (show (s.standing sid').holder = some j by rw [hs]; rfl) (h.only sid' hne)

theorem store_step {standing : Standing} (hi : Inv plans s) (h : Holds j sid standing s)
    (hholder : standing.holder = some j) (hid : session.id = sid) :
    Writes j s (s.storeSession session) ∧ Inv plans (s.storeSession session) ∧
      Holds j sid standing (s.storeSession session) := by
  have hother : ∀ sid', sid' ≠ sid → (s.storeSession session).sessions sid' = s.sessions sid' :=
    fun sid' hne => by simp [State.storeSession, hid, hne]
  refine ⟨fun k hk => apart_of rfl rfl rfl rfl (fun _ _ => id) id (fun sid' hs => ?_)
    (fun _ => id) fun _ _ => id, ?_, ⟨h.working, h.standing, h.only⟩⟩
  · refine ⟨rfl, hother sid' ?_⟩
    rintro rfl
    rw [h.standing, hholder] at hs
    exact hk (Option.some.inj hs).symm
  · refine { hi with keyed := fun k found hfound => ?_, sound := fun sid' => ?_ }
    · by_cases hk : k = session.id
      · subst hk
        obtain rfl : session = found := by simpa [State.storeSession] using hfound
        rfl
      · exact hi.keyed k found (by simpa [State.storeSession, hk] using hfound)
    · by_cases hne : sid' = sid
      · subst hne
        have hsound := hi.sound sid'
        rw [Sound] at hsound ⊢
        have hstanding : (s.storeSession session).standing sid' = s.standing sid' := rfl
        rw [hstanding, h.standing]
        rw [h.standing] at hsound
        cases standing with
        | free | settled => simp [Standing.holder] at hholder
        | checked | asked => exact hsound
      · exact sound_congr (s := s) rfl (hother sid' hne) rfl rfl rfl rfl rfl (hi.sound sid')

/-- The holder stores the session as started. -/
theorem settle_step {standing : Standing} (hi : Inv plans s) (h : Holds j sid standing s)
    (hholder : standing.holder = some j) (hid : session.id = sid)
    (hstatus : session.status = .active) (hlive : ∀ n, ¬Live s n sid) :
    Writes j s ((s.storeSession session).stand sid (.settled j)) ∧
      Inv plans ((s.storeSession session).stand sid (.settled j)) ∧
      Holds j sid (.settled j) ((s.storeSession session).stand sid (.settled j)) := by
  obtain ⟨hwrites, hi', h'⟩ := store_step hi h hholder hid
  have hother : ∀ sid', sid' ≠ sid →
      ((s.storeSession session).stand sid (.settled j)).standing sid' = s.standing sid' :=
    fun sid' hne => by simp [State.stand, State.storeSession, hne]
  have hself : ((s.storeSession session).stand sid (.settled j)).standing sid = .settled j := by
    simp [State.stand]
  refine ⟨fun k hk => (hwrites k hk).trans (apart_of rfl rfl rfl rfl (fun _ _ => id) id
    (fun sid' hs => ?_) (fun sid' hs => ?_) fun sid' i hs => ?_), ?_, ⟨h.working, hself, ?_⟩⟩
  · refine ⟨hother sid' ?_, rfl⟩
    rintro rfl
    rw [h'.standing, hholder] at hs
    exact hk (Option.some.inj hs).symm
  · by_cases hne : sid' = sid
    · subst hne
      rw [hself] at hs
      cases hs
    · rw [hother sid' hne] at hs
      exact hs
  · refine (hother sid' ?_).trans hs
    rintro rfl
    rw [h'.standing] at hs
    rw [hs] at hholder
    cases hholder
  · refine { hi' with held := fun sid' k hs => ?_, sound := fun sid' => ?_ }
    · by_cases hne : sid' = sid
      · subst hne
        rw [hself] at hs
        cases hs
      · rw [hother sid' hne] at hs
        exact hi.held sid' k hs
    · by_cases hne : sid' = sid
      · subst hne
        rw [Sound, hself]
        refine ⟨hlive, session, by simp [State.stand, State.storeSession, hid], ?_⟩
        rw [hstatus]
        rfl
      · exact sound_congr (s := s.storeSession session) (hother sid' hne) rfl rfl rfl rfl rfl rfl
          (hi'.sound sid')
  · intro sid' hne
    rw [hother sid' hne]
    exact h.only sid' hne

end Writes

/-! ### Requests to the broker -/

section Requests

variable {plans : String → Option TerminalPlan} {j n m : Nat} {s t : State} {sid : String}
  {request : TerminalBroker.Request}

theorem sent_send {x : Sent} (hx : (s.send request).sent[m]? = some x) :
    s.sent[m]? = some x ∨ m = s.sent.length ∧ x = ⟨s.epoch, request⟩ := by
  rw [State.send, List.getElem?_append] at hx
  split at hx
  · exact .inl hx
  · obtain ⟨hlt, heq⟩ := List.getElem?_eq_some_iff.mp hx
    refine .inr ⟨?_, ?_⟩
    · simp at hlt
      omega
    · simpa using heq.symm

theorem sent_mono {x : Sent} (hx : s.sent[m]? = some x) : (s.send request).sent[m]? = some x := by
  rw [State.send, List.getElem?_append_left (List.getElem?_eq_some_iff.mp hx).1]
  exact hx

theorem live_send (hne : request.starts ≠ some sid) :
    Live (s.send request) m sid ↔ Live s m sid := by
  constructor
  · rintro ⟨x, hx, hstarts, hepoch, hanswered⟩
    rcases sent_send hx with hold | ⟨-, rfl⟩
    · exact ⟨x, hold, hstarts, hepoch, hanswered⟩
    · exact absurd hstarts hne
  · rintro ⟨x, hx, h⟩
    exact ⟨x, sent_mono hx, h⟩

theorem lost_send (h : Starts s m sid) : Lost (s.send request) m ↔ Lost s m := by
  obtain ⟨x, hx, -⟩ := h
  refine or_congr_right ⟨?_, ?_⟩
  · rintro ⟨y, hy, hlt⟩
    obtain rfl : x = y := Option.some.inj ((sent_mono hx).symm.trans hy)
    exact ⟨x, hx, hlt⟩
  · rintro ⟨y, hy, hlt⟩
    exact ⟨y, sent_mono hy, hlt⟩

theorem sound_send (hne : request.starts ≠ some sid) (h : Sound s sid) :
    Sound (s.send request) sid := by
  rw [Sound] at h ⊢
  have hstanding : (s.send request).standing sid = s.standing sid := rfl
  simp only [live_send hne]
  rw [hstanding]
  cases hs : s.standing sid with
  | free | checked | settled =>
    rw [hs] at h
    exact h
  | asked k n =>
    rw [hs] at h
    obtain ⟨hlive, ⟨x, hx, hstarts⟩, hactive⟩ := h
    refine ⟨hlive, ⟨x, sent_mono hx, hstarts⟩, fun ha => ⟨?_, (hactive ha).2⟩⟩
    rw [lost_send ⟨x, hx, hstarts⟩]
    exact (hactive ha).1

theorem inv_send (hi : Inv plans s) (hsound : ∀ sid, Sound (s.send request) sid) :
    Inv plans (s.send request) :=
  { hi with
    epochs := fun m x hx => by
      rcases sent_send hx with hold | ⟨-, rfl⟩
      · exact hi.epochs m x hold
      · exact Nat.le_refl _
    answers := fun m x response hx hr => by
      rcases sent_send hx with hold | ⟨rfl, -⟩
      · exact hi.answers m x response hold hr
      · have hnone := hi.untaken _ (hi.unsent _ (Nat.le_refl _))
        rw [show (s.send request).answered = s.answered from rfl, hnone] at hr
        cases hr
    unsent := fun m hm => hi.unsent m (by simp [State.send] at hm; omega)
    sound := hsound }

variable (request) in
theorem send_step (hi : Inv plans s) (hnone : request.starts = none) :
    Writes j s (s.send request) ∧ Inv plans (s.send request) :=
  ⟨fun _ _ => apart_of rfl rfl rfl rfl (fun _ _ => sent_mono) id (fun _ _ => ⟨rfl, rfl⟩)
      (fun _ => id) fun _ _ => id,
    inv_send hi fun sid => sound_send (by simp [hnone]) (hi.sound sid)⟩

/-- The holder of a session asks the broker to start it. -/
theorem ask_step (hi : Inv plans s) (h : Holds j sid (.checked j) s)
    (hstarts : request.starts = some sid) (ht : t = (s.send request).stand sid
      (.asked j s.sent.length)) :
    Writes j s t ∧ Inv plans t ∧ Holds j sid (.asked j s.sent.length) t := by
  subst ht
  have hsound := hi.sound sid
  rw [Sound, h.standing] at hsound
  have hother : ∀ sid', sid' ≠ sid → ((s.send request).stand sid
      (.asked j s.sent.length)).standing sid' = s.standing sid' := fun sid' hne => by
    simp [State.stand, State.send, hne]
  have hself : ((s.send request).stand sid (.asked j s.sent.length)).standing sid =
      .asked j s.sent.length := by simp [State.stand]
  have hlast : (s.send request).sent[s.sent.length]? = some ⟨s.epoch, request⟩ := by
    simp [State.send]
  refine ⟨fun k hk => apart_of rfl rfl rfl rfl (fun _ _ => sent_mono) id (fun sid' hs => ?_)
    (fun sid' hs => ?_) fun sid' i hs => ?_, ?_, ⟨h.working, hself, fun sid' hne => ?_⟩⟩
  · refine ⟨hother sid' ?_, rfl⟩
    rintro rfl
    rw [h.standing] at hs
    exact hk (Option.some.inj hs).symm
  · by_cases hne : sid' = sid
    · subst hne
      rw [hself] at hs
      exact absurd (Option.some.inj hs).symm hk
    · rw [hother sid' hne] at hs
      exact hs
  · refine (hother sid' ?_).trans hs
    rintro rfl
    rw [h.standing] at hs
    cases hs
  · have hsend : ∀ sid', sid' ≠ sid → Sound (s.send request) sid' := fun sid' hne =>
      sound_send (by rw [hstarts]; exact fun heq => hne (Option.some.inj heq).symm) (hi.sound sid')
    refine { hi with epochs := ?_, held := ?_, answers := ?_, unsent := ?_, sound := ?_ }
    · intro m x hx
      rcases sent_send hx with hold | ⟨-, rfl⟩
      · exact hi.epochs m x hold
      · exact Nat.le_refl _
    · intro sid' k hs
      by_cases hne : sid' = sid
      · subst hne
        rw [hself] at hs
        exact Option.some.inj hs ▸ h.working
      · rw [hother sid' hne] at hs
        exact hi.held sid' k hs
    · intro m x response hx hr
      rcases sent_send hx with hold | ⟨rfl, -⟩
      · exact hi.answers m x response hold hr
      · have hnone := hi.untaken _ (hi.unsent _ (Nat.le_refl _))
        exact nomatch hnone.symm.trans hr
    · intro m hm
      exact hi.unsent m (by simp [State.stand, State.send] at hm; omega)
    · intro sid'
      by_cases hne : sid' = sid
      · subst hne
        rw [Sound, hself]
        refine ⟨fun m hm => ?_, ⟨_, hlast, hstarts⟩, fun ha => absurd ha hsound.2⟩
        obtain ⟨x, hx, hstarts', hepoch, hanswered⟩ := hm
        rcases sent_send hx with hold | ⟨heq, -⟩
        · exact absurd ⟨x, hold, hstarts', hepoch, hanswered⟩ (hsound.1 m)
        · exact heq
      · exact sound_congr (s := s.send request) (hother sid' hne) rfl rfl rfl rfl rfl rfl
          (hsend sid' hne)
  · rw [hother sid' hne]
    exact h.only sid' hne

/-- The task handles the request of this number in the broker's process of today. -/
structure Handles (j n : Nat) (x : Sent) (s : State) : Prop where
  taken : s.taken n = some j
  answered : s.answered n = none
  sent : s.sent[n]? = some x
  epoch : x.epoch = s.epoch

theorem Handles.live {x : Sent} (h : Handles j n x s) (hstarts : x.request.starts = some sid) :
    Live s n sid :=
  ⟨x, h.sent, hstarts, h.epoch, h.answered⟩

theorem Inv.standing_of_live (hi : Inv plans s) (h : Live s n sid) :
    (∃ k, s.standing sid = .asked k n) ∧ ∀ m, Live s m sid → m = n := by
  have hsound := hi.sound sid
  rw [Sound] at hsound
  cases hs : s.standing sid with
  | free | checked | settled =>
    rw [hs] at hsound
    exact absurd h (hsound.1 n)
  | asked k n' =>
    rw [hs] at hsound
    obtain rfl := hsound.1 n h
    exact ⟨⟨k, rfl⟩, hsound.1⟩

theorem take_step {x : Sent} (hi : Inv plans s) (hfree : s.taken n = none) (hx : s.sent[n]? = some x)
    (hepoch : x.epoch = s.epoch) : Writes j s (s.take j n) ∧ Inv plans (s.take j n) ∧
      Handles j n x (s.take j n) ∧ TerminalBroker.Inactive x.request s.broker := by
  have htaken : ∀ m k, s.taken m = some k → (s.take j n).taken m = some k := by
    intro m k hm
    have hne : m ≠ n := by
      rintro rfl
      rw [hfree] at hm
      cases hm
    simp [State.take, hne, hm]
  have hsome : ∀ m, (s.taken m).isSome = true → ((s.take j n).taken m).isSome = true := by
    intro m hm
    obtain ⟨k, hk⟩ := Option.isSome_iff_exists.mp hm
    exact Option.isSome_iff_exists.mpr ⟨k, htaken m k hk⟩
  refine ⟨fun k hk => ?_, ?_, ⟨by simp [State.take], hi.untaken n hfree, hx, hepoch⟩, ?_⟩
  · exact {
      Apart.refl k s with
      taken := fun m hm => ⟨htaken m k hm, rfl⟩
      takes := fun m hm => by
        by_cases hne : m = n
        · subst hne
          have hjk : j = k := by simpa [State.take] using hm
          exact absurd hjk.symm hk
        · simpa [State.take, hne] using hm }
  · refine { hi with unsent := fun m hm => ?_, untaken := fun m hm => ?_, sound := fun sid => ?_ }
    · have hlt := (List.getElem?_eq_some_iff.mp hx).1
      have hne : m ≠ n := by
        have : s.sent.length ≤ m := hm
        omega
      simpa [State.take, hne] using hi.unsent m hm
    · by_cases hne : m = n
      · subst hne
        simp [State.take] at hm
      · exact hi.untaken m (by simpa [State.take, hne] using hm)
    · have hsound := hi.sound sid
      rw [Sound] at hsound ⊢
      have hstanding : (s.take j n).standing sid = s.standing sid := rfl
      rw [hstanding]
      cases hs : s.standing sid with
      | free | checked | settled =>
        rw [hs] at hsound
        exact hsound
      | asked k m =>
        rw [hs] at hsound
        exact ⟨hsound.1, hsound.2.1, fun ha => ⟨(hsound.2.2 ha).1, hsome m (hsound.2.2 ha).2⟩⟩
  · intro sid hstarts ha
    have hlive : Live s n sid := ⟨x, hx, hstarts, hepoch, hi.untaken n hfree⟩
    obtain ⟨⟨k, hs⟩, -⟩ := hi.standing_of_live hlive
    have hsound := hi.sound sid
    rw [Sound, hs] at hsound
    have hsome := (hsound.2.2 ha).2
    rw [hfree] at hsome
    cases hsome

theorem broker_step {x : Sent} {b : TerminalBroker.State} (hi : Inv plans s) (h : Handles j n x s)
    (hb : ∀ sid, TerminalBroker.Active b sid → Active s sid ∨ x.request.starts = some sid) :
    Writes j s { s with broker := b } ∧ Inv plans { s with broker := b } ∧
      Handles j n x { s with broker := b } := by
  refine ⟨fun k hk => ?_, ?_, ⟨h.taken, h.answered, h.sent, h.epoch⟩⟩
  · refine { Apart.refl k s with active := fun m sid hm hlive _ ha => ?_ }
    rcases hb sid ha with hold | hstarts
    · exact hold
    · obtain rfl := (hi.standing_of_live (h.live hstarts)).2 m hlive
      exact absurd (Option.some.inj (hm.symm.trans h.taken)) hk
  · refine { hi with sound := fun sid => ?_ }
    have hsound := hi.sound sid
    rw [Sound] at hsound ⊢
    by_cases hold : TerminalBroker.Active b sid → Active s sid
    · have hstanding : ({ s with broker := b } : State).standing sid = s.standing sid := rfl
      rw [hstanding]
      cases hs : s.standing sid with
      | settled k =>
        rw [hs] at hsound
        exact hsound
      | free =>
        rw [hs] at hsound
        exact ⟨hsound.1, fun ha => hsound.2 (hold ha)⟩
      | checked k =>
        rw [hs] at hsound
        exact ⟨hsound.1, fun ha => hsound.2 (hold ha)⟩
      | asked k m =>
        rw [hs] at hsound
        exact ⟨hsound.1, hsound.2.1, fun ha => hsound.2.2 (hold ha)⟩
    · obtain ⟨ha, hnot⟩ := Classical.not_imp.mp hold
      have hstarts := (hb sid ha).resolve_left hnot
      obtain ⟨⟨k, hs⟩, hunique⟩ := hi.standing_of_live (h.live hstarts)
      have hstanding : ({ s with broker := b } : State).standing sid = .asked k n := hs
      rw [hstanding]
      refine ⟨hunique, ⟨x, h.sent, hstarts⟩, fun _ => ⟨fun hlost => ?_, ?_⟩⟩
      · exact Lost.not_live (s := s) hlost (h.live hstarts)
      · rw [h.taken]
        rfl

def Replied (x : Sent) (reply : Except String Response) (s : State) : Prop :=
  match reply with
  | .ok response => TerminalBroker.Answers x.request response
  | .error _ => TerminalBroker.Inactive x.request s.broker

theorem answer_step {x : Sent} (reply : Except String Response) (hi : Inv plans s)
    (h : Handles j n x s) (hr : Replied x reply s) :
    Writes j s (s.answer n reply) ∧ Inv plans (s.answer n reply) := by
  have hself : (s.answer n reply).answered n = some reply := by simp [State.answer]
  have hother : ∀ m, m ≠ n → (s.answer n reply).answered m = s.answered m := fun m hne => by
    simp [State.answer, hne]
  have hlive : ∀ m sid, Live (s.answer n reply) m sid → Live s m sid := by
    rintro m sid ⟨y, hy, hstarts, hepoch, hanswered⟩
    refine ⟨y, hy, hstarts, hepoch, ?_⟩
    by_cases hne : m = n
    · subst hne
      exact h.answered
    · exact (hother m hne).symm.trans hanswered
  refine ⟨fun k hk => ?_, ?_⟩
  · have hne : ∀ m, s.taken m = some k → m ≠ n := by
      rintro m hm rfl
      exact hk (Option.some.inj (hm.symm.trans h.taken))
    exact {
      Apart.refl k s with
      answered := fun m r hm => by
        have hmn : m ≠ n := by
          rintro rfl
          rw [h.answered] at hm
          cases hm
        rw [hother m hmn]
        exact hm
      taken := fun m hm => ⟨hm, hother m (hne m hm)⟩ }
  · refine { hi with answers := ?_, untaken := fun m hm => ?_, sound := fun sid => ?_ }
    · intro m y response hy hm
      by_cases hne : m = n
      · subst hne
        obtain rfl : reply = .ok response := Option.some.inj (hself.symm.trans hm)
        obtain rfl : x = y := Option.some.inj (h.sent.symm.trans hy)
        exact hr
      · exact hi.answers m y response hy ((hother m hne).symm.trans hm)
    · have hne : m ≠ n := by
        rintro rfl
        exact nomatch h.taken.symm.trans hm
      exact (hother m hne).trans (hi.untaken m hm)
    · have hsound := hi.sound sid
      rw [Sound] at hsound ⊢
      have hstanding : (s.answer n reply).standing sid = s.standing sid := rfl
      rw [hstanding]
      cases hs : s.standing sid with
      | free | checked | settled =>
        rw [hs] at hsound
        exact ⟨fun m hm => hsound.1 m (hlive m sid hm), hsound.2⟩
      | asked k m =>
        rw [hs] at hsound
        refine ⟨fun i hi => hsound.1 i (hlive i sid hi), hsound.2.1, fun ha => ⟨?_,
          (hsound.2.2 ha).2⟩⟩
        rintro (⟨code, hcode⟩ | hold)
        · by_cases hne : m = n
          · subst hne
            obtain rfl : reply = .error code := Option.some.inj (hself.symm.trans hcode)
            obtain ⟨y, hy, hstarts⟩ := hsound.2.1
            obtain rfl : x = y := Option.some.inj (h.sent.symm.trans hy)
            exact hr sid hstarts ha
          · exact (hsound.2.2 ha).1 (.inl ⟨code, (hother m hne).symm.trans hcode⟩)
        · exact (hsound.2.2 ha).1 (.inr hold)

theorem restart_step (hi : Inv plans s) : Inv plans s.restart ∧ ∀ k, Apart k s s.restart := by
  have hactive : ∀ sid, ¬Active s.restart sid := by
    rintro sid ⟨session, hs, -⟩
    cases hs
  have hlive : ∀ m sid, ¬Live s.restart m sid := by
    rintro m sid ⟨y, hy, -, hepoch, -⟩
    have hle := hi.epochs m y hy
    have : y.epoch = s.epoch + 1 := hepoch
    omega
  refine ⟨{ hi with epochs := fun m y hy => ?_, sound := fun sid => ?_ }, fun k =>
    { Apart.refl k s with
      epoch := Nat.le_succ _
      active := fun _ _ _ _ _ ha => absurd ha (hactive _) }⟩
  · exact Nat.le_succ_of_le (hi.epochs m y hy)
  · have hsound := hi.sound sid
    rw [Sound] at hsound ⊢
    have hstanding : s.restart.standing sid = s.standing sid := rfl
    rw [hstanding]
    cases hs : s.standing sid with
    | free => exact ⟨fun m => hlive m sid, fun ha => absurd ha (hactive sid)⟩
    | checked k => exact ⟨fun m => hlive m sid, hactive sid⟩
    | settled k =>
      rw [hs] at hsound
      exact ⟨fun m => hlive m sid, hsound.2⟩
    | asked k m =>
      rw [hs] at hsound
      exact ⟨fun i hi => absurd hi (hlive i sid), hsound.2.1, fun ha => absurd ha (hactive sid)⟩

theorem sound_outside {now : DateTime} {machine : TerminalBroker.Machine} (h : Sound s sid) :
    Sound { s with broker := { s.broker with now, machine } } sid := by
  rw [Sound] at h ⊢
  have hstanding : ({ s with broker := { s.broker with now, machine } } : State).standing sid =
      s.standing sid := rfl
  rw [hstanding]
  cases hs : s.standing sid with
  | free | checked | settled | asked =>
    rw [hs] at h
    exact h

end Requests

end Ares.Terminals
