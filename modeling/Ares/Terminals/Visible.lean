import Ares.TerminalBroker.Sandbox
import Ares.Terminals.Standing

/-! An open terminal and the check before an exit.  Two calls that read the same session as startable
both ask the broker to start it; the one that loses stores its own copy as failed, over the session
that the other one has opened.  Where a session is read as startable by one call at a time, where a
start is given up only when the broker has lost it, and where the store takes what the broker has
started, every active session of the broker is stored in a state that blocks an exit. -/

namespace Ares.Terminals

open Coop Data
open TerminalBroker (Response)

section Calls

variable {cfg : Config} {planId : String} {plans : String → Option TerminalPlan} {j n : Nat}
  {s : State} {sid : String} {standing : Standing} {plan : TerminalPlan}
  {session : TerminalSession}

theorem attempt_spec {c : Call} {Q : c.Answer → State → Prop} {E : Error → State → Prop}
    (h : ∀ s', Inv plans s' → Apart j s s' → ∀ r : Except Error c.Answer,
      (carefulStarts cfg planId).answers s' (.call c) r →
        (∀ a, r = .ok a → Q a s') ∧ ∀ e, r = .error e → E e s') :
    (attempt c).Spec (logic cfg planId plans j) Q E s :=
  spec_bind.mpr fun s' hi hr r ha => spec_ofExcept.mpr (h s' hi hr r ha)

theorem outside_keeps {α : Type} {p : Task α} (quiet : p.Quiet) :
    p.Keeps (logic cfg planId plans j) (Outside j) :=
  quiet.keeps fun _ _ hr h => h.apart hr

theorem holds_keeps {α : Type} {p : Task α} (quiet : p.Quiet)
    (hstanding : standing.holder = some j ∨ standing = .settled j) :
    p.Keeps (logic cfg planId plans j) (Holds j sid standing) :=
  quiet.keeps fun _ _ hr h => h.apart hr hstanding

theorem getPlan_spec (hi : Inv plans s) (h : Outside j s) :
    (getPlan planId).Spec (logic cfg planId plans j)
      (fun found s' => Inv plans s' ∧ Outside j s' ∧
        ∀ plan, found = some plan → plans planId = some plan)
      (fun _ s' => Inv plans s' ∧ Leaving j s') s := by
  refine spec_bind.mpr (spec_require.mpr ⟨fun _ => ?_, fun _ => ⟨hi, h.leaving⟩⟩)
  refine (outside_keeps quiet_attempt).spec_bind hi h (fun there s1 hi1 h1 => ?_)
    fun _ _ hi' h' => ⟨hi', h'.leaving⟩
  refine spec_bind.mpr (spec_reading.mpr ?_)
  refine (outside_keeps quiet_attempt).spec_bind hi1 h1 (fun _ s2 hi2 h2 => ?_)
    fun _ _ hi' h' => ⟨hi', h'.leaving⟩
  refine ⟨hi2, h2, fun plan hplan => ?_⟩
  rw [hi1.plans] at hplan
  split at hplan
  · exact hplan
  · cases hplan

/-- The session that a call has read is startable, and the call holds it. -/
structure Startable (j : Nat) (sid : String) (session : TerminalSession) (s : State) : Prop where
  id : session.id = sid
  safe : safeId sid = true
  holds : Holds j sid (.checked j) s

theorem getSession_spec (hi : Inv plans s) (h : Outside j s) :
    (getSession true (State.check j sid) sid).Spec (logic cfg planId plans j)
      (fun found s' => Inv plans s' ∧ Leaving j s' ∧ ∀ session, found = some session →
        session.status.startable = true → Startable j sid session s')
      (fun _ s' => Inv plans s' ∧ Leaving j s') s := by
  refine spec_bind.mpr (spec_require.mpr ⟨fun hsafe => ?_, fun _ => ⟨hi, h.leaving⟩⟩)
  refine spec_bind.mpr (attempt_spec fun s1 hi1 hr1 r ha =>
    ⟨fun there hr => ?_, fun _ _ => ⟨hi1, (h.apart hr1).leaving⟩⟩)
  have h1 := h.apart hr1
  by_cases hc : (there && s1.startable sid) = true
  · obtain ⟨rfl, hstart⟩ := (Bool.and_eq_true _ _).mp hc
    obtain ⟨-, hwrites, hi2⟩ := check_step hi1 h1.working hstart (ha.2 hr hstart)
    have hcheck : s1.check j sid true = s1.stand sid (.checked j) := by
      simp [State.check, hstart]
    have h2 : Holds j sid (.checked j) (s1.check j sid true) := by
      rw [hcheck]
      refine ⟨h1.working, by simp [State.stand], fun sid' hne => ?_⟩
      simpa [State.stand, hne] using h1.only sid'
    refine ⟨hcheck ▸ hwrites, hcheck ▸ hi2, ?_⟩
    show Proc.Spec _ (Proc.bind (attempt .joined) _) _ _ _
    refine (holds_keeps quiet_attempt (.inl rfl)).spec_bind (hcheck ▸ hi2) h2
      (fun _ s3 hi3 h3 => ⟨hi3, h3.leaving (by simp), fun session hs _ => ?_⟩)
      fun _ _ hi' h' => ⟨hi', h'.leaving (by simp)⟩
    exact ⟨hi1.keyed sid session hs, hsafe, h3⟩
  · have hcheck : s1.check j sid there = s1 := by simp [State.check, hc]
    refine ⟨?_, ?_, (outside_keeps quiet_attempt).spec_bind (s := s1.check j sid there) ?_ ?_
      (fun _ s3 hi3 h3 => ⟨hi3, h3.leaving, fun session hs hstart => ?_⟩)
      fun _ _ hi' h' => ⟨hi', h'.leaving⟩⟩
    · rw [hcheck]
      exact fun k _ => .refl k s1
    · exact hcheck.symm ▸ hi1
    · exact hcheck.symm ▸ hi1
    · exact hcheck.symm ▸ h1
    · refine absurd ?_ hc
      cases there with
      | false => cases hs
      | true =>
        have hs' : s1.sessions sid = some session := hs
        simp [State.startable, hs', hstart]

/-- The holder of a session that the broker does not start any more. -/
structure Back (j : Nat) (sid : String) (standing : Standing) (s : State) : Prop where
  holds : Holds j sid standing s
  holder : standing.holder = some j
  lost : ∀ n, standing = .asked j n → Lost s n

theorem Back.apart {s' : State} (hr : Apart j s s') (h : Back j sid standing s) :
    Back j sid standing s' :=
  ⟨h.holds.apart hr (.inl h.holder), h.holder, fun n hn => (h.lost n hn).apart hr⟩

theorem Back.leaving (h : Back j sid standing s) : Leaving j s := h.holds.leaving h.lost

theorem Holds.back (h : Holds j sid (.checked j) s) : Back j sid (.checked j) s :=
  ⟨h, rfl, fun _ hn => nomatch hn⟩

theorem back_keeps {α : Type} {p : Task α} (quiet : p.Quiet) :
    p.Keeps (logic cfg planId plans j) (Back j sid standing) :=
  quiet.keeps fun _ _ hr h => h.apart hr

variable (session) in
theorem putSession_keeps (hid : session.id = sid) :
    (putSession session id).Keeps (logic cfg planId plans j) (Back j sid standing) := by
  refine (back_keeps quiet_require).bind fun _ => (back_keeps quiet_attempt).bind fun _ => ?_
  refine Proc.Keeps.bind (keeps_modify fun s hi h => ?_) fun _ => back_keeps quiet_attempt
  obtain ⟨hwrites, hi', h'⟩ := store_step hi h.holds h.holder hid
  exact ⟨hwrites, hi', h', h.holder, h.lost⟩

theorem failStart_spec (hi : Inv plans s) (h : Back j sid standing s) (hid : session.id = sid)
    (e : Error) {Q : TerminalSession → State → Prop} :
    (failStart session e).Spec (logic cfg planId plans j) Q
      (fun _ s' => Inv plans s' ∧ Leaving j s') s := by
  cases e with
  | executor code =>
    exact (putSession_keeps (failedSession session code) hid).spec_bind hi h
      (fun _ _ hi' h' => ⟨hi', h'.leaving⟩) fun _ _ hi' h' => ⟨hi', h'.leaving⟩
  | _ => exact ⟨hi, h.leaving⟩

/-- A call that has what it stores as started: nobody else starts the session any more. -/
structure Ready (j : Nat) (sid : String) (s : State) : Prop where
  holds : Holds j sid (.checked j) s ∨
    ∃ n response, Holds j sid (.asked j n) s ∧ s.answered n = some (.ok response)

theorem Ready.apart {s' : State} (hr : Apart j s s') (h : Ready j sid s) : Ready j sid s' :=
  ⟨h.holds.imp (Holds.apart hr (.inl rfl)) fun ⟨n, response, hn, ha⟩ =>
    ⟨n, response, hn.apart hr (.inl rfl), hr.answered n _ ha⟩⟩

theorem Ready.not_live (hi : Inv plans s) (h : Ready j sid s) (m : Nat) : ¬Live s m sid := by
  have hsound := hi.sound sid
  rw [Sound] at hsound
  rcases h.holds with hc | ⟨n, response, hn, ha⟩
  · rw [hc.standing] at hsound
    exact hsound.1 m
  · rw [hn.standing] at hsound
    rintro hm
    obtain rfl := hsound.1 m hm
    obtain ⟨-, -, -, -, hnone⟩ := hm
    rw [ha] at hnone
    cases hnone

/-- A session that is started: by the broker, or as a request to the graphical session. -/
structure Started (j : Nat) (sid : String) (session : TerminalSession) (s : State) : Prop where
  id : session.id = sid
  status : session.status = .active
  ready : Ready j sid s

theorem authorize_spec (hi : Inv plans s) (h : Back j sid standing s) (uid : Int)
    (plan : TerminalPlan) : (ask (authorizeRequest plan uid) fun _ s => s).Spec
      (logic cfg planId plans j) (fun _ s' => Inv plans s' ∧ Back j sid standing s')
      (fun _ s' => Inv plans s' ∧ Back j sid standing s') s := by
  refine (back_keeps quiet_attempt).spec_bind hi h (fun _ s1 hi1 h1 => ?_)
    fun _ _ hi' h' => ⟨hi', h'⟩
  refine spec_bind.mpr (spec_reading.mpr ?_)
  obtain ⟨hwrites, hi2⟩ := send_step (j := j) (authorizeRequest plan uid) hi1 rfl
  refine spec_bind.mpr ⟨hwrites, hi2, back_keeps quiet_attempt _ hi2 ⟨?_, h1.holder, ?_⟩⟩
  · exact ⟨h1.holds.working, h1.holds.standing, h1.holds.only⟩
  · rintro n rfl
    have hsound := hi1.sound sid
    rw [Sound, h1.holds.standing] at hsound
    exact (lost_send hsound.2.1).mpr (h1.lost n rfl)

theorem start_spec (hi : Inv plans s) (h : Holds j plan.sessionId (.checked j) s)
    (grant : TerminalBroker.TerminalAuthorizationGrant) :
    (ask (startRequest plan grant) fun n => State.stand plan.sessionId (.asked j n)).Spec
      (logic cfg planId plans j)
      (fun response s' => Inv plans s' ∧ Ready j plan.sessionId s' ∧
        ∃ b, response = .session b ∧ b.id = plan.sessionId ∧ b.status = .active)
      (fun _ s' => Inv plans s' ∧ ∃ standing, Back j plan.sessionId standing s') s := by
  refine (back_keeps quiet_attempt).spec_bind hi h.back (fun _ s1 hi1 h1 => ?_)
    fun _ _ hi' h' => ⟨hi', _, h'⟩
  refine spec_bind.mpr (spec_reading.mpr ?_)
  have hstarts : (startRequest plan grant).starts = some plan.sessionId := rfl
  obtain ⟨hwrites, hi2, h2⟩ := ask_step hi1 h1.holds hstarts rfl
  refine spec_bind.mpr ⟨hwrites, hi2, attempt_spec fun s3 hi3 hr3 r ha => ?_⟩
  have h3 := h2.apart hr3 (.inl rfl)
  have hsent := hr3.sent s1.sent.length ⟨s1.epoch, startRequest plan grant⟩
    (by simp [State.stand, State.send])
  refine ⟨fun response hr => ?_, fun e hr => ?_⟩
  · subst hr
    have hanswered : s3.answered s1.sent.length = some (.ok response) := ha.1
    exact ⟨hi3, ⟨.inr ⟨_, response, h3, hanswered⟩⟩,
      hi3.answers _ _ response hsent hanswered _ hstarts⟩
  · subst hr
    refine ⟨hi3, _, h3, rfl, ?_⟩
    rintro n ⟨⟩
    exact ha.2 ⟨_, _, hsent, hstarts⟩

theorem execute_spec (hi : Inv plans s) (h : Holds j plan.sessionId (.checked j) s) (uid : Int) :
    (execute j plan uid).Spec (logic cfg planId plans j)
      (fun started s' => Inv plans s' ∧ Started j plan.sessionId started s')
      (fun _ s' => Inv plans s' ∧ ∃ standing, Back j plan.sessionId standing s') s := by
  refine spec_bind.mpr ((authorize_spec hi h.back uid plan).mono (fun granted s1 h1 => ?_)
    fun _ _ h' => ⟨h'.1, _, h'.2⟩)
  obtain ⟨hi1, h1⟩ := h1
  have hgrant : (grantOf granted).Quiet := by cases granted <;> trivial
  refine (back_keeps hgrant).spec_bind hi1 h1 (fun grant s2 hi2 h2 => ?_)
    fun _ _ hi' h' => ⟨hi', _, h'⟩
  refine spec_bind.mpr ((start_spec hi2 h2.holds grant).mono (fun response s3 h3 => ?_)
    fun _ _ h' => h')
  obtain ⟨hi3, hready, b, rfl, hid, hstatus⟩ := h3
  refine ⟨hi3, hid, ?_, hready⟩
  show TerminalSessionStatus.ofBroker b.status = .active
  rw [hstatus]
  rfl

theorem startInstalled_spec (hi : Inv plans s) (h : Holds j plan.sessionId (.checked j) s)
    (hid : session.id = plan.sessionId) (uid : Int) :
    (startInstalled cfg j plan session uid).Spec (logic cfg planId plans j)
      (fun started s' => Inv plans s' ∧ Started j plan.sessionId started s')
      (fun _ s' => Inv plans s' ∧ Leaving j s') s := by
  have hquiet : (revalidateTarget cfg plan).Quiet :=
    quiet_require.bind fun _ => quiet_attempt.bind fun _ => quiet_ofOption.bind
      fun _ => quiet_require.bind fun _ => quiet_require
  refine (back_keeps hquiet).spec_bind hi h.back (fun _ s1 hi1 h1 => ?_)
    fun _ _ hi' h' => ⟨hi', h'.leaving⟩
  refine spec_handle.mpr ((execute_spec hi1 h1.holds uid).mono (fun _ _ h' => h')
    fun e s2 h2 => ?_)
  obtain ⟨hi2, standing, h2⟩ := h2
  exact failStart_spec hi2 h2 hid e

theorem startSession_spec (hi : Inv plans s) (h : Holds j plan.sessionId (.checked j) s)
    (hid : session.id = plan.sessionId) (uid : Int) :
    (startSession cfg j plan session uid).Spec (logic cfg planId plans j)
      (fun started s' => Inv plans s' ∧ Started j plan.sessionId started s')
      (fun _ s' => Inv plans s' ∧ Leaving j s') s := by
  rw [startSession]
  split
  · refine (back_keeps quiet_attempt).spec_bind hi h.back (fun _ s1 hi1 h1 => ?_)
      fun _ _ hi' h' => ⟨hi', h'.leaving⟩
    exact ⟨hi1, hid, rfl, ⟨.inl h1.holds⟩⟩
  · exact startInstalled_spec hi h hid uid
  · exact ⟨hi, h.back.leaving⟩

theorem settle_spec (h : Started j sid session s) (hsafe : safeId sid = true) :
    (putSession session (State.stand sid (.settled j))).Spec (logic cfg planId plans j)
      (fun _ s' => Inv plans s' ∧ Holds j sid (.settled j) s')
      (fun _ s' => Inv plans s' ∧ Leaving j s') s := by
  obtain ⟨rfl, hstatus, hready⟩ := h
  refine spec_bind.mpr (spec_require.mpr ⟨fun _ => ?_, fun hno => ?_⟩)
  · refine spec_bind.mpr (attempt_spec fun s1 hi1 hr1 r ha => ?_)
    have h1 := hready.apart hr1
    refine ⟨fun _ _ => ?_, fun e hr => ⟨hi1, ?_⟩⟩
    · obtain ⟨standing, hholds, hholder⟩ : ∃ standing, Holds j session.id standing s1 ∧
          standing.holder = some j := h1.holds.elim (fun hc => ⟨_, hc, rfl⟩)
        fun ⟨n, _, hn, _⟩ => ⟨_, hn, rfl⟩
      obtain ⟨hwrites, hi2, h2⟩ := settle_step hi1 hholds hholder rfl hstatus
        (h1.not_live hi1)
      refine ⟨hwrites, hi2, ?_⟩
      show Proc.Spec _ (attempt .joined) _ _ _
      exact (holds_keeps quiet_attempt (.inr rfl) _ hi2 h2).mono (fun _ _ h' => h')
        fun _ _ h' => ⟨h'.1, h'.2.leaving (by simp)⟩
    · rcases h1.holds with hc | ⟨n, response, hn, -⟩
      · exact hc.back.leaving
      · exact nomatch hr.symm.trans (ha.2 hstatus ⟨j, n, hn.standing⟩)
  · rw [hsafe] at hno
    cases hno

theorem audit_quiet (eventType sessionId : String) (payload : Fields) :
    (audit cfg eventType sessionId payload).Quiet :=
  quiet_attempt.handle fun e => by
    split
    · exact quiet_ret
    · exact quiet_raise (e := e)

/-- A call that returns has stored the session of its plan as started. -/
def Accepted (planId : String) (plans : String → Option TerminalPlan) (j : Nat) (s : State) :
    Prop :=
  ∃ plan, plans planId = some plan ∧ s.standing plan.sessionId = .settled j

theorem startPlan_spec (hi : Inv plans s) (hplan : plans planId = some plan)
    (h : Startable j plan.sessionId session s) (payload : TerminalAuthorizationRequest) (uid : Int) :
    (startPlan cfg j plan session payload uid).Spec (logic cfg planId plans j)
      (fun _ s' => Inv plans s' ∧ Leaving j s' ∧ Accepted planId plans j s')
      (fun _ s' => Inv plans s' ∧ Leaving j s') s := by
  refine spec_bind.mpr (spec_require.mpr
    ⟨fun _ => ?_, fun _ => ⟨hi, h.holds.back.leaving⟩⟩)
  refine spec_bind.mpr ((startSession_spec hi h.holds h.id uid).mono
    (fun started s1 h1 => ?_) fun _ _ h' => h')
  refine spec_bind.mpr ((settle_spec h1.2 h.safe).mono (fun _ s2 h2 => ?_)
    fun _ _ h' => h')
  refine (holds_keeps (audit_quiet _ _ _) (.inr rfl)).spec_bind h2.1 h2.2
    (fun _ s3 hi3 h3 => ⟨hi3, h3.leaving (by simp), plan, hplan, h3.standing⟩)
    fun _ _ hi' h' => ⟨hi', h'.leaving (by simp)⟩

theorem authorizeAndStart_spec (hi : Inv plans s) (h : Outside j s)
    (payload : TerminalAuthorizationRequest) (uid : Int) :
    (authorizeAndStart cfg j planId payload uid).Spec (logic cfg planId plans j)
      (fun _ s' => Inv plans s' ∧ Leaving j s' ∧ Accepted planId plans j s')
      (fun _ s' => Inv plans s' ∧ Leaving j s') s := by
  refine spec_bind.mpr ((getPlan_spec hi h).mono (fun found s1 h1 => ?_) fun _ _ h' => h')
  obtain ⟨hi1, h1, hplan⟩ := h1
  refine spec_bind.mpr (spec_ofOption.mpr
    ⟨fun plan hfound => ?_, fun _ => ⟨hi1, h1.leaving⟩⟩)
  refine spec_bind.mpr ((getSession_spec hi1 h1).mono (fun found s2 h2 => ?_) fun _ _ h' => h')
  obtain ⟨hi2, hleaving, hstartable⟩ := h2
  refine spec_bind.mpr (spec_ofOption.mpr
    ⟨fun session hsession => ?_, fun _ => ⟨hi2, hleaving⟩⟩)
  refine spec_bind.mpr (spec_require.mpr
    ⟨fun hstatus => ?_, fun _ => ⟨hi2, hleaving⟩⟩)
  have hs := hstartable session hsession hstatus
  refine spec_bind.mpr (spec_reading.mpr ?_)
  split
  · exact (putSession_keeps { session with status := .expired } hs.id).spec_bind hi2
      hs.holds.back (fun _ _ hi' h' => ⟨hi', h'.leaving⟩) fun _ _ hi' h' => ⟨hi', h'.leaving⟩
  · exact startPlan_spec hi2 (hplan plan hfound) hs payload uid

theorem serve_spec (hi : Inv plans s) (hopen : s.open n) :
    (serve cfg j n).Spec (logic cfg planId plans j) (fun _ _ => True) (fun _ _ => True) s := by
  obtain ⟨x, hx, hepoch, hfree⟩ := hopen
  obtain ⟨hwrites, hi1, h1, hinactive⟩ := take_step (j := j) hi hfree hx hepoch
  refine ⟨hwrites, hi1, ?_⟩
  show Proc.Spec _ (handleSent cfg j n (s.sent[n]?)) _ _ (s.take j n)
  rw [hx]
  have hdispatched : (dispatched cfg j x).Spec (logic cfg planId plans j)
      (fun response s' => Inv plans s' ∧ Handles j n x s' ∧
        TerminalBroker.Answers x.request response)
      (fun e s' => ∃ e', e = .broker e' ∧ Inv plans s' ∧ Handles j n x s' ∧
        TerminalBroker.Inactive x.request s'.broker) (s.take j n) := by
    refine Proc.Spec.interp (s := s.take j n) (L := logic cfg planId plans j) (P := Handles j n x)
      (TerminalBroker.dispatch_starts hinactive) hi1 h1
      (fun s b hi h hb _ => ⟨rfl, broker_step hi h hb⟩) fun o s hi h s' hi' hr r ha => ?_
    have hepoch' : x.epoch = s'.epoch := ha.1
    have hlive : s'.epoch = s.epoch := hepoch'.symm.trans h.epoch
    refine ⟨hi', ⟨(hr.taken n h.taken).1, (hr.taken n h.taken).2.trans h.answered,
      hr.sent n x h.sent, hepoch'⟩, trivial, fun sid hstarts ha => ?_, trivial⟩
    exact hr.active n sid h.taken (h.live hstarts) hlive ha
  refine spec_bind.mpr (spec_observe.mpr (hdispatched.mono (fun response s' h' => ?_)
    fun e s' h' => ?_))
  · obtain ⟨hi', hh, hanswers⟩ := h'
    obtain ⟨hwrites', hi''⟩ := answer_step (.ok response) hi' hh hanswers
    exact ⟨hwrites', hi'', trivial⟩
  · obtain ⟨e', rfl, hi', hh, hinactive'⟩ := h'
    obtain ⟨hwrites', hi''⟩ := answer_step (.error (codeOf e')) hi' hh hinactive'
    exact ⟨hwrites', hi'', trivial⟩

theorem Accepted.apart {k : Nat} {s' : State} (hr : Apart k s s') (h : Accepted planId plans j s) :
    Accepted planId plans j s' := by
  obtain ⟨plan, hplan, hs⟩ := h
  exact ⟨plan, hplan, hr.settled _ j hs⟩

theorem Accepted.leave (h : Accepted planId plans j s) : Accepted planId plans j (s.leave j) := by
  obtain ⟨plan, hplan, hs⟩ := h
  exact ⟨plan, hplan, by simp [State.leave, hs, Standing.holder]⟩

end Calls

def Returned (planId : String) (plans : String → Option TerminalPlan) (j : Nat) (s : State) :
    Request → Prop
  | .authorizeAndStart _ _ _ => Accepted planId plans j s
  | _ => True

def contract (cfg : Config) (planId : String) (plans : String → Option TerminalPlan) :
    Contract (carefulStarts cfg planId) where
  inv := Inv plans
  rely := Apart
  guar := Writes
  fresh j s := (∀ sid, (s.standing sid).holder ≠ some j) ∧ ∀ n, s.taken n ≠ some j
  post j t _ s := Returned planId plans j s t
  postE _ _ _ _ := True
  refl := .refl
  trans _ _ _ _ := .trans
  guar_rely j k _ _ hne hg := hg k (Ne.symm hne)
  fresh_rely _ _ _ h hr := ⟨fun sid hs => h.1 sid (hr.holds sid hs), fun n hn =>
    h.2 n (hr.takes n hn)⟩
  post_rely j t _ _ _ h hr := by
    cases t with
    | authorizeAndStart => exact Accepted.apart hr h
    | _ => trivial
  postE_rely _ _ _ _ _ _ _ := trivial
  world s w hi _ := by
    cases w with
    | restart => exact restart_step hi
    | outside now machine =>
      exact ⟨{ hi with sound := fun sid => sound_outside (hi.sound sid) },
        fun k => { Apart.refl k s with active := fun _ _ _ _ _ ha => ha }⟩
  handler j t s hi hfresh hadmits := by
    cases t with
    | createPlan | close => exact hadmits.2.elim
    | serve n =>
      exact spec_bind.mpr ((serve_spec hi hadmits.1).mono (fun _ _ _ => trivial)
        fun _ _ _ => trivial)
    | authorizeAndStart planId' payload uid =>
      obtain rfl : planId' = planId := hadmits.2
      obtain ⟨hwrites, hi1⟩ := begin_step (j := j) hi
      have h1 : Outside j (s.begin j) := ⟨List.mem_cons_self, hfresh.1⟩
      refine ⟨hwrites, hi1, spec_andFinally.mpr (spec_bind.mpr
        ((authorizeAndStart_spec hi1 h1 payload uid).mono (fun result s2 h2 => ?_)
          fun e s2 h2 => ?_))⟩
      · obtain ⟨hwrites', hi'⟩ := leave_step h2.1 h2.2.1
        exact ⟨hwrites', hi', h2.2.2.leave⟩
      · obtain ⟨hwrites', hi'⟩ := leave_step h2.1 h2.2
        exact ⟨hwrites', hi', trivial⟩

def Opened (p : Pool State Res Error Outcome Request) (planId : String) (j : Nat) : Prop :=
  ∃ payload uid result, result.accepted = true ∧
    p.ended j = some (.authorizeAndStart planId payload uid, some (.ok (.started result)))

/-- While no call is in progress, an active session is one that blocks an exit; and one call at most
has opened it. -/
def Visible (p : Pool State Res Error Outcome Request) (planId : String) : Prop :=
  (p.state.working = [] → ∀ plan, p.state.plans planId = some plan →
    Active p.state plan.sessionId → Blocking p.state plan.sessionId) ∧
  ∀ i j, Opened p planId i → Opened p planId j → i = j

/-- A store under its keys, in which every active session of the broker blocks an exit. -/
structure Stored (sessions : String → Option TerminalSession) (broker : TerminalBroker.State) :
    Prop where
  keyed : ∀ k session, sessions k = some session → session.id = k
  visible : ∀ sid, TerminalBroker.Active broker sid →
    ∃ session, sessions sid = some session ∧ session.status.blocking = true

theorem inv_initial (plans : String → Option TerminalPlan)
    {sessions : String → Option TerminalSession} {broker : TerminalBroker.State}
    (h : Stored sessions broker) : Inv plans (State.initial plans sessions broker) where
  plans := rfl
  keyed := h.keyed
  epochs _ _ hx := nomatch hx
  held _ _ hk := nomatch hk
  answers _ _ _ hx := nomatch hx
  unsent _ _ := rfl
  untaken _ _ := rfl
  sound sid := by
    show (∀ n, ¬Live _ n sid) ∧ (Active _ sid → Blocking _ sid)
    exact ⟨fun _ ⟨_, hx, _⟩ => (nomatch hx), h.visible sid⟩

/-- In every run of careful calls, an open terminal is visible. -/
theorem visible_of_careful (cfg : Config) (planId : String) (plans : String → Option TerminalPlan)
    (sessions : String → Option TerminalSession) (broker : TerminalBroker.State)
    (hstored : Stored sessions broker) (p : Pool State Res Error Outcome Request)
    (reach : (carefulStarts cfg planId).Reachable (State.initial plans sessions broker) p) :
    Visible p planId := by
  have hC : (contract cfg planId plans).Holds p :=
    (contract cfg planId plans).sound (inv_initial plans hstored)
      (fun _ => ⟨fun _ h => (nomatch h), fun _ h => nomatch h⟩)
      reach
  have hi : Inv plans p.state := hC.inv
  refine ⟨fun hidle plan hplan ha => ?_, fun i j hopened hopened' => ?_⟩
  · have hsound := hi.sound plan.sessionId
    have hheld := hi.held plan.sessionId
    rw [hidle] at hheld
    rw [Sound] at hsound
    cases hs : p.state.standing plan.sessionId with
    | free =>
      rw [hs] at hsound
      exact hsound.2 ha
    | settled k =>
      rw [hs] at hsound
      exact hsound.2
    | checked k | asked k n => exact absurd (hheld k (by rw [hs]; rfl)) (List.not_mem_nil)
  · have accepted : ∀ k, Opened p planId k → Accepted planId plans k p.state := by
      rintro k ⟨payload, uid, result, -, hended⟩
      exact (hC.tasks k _ _ (Pool.task_of_ended hended)).2
    obtain ⟨plan, hplan, hs⟩ := accepted i hopened
    obtain ⟨plan', hplan', hs'⟩ := accepted j hopened'
    obtain rfl : plan = plan' := Option.some.inj (hplan.symm.trans hplan')
    rw [hs] at hs'
    cases hs'
    rfl

/-! ### Sample runs -/

deriving instance DecidableEq for TerminalBroker.Response

def allowed (s : State) : (o : Op) → Res o → Bool
  | .call (.reply n), .ok response => s.answered n = some (.ok response)
  | .call _, _ => true
  | .broker epoch _, _ => epoch = s.epoch

theorem answers_of_allowed (cfg : Config) {s : State} {o : Op} {r : Res o}
    (h : allowed s o r = true) : (system cfg).answers s o r := by
  cases o with
  | broker epoch o => exact of_decide_eq_true (p := epoch = s.epoch) h
  | call c =>
    cases c with
    | reply n =>
      cases r with
      | ok response => exact of_decide_eq_true (p := s.answered n = some (.ok response)) h
      | error e => exact trivial
    | _ => exact trivial

def carefully (s : State) : (o : Op) → Res o → Bool
  | .call (.read (.session sid) true), _ => !s.startable sid || (s.standing sid).holder.isNone
  | .call (.reply _), .error _ | .call (.writeSession _), .error _ => false
  | o, r => allowed s o r

theorem careful_of_carefully {cfg : Config} {planId : String} {s : State} {o : Op} {r : Res o}
    (h : carefully s o r = true) : (carefulStarts cfg planId).answers s o r := by
  cases o with
  | broker epoch o => exact ⟨of_decide_eq_true (p := epoch = s.epoch) h, trivial⟩
  | call c =>
    cases c with
    | reply n =>
      cases r with
      | ok response =>
        exact ⟨of_decide_eq_true (p := s.answered n = some (.ok response)) h, trivial⟩
      | error e => cases h
    | writeSession session =>
      cases r with
      | ok => exact ⟨trivial, fun _ _ => rfl⟩
      | error e => cases h
    | read document starting =>
      cases document with
      | plan => exact ⟨trivial, trivial⟩
      | session sid =>
        cases starting with
        | false => exact ⟨trivial, trivial⟩
        | true =>
          refine ⟨trivial, fun _ hstart => ?_⟩
          simpa [carefully, hstart] using h
    | _ => exact ⟨trivial, trivial⟩

def isStarting (planId : String) (s : State) : Request → Bool
  | .authorizeAndStart planId' _ _ => planId' = planId
  | .serve n => match s.sent[n]? with
    | some x => x.epoch = s.epoch && s.taken n = none
    | none => false
  | _ => false

/-- The moves of calls that start one plan, with answers that `ok` lets through. -/
def startingMove (planId : String) (ok : State → (o : Op) → Res o → Bool)
    (p : Pool State Res Error Outcome Request) : Move Res Request World → Bool
  | .start request => isStarting planId p.state request
  | .resume j answer => match p.tasks[j]? with
    | some (_, .call o _) => ok p.state o (answer o)
    | _ => false
  | .world _ => true

theorem legal_of_startingMove {cfg : Config} {planId : String}
    (ok : State → (o : Op) → Res o → Bool) {answers : State → (o : Op) → Res o → Prop}
    (hok : ∀ s o r, ok s o r = true →
      ((system cfg).restrict (starting planId) answers).answers s o r)
    (p : Pool State Res Error Outcome Request) (m : Move Res Request World)
    (h : startingMove planId ok p m = true) :
    ((system cfg).restrict (starting planId) answers).Legal p m := by
  cases m with
  | world w => exact trivial
  | start request =>
    cases request with
    | createPlan | close => cases h
    | authorizeAndStart planId' payload uid =>
      exact ⟨trivial, of_decide_eq_true (p := planId' = planId) h⟩
    | serve n =>
      rw [startingMove, isStarting] at h
      split at h
      · next x hx =>
        simp only [Bool.and_eq_true, decide_eq_true_eq] at h
        exact ⟨⟨x, hx, h⟩, trivial⟩
      · cases h
  | resume j answer =>
    rw [startingMove] at h
    split at h
    · next t o k hj => exact ⟨t, o, k, hj, hok _ _ _ h⟩
    · cases h

def sampleLibrary : Library where
  targetFingerprint _ := ""
  targetRest _ := ""
  planRest _ _ _ _ := ""

def sampleConfig : Config where
  broker := TerminalBroker.sampleConfig
  lib := sampleLibrary
  uuid4 n := String.ofList (List.replicate (n + 8) 's')
  apiUid := 971
  test := false

def sampleResource : ResourceCandidate where
  resourceId := "system"
  humanName := ""
  kind := .operatingSystem
  operatingSystem := none
  technicalPath := some "/dev/sda1"
  technicalDetails := []
  rest := ""

/-- The plan of a terminal on the sample system. -/
def samplePlan : TerminalPlan :=
  planFor sampleLibrary (fun _ => "") "plan" "session1" .installedSystemReadOnly (some sampleResource)
    0

def sampleBroker : TerminalBroker.State := .start 0 TerminalBroker.emptyMachine

def samplePlans (id : String) : Option TerminalPlan := if id = "plan" then some samplePlan else none

def sampleSessions (id : String) : Option TerminalSession :=
  if id = "session1" then some (plannedSession samplePlan 0) else none

theorem sample_stored : Stored sampleSessions sampleBroker where
  keyed k session h := by
    rw [sampleSessions] at h
    split at h
    · next hk =>
      obtain rfl := Option.some.inj h
      exact hk.symm
    · cases h
  visible _ := fun ⟨_, h, _⟩ => nomatch h

/-- Answers of a run in which the broker gives the requests of the list these replies. -/
def sampleAnswer (replies : List (Except Error Response)) : (o : Op) → Res o
  | .call (.read _ _) => .ok true
  | .call .catalog => .ok [sampleResource]
  | .call (.reply n) => replies.getD n (.error .other)
  | .call (.writePlan _) | .call (.writeSession _) | .call .joined | .call (.writeRequest _ _)
  | .call .connect | .call (.append _) => .ok ()
  | .broker _ o => TerminalBroker.sampleAnswer o

def sampleGrant (id : String) : Except Error Response :=
  .ok (.grant (TerminalBroker.grantFor samplePlan.toTerminalPlan id 1000))

def sampleSession : Except Error Response :=
  .ok (.session (TerminalBroker.sessionFor TerminalBroker.sampleConfig samplePlan.toTerminalPlan 0))

def sampleStart : Request :=
  .authorizeAndStart "plan" ⟨true, some "AUTORIZO TERMINAL DE SOLO LECTURA"⟩ 1000

def sampleResumes (replies : List (Except Error Response)) (j n : Nat) :
    List (Move Res Request World) :=
  List.replicate n (.resume j (sampleAnswer replies))

def samplePool : Pool State Res Error Outcome Request :=
  System.initial (State.initial samplePlans sampleSessions sampleBroker)

theorem active_of_any {p : Pool State Res Error Outcome Request} {sid : String}
    (h : (p.state.broker.sessions sid).any (·.status = .active) = true) : Active p.state sid := by
  obtain ⟨session, hs⟩ := Option.isSome_iff_exists.mp (Option.isSome_of_any h)
  rw [hs] at h
  exact ⟨session, hs, of_decide_eq_true h⟩

/-- One call starts the terminal of the sample plan. -/
def startMoves : List (Move Res Request World) :=
  let replies := [sampleGrant "", sampleSession]
  .start sampleStart :: sampleResumes replies 0 6 ++
    .start (.serve 0) :: sampleResumes replies 1 2 ++ sampleResumes replies 0 2 ++
    .start (.serve 1) :: sampleResumes replies 2 18 ++ sampleResumes replies 0 4

set_option maxRecDepth 20000 in
theorem visible_sample :
    Active ((carefulStarts sampleConfig "plan").play samplePool startMoves).state "session1" ∧
      Visible ((carefulStarts sampleConfig "plan").play samplePool startMoves) "plan" :=
  ⟨active_of_any (by decide +kernel),
    visible_of_careful sampleConfig "plan" samplePlans sampleSessions sampleBroker sample_stored _
      ⟨startMoves, System.run_of_checked
        (legal_of_startingMove carefully fun _ _ _ => careful_of_carefully)
        (by decide +kernel)⟩⟩

def loserAnswer : (o : Op) → Res o
  | .broker _ (.mkdir _ _ _ _) => .error .fileExists
  | o => sampleAnswer [] o

def racingMoves : List (Move Res Request World) :=
  let replies := [sampleGrant "", sampleGrant "0", sampleSession,
    .error (.executor "BROKER_FAILED")]
  .start sampleStart :: .start sampleStart ::
    sampleResumes replies 0 6 ++ sampleResumes replies 1 6 ++
    .start (.serve 0) :: sampleResumes replies 2 2 ++
    .start (.serve 1) :: sampleResumes replies 3 2 ++
    sampleResumes replies 0 2 ++ sampleResumes replies 1 2 ++
    .start (.serve 2) :: sampleResumes replies 4 18 ++
    .start (.serve 3) :: List.replicate 2 (.resume 5 loserAnswer) ++
    sampleResumes replies 0 4 ++ sampleResumes replies 1 3

set_option maxRecDepth 20000 in
/-- The call that loses the race stores the open session as failed. -/
theorem loser_hides_session : ¬∀ (cfg : Config) (planId : String)
    (plans : String → Option TerminalPlan) (sessions : String → Option TerminalSession)
    (broker : TerminalBroker.State), Stored sessions broker →
    ∀ p : Pool State Res Error Outcome Request,
      (starts cfg planId).Reachable (State.initial plans sessions broker) p → Visible p planId := by
  intro claim
  let p := (starts sampleConfig "plan").play samplePool racingMoves
  have hvisible : Visible p "plan" :=
    claim sampleConfig "plan" samplePlans sampleSessions sampleBroker sample_stored p
      ⟨racingMoves, System.run_of_checked
        (legal_of_startingMove allowed fun _ _ _ h =>
          ⟨answers_of_allowed sampleConfig h, trivial⟩) (by decide +kernel)⟩
  have hidle : p.state.working = [] := by decide +kernel
  have hplan : p.state.plans "plan" = some samplePlan := by decide +kernel
  have hactive : Active p.state samplePlan.sessionId := active_of_any (by decide +kernel)
  obtain ⟨session, hs, hblocking⟩ := hvisible.1 hidle samplePlan hplan hactive
  have hfailed : (p.state.sessions samplePlan.sessionId).any (·.status.blocking) = false := by
    decide +kernel
  rw [hs] at hfailed
  exact Bool.noConfusion (hblocking.symm.trans hfailed)

end Ares.Terminals
