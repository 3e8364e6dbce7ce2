import Ares.TerminalBroker.Dispatch

/-! What the requests of the terminal broker do to its table of sessions: only a start makes a session
active, only the session of its plan, and not when it fails; and a session that is in the table stays
there. -/

namespace Ares.TerminalBroker

open Coop Data

/-- The session that the request is to start. -/
def Request.starts (request : Request) : Option String :=
  match request.action with
  | .start (some plan) (some _) => some plan.sessionId
  | _ => none

def Request.closes (request : Request) : Option String :=
  match request.action with
  | .close (some sessionId) => some sessionId
  | _ => none

def Active (s : State) (sessionId : String) : Prop :=
  ∃ session, s.sessions sessionId = some session ∧ session.status = .active

def Known (s : State) (sessionId : String) : Prop := (s.sessions sessionId).isSome = true

/-- An assertion about the sessions, in a logic that lets a task write everything else. -/
structure Blind (L : Logic State Res) (P : State → Prop) : Prop where
  inv : ∀ s, L.inv s
  guar : ∀ s s', s'.sessions = s.sessions → L.guar s s'
  same : ∀ s s', s'.sessions = s.sessions → P s → P s'
  rely : ∀ s s', L.rely s s' → P s → P s'

section Blind

variable {L : Logic State Res} {P : State → Prop} {cfg : Config} {task : Nat}
  (hb : Blind L P)
include hb

theorem Blind.modify (f : State → State) (hf : ∀ s, (f s).sessions = s.sessions) :
    (Proc.modify f : Task Unit).Keeps L P :=
  keeps_modify fun s _ h => ⟨hb.guar _ _ (hf s), hb.inv _, hb.same _ _ (hf s) h⟩

theorem Blind.quiet {α : Type} {p : Task α} (quiet : p.Quiet) : p.Keeps L P :=
  quiet.keeps hb.rely

theorem Blind.attempt (o : Op) : (attempt task o).Keeps L P :=
  (hb.modify (State.note _) fun _ => rfl).bind fun _ =>
    (hb.quiet quiet_perform).bind fun _ => hb.quiet quiet_ofExcept

theorem Blind.evidence (suppressed : Error → Bool) (line : String)
    {p : Task Unit} (hp : p.Keeps L P) : (evidenceOf suppressed line p).Keeps L P :=
  (hp.bind fun _ => keeps_ret _).handle fun e => by
    split
    · exact keeps_ret _
    · exact hb.quiet (quiet_raise (e := e))

theorem Blind.validatePolicy (plan : TerminalPlan) :
    (validatePolicy cfg plan).Keeps L P :=
  hb.quiet (quiet_require.bind fun _ => quiet_require.bind fun _ => quiet_require)

theorem Blind.validateTarget (plan : TerminalPlan) :
    (validateTarget task plan).Keeps L P := by
  refine (hb.quiet quiet_ofOption).bind fun target => ?_
  refine (hb.quiet quiet_ofOption).bind fun path => ?_
  refine (hb.quiet quiet_require).bind fun _ => (hb.quiet quiet_require).bind fun _ => ?_
  refine Proc.Keeps.bind ?_ fun usable =>
    (hb.quiet quiet_require).bind fun _ => hb.quiet quiet_require
  split
  · exact keeps_ret _
  · exact hb.attempt _

theorem Blind.validatePlan (plan : TerminalPlan) :
    (validatePlan cfg task plan).Keeps L P :=
  (hb.validatePolicy plan).bind fun _ => hb.validateTarget plan

theorem Blind.mountReadOnly (source : String) (sessionDir : Path) :
    (mountReadOnly task source sessionDir).Keeps L P :=
  (hb.quiet quiet_require).bind fun _ => (hb.attempt _).bind fun _ =>
    (hb.attempt _).bind fun _ => (hb.quiet quiet_require).bind fun _ => keeps_ret _

theorem Blind.prepareReadOnlySource (plan : TerminalPlan) (sessionDir : Path) :
    (prepareReadOnlySource task plan sessionDir).Keeps L P := by
  refine (hb.quiet quiet_ofOption).bind fun target => ?_
  refine (hb.quiet quiet_ofOption).bind fun path => ?_
  refine Proc.Keeps.bind ?_ fun existing => ?_
  · split
    · exact hb.attempt _
    · exact keeps_ret _
  · split
    · exact keeps_ret _
    · refine (hb.attempt _).bind fun there => ?_
      split
      · exact keeps_ret _
      · exact hb.mountReadOnly _ _

theorem Blind.writeSessionFiles (plan : TerminalPlan) (sessionDir : Path)
    (source : String × Bool) : (writeSessionFiles cfg task plan sessionDir source).Keeps L P :=
  (hb.attempt _).bind fun _ => (hb.attempt _).bind fun _ => (hb.attempt _).bind fun _ =>
    (hb.attempt _).bind fun _ => (hb.attempt _).bind fun _ => (hb.attempt _).bind fun _ =>
      (hb.attempt _).bind fun _ => hb.attempt _

theorem Blind.makeControlDir (sessionDir : Path) :
    (makeControlDir task sessionDir).Keeps L P :=
  (hb.attempt _).bind fun _ => (hb.attempt _).handle fun e => by
    split
    · exact keeps_ret ()
    · exact keeps_raise e

theorem Blind.prepareSessionDir (plan : TerminalPlan) :
    (prepareSessionDir cfg task plan).Keeps L P := by
  refine (hb.attempt _).bind fun _ => Proc.Keeps.bind ?_ fun _ => keeps_ret _
  exact (hb.makeControlDir _).bind fun _ => (hb.prepareReadOnlySource plan _).bind fun source =>
    hb.writeSessionFiles plan _ source

theorem Blind.terminateLauncher (pidFile : Path) :
    (terminateLauncher task pidFile).Keeps L P := by
  refine (hb.attempt _).bind fun pid => ?_
  split
  · exact keeps_ret _
  · split
    · exact keeps_ret _
    · refine (hb.evidence _ _ (hb.attempt _)).bind fun asked => (hb.attempt _).bind fun ended => ?_
      split
      · exact keeps_ret _
      · exact (hb.evidence _ _ (hb.attempt _)).bind fun _ => (hb.attempt _).bind fun _ =>
          keeps_ret _

theorem Blind.unmountRoot (root : Path) : (unmountRoot task root).Keeps L P := by
  refine (hb.attempt _).bind fun found => ?_
  split
  · exact (hb.attempt _).bind fun _ => (hb.attempt _).bind fun _ => keeps_ret _
  · exact keeps_ret _

theorem Blind.emptySessionDir (sessionId : String) :
    (emptySessionDir cfg task sessionId).Keeps L P := by
  refine (hb.attempt _).bind fun hasPid => Proc.Keeps.bind ?_ fun ended => ?_
  · split
    · exact hb.terminateLauncher _
    · exact keeps_ret _
  · refine (hb.attempt _).bind fun hasRoot => Proc.Keeps.bind ?_ fun unmounted => ?_
    · split
      · exact hb.unmountRoot _
      · exact keeps_ret _
    · exact (hb.evidence _ _ (hb.attempt _)).bind fun _ =>
        (hb.evidence _ _ (hb.attempt _)).bind fun _ => keeps_ret _

theorem Blind.cleanupSessionDir (sessionId : String) :
    (cleanupSessionDir cfg task sessionId).Keeps L P := by
  refine (hb.attempt _).bind fun there => Proc.Keeps.bind ?_ fun found =>
    (hb.attempt _).bind fun _ => keeps_ret _
  split
  · exact hb.emptySessionDir _
  · exact keeps_ret _

theorem Blind.authorize (plan : TerminalPlan) (operatorUid : Option Int) :
    (authorize cfg task plan operatorUid).Keeps L P :=
  (hb.quiet quiet_ofOption).bind fun _ => (hb.validatePlan plan).bind fun _ =>
    Proc.Keeps.bind ((hb.quiet quiet_reading).bind fun _ =>
      (hb.modify State.draw fun _ => rfl).bind fun _ => keeps_ret _) fun _ =>
      (hb.attempt _).bind fun _ => (hb.modify (State.grant _) fun _ => rfl).bind fun _ =>
        (hb.attempt _).bind fun _ => keeps_ret _

theorem Blind.redeem (plan : TerminalPlan) (g : TerminalAuthorizationGrant) :
    (redeem cfg task plan g).Keeps L P :=
  (hb.attempt _).bind fun _ => (hb.quiet quiet_state).bind fun _ =>
    (hb.modify (State.pop _) fun _ => rfl).bind fun _ =>
      (hb.quiet quiet_require).bind fun _ => (hb.quiet quiet_require).bind fun _ =>
        (hb.quiet quiet_require).bind fun _ =>
        hb.validatePlan plan

theorem Blind.start (plan : TerminalPlan) (g : TerminalAuthorizationGrant)
    {Q : TerminalSession → State → Prop} {E : Error → State → Prop} {s : State} (h : P s)
    (hQ : ∀ now s', P s' → L.guar s' (s'.store plan.sessionId (sessionFor cfg plan now)) ∧
      Q (sessionFor cfg plan now) (s'.store plan.sessionId (sessionFor cfg plan now)))
    (hE : ∀ e s', P s' → E e s') : (start cfg task plan g).Spec L Q E s := by
  have hfront : ∀ {α : Type} {p : Task α} {f : α → Task TerminalSession} {s : State},
      p.Keeps L P → P s → (∀ a s', P s' → (f a).Spec L Q E s') → (p.bind f).Spec L Q E s :=
    fun hp h hf => hp.spec_bind (hb.inv _) h (fun a s' _ => hf a s') fun e s' _ => hE e s'
  refine hfront (hb.redeem plan g) h fun _ s1 h1 => ?_
  refine hfront (hb.modify (State.note _) fun _ => rfl) h1 fun _ s2 h2 => ?_
  refine hfront (hb.prepareSessionDir plan) h2 fun _ s3 h3 => ?_
  refine hfront (hb.attempt _) h3 fun _ s4 h4 => hfront (hb.attempt _) h4 fun _ s5 h5 => ?_
  refine hfront (hb.quiet quiet_reading) h5 fun now s6 h6 => ?_
  refine hfront (hb.attempt _) h6 fun _ s7 h7 => ?_
  exact ⟨(hQ now s7 h7).1, hb.inv _, (hQ now s7 h7).2⟩

end Blind

/-! ### Which sessions become active -/

/-- A task that makes no session active but the one that its request starts, among others that do not
make that one active. -/
def startLogic (request : Request) : Logic State Res where
  inv _ := True
  rely s s' := ∀ sid, request.starts = some sid → Active s' sid → Active s sid
  guar s s' := ∀ sid, Active s' sid → Active s sid ∨ request.starts = some sid
  answers _ _ _ := True

def Inactive (request : Request) (s : State) : Prop :=
  ∀ sid, request.starts = some sid → ¬Active s sid

def Answers (request : Request) (response : Response) : Prop :=
  ∀ sid, request.starts = some sid →
    ∃ session, response = .session session ∧ session.id = sid ∧ session.status = .active

section Starting

variable {cfg : Config} {task : Nat} {request : Request} {uid : Int} {s : State}

theorem active_congr {s s' : State} (h : s'.sessions = s.sessions) (sid : String) :
    Active s' sid ↔ Active s sid := by
  rw [Active, Active, h]

theorem blind_start (request : Request) : Blind (startLogic request) (Inactive request) where
  inv _ := trivial
  guar _ _ h _ ha := .inl ((active_congr h _).mp ha)
  same _ _ h hi sid hs ha := hi sid hs ((active_congr h sid).mp ha)
  rely _ _ hr hi sid hs ha := hi sid hs (hr sid hs ha)

theorem active_store {id sid : String} {session : TerminalSession}
    (h : Active (s.store id session) sid) : Active s sid ∨ sid = id ∧ session.status = .active := by
  obtain ⟨found, hfound, hstatus⟩ := h
  by_cases hid : sid = id
  · subst hid
    obtain rfl : session = found := by simpa [State.store] using hfound
    exact .inr ⟨rfl, hstatus⟩
  · exact .inl ⟨found, by simpa [State.store, hid] using hfound, hstatus⟩

theorem inactive_store {id : String} {session : TerminalSession} (hstatus : session.status ≠ .active)
    (s : State) (h : Inactive request s) : (startLogic request).guar s (s.store id session) ∧
      Inactive request (s.store id session) :=
  ⟨fun _ ha => .inl ((active_store ha).resolve_right fun h => hstatus h.2),
    fun sid hs ha => h sid hs ((active_store ha).resolve_right fun h => hstatus h.2)⟩

theorem close_starts (sessionId : Option String) :
    (close cfg task sessionId).Keeps (startLogic request) (Inactive request) := by
  have hb := blind_start request
  have hstore : ∀ id (session : TerminalSession), session.status ≠ .active →
      (Proc.modify (State.store id session) : Task Unit).Keeps (startLogic request)
        (Inactive request) := fun id session hstatus =>
    keeps_modify fun s _ h => ⟨(inactive_store hstatus s h).1, trivial,
      (inactive_store hstatus s h).2⟩
  refine (hb.quiet (quiet_ofOption.bind fun _ => quiet_state.bind fun _ =>
    quiet_ofOption.bind fun _ => quiet_ret)).bind fun found => ?_
  refine (hstore _ _ (by simp)).bind fun _ => (hb.cleanupSessionDir _).bind fun evidence => ?_
  refine (hb.attempt _).bind fun _ => (hb.quiet quiet_reading).bind fun now => ?_
  refine (hstore _ _ ?_).bind fun _ => (hb.attempt _).bind fun _ => keeps_ret _
  dsimp only
  split <;> simp

theorem dispatch_starts (h : Inactive request s) :
    (dispatch cfg task request uid).Spec (startLogic request)
      (fun response _ => Answers request response) (fun _ => Inactive request) s := by
  have hb := blind_start request
  have other : request.starts = none → ∀ {p : Task Response},
      p.Keeps (startLogic request) (Inactive request) → ∀ s', Inactive request s' →
        p.Spec (startLogic request) (fun response _ => Answers request response)
          (fun _ => Inactive request) s' := fun hnone p hp s' h' =>
    (hp s' trivial h').mono (fun _ _ _ sid hs => by rw [hnone] at hs; cases hs) fun _ _ h => h.2
  refine (hb.modify (State.note _) fun _ => rfl).spec_bind trivial h (fun _ s1 _ h1 => ?_)
    fun _ _ _ h => h
  refine (hb.quiet quiet_require).spec_bind trivial h1 (fun _ s2 _ h2 => ?_) fun _ _ _ h => h
  refine (hb.quiet quiet_require).spec_bind trivial h2 (fun _ s3 _ h3 => ?_) fun _ _ _ h => h
  obtain ⟨forbidden, action⟩ := request
  cases action with
  | authorize plan operatorUid =>
    exact other rfl ((hb.quiet quiet_ofOption).bind fun _ => hb.authorize _ _) s3 h3
  | start plan grant =>
    cases plan with
    | none => exact h3
    | some plan =>
      cases grant with
      | none => exact h3
      | some grant =>
        show Proc.Spec _ (Proc.bind (start cfg task plan grant) _) _ _ s3
        refine spec_bind.mpr (hb.start plan grant h3 (fun now s' h' => ⟨fun sid ha => ?_, ?_⟩)
          fun _ _ h => h)
        · exact (active_store ha).imp id fun heq => congrArg some heq.1.symm
        · rintro sid hs
          exact ⟨_, rfl, Option.some.inj hs, rfl⟩
  | status sessionId =>
    refine other rfl (hb.quiet ?_) s3 h3
    exact (quiet_ofOption.bind fun _ => quiet_state.bind fun _ =>
      quiet_ofOption.bind fun _ => quiet_ret).bind fun _ => quiet_ret
  | close sessionId => exact other rfl (close_starts sessionId) s3 h3
  | cleanup sessionId =>
    exact other rfl ((hb.quiet quiet_ofOption).bind fun _ => (hb.cleanupSessionDir _).bind
      fun _ => (hb.attempt _).bind fun _ => keeps_ret _) s3 h3
  | rejected => exact h3

end Starting

/-! ### Which sessions the broker knows -/

def knownLogic : Logic State Res where
  inv _ := True
  rely s s' := ∀ sid, Known s sid → Known s' sid
  guar s s' := ∀ sid, Known s sid → Known s' sid
  answers _ _ _ := True

section Known

variable {cfg : Config} {task : Nat} {request : Request} {uid : Int} {s : State}

theorem known_congr {s s' : State} (h : s'.sessions = s.sessions) (sid : String) :
    Known s' sid ↔ Known s sid := by
  rw [Known, Known, h]

theorem blind_known {P : State → Prop} (same : ∀ s s', s'.sessions = s.sessions → P s → P s')
    (rely : ∀ s s', knownLogic.rely s s' → P s → P s') : Blind knownLogic P where
  inv _ := trivial
  guar _ _ h _ := (known_congr h _).mpr
  same := same
  rely := rely

theorem known_store (id sid : String) (session : TerminalSession) (h : Known s sid) :
    Known (s.store id session) sid := by
  by_cases hid : sid = id <;> simp_all [Known, State.store]

theorem known_store_self (id : String) (session : TerminalSession) (s : State) :
    Known (s.store id session) id := by
  simp [Known, State.store]

theorem close_known (sessionId : String) : (close cfg task (some sessionId)).Spec knownLogic
    (fun _ s' => Known s' sessionId) (fun _ _ => True) s := by
  have hb : Blind knownLogic fun s => Known s sessionId :=
    blind_known (fun _ _ h => (known_congr h _).mpr) fun _ _ hr => hr sessionId
  have hb' : Blind knownLogic fun _ => True := blind_known (fun _ _ _ => id) fun _ _ _ => id
  have hstore : ∀ session : TerminalSession,
      (Proc.modify (State.store sessionId session) : Task Unit).Keeps knownLogic
        fun s => Known s sessionId := fun session =>
    keeps_modify fun s _ _ => ⟨fun sid => known_store sessionId sid session, trivial,
      known_store_self sessionId session s⟩
  have hfind : (findSession (some sessionId)).Spec knownLogic
      (fun found s' => found.1 = sessionId ∧ Known s' sessionId) (fun _ _ => True) s := by
    refine spec_bind.mpr (spec_ofOption.mpr ⟨fun id hid => ?_, fun _ => trivial⟩)
    obtain rfl : sessionId = id := Option.some.inj (Option.filter_eq_some_iff.mp hid).1
    exact spec_bind.mpr (spec_bind.mpr (spec_ofOption.mpr
      ⟨fun session hs => ⟨rfl, Option.isSome_iff_exists.mpr ⟨session, hs⟩⟩, fun _ => trivial⟩))
  refine spec_bind.mpr (hfind.mono (fun found s1 h1 => ?_) fun _ _ _ => trivial)
  obtain ⟨id, session⟩ := found
  obtain ⟨rfl, h1⟩ := h1
  refine ((hstore _).bind fun _ => (hb.cleanupSessionDir _).bind fun evidence =>
    (hb.attempt _).bind fun _ => (hb.quiet quiet_reading).bind fun now =>
      (hstore _).bind fun _ => (hb.attempt _).bind fun _ =>
        keeps_ret _) s1 trivial h1 |>.mono (fun _ _ h => h.2) fun _ _ _ => trivial

theorem dispatch_known : (dispatch cfg task request uid).Spec knownLogic
    (fun _ s' => ∀ sid, request.closes = some sid → Known s' sid) (fun _ _ => True) s := by
  have hb : Blind knownLogic fun _ => True := blind_known (fun _ _ _ => id) fun _ _ _ => id
  have other : request.closes = none → ∀ {p : Task Response}, p.Keeps knownLogic (fun _ => True) →
      ∀ s', p.Spec knownLogic (fun _ s' => ∀ sid, request.closes = some sid → Known s' sid)
        (fun _ _ => True) s' := fun hnone p hp s' =>
    (hp s' trivial trivial).mono (fun _ _ _ sid hs => by rw [hnone] at hs; cases hs)
      fun _ _ _ => trivial
  refine (hb.modify (State.note _) fun _ => rfl).spec_bind trivial trivial (fun _ s1 _ _ => ?_)
    fun _ _ _ h => h
  refine (hb.quiet quiet_require).spec_bind trivial trivial (fun _ s2 _ _ => ?_)
    fun _ _ _ h => h
  refine (hb.quiet quiet_require).spec_bind trivial trivial (fun _ s3 _ _ => ?_)
    fun _ _ _ h => h
  obtain ⟨forbidden, action⟩ := request
  cases action with
  | authorize plan operatorUid =>
    exact other rfl ((hb.quiet quiet_ofOption).bind fun _ => hb.authorize _ _) s3
  | start plan grant =>
    refine spec_bind.mpr (spec_ofOption.mpr ⟨fun plan _ => ?_, fun _ => trivial⟩)
    refine spec_bind.mpr (spec_ofOption.mpr ⟨fun grant _ => ?_, fun _ => trivial⟩)
    exact spec_bind.mpr (hb.start plan grant trivial
      (fun now s' _ => ⟨fun sid => known_store _ sid _, fun _ hs => nomatch hs⟩)
      fun _ _ _ => trivial)
  | status sessionId =>
    refine other rfl (hb.quiet ?_) s3
    exact (quiet_ofOption.bind fun _ => quiet_state.bind fun _ =>
      quiet_ofOption.bind fun _ => quiet_ret).bind fun _ => quiet_ret
  | close sessionId =>
    cases sessionId with
    | none => exact trivial
    | some sessionId =>
      refine (close_known sessionId).mono (fun _ s' h sid hs => ?_) fun _ _ _ => trivial
      exact Option.some.inj hs ▸ h
  | cleanup sessionId =>
    exact other rfl ((hb.quiet quiet_ofOption).bind fun _ => (hb.cleanupSessionDir _).bind
      fun _ => (hb.attempt _).bind fun _ => keeps_ret _) s3
  | rejected => exact trivial

end Known

end Ares.TerminalBroker
