import Ares.Coop.History
import Ares.TerminalBroker.Dispatch

/-! Where the terminal broker makes and removes files and mounts. -/

namespace Ares.TerminalBroker

open Coop Data

/-- The paths that a call creates; a `mkdir` with `parents` also makes the directories above. -/
def Op.creates : Op → List Path
  | mkdir path _ parents _ => if parents then path.inits else [path]
  | writeText path _ => [path]
  | replace source target => [source, target]
  | mount _ root => [root]
  | _ => []

/-- The paths that a call unmounts, unlinks or removes. -/
def Op.removes : Op → List Path
  | umount path | unlink path | rmtree path => [path]
  | _ => []

def Started (sessionId : String) (h : List Event) : Prop := ∃ t, .starting t sessionId ∈ h

/-- The request of the task asks to close the session, which has been started, or to clean up what
the session has left. -/
def Asked (t : Nat) (sessionId : String) (h : List Event) : Prop :=
  ∃ forbidden uid, (Started sessionId h ∧ .received t ⟨forbidden, .close (some sessionId)⟩ uid ∈ h) ∨
    .received t ⟨forbidden, .cleanup (some sessionId)⟩ uid ∈ h

/-- A text that is one component of a path and leads down. -/
def Single (sessionId : String) : Prop := Named sessionId ∧ sessionId ≠ ".."

instance (sessionId : String) : Decidable (Single sessionId) := by
  unfold Single
  infer_instance

section Places

variable (cfg : Config) (sessionId : String) (q : Path)

/-- The directory of the session or a file below it, or its request to the graphical session. -/
def Owned : Prop :=
  cfg.runtimeRoot ++ [sessionId] <+: q ∨ q = cfg.guiRequestRoot ++ [sessionId ++ ".json"]

/-- A place that the session owns, the temporary file of its request, or a directory above. -/
def Made : Prop :=
  Owned cfg sessionId q ∨ q = cfg.guiRequestRoot ++ ["." ++ sessionId ++ ".json.tmp"] ∨
    q <+: cfg.runtimeRoot ∨ q <+: cfg.guiRequestRoot

end Places

/-- What a call of a task does stays with one session: the one that the task starts, or that its
request asks to close or to clean up. -/
structure Confined (cfg : Config) (t : Nat) (o : Op) (past : List Event) : Prop where
  creates : ∀ q ∈ o.creates, ∃ sid, .starting t sid ∈ past ∧ (Single sid → Made cfg sid q)
  removes : ∀ q ∈ o.removes, ∃ sid, Asked t sid past ∧ (Single sid → Owned cfg sid q)

def Causal (cfg : Config) : Event → List Event → Prop
  | .called t o, past => Confined cfg t o past
  | _, _ => True

structure Inv (cfg : Config) (s : State) : Prop where
  causal : Always (Causal cfg) s.history
  sessions : ∀ sid session, s.sessions sid = some session → Started sid s.history

def logic (cfg : Config) : Logic State Res where
  inv := Inv cfg
  rely s s' := s.history <:+ s'.history
  guar s s' := s.history <:+ s'.history
  answers _ _ _ := True

def Lasting (P : State → Prop) : Prop := ∀ s s' : State, s.history <:+ s'.history → P s → P s'

theorem lasting_of_subset {F : List Event → Prop} (h : ∀ l l', l ⊆ l' → F l → F l') :
    Lasting fun s => F s.history :=
  fun _ _ hs => h _ _ hs.subset

theorem Started.mono {sid : String} {h h' : List Event} (hs : Started sid h) (hsub : h ⊆ h') :
    Started sid h' := by
  obtain ⟨t, ht⟩ := hs
  exact ⟨t, hsub ht⟩

theorem Asked.mono {t : Nat} {sid : String} {h h' : List Event} (hs : Asked t sid h)
    (hsub : h ⊆ h') : Asked t sid h' := by
  obtain ⟨forbidden, uid, ⟨hstarted, ht⟩ | ht⟩ := hs
  · exact ⟨forbidden, uid, .inl ⟨hstarted.mono hsub, hsub ht⟩⟩
  · exact ⟨forbidden, uid, .inr (hsub ht)⟩

theorem lasting_starting (t : Nat) (sid : String) : Lasting fun s => .starting t sid ∈ s.history :=
  lasting_of_subset fun _ _ hsub h => hsub h

theorem lasting_asked (t : Nat) (sid : String) : Lasting fun s => Asked t sid s.history :=
  lasting_of_subset fun _ _ hsub h => h.mono hsub

theorem lasting_closing (t : Nat) (sid : String) :
    Lasting fun s => Started sid s.history ∧ Asked t sid s.history :=
  lasting_of_subset (F := fun h => Started sid h ∧ Asked t sid h) fun _ _ hsub =>
    And.imp (·.mono hsub) (·.mono hsub)

theorem lasting_true : Lasting fun _ => True := fun _ _ _ h => h

/-! ### Places of a session -/

section Single

variable {cfg : Config} {sid : String}

theorem Single.sessionDir (h : Single sid) : sessionDirOf cfg sid = cfg.runtimeRoot ++ [sid] :=
  join_name h.1 _

theorem Single.guiRequest (h : Single sid) :
    guiRequestOf cfg sid = cfg.guiRequestRoot ++ [sid ++ ".json"] :=
  join_name (h.1.append (by decide) (by decide)) _

theorem Single.guiTemporary (h : Single sid) :
    guiTemporaryOf cfg sid = cfg.guiRequestRoot ++ ["." ++ sid ++ ".json.tmp"] := by
  refine join_name ⟨fun heq => ?_, fun heq => ?_, ?_⟩ _
  · have := congrArg String.toList heq
    simp [String.toList_append] at this
  · have := congrArg (fun s : String => s.toList.length) heq
    simp [String.toList_append] at this
  · simp [String.toList_append, h.1.2.2]

theorem Single.owned_below (h : Single sid) (rel : Path) :
    Owned cfg sid (sessionDirOf cfg sid ++ rel) := by
  rw [h.sessionDir]
  exact .inl (List.prefix_append _ _)

theorem Single.owned_dir (h : Single sid) : Owned cfg sid (sessionDirOf cfg sid) := by
  rw [h.sessionDir]
  exact .inl (List.prefix_refl _)

theorem Single.owned_request (h : Single sid) : Owned cfg sid (guiRequestOf cfg sid) :=
  .inr h.guiRequest

theorem Single.made_temporary (h : Single sid) : Made cfg sid (guiTemporaryOf cfg sid) :=
  .inr (.inl h.guiTemporary)

theorem Single.made_above (h : Single sid) {q : Path} (hq : q ∈ (sessionDirOf cfg sid).inits) :
    Made cfg sid q := by
  have hfront := (List.mem_inits _ _).mp hq
  rw [h.sessionDir] at hfront
  rcases List.prefix_concat_iff.mp hfront with rfl | hfront
  · exact .inl (.inl (List.prefix_refl _))
  · exact .inr (.inr (.inl hfront))

end Single

/-! ### Steps -/

section Steps

variable {cfg : Config} {task : Nat} {P : State → Prop} {o : Op}

theorem Inv.note {s : State} {e : Event} (h : Inv cfg s) (he : Causal cfg e s.history) :
    Inv cfg (s.note e) where
  causal := ⟨he, h.causal⟩
  sessions sid session hs := (h.sessions sid session hs).mono (List.subset_cons_self _ _)

theorem Inv.store {s : State} {sid : String} {session : TerminalSession} (h : Inv cfg s)
    (hs : Started sid s.history) : Inv cfg (s.store sid session) where
  causal := h.causal
  sessions sid' session' hs' := by
    by_cases heq : sid' = sid
    · exact heq ▸ hs
    · exact h.sessions sid' session' (by simpa [State.store, Function.update_of_ne heq] using hs')

theorem keeps_note {e : Event} (lasting : Lasting P)
    (h : ∀ s, Inv cfg s → P s → Causal cfg e s.history) :
    (Proc.modify (State.note e) : Task Unit).Keeps (logic cfg) P :=
  keeps_modify fun s hi hs => ⟨List.suffix_cons _ _, hi.note (h s hi hs),
    lasting _ _ (List.suffix_cons _ _) hs⟩

theorem quiet_keeps {α : Type} {p : Task α} (quiet : p.Quiet) (lasting : Lasting P) :
    p.Keeps (logic cfg) P :=
  quiet.keeps lasting

theorem keeps_attempt (lasting : Lasting P) (h : ∀ s, P s → Confined cfg task o s.history) :
    (attempt task o).Keeps (logic cfg) P :=
  (keeps_note (e := .called task o) lasting fun s _ hs => h s hs).bind fun _ =>
    (quiet_keeps quiet_perform lasting).bind fun _ =>
      quiet_keeps quiet_ofExcept lasting

theorem keeps_ask (lasting : Lasting P) (hc : o.creates = []) (hr : o.removes = []) :
    (attempt task o).Keeps (logic cfg) P :=
  keeps_attempt lasting fun _ _ => ⟨by simp [hc], by simp [hr]⟩

theorem keeps_create {sid : String}
    (h : ∀ q ∈ o.creates, Single sid → Made cfg sid q) (hr : o.removes = []) :
    (attempt task o).Keeps (logic cfg) fun s => .starting task sid ∈ s.history :=
  keeps_attempt (lasting_starting task sid) fun _ hs =>
    ⟨fun q hq => ⟨sid, hs, h q hq⟩, by simp [hr]⟩

theorem keeps_remove {sid : String} (lasting : Lasting P)
    (known : ∀ s, P s → Asked task sid s.history) (hc : o.creates = [])
    (h : ∀ q ∈ o.removes, Single sid → Owned cfg sid q) :
    (attempt task o).Keeps (logic cfg) P :=
  keeps_attempt lasting fun s hs => ⟨by simp [hc], fun q hq => ⟨sid, known s hs, h q hq⟩⟩

theorem keeps_suppress {suppressed : Error → Bool} {p : Task Unit} (hp : p.Keeps (logic cfg) P) :
    (suppress suppressed p).Keeps (logic cfg) P := by
  refine hp.handle fun e => ?_
  split
  · exact keeps_ret ()
  · exact keeps_raise e

theorem keeps_evidenceOf {suppressed : Error → Bool} {line : String} {p : Task Unit}
    (hp : p.Keeps (logic cfg) P) : (evidenceOf suppressed line p).Keeps (logic cfg) P := by
  refine (hp.bind fun _ => keeps_ret [line]).handle fun e => ?_
  split
  · exact keeps_ret []
  · exact keeps_raise e

theorem keeps_require (c : Bool) (e : Error) :
    (require c e : Task Unit).Keeps (logic cfg) P := by
  cases c
  · exact keeps_raise e
  · exact keeps_ret ()

theorem keeps_ofOption {α : Type} (e : Error) (r : Option α) :
    (ofOption e r : Task α).Keeps (logic cfg) P := by
  cases r
  · exact keeps_raise e
  · exact keeps_ret _

theorem keeps_validatePlan (lasting : Lasting P) (plan : TerminalPlan) :
    (validatePlan cfg task plan).Keeps (logic cfg) P := by
  refine Proc.Keeps.bind ((keeps_require _ _).bind fun _ => (keeps_require _ _).bind fun _ =>
    keeps_require _ _) fun _ => ?_
  refine (keeps_ofOption _ _).bind fun target => (keeps_ofOption _ _).bind fun path =>
    (keeps_require _ _).bind fun _ => (keeps_require _ _).bind fun _ => Proc.Keeps.bind ?_ fun _ =>
    (keeps_require _ _).bind fun _ => keeps_require _ _
  split
  · exact keeps_ret true
  · exact keeps_ask lasting rfl rfl

/-! ### The directory of a session -/

theorem keeps_mountReadOnly (source sid : String) :
    (mountReadOnly task source (sessionDirOf cfg sid)).Keeps (logic cfg)
      fun s => .starting task sid ∈ s.history := by
  refine (keeps_require _ _).bind fun _ => (keeps_create (fun q hq h => ?_) rfl).bind fun _ =>
    (keeps_create (fun q hq h => ?_) rfl).bind fun _ => (keeps_require _ _).bind fun _ =>
    keeps_ret _
  all_goals
    obtain rfl := List.mem_singleton.mp hq
    exact .inl (h.owned_below _)

theorem keeps_prepareReadOnlySource (plan : TerminalPlan) (sid : String) :
    (prepareReadOnlySource task plan (sessionDirOf cfg sid)).Keeps (logic cfg)
      fun s => .starting task sid ∈ s.history := by
  refine (keeps_ofOption _ _).bind fun target => (keeps_ofOption _ _).bind fun path =>
    Proc.Keeps.bind ?_ fun existing => ?_
  · split
    · exact keeps_ask (lasting_starting task sid) rfl rfl
    · exact keeps_ret false
  · split
    · exact keeps_ret _
    · refine (keeps_ask (lasting_starting task sid) rfl rfl).bind fun there => ?_
      split
      · exact keeps_ret _
      · exact keeps_mountReadOnly _ sid

theorem keeps_writeGuiRequest (plan : TerminalPlan) (source : String) (control : Path) :
    (writeGuiRequest cfg task plan source control).Keeps (logic cfg)
      fun s => .starting task plan.sessionId ∈ s.history := by
  refine (keeps_create (fun q hq _ => ?_) rfl).bind fun _ =>
    (keeps_create (fun q hq h => ?_) rfl).bind fun _ =>
    (keeps_ask (lasting_starting task _) rfl rfl).bind fun _ => keeps_create (fun q hq h => ?_) rfl
  · exact .inr (.inr (.inr ((List.mem_inits _ _).mp hq)))
  · obtain rfl := List.mem_singleton.mp hq
    exact h.made_temporary
  · rcases List.mem_pair.mp hq with rfl | rfl
    · exact h.made_temporary
    · exact .inl h.owned_request

theorem keeps_fillSessionDir (plan : TerminalPlan) :
    (fillSessionDir cfg task plan (sessionDirOf cfg plan.sessionId)).Keeps (logic cfg)
      fun s => .starting task plan.sessionId ∈ s.history := by
  have create : ∀ {o : Op} (rel : Path), o.creates = [sessionDirOf cfg plan.sessionId ++ rel] →
      o.removes = [] → (attempt task o).Keeps (logic cfg)
        fun s => .starting task plan.sessionId ∈ s.history := by
    intro o rel ho hr
    refine keeps_create (fun q hq h => ?_) hr
    rw [ho] at hq
    obtain rfl := List.mem_singleton.mp hq
    exact .inl (h.owned_below rel)
  have ask : ∀ {o : Op}, o.creates = [] → o.removes = [] → (attempt task o).Keeps (logic cfg)
      fun s => .starting task plan.sessionId ∈ s.history := keeps_ask (lasting_starting task _)
  have control : (makeControlDir task (sessionDirOf cfg plan.sessionId)).Keeps (logic cfg)
      fun s => .starting task plan.sessionId ∈ s.history :=
    (create ["control"] rfl rfl).bind fun _ => keeps_suppress (ask rfl rfl)
  exact control.bind fun _ => (keeps_prepareReadOnlySource plan _).bind fun source =>
    (create ["public.json"] rfl rfl).bind fun _ => (ask rfl rfl).bind fun _ =>
    (create ["internal.json"] rfl rfl).bind fun _ => (ask rfl rfl).bind fun _ =>
    keeps_writeGuiRequest plan _ _

theorem keeps_prepareSessionDir (plan : TerminalPlan) :
    (prepareSessionDir cfg task plan).Keeps (logic cfg)
      fun s => .starting task plan.sessionId ∈ s.history := by
  refine (keeps_create (fun q hq h => ?_) rfl).bind fun _ =>
    (keeps_fillSessionDir plan).bind fun _ => keeps_ret _
  exact h.made_above hq

theorem keeps_terminateLauncher (lasting : Lasting P) (pidFile : Path) :
    (terminateLauncher task pidFile).Keeps (logic cfg) P := by
  refine (keeps_ask lasting rfl rfl).bind fun pid => ?_
  cases pid with
  | none => exact keeps_ret _
  | some pid =>
    simp only
    split
    · exact keeps_ret _
    · refine (keeps_evidenceOf (keeps_ask lasting rfl rfl)).bind fun asked =>
        (keeps_ask lasting rfl rfl).bind fun ended => ?_
      split
      · exact keeps_ret _
      · exact (keeps_evidenceOf (keeps_ask lasting rfl rfl)).bind fun killed =>
          (keeps_ask lasting rfl rfl).bind fun alive => keeps_ret _

section Cleanup

variable {sid : String} (lasting : Lasting P)
  (known : ∀ s, P s → Asked task sid s.history)

include lasting known

theorem keeps_unmountRoot :
    (unmountRoot task (sessionDirOf cfg sid ++ ["root"])).Keeps (logic cfg) P := by
  refine (keeps_ask lasting rfl rfl).bind fun found => ?_
  split
  · refine (keeps_remove lasting known rfl fun q hq h => ?_).bind fun returncode =>
      (keeps_ask lasting rfl rfl).bind fun still => keeps_ret _
    obtain rfl := List.mem_singleton.mp hq
    exact h.owned_below _
  · exact keeps_ret _

theorem keeps_emptySessionDir : (emptySessionDir cfg task sid).Keeps (logic cfg) P := by
  refine (keeps_ask lasting rfl rfl).bind fun hasPid => Proc.Keeps.bind ?_ fun launcher =>
    (keeps_ask lasting rfl rfl).bind fun hasRoot => Proc.Keeps.bind ?_ fun root =>
    (keeps_evidenceOf (keeps_remove lasting known rfl fun q hq h => ?_)).bind fun request =>
    (keeps_evidenceOf (keeps_remove lasting known rfl fun q hq h => ?_)).bind fun directory =>
    keeps_ret _
  · split
    · exact keeps_terminateLauncher lasting _
    · exact keeps_ret _
  · split
    · exact keeps_unmountRoot lasting known
    · exact keeps_ret _
  · obtain rfl := List.mem_singleton.mp hq
    exact h.owned_request
  · obtain rfl := List.mem_singleton.mp hq
    exact h.owned_dir

theorem keeps_cleanupSessionDir : (cleanupSessionDir cfg task sid).Keeps (logic cfg) P := by
  refine (keeps_ask lasting rfl rfl).bind fun there => Proc.Keeps.bind ?_ fun found =>
    (keeps_ask lasting rfl rfl).bind fun active => keeps_ret _
  split
  · exact keeps_emptySessionDir lasting known
  · exact keeps_ret _

end Cleanup

/-! ### The requests -/

theorem keeps_spec {α : Type} {p : Task α} {s : State} (hp : p.Keeps (logic cfg) P)
    (hi : Inv cfg s) (h : P s) :
    p.Spec (logic cfg) (fun _ _ => True) (fun _ _ => True) s :=
  (hp s hi h).mono (fun _ _ _ => trivial) fun _ _ _ => trivial

theorem keeps_silent {g : State → State} (lasting : Lasting P)
    (h : ∀ s, (g s).history = s.history ∧ (g s).sessions = s.sessions) :
    (Proc.modify g : Task Unit).Keeps (logic cfg) P := by
  refine keeps_modify fun s hi hs => ?_
  obtain ⟨hh, hsess⟩ := h s
  have hgrow : s.history <:+ (g s).history := hh ▸ List.suffix_refl _
  refine ⟨hgrow, ⟨hh ▸ hi.causal, fun sid session => ?_⟩, lasting _ _ hgrow hs⟩
  rw [hh, hsess]
  exact hi.sessions sid session

theorem keeps_store {sid : String} {session : TerminalSession} (lasting : Lasting P)
    (h : ∀ s, P s → Started sid s.history) :
    (Proc.modify (State.store sid session) : Task Unit).Keeps (logic cfg) P :=
  keeps_modify fun s hi hs => ⟨List.suffix_refl _, hi.store (h s hs),
    lasting _ _ (List.suffix_refl s.history) hs⟩

theorem keeps_authorize (plan : TerminalPlan) (uid : Option Int) :
    (authorize cfg task plan uid).Keeps (logic cfg) fun _ => True := by
  have ask : ∀ {o : Op}, o.creates = [] → o.removes = [] →
      (attempt task o).Keeps (logic cfg) fun _ => True := keeps_ask lasting_true
  have silent : ∀ {g : State → State}, (∀ s, (g s).history = s.history ∧ (g s).sessions = s.sessions) →
      (Proc.modify g : Task Unit).Keeps (logic cfg) fun _ => True := keeps_silent lasting_true
  refine (keeps_ofOption _ _).bind fun uid => (keeps_validatePlan lasting_true plan).bind fun _ => ?_
  refine Proc.Keeps.bind ?_ fun id => (ask rfl rfl).bind fun _ =>
    (silent (g := State.grant _) fun _ => ⟨rfl, rfl⟩).bind fun _ => (ask rfl rfl).bind fun _ => keeps_ret _
  exact (quiet_keeps quiet_reading lasting_true).bind fun n =>
    (silent (g := State.draw) fun _ => ⟨rfl, rfl⟩).bind fun _ => keeps_ret _

theorem keeps_redeem (plan : TerminalPlan) (g : TerminalAuthorizationGrant) :
    (redeem cfg task plan g).Keeps (logic cfg) fun _ => True := by
  refine (keeps_ask lasting_true rfl rfl).bind fun _ =>
    (quiet_keeps quiet_state lasting_true).bind fun s =>
    (keeps_silent (g := State.pop g.id) lasting_true fun _ => ⟨rfl, rfl⟩).bind fun _ => ?_
  exact (keeps_require _ _).bind fun _ => (keeps_require _ _).bind fun _ =>
    (keeps_require _ _).bind fun _ => keeps_validatePlan lasting_true plan

theorem keeps_enterSession (plan : TerminalPlan) (sessionDir : Path) :
    (enterSession cfg task plan sessionDir).Keeps (logic cfg)
      fun s => .starting task plan.sessionId ∈ s.history := by
  have ask : ∀ {o : Op}, o.creates = [] → o.removes = [] → (attempt task o).Keeps (logic cfg)
      fun s => .starting task plan.sessionId ∈ s.history := keeps_ask (lasting_starting task _)
  exact (ask rfl rfl).bind fun _ => (ask rfl rfl).bind fun _ =>
    (quiet_keeps quiet_reading (lasting_starting task _)).bind fun now => (ask rfl rfl).bind fun _ =>
    (keeps_store (lasting_starting task _) fun _ hs => ⟨task, hs⟩).bind fun _ => keeps_ret _

theorem spec_start (plan : TerminalPlan) (g : TerminalAuthorizationGrant) {s : State}
    (hi : Inv cfg s) :
    (start cfg task plan g).Spec (logic cfg) (fun _ _ => True) (fun _ _ => True) s := by
  refine (keeps_redeem plan g).spec_bind hi trivial (fun _ s hi _ => ?_) fun _ _ _ _ => trivial
  refine spec_bind.mpr ⟨List.suffix_cons _ _, hi.note trivial, ?_⟩
  exact keeps_spec ((keeps_prepareSessionDir plan).bind fun _ => keeps_enterSession plan _)
    (hi.note trivial) List.mem_cons_self

theorem keeps_status (sid : Option String) :
    (status sid).Keeps (logic cfg) fun _ => True :=
  Proc.Keeps.bind ((keeps_ofOption _ _).bind fun id =>
    (quiet_keeps quiet_state lasting_true).bind fun _ => (keeps_ofOption _ _).bind fun session =>
    keeps_ret (id, session)) fun _ => keeps_ret _

theorem spec_close (sid : Option String) {s : State} (hi : Inv cfg s)
    (h : ∀ id ∈ sid, Started id s.history → Asked task id s.history) :
    (close cfg task sid).Spec (logic cfg) (fun _ _ => True) (fun _ _ => True) s := by
  refine spec_bind.mpr (spec_bind.mpr (spec_ofOption.mpr
    ⟨fun id hid => ?_, fun _ => trivial⟩))
  refine spec_bind.mpr (spec_bind.mpr (spec_ofOption.mpr
    ⟨fun session hsession => ?_, fun _ => trivial⟩))
  have hstarted : Started id s.history := hi.sessions id session hsession
  have hasked := h id (Option.mem_filter_iff.mp hid).1 hstarted
  have lasting := lasting_closing task id
  refine keeps_spec (P := fun s => Started id s.history ∧ Asked task id s.history) ?_ hi
    ⟨hstarted, hasked⟩
  refine (keeps_store lasting fun _ hs => hs.1).bind fun _ =>
    (keeps_cleanupSessionDir lasting fun _ hs => hs.2).bind fun evidence =>
    (keeps_ask lasting rfl rfl).bind fun _ => ?_
  exact (quiet_keeps quiet_reading lasting).bind fun now =>
    (keeps_store lasting fun _ hs => hs.1).bind fun _ => (keeps_ask lasting rfl rfl).bind fun _ =>
    keeps_ret _

theorem spec_cleanup (sid : Option String) {s : State} (hi : Inv cfg s)
    (h : ∀ id ∈ sid, Asked task id s.history) :
    (cleanup cfg task sid).Spec (logic cfg) (fun _ _ => True) (fun _ _ => True) s := by
  refine spec_bind.mpr (spec_ofOption.mpr ⟨fun id hid => ?_, fun _ => trivial⟩)
  have lasting := lasting_asked task id
  refine keeps_spec (P := fun s => Asked task id s.history) ?_ hi
    (h id (Option.mem_filter_iff.mp hid).1)
  exact (keeps_cleanupSessionDir lasting fun _ hs => hs).bind fun evidence =>
    (keeps_ask lasting rfl rfl).bind fun _ => keeps_ret _

theorem spec_dispatch (request : Request) (uid : Int) {s : State} (hi : Inv cfg s) :
    (dispatch cfg task request uid).Spec (logic cfg) (fun _ _ => True) (fun _ _ => True) s := by
  have hi' : Inv cfg (s.note (.received task request uid)) := hi.note trivial
  refine spec_bind.mpr ⟨List.suffix_cons _ _, hi', ?_⟩
  refine spec_bind.mpr (spec_require.mpr ⟨fun _ => ?_, fun _ => trivial⟩)
  refine spec_bind.mpr (spec_require.mpr ⟨fun _ => ?_, fun _ => trivial⟩)
  obtain ⟨forbidden, action⟩ := request
  cases action with
  | authorize plan operatorUid =>
    refine spec_bind.mpr (spec_ofOption.mpr ⟨fun plan _ => ?_, fun _ => trivial⟩)
    exact keeps_spec (keeps_authorize plan operatorUid) hi' trivial
  | start plan grant =>
    refine spec_bind.mpr (spec_ofOption.mpr ⟨fun plan _ => ?_, fun _ => trivial⟩)
    refine spec_bind.mpr (spec_ofOption.mpr ⟨fun grant _ => ?_, fun _ => trivial⟩)
    exact spec_bind.mpr ((spec_start plan grant hi').mono (fun _ _ _ => trivial)
      fun _ _ _ => trivial)
  | status sid => exact keeps_spec (keeps_status sid) hi' trivial
  | close sid =>
    refine spec_close sid hi' fun id hid hstarted => ?_
    obtain rfl := Option.mem_def.mp hid
    exact ⟨forbidden, uid, .inl ⟨hstarted, List.mem_cons_self⟩⟩
  | cleanup sid =>
    refine spec_cleanup sid hi' fun id hid => ?_
    obtain rfl := Option.mem_def.mp hid
    exact ⟨forbidden, uid, .inr List.mem_cons_self⟩
  | rejected => trivial

end Steps

/-! ### Runs -/

def contract (cfg : Config) : Contract (system cfg) where
  inv := Inv cfg
  rely _ s s' := s.history <:+ s'.history
  guar _ s s' := s.history <:+ s'.history
  fresh _ _ := True
  post _ _ _ _ := True
  postE _ _ _ _ := True
  refl _ _ := List.suffix_refl _
  trans _ _ _ _ := List.IsSuffix.trans
  guar_rely _ _ _ _ _ h := h
  fresh_rely _ _ _ _ _ := trivial
  post_rely _ _ _ _ _ _ _ := trivial
  postE_rely _ _ _ _ _ _ _ := trivial
  world _ _ hi _ := ⟨⟨hi.causal, hi.sessions⟩, fun _ => List.suffix_refl _⟩
  handler _ t _ hi _ _ := spec_dispatch t.1 t.2 hi

theorem inv_start (cfg : Config) (now : DateTime) (machine : Machine) :
    Inv cfg (State.start now machine) :=
  ⟨trivial, fun _ _ h => nomatch h⟩

abbrev Requests := Pool State Res Error Response (Request × Int)

/-- In every run, what a task creates it creates for the session that it starts, what it removes it
removes for the session that its own request asks to close, which has been started, or to clean up,
and where the name of the session is a single component, that is inside the session's own directory
or its request, but for the temporary file of the request and the directories above. -/
theorem stays_in_sandbox (cfg : Config) (now : DateTime) (machine : Machine) (pool : Requests)
    (reach : (system cfg).Reachable (State.start now machine) pool) :
    ∀ t o past, (.called t o :: past) <:+ pool.state.history →
      (∀ q ∈ o.creates, ∃ sid, .starting t sid ∈ past ∧ (Single sid → Made cfg sid q)) ∧
      ∀ q ∈ o.removes, ∃ sid, Asked t sid past ∧ (Single sid → Owned cfg sid q) := by
  intro t o past hs
  have holds := (contract cfg).sound (inv_start cfg now machine) (fun _ => trivial) reach
  have hconfined : Confined cfg t o past := holds.inv.causal.at hs
  exact ⟨hconfined.creates, hconfined.removes⟩

/-! ### A session from its authorization to the removal of its directory -/

def sampleConfig : Config where
  runtimeRoot := ["run"]
  guiRequestRoot := ["gui"]
  allowedClientUids := [971]
  lib := ⟨fun _ => "", id⟩
  uuid4 n := String.ofList (List.replicate n '0')

def emptyMachine : Machine := ⟨fun _ => false, fun _ => false, fun _ => false, 0⟩

def sampleTarget : TerminalTarget where
  humanName := ""
  operatingSystem := none
  technicalPath := some "/dev/sda1"
  technicalDetails := []
  fingerprint := ""
  rest := ""

def samplePlan : TerminalPlan where
  id := "p"
  sessionId := "session1"
  contextKind := .installedSystemReadOnly
  target := some sampleTarget
  targetFingerprint := some ""
  readOnly := true
  executeTargetBinaries := false
  networkPolicy := .disabled
  devicePolicy := .minimal
  expiresAt := 1
  rest := ""
  fingerprintSha256 := ""

/-- The source is no directory, so that it is mounted, and every call goes well. -/
def sampleAnswer : (o : Op) → Res o
  | .isDir _ | .isFile _ | .awaitExit _ | .pidAlive _ => .ok false
  | .pathExists _ => .ok true
  | .readPid _ => .ok none
  | .mount _ _ | .umount _ | .findmnt _ => .ok 0
  | .lock | .thread | .append _ | .mkdir _ _ _ _ | .chown _ | .writeText _ _ | .chmod _ _
  | .replace _ _ | .unlink _ | .rmtree _ | .killpg _ _ => .ok ()

def resumes (j n : Nat) : List (Move Res (Request × Int) (DateTime × Machine)) :=
  List.replicate n (.resume j sampleAnswer)

def requestOf (action : Action) : Move Res (Request × Int) (DateTime × Machine) :=
  .start (⟨false, action⟩, 971)

def startMoves : List (Move Res (Request × Int) (DateTime × Machine)) :=
  [requestOf (.authorize (some samplePlan) (some 0))] ++ resumes 0 2 ++
    [requestOf (.start (some samplePlan) (some (grantFor samplePlan "" 0)))] ++ resumes 1 1

def closeMoves : List (Move Res (Request × Int) (DateTime × Machine)) :=
  startMoves ++ resumes 1 17 ++ [requestOf (.close (some "session1"))] ++ resumes 2 7

def play (ms : List (Move Res (Request × Int) (DateTime × Machine))) : Requests :=
  (system sampleConfig).play (System.initial (State.start 0 emptyMachine)) ms

theorem reachable_of_playable (ms : List (Move Res (Request × Int) (DateTime × Machine)))
    (h : (system sampleConfig).playable (System.initial (State.start 0 emptyMachine)) ms = true) :
    (system sampleConfig).Reachable (State.start 0 emptyMachine) (play ms) :=
  ⟨ms, System.run_of_playable (fun _ _ => trivial) (fun _ _ _ => trivial) (fun _ _ => trivial) h⟩

set_option maxRecDepth 20000 in
theorem stays_in_sandbox_run :
    (∃ past, (play closeMoves).state.history = .called 2 (.rmtree ["run", "session1"]) :: past) ∧
    ∀ t o past, (.called t o :: past) <:+ (play closeMoves).state.history →
      (∀ q ∈ o.creates, ∃ sid, .starting t sid ∈ past ∧ (Single sid → Made sampleConfig sid q)) ∧
      ∀ q ∈ o.removes, ∃ sid, Asked t sid past ∧ (Single sid → Owned sampleConfig sid q) :=
  ⟨⟨(play closeMoves).state.history.tail, by with_unfolding_all rfl⟩,
    stays_in_sandbox sampleConfig 0 emptyMachine _
    (reachable_of_playable closeMoves (by decide +kernel))⟩

/-- Everything lies strictly inside the directory of a session that has been started, or is the
session's request. -/
def StrictlyInside (cfg : Config) (h : List Event) : Prop :=
  ∀ t o past, (.called t o :: past) <:+ h → ∀ q ∈ o.creates ++ o.removes, ∃ sid, Single sid ∧
    Started sid past ∧ ((cfg.runtimeRoot ++ [sid] <+: q ∧ q ≠ cfg.runtimeRoot ++ [sid]) ∨
      q = cfg.guiRequestRoot ++ [sid ++ ".json"])

def traversalMoves : List (Move Res (Request × Int) (DateTime × Machine)) :=
  [requestOf (.cleanup (some "../../home"))] ++ resumes 0 7

theorem last_call_inside {cfg : Config} {h : List Event} {t : Nat} {o : Op} {past : List Event}
    {n : String} {r : Path} (heq : h = .called t o :: past) (hroot : cfg.runtimeRoot = ["run"])
    (hgui : cfg.guiRequestRoot = ["gui"]) (hq : "run" :: n :: r ∈ o.creates ++ o.removes)
    (inside : StrictlyInside cfg h) : Single n ∧ r ≠ [] := by
  obtain ⟨sid, hsingle, -, ⟨hfront, hne⟩ | hrequest⟩ :=
    inside t o past (heq ▸ List.suffix_refl _) _ hq
  · rw [hroot] at hfront hne
    obtain rfl : sid = n := by simpa using hfront
    exact ⟨hsingle, fun hnil => hne (by rw [hnil]; rfl)⟩
  · rw [hgui] at hrequest
    simp at hrequest

set_option maxRecDepth 20000 in
/-- An ordinary start makes the directory of the session itself, and a request to clean up can remove
a directory outside of the broker's. -/
theorem not_strictlyInside :
    (¬∀ (cfg : Config) (now : DateTime) (machine : Machine) (pool : Requests),
      (system cfg).Reachable (State.start now machine) pool →
        StrictlyInside cfg pool.state.history) ∧
    ¬StrictlyInside sampleConfig (play startMoves).state.history ∧
    ¬StrictlyInside sampleConfig (play traversalMoves).state.history := by
  have hstart : ¬StrictlyInside sampleConfig (play startMoves).state.history := by
    intro inside
    have heq : (play startMoves).state.history =
        .called 1 (.mkdir ["run", "session1"] 0o700 true false) ::
          (play startMoves).state.history.tail := by
      with_unfolding_all rfl
    exact (last_call_inside (n := "session1") (r := []) heq rfl rfl (by decide) inside).2 rfl
  have htraversal : ¬StrictlyInside sampleConfig (play traversalMoves).state.history := by
    intro inside
    have heq : (play traversalMoves).state.history =
        .called 0 (.rmtree ["run", "..", "..", "home"]) ::
          (play traversalMoves).state.history.tail := rfl
    exact (last_call_inside (n := "..") (r := ["..", "home"]) heq rfl rfl (by decide)
      inside).1.2 rfl
  refine ⟨fun claim => hstart ?_, hstart, htraversal⟩
  exact claim _ _ _ _ (reachable_of_playable startMoves (by decide +kernel))

end Ares.TerminalBroker
