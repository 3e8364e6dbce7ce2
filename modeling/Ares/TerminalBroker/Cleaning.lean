import Ares.Coop.Apart
import Ares.TerminalBroker.Rollback

/-! The clean-up of a session whose source the broker has mounted.  `findmnt --target` answers with zero
for every path that is there, since it looks for the filesystem of the path: it is no test for a mount
point. -/

namespace Ares.TerminalBroker

open Coop Data

/-! ### A machine that is cleaned up -/

/-- A call, its answer, and the machine before and after it. -/
structure Observed where
  op : Op
  answer : Res op
  before : Machine
  after : Machine

structure Scene where
  machine : Machine
  log : List Observed

/-- What is outside of the broker, by the calls so far. -/
structure Surroundings where
  answer : List Observed → (o : Op) → Res o
  alive : List Observed → Bool
  detaches : List Observed → Bool
  spares : List Observed → Path → Bool

def exitsZero : Except Error Int → Bool
  | .ok code => code = 0
  | .error _ => false

namespace Surroundings

variable (w : Surroundings)

def reply (log : List Observed) (m : Machine) : (o : Op) → Res o
  | .pathExists path => (w.answer log (.pathExists path)).map fun _ => m.present path
  | .findmnt path =>
    (w.answer log (.findmnt path)).map fun code => if m.present path then 0 else code
  | .awaitExit pid => (w.answer log (.awaitExit pid)).map fun _ => !w.alive log
  | .pidAlive pid => (w.answer log (.pidAlive pid)).map fun _ => w.alive log
  | o => w.answer log o

def effect (log : List Observed) (m : Machine) : (o : Op) → Res o → Machine
  | .umount root, r =>
    if exitsZero r || w.detaches log then
      { m with mounted := fun q => m.mounted q && !root.isPrefixOf q }
    else m
  | .unlink path, .ok _ => { m with files := Function.update m.files path false }
  | .rmtree dir, .ok _ => { m with
      directories := fun q => m.directories q && !dir.isPrefixOf q
      files := fun q => m.files q && !dir.isPrefixOf q }
  | .rmtree dir, .error _ => { m with
      directories := fun q => m.directories q && (!dir.isPrefixOf q || w.spares log q)
      files := fun q => m.files q && (!dir.isPrefixOf q || w.spares log q) }
  | _, _ => m

def server : Server Scene Res := fun o m =>
  let r := w.reply m.log m.machine o
  let after := w.effect m.log m.machine o r
  (r, ⟨after, ⟨o, r, m.machine, after⟩ :: m.log⟩)

end Surroundings

/-- An `umount` of the path that exited with zero. -/
def Observed.unmounted (path : Path) : Observed → Bool
  | ⟨.umount root, r, _, _⟩ => root = path && exitsZero r
  | _ => false

def Observed.removed (path : Path) (st : Observed) : Bool :=
  match st.op with
  | .rmtree dir => dir = path
  | _ => false

theorem Observed.removed_iff {path : Path} {st : Observed} :
    st.removed path = true ↔ st.op = .rmtree path := by
  rw [Observed.removed]
  split
  · next dir hop => simp [hop]
  · next hop => exact ⟨nofun, fun heq => absurd heq (hop _)⟩

/-! ### What a clean-up is to do -/

def sessionRootOf (cfg : Config) (sessionId : String) : Path := sessionDirOf cfg sessionId ++ ["root"]

section Runs

variable (cfg : Config) (sessionId : String)

/-- The directory of the session is there, with the source that the broker has mounted in it. -/
structure MountedSession (m : Machine) : Prop where
  directory : m.present (sessionDirOf cfg sessionId) = true
  root : m.present (sessionRootOf cfg sessionId) = true
  mounted : m.mounted (sessionRootOf cfg sessionId) = true

/-- The removal of the directory is reached. -/
def Removes (log : List Observed) : Prop := ∃ st ∈ log, st.op = .rmtree (sessionDirOf cfg sessionId)

/-- An `umount` has detached what was mounted. -/
def Detached (log : List Observed) : Prop :=
  ∃ st ∈ log, st.op = .umount (sessionRootOf cfg sessionId) ∧
    st.after.mounted (sessionRootOf cfg sessionId) = false

/-- The directory is removed only while nothing is mounted in it. -/
def RemovesUnmounted (log : List Observed) : Prop :=
  ∀ st ∈ log, st.op = .rmtree (sessionDirOf cfg sessionId) →
    st.before.mounted (sessionRootOf cfg sessionId) = false

/-- `umount` exited with zero, the launcher is gone, and the directory is removed. -/
structure Succeeded (w : Surroundings) (m : Scene) : Prop where
  unmounted : ∃ st ∈ m.log, st.unmounted (sessionRootOf cfg sessionId) = true
  gone : w.alive m.log = false
  removed : m.machine.present (sessionDirOf cfg sessionId) = false

/-- The clean-up removes nothing below a mount, and says so when it has succeeded. -/
structure CleansSoundly (w : Surroundings) (r : Except Error TerminalCleanupEvidence) (m : Scene) :
    Prop where
  unmounts : RemovesUnmounted cfg sessionId m.log
  recognises : ∀ evidence, r = .ok evidence → Succeeded cfg sessionId w m →
    evidence.cleanupVerified = true

/-- Nothing is unmounted or removed yet. -/
structure Untouched (m : Scene) : Prop where
  session : MountedSession cfg sessionId m.machine
  detached : ¬Detached cfg sessionId m.log
  removes : ¬Removes cfg sessionId m.log

/-- Nothing is removed yet, and the mount is there unless `umount` has detached it. -/
structure Tried (m : Scene) : Prop where
  detached : Detached cfg sessionId m.log ↔ m.machine.mounted (sessionRootOf cfg sessionId) = false
  removes : ¬Removes cfg sessionId m.log
  asked : ∃ st ∈ m.log, st.op = .umount (sessionRootOf cfg sessionId)

/-- The removal is safe as far as `umount` was, and comes after it. -/
structure Told (m : Scene) : Prop where
  sound : RemovesUnmounted cfg sessionId m.log ↔
    (Removes cfg sessionId m.log → Detached cfg sessionId m.log)
  ordered : ∀ st past, st :: past <:+ m.log → st.op = .rmtree (sessionDirOf cfg sessionId) →
    ∃ earlier ∈ past, earlier.op = .umount (sessionRootOf cfg sessionId)

def Touches (o : Op) : Prop := ∃ path, o = .umount path ∨ o = .unlink path ∨ o = .rmtree path

variable {cfg sessionId} {w : Surroundings} {task : Nat} {m : Scene} {o : Op}

theorem obeys_attempt {μ : Type} {server : Server μ Res} {m : μ} {Q : o.Answer → μ → Prop}
    {E : Error → μ → Prop} (hok : ∀ a, (server o m).1 = .ok a → Q a (server o m).2)
    (herror : ∀ e, (server o m).1 = .error e → E e (server o m).2) :
    (attempt task o).Obeys (serverProtocol server) Q E m := by
  rw [attempt, obeys_do]
  refine obeys_modify ?_
  rw [obeys_do, obeys_call, obeys_ofExcept]
  exact ⟨hok, herror⟩

theorem attempt_avoids {bad : Op → Prop} (h : ¬bad o) : (attempt task o).Avoids bad :=
  (avoids_modify _).bind fun _ => (avoids_perform h).bind fun _ => avoids_ofExcept _

theorem evidenceOf_avoids {bad : Op → Prop} {suppressed : Error → Bool} {line : String}
    {p : Task Unit} (h : p.Avoids bad) : (evidenceOf suppressed line p).Avoids bad := by
  refine Proc.Avoids.handle (h.bind fun _ => avoids_ret _) fun e => ?_
  split
  · exact avoids_ret _
  · exact avoids_raise _

theorem terminateLauncher_avoids (pidFile : Path) :
    (terminateLauncher task pidFile).Avoids Touches := by
  have hcall : ∀ o : Op, (∀ path, o ≠ .umount path ∧ o ≠ .unlink path ∧ o ≠ .rmtree path) →
      (attempt task o).Avoids Touches := fun o ho => by
    refine attempt_avoids ?_
    rintro ⟨path, rfl | rfl | rfl⟩
    · exact (ho path).1 rfl
    · exact (ho path).2.1 rfl
    · exact (ho path).2.2 rfl
  refine (hcall _ (by simp)).bind fun pid => ?_
  cases pid with
  | none => exact avoids_ret _
  | some pid =>
    dsimp only
    split
    · exact avoids_ret _
    · refine (evidenceOf_avoids (hcall _ (by simp))).bind fun asked => ?_
      refine (hcall _ (by simp)).bind fun ended => ?_
      split
      · exact avoids_ret _
      · exact (evidenceOf_avoids (hcall _ (by simp))).bind fun killed =>
          (hcall _ (by simp)).bind fun alive => avoids_ret _

/-! ### What the calls preserve -/

theorem effect_idle {log : List Observed} {machine : Machine} {r : Res o} (ho : ¬Touches o) :
    w.effect log machine o r = machine := by
  unfold Surroundings.effect
  split
  · exact absurd ⟨_, .inl rfl⟩ ho
  · exact absurd ⟨_, .inr (.inl rfl)⟩ ho
  · exact absurd ⟨_, .inr (.inr rfl)⟩ ho
  · exact absurd ⟨_, .inr (.inr rfl)⟩ ho
  · rfl

theorem effect_mounted {log : List Observed} {machine : Machine} {r : Res o}
    (ho : ∀ path, o ≠ .umount path) : (w.effect log machine o r).mounted = machine.mounted := by
  unfold Surroundings.effect
  split
  · exact absurd rfl (ho _)
  · rfl
  · rfl
  · rfl
  · rfl

theorem detached_call (ho : o ≠ .umount (sessionRootOf cfg sessionId)) :
    Detached cfg sessionId (w.server o m).2.log ↔ Detached cfg sessionId m.log := by
  refine (List.exists_mem_cons_iff _ _ _).trans ⟨?_, .inr⟩
  rintro (hnow | hpast)
  · exact absurd hnow.1 ho
  · exact hpast

theorem removes_call (ho : o ≠ .rmtree (sessionDirOf cfg sessionId)) :
    Removes cfg sessionId (w.server o m).2.log ↔ Removes cfg sessionId m.log := by
  refine (List.exists_mem_cons_iff _ _ _).trans ⟨?_, .inr⟩
  rintro (hnow | hpast)
  · exact absurd hnow ho
  · exact hpast

theorem Untouched.call (h : Untouched cfg sessionId m) (ho : ¬Touches o) :
    Untouched cfg sessionId (w.server o m).2 := by
  have hmachine : (w.server o m).2.machine = m.machine := effect_idle ho
  refine ⟨hmachine ▸ h.session, ?_, ?_⟩
  · rw [detached_call fun heq => ho ⟨_, .inl heq⟩]
    exact h.detached
  · rw [removes_call fun heq => ho ⟨_, .inr (.inr heq)⟩]
    exact h.removes

theorem Untouched.umount (h : Untouched cfg sessionId m) :
    Tried cfg sessionId (w.server (.umount (sessionRootOf cfg sessionId)) m).2 := by
  refine ⟨⟨?_, fun hfree => ⟨_, List.mem_cons_self, rfl, hfree⟩⟩, ?_, ⟨_, List.mem_cons_self, rfl⟩⟩
  · rintro ⟨st, hst, hop, hafter⟩
    rcases List.mem_cons.mp hst with rfl | hst
    · exact hafter
    · exact absurd ⟨st, hst, hop, hafter⟩ h.detached
  · rw [removes_call (by simp)]
    exact h.removes

theorem Tried.call (h : Tried cfg sessionId m)
    (ho : ∀ path, o ≠ .umount path ∧ o ≠ .rmtree path) : Tried cfg sessionId (w.server o m).2 := by
  have hmounted : (w.server o m).2.machine.mounted = m.machine.mounted :=
    effect_mounted fun path => (ho path).1
  refine ⟨?_, ?_, h.asked.imp fun st hst => ⟨List.mem_cons_of_mem _ hst.1, hst.2⟩⟩
  · rw [detached_call (ho _).1, hmounted]
    exact h.detached
  · rw [removes_call (ho _).2]
    exact h.removes

theorem told_of_not_removes (h : ¬Removes cfg sessionId m.log) : Told cfg sessionId m where
  sound := ⟨fun _ hremoves => absurd hremoves h, fun _ st hst hop => absurd ⟨st, hst, hop⟩ h⟩
  ordered st _ hs hop := absurd ⟨st, hs.subset List.mem_cons_self, hop⟩ h

theorem Tried.rmtree (h : Tried cfg sessionId m) :
    Told cfg sessionId (w.server (.rmtree (sessionDirOf cfg sessionId)) m).2 ∧
      Removes cfg sessionId (w.server (.rmtree (sessionDirOf cfg sessionId)) m).2.log := by
  have hnow : Removes cfg sessionId (w.server (.rmtree (sessionDirOf cfg sessionId)) m).2.log :=
    ⟨_, List.mem_cons_self, rfl⟩
  refine ⟨⟨?_, fun st past hs hop => ?_⟩, hnow⟩
  · rw [detached_call (by simp), h.detached]
    constructor
    · exact fun hsafe _ => hsafe _ List.mem_cons_self rfl
    · intro hfree st hst hop
      rcases List.mem_cons.mp hst with rfl | hst
      · exact hfree hnow
      · exact absurd ⟨st, hst, hop⟩ h.removes
  · rcases List.suffix_cons_iff.mp hs with heq | hs
    · obtain rfl := (List.cons.inj heq).2
      exact h.asked
    · exact absurd ⟨st, hs.subset List.mem_cons_self, hop⟩ h.removes

theorem Told.call (h : Told cfg sessionId m) (ho : ∀ path, o ≠ .umount path ∧ o ≠ .rmtree path) :
    Told cfg sessionId (w.server o m).2 := by
  have hlog : RemovesUnmounted cfg sessionId (w.server o m).2.log ↔
      RemovesUnmounted cfg sessionId m.log := by
    refine List.forall_mem_cons.trans ⟨And.right, fun hsafe => ⟨fun hop => ?_, hsafe⟩⟩
    exact absurd hop (ho _).2
  refine ⟨?_, fun st past hs hop => ?_⟩
  · rw [hlog, removes_call (ho _).2, detached_call (ho _).1]
    exact h.sound
  · rcases List.suffix_cons_iff.mp hs with heq | hs
    · obtain rfl := (List.cons.inj heq).1
      exact absurd hop (ho _).2
    · exact h.ordered st past hs hop

/-! ### The steps of a clean-up -/

theorem pathExists_reply {path : Path} {b : Bool}
    (h : (w.server (.pathExists path) m).1 = .ok b) : b = m.machine.present path := by
  change (w.answer m.log (.pathExists path)).map _ = _ at h
  cases hanswer : w.answer m.log (.pathExists path) with
  | error e =>
    rw [hanswer] at h
    cases h
  | ok a =>
    rw [hanswer] at h
    exact (Except.ok.inj h).symm

theorem findmnt_reply {path : Path} {code : Int} (hthere : m.machine.present path = true)
    (h : (w.server (.findmnt path) m).1 = .ok code) : code = 0 := by
  change (w.answer m.log (.findmnt path)).map _ = _ at h
  cases hanswer : w.answer m.log (.findmnt path) with
  | error e =>
    rw [hanswer] at h
    cases h
  | ok a =>
    rw [hanswer] at h
    simpa [Except.map, hthere] using h.symm

theorem umount_present (path : Path) :
    (w.server (.umount path) m).2.machine.present = m.machine.present := by
  change (w.effect m.log m.machine (.umount path) _).present = _
  rw [Surroundings.effect]
  split <;> rfl

theorem unmountRoot_tried (h : Untouched cfg sessionId m) :
    (unmountRoot task (sessionRootOf cfg sessionId)).Obeys (serverProtocol w.server)
      (fun ended m' => ended.1 = true ∧ Tried cfg sessionId m')
      (fun _ m' => ¬Removes cfg sessionId m'.log) m := by
  have hidle : ∀ path, ¬Touches (.findmnt path) := by
    rintro path ⟨_, heq | heq | heq⟩ <;> cases heq
  rw [unmountRoot, obeys_do]
  refine obeys_attempt (fun found hfound => ?_) fun e _ => (h.call (hidle _)).removes
  obtain rfl := findmnt_reply h.session.root hfound
  have h1 : Untouched cfg sessionId (w.server (.findmnt (sessionRootOf cfg sessionId)) m).2 :=
    h.call (hidle _)
  generalize (w.server (.findmnt (sessionRootOf cfg sessionId)) m).2 = m1 at h1
  rw [if_pos rfl, obeys_do]
  refine obeys_attempt (fun returncode _ => ?_) fun e _ => h1.umount.removes
  have hthere := (congrFun (umount_present (w := w) (m := m1) (sessionRootOf cfg sessionId))
    (sessionRootOf cfg sessionId)).trans h1.session.root
  have h2 : Tried cfg sessionId (w.server (.umount (sessionRootOf cfg sessionId)) m1).2 := h1.umount
  generalize (w.server (.umount (sessionRootOf cfg sessionId)) m1).2 = m2 at hthere h2
  rw [obeys_do]
  refine obeys_attempt (fun still hstill => ?_) fun e _ => (h2.call (by simp)).removes
  obtain rfl := findmnt_reply hthere hstill
  exact ⟨rfl, h2.call (by simp)⟩

theorem evidenceOf_obeys {μ : Type} {server : Server μ Res} {m : μ} {suppressed : Error → Bool}
    {line : String} {P : μ → Prop} {p : Task Unit}
    (h : p.Obeys (serverProtocol server) (fun _ => P) (fun _ => P) m) :
    (evidenceOf suppressed line p).Obeys (serverProtocol server) (fun _ => P) (fun _ => P) m := by
  rw [evidenceOf, obeys_handle, obeys_do]
  refine h.mono (fun _ _ hP => hP) fun e m' hP => ?_
  split
  · exact hP
  · exact hP

theorem emptySessionDir_told (h : Untouched cfg sessionId m) :
    (emptySessionDir cfg task sessionId).Obeys (serverProtocol w.server)
      (fun ended m' => ended.2.1 = true ∧ Told cfg sessionId m' ∧ Removes cfg sessionId m'.log)
      (fun _ m' => Told cfg sessionId m') m := by
  have hidle : ∀ path, ¬Touches (.isFile path) ∧ ¬Touches (.pathExists path) := by
    refine fun path => ⟨?_, ?_⟩ <;> rintro ⟨_, heq | heq | heq⟩ <;> cases heq
  rw [emptySessionDir, obeys_do]
  refine obeys_attempt (fun hasPid _ => ?_) fun e _ =>
    told_of_not_removes (h.call (hidle _).1).removes
  have h1 : Untouched cfg sessionId
      (w.server (.isFile (sessionDirOf cfg sessionId ++ ["control", "launcher.pid"])) m).2 :=
    h.call (hidle _).1
  have hterminate : (if hasPid then
      terminateLauncher task (sessionDirOf cfg sessionId ++ ["control", "launcher.pid"])
      else pure (false, [])).Avoids Touches := by
    split
    · exact terminateLauncher_avoids _
    · exact avoids_ret _
  rw [obeys_do]
  refine (hterminate.obeys h1 fun o m ho hm => hm.call ho).mono (fun ended m2 h2 => ?_)
    fun _ _ h => told_of_not_removes h.removes
  dsimp only
  rw [obeys_do]
  refine obeys_attempt (fun hasRoot hroot => ?_) fun e _ =>
    told_of_not_removes (h2.call (hidle _).2).removes
  have hthere : hasRoot = true := (pathExists_reply hroot).trans h2.session.root
  subst hthere
  rw [if_pos rfl, obeys_do]
  refine (unmountRoot_tried (h2.call (hidle _).2)).mono (fun mount m3 h3 => ?_)
    fun _ _ h => told_of_not_removes h
  rw [obeys_do]
  refine (evidenceOf_obeys (obeys_attempt (fun _ _ => h3.2.call (by simp))
    fun _ _ => h3.2.call (by simp))).mono (fun request m4 h4 => ?_)
    fun _ _ h => told_of_not_removes h.removes
  rw [obeys_do]
  have hremoved : Told cfg sessionId (w.server (.rmtree (sessionDirOf cfg sessionId)) m4).2 ∧
      Removes cfg sessionId (w.server (.rmtree (sessionDirOf cfg sessionId)) m4).2.log := h4.rmtree
  refine (evidenceOf_obeys (P := fun m' => Told cfg sessionId m' ∧ Removes cfg sessionId m'.log)
    (obeys_attempt (fun _ _ => hremoved) fun _ _ => hremoved)).mono
    (fun directory m5 h5 => ?_) fun _ _ h => h.1
  exact ⟨h3.1, h5⟩

variable (w task) in
theorem cleanupSessionDir_told (h : Untouched cfg sessionId m) :
    (cleanupSessionDir cfg task sessionId).Obeys (serverProtocol w.server)
      (fun evidence m' => evidence.cleanupVerified = false ∧ Told cfg sessionId m' ∧
        Removes cfg sessionId m'.log)
      (fun _ m' => Told cfg sessionId m') m := by
  have hidle : ¬Touches (.pathExists (sessionDirOf cfg sessionId)) := by
    rintro ⟨_, heq | heq | heq⟩ <;> cases heq
  rw [cleanupSessionDir, obeys_do]
  refine obeys_attempt (fun there hdir => ?_) fun e _ => told_of_not_removes (h.call hidle).removes
  have hthere : there = true := (pathExists_reply hdir).trans h.session.directory
  subst hthere
  rw [if_pos rfl, obeys_do]
  refine (emptySessionDir_told (h.call hidle)).mono (fun ended m1 h1 => ?_) fun _ _ h => h
  dsimp only
  rw [obeys_do]
  refine obeys_attempt (fun active _ => ?_) fun e _ => h1.2.1.call (by simp)
  exact ⟨by simp [h1.1], h1.2.1.call (by simp), (removes_call (by simp)).mpr h1.2.2⟩

/-! ### Closing a session -/

theorem findSession_obeys : (findSession (some sessionId)).Obeys (serverProtocol w.server)
      (fun found m' => found.1 = sessionId ∧ m' = m) (fun _ _ => True) m := by
  rw [findSession, obeys_do, sessionIdOf, obeys_ofOption]
  refine ⟨fun id hid => fun s => ?_, fun _ => trivial⟩
  obtain rfl : sessionId = id := Option.some.inj (Option.filter_eq_some_iff.mp hid).1
  change ((ofOption _ (s.sessions sessionId)).bind fun session =>
    Proc.ret (sessionId, session)).Obeys _ _ _ _
  rw [obeys_bind, obeys_ofOption]
  exact ⟨fun session _ => ⟨rfl, rfl⟩, fun _ => trivial⟩

variable (w task) in
theorem close_required (h : Untouched cfg sessionId m) :
    (close cfg task (some sessionId)).Obeys (serverProtocol w.server)
      (fun response _ => ∃ session, response = .session session ∧ session.status = .cleanupRequired)
      (fun _ _ => True) m := by
  rw [close, obeys_do]
  refine findSession_obeys.mono ?_ fun _ _ h => h
  rintro ⟨_, session⟩ _ ⟨rfl, rfl⟩
  dsimp only
  rw [obeys_do]
  refine obeys_modify ?_
  rw [obeys_do]
  refine (cleanupSessionDir_told w task h).mono (fun evidence m1 h1 => ?_) fun _ _ _ => trivial
  rw [obeys_do]
  refine obeys_attempt (fun _ _ => fun s => ?_) fun _ _ => trivial
  change ((Proc.modify _).bind _).Obeys _ _ _ _
  rw [obeys_bind]
  refine obeys_modify ?_
  rw [obeys_do, audit]
  refine obeys_attempt (fun _ _ => ?_) fun _ _ => trivial
  exact ⟨_, rfl, by simp [h1.1]⟩

theorem untouched_start {machine : Machine} (h : MountedSession cfg sessionId machine) :
    Untouched cfg sessionId ⟨machine, []⟩ :=
  ⟨h, by simp [Detached], by simp [Removes]⟩

end Runs

/-- A clean-up that returns has come to the removal, and to the removal only after an `umount` of what
is mounted in the directory. -/
theorem cleanup_removes (w : Surroundings) (cfg : Config) (task : Nat) (sessionId : String)
    (s : State) (machine : Machine) (h : MountedSession cfg sessionId machine)
    {r : Except Error TerminalCleanupEvidence} {s' : State} {m' : Scene}
    (hrun : (cleanupSessionDir cfg task sessionId).apart w.server s ⟨machine, []⟩ = (r, s', m')) :
    Told cfg sessionId m' ∧ ∀ evidence, r = .ok evidence →
      evidence.cleanupVerified = false ∧ Removes cfg sessionId m'.log := by
  have hends := (cleanupSessionDir_told w task (untouched_start h)).apart (s := s)
  rw [hrun] at hends
  cases r with
  | error e => exact ⟨hends, fun _ heq => by cases heq⟩
  | ok evidence =>
    obtain ⟨hverified, htold, hremoves⟩ := hends
    refine ⟨htold, fun evidence' heq => ?_⟩
    obtain rfl := Except.ok.inj heq
    exact ⟨hverified, hremoves⟩

/-- A clean-up removes nothing below a mount exactly when `umount` has detached it, or a call raises
before the removal; where everything has succeeded it never says so, and a session with a mount that is closed
always ends with a clean-up to be done. -/
theorem cleans_soundly_iff (w : Surroundings) (cfg : Config) (task : Nat) (sessionId : String)
    (s : State) (machine : Machine) (h : MountedSession cfg sessionId machine) :
    (∀ r s' m', (cleanupSessionDir cfg task sessionId).apart w.server s ⟨machine, []⟩ = (r, s', m') →
      (CleansSoundly cfg sessionId w r m' ↔
        (Detached cfg sessionId m'.log ∨ (∃ e, r = .error e) ∧ ¬Removes cfg sessionId m'.log) ∧
          (r.isOk = true → ¬Succeeded cfg sessionId w m'))) ∧
    ∀ response s' m',
      (close cfg task (some sessionId)).apart w.server s ⟨machine, []⟩ = (.ok response, s', m') →
      ∃ session, response = .session session ∧ session.status = .cleanupRequired := by
  constructor
  · intro r s' m' hrun
    obtain ⟨htold, hreturned⟩ := cleanup_removes w cfg task sessionId s machine h hrun
    have hcond : (Removes cfg sessionId m'.log → Detached cfg sessionId m'.log) ↔
        (Detached cfg sessionId m'.log ∨ (∃ e, r = .error e) ∧ ¬Removes cfg sessionId m'.log) := by
      rw [imp_iff_not_or, or_comm]
      refine or_congr_right ⟨fun hno => ⟨?_, hno⟩, And.right⟩
      cases r with
      | error e => exact ⟨e, rfl⟩
      | ok evidence => exact absurd (hreturned evidence rfl).2 hno
    rw [← hcond, ← htold.sound]
    refine ⟨fun hsound => ⟨hsound.unmounts, fun hok hsucceeded => ?_⟩, fun hcond =>
      ⟨hcond.1, fun evidence heq hsucceeded => absurd hsucceeded (hcond.2 (by rw [heq]; rfl))⟩⟩
    cases r with
    | error e => cases hok
    | ok evidence =>
      have hverified := (hreturned evidence rfl).1
      rw [hsound.recognises evidence rfl hsucceeded] at hverified
      cases hverified
  · intro response s' m' hrun
    have hends := (close_required w task (untouched_start h)).apart (s := s)
    rw [hrun] at hends
    exact hends

/-! ### An unmounting that succeeds, one that fails and one that does not end -/

def mountedMachine : Machine where
  directories q := q = ["run", "session1"] || q = ["run", "session1", "root"]
  files _ := false
  mounted q := q = ["run", "session1", "root"]
  calls := 0

def activeState : State :=
  { State.start 0 mountedMachine with
    sessions := Function.update (fun _ => none) "session1" (some (sessionFor sampleConfig samplePlan 0)) }

theorem mountedMachine_session : MountedSession sampleConfig "session1" mountedMachine :=
  ⟨by decide +kernel, by decide +kernel, by decide +kernel⟩

/-- Every call goes well, and `umount` ends as `unmounting` says. -/
def surroundings (unmounting : Except Error Int) : Surroundings where
  answer _ o := match o with
    | .umount _ => unmounting
    | o => sampleAnswer o
  alive _ := false
  detaches _ := false
  spares _ _ := false

def cleanRun (unmounting : Except Error Int) :
    Except Error TerminalCleanupEvidence × State × Scene :=
  (cleanupSessionDir sampleConfig 0 "session1").apart (surroundings unmounting).server activeState
    ⟨mountedMachine, []⟩

def closeRun (unmounting : Except Error Int) : Except Error Response × State × Scene :=
  (close sampleConfig 0 (some "session1")).apart (surroundings unmounting).server activeState
    ⟨mountedMachine, []⟩

theorem ok_of_isOk {α : Type} {r : Except Error α} (h : r.isOk = true) : ∃ a, r = .ok a := by
  cases r with
  | ok a => exact ⟨a, rfl⟩
  | error e => cases h

theorem error_of_isOk {α : Type} {r : Except Error α} (h : r.isOk = false) :
    ∃ e, r = .error e := by
  cases r with
  | ok a => cases h
  | error e => exact ⟨e, rfl⟩

theorem cleans_soundly_sample :
    CleansSoundly sampleConfig "session1" (surroundings (.error .timeout))
      (cleanRun (.error .timeout)).1 (cleanRun (.error .timeout)).2.2 ∧
    ∃ session, (closeRun (.ok 0)).1 = .ok (.session session) ∧ session.status = .cleanupRequired := by
  constructor
  · refine ((cleans_soundly_iff (surroundings (.error .timeout)) sampleConfig 0 "session1"
      activeState mountedMachine mountedMachine_session).1 _ _ _ rfl).mpr ⟨?_, ?_⟩
    · have hnone : (cleanRun (.error .timeout)).2.2.log.any
          (Observed.removed (sessionDirOf sampleConfig "session1")) = false := by decide +kernel
      refine .inr ⟨error_of_isOk (by decide +kernel), ?_⟩
      rintro ⟨st, hst, hop⟩
      exact absurd (List.any_eq_true.mpr ⟨st, hst, Observed.removed_iff.mpr hop⟩)
        (Bool.eq_false_iff.mp hnone)
    · intro hok
      have hfails : (cleanRun (.error .timeout)).1.isOk = false := by decide +kernel
      exact absurd (hok.symm.trans hfails) (by decide)
  · obtain ⟨response, hresponse⟩ := ok_of_isOk (r := (closeRun (.ok 0)).1) (by decide +kernel)
    obtain ⟨session, rfl, hstatus⟩ := (cleans_soundly_iff (surroundings (.ok 0)) sampleConfig 0
      "session1" activeState mountedMachine mountedMachine_session).2 response
        (closeRun (.ok 0)).2.1 (closeRun (.ok 0)).2.2 (Prod.ext hresponse rfl)
    exact ⟨session, hresponse, hstatus⟩

/-- The directory is removed although `umount` has failed; and where it has succeeded, the clean-up
takes the source to be mounted still. -/
theorem mount_outlived :
    (¬∀ (w : Surroundings) (cfg : Config) (task : Nat) (sessionId : String) (s : State)
      (machine : Machine), MountedSession cfg sessionId machine → ∀ r s' m',
        (cleanupSessionDir cfg task sessionId).apart w.server s ⟨machine, []⟩ = (r, s', m') →
        RemovesUnmounted cfg sessionId m'.log) ∧
    ¬∀ (w : Surroundings) (cfg : Config) (task : Nat) (sessionId : String) (s : State)
      (machine : Machine), MountedSession cfg sessionId machine → ∀ evidence s' m',
        (cleanupSessionDir cfg task sessionId).apart w.server s ⟨machine, []⟩ =
          (.ok evidence, s', m') →
        Succeeded cfg sessionId w m' → evidence.cleanupVerified = true := by
  constructor
  · intro claim
    have hany : (cleanRun (.ok 32)).2.2.log.any (fun st =>
        st.removed (sessionDirOf sampleConfig "session1") &&
          st.before.mounted (sessionRootOf sampleConfig "session1")) = true := by decide +kernel
    obtain ⟨st, hst, hremoved⟩ := List.any_eq_true.mp hany
    obtain ⟨hop, hmounted⟩ := (Bool.and_eq_true _ _).mp hremoved
    have hfree := claim (surroundings (.ok 32)) sampleConfig 0 "session1" activeState mountedMachine
      mountedMachine_session _ _ _ rfl st hst (Observed.removed_iff.mp hop)
    rw [hfree] at hmounted
    cases hmounted
  · intro claim
    have hverified : (cleanRun (.ok 0)).1.toOption.map (·.cleanupVerified) = some false := by
      decide +kernel
    obtain ⟨evidence, hok⟩ := ok_of_isOk (r := (cleanRun (.ok 0)).1) (by decide +kernel)
    have hsucceeded : Succeeded sampleConfig "session1" (surroundings (.ok 0))
        (cleanRun (.ok 0)).2.2 :=
      ⟨List.any_eq_true.mp (by decide +kernel), rfl, by decide +kernel⟩
    have hclaim := claim (surroundings (.ok 0)) sampleConfig 0 "session1" activeState mountedMachine
      mountedMachine_session evidence (cleanRun (.ok 0)).2.1 (cleanRun (.ok 0)).2.2
      (Prod.ext hok rfl) hsucceeded
    rw [hok] at hverified
    exact absurd (hclaim.symm.trans (Option.some.inj hverified)) (by decide)

end Ares.TerminalBroker
