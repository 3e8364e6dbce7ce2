import Ares.FilesystemBroker.Mounting

/-! Repairs that raise: what becomes of a mount that the repair has found.  The only `mount` of a repair
comes after everything else, so whatever raises between the unmounting and it leaves the target
unmounted. -/

namespace Ares.FilesystemBroker

open Coop Data Audit Filesystems
open scoped List

/-- The device is mounted at the path. -/
def MountedAt (majorMinor path : String) (table : MountTable) : Prop :=
  ∃ e ∈ table, e.majorMinor = majorMinor ∧ e.mountPoint = path

instance (majorMinor path : String) (table : MountTable) :
    Decidable (MountedAt majorMinor path table) :=
  inferInstanceAs (Decidable (∃ e ∈ table, e.majorMinor = majorMinor ∧ e.mountPoint = path))

def MountsSomething (o : Op) : Prop := ∃ args, o = .call (.run "mount" args)

def Step.exited : Step → Bool
  | ⟨.call (.run _ _), r, _, _, _, _, _⟩ => exitedZero r
  | _ => false

/-- An unmounting at the path that detaches what is on top there, the last mount of the device. -/
def Step.Detaches (majorMinor path : String) (st : Step) : Prop :=
  ∃ args, st.op = .call (.run "umount" args) ∧ args.getLast?.getD "" = path ∧
    (st.exited || st.detaches) = true ∧ ¬MountedAt majorMinor path (detach path st.found)

/-- Others leave the mount at the path as it is, and a `mount` exits with zero. -/
structure Step.Left (majorMinor path : String) (st : Step) : Prop where
  undisturbed : MountedAt majorMinor path st.found ↔ MountedAt majorMinor path st.left
  exits : MountsSomething st.op → st.exited = true

/-- No unmounting of the log has taken the mount away. -/
def NeverDetached (majorMinor path : String) (log : List Step) : Prop :=
  ∀ st ∈ log, ¬st.Detaches majorMinor path

theorem neverDetached_cons {majorMinor path : String} {st : Step} {log : List Step} :
    NeverDetached majorMinor path (st :: log) ↔
      ¬st.Detaches majorMinor path ∧ NeverDetached majorMinor path log := by
  simp [NeverDetached]

/-- The log has a `mount`. -/
def MountRun (log : List Step) : Prop := ∃ st ∈ log, MountsSomething st.op

def IsUnmounting (plan : FilesystemRepairPlan) (args : List String) : Prop :=
  ∃ record, plan.mount.mounts = [record] ∧ args = ["--", record.mountPoint]

def Strays (plan : FilesystemRepairPlan) (o : Op) : Prop :=
  MountsSomething o ∨ ∃ args, o = .call (.run "umount" args) ∧ ¬IsUnmounting plan args

section Tables

variable {majorMinor path : String} {table table' : MountTable}

theorem MountedAt.sublist (h : MountedAt majorMinor path table) (hsub : table <+ table') :
    MountedAt majorMinor path table' :=
  let ⟨e, he, hof⟩ := h
  ⟨e, hsub.subset he, hof⟩

theorem MountedAt.detach {other : String} (h : MountedAt majorMinor path table)
    (hother : other ≠ path) : MountedAt majorMinor path (detach other table) := by
  cases htop : topmost other table with
  | none => rwa [detach_of_none htop]
  | some a =>
    obtain ⟨e, he, hnumber, hpath⟩ := h
    obtain ⟨below, above, htable, hdetach⟩ := detach_topmost htop
    have ha : a.mountPoint = other := by simpa using List.find?_some htop
    refine ⟨e, ?_, hnumber, hpath⟩
    rw [hdetach]
    rw [htable, List.mem_append, List.mem_cons] at he
    rcases he with hbelow | rfl | habove
    · exact List.mem_append_left _ hbelow
    · exact absurd (ha.symm.trans hpath) hother
    · exact List.mem_append_right _ habove

theorem mountedAt_append (e : MountEntry) : MountedAt majorMinor path (table ++ [e]) ↔
    MountedAt majorMinor path table ∨ e.majorMinor = majorMinor ∧ e.mountPoint = path := by
  constructor
  · rintro ⟨e', he', hof⟩
    rcases List.mem_append.mp he' with he' | he'
    · exact .inl ⟨e', he', hof⟩
    · obtain rfl := List.mem_singleton.mp he'
      exact .inr hof
  · rintro (⟨e', he', hof⟩ | hof)
    · exact ⟨e', List.mem_append_left _ he', hof⟩
    · exact ⟨e, List.mem_append_right _ (List.mem_singleton_self e), hof⟩

end Tables

section Runs

variable {w : World} {plan : FilesystemRepairPlan} {onEvent : OnEvent} {task : Nat} {m : Machine}
  {o : Op} {majorMinor path : String}

theorem strays_moves (h : Strays plan o) : MovesMounts o := by
  rcases h with ⟨args, rfl⟩ | ⟨args, rfl, -⟩
  · exact ⟨args, .inl rfl⟩
  · exact ⟨args, .inr rfl⟩

/-- The step that a call makes. -/
def World.step (w : World) (o : Op) (m : Machine) : Step :=
  let found := w.disturb m.log m.table
  ⟨o, w.reply m.log found o, w.readable m.log, w.detaches m.log, m.table, found,
    w.effect m.log found o (w.reply m.log found o)⟩

theorem server_log (o : Op) (m : Machine) : (w.server o m).2.log = w.step o m :: m.log := rfl

theorem mountedAt_step (ho : ¬MountsSomething o) :
    MountedAt majorMinor path (w.server o m).2.table ↔
      MountedAt majorMinor path (w.step o m).found ∧ ¬(w.step o m).Detaches majorMinor path := by
  have hmount : ∀ args, o ≠ .call (.run "mount" args) := fun args heq => ho ⟨args, heq⟩
  by_cases humount : ∃ args, o = .call (.run "umount" args)
  · obtain ⟨args, rfl⟩ := humount
    have htable : (w.server (.call (.run "umount" args)) m).2.table =
        if (w.step (.call (.run "umount" args)) m).exited ||
            (w.step (.call (.run "umount" args)) m).detaches then
          detach (args.getLast?.getD "") (w.step (.call (.run "umount" args)) m).found
        else (w.step (.call (.run "umount" args)) m).found := rfl
    rw [htable]
    split
    · next hdetaches =>
      constructor
      · refine fun hafter => ⟨hafter.sublist (detach_sublist _ _), ?_⟩
        rintro ⟨args', hop, rfl, -, hgone⟩
        cases hop
        exact hgone hafter
      · rintro ⟨hfound, hkept⟩
        by_cases hpath : args.getLast?.getD "" = path
        · subst hpath
          by_contra hgone
          exact hkept ⟨args, rfl, rfl, hdetaches, hgone⟩
        · exact hfound.detach hpath
    · next hnot =>
      refine (and_iff_left ?_).symm
      rintro ⟨args', -, -, hdetaches, -⟩
      exact hnot hdetaches
  · have hafter : (w.server o m).2.table = (w.step o m).found :=
      effect_other fun args => ⟨fun heq => humount ⟨args, heq⟩, hmount args⟩
    rw [hafter]
    refine (and_iff_left ?_).symm
    rintro ⟨args, hop, -⟩
    exact humount ⟨args, hop⟩

/-- Nothing was mounted: the mount is there where no unmounting has taken it away. -/
structure Before (plan : FilesystemRepairPlan) (majorMinor path : String) (m : Machine) : Prop where
  unmounted : ¬MountRun m.log
  known : ∀ st ∈ m.log, ∀ args, st.op = .call (.run "umount" args) → IsUnmounting plan args
  there : (∀ st ∈ m.log, st.Left majorMinor path) →
    (MountedAt majorMinor path m.table ↔ NeverDetached majorMinor path m.log)
  still : (∀ st ∈ m.log, MountedAt majorMinor path st.after) → MountedAt majorMinor path m.table

/-- The path of the plan was mounted again, where the mount had been. -/
structure After (w : World) (plan : FilesystemRepairPlan) (majorMinor path : String) (m : Machine) :
    Prop where
  mounted : MountRun m.log
  there : (∀ st ∈ m.log, st.Left majorMinor path) →
    (MountedAt majorMinor path m.table ↔
      NeverDetached majorMinor path m.log ∨ w.numbers plan.target.canonicalPath = majorMinor)
  still : (∀ st ∈ m.log, MountedAt majorMinor path st.after) → MountedAt majorMinor path m.table

theorem Before.call (h : Before plan majorMinor path m) (ho : ¬Strays plan o) :
    Before plan majorMinor path (w.server o m).2 := by
  have hmounts : ¬MountsSomething o := fun hmounts => ho (.inl hmounts)
  refine ⟨?_, ?_, fun hleft => ?_, fun hall => hall _ List.mem_cons_self⟩
  · rintro ⟨st, hst, hmount⟩
    rcases List.mem_cons.mp hst with rfl | hst
    · exact hmounts hmount
    · exact h.unmounted ⟨st, hst, hmount⟩
  · intro st hst args hop
    rcases List.mem_cons.mp hst with rfl | hst
    · by_contra hunknown
      exact ho (.inr ⟨args, hop, hunknown⟩)
    · exact h.known st hst args hop
  · obtain ⟨hnow, hpast⟩ := List.forall_mem_cons.mp hleft
    have hfound : MountedAt majorMinor path (w.step o m).found ↔
        NeverDetached majorMinor path m.log := hnow.undisturbed.trans (h.there hpast)
    rw [mountedAt_step hmounts, hfound, server_log, neverDetached_cons, and_comm]

theorem neverDetached_mount {args : List String} :
    NeverDetached majorMinor path (w.server (.call (.run "mount" args)) m).2.log ↔
      NeverDetached majorMinor path m.log := by
  rw [server_log, neverDetached_cons, and_iff_right]
  rintro ⟨args', hop, -⟩
  exact absurd hop (by simp [World.step])

theorem mountEntry_remountArgs (record : MountRecord) :
    (w.mountEntry (remountArgs plan record)).majorMinor = w.numbers plan.target.canonicalPath ∧
      (w.mountEntry (remountArgs plan record)).mountPoint = record.mountPoint := by
  rw [remountArgs]
  split <;> exact ⟨rfl, rfl⟩

theorem Before.mount {record : MountRecord} (h : Before plan majorMinor path m)
    (hrecord : plan.mount.mounts = [record]) :
    After w plan majorMinor path
      (w.server (.call (.run "mount" (remountArgs plan record))) m).2 := by
  refine ⟨⟨_, List.mem_cons_self, _, rfl⟩, fun hleft => ?_, fun hall => hall _ List.mem_cons_self⟩
  obtain ⟨hnow, hpast⟩ := List.forall_mem_cons.mp hleft
  have hexited : (w.step (.call (.run "mount" (remountArgs plan record))) m).exited = true :=
    hnow.exits ⟨_, rfl⟩
  have htable : (w.server (.call (.run "mount" (remountArgs plan record))) m).2.table =
      w.disturb m.log m.table ++ [w.mountEntry (remountArgs plan record)] := if_pos hexited
  have hfound : MountedAt majorMinor path (w.disturb m.log m.table) ↔
      NeverDetached majorMinor path m.log := hnow.undisturbed.trans (h.there hpast)
  rw [htable, mountedAt_append, neverDetached_mount, hfound, (mountEntry_remountArgs record).1,
    (mountEntry_remountArgs record).2]
  refine or_congr_right' fun hdetached => and_iff_left_of_imp fun _ => ?_
  -- what was unmounted there is the mount of the plan
  obtain ⟨st, hst, args, hop, hpath, -⟩ : ∃ st ∈ m.log, st.Detaches majorMinor path := by
    by_contra hnone
    exact hdetached fun st hst hdetaches => hnone ⟨st, hst, hdetaches⟩
  obtain ⟨record', hrecord', rfl⟩ := h.known st hst args hop
  rw [hrecord] at hrecord'
  obtain rfl : record = record' := (List.cons.inj hrecord').1
  exact hpath

theorem After.call (h : After w plan majorMinor path m) (ho : ¬RunsCommand o) :
    After w plan majorMinor path (w.server o m).2 := by
  have hstrays : ¬MountsSomething o := by
    rintro ⟨args, rfl⟩
    exact ho ⟨_, args, rfl⟩
  have hkeeps : ¬(w.step o m).Detaches majorMinor path := by
    rintro ⟨args, hop, -⟩
    exact ho ⟨_, args, hop⟩
  obtain ⟨st, hst, hmounts⟩ := h.mounted
  refine ⟨⟨st, List.mem_cons_of_mem _ hst, hmounts⟩, fun hleft => ?_,
    fun hall => hall _ List.mem_cons_self⟩
  obtain ⟨hnow, hpast⟩ := List.forall_mem_cons.mp hleft
  rw [mountedAt_step hstrays, and_iff_left hkeeps, server_log, neverDetached_cons,
    and_iff_right hkeeps]
  exact hnow.undisturbed.trans (h.there hpast)

/-- Nothing was mounted yet, or the path of the plan is. -/
def Settled (w : World) (plan : FilesystemRepairPlan) (majorMinor path : String) (m : Machine) :
    Prop :=
  Before plan majorMinor path m ∨ After w plan majorMinor path m

theorem Settled.call (h : Settled w plan majorMinor path m) (ho : ¬RunsCommand o) :
    Settled w plan majorMinor path (w.server o m).2 :=
  h.imp (·.call fun hstrays => ho (moves_runs (strays_moves hstrays))) (·.call ho)

/-! ### The steps of a repair -/

theorem unmount_avoids : (unmount plan.mount).Avoids (Strays plan) := by
  unfold unmount
  split
  · next record hmounts =>
    refine (runTool_avoids ?_).bind fun _ => avoids_require _ _
    rintro (⟨args, heq⟩ | ⟨args, heq, hunknown⟩)
    · injection heq with heq
      injection heq with htool
      exact absurd htool (by decide)
    · injection heq with heq
      injection heq with _ hargs
      exact hunknown ⟨record, hmounts, hargs.symm⟩
  · exact avoids_raise _

variable (hquiet : ∀ name payload, (onEvent name payload).Avoids RunsCommand)

include hquiet in
theorem event_avoids (name : String) (payload : Fields) :
    (onEvent name payload).Avoids (Strays plan) :=
  (hquiet name payload).mono fun _ hstrays => moves_runs (strays_moves hstrays)

include hquiet in
theorem unmountWhere_avoids : (unmountWhere plan onEvent plan.mount).Avoids (Strays plan) := by
  unfold unmountWhere
  split
  · exact (avoids_require _ _).bind fun _ => (event_avoids hquiet _ _).bind fun _ =>
      unmount_avoids.bind fun _ => event_avoids hquiet _ _
  · exact avoids_ret _

theorem remount_after (h : Before plan majorMinor path m) :
    (remount plan).Obeys (serverProtocol w.server)
      (fun _ => Settled w plan majorMinor path) (fun _ => Settled w plan majorMinor path) m := by
  unfold remount
  split
  · next record hmounts =>
    rw [obeys_handle, obeys_do, obeys_attempt]
    refine ⟨fun r hr => .inr (h.mount hmounts), fun e he => ?_⟩
    cases e <;> exact .inr (h.mount hmounts)
  · exact .inl h

include hquiet in
theorem remountAfter_after (result : FilesystemCheckResult) (h : Before plan majorMinor path m) :
    (remountAfter plan onEvent result).Obeys (serverProtocol w.server) (fun _ _ => True)
      (fun _ => Settled w plan majorMinor path) m := by
  unfold remountAfter
  split
  · trivial
  · split
    · rw [obeys_do]
      refine ((event_avoids hquiet _ _).obeys h fun o m ho hm => hm.call ho).mono
        (fun _ m1 h1 => ?_) fun _ _ h => .inl h
      rw [obeys_do]
      refine (remount_after h1).mono (fun _ m2 h2 => ?_) fun _ _ h => h
      rw [obeys_do]
      exact ((hquiet _ _).obeys h2 fun o m ho hm => hm.call ho).mono (fun _ _ _ => trivial)
        fun _ _ h => h
    · trivial

variable (w task plan) in
include hquiet in
theorem executeRepair_before (cfg : Config) (h : Before plan majorMinor path m) :
    (executeRepair cfg task plan onEvent).Obeys (serverProtocol w.server) (fun _ _ => True)
      (fun _ => Settled w plan majorMinor path) m := by
  have hkeeps : ∀ {α : Type} {p : Task α} {m}, p.Avoids (Strays plan) →
      Before plan majorMinor path m → p.Obeys (serverProtocol w.server)
        (fun _ => Before plan majorMinor path) (fun _ => Settled w plan majorMinor path) m :=
    fun hp hm => (hp.obeys hm fun o m ho hm => hm.call ho).mono (fun _ _ h => h)
      fun _ _ h => .inl h
  have hevent : ∀ name payload, (onEvent name payload).Avoids (Strays plan) :=
    event_avoids hquiet
  have hrevalidate : (revalidate cfg task plan.target).Avoids (Strays plan) :=
    (revalidate_avoids _).mono fun _ hstrays => moves_runs (strays_moves hstrays)
  have hinspect : ∀ identity, (inspectMount task identity).Avoids (Strays plan) :=
    fun identity => (inspectMount_avoids identity).mono fun _ hstrays =>
      moves_runs (strays_moves hstrays)
  have hcheck : (check plan.target plan.filesystem).Avoids (Strays plan) :=
    (check_moves_nothing _ _).mono fun _ => strays_moves
  have hrepair : ∀ before, (repairUnlessHealthy task plan onEvent before).Avoids (Strays plan) :=
    fun before => (repairUnlessHealthy_moves_nothing hquiet before).mono fun _ => strays_moves
  rw [executeRepair]
  dsimp only
  rw [obeys_do, obeys_require]
  refine ⟨fun _ => ?_, fun _ => .inl h⟩
  rw [obeys_do]
  refine (hkeeps hrevalidate h).mono (fun current m1 h1 => ?_) fun _ _ h => h
  rw [obeys_do]
  refine (hkeeps (hinspect current) h1).mono (fun report m2 h2 => ?_) fun _ _ h => h
  rw [obeys_do, obeys_require]
  refine ⟨fun hreport => ?_, fun _ => .inl h2⟩
  obtain rfl : report = plan.mount := of_decide_eq_true hreport
  rw [obeys_do]
  refine (hkeeps (unmountWhere_avoids hquiet) h2).mono (fun _ m3 h3 => ?_) fun _ _ h => h
  rw [obeys_do]
  refine (hkeeps hrevalidate h3).mono (fun _ m4 h4 => ?_) fun _ _ h => h
  rw [obeys_do]
  refine (hkeeps hcheck h4).mono (fun before m5 h5 => ?_) fun _ _ h => h
  rw [obeys_do]
  refine (hkeeps (hrepair _) h5).mono (fun _ m6 h6 => ?_) fun _ _ h => h
  rw [obeys_do]
  refine (hkeeps (hevent _ _) h6).mono (fun _ m7 h7 => ?_) fun _ _ h => h
  rw [obeys_do]
  refine (hkeeps hcheck h7).mono (fun after m8 h8 => ?_) fun _ _ h => h
  rw [obeys_do]
  refine (hkeeps (hevent _ _) h8).mono (fun _ m9 h9 => ?_) fun _ _ h => h
  rw [obeys_do]
  exact (remountAfter_after hquiet after h9).mono (fun _ _ _ => trivial) fun _ _ h => h

end Runs

/-- A repair that raises leaves the target mounted where it was, or has never unmounted it, exactly
when it raised before an unmounting took the mount away, or after the `mount` at its end, the path
that is mounted being the target's. -/
theorem aborted_restored_iff (w : World) (cfg : Config) (task : Nat) (plan : FilesystemRepairPlan)
    (onEvent : OnEvent) (hquiet : ∀ name payload, (onEvent name payload).Avoids RunsCommand)
    (s : State) (table : MountTable) (path : String)
    (hmounted : MountedAt plan.target.majorMinor path table) (e : Error) (s' : State) (m' : Machine)
    (hrun : (executeRepair cfg task plan onEvent).apart w.server s ⟨table, []⟩ = (.error e, s', m'))
    (hleft : ∀ st ∈ m'.log, st.Left plan.target.majorMinor path) :
    (MountedAt plan.target.majorMinor path m'.table ∨
        ∀ st ∈ m'.log, MountedAt plan.target.majorMinor path st.after) ↔
      NeverDetached plan.target.majorMinor path m'.log ∨
        MountRun m'.log ∧ w.numbers plan.target.canonicalPath = plan.target.majorMinor := by
  have hstart : Before plan plan.target.majorMinor path ⟨table, []⟩ :=
    ⟨by simp [MountRun], by simp, fun _ => by simp [NeverDetached, hmounted], fun _ => hmounted⟩
  have hends := (executeRepair_before w plan task hquiet cfg hstart).apart (s := s)
  rw [hrun] at hends
  replace hends : Settled w plan plan.target.majorMinor path m' := hends
  have hstill : (MountedAt plan.target.majorMinor path m'.table ∨
      ∀ st ∈ m'.log, MountedAt plan.target.majorMinor path st.after) ↔
      MountedAt plan.target.majorMinor path m'.table :=
    or_iff_left_of_imp (hends.elim (·.still) (·.still))
  rw [hstill]
  rcases hends with hbefore | hafter
  · rw [hbefore.there hleft]
    exact (or_iff_left fun hmount => hbefore.unmounted hmount.1).symm
  · rw [hafter.there hleft]
    exact or_congr_right (and_iff_right hafter.mounted).symm

/-! ### A device that changes, and a client that goes away -/

def changingWorld : World where
  answer log
    | .call (.resolve requested) =>
      if entriesOf "8:1" ((log.head?.map (·.after)).getD plainTable) = [] then
        .ok ("/dev/sdb1", .block 8 17)
      else .ok (requested, .block 8 1)
    | o => sampleWorld.answer log o
  disturb _ table := table
  readable _ := true
  swap _ := false
  processes _ := []
  detaches _ := false
  numbers _ := "8:1"

def Step.mounts (st : Step) : Bool :=
  match st.op with
  | .call (.run tool _) => tool = "mount"
  | _ => false

/-- The repair succeeds, and the client goes away when the target is mounted again. -/
def leavingWorld : World :=
  { sampleWorld with
    answer := fun log o => match o with
      | .call .send => if log.any Step.mounts then .error .cancelled else .ok ()
      | .call (.run tool _) => .ok ⟨tool, 0, "", ""⟩
      | o => sampleWorld.answer log o }

/-- Nobody else mounts anything, and the step is no `mount` that fails. -/
def Step.undisturbed (st : Step) : Bool :=
  st.found = st.left && (!st.mounts || st.exited)

/-- Nor is it a repair. -/
def Step.harmless (st : Step) : Bool :=
  st.undisturbed && match st.op with
    | .call (.run tool _) => tool ≠ "e2fsck"
    | _ => true

theorem Step.left_of_undisturbed {st : Step} (h : st.undisturbed = true) (majorMinor path : String) :
    st.Left majorMinor path := by
  rw [Step.undisturbed, Bool.and_eq_true, decide_eq_true_eq, Bool.or_eq_true, Bool.not_eq_true'] at h
  obtain ⟨hfound, hexits⟩ := h
  refine ⟨by rw [hfound], ?_⟩
  rintro ⟨args, hop⟩
  refine hexits.resolve_left fun hnot => ?_
  rw [Step.mounts, hop] at hnot
  cases hnot

theorem failure_of_none {α : Type} {r : Except Error α} (h : r.toOption.isNone = true) :
    ∃ e, r = .error e := by
  cases r with
  | ok a => cases h
  | error e => exact ⟨e, rfl⟩

theorem mountRun_of_any {log : List Step} (h : log.any Step.mounts = true) : MountRun log := by
  obtain ⟨st, hst, hmounts⟩ := List.any_eq_true.mp h
  refine ⟨st, hst, ?_⟩
  rw [Step.mounts] at hmounts
  split at hmounts
  · next tool args hop =>
    obtain rfl := of_decide_eq_true hmounts
    exact ⟨args, hop⟩
  · cases hmounts

/-- The target was unmounted, and when the callback fails at the end it is mounted again. -/
theorem aborted_restored_sample :
    (∃ st ∈ (mountedRun leavingWorld plainTable).2.2.log, ¬MountedAt "8:1" "/mnt" st.after) ∧
    ∃ e, (mountedRun leavingWorld plainTable).1 = .error e ∧
      (MountedAt "8:1" "/mnt" (mountedRun leavingWorld plainTable).2.2.table ∨
        ∀ st ∈ (mountedRun leavingWorld plainTable).2.2.log, MountedAt "8:1" "/mnt" st.after) := by
  obtain ⟨hgone, hmount, hall, hfails⟩ :
      (∃ st ∈ (mountedRun leavingWorld plainTable).2.2.log, ¬MountedAt "8:1" "/mnt" st.after) ∧
      (mountedRun leavingWorld plainTable).2.2.log.any Step.mounts = true ∧
      (mountedRun leavingWorld plainTable).2.2.log.all Step.undisturbed = true ∧
      (mountedRun leavingWorld plainTable).1.toOption.isNone = true := by decide +kernel
  refine ⟨hgone, ?_⟩
  obtain ⟨e, he⟩ := failure_of_none hfails
  refine ⟨e, he, ?_⟩
  refine (aborted_restored_iff leavingWorld sampleConfig 0 mountedPlan (stage 0 mountedPlan)
    (fun _ _ => stage_avoids _ _ _) (State.start 0) plainTable "/mnt" (by decide) e
    (mountedRun leavingWorld plainTable).2.1 (mountedRun leavingWorld plainTable).2.2
    (mountedRun_eq he) fun st hst => ?_).mpr (.inr ⟨mountRun_of_any hmount, rfl⟩)
  exact Step.left_of_undisturbed (List.all_eq_true.mp hall st hst) _ _

/-- The device changes while it is unmounted.  The repair is refused, no command has repaired
anything, and the target stays unmounted. -/
theorem aborted_left_unmounted :
    ¬∀ (w : World) (cfg : Config) (task : Nat) (plan : FilesystemRepairPlan) (onEvent : OnEvent),
      (∀ name payload, (onEvent name payload).Avoids RunsCommand) →
      ∀ s table path, MountedAt plan.target.majorMinor path table → ∀ e s' m',
        (executeRepair cfg task plan onEvent).apart w.server s ⟨table, []⟩ = (.error e, s', m') →
        (∀ st ∈ m'.log, st.Left plan.target.majorMinor path) →
        (∀ st ∈ m'.log, ¬IsRepair plan st.op) →
        w.numbers plan.target.canonicalPath = plan.target.majorMinor →
        MountedAt plan.target.majorMinor path m'.table ∨
          ∀ st ∈ m'.log, MountedAt plan.target.majorMinor path st.after := by
  intro claim
  obtain ⟨hall, hfails, hnow, hlater⟩ :
      (mountedRun changingWorld plainTable).2.2.log.all Step.harmless = true ∧
      (mountedRun changingWorld plainTable).1.toOption.isNone = true ∧
      ¬MountedAt "8:1" "/mnt" (mountedRun changingWorld plainTable).2.2.table ∧
      ¬∀ st ∈ (mountedRun changingWorld plainTable).2.2.log, MountedAt "8:1" "/mnt" st.after := by
    decide +kernel
  have hstep := fun st hst => (Bool.and_eq_true _ _).mp (List.all_eq_true.mp hall st hst)
  obtain ⟨e, he⟩ := failure_of_none hfails
  have hends := claim changingWorld sampleConfig 0 mountedPlan (stage 0 mountedPlan)
    (fun _ _ => stage_avoids _ _ _) (State.start 0) plainTable "/mnt" (by decide) e
    (mountedRun changingWorld plainTable).2.1 (mountedRun changingWorld plainTable).2.2
    (mountedRun_eq he) (fun st hst => Step.left_of_undisturbed (hstep st hst).1 _ _) ?_ rfl
  · exact hends.elim hnow hlater
  · rintro st hst ⟨tool, args, hinvocation, hop⟩
    have htool := (hstep st hst).2
    rw [hop] at htool
    obtain rfl : tool = "e2fsck" := Adapter.repairInvocation_tool hinvocation
    simp at htool

end Ares.FilesystemBroker
