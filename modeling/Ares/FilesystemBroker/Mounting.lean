import Ares.FilesystemBroker.Commands
import Ares.FilesystemBroker.MountSafety

/-! Repairs on a machine with a mount table that others may change between any two calls: when the
target is mounted while it is repaired, and when a repair that fails leaves it unmounted. -/

namespace Ares.FilesystemBroker

open Coop Data Audit Filesystems
open scoped List

/-! ### The machine -/

/-- A call with its answer, the table that the call before it left, the table that it finds, and the
table that it leaves. -/
structure Step where
  op : Op
  answer : Res op
  /-- The file `mountinfo` can be read. -/
  readable : Bool
  detaches : Bool
  left : MountTable
  found : MountTable
  after : MountTable

structure Machine where
  table : MountTable
  log : List Step

/-- What is outside of the tools, by the calls so far. -/
structure World where
  answer : List Step → (o : Op) → Res o
  disturb : List Step → MountTable → MountTable
  readable : List Step → Bool
  swap : List Step → Bool
  processes : List Step → List Nat
  detaches : List Step → Bool
  numbers : String → String

def exitedZero : Except Error ProcessResult → Bool
  | .ok r => r.exitCode = 0
  | .error _ => false

namespace World

variable (w : World)

/-- The entry that `mount` adds: the device and the mount point are its last arguments. -/
def mountEntry (args : List String) : MountEntry where
  id := 0
  parent := 0
  majorMinor := w.numbers (args.dropLast.getLast?.getD "")
  root := "/"
  mountPoint := args.getLast?.getD ""
  options := "rw"
  tags := []
  filesystemType := args.getD 1 ""
  source := args.dropLast.getLast?.getD ""
  superOptions := "rw"

def reply (log : List Step) (found : MountTable) : (o : Op) → Res o
  | .call (.mount identity) =>
    match w.answer log (.call (.mount identity)) with
    | .error e => .error e
    | .ok _ => .ok (inspectMounts identity (if w.readable log then some (mountinfo found) else none)
        (w.swap log) (w.processes log))
  | o => w.answer log o

def effect (log : List Step) (found : MountTable) : (o : Op) → Res o → MountTable
  | .call (.run tool args), r =>
    if tool = "umount" then
      if exitedZero r || w.detaches log then detach (args.getLast?.getD "") found else found
    else if tool = "mount" then
      if exitedZero r then found ++ [w.mountEntry args] else found
    else found
  | _, _ => found

def server : Server Machine Res := fun o m =>
  let found := w.disturb m.log m.table
  let r := w.reply m.log found o
  let after := w.effect m.log found o r
  (r, ⟨after, ⟨o, r, w.readable m.log, w.detaches m.log, m.table, found, after⟩ :: m.log⟩)

theorem server_table (o : Op) (m : Machine) :
    (w.server o m).2.table = w.effect m.log (w.disturb m.log m.table) o
      (w.reply m.log (w.disturb m.log m.table) o) := rfl

end World

/-! ### Repairs of a mounted target -/

/-- The command of the adapter that repairs the target of the plan. -/
def IsRepair (plan : FilesystemRepairPlan) (o : Op) : Prop :=
  ∃ tool args, (adapterFor plan.filesystem).repairInvocation plan.target.canonicalPath
    (!plan.target.blockDevice) = some (tool, args) ∧ o = .call (.run tool args)

def Inspected (log : List Step) : Prop := ∃ st ∈ log, ∃ identity, st.op = .call (.mount identity)

/-- The step hides no mount of the target from the tools: nobody mounts the target once its mounts
were inspected, the inspection sees every entry of the target, and what is unmounted is the target,
not another device above it. -/
structure Step.Careful (plan : FilesystemRepairPlan) (st : Step) (past : List Step) : Prop where
  undisturbed : Inspected past →
    entriesOf plan.target.majorMinor st.found <+ entriesOf plan.target.majorMinor st.left
  shown : ∀ identity, st.op = .call (.mount identity) → st.readable = true ∧
    identity.majorMinor = plan.target.majorMinor ∧
    ∀ e ∈ entriesOf plan.target.majorMinor st.found, e.Legible
  uncovered : ∀ path, st.op = .call (.run "umount" ["--", path]) →
    Unmounted plan.target.majorMinor st.found ∨
      ∃ a, topmost path st.found = some a ∧ a.majorMinor = plan.target.majorMinor

/-- Repair commands are run while the target is not mounted, as long as the steps are careful. -/
def Guarded (plan : FilesystemRepairPlan) : List Step → Prop :=
  Always fun st past => IsRepair plan st.op → Always (Step.Careful plan) (st :: past) →
    Unmounted plan.target.majorMinor st.found

section Guards

variable {w : World} {plan : FilesystemRepairPlan} {onEvent : OnEvent} {task : Nat} {m : Machine}
  {o : Op} {report : MountSafetyReport}

/-- What an inspection says of the table still holds. -/
structure Judged (plan : FilesystemRepairPlan) (report : MountSafetyReport) (m : Machine) : Prop where
  guarded : Guarded plan m.log
  inspected : Inspected m.log
  listed : Always (Step.Careful plan) m.log →
    (entriesOf plan.target.majorMinor m.table).map (·.mountPoint) <+
      report.mounts.map (·.mountPoint)

/-- The target is not mounted. -/
structure Clear (plan : FilesystemRepairPlan) (m : Machine) : Prop where
  guarded : Guarded plan m.log
  inspected : Inspected m.log
  unmounted : Always (Step.Careful plan) m.log → Unmounted plan.target.majorMinor m.table

theorem isRepair_runs (h : IsRepair plan o) : RunsCommand o :=
  let ⟨tool, args, _, ho⟩ := h
  ⟨tool, args, ho⟩

theorem not_isRepair_run {tool : String} {args : List String}
    (h : tool ≠ (adapterFor plan.filesystem).tool) : ¬IsRepair plan (.call (.run tool args)) := by
  rintro ⟨tool', args', hinvocation, ho⟩
  injection ho with ho
  injection ho with htool
  exact h (htool.trans (Adapter.repairInvocation_tool hinvocation))

theorem guarded_call (ho : ¬IsRepair plan o) (h : Guarded plan m.log) :
    Guarded plan (w.server o m).2.log :=
  ⟨fun hrepair => absurd hrepair ho, h⟩

theorem Inspected.call (h : Inspected m.log) : Inspected (w.server o m).2.log :=
  let ⟨st, hst, hop⟩ := h
  ⟨st, List.mem_cons_of_mem _ hst, hop⟩

theorem effect_other {log : List Step} {found : MountTable} {r : Res o}
    (h : ∀ args, o ≠ .call (.run "umount" args) ∧ o ≠ .call (.run "mount" args)) :
    w.effect log found o r = found := by
  unfold World.effect
  split
  · next tool args r' =>
    rw [if_neg, if_neg]
    · rintro rfl
      exact (h args).2 rfl
    · rintro rfl
      exact (h args).1 rfl
  · rfl

theorem effect_sublist {log : List Step} {found : MountTable} {r : Res o}
    (h : ∀ args, o ≠ .call (.run "mount" args)) : w.effect log found o r <+ found := by
  unfold World.effect
  split
  · next tool args r' =>
    by_cases humount : tool = "umount"
    · rw [if_pos humount]
      split
      · exact detach_sublist _ _
      · exact List.Sublist.refl _
    · rw [if_neg humount, if_neg]
      rintro rfl
      exact h args rfl
  · exact List.Sublist.refl _

theorem Judged.call (h : Judged plan report m) (ho : ¬RunsCommand o) :
    Judged plan report (w.server o m).2 := by
  refine ⟨guarded_call (fun hrepair => ho (isRepair_runs hrepair)) h.guarded, h.inspected.call,
    fun hcareful => ?_⟩
  have hafter : (w.server o m).2.table = w.disturb m.log m.table :=
    effect_other fun args => ⟨fun heq => ho ⟨_, _, heq⟩, fun heq => ho ⟨_, _, heq⟩⟩
  rw [hafter]
  exact ((hcareful.1.undisturbed h.inspected).map _).trans (h.listed hcareful.2)

theorem Clear.call (h : Clear plan m) (ho : ∀ args, o ≠ .call (.run "mount" args)) :
    Clear plan (w.server o m).2 := by
  have hfound : Always (Step.Careful plan) (w.server o m).2.log →
      Unmounted plan.target.majorMinor (w.disturb m.log m.table) := by
    intro hcareful
    refine List.eq_nil_of_sublist_nil ?_
    have hleft : entriesOf plan.target.majorMinor m.table = [] := h.unmounted hcareful.2
    rw [← hleft]
    exact hcareful.1.undisturbed h.inspected
  refine ⟨⟨fun _ hcareful => hfound hcareful, h.guarded⟩, h.inspected.call, fun hcareful => ?_⟩
  exact unmounted_sublist (effect_sublist ho) (hfound hcareful)

/-! ### The steps of a repair -/

theorem inspectMount_judged (identity : DeviceIdentity) (h : Guarded plan m.log) :
    (inspectMount task identity).Obeys (serverProtocol w.server)
      (fun report m' => Judged plan report m' ∧ (report.mounted = false → report.mounts = []))
      (fun _ m' => Guarded plan m'.log) m := by
  have hguarded : Guarded plan (w.server (.call (.mount identity)) m).2.log :=
    guarded_call (fun hrepair => nomatch isRepair_runs hrepair) h
  rw [inspectMount, obeys_do, obeys_attempt]
  refine ⟨fun report hreport => ?_, fun e _ => hguarded⟩
  rw [obeys_do]
  refine obeys_modify ?_
  have hreply : report = inspectMounts identity
      (if w.readable m.log then some (mountinfo (w.disturb m.log m.table)) else none)
      (w.swap m.log) (w.processes m.log) := by
    simp only [World.server, World.reply] at hreport
    split at hreport
    · cases hreport
    · exact (Except.ok.inj hreport).symm
  refine ⟨⟨hguarded, ⟨_, List.mem_cons_self, identity, rfl⟩, fun hcareful => ?_⟩, ?_⟩
  · obtain ⟨hreadable, hnumber, hlegible⟩ := hcareful.1.shown identity rfl
    have hmounts : report.mounts =
        targetMounts identity (some (mountinfo (w.disturb m.log m.table))) := by
      rw [hreply, if_pos hreadable]
      rfl
    rw [← hnumber] at hlegible ⊢
    rw [hmounts]
    exact mountPoints_sublist hlegible
  · rw [hreply]
    simp [inspectMounts]

theorem unmount_clear (h : Judged plan report m) :
    (unmount report).Obeys (serverProtocol w.server) (fun _ => Clear plan)
      (fun _ m' => Guarded plan m'.log) m := by
  unfold unmount
  split
  · next record hmounts =>
    have htool : "umount" ≠ (adapterFor plan.filesystem).tool := by
      cases adapterFor plan.filesystem <;> decide
    have hguarded : Guarded plan (w.server (.call (.run "umount" ["--", record.mountPoint])) m).2.log :=
      guarded_call (not_isRepair_run htool) h.guarded
    rw [obeys_do, obeys_runTool]
    refine ⟨fun r hr => ?_, fun e _ => hguarded⟩
    rw [obeys_require]
    refine ⟨fun hexit => ⟨hguarded, h.inspected.call, fun hcareful => ?_⟩, fun _ => hguarded⟩
    have hreply : w.reply m.log (w.disturb m.log m.table)
        (.call (.run "umount" ["--", record.mountPoint])) = .ok r := hr
    have hafter : (w.server (.call (.run "umount" ["--", record.mountPoint])) m).2.table =
        detach record.mountPoint (w.disturb m.log m.table) := by
      rw [World.server_table, hreply]
      simp [World.effect, exitedZero, of_decide_eq_true hexit]
    have hlisted := ((hcareful.1.undisturbed h.inspected).map (·.mountPoint)).trans
      (h.listed hcareful.2)
    rw [hmounts] at hlisted
    have hone : (entriesOf plan.target.majorMinor (w.disturb m.log m.table)).length ≤ 1 := by
      have hlength := hlisted.length_le
      simpa using hlength
    rw [hafter, unmounted_detach_iff hone]
    exact hcareful.1.uncovered record.mountPoint rfl
  · exact h.guarded

variable (hquiet : ∀ name payload, (onEvent name payload).Avoids RunsCommand)

theorem not_mount_of_quiet (ho : ¬RunsCommand o) (args : List String) :
    o ≠ .call (.run "mount" args) :=
  fun heq => ho ⟨_, _, heq⟩

include hquiet in
theorem unmountWhere_clear (h : Judged plan plan.mount m)
    (hnone : plan.mount.mounted = false → plan.mount.mounts = []) :
    (unmountWhere plan onEvent plan.mount).Obeys (serverProtocol w.server) (fun _ => Clear plan)
      (fun _ m' => Guarded plan m'.log) m := by
  unfold unmountWhere
  by_cases hmounted : plan.mount.mounted = true
  · rw [if_pos hmounted, unmountFirst, obeys_do, obeys_require]
    refine ⟨fun _ => ?_, fun _ => h.guarded⟩
    rw [obeys_do]
    refine ((hquiet _ _).obeys h fun o m ho hm => hm.call ho).mono (fun _ m1 h1 => ?_)
      fun _ _ h1 => h1.guarded
    rw [obeys_do]
    refine (unmount_clear h1).mono (fun _ m2 h2 => ?_) fun _ _ h2 => h2
    exact ((hquiet _ _).obeys h2 fun o m ho hm => hm.call (not_mount_of_quiet ho)).mono
      (fun _ _ h3 => h3) fun _ _ h3 => h3.guarded
  · rw [if_neg hmounted]
    refine ⟨h.guarded, h.inspected, fun hcareful => ?_⟩
    have hlisted := h.listed hcareful
    rw [hnone (Bool.eq_false_iff.mpr hmounted)] at hlisted
    exact List.map_eq_nil_iff.mp (List.eq_nil_of_sublist_nil hlisted)

/-! ### A whole repair -/

def MovesMounts (o : Op) : Prop :=
  ∃ args, o = .call (.run "mount" args) ∨ o = .call (.run "umount" args)

theorem moves_runs (h : MovesMounts o) : RunsCommand o := by
  obtain ⟨args, rfl | rfl⟩ := h
  · exact ⟨"mount", args, rfl⟩
  · exact ⟨"umount", args, rfl⟩

theorem runTool_avoids {tool unavailable timedOut : String} {args : List String}
    {bad : Op → Prop} (h : ¬bad (.call (.run tool args))) :
    (runTool tool args unavailable timedOut).Avoids bad := by
  refine (attempt_avoids h).handle fun e => ?_
  cases e <;> exact avoids_raise _

theorem adapter_tool_ne (filesystem : FilesystemType) :
    (adapterFor filesystem).tool ≠ "mount" ∧ (adapterFor filesystem).tool ≠ "umount" := by
  cases filesystem <;> decide

theorem adapter_moves_nothing {filesystem : FilesystemType} {tool : String} {args : List String}
    (h : tool = (adapterFor filesystem).tool) : ¬MovesMounts (.call (.run tool args)) := by
  rintro ⟨args', heq | heq⟩ <;> injection heq with heq <;> injection heq with htool
  · exact (adapter_tool_ne filesystem).1 (h.symm.trans htool)
  · exact (adapter_tool_ne filesystem).2 (h.symm.trans htool)

theorem check_moves_nothing (identity : DeviceIdentity) (filesystem : FilesystemType) :
    (check identity filesystem).Avoids MovesMounts := by
  rw [check_eq]
  exact (runTool_avoids (adapter_moves_nothing (Adapter.checkInvocation_tool _ _ _))).bind
    fun _ => avoids_ret _

include hquiet in
theorem repairUnlessHealthy_moves_nothing (before : FilesystemCheckResult) :
    (repairUnlessHealthy task plan onEvent before).Avoids MovesMounts := by
  have hevent : ∀ name payload, (onEvent name payload).Avoids MovesMounts :=
    fun name payload => (hquiet name payload).mono fun _ => moves_runs
  unfold repairUnlessHealthy
  split
  · exact avoids_ret _
  · rw [repairTarget]
    dsimp only
    cases hinvocation : (adapterFor plan.filesystem).repairInvocation plan.target.canonicalPath
        (!plan.target.blockDevice) with
    | none => exact avoids_raise _
    | some invocation =>
      have htool := Adapter.repairInvocation_tool hinvocation
      exact (hevent _ _).bind fun _ => (avoids_modify _).bind fun _ =>
        (runTool_avoids (adapter_moves_nothing htool)).bind fun _ => (hevent _ _).bind fun _ =>
          avoids_ret _

include hquiet in
theorem remountAfter_repairs_nothing (after : FilesystemCheckResult) :
    (remountAfter plan onEvent after).Avoids (IsRepair plan) := by
  have hevent : ∀ name payload, (onEvent name payload).Avoids (IsRepair plan) :=
    fun name payload => (hquiet name payload).mono fun _ => isRepair_runs
  have hmount : (remount plan).Avoids (IsRepair plan) := by
    unfold remount
    split
    · refine Proc.Avoids.handle ((attempt_avoids ?_).bind fun _ => avoids_ret _) fun e => ?_
      · exact not_isRepair_run (adapter_tool_ne plan.filesystem).1.symm
      · cases e <;> first | exact avoids_ret _ | exact avoids_raise _
    · exact avoids_ret _
  unfold remountAfter
  split
  · exact avoids_ret _
  · split
    · exact (hevent _ _).bind fun _ => hmount.bind fun _ => (hevent _ _).bind fun _ =>
        avoids_ret _
    · exact avoids_ret _

variable (w task) in
include hquiet in
/-- Every repair command of a run is guarded. -/
theorem executeRepair_guarded (cfg : Config) (h : Guarded plan m.log) :
    (executeRepair cfg task plan onEvent).Obeys (serverProtocol w.server)
      (fun _ m' => Guarded plan m'.log) (fun _ m' => Guarded plan m'.log) m := by
  have hclear : ∀ {α : Type} {p : Task α} {m}, p.Avoids MovesMounts → Clear plan m →
      p.Obeys (serverProtocol w.server) (fun _ => Clear plan) (fun _ m' => Guarded plan m'.log) m :=
    fun hp hm => (hp.obeys hm fun o m ho hm => hm.call fun args heq => ho ⟨args, .inl heq⟩).mono
      (fun _ _ h => h) fun _ _ h => h.guarded
  have hrepair : ∀ {α : Type} {p : Task α} {m}, p.Avoids (IsRepair plan) → Guarded plan m.log →
      p.Obeys (serverProtocol w.server) (fun _ m' => Guarded plan m'.log)
        (fun _ m' => Guarded plan m'.log) m :=
    fun hp hm => hp.obeys hm fun o m ho hm => guarded_call ho hm
  have hevent : ∀ name payload, (onEvent name payload).Avoids MovesMounts :=
    fun name payload => (hquiet name payload).mono fun _ => moves_runs
  rw [executeRepair]
  dsimp only
  rw [obeys_do, obeys_require]
  refine ⟨fun _ => ?_, fun _ => h⟩
  rw [obeys_do]
  refine (hrepair ((revalidate_avoids _).mono fun _ => isRepair_runs) h).mono
    (fun current m1 h1 => ?_) fun _ _ h => h
  rw [obeys_do]
  refine (inspectMount_judged current h1).mono (fun report m2 h2 => ?_) fun _ _ h => h
  rw [obeys_do, obeys_require]
  refine ⟨fun hreport => ?_, fun _ => h2.1.guarded⟩
  obtain rfl : report = plan.mount := of_decide_eq_true hreport
  rw [obeys_do]
  refine (unmountWhere_clear hquiet h2.1 h2.2).mono (fun _ m3 h3 => ?_) fun _ _ h => h
  rw [obeys_do]
  refine (hclear ((revalidate_avoids _).mono fun _ => moves_runs) h3).mono (fun _ m4 h4 => ?_)
    fun _ _ h => h
  rw [obeys_do]
  refine (hclear (check_moves_nothing _ _) h4).mono (fun before m5 h5 => ?_) fun _ _ h => h
  rw [obeys_do]
  refine (hclear (repairUnlessHealthy_moves_nothing hquiet _) h5).mono (fun repaired m6 h6 => ?_)
    fun _ _ h => h
  rw [obeys_do]
  refine (hclear (hevent _ _) h6).mono (fun _ m7 h7 => ?_) fun _ _ h => h
  rw [obeys_do]
  refine (hclear (check_moves_nothing _ _) h7).mono (fun after m8 h8 => ?_) fun _ _ h => h
  rw [obeys_do]
  refine (hclear (hevent _ _) h8).mono (fun _ m9 h9 => ?_) fun _ _ h => h
  rw [obeys_do]
  exact (hrepair (remountAfter_repairs_nothing hquiet _) h9.guarded).mono (fun _ _ h => h)
    fun _ _ h => h

end Guards

/-- In every run the repair command is run while the target is not mounted, as long as the steps
before it were careful.  A report that calls the unmounting safe names one mount point, and what
`umount` detaches there leaves the target unmounted exactly when the topmost mount there is the
target's. -/
theorem repairs_unmounted (w : World) (cfg : Config) (task : Nat) (plan : FilesystemRepairPlan)
    (onEvent : OnEvent) (hquiet : ∀ name payload, (onEvent name payload).Avoids RunsCommand)
    (s : State) (table : MountTable) :
    (∀ r s' m', (executeRepair cfg task plan onEvent).apart w.server s ⟨table, []⟩ = (r, s', m') →
      ∀ st past, (st :: past) <:+ m'.log → IsRepair plan st.op →
        Always (Step.Careful plan) (st :: past) → Unmounted plan.target.majorMinor st.found) ∧
    ∀ identity found swap processes,
      (∀ e ∈ entriesOf identity.majorMinor found, e.Legible) →
      (inspectMounts identity (some (mountinfo found)) swap processes).safeToUnmount = true →
      ∃ record, (inspectMounts identity (some (mountinfo found)) swap processes).mounts = [record] ∧
        (Unmounted identity.majorMinor (detach record.mountPoint found) ↔
          Unmounted identity.majorMinor found ∨
            ∃ a, topmost record.mountPoint found = some a ∧
              a.majorMinor = identity.majorMinor) := by
  constructor
  · intro r s' m' hrun st past hst
    have hstart : Guarded plan (Machine.mk table []).log := trivial
    have hends := (executeRepair_guarded w task hquiet cfg hstart).apart (s := s)
    rw [hrun] at hends
    have hguarded : Guarded plan m'.log := by
      cases r with
      | ok outcome => exact hends
      | error e => exact hends
    exact hguarded.at hst
  · intro identity found swap processes hlegible hsafe
    obtain ⟨record, hmounts, hlisted⟩ := entries_of_safe hlegible hsafe
    refine ⟨record, hmounts, unmounted_detach_iff ?_⟩
    have hlength := hlisted.length_le
    simpa using hlength

/-! ### Two devices at one mount point -/

/-- A mount of the device `/dev/sda1`, or of `/dev/sdb1` with the number `8:17`. -/
def sampleEntry (id : Nat) (majorMinor : String) (source : String) : MountEntry where
  id
  parent := 1
  majorMinor
  root := "/"
  mountPoint := "/mnt"
  options := "rw"
  tags := []
  filesystemType := "ext4"
  source
  superOptions := "rw"

/-- The target is mounted at `/mnt`, and every command does its work. -/
def sampleWorld : World where
  answer _
    | .call (.mount _) => .ok mountedReport
    | .call (.run tool args) => .ok ⟨tool, if args.contains "-n" then 4 else 0, "", ""⟩
    | o => sampleAnswer o
  disturb _ table := table
  readable _ := true
  swap _ := false
  processes _ := []
  detaches _ := false
  numbers _ := "8:1"

/-- The target alone. -/
def plainTable : MountTable := [sampleEntry 40 "8:1" "/dev/sda1"]

def stackedTable : MountTable :=
  [sampleEntry 40 "8:1" "/dev/sda1", sampleEntry 41 "8:17" "/dev/sdb1"]

def mountedRun (w : World) (table : MountTable) :
    Except Error FilesystemRepairOutcome × State × Machine :=
  (executeRepair sampleConfig 0 mountedPlan (stage 0 mountedPlan)).apart w.server (State.start 0)
    ⟨table, []⟩

theorem mountedRun_eq {w : World} {table : MountTable} {r : Except Error FilesystemRepairOutcome}
    (h : (mountedRun w table).1 = r) :
    (executeRepair sampleConfig 0 mountedPlan (stage 0 mountedPlan)).apart w.server (State.start 0)
      ⟨table, []⟩ = (r, (mountedRun w table).2.1, (mountedRun w table).2.2) :=
  eq_of_fst h

def Step.repairs (st : Step) : Bool :=
  match st.op with
  | .call (.run tool args) => tool = "e2fsck" && args = ["-f", "-p", "/dev/sda1"]
  | _ => false

/-- Nobody else mounts anything, and the tools see the sample target alone. -/
def Step.plain (st : Step) : Bool :=
  st.found = st.left && match st.op with
    | .call (.mount identity) =>
      st.readable && identity.majorMinor = "8:1" && st.found = plainTable
    | .call (.run tool args) =>
      tool ≠ "umount" || args = ["--", "/mnt"] && st.found = plainTable
    | _ => true

theorem Step.isRepair {st : Step} (h : st.repairs = true) : IsRepair mountedPlan st.op := by
  rcases st with ⟨op, answer, readable, detaches, left, found, after⟩
  simp only [Step.repairs] at h
  split at h
  · next tool args =>
    rw [Bool.and_eq_true, decide_eq_true_eq, decide_eq_true_eq] at h
    obtain ⟨rfl, rfl⟩ := h
    exact ⟨_, _, rfl, rfl⟩
  · cases h

theorem sampleEntry_legible : (sampleEntry 40 "8:1" "/dev/sda1").Legible := by
  have line : ((sampleEntry 40 "8:1" "/dev/sda1").line.all fun c => !lineBreak c) = true := by
    decide +kernel
  refine ⟨fun c hc => by simpa using List.all_eq_true.mp line c hc,
    ⟨"/mnt", "/", "/dev/sda1", "ext4", ["rw"], false⟩, by decide +kernel, rfl⟩

theorem Step.careful {st : Step} {past : List Step} (h : st.plain = true) :
    st.Careful mountedPlan past := by
  rcases st with ⟨op, answer, readable, detaches, left, found, after⟩
  rw [Step.plain, Bool.and_eq_true, decide_eq_true_eq] at h
  obtain ⟨rfl : found = left, hop⟩ := h
  refine ⟨fun _ => List.Sublist.refl _, ?_, ?_⟩
  · rintro identity (rfl : op = _)
    simp only [Bool.and_eq_true, decide_eq_true_eq] at hop
    obtain ⟨⟨hreadable, hnumber⟩, rfl⟩ := hop
    refine ⟨hreadable, hnumber, fun e he => ?_⟩
    obtain rfl := List.mem_singleton.mp (List.mem_filter.mp he).1
    exact sampleEntry_legible
  · rintro path (rfl : op = _)
    simp only [ne_eq, not_true_eq_false, decide_false, Bool.false_or, Bool.and_eq_true,
      decide_eq_true_eq] at hop
    obtain ⟨hpath, rfl⟩ := hop
    obtain rfl : path = "/mnt" := (List.cons.inj (List.cons.inj hpath).2).1
    exact .inr ⟨sampleEntry 40 "8:1" "/dev/sda1", rfl, rfl⟩

theorem repairs_unmounted_sample :
    (∃ st past, (st :: past) <:+ (mountedRun sampleWorld plainTable).2.2.log ∧
      IsRepair mountedPlan st.op ∧ Always (Step.Careful mountedPlan) (st :: past) ∧
      Unmounted "8:1" st.found) ∧
    ¬Unmounted "8:1" plainTable ∧ Unmounted "8:1" (detach "/mnt" plainTable) := by
  have hsafe := repairs_unmounted sampleWorld sampleConfig 0 mountedPlan (stage 0 mountedPlan)
    (fun _ _ => stage_avoids _ _ _) (State.start 0) plainTable
  constructor
  · have hlog : ((mountedRun sampleWorld plainTable).2.2.log.any Step.repairs &&
        (mountedRun sampleWorld plainTable).2.2.log.all Step.plain) = true := by decide +kernel
    obtain ⟨hany, hall⟩ := (Bool.and_eq_true _ _).mp hlog
    obtain ⟨st, hmem, hrepairs⟩ := List.any_eq_true.mp hany
    obtain ⟨past, hst⟩ := exists_suffix_of_mem hmem
    have hcareful : Always (Step.Careful mountedPlan) (st :: past) :=
      always_iff.mpr fun st' past' hst' =>
        Step.careful (List.all_eq_true.mp hall st' (hst.subset (hst'.subset List.mem_cons_self)))
    exact ⟨st, past, hst, Step.isRepair hrepairs, hcareful,
      hsafe.1 _ _ _ (mountedRun_eq rfl) st past hst (Step.isRepair hrepairs) hcareful⟩
  · refine ⟨by decide, ?_⟩
    have hlegible : ∀ e ∈ entriesOf (sampleTarget "/dev/sda1").majorMinor plainTable,
        e.Legible := fun e he => by
      obtain rfl := List.mem_singleton.mp (List.mem_filter.mp he).1
      exact sampleEntry_legible
    obtain ⟨record, hmounts, hdetach⟩ :=
      hsafe.2 (sampleTarget "/dev/sda1") plainTable false [] hlegible (by decide +kernel)
    have hrecord : (inspectMounts (sampleTarget "/dev/sda1") (some (mountinfo plainTable)) false
        []).mounts.map (·.mountPoint) = ["/mnt"] := by decide +kernel
    rw [hmounts] at hrecord
    have hpoint : record.mountPoint = "/mnt" := (List.cons.inj hrecord).1
    rw [hpoint] at hdetach
    exact hdetach.mpr (.inr ⟨sampleEntry 40 "8:1" "/dev/sda1", rfl, rfl⟩)

/-- The report calls the unmounting of the target safe.  What `umount` detaches is the device above
it, and the command repairs the target while it is mounted. -/
theorem covered_target_repaired :
    (¬∀ (w : World) (cfg : Config) (task : Nat) (plan : FilesystemRepairPlan) (onEvent : OnEvent),
      (∀ name payload, (onEvent name payload).Avoids RunsCommand) →
      ∀ s table r s' m',
        (executeRepair cfg task plan onEvent).apart w.server s ⟨table, []⟩ = (r, s', m') →
        ∀ st past, (st :: past) <:+ m'.log → IsRepair plan st.op →
          Unmounted plan.target.majorMinor st.found) ∧
    ¬∀ identity found swap processes,
      (inspectMounts identity (some (mountinfo found)) swap processes).safeToUnmount = true →
      ∃ record, (inspectMounts identity (some (mountinfo found)) swap processes).mounts = [record] ∧
        Unmounted identity.majorMinor (detach record.mountPoint found) := by
  constructor
  · intro claim
    have hany : (mountedRun sampleWorld stackedTable).2.2.log.any (fun st =>
        st.repairs && !decide (Unmounted "8:1" st.found)) = true := by decide +kernel
    obtain ⟨st, hmem, hst⟩ := List.any_eq_true.mp hany
    rw [Bool.and_eq_true, Bool.not_eq_true', decide_eq_false_iff_not] at hst
    obtain ⟨past, hsuffix⟩ := exists_suffix_of_mem hmem
    exact hst.2 (claim sampleWorld sampleConfig 0 mountedPlan (stage 0 mountedPlan)
      (fun _ _ => stage_avoids _ _ _) (State.start 0) stackedTable _ _ _ (mountedRun_eq rfl)
      st past hsuffix
      (Step.isRepair hst.1))
  · intro claim
    obtain ⟨hsafe, hrecord⟩ : (inspectMounts (sampleTarget "/dev/sda1")
          (some (mountinfo stackedTable)) false []).safeToUnmount = true ∧
        (inspectMounts (sampleTarget "/dev/sda1") (some (mountinfo stackedTable)) false
          []).mounts.map (·.mountPoint) = ["/mnt"] := by decide +kernel
    obtain ⟨record, hmounts, hdetach⟩ :=
      claim (sampleTarget "/dev/sda1") stackedTable false [] hsafe
    rw [hmounts] at hrecord
    have hpoint : record.mountPoint = "/mnt" := (List.cons.inj hrecord).1
    rw [hpoint] at hdetach
    exact absurd hdetach (by decide)

end Ares.FilesystemBroker
