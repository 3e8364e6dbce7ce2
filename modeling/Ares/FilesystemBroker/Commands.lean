import Ares.Coop.Apart
import Ares.Filesystems.Verification
import Ares.FilesystemBroker.Authority

/-! The commands that a repair runs, and what it has run when its outcome is a success. -/

namespace Ares.FilesystemBroker

open Coop Data Audit Filesystems

/-! ### Commands and other calls -/

def RunsCommand (o : Op) : Prop := ∃ tool args, o = .call (.run tool args)

section Quiet

variable {cfg : Config} {task : Nat}

theorem attempt_avoids {bad : Op → Prop} {c : Call} (h : ¬bad (.call c)) :
    (attempt c).Avoids bad :=
  (avoids_perform h).bind fun _ => avoids_ofExcept _

theorem append_avoids (entry : AuditEntry) : (append task entry).Avoids RunsCommand := by
  refine (avoids_perform (by simp [RunsCommand])).bind fun outcome => ?_
  cases outcome with
  | acked => exact avoids_modify _
  | lost => exact (avoids_modify _).bind fun _ => avoids_raise _
  | failed => exact avoids_raise _

theorem stage_avoids (plan : FilesystemRepairPlan) (name : String) (payload : Fields) :
    (stage task plan name payload).Avoids RunsCommand := by
  refine (attempt_avoids (by simp [RunsCommand])).bind fun _ => ?_
  split
  · exact append_avoids _
  · exact avoids_ret _

theorem identify_avoids (requested : String) :
    (identify cfg task requested).Avoids RunsCommand := by
  refine (avoids_require _ _).bind fun _ => (avoids_require _ _).bind fun _ => ?_
  refine ((attempt_avoids (by simp [RunsCommand])).handle fun _ => avoids_raise _).bind
    fun found => ?_
  refine (avoids_require _ _).bind fun _ => (avoids_require _ _).bind fun _ => ?_
  refine (attempt_avoids (by simp [RunsCommand])).bind fun blkid => ?_
  have hlsblk : (lsblkOf found.2 found.1).Avoids RunsCommand := by
    unfold lsblkOf
    split
    · exact attempt_avoids (by simp [RunsCommand])
    · exact avoids_ret _
  exact hlsblk.bind fun lsblk => (avoids_require _ _).bind fun _ =>
    (avoids_modify _).bind fun _ => avoids_ret _

theorem revalidate_avoids (expected : DeviceIdentity) :
    (revalidate cfg task expected).Avoids RunsCommand :=
  ((identify_avoids _).handle fun _ => avoids_raise _).bind fun _ =>
    (avoids_require _ _).bind fun _ => avoids_ret _

theorem inspectMount_avoids (identity : DeviceIdentity) :
    (inspectMount task identity).Avoids RunsCommand :=
  (attempt_avoids (by simp [RunsCommand])).bind fun _ =>
    (avoids_modify _).bind fun _ => avoids_ret _

end Quiet

section Servers

variable {μ : Type} {server : Server μ Res} {m : μ}

theorem obeys_attempt {c : Call} {Q : c.Answer → μ → Prop} {E : Error → μ → Prop} :
    (attempt c).Obeys (serverProtocol server) Q E m ↔
      (∀ a, (server (.call c) m).1 = .ok a → Q a (server (.call c) m).2) ∧
      ∀ e, (server (.call c) m).1 = .error e → E e (server (.call c) m).2 := by
  rw [attempt, Proc.attempt, obeys_bind, obeys_call, obeys_ofExcept]

def commandError (unavailable timedOut : String) : Error → Error
  | .notFound => .tool unavailable
  | .timeout => .tool timedOut
  | e => e

theorem obeys_runTool {tool unavailable timedOut : String} {args : List String}
    {Q : ProcessResult → μ → Prop} {E : Error → μ → Prop} :
    (runTool tool args unavailable timedOut).Obeys (serverProtocol server) Q E m ↔
      (∀ r, (server (.call (.run tool args)) m).1 = .ok r →
        Q r (server (.call (.run tool args)) m).2) ∧
      ∀ e, (server (.call (.run tool args)) m).1 = .error e →
        E (commandError unavailable timedOut e) (server (.call (.run tool args)) m).2 := by
  rw [runTool, obeys_handle, obeys_attempt]
  refine and_congr_right fun _ => forall_congr' fun e => forall_congr' fun _ => ?_
  cases e <;> exact Iff.rfl

end Servers

/-! ### The commands of a run -/

abbrev Command := String × List String × Except Error ProcessResult

def commandOf : Answered Res → Option Command
  | ⟨.call (.run tool args), r⟩ => some (tool, args, r)
  | _ => none

/-- The commands among some calls, the first first. -/
def commands (past : List (Answered Res)) : List Command := (past.filterMap commandOf).reverse

section Runs

variable {env : List (Answered Res) → (o : Op) → Res o} {past : List (Answered Res)}
  {plan : FilesystemRepairPlan} {onEvent : OnEvent} {task : Nat} {α : Type}

@[simp] theorem commands_run (tool : String) (args : List String)
    (r : Except Error ProcessResult) (past : List (Answered Res)) :
    commands (⟨.call (.run tool args), r⟩ :: past) = commands past ++ [(tool, args, r)] := by
  simp [commands, commandOf]

theorem commands_other {o : Op} (h : ¬RunsCommand o) (past : List (Answered Res)) :
    commands (answering env o past).2 = commands past := by
  have hnone : commandOf ⟨o, env past o⟩ = none := by
    unfold commandOf
    split
    · next tool args r heq =>
      obtain ⟨rfl, -⟩ := Sigma.mk.inj heq
      exact absurd ⟨tool, args, rfl⟩ h
    · rfl
  show commands (⟨o, env past o⟩ :: past) = commands past
  rw [commands, List.filterMap_cons_none hnone]
  rfl

abbrev Runs (past : List (Answered Res)) (more : List Command) (past' : List (Answered Res)) : Prop :=
  commands past' = commands past ++ more

theorem quiet_commands {p : Task α} (h : p.Avoids RunsCommand) :
    p.Obeys (serverProtocol (answering env)) (fun _ past' => Runs past [] past') (fun _ _ => True)
      past :=
  (h.obeys (P := fun past' => Runs past [] past') (List.append_nil _).symm fun _ past' ho hpast =>
    (commands_other ho past').trans hpast).mono (fun _ _ h => h) fun _ _ _ => trivial

theorem runTool_commands {tool unavailable timedOut : String} {args : List String} :
    (runTool tool args unavailable timedOut).Obeys (serverProtocol (answering env))
      (fun r past' => Runs past [(tool, args, .ok r)] past') (fun _ _ => True) past := by
  rw [obeys_runTool]
  refine ⟨fun r hr => ?_, fun _ _ => trivial⟩
  simp only [answering] at hr ⊢
  rw [hr]
  exact commands_run _ _ _ _

def checkCommand (plan : FilesystemRepairPlan) (r : ProcessResult) : Command :=
  let invocation := (adapterFor plan.filesystem).checkInvocation plan.target.canonicalPath
    (!plan.target.blockDevice)
  (invocation.1, invocation.2, .ok r)

theorem check_eq (identity : DeviceIdentity) (filesystem : FilesystemType) :
    check identity filesystem =
      (runTool ((adapterFor filesystem).checkInvocation identity.canonicalPath
          (!identity.blockDevice)).1
        ((adapterFor filesystem).checkInvocation identity.canonicalPath (!identity.blockDevice)).2
        "FILESYSTEM_TOOL_UNAVAILABLE" "FILESYSTEM_CHECK_TIMEOUT").bind fun result =>
          Proc.ret ((adapterFor filesystem).parseCheck result filesystem) := rfl

theorem check_commands : (check plan.target plan.filesystem).Obeys (serverProtocol (answering env))
      (fun result past' => ∃ r, Runs past [checkCommand plan r] past' ∧
        result = (adapterFor plan.filesystem).parseCheck r plan.filesystem)
      (fun _ _ => True) past := by
  rw [check_eq, obeys_bind]
  exact runTool_commands.mono (fun r past' h => ⟨r, h, rfl⟩) fun _ _ h => h

/-! ### What a success has run -/

def unmountCommand (record : MountRecord) (r : ProcessResult) : Command :=
  ("umount", ["--", record.mountPoint], .ok r)

def mountCommand (plan : FilesystemRepairPlan) (record : MountRecord) (r : ProcessResult) : Command :=
  ("mount", remountArgs plan record, .ok r)

/-- The exit codes of a repair command that the adapter of the filesystem accepts. -/
def accepted : FilesystemType → List Int
  | .ext2 | .ext3 | .ext4 => [0, 1, 2]
  | .xfs | .ntfs => [0]
  | .btrfs => []

theorem repairSucceeded_iff (filesystem : FilesystemType) (r : ProcessResult) :
    (adapterFor filesystem).repairSucceeded r = true ↔ r.exitCode ∈ accepted filesystem := by
  cases filesystem <;> simp [adapterFor, Adapter.repairSucceeded, accepted, or_assoc]

def UnmountedFirst (plan : FilesystemRepairPlan) (cs : List Command) : Prop :=
  if plan.mount.mounted then ∃ record r, plan.mount.mounts = [record] ∧ r.exitCode = 0 ∧
    cs = [unmountCommand record r]
  else cs = []

def MountedAgain (plan : FilesystemRepairPlan) (cs : List Command) : Prop :=
  if plan.mount.mounted then ∃ record r, plan.mount.mounts = [record] ∧ r.exitCode = 0 ∧
    cs = [mountCommand plan record r]
  else cs = []

/-- There was nothing to repair, or the command was run and its exit code is accepted, and the
filesystem is not one that only Windows can check. -/
def RepairedSoundly (plan : FilesystemRepairPlan) (pre : ProcessResult) (cs : List Command) : Prop :=
  pre.exitCode = 0 ∧ cs = [] ∨
  plan.filesystem ≠ .ntfs ∧ ∃ tool args r, (adapterFor plan.filesystem).repairInvocation
    plan.target.canonicalPath (!plan.target.blockDevice) = some (tool, args) ∧
    cs = [(tool, args, .ok r)] ∧ r.exitCode ∈ accepted plan.filesystem

/-- The commands of a repair that demonstrably left the filesystem consistent. -/
def SoundRepair (plan : FilesystemRepairPlan) (cs : List Command) : Prop :=
  ∃ unmounting pre repairing post mounting,
    cs = unmounting ++ checkCommand plan pre :: (repairing ++ checkCommand plan post :: mounting) ∧
    UnmountedFirst plan unmounting ∧ RepairedSoundly plan pre repairing ∧ post.exitCode = 0 ∧
    MountedAgain plan mounting

/-! ### The steps of a repair -/

theorem unmount_commands (mount : MountSafetyReport) :
    (unmount mount).Obeys (serverProtocol (answering env))
      (fun _ past' => ∃ record r, mount.mounts = [record] ∧ r.exitCode = 0 ∧
        Runs past [unmountCommand record r] past')
      (fun _ _ => True) past := by
  unfold unmount
  split
  · next record hmounts =>
    rw [obeys_do]
    refine runTool_commands.mono (fun r past' h => ?_) fun _ _ h => h
    rw [obeys_require]
    exact ⟨fun hexit => ⟨record, r, hmounts, of_decide_eq_true hexit, h⟩, fun _ => trivial⟩
  · trivial

variable (hquiet : ∀ name payload, (onEvent name payload).Avoids RunsCommand)

include hquiet in
theorem unmountWhere_commands :
    (unmountWhere plan onEvent plan.mount).Obeys (serverProtocol (answering env))
      (fun _ past' => ∃ cs, Runs past cs past' ∧ UnmountedFirst plan cs) (fun _ _ => True) past := by
  unfold unmountWhere UnmountedFirst
  by_cases hmounted : plan.mount.mounted = true
  · simp only [if_pos hmounted]
    rw [unmountFirst, obeys_do, obeys_require]
    refine ⟨fun _ => ?_, fun _ => trivial⟩
    rw [obeys_do]
    refine (quiet_commands (hquiet _ _)).mono (fun _ past1 h1 => ?_) fun _ _ h => h
    rw [obeys_do]
    refine (unmount_commands plan.mount).mono (fun _ past2 h2 => ?_) fun _ _ h => h
    obtain ⟨record, r, hmounts, hexit, h2⟩ := h2
    refine (quiet_commands (hquiet _ _)).mono (fun _ past3 h3 => ?_) fun _ _ h => h
    refine ⟨_, ?_, record, r, hmounts, hexit, rfl⟩
    simp only [Runs, List.append_nil] at h1 h2 h3 ⊢
    rw [h3, h2, h1]
  · simp only [if_neg hmounted]
    exact ⟨[], (List.append_nil _).symm, rfl⟩

theorem repaired_limitations {adapter : Adapter} {r : ProcessResult} {limitations : List String}
    (h : limitations = if adapter.repairSucceeded r then []
      else if adapter.repairPartial r then ["repair_tool_reported_unresolved_errors"]
      else ["repair_tool_failed"])
    (hfailed : "repair_tool_failed" ∉ limitations)
    (hunresolved : "repair_tool_reported_unresolved_errors" ∉ limitations) :
    adapter.repairSucceeded r = true := by
  subst h
  by_contra hnot
  rw [if_neg hnot] at hfailed hunresolved
  split at hfailed
  · next hsome => exact hunresolved (by rw [if_pos hsome]; exact List.mem_singleton.mpr rfl)
  · exact hfailed (List.mem_singleton.mpr rfl)

include hquiet in
theorem repairTarget_commands :
    (repairTarget task plan onEvent).Obeys (serverProtocol (answering env))
      (fun repaired past' => ∃ tool args r, (adapterFor plan.filesystem).repairInvocation
          plan.target.canonicalPath (!plan.target.blockDevice) = some (tool, args) ∧
        repaired.tool = tool ∧ Runs past [(tool, args, .ok r)] past' ∧
        ("repair_tool_failed" ∉ repaired.limitations →
          "repair_tool_reported_unresolved_errors" ∉ repaired.limitations →
          (adapterFor plan.filesystem).repairSucceeded r = true))
      (fun _ _ => True) past := by
  rw [repairTarget]
  dsimp only
  rw [obeys_do, obeys_ofOption]
  refine ⟨fun invocation hinvocation => ?_, fun _ => trivial⟩
  obtain ⟨tool, args⟩ := invocation
  dsimp only
  rw [obeys_do]
  refine (quiet_commands (hquiet _ _)).mono (fun _ past1 h1 => ?_) fun _ _ h => h
  rw [obeys_do]
  refine obeys_modify ?_
  rw [obeys_do]
  refine runTool_commands.mono (fun r past2 h2 => ?_) fun _ _ h => h
  rw [obeys_do]
  refine (quiet_commands (hquiet _ _)).mono (fun _ past3 h3 => ?_) fun _ _ h => h
  refine ⟨tool, args, r, hinvocation, rfl, ?_, repaired_limitations rfl⟩
  simp only [Runs, List.append_nil] at h1 h2 h3 ⊢
  rw [h3, h2, h1]

include hquiet in
theorem repairUnlessHealthy_commands (pre : ProcessResult) :
    (repairUnlessHealthy task plan onEvent
      ((adapterFor plan.filesystem).parseCheck pre plan.filesystem)).Obeys
      (serverProtocol (answering env))
      (fun repaired past' => ∃ cs, Runs past cs past' ∧
        ("repair_tool_failed" ∉ repaired.limitations →
          "repair_tool_reported_unresolved_errors" ∉ repaired.limitations →
          (plan.filesystem = .ntfs → repaired.tool = "none") → RepairedSoundly plan pre cs))
      (fun _ _ => True) past := by
  unfold repairUnlessHealthy
  by_cases hhealthy :
      ((adapterFor plan.filesystem).parseCheck pre plan.filesystem).health = .healthy
  · rw [if_pos hhealthy]
    refine ⟨[], (List.append_nil _).symm, fun _ _ _ => .inl ⟨?_, rfl⟩⟩
    exact ((adapterFor plan.filesystem).verdict_healthy _).mp hhealthy
  · rw [if_neg hhealthy]
    refine (repairTarget_commands hquiet).mono (fun repaired past' h => ?_) fun _ _ h => h
    obtain ⟨tool, args, r, hinvocation, htool, hruns, haccepted⟩ := h
    refine ⟨_, hruns, fun hfailed hunresolved hntfs => .inr ⟨fun hfilesystem => ?_, tool, args, r,
      hinvocation, rfl, (repairSucceeded_iff _ _).mp (haccepted hfailed hunresolved)⟩⟩
    refine (adapterFor plan.filesystem).tool_ne_none ?_
    rw [← Adapter.repairInvocation_tool hinvocation, ← htool]
    exact hntfs hfilesystem

theorem remount_commands : (remount plan).Obeys (serverProtocol (answering env))
      (fun remounted past' => remounted = true → ∃ record r, plan.mount.mounts = [record] ∧
        r.exitCode = 0 ∧ Runs past [mountCommand plan record r] past')
      (fun _ _ => True) past := by
  unfold remount
  split
  · next record hmounts =>
    rw [obeys_handle, obeys_do, obeys_attempt]
    refine ⟨fun r hr hexit => ⟨record, r, hmounts, of_decide_eq_true hexit, ?_⟩, fun e _ => ?_⟩
    · simp only [answering] at hr ⊢
      rw [hr]
      exact commands_run _ _ _ _
    · cases e <;> simp [pure]
  · exact nofun

include hquiet in
theorem remountAfter_commands (after : FilesystemCheckResult) :
    (remountAfter plan onEvent after).Obeys (serverProtocol (answering env))
      (fun ended past' => (plan.mount.mounted = true → ended.1 = some true) →
        ∃ cs, Runs past cs past' ∧ MountedAgain plan cs)
      (fun _ _ => True) past := by
  unfold remountAfter MountedAgain
  by_cases hmounted : plan.mount.mounted = true
  · simp only [hmounted, Bool.not_true, Bool.false_eq_true, if_false, if_true, true_implies]
    by_cases hhealthy : after.health = .healthy
    · rw [if_pos hhealthy, obeys_do]
      refine (quiet_commands (hquiet _ _)).mono (fun _ past1 h1 => ?_) fun _ _ h => h
      rw [obeys_do]
      refine remount_commands.mono (fun remounted past2 h2 => ?_) fun _ _ h => h
      rw [obeys_do]
      refine (quiet_commands (hquiet _ _)).mono (fun _ past3 h3 => ?_) fun _ _ h => h
      intro hremounted
      obtain ⟨record, r, hmounts, hexit, h2⟩ := h2 (Option.some.inj hremounted)
      refine ⟨_, ?_, record, r, hmounts, hexit, rfl⟩
      simp only [Runs, List.append_nil] at h1 h2 h3 ⊢
      rw [h3, h2, h1]
    · rw [if_neg hhealthy]
      exact nofun
  · simp only [Bool.not_eq_true] at hmounted
    simp only [hmounted, Bool.not_false, if_true, Bool.false_eq_true, if_false]
    exact fun _ => ⟨[], (List.append_nil _).symm, rfl⟩

variable (env past task plan) in
include hquiet in
theorem executeRepair_commands (cfg : Config) :
    (executeRepair cfg task plan onEvent).Obeys (serverProtocol (answering env))
      (fun outcome past' => (verificationStatus plan outcome).1 = .success →
        ∃ cs, Runs past cs past' ∧ SoundRepair plan cs)
      (fun _ _ => True) past := by
  rw [executeRepair]
  dsimp only
  rw [obeys_do, obeys_require]
  refine ⟨fun _ => ?_, fun _ => trivial⟩
  rw [obeys_do]
  refine (quiet_commands (revalidate_avoids _)).mono (fun current past1 h1 => ?_) fun _ _ h => h
  rw [obeys_do]
  refine (quiet_commands (inspectMount_avoids _)).mono (fun mount past2 h2 => ?_) fun _ _ h => h
  rw [obeys_do, obeys_require]
  refine ⟨fun hmount => ?_, fun _ => trivial⟩
  obtain rfl : mount = plan.mount := of_decide_eq_true hmount
  rw [obeys_do]
  refine (unmountWhere_commands hquiet).mono (fun _ past3 h3 => ?_) fun _ _ h => h
  obtain ⟨unmounting, h3, hunmounting⟩ := h3
  rw [obeys_do]
  refine (quiet_commands (revalidate_avoids _)).mono (fun _ past4 h4 => ?_) fun _ _ h => h
  rw [obeys_do]
  refine check_commands.mono (fun before past5 h5 => ?_) fun _ _ h => h
  obtain ⟨pre, h5, rfl⟩ := h5
  rw [obeys_do]
  refine (repairUnlessHealthy_commands hquiet pre).mono (fun repaired past6 h6 => ?_) fun _ _ h => h
  obtain ⟨repairing, h6, hrepairing⟩ := h6
  rw [obeys_do]
  refine (quiet_commands (hquiet _ _)).mono (fun _ past7 h7 => ?_) fun _ _ h => h
  rw [obeys_do]
  refine check_commands.mono (fun after past8 h8 => ?_) fun _ _ h => h
  obtain ⟨post, h8, rfl⟩ := h8
  rw [obeys_do]
  refine (quiet_commands (hquiet _ _)).mono (fun _ past9 h9 => ?_) fun _ _ h => h
  rw [obeys_do]
  refine (remountAfter_commands hquiet _).mono (fun ended past10 h10 => ?_) fun _ _ h => h
  intro hsuccess
  obtain ⟨hhealthy, hfailed, hunresolved, hntfs, hremounted⟩ := verificationStatus_success hsuccess
  simp only [List.mem_eraseDups, List.mem_append, not_or] at hfailed hunresolved
  obtain ⟨mounting, h10, hmounting⟩ := h10 hremounted
  refine ⟨_, ?_, unmounting, pre, repairing, post, mounting, rfl, hunmounting,
    hrepairing hfailed.1.2 hunresolved.1.2 hntfs,
    ((adapterFor plan.filesystem).verdict_healthy _).mp hhealthy, hmounting⟩
  simp only [Runs, List.append_nil] at h1 h2 h3 h4 h5 h6 h7 h8 h9 h10 ⊢
  rw [h10, h9, h8, h7, h6, h5, h4, h3, h2, h1]
  simp

variable (env past task onEvent) in
theorem executeRepair_btrfs (cfg : Config) (hbtrfs : plan.filesystem = .btrfs) :
    (executeRepair cfg task plan onEvent).Obeys (serverProtocol (answering env))
      (fun _ _ => False) (fun e past' => e = .tool "FILESYSTEM_REPAIR_UNSUPPORTED" ∧ past' = past)
      past := by
  rw [executeRepair]
  dsimp only
  rw [obeys_do, obeys_require, hbtrfs]
  exact ⟨fun h => (by cases h), fun _ => ⟨rfl, rfl⟩⟩

end Runs

/-- A repair whose outcome is a success, and whose record is then completed, has run a check that
found nothing after the repair command, if any, was accepted, and has mounted the target again.
Btrfs is never repaired. -/
theorem success_is_sound (cfg : Config) (task : Nat) (plan : FilesystemRepairPlan)
    (onEvent : OnEvent) (hquiet : ∀ name payload, (onEvent name payload).Avoids RunsCommand)
    (env : List (Answered Res) → (o : Op) → Res o) (s : State) :
    (∀ outcome s' past,
      (executeRepair cfg task plan onEvent).apart (answering env) s [] = (.ok outcome, s', past) →
      (∀ now record, (projectRepair now (verifyRepair plan outcome record).1
        (verifyRepair plan outcome record).2).execution.status = .completed ↔
          (verificationStatus plan outcome).1 = .success) ∧
      ((verificationStatus plan outcome).1 = .success → SoundRepair plan (commands past))) ∧
    (plan.filesystem = .btrfs → ∀ r s' past,
      (executeRepair cfg task plan onEvent).apart (answering env) s [] = (r, s', past) →
      commands past = []) := by
  constructor
  · intro outcome s' past hrun
    have hends := (executeRepair_commands env [] plan task hquiet cfg).apart (s := s)
    rw [hrun] at hends
    refine ⟨fun now record => projectRepair_completed now record, fun hsuccess => ?_⟩
    obtain ⟨cs, hruns, hsound⟩ := hends hsuccess
    rw [show commands past = cs from hruns]
    exact hsound
  · intro hbtrfs r s' past hrun
    have hends := (executeRepair_btrfs env [] onEvent task cfg hbtrfs).apart (s := s)
    rw [hrun] at hends
    cases r with
    | ok outcome => exact hends.elim
    | error e => exact congrArg commands hends.2

/-! ### A repair that succeeds -/

/-- The sample target, mounted at `/mnt`. -/
def mountedReport : MountSafetyReport :=
  { sampleMount with
    mounted := true
    mounts := [⟨"/mnt", "/", "/dev/sda1", "ext4", ["rw"], false⟩] }

def mountedPlan : FilesystemRepairPlan := { samplePlan "/dev/sda1" with mount := mountedReport }

/-- The check finds errors until the repair command has been run, which corrects them. -/
def repairAnswer (past : List (Answered Res)) : (o : Op) → Res o
  | .call (.mount _) => .ok mountedReport
  | .call (.run tool args) => .ok ⟨tool,
      if args.contains "-p" then 1
      else if args.contains "-n" then
        if (commands past).any fun c => c.2.1.contains "-p" then 0 else 4
      else 0, "", ""⟩
  | o => sampleAnswer o

theorem success_is_sound_sample : ∃ outcome s' past,
    (executeRepair sampleConfig 0 mountedPlan (stage 0 mountedPlan)).apart (answering repairAnswer)
      (State.start 0) [] = (.ok outcome, s', past) ∧
    (verificationStatus mountedPlan outcome).1 = .success ∧
    SoundRepair mountedPlan (commands past) := by
  have hrun : ((executeRepair sampleConfig 0 mountedPlan (stage 0 mountedPlan)).apart
      (answering repairAnswer) (State.start 0) []).1.toOption.map
        (fun outcome => (verificationStatus mountedPlan outcome).1) = some .success := by
    decide +kernel
  obtain ⟨outcome, houtcome, hsuccess⟩ := Option.map_eq_some_iff.mp hrun
  revert houtcome
  cases hends : (executeRepair sampleConfig 0 mountedPlan (stage 0 mountedPlan)).apart
    (answering repairAnswer) (State.start 0) [] with
  | mk r rest =>
    obtain ⟨s', past⟩ := rest
    cases r with
    | error e => exact nofun
    | ok ended =>
      intro houtcome
      obtain rfl : ended = outcome := Option.some.inj houtcome
      exact ⟨ended, s', past, rfl, hsuccess, ((success_is_sound sampleConfig 0 mountedPlan _
        (fun _ _ => stage_avoids _ _ _) repairAnswer (State.start 0)).1 ended s' past hends).2
          hsuccess⟩

end Ares.FilesystemBroker
