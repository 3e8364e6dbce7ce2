import Ares.FilesystemBroker.Authority

/-! The device that a repair reaches.  The command takes its path from the target of the client's
plan; only the fingerprint of that target is compared with the fresh identity of the device.  The
repair goes to the device that was checked in every run in which the executed plans carry the
fingerprint of their own targets. -/

namespace Ares.FilesystemBroker

open Coop Filesystems

/-- The command of the request `t` is run on `path`, the device that the request identified afresh
as `fresh`, whose fingerprint the durable checkpoint records, and whose mounts it accepted. -/
structure Aimed (t : Nat) (plan : FilesystemRepairPlan) (path : String) (fresh : DeviceIdentity)
    (past : List Event) : Prop where
  reached : path = fresh.canonicalPath
  requested : fresh.requestedPath = plan.target.requestedPath
  /-- The identity and its mounts were found since the tools were called, and no identity found
  since then is another device's. -/
  order : ∃ later time earlier, own t past = later ++ .mounted t fresh plan.mount ::
    .identified t plan.target.requestedPath fresh :: .invoked t plan time :: earlier ∧
    ∀ requested d, .identified t requested d ∈ later → d.canonicalPath = path
  recorded : ∃ c, .confirmed t c ∈ past ∧ plan.protectionCheckpoint = some c ∧ c.status = .ready ∧
    c.resourceFingerprints.lookup plan.protectedResourceId = some fresh.fingerprintSha256

/-- Every command that repairs is run on the device that was checked. -/
def TargetRespected (h : List Event) : Prop :=
  ∀ t plan tool args past, (.repaired t plan tool args :: past) <:+ h →
    ∃ path fresh, args.getLast? = some path ∧ Aimed t plan path fresh past

/-- The target of an executed plan carries the fingerprint of its own fields. -/
def SelfConsistent (cfg : Config) : Event → List Event → Prop
  | .invoked _ plan _, _ =>
    cfg.lib.identitySha256 plan.target.body = plan.target.fingerprintSha256
  | _, _ => True

/-- No fresh identity of the run has the fingerprint of a different target. -/
def CollisionFree (cfg : Config) (h : List Event) : Prop :=
  ∀ t plan time t' requested fresh, .invoked t plan time ∈ h → .identified t' requested fresh ∈ h →
    cfg.lib.identitySha256 fresh.body = cfg.lib.identitySha256 plan.target.body →
    fresh.body = plan.target.body

section Histories

variable {cfg : Config} {h past : List Event} {t : Nat} {plan : FilesystemRepairPlan}

theorem mem_unmountEvents {e : Event} (he : e ∈ unmountEvents t plan) :
    e = .audited t (stageEntry plan "filesystem.unmounted" []) true := by
  rw [unmountEvents] at he
  split at he
  · exact List.mem_singleton.mp he
  · cases he

theorem path_of_fingerprint {requested : String} {d : DeviceIdentity} {time : DateTime}
    (hc : Always (Causal cfg) h) (consistent : Always (SelfConsistent cfg) h)
    (nocollision : CollisionFree cfg h) (hinv : .invoked t plan time ∈ h)
    (hd : .identified t requested d ∈ h)
    (hfp : d.fingerprintSha256 = plan.target.fingerprintSha256) :
    d.canonicalPath = plan.target.canonicalPath := by
  obtain ⟨q, hq⟩ := exists_suffix_of_mem hd
  have hfresh : Fresh cfg requested d := hc.at hq
  obtain ⟨q', hq'⟩ := exists_suffix_of_mem hinv
  have hself : cfg.lib.identitySha256 plan.target.body = plan.target.fingerprintSha256 :=
    consistent.at hq'
  have hbody : d.body = plan.target.body := by
    refine nocollision t plan time t requested d hinv hd ?_
    rw [← hfresh.fingerprint, hfp, hself]
  exact congrArg (·.canonicalPath) hbody

end Histories

/-- Where every executed plan carries the fingerprint of its own target, every repair goes to the
device that was identified afresh, recorded in the durable checkpoint and inspected for mounts. -/
theorem target_respected_of_selfConsistent (cfg : Config) (now : DateTime) (p : Requests)
    (reach : (system cfg).Reachable (State.start now) p)
    (consistent : Always (SelfConsistent cfg) p.state.history)
    (nocollision : CollisionFree cfg p.state.history) : TargetRespected p.state.history := by
  intro t plan tool args past hs
  have hc := causal_of_reachable reach
  have hpast : past <:+ p.state.history := (List.suffix_cons _ _).trans hs
  obtain ⟨hcommand, a, before, hown, hpassed⟩ := hc.at hs
  have mem : ∀ {e : Event}, e ∈ a.events t plan tool → e ∈ past := fun he =>
    mem_of_mem_own (t := t) (by rw [hown]; exact List.mem_append_left _ he)
  have hinv : .invoked t plan a.time ∈ past := mem (by simp [Aim.events])
  have hfresh : .identified t plan.target.requestedPath a.fresh ∈ past :=
    mem (by simp [Aim.events])
  have hagain : .identified t plan.target.requestedPath a.again ∈ past :=
    mem (by simp [Aim.events])
  have path : ∀ {d : DeviceIdentity}, .identified t plan.target.requestedPath d ∈ past →
      d.fingerprintSha256 = plan.target.fingerprintSha256 →
      d.canonicalPath = plan.target.canonicalPath := fun hd =>
    path_of_fingerprint hc consistent nocollision (hpast.subset hinv) (hpast.subset hd)
  obtain ⟨q, hq⟩ := exists_suffix_of_mem hfresh
  obtain ⟨q', hq'⟩ := exists_suffix_of_mem hinv
  obtain ⟨c, hallows⟩ := allows_of_invoked (hc.suffix hpast) hq'
  refine ⟨plan.target.canonicalPath, a.fresh, Adapter.repairInvocation_target hcommand,
    ⟨(path hfresh hpassed.fresh).symm, ((hc.suffix hpast).at hq : Fresh cfg _ _).requested, ?_, ?_⟩⟩
  · refine ⟨.audited t (stageEntry plan "filesystem.repair-command.started"
      [("tool", .str tool)]) true :: .identified t plan.target.requestedPath a.again ::
      unmountEvents t plan, a.time, before, ?_, fun requested d hd => ?_⟩
    · rw [hown]
      simp [Aim.events]
    · rcases List.mem_cons.mp hd with heq | hd
      · cases heq
      · rcases List.mem_cons.mp hd with heq | hd
        · obtain ⟨-, -, rfl⟩ := Event.identified.inj heq
          exact path hagain hpassed.again
        · cases mem_unmountEvents hd
  · refine ⟨c.checkpoint, ?_, hallows.checkpoint, hallows.ready, ?_⟩
    · have hmem : .confirmed t c.checkpoint ∈ q' :=
        mem_of_mem_own (t := t) (by simp [hallows.order, Checks.events])
      exact ((List.suffix_cons _ _).trans hq').subset hmem
    · rw [hallows.covered, hpassed.fresh]

def repairMoves (canonical : String) : List (Move Res (Request × Int) DateTime) :=
  sampleMoves canonical 1 ++ List.replicate 10 (.resume 1 sampleAnswer)

def repairRun (canonical : String) : Requests :=
  (system sampleConfig).play (System.initial (State.start 0)) (repairMoves canonical)

theorem repairRun_targets : (repairRun "/dev/sda1").state.history.all (fun
    | .identified _ _ fresh => fresh = sampleTarget "/dev/sda1"
    | .invoked _ plan _ => plan.target = sampleTarget "/dev/sda1"
    | _ => true) = true := by decide +kernel

set_option maxRecDepth 20000 in
theorem target_respected_run : (∃ past, (repairRun "/dev/sda1").state.history =
      .repaired 1 (samplePlan "/dev/sda1") "e2fsck" ["-f", "-p", "/dev/sda1"] :: past) ∧
    TargetRespected (repairRun "/dev/sda1").state.history := by
  have targets := List.all_eq_true.mp repairRun_targets
  have hplan : ∀ t plan time, .invoked t plan time ∈ (repairRun "/dev/sda1").state.history →
      plan.target = sampleTarget "/dev/sda1" := fun t plan time hmem => by
    simpa using targets _ hmem
  refine ⟨⟨_, rfl⟩, target_respected_of_selfConsistent sampleConfig 0 _
    (reachable_of_playable _ (by decide +kernel)) ?_ ?_⟩
  · refine always_iff.mpr fun e past hs => ?_
    have hmem : e ∈ (repairRun "/dev/sda1").state.history := hs.subset List.mem_cons_self
    cases e with
    | invoked t plan time =>
      rw [SelfConsistent, hplan t plan time hmem]
      decide
    | _ => trivial
  · intro t plan time t' requested fresh hinv hident _
    have hfresh : fresh = sampleTarget "/dev/sda1" := by simpa using targets _ hident
    rw [hfresh, hplan t plan time hinv]

theorem forgedRun_identified : (repairRun "/dev/sdb1").state.history.all (fun
    | .identified _ _ fresh => fresh.canonicalPath = "/dev/sda1"
    | _ => true) = true := by decide +kernel

set_option maxRecDepth 20000 in
/-- A plan whose target has the fingerprint of one device and the path of another makes the broker
repair the other. -/
theorem forged_target_repaired : ¬∀ (cfg : Config) (now : DateTime) (p : Requests),
    (system cfg).Reachable (State.start now) p → TargetRespected p.state.history := by
  intro claim
  have respected := claim sampleConfig 0 _
    (reachable_of_playable (repairMoves "/dev/sdb1") (by decide +kernel))
  obtain ⟨past, hs⟩ : ∃ past, (repairRun "/dev/sdb1").state.history =
      .repaired 1 (samplePlan "/dev/sdb1") "e2fsck" ["-f", "-p", "/dev/sdb1"] :: past := ⟨_, rfl⟩
  obtain ⟨path, fresh, hpath, haimed⟩ := respected 1 (samplePlan "/dev/sdb1") "e2fsck"
    ["-f", "-p", "/dev/sdb1"] past (hs ▸ List.suffix_refl _)
  obtain ⟨later, time, earlier, hown, -⟩ := haimed.order
  have hident : .identified 1 "/dev/sda1" fresh ∈ past :=
    mem_of_mem_own (t := 1) (by rw [hown]; simp [samplePlan, sampleTarget])
  have hsda := List.all_eq_true.mp forgedRun_identified _ (hs ▸ List.mem_cons_of_mem _ hident)
  rw [haimed.reached] at hpath
  have : fresh.canonicalPath = "/dev/sdb1" := Option.some.inj hpath.symm
  exact absurd (this.symm.trans (of_decide_eq_true hsda)) (by decide)

end Ares.FilesystemBroker
