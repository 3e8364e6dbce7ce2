import Ares.Broker.Grants

/-! The device that a write reaches.  The gate and the command read the target of the client's plan;
only its fingerprint is compared with the fresh identity of the device.  The write goes to the device
that the gate let through in every run in which the executed plans carry their own fingerprint. -/

namespace Ares.Broker

open Coop Storage

/-- The mutating command was run on the device that was identified afresh, and the gate lets that
device through. -/
def WroteGated (cfg : Config) (t : Nat) (plan : StorageOperationPlan) (path : String)
    (past : List Event) : Prop :=
  ∃ fresh dev dev', .identified t fresh dev ∈ past ∧
    cfg.identity.identify cfg.lib dev plan.targetDisk.requestedPath = .ok fresh ∧
    path = fresh.canonicalPath ∧ .gated t dev' ∈ past ∧
    (cfg.toolsGate.evaluate dev' fresh).allowed = true ∧ fresh.deviceKind ≠ .block

/-- Every run of the mutating command went to a device that the gate lets through. -/
def GateRespected (cfg : Config) (h : List Event) : Prop :=
  ∀ t plan path script past, (.wrote t plan path script :: past) <:+ h →
    WroteGated cfg t plan path past

/-- The target of a plan carries the fingerprint of its own fields. -/
def SelfConsistent (cfg : Config) : Event → List Event → Prop
  | .invoked _ plan, _ =>
    deviceIdentityFingerprint cfg.lib plan.targetDisk = plan.targetDisk.fingerprintSha256
  | _, _ => True

/-- No fresh identity of the run has the fingerprint of a different target. -/
def CollisionFree (cfg : Config) (h : List Event) : Prop :=
  ∀ t plan t' fresh dev, .invoked t plan ∈ h → .identified t' fresh dev ∈ h →
    deviceIdentityFingerprint cfg.lib fresh = deviceIdentityFingerprint cfg.lib plan.targetDisk →
    fresh.content = plan.targetDisk.content

/-- Where every executed plan carries its own fingerprint, every write goes to the device that the
gate let through, and to no physical disk. -/
theorem gate_respected_of_selfConsistent (cfg : Config) (now : DateTime) (dev : Devices)
    (p : Requests) (reach : (system cfg).Reachable (State.start now dev) p)
    (consistent : Always (SelfConsistent cfg) p.state.history)
    (nocollision : CollisionFree cfg p.state.history) : GateRespected cfg p.state.history := by
  intro t plan path script past hs
  have hpast : past <:+ p.state.history := (List.suffix_cons _ _).trans hs
  obtain ⟨hpath, hw, -⟩ := (holds_of_reachable reach).inv.causal.at hs
  obtain ⟨g, hx⟩ := hw.executing
  obtain ⟨dev₁, hgated, hallowed⟩ := hw.gate
  obtain ⟨fresh, dev₂, hident, hvalid⟩ := hw.identity
  obtain ⟨hfresh, hfp⟩ := DiskIdentityTool.revalidate_spec hvalid
  obtain ⟨past', hs'⟩ := exists_suffix_of_mem (hpast.subset hx.invoked)
  have hself : deviceIdentityFingerprint cfg.lib plan.targetDisk =
      plan.targetDisk.fingerprintSha256 := consistent.at hs'
  have hcontent : fresh.content = plan.targetDisk.content := by
    refine nocollision t plan t fresh dev₂ (hpast.subset hx.invoked) (hpast.subset hident) ?_
    rw [← DiskIdentityTool.identify_fingerprint hfresh, hfp, hself]
  have hgate : (cfg.toolsGate.evaluate dev₁ fresh).allowed = true := by
    rw [evaluate_congr hcontent]
    exact hallowed
  refine ⟨fresh, dev₂, dev₁, hident, hfresh, ?_, hgated, hgate, ?_⟩
  · rw [hpath]
    exact (congrArg (·.canonicalPath) hcontent).symm
  · exact deviceKind_ne_block_of_allowed hgate

theorem sampleRun_targets : (sampleRun sampleIdentity).state.history.all (fun
    | .identified _ fresh _ => fresh = sampleIdentity
    | .invoked _ plan => plan.targetDisk = sampleIdentity
    | _ => true) = true := by decide +kernel

set_option maxRecDepth 20000 in
theorem gate_respected_run : (∃ plan script past, (sampleRun sampleIdentity).state.history =
      .wrote 1 plan "/dev/loop0" script :: past) ∧
    GateRespected sampleConfig (sampleRun sampleIdentity).state.history := by
  have targets := List.all_eq_true.mp sampleRun_targets
  have hplan : ∀ t plan, .invoked t plan ∈ (sampleRun sampleIdentity).state.history →
      plan.targetDisk = sampleIdentity := fun t plan hmem => by simpa using targets _ hmem
  refine ⟨⟨_, _, _, rfl⟩, gate_respected_of_selfConsistent sampleConfig 0 sampleDevices _
    (sampleRun_reachable sampleIdentity (by decide +kernel)) ?_ ?_⟩
  · refine always_iff.mpr fun e past hs => ?_
    have hmem : e ∈ (sampleRun sampleIdentity).state.history := hs.subset List.mem_cons_self
    cases e with
    | invoked t plan =>
      rw [SelfConsistent, hplan t plan hmem]
      decide
    | _ => trivial
  · intro t plan t' fresh dev hinv hident _
    have hfresh : fresh = sampleIdentity := by simpa using targets _ hident
    rw [hfresh, hplan t plan hinv]

/-- The disk `/dev/sda` as a client may describe it: the fingerprint is the disk's own, the kind and
the backing file are those of a controlled loop device. -/
def forgedIdentity : StorageDeviceIdentity :=
  { sampleIdentity with
    requestedPath := "/dev/sda"
    canonicalPath := "/dev/sda"
    fingerprintSha256 := sampleSha 'b' '1' }

theorem forgedRun_identified : (sampleRun forgedIdentity).state.history.all (fun
    | .identified _ fresh _ => fresh.deviceKind = .block
    | _ => true) = true := by decide +kernel

set_option maxRecDepth 20000 in
/-- A plan with a forged target makes the broker write the partition table of a physical disk. -/
theorem forged_target_written : ¬∀ (cfg : Config) (now : DateTime) (dev : Devices) (p : Requests),
    (system cfg).Reachable (State.start now dev) p → GateRespected cfg p.state.history := by
  intro claim
  have respected := claim sampleConfig 0 sampleDevices _
    (sampleRun_reachable forgedIdentity (by decide +kernel))
  obtain ⟨plan, script, past, hs⟩ : ∃ plan script past,
      (sampleRun forgedIdentity).state.history = .wrote 1 plan "/dev/sda" script :: past :=
    ⟨_, _, _, rfl⟩
  obtain ⟨fresh, dev, dev', hident, -, -, -, -, hkind⟩ :=
    respected 1 plan "/dev/sda" script past (hs ▸ List.suffix_refl _)
  have hblock := List.all_eq_true.mp forgedRun_identified _ (hs ▸ List.mem_cons_of_mem _ hident)
  exact hkind (by simpa using hblock)

end Ares.Broker
