import Ares.Broker.Invariant

/-! Write authority is used once: every call of the partition tools consumes a grant of its own, which
the broker made after the operator's approval, and no grant is accepted a second time. -/

namespace Ares.Broker

open Coop Audit Storage

section Histories

variable {cfg : Config} {h q q' : List Event} {t t' : Nat} {id : String}
  {g g' : StorageAuthorizationGrant}

theorem popped_of_accepted {plan : StorageOperationPlan} {time : DateTime}
    (hc : Always (Causal cfg) h) (hs : (.accepted t plan g time :: q) <:+ h) :
    ∃ q', (.popped t g.id (some g) :: q') <:+ q := by
  obtain ⟨-, uid, hown⟩ := hc.at hs
  exact suffix_of_head (t := t) (by rw [hown]; rfl)

theorem accepted_once {plan plan' : StorageOperationPlan} {time time' : DateTime}
    (inj : Function.Injective cfg.uuid4) (hc : Always (Causal cfg) h)
    (hs : (.accepted t plan g time :: q) <:+ h) (hmem : .accepted t' plan' g' time' ∈ q) :
    g'.id ≠ g.id := by
  intro hid
  have hq : q <:+ h := (List.suffix_cons _ _).trans hs
  obtain ⟨q₁, hs₁⟩ := popped_of_accepted hc hs
  obtain ⟨past, hs'⟩ := exists_suffix_of_mem hmem
  obtain ⟨q₂, hs₂⟩ := popped_of_accepted (hc.suffix hq) hs'
  rw [hid] at hs₂
  have hs₂' := hs₂.trans ((List.suffix_cons _ _).trans hs')
  have heq := (tokens_oneUse cfg).popped_unique inj (hc.suffix hq) (hs₁.subset List.mem_cons_self)
    (hs₂'.subset List.mem_cons_self)
  obtain ⟨rfl, -⟩ := Event.popped.inj heq
  obtain ⟨-, uid, hown⟩ := hc.at hs
  have : Event.accepted t plan' g' time' ∈ own t q := mem_own hmem
  simp [hown] at this

end Histories

/-- The grant was made after the operator approved a challenge on a plan with the same ids and
fingerprints as `plan`. -/
def GrantedFor (plan : StorageOperationPlan) (g : StorageAuthorizationGrant) (h : List Event) :
    Prop :=
  ∃ t plan' uid past, (.granted t g :: past) <:+ h ∧ .challenged t plan' g.challengeId ∈ past ∧
    .answered t g.challengeId (some "approved") (some uid) ∈ past ∧
    plan'.operationId = plan.operationId ∧ plan'.id = plan.id ∧ plan'.sessionId = plan.sessionId ∧
    plan'.fingerprintSha256 = plan.fingerprintSha256 ∧
    plan'.targetDisk.fingerprintSha256 = plan.targetDisk.fingerprintSha256

theorem grantedFor_of_accepted {cfg : Config} {h past : List Event} {t : Nat}
    {plan : StorageOperationPlan} {g : StorageAuthorizationGrant} {time : DateTime}
    (hc : Always (Causal cfg) h) (hs : (.accepted t plan g time :: past) <:+ h) :
    time < g.expiresAt ∧ GrantedFor plan g past := by
  have hpast : past <:+ h := (List.suffix_cons _ _).trans hs
  obtain ⟨hmatch, -⟩ := hc.at hs
  obtain ⟨q, hpop⟩ := popped_of_accepted hc hs
  obtain ⟨u, past', hgrant, -, plan', hconsent⟩ :=
    (tokens_oneUse cfg).granted_of_popped (hc.suffix hpast) (hpop.subset List.mem_cons_self)
  obtain ⟨uid, hans⟩ := hconsent.answer
  obtain ⟨n, uid', now, -, hg⟩ := hconsent.body
  simp only [grantMatches, Bool.and_eq_true, decide_eq_true_eq] at hmatch
  obtain ⟨⟨⟨⟨⟨⟨-, htime⟩, hop⟩, hid⟩, hsession⟩, htarget⟩, hfp⟩ := hmatch
  have hfields : g.operationId = plan'.operationId ∧ g.planId = plan'.id ∧
      g.sessionId = plan'.sessionId ∧ g.planFingerprintSha256 = plan'.fingerprintSha256 ∧
      g.targetFingerprintSha256 = plan'.targetDisk.fingerprintSha256 := by
    rw [hg]
    exact ⟨rfl, rfl, rfl, rfl, rfl⟩
  obtain ⟨hop', hid', hsession', hfp', htarget'⟩ := hfields
  exact ⟨htime, u, plan', uid, past', hgrant, hconsent.challenge, hans, hop' ▸ hop, hid' ▸ hid,
    hsession' ▸ hsession, hfp' ▸ hfp, htarget' ▸ htarget⟩

/-- Write authority is used once: every call of `tools.execute` has consumed a grant of its own,
unexpired when it was consumed and made after an approval of the same plan; and no grant id is
accepted twice. -/
theorem one_use_authority (cfg : Config) (now : DateTime) (dev : Devices) (p : Requests)
    (inj : Function.Injective cfg.uuid4)
    (reach : (system cfg).Reachable (State.start now dev) p) :
    (∀ t plan past, (.invoked t plan :: past) <:+ p.state.history →
      ∃ g time h, (.accepted t plan g time :: h) <:+ past ∧ time < g.expiresAt ∧
        GrantedFor plan g h ∧ ∀ t' plan' plan'' g' time', .invoked t' plan' ∈ past →
          .accepted t' plan'' g' time' ∈ past → g'.id ≠ g.id) ∧
    (∀ t plan g time past, (.accepted t plan g time :: past) <:+ p.state.history →
      ∀ t' plan' g' time', .accepted t' plan' g' time' ∈ past → g'.id ≠ g.id) := by
  have hc := (holds_of_reachable reach).inv.causal
  refine ⟨fun t plan past hs => ?_, fun t plan g time past hs t' plan' g' time' hmem =>
    accepted_once inj hc hs hmem⟩
  obtain ⟨hfirst, g, time, hacc, -⟩ := hc.at hs
  have hpast : past <:+ p.state.history := (List.suffix_cons _ _).trans hs
  obtain ⟨h, hs'⟩ := exists_suffix_of_mem hacc
  obtain ⟨htime, hgrant⟩ := grantedFor_of_accepted (hc.suffix hpast) hs'
  refine ⟨g, time, h, hs', htime, hgrant, fun t' plan' plan'' g' time' hinv hacc' hid => ?_⟩
  obtain ⟨h', hs''⟩ := exists_suffix_of_mem hacc'
  -- of two acceptances of one id one would be in the past of the other
  rcases past_or_eq_or_past hs' hs'' with hlt | ⟨heq, -⟩ | hlt
  · exact accepted_once inj (hc.suffix hpast) hs' (hlt.subset List.mem_cons_self) hid
  · obtain ⟨rfl, -⟩ := Event.accepted.inj heq
    exact hfirst plan' hinv
  · exact accepted_once inj (hc.suffix hpast) hs'' (hlt.subset List.mem_cons_self) hid.symm

def sampleConfig : Config where
  allowedClientUids := [971, 1000]
  gate := ⟨false, [sampleRoot]⟩
  toolsGate := ⟨false, [sampleRoot]⟩
  identity := ⟨false, [sampleRoot]⟩
  lib := sampleDigests
  uuid4 n := String.ofList (List.replicate (n + 8) '0')

def sampleObservation (partitions : List PartitionResource) : Observation where
  id := "layout"
  observedAt := 0
  partitionTable := sampleTable partitions
  filesystems := []
  mountPoints := []
  volumes := []
  operatingSystems := []
  bootDependencies := []
  swapPartitions := []
  recoveryPartitions := []
  evidenceSha256 := sampleSha 'e' '0'

/-- Every call succeeds, and the device shows `partitions`. -/
def sampleAnswer (target : StorageDeviceIdentity) (partitions : List PartitionResource) :
    (o : Op) → Res o
  | .lock | .thread => .ok ()
  | .append _ => .acked
  | .call .send => .ok ()
  | .call (.table _) => .ok (sampleObservation partitions)
  | .call (.dump _) => .ok "dump"
  | .call (.dryRun _ _) => .ok (0, [])
  | .call (.write _ _) => .ok 0
  | .call (.reread _) => .ok (some 0)
  | .call (.verify _) => .ok 0
  | .call (.checkpoint _) => .ok (some (sampleCheckpoint target))
  | .call (.artifact _) => .ok (some sampleArtifact)
  | .call (.requestStorage _) => .ok (some "challenge")
  | .call (.wait _) => .ok (some "approved", some 1000)

def sampleGrant (target : StorageDeviceIdentity) : StorageAuthorizationGrant :=
  grantFor (samplePlan target) "00000000" "challenge" 1000 0

/-- An authorization, and an execution up to the answer of the mutating command. -/
def sampleMoves (target : StorageDeviceIdentity) :
    List (Move Res (Request × Int) (DateTime × Devices)) :=
  [.start (.authorize (some (samplePlan target)), 971)] ++
    List.replicate 16 (.resume 0 (sampleAnswer target [])) ++
    [.start (.execute (some (samplePlan target)) (some (sampleGrant target)), 971)] ++
    List.replicate 15 (.resume 1 (sampleAnswer target []))

def sampleRun (target : StorageDeviceIdentity) : Requests :=
  (system sampleConfig).play (System.initial (State.start 0 sampleDevices)) (sampleMoves target)

theorem sampleRun_reachable (target : StorageDeviceIdentity)
    (h : (system sampleConfig).playable (System.initial (State.start 0 sampleDevices))
      (sampleMoves target) = true) :
    (system sampleConfig).Reachable (State.start 0 sampleDevices) (sampleRun target) :=
  ⟨_, System.run_of_playable (fun _ _ => trivial) (fun _ _ _ => trivial) (fun _ _ => trivial) h⟩

set_option maxRecDepth 20000 in
theorem one_use_authority_run : (∃ past, (.invoked 1 (samplePlan sampleIdentity) :: past) <:+
      (sampleRun sampleIdentity).state.history) ∧
    ∀ t plan past, (.invoked t plan :: past) <:+ (sampleRun sampleIdentity).state.history →
      ∃ g time h, (.accepted t plan g time :: h) <:+ past ∧ time < g.expiresAt ∧
        GrantedFor plan g h ∧ ∀ t' plan' plan'' g' time', .invoked t' plan' ∈ past →
          .accepted t' plan'' g' time' ∈ past → g'.id ≠ g.id :=
  ⟨⟨_, [_, _, _, _], rfl⟩, (one_use_authority sampleConfig 0 sampleDevices _
    (ofList_replicate_injective '0' 8)
    (sampleRun_reachable sampleIdentity (by decide +kernel))).1⟩

end Ares.Broker
