import Ares.FilesystemBroker.Invariant
import Ares.Storage.Devices

/-! Repair authority is used once: every call of `tools.execute_repair` consumes a grant of its own,
which the broker made after the operator's approval of the same plan, and which was consumed before
the checks of the plan, its checkpoint and its target. -/

namespace Ares.FilesystemBroker

open Coop Filesystems

section Histories

variable {cfg : Config} {h past : List Event} {t t' : Nat} {plan plan' : FilesystemRepairPlan}
  {g g' : FilesystemAuthorizationGrant} {time time' : DateTime}

theorem popped_of_accepted (hc : Always (Causal cfg) h)
    (hs : (.accepted t plan g time :: past) <:+ h) :
    ∃ q, (.popped t g.id (some g) :: q) <:+ past := by
  obtain ⟨-, uid, hown⟩ := hc.at hs
  exact suffix_of_head (t := t) (by rw [hown]; rfl)

theorem accepted_after_popped (inj : Function.Injective cfg.uuid4) (hc : Always (Causal cfg) h)
    (hs : (.accepted t plan g time :: past) <:+ h) (hne : t' ≠ t) :
    .popped t' g.id (some g') ∉ past := by
  intro hmem
  have hcp := hc.suffix ((List.suffix_cons _ _).trans hs)
  obtain ⟨q, hq⟩ := popped_of_accepted hc hs
  have heq := (tokens_oneUse cfg).popped_unique inj hcp (hq.subset List.mem_cons_self) hmem
  exact hne (Event.popped.inj heq).1.symm

end Histories

/-- The grant was made after the operator approved a challenge on a plan with the same ids and
fingerprints as `plan`. -/
def GrantedFor (plan : FilesystemRepairPlan) (g : FilesystemAuthorizationGrant) (h : List Event) :
    Prop :=
  ∃ t plan' uid past, (.granted t g :: past) <:+ h ∧ .challenged t plan' g.challengeId ∈ past ∧
    .answered t g.challengeId (some "approved") (some uid) ∈ past ∧
    plan'.id = plan.id ∧ plan'.repairId = plan.repairId ∧ plan'.sessionId = plan.sessionId ∧
    plan'.fingerprintSha256 = plan.fingerprintSha256 ∧
    plan'.target.fingerprintSha256 = plan.target.fingerprintSha256

theorem grantedFor_of_accepted {cfg : Config} {h past : List Event} {t : Nat}
    {plan : FilesystemRepairPlan} {g : FilesystemAuthorizationGrant} {time : DateTime}
    (hc : Always (Causal cfg) h) (hs : (.accepted t plan g time :: past) <:+ h) :
    time < g.expiresAt ∧ GrantedFor plan g past := by
  have hpast : past <:+ h := (List.suffix_cons _ _).trans hs
  obtain ⟨hmatch, -⟩ := hc.at hs
  obtain ⟨q, hpop⟩ := popped_of_accepted hc hs
  obtain ⟨u, past', hgrant, -, plan', hconsent⟩ :=
    (tokens_oneUse cfg).granted_of_popped (hc.suffix hpast) (hpop.subset List.mem_cons_self)
  obtain ⟨uid, hans⟩ := hconsent.answer
  obtain ⟨n, uid', now, -, hg⟩ := hconsent.body
  simp only [grantMatches, Bool.and_eq_true, decide_eq_true_eq] at hmatch
  obtain ⟨⟨⟨⟨⟨⟨-, htime⟩, hid⟩, hrepair⟩, hsession⟩, htarget⟩, hfp⟩ := hmatch
  have hfields : g.planId = plan'.id ∧ g.repairId = plan'.repairId ∧
      g.sessionId = plan'.sessionId ∧ g.planFingerprintSha256 = plan'.fingerprintSha256 ∧
      g.targetFingerprintSha256 = plan'.target.fingerprintSha256 := by
    rw [hg]
    exact ⟨rfl, rfl, rfl, rfl, rfl⟩
  obtain ⟨hid', hrepair', hsession', hfp', htarget'⟩ := hfields
  exact ⟨htime, u, plan', uid, past', hgrant, hconsent.challenge, hans, hid' ▸ hid,
    hrepair' ▸ hrepair, hsession' ▸ hsession, hfp' ▸ hfp, htarget' ▸ htarget⟩

/-- The checks `c` of the request `t` allow the repair of `plan`. -/
structure Allows (cfg : Config) (t : Nat) (plan : FilesystemRepairPlan) (c : Checks)
    (past : List Event) : Prop where
  /-- The request took its grant, validated the plan, found the durable checkpoint, the identity and
  the mounts, and had its intent acknowledged, in this order. -/
  order : own t past = c.events t plan
  alive : c.taken < c.grant.expiresAt
  granted : GrantedFor plan c.grant past
  fingerprint : repairPlanFingerprint cfg.lib plan = plan.fingerprintSha256
  executable : plan.executable = true
  unexpired : c.time < plan.expiresAt
  checkpoint : plan.protectionCheckpoint = some c.checkpoint
  ready : c.checkpoint.status = .ready
  covered : c.checkpoint.resourceFingerprints.lookup plan.protectedResourceId =
    some plan.target.fingerprintSha256
  identity : c.fresh.fingerprintSha256 = plan.target.fingerprintSha256

theorem allows_of_invoked {cfg : Config} {h past : List Event} {t : Nat}
    {plan : FilesystemRepairPlan} {time : DateTime} (hc : Always (Causal cfg) h)
    (hs : (.invoked t plan time :: past) <:+ h) : ∃ c, Allows cfg t plan c past := by
  obtain ⟨c, hown, hpassed⟩ := hc.at hs
  have hpast : past <:+ h := (List.suffix_cons _ _).trans hs
  have hacc : .accepted t plan c.grant c.taken ∈ past :=
    mem_of_mem_own (t := t) (by simp [hown, Checks.events])
  obtain ⟨q, hq⟩ := exists_suffix_of_mem hacc
  obtain ⟨halive, u, plan', uid, q', hq', hgrant⟩ := grantedFor_of_accepted (hc.suffix hpast) hq
  have hvalid := hpassed.valid
  simp only [planValid, repairPlanIntegrityValid, checkpointReady, Bool.and_eq_true,
    decide_eq_true_eq] at hvalid
  obtain ⟨⟨⟨hfp, hexec⟩, ⟨⟨⟨⟨hready, -⟩, -⟩, hcovered⟩, -⟩⟩, htime⟩ := hvalid
  exact ⟨c, {
    order := hown
    alive := halive
    granted := ⟨u, plan', uid, q', hq'.trans ((List.suffix_cons _ _).trans hq), hgrant⟩
    fingerprint := hfp
    executable := hexec
    unexpired := htime
    checkpoint := hpassed.checkpoint
    ready := hready
    covered := hcovered
    identity := hpassed.identity }⟩

theorem invoked_once {cfg : Config} {h past : List Event} {t : Nat}
    {plan plan' : FilesystemRepairPlan} {time time' : DateTime} (hc : Always (Causal cfg) h)
    (hs : (.invoked t plan time :: past) <:+ h) : .invoked t plan' time' ∉ past := by
  intro hmem
  obtain ⟨c, hown, -⟩ := hc.at hs
  have hmem' : Event.invoked t plan' time' ∈ own t past := mem_own hmem
  simp [hown, Checks.events] at hmem'

/-- Repair authority is used once and bound to its plan: every call of `tools.execute_repair` has
consumed a grant that no other call has consumed and that stands for an approval of the same plan,
and has found everything right since; and a grant that was taken, whatever came of it, is not
accepted again. -/
theorem repair_authority (cfg : Config) (now : DateTime) (p : Requests)
    (inj : Function.Injective cfg.uuid4) (reach : (system cfg).Reachable (State.start now) p) :
    (∀ t plan time past, (.invoked t plan time :: past) <:+ p.state.history →
      ∃ c : Checks, Allows cfg t plan c past ∧ ∀ t' plan' time', .invoked t' plan' time' ∈ past →
        t' ≠ t ∧ ∀ plan'' g' taken', .accepted t' plan'' g' taken' ∈ past →
          g'.id ≠ c.grant.id) ∧
    (∀ t plan g time past, (.accepted t plan g time :: past) <:+ p.state.history →
      ∀ t' g', t' ≠ t → .popped t' g.id (some g') ∉ past) := by
  have hc := causal_of_reachable reach
  refine ⟨fun t plan time past hs => ?_, fun t plan g time past hs t' g' hne =>
    accepted_after_popped inj hc hs hne⟩
  obtain ⟨c, hallows⟩ := allows_of_invoked hc hs
  refine ⟨c, hallows, fun t' plan' time' hinv => ?_⟩
  have hpast : past <:+ p.state.history := (List.suffix_cons _ _).trans hs
  have hne : t' ≠ t := by
    rintro rfl
    exact invoked_once hc hs hinv
  refine ⟨hne, fun plan'' g' taken' hacc' hid => ?_⟩
  have hacc : .accepted t plan c.grant c.taken ∈ past :=
    mem_of_mem_own (t := t) (by simp [hallows.order, Checks.events])
  obtain ⟨q, hq⟩ := exists_suffix_of_mem hacc
  obtain ⟨q', hq'⟩ := exists_suffix_of_mem hacc'
  -- Each acceptance took its grant, and one of the two is later.
  rcases past_or_eq_or_past hq hq' with hlt | ⟨heq, -⟩ | hlt
  · obtain ⟨r, hr⟩ := popped_of_accepted (hc.suffix hpast) hq'
    have hpop : .popped t' c.grant.id (some g') ∈ q := by
      rw [← hid]
      exact (hr.trans ((List.suffix_cons _ _).trans hlt)).subset List.mem_cons_self
    exact accepted_after_popped inj (hc.suffix hpast) hq hne hpop
  · exact hne (Event.accepted.inj heq).1.symm
  · obtain ⟨r, hr⟩ := popped_of_accepted (hc.suffix hpast) hq
    have hpop : .popped t g'.id (some c.grant) ∈ q' := by
      rw [hid]
      exact (hr.trans ((List.suffix_cons _ _).trans hlt)).subset List.mem_cons_self
    exact accepted_after_popped inj (hc.suffix hpast) hq' hne.symm hpop

def sampleLibrary : Library where
  identitySha256 body := Storage.sampleSha 'a' (if body.canonicalPath = "/dev/sda1" then '1' else '2')
  planSha256 _ := Storage.sampleSha 'd' '0'
  tokenSha256 _ := Storage.sampleSha 'f' '0'
  isalnum := Char.isAlphanum
  casefold text := text

def sampleConfig : Config where
  allowedClientUids := [971, 1000]
  allowRegularFileTargets := false
  lib := sampleLibrary
  uuid4 n := String.ofList (List.replicate (n + 8) '0')

/-- The target `/dev/sda1` of a plan that gives `canonical` as its canonical path. -/
def sampleTarget (canonical : String) : DeviceIdentity where
  requestedPath := "/dev/sda1"
  canonicalPath := canonical
  majorMinor := "8:1"
  uuid := none
  filesystemUuid := none
  partuuid := none
  serial := none
  model := none
  sizeBytes := 1024
  blockDevice := true
  fingerprintSha256 := Storage.sampleSha 'a' '1'

def sampleMount : MountSafetyReport where
  mounted := false
  busy := false
  swap := false
  mounts := []
  nestedMounts := []
  activeProcesses := []
  unsupportedMountOptions := []
  safeToUnmount := true
  safeToRemount := true
  reasons := []

def sampleCheckpoint : ProtectionCheckpoint where
  id := "checkpoint"
  createdAt := 0
  status := .ready
  protectedResources := ["filesystem:" ++ Storage.sampleSha 'a' '1']
  resourceFingerprints := [("filesystem:" ++ Storage.sampleSha 'a' '1', Storage.sampleSha 'a' '1')]
  providerCapabilityId := "backup.create"
  protectionKind := .backup
  backupId := some "backup"
  verificationId := some "verification"
  sessionId := "session1"
  evidenceSha256 := Storage.sampleSha 'e' '0'
  limitations := []

def samplePlan (canonical : String) : FilesystemRepairPlan where
  id := "plan-one"
  repairId := "repair"
  createdAt := 0
  expiresAt := minutes 20
  sessionId := "session1"
  target := sampleTarget canonical
  filesystem := .ext4
  mount := sampleMount
  detectedProblems := []
  evidence := []
  requiredTools := []
  requiredPermissions := []
  estimatedDurationSeconds := none
  protectionCheckpoint := some sampleCheckpoint
  repairActions := []
  verificationSteps := []
  rollbackStrategy := "restore"
  limitations := []
  executable := true
  fingerprintSha256 := Storage.sampleSha 'd' '0'

/-- Every call succeeds, every path is its own canonical path, and every check finds errors. -/
def sampleAnswer : (o : Op) → Res o
  | .lock | .thread => ()
  | .append _ => .acked
  | .call .send => .ok ()
  | .call (.resolve requested) => .ok (requested, .block 8 1)
  | .call (.blkid _) => .ok []
  | .call (.lsblk _) => .ok ⟨none, none, none, none, some 1024⟩
  | .call (.mount _) => .ok sampleMount
  | .call (.access _) => .ok true
  | .call (.availability tool) => .ok ⟨tool, true, none⟩
  | .call (.run tool _) => .ok ⟨tool, 4, "", ""⟩
  | .call (.checkpoint _) => .ok (some sampleCheckpoint)
  | .call (.requestFilesystem _) => .ok (some "challenge")
  | .call (.wait _) => .ok (some "approved", some 1000)

def sampleGrant (canonical : String) : FilesystemAuthorizationGrant :=
  grantFor (samplePlan canonical) "00000000" "challenge" 1000 0

/-- An authorization, and an execution up to the answer to its intent, which comes at `time`. -/
def sampleMoves (canonical : String) (time : DateTime) : List (Move Res (Request × Int) DateTime) :=
  [.start (.authorize (some (samplePlan canonical)), 971)] ++
    List.replicate 16 (.resume 0 sampleAnswer) ++
    [.start (.execute (some (samplePlan canonical)) (some (sampleGrant canonical)), 971)] ++
    List.replicate 6 (.resume 1 sampleAnswer) ++ [.world time, .resume 1 sampleAnswer]

def sampleRun (canonical : String) (time : DateTime) : Requests :=
  (system sampleConfig).play (System.initial (State.start 0)) (sampleMoves canonical time)

theorem reachable_of_playable (ms : List (Move Res (Request × Int) DateTime))
    (h : (system sampleConfig).playable (System.initial (State.start 0)) ms = true) :
    (system sampleConfig).Reachable (State.start 0)
      ((system sampleConfig).play (System.initial (State.start 0)) ms) :=
  ⟨_, System.run_of_playable (fun _ _ => trivial) (fun _ _ _ => trivial) (fun _ _ => trivial) h⟩

set_option maxRecDepth 20000 in
theorem repair_authority_run : (∃ past, (sampleRun "/dev/sda1" 1).state.history =
      .invoked 1 (samplePlan "/dev/sda1") 1 :: past) ∧
    ∀ t plan time past, (.invoked t plan time :: past) <:+ (sampleRun "/dev/sda1" 1).state.history →
      ∃ c : Checks, Allows sampleConfig t plan c past ∧
        ∀ t' plan' time', .invoked t' plan' time' ∈ past → t' ≠ t ∧
          ∀ plan'' g' taken', .accepted t' plan'' g' taken' ∈ past → g'.id ≠ c.grant.id :=
  ⟨⟨_, rfl⟩, (repair_authority sampleConfig 0 _ (ofList_replicate_injective '0' 8)
    (reachable_of_playable _ (by decide +kernel))).1⟩

set_option maxRecDepth 20000 in
/-- The plan may expire between the checks and the call: the ledger may take its time. -/
theorem invoked_expired : ¬∀ (cfg : Config) (now : DateTime) (p : Requests),
    Function.Injective cfg.uuid4 → (system cfg).Reachable (State.start now) p →
    ∀ t plan time past, (.invoked t plan time :: past) <:+ p.state.history →
      time < plan.expiresAt := by
  intro claim
  have hlt := claim sampleConfig 0 _ (ofList_replicate_injective '0' 8)
    (reachable_of_playable (sampleMoves "/dev/sda1" (minutes 25)) (by decide +kernel))
    1 (samplePlan "/dev/sda1") (minutes 25) _ ⟨[], rfl⟩
  exact absurd hlt (by decide)

end Ares.FilesystemBroker
