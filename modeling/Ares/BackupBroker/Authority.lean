import Ares.BackupBroker.Requests
import Ares.Storage.Devices

/-! Backup writes are one-use and audited: every call of `tools.create_backup` consumes a grant of
its own, which the broker made after the operator's approval of a plan with the same id and
fingerprint, follows an acknowledged intent, and leaves one trace of how it ended. -/

namespace Ares.BackupBroker

open Coop Data Audit Backups

section Histories

variable {cfg : Config} {h past : List Event} {t t' : Nat} {plan plan' : BackupPlan}
  {g g' : AuthorizationGrant} {time time' : DateTime}

theorem popped_of_accepted (hc : Always (Causal cfg) h) (hmem : .accepted t plan g time ∈ h) :
    .popped t g.id (some g) ∈ h := by
  obtain ⟨past, hs⟩ := exists_suffix_of_mem hmem
  obtain ⟨-, uid, hown⟩ := hc.at hs
  have hpop : .popped t g.id (some g) ∈ past := mem_of_mem_own (t := t) (by simp [hown])
  exact ((List.suffix_cons _ _).trans hs).subset hpop

theorem accepted_alone (inj : Function.Injective cfg.uuid4) (hc : Always (Causal cfg) h)
    (hmem : .accepted t plan g time ∈ h) (hpop : .popped t' g.id (some g') ∈ h) : t' = t := by
  have heq := (tokens_oneUse cfg).popped_unique inj hc hpop (popped_of_accepted hc hmem)
  exact (Event.popped.inj heq).1

end Histories

/-- The grant was made after the operator approved a challenge, in the session of the grant, on a
revalidated plan with the same id and fingerprint as `plan`. -/
def GrantedFor (cfg : Config) (plan : BackupPlan) (g : AuthorizationGrant) (h : List Event) : Prop :=
  ∃ t plan' past, (.granted t g :: past) <:+ h ∧
    .challenged t plan' g.sessionId g.challengeId ∈ past ∧
    .answered t g.challengeId (some "approved") ∈ past ∧
    (∃ time, .revalidated t plan' time ∈ past ∧ Valid cfg plan' time) ∧
    plan'.id = plan.id ∧ plan'.fingerprintSha256 = plan.fingerprintSha256

theorem grantedFor_of_accepted {cfg : Config} {h past : List Event} {t : Nat} {plan : BackupPlan}
    {g : AuthorizationGrant} {time : DateTime} (hc : Always (Causal cfg) h)
    (hs : (.accepted t plan g time :: past) <:+ h) :
    time < g.expiresAt ∧ GrantedFor cfg plan g past := by
  have hpast : past <:+ h := (List.suffix_cons _ _).trans hs
  obtain ⟨hmatch, uid, hown⟩ := hc.at hs
  have hpop : .popped t g.id (some g) ∈ past := mem_of_mem_own (t := t) (by simp [hown])
  obtain ⟨u, past', hgrant, -, plan', hconsent⟩ :=
    (tokens_oneUse cfg).granted_of_popped (hc.suffix hpast) hpop
  have hcg : Always (Causal cfg) past' :=
    hc.suffix ((List.suffix_cons _ _).trans (hgrant.trans hpast))
  obtain ⟨valid, hvalid⟩ := hconsent.valid
  obtain ⟨r, hr⟩ := exists_suffix_of_mem hvalid
  obtain ⟨n, now, -, hg⟩ := hconsent.body
  simp only [grantMatches, Bool.and_eq_true, decide_eq_true_eq] at hmatch
  obtain ⟨⟨⟨-, htime⟩, hid⟩, hfp⟩ := hmatch
  have hfields : g.planId = plan'.id ∧ g.planFingerprintSha256 = plan'.fingerprintSha256 := by
    rw [hg]
    exact ⟨rfl, rfl⟩
  exact ⟨htime, u, plan', past', hgrant, hconsent.challenge, hconsent.answer,
    ⟨valid, hvalid, hcg.at hr⟩, hfields.1.symm.trans hid, hfields.2.symm.trans hfp⟩

/-- What stands behind a call of `tools.create_backup`. -/
structure Allows (cfg : Config) (t : Nat) (plan : BackupPlan) (c : Checks) (past : List Event) :
    Prop where
  /-- The request took its grant, revalidated the plan and had its intent acknowledged, in this
  order. -/
  order : own t past = c.events t plan
  alive : c.taken < c.grant.expiresAt
  granted : GrantedFor cfg plan c.grant past

theorem allows_of_invoked {cfg : Config} {h past : List Event} {t : Nat} {plan : BackupPlan}
    (hc : Always (Causal cfg) h) (hs : (.invoked t plan :: past) <:+ h) :
    ∃ c, Allows cfg t plan c past := by
  obtain ⟨c, hown⟩ := hc.at hs
  have hpast : past <:+ h := (List.suffix_cons _ _).trans hs
  have hacc : .accepted t plan c.grant c.taken ∈ past :=
    mem_of_mem_own (t := t) (by simp [hown, Checks.events])
  obtain ⟨q, hq⟩ := exists_suffix_of_mem hacc
  obtain ⟨halive, u, plan', q', hq', hgrant⟩ := grantedFor_of_accepted (hc.suffix hpast) hq
  exact ⟨c, hown, halive, u, plan', q', hq'.trans ((List.suffix_cons _ _).trans hq), hgrant⟩

/-- The traces that a request has left of how its call of `tools.create_backup` ended. -/
def closings (j : Nat) (h : List Event) : List Event := (own j h).filter Event.closing

/-- A request that has called `tools.create_backup` and has ended, without having been cancelled
while it waited for the ledger, has left one trace of it, after the call; a manifest is returned with
the acknowledged record of completion as this trace. -/
theorem closed_of_ended {cfg : Config} {p : Requests} (holds : (contract cfg).Holds p) {j : Nat}
    {t : Request × Int} {r : Except Error Response} {plan : BackupPlan} {past : List Event}
    (hj : p.ended j = some (t, some r)) (hs : (.invoked j plan :: past) <:+ p.state.history)
    (hquiet : ∀ entry written, .interrupted j entry written ∉ p.state.history) :
    ∃ e, closings j p.state.history = [e] ∧ e ∉ past ∧ e.backupId = some plan.backupId ∧
      ∀ m, r = .ok (.manifest m) → ∃ plan' sessionId,
        e = .audited j (completedEntry plan' sessionId m) true := by
  have hspec := (holds.tasks j t _ (Pool.task_of_ended hj)).2
  have hends : Ends j p.state := by
    cases r with
    | ok a => exact hspec.1
    | error e => exact hspec
  have hown : Event.invoked j plan ∈ own j p.state.history :=
    mem_own (hs.subset List.mem_cons_self)
  rcases hends j plan hown with ⟨t', entry, written, hint⟩ | ⟨e, hone, hid⟩
  · have htask : t' = j := of_decide_eq_true (List.mem_filter.mp hint).2
    exact absurd (mem_of_mem_own hint) (htask ▸ hquiet entry written)
  · refine ⟨e, hone, fun hmem => ?_, hid, fun m hr => ?_⟩
    · -- Nothing had closed the call when it was made.
      obtain ⟨c, hevents⟩ := holds.inv.causal.at hs
      obtain ⟨hmine, hclosing⟩ := List.mem_filter.mp (hone ▸ List.mem_singleton_self e)
      have htask : e.task = j := by simpa using (List.mem_filter.mp hmine).2
      have hmem' : e ∈ own j past := htask ▸ mem_own hmem
      rw [hevents] at hmem'
      simp only [Checks.events, List.mem_cons, List.not_mem_nil, or_false] at hmem'
      rcases hmem' with rfl | rfl | rfl | rfl | rfl <;> simp [Event.closing, executionIntent,
        entryOf] at hclosing
    · subst hr
      obtain ⟨plan', sessionId, haudited⟩ := hspec.2 m rfl
      refine ⟨plan', sessionId, ?_⟩
      have hmem : .audited j (completedEntry plan' sessionId m) true ∈
          closings j p.state.history :=
        List.mem_filter.mpr ⟨mem_own haudited, rfl⟩
      rw [closings, hone] at hmem
      exact (List.mem_singleton.mp hmem).symm

/-- Backup authority is used once and every use of it is audited. -/
theorem backup_authority (cfg : Config) (now : DateTime) (p : Requests)
    (inj : Function.Injective cfg.uuid4) (reach : (system cfg).Reachable (State.start now) p) :
    (∀ t plan past, (.invoked t plan :: past) <:+ p.state.history →
      ∃ c : Checks, Allows cfg t plan c past ∧ ∀ t' g', .popped t' c.grant.id (some g') ∈
        p.state.history → t' = t) ∧
    (∀ t plan g time, .accepted t plan g time ∈ p.state.history → ∀ t' g',
      .popped t' g.id (some g') ∈ p.state.history → t' = t) ∧
    (∀ t plan plan' past, (.invoked t plan :: past) <:+ p.state.history →
      .invoked t plan' ∉ past) ∧
    (∀ j t r plan past, p.ended j = some (t, some r) →
      (.invoked j plan :: past) <:+ p.state.history →
      (∀ entry written, .interrupted j entry written ∉ p.state.history) →
      ∃ e, closings j p.state.history = [e] ∧ e ∉ past ∧ e.backupId = some plan.backupId ∧
        ∀ m, r = .ok (.manifest m) → ∃ plan' sessionId,
          e = .audited j (completedEntry plan' sessionId m) true) := by
  have holds := holds_of_reachable reach
  have hc := holds.inv.causal
  refine ⟨fun t plan past hs => ?_, fun t plan g time hmem t' g' hpop =>
    accepted_alone inj hc hmem hpop, fun t plan plan' past hs hmem => ?_,
    fun j t r plan past hj hs hquiet => closed_of_ended holds hj hs hquiet⟩
  · obtain ⟨c, hallows⟩ := allows_of_invoked hc hs
    refine ⟨c, hallows, fun t' g' hpop => ?_⟩
    have hacc : .accepted t plan c.grant c.taken ∈ past :=
      mem_of_mem_own (t := t) (by simp [hallows.order, Checks.events])
    exact accepted_alone inj hc (((List.suffix_cons _ _).trans hs).subset hacc) hpop
  · obtain ⟨c, hown⟩ := hc.at hs
    have hmem' : Event.invoked t plan' ∈ own t past := mem_own hmem
    simp [hown, Checks.events] at hmem'

/-! ### A run -/

def sampleLibrary : Library where
  planSha256 _ := Storage.sampleSha 'd' '0'
  manifestSha256 _ := Storage.sampleSha 'e' '0'
  contentSha256 _ := Storage.sampleSha 'c' '0'
  token text := text
  dumpsManifest _ := []
  loadsManifest _ := none

def sampleConfig : Config where
  allowedClientUids := [971, 1000]
  lib := sampleLibrary
  uuid4 n := String.ofList (List.replicate (n + 8) '0')

def sampleSource : BackupSource where
  path := "/src"
  deviceId := "8:1"
  physicalDeviceId := none
  mountPoint := "/src"
  filesystemType := "ext4"
  estimatedSizeBytes := 0
  estimatedFileCount := 0
  estimatedDirectoryCount := 0

def sampleDestination : BackupDestination where
  rootPath := "/dst"
  backupPath := "/dst/ARES/backup-1"
  deviceId := "8:17"
  physicalDeviceId := none
  mountPoint := "/dst"
  filesystemType := "ext4"
  kind := .localFilesystem
  availableBytes := minHeadroomBytes

def samplePayload : PlanPayload where
  id := "plan-one"
  backupId := "backup-1"
  source := sampleSource
  destination := sampleDestination
  policy := ⟨builtinExcludedNames⟩
  requiredBytes := minHeadroomBytes
  includedFileCount := 0
  includedDirectoryCount := 0
  exclusions := []
  estimatedDurationSeconds := none

/-- The plan of an empty source, with an expiry. -/
def samplePlan (expiresAt : DateTime) : BackupPlan :=
  { samplePayload with createdAt := 0, expiresAt, fingerprintSha256 := Storage.sampleSha 'd' '0' }

def sampleMounts : List MountInfo :=
  [⟨"8:1", ["src"], "ext4", "/dev/sda1", []⟩, ⟨"8:17", ["dst"], "ext4", "/dev/sdb1", []⟩]

/-- Every call succeeds, at the time `now`. -/
def sampleAnswer (now : DateTime) : (o : Op) → Res o
  | .lock | .thread => .ok ()
  | .append _ => .acked
  | .call .now => .ok now
  | .call .send | .call (.mkdir _ _ _ _) | .call (.create _) | .call (.write _ _)
  | .call (.finish _ _) | .call (.writeNew _ _) | .call (.replace _ _)
  | .call (.fsyncDirectory _) | .call (.removePartial _) => .ok ()
  | .call .randomId => .ok "00000000"
  | .call (.resolve path) => .ok path
  | .call .mounts => .ok sampleMounts
  | .call (.statDevice _) => .ok "8:1"
  | .call (.physicalDeviceId _) => .ok none
  | .call (.isRemovable _) | .call (.lexists _) | .call (.unsafeDirectory _) => .ok false
  | .call (.access _) => .ok true
  | .call (.available _) => .ok minHeadroomBytes
  | .call (.scanSource _ _ _) => .ok ⟨0, 0, 0, []⟩
  | .call (.walkCopyEntries _ _ _) => .ok ([], none)
  | .call (.lstat _) | .call (.fstat _) => .error .os
  | .call (.openSource _) | .call (.readRegular _) => .error .os
  | .call (.readBounded _ _) => .ok none
  | .call (.walkTree _) => .ok []
  | .call (.requestConsent _ _) => .ok (some "challenge")
  | .call (.waitConsent _) => .ok (some "approved")

def honest (p : Requests) (m : Move Res (Request × Int) DateTime) : Bool :=
  p.ready m && match m with
    | .resume _ answer => match answer (.call .now) with
      | .ok now => now = p.state.now
      | .error _ => false
    | _ => true

theorem honest_legal (p : Requests) (m : Move Res (Request × Int) DateTime)
    (h : honest p m = true) : (system sampleConfig).Legal p m := by
  obtain ⟨hready, hclock⟩ := Bool.and_eq_true_iff.mp h
  cases m with
  | start t => trivial
  | world w => trivial
  | resume j answer =>
    obtain ⟨t, o, k, hj⟩ := System.ready_resume hready
    refine ⟨t, o, k, hj, ?_⟩
    have hnow : answer (.call .now) = .ok p.state.now := by
      cases hanswer : answer (.call .now) with
      | error e => simp [hanswer] at hclock
      | ok now =>
        simp only [hanswer, decide_eq_true_eq] at hclock
        rw [hclock]
    cases o with
    | call c =>
      cases c <;> first | exact hnow | trivial
    | _ => trivial

def play (ms : List (Move Res (Request × Int) DateTime)) : Requests :=
  (system sampleConfig).play (System.initial (State.start 0)) ms

theorem play_reachable (ms : List (Move Res (Request × Int) DateTime))
    (h : (system sampleConfig).checked honest (System.initial (State.start 0)) ms = true) :
    (system sampleConfig).Reachable (State.start 0) (play ms) :=
  ⟨ms, System.run_of_checked honest_legal h⟩

/-- The operator approves the plan that expires after a quarter of an hour at the time `granted`, and
a client asks for a backup with `plan` at the time `started`. -/
def sampleRequests (plan : BackupPlan) (granted started : DateTime) :
    List (Move Res (Request × Int) DateTime) :=
  [.world granted, .start (.authorize (some (samplePlan (minutes 15))) (some "session1"), 971)] ++
    List.replicate 28 (.resume 0 (sampleAnswer granted)) ++
    [.world started, .start (.create (some plan)
      (some (grantFor (samplePlan (minutes 15)) "session1" "00000000" "challenge" granted)), 971)]

/-- The creation up to its end, with `outcome` as the answer to the append of the completion. -/
def sampleEnding (outcome : AwaitedAppend) : List (Move Res (Request × Int) DateTime) :=
  List.replicate 36 (.resume 1 (sampleAnswer 0)) ++
    [.resume 1 fun
      | .append _ => outcome
      | o => sampleAnswer 0 o] ++
    if outcome = .acked then [] else [.resume 1 (sampleAnswer 0)]

def sampleMoves (outcome : AwaitedAppend) : List (Move Res (Request × Int) DateTime) :=
  sampleRequests (samplePlan (minutes 15)) 0 0 ++ sampleEnding outcome

set_option maxRecDepth 20000 in
theorem backup_authority_run : (∃ e past, (play (sampleMoves .acked)).state.history = e ::
      .started 1 (samplePlan (minutes 15)) 0 :: .invoked 1 (samplePlan (minutes 15)) :: past) ∧
    ∀ t plan past, (.invoked t plan :: past) <:+ (play (sampleMoves .acked)).state.history →
      ∃ c : Checks, Allows sampleConfig t plan c past ∧ ∀ t' g', .popped t' c.grant.id (some g') ∈
        (play (sampleMoves .acked)).state.history → t' = t :=
  ⟨⟨_, _, rfl⟩, (backup_authority sampleConfig 0 _ (ofList_replicate_injective '0' 8)
    (play_reachable (sampleMoves .acked) (by decide +kernel))).1⟩

/-- A trace of how a call of `tools.create_backup` ended that is there, whether or not the broker
knows. -/
def Event.trace : Event → Bool
  | .audited _ entry _ | .interrupted _ entry true =>
      entry.eventType = "backup.execution.completed" || entry.eventType = "backup.execution.failed"
  | .emergency _ _ _ => true
  | _ => false

set_option maxRecDepth 20000 in
/-- A lost acknowledgement leaves the record of the completion and an entry of the emergency
journal. -/
theorem lost_completion_leaves_two : ¬∀ (cfg : Config) (now : DateTime) (p : Requests),
    Function.Injective cfg.uuid4 → (system cfg).Reachable (State.start now) p →
    ∀ j t r plan, p.ended j = some (t, some r) → .invoked j plan ∈ p.state.history →
      (∀ entry written, .interrupted j entry written ∉ p.state.history) →
      ∃ e, (own j p.state.history).filter Event.trace = [e] := by
  intro claim
  have hend : ((play (sampleMoves .lost)).ended 1).map (fun x => x.2.isSome) = some true := by
    decide +kernel
  obtain ⟨⟨t, r⟩, hended, hr⟩ := Option.map_eq_some_iff.mp hend
  obtain ⟨r, rfl⟩ := Option.isSome_iff_exists.mp hr
  have hcalled : ((play (sampleMoves .lost)).state.history.any fun
      | .invoked t plan => t = 1 && plan = samplePlan (minutes 15)
      | _ => false) = true := by decide +kernel
  have hquiet : ((play (sampleMoves .lost)).state.history.all fun
      | .interrupted _ _ _ => false
      | _ => true) = true := by decide +kernel
  obtain ⟨e, hmem, hinvoked⟩ := List.any_eq_true.mp hcalled
  have he : e = .invoked 1 (samplePlan (minutes 15)) := by
    cases e <;> simp at hinvoked
    rw [hinvoked.1, hinvoked.2]
  obtain ⟨e', hone⟩ := claim sampleConfig 0 _ (ofList_replicate_injective '0' 8)
    (play_reachable (sampleMoves .lost) (by decide +kernel)) 1 t r _ hended (he ▸ hmem)
    (fun entry written hint => by simpa using List.all_eq_true.mp hquiet _ hint)
  have htwo : ((own 1 (play (sampleMoves .lost)).state.history).filter Event.trace).length = 2 := by
    decide +kernel
  rw [hone] at htwo
  cases htwo

end Ares.BackupBroker
