import Ares.BackupBroker.Authority

/-! Consent binds the plan, apart from its two times: the fingerprint that links the approved plan,
the grant and the run leaves `created_at` and `expires_at` out. -/

namespace Ares.BackupBroker

open Coop Backups

/-- No two plans that the broker has accepted collide. -/
def CollisionFree (cfg : Config) (h : List Event) : Prop :=
  ∀ t p time t' q time', .revalidated t p time ∈ h → .revalidated t' q time' ∈ h →
    cfg.lib.planSha256 p.toPlanPayload = cfg.lib.planSha256 q.toPlanPayload →
    p.toPlanPayload = q.toPlanPayload

/-- The two plans carry the same times. -/
def SameTimes (p q : BackupPlan) : Prop := p.createdAt = q.createdAt ∧ p.expiresAt = q.expiresAt

section Plans

variable {cfg : Config} {p q : BackupPlan} {h : List Event} {t t' : Nat} {time time' : DateTime}

theorem eq_iff_sameTimes (hpayload : p.toPlanPayload = q.toPlanPayload)
    (hsha : p.fingerprintSha256 = q.fingerprintSha256) : p = q ↔ SameTimes p q := by
  constructor
  · rintro rfl
    exact ⟨rfl, rfl⟩
  · rintro ⟨hcreated, hexpires⟩
    obtain ⟨_, _, _, _⟩ := p
    obtain ⟨_, _, _, _⟩ := q
    simp only at hpayload hsha hcreated hexpires
    rw [hpayload, hsha, hcreated, hexpires]

theorem payload_eq (hc : Always (Causal cfg) h) (hfree : CollisionFree cfg h)
    (hp : .revalidated t p time ∈ h) (hq : .revalidated t' q time' ∈ h)
    (hsha : p.fingerprintSha256 = q.fingerprintSha256) : p.toPlanPayload = q.toPlanPayload := by
  obtain ⟨past, hs⟩ := exists_suffix_of_mem hp
  obtain ⟨past', hs'⟩ := exists_suffix_of_mem hq
  have hvalid : Valid cfg p time := hc.at hs
  have hvalid' : Valid cfg q time' := hc.at hs'
  refine hfree t p time t' q time' hp hq ?_
  rw [← hvalid.fingerprint, ← hvalid'.fingerprint, hsha]

end Plans

/-- The operator approved `q` for the grant that the request `t` consumed for its run. -/
def ApprovedFor (t : Nat) (plan q : BackupPlan) (h : List Event) : Prop :=
  ∃ u g taken past, .accepted t plan g taken ∈ h ∧ (.granted u g :: past) <:+ h ∧
    .challenged u q g.sessionId g.challengeId ∈ past ∧
    .answered u g.challengeId (some "approved") ∈ past

/-- What consent binds.  Every run of `create_backup` has an approved plan behind it that agrees with
the plan of the run in every field that the fingerprint covers; the two plans are equal, and the run
starts before the approved plan expires, exactly where they carry the same times.  Likewise any two
accepted plans with one fingerprint are equal exactly where they carry the same times. -/
theorem consent_binds_iff_sameTimes (cfg : Config) (now : DateTime) (pool : Requests)
    (reach : (system cfg).Reachable (State.start now) pool)
    (free : CollisionFree cfg pool.state.history) :
    (∀ t plan time past, (.started t plan time :: past) <:+ pool.state.history →
      ∃ q, ApprovedFor t plan q past ∧ plan.toPlanPayload = q.toPlanPayload ∧
        ((plan = q ∧ time < q.expiresAt) ↔ SameTimes plan q)) ∧
    (∀ t p time t' q time', .revalidated t p time ∈ pool.state.history →
      .revalidated t' q time' ∈ pool.state.history →
      p.fingerprintSha256 = q.fingerprintSha256 → (p = q ↔ SameTimes p q)) := by
  have hc := (holds_of_reachable reach).inv.causal
  refine ⟨fun t plan time past hs => ?_, fun t p time t' q time' hp hq hsha =>
    eq_iff_sameTimes (payload_eq hc free hp hq hsha) hsha⟩
  obtain ⟨hvalid, hinvoked⟩ := hc.at hs
  have hpast : past <:+ pool.state.history := (List.suffix_cons _ _).trans hs
  obtain ⟨r, hr⟩ := exists_suffix_of_mem hinvoked
  obtain ⟨c, hallows⟩ := allows_of_invoked (hc.suffix hpast) hr
  have hr' : r <:+ past := (List.suffix_cons _ _).trans hr
  obtain ⟨u, q, past', hgrant, hchallenge, hanswer, ⟨valid, hrevalidated, -⟩, -, hsha⟩ :=
    hallows.granted
  have haccepted : .accepted t plan c.grant c.taken ∈ r :=
    mem_of_mem_own (t := t) (by simp [hallows.order, Checks.events])
  have hplan : .revalidated t plan c.time ∈ r :=
    mem_of_mem_own (t := t) (by simp [hallows.order, Checks.events])
  have hq : .revalidated u q valid ∈ r := ((List.suffix_cons _ _).trans hgrant).subset hrevalidated
  have hwhole : r <:+ pool.state.history := hr'.trans hpast
  have hpayload : plan.toPlanPayload = q.toPlanPayload :=
    payload_eq hc free (hwhole.subset hplan) (hwhole.subset hq) hsha.symm
  refine ⟨q, ⟨u, c.grant, c.taken, past', hr'.subset haccepted, hgrant.trans hr', hchallenge,
    hanswer⟩, hpayload, ?_⟩
  rw [← eq_iff_sameTimes hpayload hsha.symm]
  constructor
  · exact fun h => h.1
  · rintro rfl
    exact ⟨rfl, hvalid.unexpired⟩

/-- The run up to the start of the copying, with `plan` at the time `started`. -/
def startedMoves (plan : BackupPlan) (granted started : DateTime) :
    List (Move Res (Request × Int) DateTime) :=
  sampleRequests plan granted started ++ List.replicate 24 (.resume 1 (sampleAnswer started))

def acceptedPlans (h : List Event) : List BackupPlan := h.filterMap fun
  | .revalidated _ plan _ => some plan
  | _ => none

theorem collisionFree_of_payload {cfg : Config} {h : List Event} (payload : PlanPayload)
    (hall : ∀ plan ∈ acceptedPlans h, plan.toPlanPayload = payload) : CollisionFree cfg h := by
  intro t p time t' q time' hp hq _
  have hmem : ∀ t plan time, .revalidated t plan time ∈ h → plan ∈ acceptedPlans h :=
    fun t plan time hplan => List.mem_filterMap.mpr ⟨_, hplan, rfl⟩
  rw [hall p (hmem t p time hp), hall q (hmem t' q time' hq)]

set_option maxRecDepth 20000 in
theorem consent_binds_iff_sameTimes_run :
    (∃ past, (play (startedMoves (samplePlan (minutes 15)) 0 0)).state.history =
      .started 1 (samplePlan (minutes 15)) 0 :: past) ∧
    ∀ t plan time past, (.started t plan time :: past) <:+
        (play (startedMoves (samplePlan (minutes 15)) 0 0)).state.history →
      ∃ q, ApprovedFor t plan q past ∧ plan.toPlanPayload = q.toPlanPayload ∧
        ((plan = q ∧ time < q.expiresAt) ↔ SameTimes plan q) :=
  ⟨⟨_, rfl⟩, (consent_binds_iff_sameTimes sampleConfig 0 _
    (play_reachable (startedMoves (samplePlan (minutes 15)) 0 0) (by decide +kernel))
    (collisionFree_of_payload samplePayload (by decide +kernel))).1⟩

def sameLink : Event → Event → Bool
  | .accepted t p g time, .accepted t' p' g' time' => t = t' && p = p' && g = g' && time = time'
  | .granted t g, .granted t' g' => t = t' && g = g'
  | .challenged t p sessionId id, .challenged t' p' sessionId' id' =>
      t = t' && p = p' && sessionId = sessionId' && id = id'
  | _, _ => false

theorem mem_of_sameLink {e : Event} {h : List Event} (hany : h.any (sameLink e) = true) :
    e ∈ h := by
  obtain ⟨e', hmem, hsame⟩ := List.any_eq_true.mp hany
  have heq : e = e' := by
    cases e <;> cases e' <;>
      first | cases hsame | simp only [sameLink, Bool.and_eq_true, decide_eq_true_eq] at hsame
    all_goals simp [hsame]
  exact heq ▸ hmem

/-- A grant for the plan that expires after a quarter of an hour, given after twelve minutes. -/
def lateGrant : AuthorizationGrant :=
  grantFor (samplePlan (minutes 15)) "session1" "00000000" "challenge" (minutes 12)

def movedRun : Requests :=
  play (startedMoves (samplePlan (minutes 30)) (minutes 12) (minutes 16))

def startsLate : Event → Bool
  | .started t plan time => t = 1 && plan = samplePlan (minutes 30) && time = minutes 16
  | _ => false

set_option maxRecDepth 20000 in
/-- A client that moves `expires_at` after the approval runs the backup after the approved plan has
expired. -/
theorem expiry_moved_after_consent : ¬∀ (cfg : Config) (now : DateTime) (pool : Requests),
    (system cfg).Reachable (State.start now) pool → CollisionFree cfg pool.state.history →
    ∀ t plan time past, (.started t plan time :: past) <:+ pool.state.history →
      ∀ u q g taken, .accepted t plan g taken ∈ past → .granted u g ∈ past →
        .challenged u q g.sessionId g.challengeId ∈ past → plan = q ∧ time < q.expiresAt := by
  intro claim
  have hreach : (system sampleConfig).Reachable (State.start 0) movedRun :=
    play_reachable _ (by decide +kernel)
  have hfree : CollisionFree sampleConfig movedRun.state.history :=
    collisionFree_of_payload samplePayload (by decide +kernel)
  have hhead : movedRun.state.history.head?.any startsLate = true := by decide +kernel
  have haccepted : movedRun.state.history.tail.any (sameLink (.accepted 1
      (samplePlan (minutes 30)) lateGrant (minutes 16))) = true := by decide +kernel
  have hgranted : movedRun.state.history.tail.any (sameLink (.granted 0 lateGrant)) = true := by
    decide +kernel
  have hchallenged : movedRun.state.history.tail.any (sameLink (.challenged 0
      (samplePlan (minutes 15)) "session1" "challenge")) = true := by decide +kernel
  generalize movedRun = pool at *
  cases hhistory : pool.state.history with
  | nil => simp [hhistory] at hhead
  | cons e past =>
    rw [hhistory] at hhead haccepted hgranted hchallenged
    have he : e = .started 1 (samplePlan (minutes 30)) (minutes 16) := by
      cases e <;> simp [startsLate] at hhead
      simp [hhead]
    have hlt := (claim sampleConfig 0 pool hreach hfree 1 _ _ past (by rw [hhistory, he]) 0 _ _ _
      (mem_of_sameLink haccepted) (mem_of_sameLink hgranted) (mem_of_sameLink hchallenged)).2
    exact absurd hlt (by decide)

end Ares.BackupBroker
