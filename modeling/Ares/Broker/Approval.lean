import Ares.Broker.Judged
import Ares.Consent.Created
import Ares.Coop.Joint

/-! The storage broker and the consent authority, each a process of its own.  Whatever else the authority
is asked, in whatever order the two go on and whichever connections are lost, every write of a partition
table has an approval of the operator that the authority recorded for the same plan, and no approval
stands behind the writes of two requests. -/

namespace Ares.Broker

open Coop Audit Storage

abbrev ConsentReply := Except Consent.Error Consent.PublicView

/-- The calls `request_storage` and `wait` of the consent client. -/
def consentRequest (brokerUid : Int) : Op → Option (Consent.Request × Int)
  | .call (.requestStorage plan) => some (.storageCreate (some plan), brokerUid)
  | .call (.wait challengeId) => some (.wait (some challengeId), brokerUid)
  | _ => none

/-- What the client makes of a reply: the fields of the payload that the broker reads, or a
`RuntimeError`. -/
def consentRead : ConsentReply → (o : Op) → Res o → Prop
  | .ok view, .call (.requestStorage _), a => a = .ok (some view.challengeId)
  | .ok view, .call (.wait _), a => a = .ok (some view.decision.value, view.operatorUid)
  | .error _, .call _, a => a = .error .runtime
  | _, _, _ => False

def consentLost : (o : Op) → Res o → Prop
  | .call _, a => ∃ e, a = .error e
  | _, _ => False

def consentLink (brokerUid : Int) :
    Link Res Consent.Error Consent.PublicView (Consent.Request × Int) where
  request := consentRequest brokerUid
  read := consentRead
  lost := consentLost

/-- The broker and the authority. -/
abbrev Together := Joint State Res Error Response (Request × Int)
  Consent.State Consent.Res Consent.Error Consent.PublicView (Consent.Request × Int)

/-- The joint runs of a broker and an authority that have just been made. -/
def TogetherReachable (cfg : Config) (ccfg : Consent.Config) (now now' : DateTime) (dev : Devices) :
    Together → Prop :=
  Joint.Reachable (system cfg) (Consent.system ccfg) (consentLink ccfg.brokerUid)
    (State.start now dev) (Consent.State.start now')

/-- What stands behind a challenge and behind an answer: a reply of the authority. -/
def Vouched (brokerUid : Int) (J : Together) : Event → List Event → Prop
  | .challenged _ plan id, past => (∀ t plan', .challenged t plan' id ∉ past) ∧ ∃ i ∈ J.taken,
      ∃ view, J.server.ended i = some ((.storageCreate (some plan), brokerUid), some (.ok view)) ∧
        view.challengeId = id
  | .answered _ id decision uid, _ => ∃ i view,
      J.server.ended i = some ((.wait (some id), brokerUid), some (.ok view)) ∧
        decision = some view.decision.value ∧ uid = view.operatorUid
  | _, _ => True

theorem vouched_plain {brokerUid : Int} {J : Together} (e : Event) (past : List Event)
    (he : e.Plain) : Vouched brokerUid J e past := by
  cases e <;> trivial

def FreshChallenge (s : State) : (o : Op) → Res o → Prop
  | .call (.requestStorage _), a => ∀ id, a = .ok (some id) →
      ∀ t plan, .challenged t plan id ∉ s.history
  | _, _ => True

section Vouching

variable {cfg : Config} {ccfg : Consent.Config} {now now' : DateTime} {dev : Devices} {J : Together}

theorem vouched_challenged {s : State} {j : Nat} {plan : StorageOperationPlan}
    {a : Except Error (Option String)} {id : String} (hid : a = .ok (some id))
    (h : Joint.Grounded (consentLink ccfg.brokerUid) J FreshChallenge s
      (.call (.requestStorage plan)) a) :
    Vouched ccfg.brokerUid J (.challenged j plan id) s.history := by
  rcases h _ rfl with ⟨e, he⟩ | ⟨hfresh, i, hi, e, hended, hread⟩
  · rw [hid] at he
    cases he
  · refine ⟨hfresh id hid, i, hi, ?_⟩
    cases e with
    | error e =>
      rw [hid] at hread
      cases hread
    | ok view =>
      rw [hid] at hread
      exact ⟨view, hended, (Option.some.inj (Except.ok.inj hread)).symm⟩

theorem vouched_answered {s : State} {j : Nat} {id : String}
    {a : Except Error (Option String × Option Int)} {decision : Option String} {uid : Option Int}
    (ha : a = .ok (decision, uid))
    (h : Joint.Grounded (consentLink ccfg.brokerUid) J FreshChallenge s (.call (.wait id)) a) :
    Vouched ccfg.brokerUid J (.answered j id decision uid) s.history := by
  rcases h _ rfl with ⟨e, he⟩ | ⟨-, i, hi, e, hended, hread⟩
  · rw [ha] at he
    cases he
  · refine ⟨i, ?_⟩
    cases e with
    | error e =>
      rw [ha] at hread
      cases hread
    | ok view =>
      rw [ha] at hread
      obtain ⟨hd, hu⟩ := Prod.mk.inj (Except.ok.inj hread)
      exact ⟨view, hended, hd, hu⟩

theorem judged_consent (j : Nat) (plan : StorageOperationPlan) :
    Judged State.history (Vouched ccfg.brokerUid J)
      (Joint.grounded (system cfg) (consentLink ccfg.brokerUid) J FreshChallenge).answers
      (consent j plan) := by
  refine Proc.Keeps.handle ?_ fun e => by cases e <;> exact keeps_raise _
  intro s hi _
  simp only [attempt, Proc.attempt, bind_eq, pure_eq, spec_bind, spec_perform,
    spec_ofExcept, spec_ofOption, spec_modify, spec_ret]
  rintro s₁ hi₁ - a ⟨-, ha⟩
  refine ⟨fun id? hid? => ⟨fun id hid => ?_, fun _ => ⟨hi₁, trivial⟩⟩, fun e _ => ⟨hi₁, trivial⟩⟩
  have hi₂ : Always (Vouched ccfg.brokerUid J) (s₁.note (.challenged j plan id)).history :=
    ⟨vouched_challenged (hid ▸ hid?) ha, hi₁⟩
  refine ⟨trivial, hi₂, fun s₃ hi₃ _ r _ => ⟨fun _ _ => ?_, fun _ _ => ⟨hi₃, trivial⟩⟩⟩
  rintro s₄ hi₄ - b ⟨-, hb⟩
  refine ⟨fun answer hanswer => ?_, fun _ _ => ⟨hi₄, trivial⟩⟩
  obtain ⟨decision, uid⟩ := answer
  have hi₅ : Always (Vouched ccfg.brokerUid J) (s₄.note (.answered j id decision uid)).history :=
    ⟨vouched_answered hanswer hb, hi₄⟩
  exact ⟨trivial, hi₅, hi₅, trivial⟩

variable (now dev) in
theorem vouched_of_grounded (reach : (Joint.grounded (system cfg) (consentLink ccfg.brokerUid) J
    FreshChallenge).Reachable (State.start now dev) J.client) :
    Always (Vouched ccfg.brokerUid J) J.client.state.history :=
  always_of_judged (P := Vouched ccfg.brokerUid J) (s := State.start now dev) (fun _ _ _ => rfl)
    (fun j t => judged_dispatch vouched_plain cfg j t fun plan => judged_consent j plan) trivial
    reach

theorem vouched_of_reachable (cinj : Function.Injective ccfg.uuid4)
    (reach : TogetherReachable cfg ccfg now now' dev J) :
    Always (Vouched ccfg.brokerUid J) J.client.state.history := by
  refine vouched_of_grounded now dev (Joint.client_grounded ?_ reach)
  intro J reach grounded i e o r a hr hended htaken hread
  rcases o with _ | _ | _ | c
  case call =>
    cases c with
    | requestStorage plan =>
      intro id hid t plan' hmem
      obtain ⟨past, hs⟩ := exists_suffix_of_mem hmem
      obtain ⟨-, i', hi', view', hended', hid'⟩ := (vouched_of_grounded now dev grounded).at hs
      obtain rfl : (Consent.Request.storageCreate (some plan), ccfg.brokerUid) = r :=
        Option.some.inj hr
      cases e with
      | error e =>
        rw [hid] at hread
        cases hread
      | ok view =>
        rw [hid] at hread
        -- The authority has given this id to another request.
        have hsame := Consent.created_once cinj (Joint.server_reachable reach) hended rfl hended' rfl
          (by rw [hid', ← Option.some.inj (Except.ok.inj hread)])
        exact htaken (hsame ▸ hi')
    | _ => trivial
  all_goals trivial

end Vouching

/-! ### Writes and approvals -/

/-- The operator's approval of a challenge on the plan stands behind what the request `t` does: the
request consumed a grant that the broker made for this challenge, and the authority recorded the
approval before it replied. -/
structure ApprovedFor (ccfg : Consent.Config) (J : Together) (t : Nat) (plan : StorageOperationPlan)
    (c : Consent.Challenge) : Prop where
  grant : ∃ g time past, (.accepted t plan g time :: past) <:+ J.client.state.history ∧
    GrantedFor plan g past ∧ g.challengeId = c.id
  told : ∃ u, .answered u c.id (some "approved") (some ccfg.operatorUid) ∈ J.client.state.history
  stored : Consent.Stored J.server.state.history c
  kind : c.kind = .storageOperation
  planId : c.planId = plan.id
  fingerprint : c.fingerprint = plan.fingerprintSha256
  operationId : c.correlationId = plan.operationId
  sessionId : c.sessionId = plan.sessionId
  target : ("target_fingerprint", .str plan.targetDisk.fingerprintSha256) ∈ c.publicPayload
  decided : ∃ u, Consent.DecidedBy ccfg u .approved c J.server.state.history

section Histories

variable {cfg : Config} {h : List Event} {t t' : Nat} {plan plan' : StorageOperationPlan}
  {g g' : StorageAuthorizationGrant}

theorem accepted_of_wrote {path script : String} (hc : Always (Causal cfg) h)
    (hw : .wrote t plan path script ∈ h) :
    ∃ g time past, (.accepted t plan g time :: past) <:+ h ∧ GrantedFor plan g past := by
  obtain ⟨past, hs⟩ := exists_suffix_of_mem hw
  obtain ⟨-, hwriting, -⟩ := hc.at hs
  obtain ⟨g, hx⟩ := hwriting.executing
  obtain ⟨time, hacc⟩ := hx.accepted
  obtain ⟨past', hs'⟩ := exists_suffix_of_mem hacc
  have hs'' := hs'.trans ((List.suffix_cons _ _).trans hs)
  exact ⟨g, time, past', hs'', (grantedFor_of_accepted hc hs'').2⟩

theorem granted_unique (hc : Always (Causal cfg) h) (hg : .granted t g ∈ h)
    (hg' : .granted t g' ∈ h) : g = g' := by
  refine (Event.granted.inj (hc.unique (K := fun e => ∃ g, e = .granted t g) ?_ hg hg' ⟨g, rfl⟩
    ⟨g', rfl⟩)).2
  rintro _ past hcausal ⟨g, rfl⟩ _ hmem ⟨g', rfl⟩
  exact hcausal.1 g' hmem

theorem task_of_accepted {time time' : DateTime} (inj : Function.Injective cfg.uuid4)
    (hc : Always (Causal cfg) h) (ha : .accepted t plan g time ∈ h)
    (ha' : .accepted t' plan' g time' ∈ h) : t = t' := by
  obtain ⟨q, hs⟩ := exists_suffix_of_mem ha
  obtain ⟨q', hs'⟩ := exists_suffix_of_mem ha'
  rcases past_or_eq_or_past hs hs' with hlt | ⟨heq, -⟩ | hlt
  · exact absurd rfl (accepted_once inj hc hs (hlt.subset List.mem_cons_self))
  · exact (Event.accepted.inj heq).1
  · exact absurd rfl (accepted_once inj hc hs' (hlt.subset List.mem_cons_self))

end Histories

section Approvals

variable {cfg : Config} {ccfg : Consent.Config} {now now' : DateTime} {dev : Devices} {J : Together}

/-- What the broker has noted of a challenge was approved at the authority. -/
theorem approved_of_granted (cinj : Function.Injective ccfg.uuid4)
    (reach : TogetherReachable cfg ccfg now now' dev J) {t u : Nat} {uid : Int} {time : DateTime}
    {plan plan' : StorageOperationPlan} {g : StorageAuthorizationGrant} {past : List Event}
    (hacc : (.accepted t plan g time :: past) <:+ J.client.state.history)
    (hgrant : GrantedFor plan g past)
    (hchallenged : .challenged u plan' g.challengeId ∈ past)
    (hanswered : .answered u g.challengeId (some "approved") (some uid) ∈ past)
    (hsame : plan'.operationId = plan.operationId ∧ plan'.id = plan.id ∧
      plan'.sessionId = plan.sessionId ∧ plan'.fingerprintSha256 = plan.fingerprintSha256 ∧
      plan'.targetDisk.fingerprintSha256 = plan.targetDisk.fingerprintSha256) :
    ∃ c, ApprovedFor ccfg J t plan c := by
  have server := Joint.server_reachable reach
  have vouched := vouched_of_reachable cinj reach
  have hpast : past <:+ J.client.state.history := (List.suffix_cons _ _).trans hacc
  obtain ⟨q, hq⟩ := exists_suffix_of_mem (hpast.subset hchallenged)
  obtain ⟨q', hq'⟩ := exists_suffix_of_mem (hpast.subset hanswered)
  obtain ⟨-, i, -, view, hended, hid⟩ := vouched.at hq
  obtain ⟨i', view', hended', hdecision, huid⟩ := vouched.at hq'
  obtain ⟨c, hstored, hshows, hview, hcid⟩ := Consent.stored_of_ended server hended rfl
  have happroved : view'.decision = .approved := by
    cases hd : view'.decision with
    | approved => rfl
    | _ => simp [hd, Consent.Decision.value] at hdecision
  have hoperator : uid = ccfg.operatorUid :=
    (Consent.told_of_ended server hended').operator uid huid.symm
  -- The challenge that was waited for is the one that was created.
  obtain ⟨c', u', hstored', hid', hby⟩ := Consent.approval_of_ended server hended' happroved
  have hc := (Consent.holds_of_reachable server).inv.causal
  have hidc : c.id = g.challengeId := by rw [← hview, hid]
  obtain rfl : c' = c := by
    obtain ⟨v, hv⟩ := hstored'
    obtain ⟨r, hr⟩ := exists_suffix_of_mem hv
    exact Consent.stored_unique hc ⟨v, hv⟩ ⟨i, hstored⟩
      (cinj (by rw [← (hc.at hr).1, ← hcid, hid', hidc]))
  obtain ⟨p, hp, hsession, hkind, -, hplan, hfingerprint, hoperation, -, htarget⟩ := hshows
  obtain rfl := Option.some.inj hp
  obtain ⟨hop, hpid, hps, hpf, hpt⟩ := hsame
  exact ⟨c', ⟨g, time, past, hacc, hgrant, hidc.symm⟩,
    ⟨u, by rw [hidc, ← hoperator]; exact hpast.subset hanswered⟩, ⟨i, hstored⟩, hkind,
    hplan.trans hpid, hfingerprint.trans hpf, hoperation.trans hop, hsession.trans hps,
    hpt ▸ htarget, u', hby⟩

theorem ApprovedFor.task_eq (inj : Function.Injective cfg.uuid4)
    (cinj : Function.Injective ccfg.uuid4) (reach : TogetherReachable cfg ccfg now now' dev J)
    {t t' : Nat} {plan plan' : StorageOperationPlan} {c c' : Consent.Challenge}
    (h : ApprovedFor ccfg J t plan c) (h' : ApprovedFor ccfg J t' plan' c') (hid : c.id = c'.id) :
    t = t' := by
  have hc := (holds_of_reachable (Joint.client_reachable reach)).inv.causal
  have vouched := vouched_of_reachable cinj reach
  obtain ⟨g, time, past, hacc, ⟨u, p, uid, q, hgrant, hchallenged, -⟩, hg⟩ := h.grant
  obtain ⟨g', time', past', hacc', ⟨u', p', uid', q', hgrant', hchallenged', -⟩, hg'⟩ := h'.grant
  have hpast := (List.suffix_cons _ _).trans hacc
  have hpast' := (List.suffix_cons _ _).trans hacc'
  have hq := hgrant.trans hpast
  have hq' := hgrant'.trans hpast'
  -- One challenge is noted once, so one request made both grants.
  have hsame : Event.challenged u p g.challengeId = .challenged u' p' g'.challengeId := by
    rw [hg', ← hid, ← hg] at hchallenged' ⊢
    refine vouched.unique (K := fun e => ∃ u p, e = .challenged u p g.challengeId) ?_
      (((List.suffix_cons _ _).trans hq).subset hchallenged)
      (((List.suffix_cons _ _).trans hq').subset hchallenged') ⟨u, p, rfl⟩ ⟨u', p', rfl⟩
    rintro _ past hvouched ⟨u, p, rfl⟩ _ hmem ⟨u', p', rfl⟩
    exact hvouched.1 u' p' hmem
  obtain ⟨rfl, -⟩ := Event.challenged.inj hsame
  obtain rfl : g = g' :=
    granted_unique hc (hq.subset List.mem_cons_self) (hq'.subset List.mem_cons_self)
  exact task_of_accepted inj hc (hacc.subset List.mem_cons_self) (hacc'.subset List.mem_cons_self)

end Approvals

/-- No write of a partition table without an approval of its own.  In every joint run of the broker and
the authority, behind every write stands a challenge that the authority made for the same plan, with the
same fingerprint, session and target, and that the operator approved; and the challenges behind the
writes of different requests are different. -/
theorem writes_approved (cfg : Config) (ccfg : Consent.Config) (now now' : DateTime) (dev : Devices)
    (J : Together) (inj : Function.Injective cfg.uuid4) (cinj : Function.Injective ccfg.uuid4)
    (reach : TogetherReachable cfg ccfg now now' dev J) :
    (∀ t plan path script, .wrote t plan path script ∈ J.client.state.history →
      ∃ c, ApprovedFor ccfg J t plan c) ∧
    ∀ t t' plan plan' c c', ApprovedFor ccfg J t plan c → ApprovedFor ccfg J t' plan' c' →
      c.id = c'.id → t = t' := by
  refine ⟨fun t plan path script hw => ?_,
    fun t t' plan plan' c c' h h' hid => h.task_eq inj cinj reach h' hid⟩
  have hc := (holds_of_reachable (Joint.client_reachable reach)).inv.causal
  obtain ⟨g, time, past, hacc, hgrant⟩ := accepted_of_wrote hc hw
  obtain ⟨u, plan', uid, q, hq, hchallenged, hanswered, hsame⟩ := id hgrant
  have hsub : q <:+ past := (List.suffix_cons _ _).trans hq
  exact approved_of_granted cinj reach hacc hgrant (hsub.subset hchallenged)
    (hsub.subset hanswered) hsame

/-- An authority whose ids are runs of zeros. -/
def sampleAuthority : Consent.Config := ⟨0, 1000, sampleConfig.uuid4⟩

/-- Every call succeeds, and the challenge has the first id of the authority. -/
def sampleTold : (o : Op) → Res o
  | .call (.requestStorage _) => .ok (some "00000000")
  | o => sampleAnswer sampleIdentity [] o

abbrev SampleTurn :=
  Joint.Turn Res (Request × Int) (DateTime × Devices) Consent.Res (Consent.Request × Int) DateTime

/-- The plan is authorized with the operator's approval at the authority and executed up to the answer of
the mutating command. -/
def sampleTurns : List SampleTurn :=
  [.client (.start (.authorize (some (samplePlan sampleIdentity)), 971))] ++
    List.replicate 6 (.client (.resume 0 sampleTold)) ++
    [.connect 0, .server (.resume 0 Consent.sampleAnswer), .server (.resume 0 Consent.sampleAnswer),
      .reply 0 sampleTold, .client (.resume 0 sampleTold), .connect 0,
      .server (.resume 1 Consent.sampleAnswer),
      .server (.start (.approve (some "00000000") (some
        ("I understand that this operation modifies the partition table. APPROVE " ++
          Data.takeChars 12 (samplePlan sampleIdentity).fingerprintSha256)), 1000)),
      .server (.resume 2 Consent.sampleAnswer), .server (.resume 2 Consent.sampleAnswer),
      .server (.resume 1 Consent.sampleAnswer), .reply 0 sampleTold] ++
    List.replicate 7 (.client (.resume 0 sampleTold)) ++
    [.client (.start (.execute (some (samplePlan sampleIdentity))
      (some (grantFor (samplePlan sampleIdentity) "00000000" "00000000" 1000 0)), 971))] ++
    List.replicate 15 (.client (.resume 1 sampleTold))

def readable : ConsentReply → Op → ((o : Op) → Res o) → Bool
  | .ok view, .call (.requestStorage plan), answer =>
    match answer (.call (.requestStorage plan)) with
    | .ok a => a = some view.challengeId
    | .error _ => false
  | .ok view, .call (.wait id), answer =>
    match answer (.call (.wait id)) with
    | .ok a => a = (some view.decision.value, view.operatorUid)
    | .error _ => false
  | _, _, _ => false

def legalTurn (J : Together) : SampleTurn → Bool
  | .client m => J.client.ready m && (J.client.mover m).all fun j =>
      (Joint.asked (consentLink 0) J j).isNone
  | .server (.resume j answer) =>
    match J.server.tasks[j]? with
    | some (_, .call (.wait ref) _) => answer (.wait ref) ≠ .set || J.server.state.event ref
    | some (_, .call _ _) => true
    | _ => false
  | .server _ => true
  | .connect j => (J.pending j).isNone && (Joint.asked (consentLink 0) J j).isSome
  | .reply j answer =>
    match J.replied j, J.client.tasks[j]? with
    | some (_, e), some (_, .call o _) => readable e o answer
    | _, _ => false
  | .lose _ _ => false

theorem read_of_readable {e : ConsentReply} {o : Op} {answer : (o : Op) → Res o}
    (h : readable e o answer = true) : consentRead e o (answer o) := by
  rcases e with e | view
  · simp [readable] at h
  rcases o with _ | _ | _ | c
  case call =>
    cases c with
    | requestStorage plan =>
      simp only [readable] at h
      split at h
      · next a ha =>
        show answer (.call (.requestStorage plan)) = _
        rw [ha, of_decide_eq_true h]
      · cases h
    | wait id =>
      simp only [readable] at h
      split at h
      · next a ha =>
        show answer (.call (.wait id)) = _
        rw [ha, of_decide_eq_true h]
      · cases h
    | _ => simp [readable] at h
  all_goals simp [readable] at h

theorem legal_of_legalTurn (J : Together) (m : SampleTurn) (h : legalTurn J m = true) :
    Joint.Legal (system sampleConfig) (Consent.system sampleAuthority) (consentLink 0) J m := by
  cases m with
  | client m =>
    rw [legalTurn, Bool.and_eq_true, Option.all_eq_true] at h
    refine ⟨?_, fun j hj => Option.isNone_iff_eq_none.mp (h.2 j hj)⟩
    cases m with
    | start t => trivial
    | world w => trivial
    | resume j answer =>
      obtain ⟨t, o, k, hj⟩ := System.ready_resume h.1
      exact ⟨t, o, k, hj, trivial⟩
  | server m =>
    cases m with
    | start t => trivial
    | world w => trivial
    | resume j answer =>
      rw [legalTurn] at h
      split at h
      · next t ref k hj =>
        refine ⟨t, _, k, hj, fun hset => ?_⟩
        simpa [hset] using h
      · next t o k hwait hj =>
        refine ⟨t, o, k, hj, ?_⟩
        cases o with
        | wait ref => exact (hwait ref k rfl HEq.rfl).elim
        | lock | append => trivial
      · cases h
  | connect j =>
    rw [legalTurn, Bool.and_eq_true] at h
    obtain ⟨r, hr⟩ := Option.isSome_iff_exists.mp h.2
    exact ⟨Option.isNone_iff_eq_none.mp h.1, r, hr, trivial⟩
  | reply j answer =>
    rw [legalTurn] at h
    split at h
    · next i e t o k hreply hj => exact ⟨i, e, t, o, k, hreply, hj, trivial, read_of_readable h⟩
    · cases h
  | lose j answer => cases h

def sampleTogether : Together :=
  Joint.play (system sampleConfig) (Consent.system sampleAuthority) (consentLink 0)
    (Joint.initial (State.start 0 sampleDevices) (Consent.State.start 0)) sampleTurns

def Event.writesSample : Event → Bool
  | .wrote 1 plan _ _ => plan.id = (samplePlan sampleIdentity).id
  | _ => false

theorem sampleTogether_checked : Joint.checked (system sampleConfig) (Consent.system sampleAuthority)
    (consentLink 0) legalTurn (Joint.initial (State.start 0 sampleDevices) (Consent.State.start 0))
    sampleTurns = true ∧
    sampleTogether.client.state.history.any Event.writesSample = true := by
  decide +kernel

theorem writes_approved_run : ∃ plan c, ApprovedFor sampleAuthority sampleTogether 1 plan c ∧
    plan.id = (samplePlan sampleIdentity).id := by
  obtain ⟨checked, wrote⟩ := sampleTogether_checked
  have reach : TogetherReachable sampleConfig sampleAuthority 0 0 sampleDevices sampleTogether :=
    Joint.reachable_of_checked legal_of_legalTurn .refl checked
  have approved := (writes_approved sampleConfig sampleAuthority 0 0 sampleDevices sampleTogether
    (ofList_replicate_injective '0' 8) (ofList_replicate_injective '0' 8) reach).1
  obtain ⟨e, he, hplan⟩ := List.any_eq_true.mp wrote
  cases e with
  | wrote t plan path script =>
    rw [Event.writesSample.eq_def] at hplan
    split at hplan
    · next heq =>
      obtain ⟨rfl, rfl, -, -⟩ := Event.wrote.inj heq
      obtain ⟨c, hc⟩ := approved _ _ _ _ he
      exact ⟨plan, c, hc, of_decide_eq_true hplan⟩
    · cases hplan
  | _ => cases hplan

end Ares.Broker
