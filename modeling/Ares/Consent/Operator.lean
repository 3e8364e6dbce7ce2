import Ares.Consent.Invariant

/-! No approval without the operator: every approval that a wait returns goes back, step by step,
to an audited request of the operator's peer. -/

namespace Ares.Consent

open Coop

abbrev Requests := Pool State Res Error PublicView (Request × Int)

section Histories

variable {cfg : Config} {h past : List Event} {c c' : Challenge} {t t' ref : Nat}

theorem drawn_inj {n : Nat} (hc : Always (Causal cfg) h) (hd : .drawn t n ∈ h)
    (hd' : .drawn t' n ∈ h) : t = t' := by
  exact (Event.drawn.inj (hc.drawn_once Event.drawn (fun hcausal => hcausal.2) hd hd')).1

theorem received_once {r r' : Request} {uid uid' : Int} (hc : Always (Causal cfg) h)
    (hs : .received t r uid ∈ h) (hs' : .received t r' uid' ∈ h) :
    Event.received t r uid = .received t r' uid' := by
  refine hc.unique (K := fun e => ∃ r uid, e = .received t r uid) ?_ hs hs' ⟨r, uid, rfl⟩
    ⟨r', uid', rfl⟩
  rintro _ past hown ⟨r, uid, rfl⟩ _ hmem ⟨r', uid', rfl⟩
  have : Event.received t r' uid' ∈ own t past := mem_own hmem
  simp [show own t past = [] from hown] at this

theorem stored_once (hc : Always (Causal cfg) h) (hs : .stored t c ∈ h) (hs' : .stored t c' ∈ h) :
    c = c' := by
  refine (Event.stored.inj (hc.unique (K := fun e => ∃ c, e = .stored t c) ?_ hs hs' ⟨c, rfl⟩
    ⟨c', rfl⟩)).2
  rintro _ past hcausal ⟨c, rfl⟩ _ hmem ⟨c', rfl⟩
  obtain ⟨-, r, hown⟩ := hcausal
  have : Event.stored t c' ∈ own t past := mem_own hmem
  simp [hown] at this

theorem drawn_of_stored (hc : Always (Causal cfg) h) (hs : .stored t c ∈ h) :
    .drawn t c.ref ∈ h := by
  obtain ⟨past, hp⟩ := exists_suffix_of_mem hs
  obtain ⟨-, r, hown⟩ := hc.at hp
  have hmem : Event.drawn t c.ref ∈ own t past := by simp [hown]
  exact ((List.suffix_cons _ _).trans hp).subset (mem_of_mem_own hmem)

theorem stored_unique (hc : Always (Causal cfg) h) (hs : Stored h c) (hs' : Stored h c')
    (href : c.ref = c'.ref) : c = c' := by
  obtain ⟨t, ht⟩ := hs
  obtain ⟨t', ht'⟩ := hs'
  obtain rfl : t = t' := drawn_inj hc (drawn_of_stored hc ht) (href ▸ drawn_of_stored hc ht')
  exact stored_once hc ht ht'

/-- A decision other than expiry that a history has and an earlier one had not was assigned
between the two. -/
theorem exists_decided {d : Decision} (hs : past <:+ h) (hold : valueOf past ref ≠ d)
    (hnew : valueOf h ref = d) (he : d ≠ .expired) :
    ∃ t uid h', (.decided t ref d uid :: h') <:+ h ∧ past <:+ h' := by
  induction h with
  | nil => exact absurd (List.suffix_nil.mp hs ▸ hnew) hold
  | cons e l ih =>
    have hs' : past <:+ l := by
      rcases List.suffix_cons_iff.mp hs with rfl | hs'
      · exact absurd hnew hold
      · exact hs'
    have older : valueOf l ref = d →
        ∃ t uid h', (.decided t ref d uid :: h') <:+ e :: l ∧ past <:+ h' := by
      intro hl
      obtain ⟨t, uid, h', hsuf, hpast⟩ := ih hs' hl
      exact ⟨t, uid, h', hsuf.trans (List.suffix_cons e l), hpast⟩
    cases e with
    | decided t r d' uid =>
      rw [valueOf] at hnew
      split at hnew
      · next heq =>
        subst heq hnew
        exact ⟨t, uid, l, List.suffix_refl _, hs'⟩
      · exact older hnew
    | expired t r =>
      rw [valueOf] at hnew
      split at hnew
      · exact absurd hnew.symm he
      · exact older hnew
    | received | drawn | stored | requested | checked | recorded | unaudited | returned =>
      exact older hnew

/-- The operator's decision `d` on `c` by the task `t`, its steps in the order in which they were made: the
request, the check, the acknowledged record and the assignment. -/
def DecidedBy (cfg : Config) (t : Nat) (d : Decision) (c : Challenge) (h : List Event) : Prop :=
  ∃ r time h₁ h₂ h₃ h₄,
    (.decided t c.ref d cfg.operatorUid :: h₁) <:+ h ∧
    (.recorded t c.ref d (decisionEntry c d cfg.operatorUid) true :: h₂) <:+ h₁ ∧
    (.checked t c.ref d time :: h₃) <:+ h₂ ∧
    valueOf h₃ c.ref = .pending ∧ time < c.expiresAt ∧
    (.received t r cfg.operatorUid :: h₄) <:+ h₃ ∧ r.Decides d c

theorem decidedBy_of_decided {d : Decision} {uid : Int} (hc : Always (Causal cfg) h)
    (hs : (.decided t ref d uid :: past) <:+ h) :
    uid = cfg.operatorUid ∧ ∃ c, Stored h c ∧ c.ref = ref ∧ DecidedBy cfg t d c h := by
  have older : past <:+ h := (List.suffix_cons _ _).trans hs
  obtain ⟨rfl, entry, hrec⟩ := hc.at hs
  obtain ⟨h₂, hs₂⟩ := suffix_of_head hrec
  have hc₂ : Always (Causal cfg) past := hc.suffix older
  obtain ⟨⟨time, hchk⟩, c, hst, rfl, rfl⟩ := hc₂.at hs₂
  have hh₂ : h₂ <:+ past := (List.suffix_cons _ _).trans hs₂
  obtain ⟨h₃, hs₃⟩ := suffix_of_head hchk
  obtain ⟨c', r, hown, hst', href, hdec, hpend, htime⟩ := (hc₂.suffix hh₂).at hs₃
  have hh₃ : h₃ <:+ h₂ := (List.suffix_cons _ _).trans hs₃
  obtain rfl : c = c' := stored_unique hc (hst.suffix (hh₂.trans older))
    (hst'.suffix ((hh₃.trans hh₂).trans older)) href.symm
  obtain ⟨h₄, hs₄⟩ := suffix_of_head (t := t) (h := h₃) (by rw [hown]; rfl)
  exact ⟨rfl, c, hst.suffix (hh₂.trans older), rfl, r, time, past, h₂, h₃, h₄, hs, hs₂, hs₃,
    hpend, htime, hs₄, hdec⟩

theorem DecidedBy.received {d : Decision} (hby : DecidedBy cfg t d c h) :
    ∃ r, .received t r cfg.operatorUid ∈ h ∧ r.Decides d c := by
  obtain ⟨r, time, h₁, h₂, h₃, h₄, hs₁, hs₂, hs₃, -, -, hs₄, hdec⟩ := hby
  have hmem₃ : .received t r cfg.operatorUid ∈ h₃ := hs₄.subset List.mem_cons_self
  have hmem₂ : .received t r cfg.operatorUid ∈ h₂ := hs₃.subset (List.mem_cons_of_mem _ hmem₃)
  have hmem₁ : .received t r cfg.operatorUid ∈ h₁ := hs₂.subset (List.mem_cons_of_mem _ hmem₂)
  exact ⟨r, hs₁.subset (List.mem_cons_of_mem _ hmem₁), hdec⟩

end Histories

/-! ### Pools of requests -/

section Pools

variable {cfg : Config} {now : DateTime} {p p' : Requests}

theorem received_of_start (t : Request × Int) (h : (contract cfg).Holds p) :
    .received p.tasks.length t.1 t.2 ∈ ((system cfg).next p (.start t)).state.history := by
  have hs := spec_dispatch t h.inv (h.fresh _ (Nat.le_refl _))
  simp only [dispatch, bind_eq, spec_bind, spec_modify] at hs
  obtain ⟨-, inv', hrest⟩ := hs
  have hsuf := suffix_of_chain (Proc.Spec.run hrest inv').2.1
  exact hsuf.subset List.mem_cons_self

theorem task_of_received (reach : (system cfg).Reachable (State.start now) p) {j : Nat}
    {r : Request} {uid : Int} (hrec : .received j r uid ∈ p.state.history) :
    ∃ q, p.tasks[j]? = some ((r, uid), q) := by
  have hold := holds_of_reachable reach
  have hlt : j < p.tasks.length := by
    by_contra hge
    have hfresh : own j p.state.history = [] := hold.fresh j (by omega)
    have hmem := mem_own hrec
    simp [Event.task, hfresh] at hmem
  obtain ⟨⟨t, q⟩, hq⟩ : ∃ u, p.tasks[j]? = some u := ⟨_, List.getElem?_eq_getElem hlt⟩
  have hknown : .received j t.1 t.2 ∈ p.state.history :=
    Contract.Holds.noted_of_task (C := contract cfg) (fun j t => Event.received j t.1 t.2)
      (fun _ _ _ hg => hg) (fun _ _ _ => List.suffix_refl _)
      (fun p t hold _ => received_of_start t hold)
      (holds_of_reachable ⟨[], .nil _⟩) reach hq
  obtain ⟨-, rfl, rfl⟩ := Event.received.inj (received_once hold.inv.causal hknown hrec)
  exact ⟨q, hq⟩

/-- The peer whose request a move runs. -/
def peer (p : Requests) (m : Move Res (Request × Int) DateTime) : Option Int :=
  match m with
  | .start t => some t.2
  | .resume j _ => p.tasks[j]?.map (·.1.2)
  | .world _ => none

theorem peer_of_decision_change (reach : (system cfg).Reachable (State.start now) p)
    {m : Move Res (Request × Int) DateTime} (legal : (system cfg).Legal p m) {ref : Nat}
    {d : Decision} (hd : d = .approved ∨ d = .denied) (hold : p.state.decision ref ≠ d)
    (hnew : ((system cfg).next p m).state.decision ref = d) : peer p m = some cfg.operatorUid := by
  have holds := holds_of_reachable reach
  have reach' := reach.next legal
  have holds' := holds_of_reachable reach'
  have grows : p.state.history <:+ ((system cfg).next p m).state.history :=
    holds.history_suffix (fun _ _ _ hg => hg) (fun _ _ _ => List.suffix_refl _) (.cons legal (.nil _))
  rw [holds.inv.decision] at hold
  rw [holds'.inv.decision] at hnew
  obtain ⟨t, uid, past, hs, hpast⟩ := exists_decided grows hold hnew
    (by rcases hd with rfl | rfl <;> decide)
  have hmover := holds.task_of_new (fun _ _ _ hg => hg) (fun _ _ _ => rfl) legal hs hpast
  obtain ⟨-, c, -, -, hby⟩ := decidedBy_of_decided holds'.inv.causal hs
  obtain ⟨r, hrec, -⟩ := hby.received
  obtain ⟨q, hq⟩ := task_of_received reach' hrec
  obtain ⟨q', hq'⟩ | ⟨rfl, -⟩ := System.request_next hq
  · cases m with
    | resume j answer =>
      obtain rfl : j = t := Option.some.inj hmover
      simp [peer, hq']
    | start u =>
      obtain rfl : p.tasks.length = t := Option.some.inj hmover
      simp at hq'
    | world w => cases hmover
  · rfl

/-- No consent without the operator.  The state holds what the history says; a wait that returns an
approval has, before it, the operator's approval of that challenge; the requests of the history are
those of the peers; and only a request of the operator approves or denies. -/
theorem approved_only_by_operator (cfg : Config) (now : DateTime) (p : Requests)
    (reach : (system cfg).Reachable (State.start now) p) :
    (∀ ref, p.state.decision ref = valueOf p.state.history ref) ∧
    (∀ j id uid v, p.tasks[j]? = some ((.wait id, uid), .ret v) → v.decision = .approved →
      ∃ c t h, id = some c.id ∧ v.challengeId = c.id ∧
        (.returned j c.ref .approved :: h) <:+ p.state.history ∧ DecidedBy cfg t .approved c h) ∧
    (∀ t r uid, .received t r uid ∈ p.state.history → ∃ q, p.tasks[t]? = some ((r, uid), q)) ∧
    (∀ m ref d, (system cfg).Legal p m → d = .approved ∨ d = .denied → p.state.decision ref ≠ d →
      ((system cfg).next p m).state.decision ref = d → peer p m = some cfg.operatorUid) := by
  have holds := holds_of_reachable reach
  refine ⟨holds.inv.decision, fun j id uid v hj hv => ?_,
    fun t r uid hrec => task_of_received reach hrec,
    fun m ref d legal hd hold hnew => peer_of_decision_change reach legal hd hold hnew⟩
  obtain ⟨-, c, hst, hreq, hid, -, hret⟩ := (holds.tasks j _ _ hj).2
  rw [hv] at hret
  obtain ⟨h, hs⟩ := exists_suffix_of_mem hret
  have older : h <:+ p.state.history := (List.suffix_cons _ _).trans hs
  obtain ⟨hvalue, -⟩ := holds.inv.causal.at hs
  obtain ⟨t, uid', past, hdec, -⟩ :=
    exists_decided (List.nil_suffix) (by simp [valueOf]) hvalue (by simp)
  obtain ⟨-, c', hst', href, hby⟩ :=
    decidedBy_of_decided (holds.inv.causal.suffix older) hdec
  obtain rfl : c' = c := stored_unique holds.inv.causal (hst'.suffix older) hst href
  exact ⟨c', t, h, Request.wait.inj hreq, hid, hs, hby⟩

end Pools

/-- The peers of the default configuration; the values of `uuid4` are runs of zeros. -/
def sampleConfig : Config := ⟨0, 1000, fun n => String.ofList (List.replicate n '0')⟩

def samplePlan : BackupPlan where
  id := "plan"
  backupId := "backup"
  expiresAt := minutes 5
  sourcePath := "/home"
  sourceEstimatedSizeBytes := 1
  destinationBackupPath := "/mnt"
  destinationAvailableBytes := 2
  requiredBytes := 1
  includedFileCount := 1
  exclusions := []
  fingerprintSha256 := "0123456789abcdef"

def sampleAnswer : (o : Op) → Res o
  | .lock => ()
  | .append _ => .acked
  | .wait _ => .set

theorem approved_only_by_operator_run : ∃ p : Requests,
    (∃ (j : Nat) (v : PublicView), p.tasks[j]? = some ((.wait (some ""), 0), .ret v) ∧
      v.decision = .approved) ∧
    ∀ j id uid v, p.tasks[j]? = some ((.wait id, uid), .ret v) → v.decision = .approved →
      ∃ c t h, id = some c.id ∧ v.challengeId = c.id ∧
        (.returned j c.ref .approved :: h) <:+ p.state.history ∧
        DecidedBy sampleConfig t .approved c h := by
  have run : ∃ p, (system sampleConfig).Run (System.initial (State.start 0))
      [.start (.create (some samplePlan) (some "session1"), 0), .resume 0 sampleAnswer,
        .resume 0 sampleAnswer, .start (.approve (some "") (some "APPROVE 0123456789ab"), 1000),
        .resume 1 sampleAnswer, .resume 1 sampleAnswer, .start (.wait (some ""), 0),
        .resume 2 sampleAnswer, .resume 2 sampleAnswer] p ∧
      ∃ v, p.tasks[2]? = some ((.wait (some ""), 0), .ret v) ∧ v.decision = .approved := by
    exact ⟨_, .cons trivial (.cons ⟨_, _, _, rfl, trivial⟩ (.cons ⟨_, _, _, rfl, trivial⟩
      (.cons trivial (.cons ⟨_, _, _, rfl, trivial⟩ (.cons ⟨_, _, _, rfl, trivial⟩
      (.cons trivial (.cons ⟨_, _, _, rfl, trivial⟩ (.cons ⟨_, _, _, rfl, fun _ => rfl⟩
      (.nil _))))))))), _, rfl, rfl⟩
  obtain ⟨p, run, v, hv, hd⟩ := run
  exact ⟨p, ⟨2, v, hv, hd⟩, (approved_only_by_operator sampleConfig 0 p ⟨_, run⟩).2.1⟩

end Ares.Consent
