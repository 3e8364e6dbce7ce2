import Ares.Consent.Authority

/-! What every step of the consent authority leaves in its history.  `Causal` says, for each event,
which events of the same task and which facts about the challenge came before it; the contract of
the authority keeps `Causal` of the whole history under every interleaving of its requests. -/

namespace Ares.Consent

open Coop

/-- The decision of the challenge object `ref` after a history. -/
def valueOf : List Event → Nat → Decision
  | [], _ => .pending
  | .decided _ r d _ :: past, ref => if ref = r then d else valueOf past ref
  | .expired _ r :: past, ref => if ref = r then .expired else valueOf past ref
  | _ :: past, ref => valueOf past ref

/-- The request asks for the decision `d` on `c`, an approval with the phrase of `c`. -/
def Request.Decides (r : Request) (d : Decision) (c : Challenge) : Prop :=
  d = .approved ∧ r = .approve (some c.id) (some c.confirmationPhrase) ∨
    d = .denied ∧ ∃ confirmation, r = .deny (some c.id) confirmation

def Stored (h : List Event) (c : Challenge) : Prop := ∃ t, .stored t c ∈ h

/-- The last event of a task that has checked the challenge `ref` and not yet decided it. -/
def Event.Opens (ref : Nat) : Event → Prop
  | .checked _ r _ _ | .recorded _ r _ _ _ => r = ref
  | _ => False

/-- The task `t` is between its check of the challenge `ref` and the end of its decision. -/
def InFlight (h : List Event) (t ref : Nat) : Prop := ∃ e ∈ (own t h).head?, e.Opens ref

def Causal (cfg : Config) : Event → List Event → Prop
  | .received t _ _, past => own t past = []
  | .drawn t n, past => (∃ r, own t past = [.received t r cfg.brokerUid]) ∧
      ∀ t' n', .drawn t' n' ∈ past → n' < n
  | .stored t c, past => c.id = cfg.uuid4 c.ref ∧
      ∃ r, own t past = [.drawn t c.ref, .received t r cfg.brokerUid]
  | .requested t _, past => ∃ c, (own t past).head? = some (.stored t c)
  | .checked t ref d time, past => ∃ c r, own t past = [.received t r cfg.operatorUid] ∧
      Stored past c ∧ c.ref = ref ∧ r.Decides d c ∧ valueOf past ref = .pending ∧
      time < c.expiresAt
  | .recorded t ref d entry _, past =>
      (∃ time, (own t past).head? = some (.checked t ref d time)) ∧
      ∃ c, Stored past c ∧ c.ref = ref ∧ entry = decisionEntry c d cfg.operatorUid
  | .unaudited t ref, past => (∃ d time, (own t past).head? = some (.checked t ref d time)) ∨
      ∃ d entry, (own t past).head? = some (.recorded t ref d entry false)
  | .decided t ref d uid, past => uid = cfg.operatorUid ∧
      ∃ entry, (own t past).head? = some (.recorded t ref d entry true)
  | .expired t _, past => ∃ r, own t past = [.received t r cfg.brokerUid]
  | .returned t ref d, past => valueOf past ref = d ∧
      ∃ r, own t past = [.received t r cfg.brokerUid]

theorem Stored.suffix {h h' : List Event} {c : Challenge} (hc : Stored h c) (hs : h <:+ h') :
    Stored h' c := by
  obtain ⟨t, ht⟩ := hc
  exact ⟨t, hs.subset ht⟩

/-- The state that the invariant ties to the history. -/
structure Inv (cfg : Config) (s : State) : Prop where
  causal : Always (Causal cfg) s.history
  decision : ∀ ref, s.decision ref = valueOf s.history ref
  stored : ∀ id c, s.challenges id = some c → c.id = id ∧ Stored s.history c
  drawn : ∀ t n, .drawn t n ∈ s.history → n < s.drawn

abbrev Rely := Kept State.history

abbrev Guar := Noted State.history

def Decided (cfg : Config) (j : Nat) (r : Request) (d : Decision) (s : State) : Prop :=
  ∃ c, Stored s.history c ∧ r.Decides d c ∧ .decided j c.ref d cfg.operatorUid ∈ s.history

def Waited (j : Nat) (r : Request) (v : PublicView) (s : State) : Prop :=
  ∃ c, Stored s.history c ∧ r = .wait (some c.id) ∧ v.challengeId = c.id ∧
    v.confirmationPhrase = c.confirmationPhrase ∧ .returned j c.ref v.decision ∈ s.history

/-- The task `j` leaves no challenge between its check and the end of its decision. -/
def Closed (j : Nat) (s : State) : Prop := ∀ ref, ¬InFlight s.history j ref

/-- What the history holds when a request has been answered. -/
def Answered (cfg : Config) (j : Nat) (t : Request × Int) (v : PublicView) (s : State) : Prop :=
  Closed j s ∧ match t.1 with
  | .wait _ => Waited j t.1 v s
  | .approve _ _ => Decided cfg j t.1 .approved s
  | .deny _ _ => Decided cfg j t.1 .denied s
  | _ => True

theorem Decided.suffix {cfg : Config} {j : Nat} {r : Request} {d : Decision} {s s' : State}
    (h : Decided cfg j r d s) (hs : s.history <:+ s'.history) : Decided cfg j r d s' := by
  obtain ⟨c, hc, hr, hd⟩ := h
  exact ⟨c, hc.suffix hs, hr, hs.subset hd⟩

theorem closed_of_head {j : Nat} {s : State} {e : Event} (he : (own j s.history).head? = some e)
    (hn : ∀ ref, ¬e.Opens ref) : Closed j s := by
  rintro ref ⟨e', he', hopens⟩
  obtain rfl : e = e' := Option.some.inj (he.symm.trans he')
  exact hn ref hopens

theorem closed_of_own {j : Nat} {s : State} {e : Event} {l : List Event}
    (he : own j s.history = e :: l) (hn : ∀ ref, ¬e.Opens ref) : Closed j s :=
  closed_of_head (by rw [he]; rfl) hn

theorem Closed.rely {j : Nat} {s s' : State} (h : Closed j s) (hr : Rely j s s') : Closed j s' := by
  intro ref hin
  rw [InFlight, hr.2] at hin
  exact h ref hin

theorem Answered.rely {cfg : Config} {j : Nat} {t : Request × Int} {v : PublicView} {s s' : State}
    (h : Answered cfg j t v s) (hr : Rely j s s') : Answered cfg j t v s' := by
  obtain ⟨r, uid⟩ := t
  obtain ⟨hclosed, h⟩ := h
  refine ⟨hclosed.rely hr, ?_⟩
  cases r with
  | wait =>
    obtain ⟨c, hc, hw, hid, hp, hret⟩ := h
    exact ⟨c, hc.suffix hr.1, hw, hid, hp, hr.1.subset hret⟩
  | approve | deny => exact Decided.suffix h hr.1
  | create | filesystemCreate | storageCreate | get | unsupported => trivial

section Steps

variable {cfg : Config} {s : State} {e : Event}

def Event.Neutral : Event → Prop
  | .decided _ _ _ _ | .expired _ _ | .drawn _ _ => False
  | _ => True

theorem Inv.note (h : Inv cfg s) (he : Causal cfg e s.history) (hn : e.Neutral) :
    Inv cfg (s.note e) where
  causal := ⟨he, h.causal⟩
  decision ref := by
    rw [State.note, h.decision ref]
    cases e <;> first | rfl | exact hn.elim
  stored id c hc := by
    obtain ⟨hid, hst⟩ := h.stored id c hc
    exact ⟨hid, hst.suffix (List.suffix_cons _ _)⟩
  drawn t n hmem := by
    rcases List.mem_cons.mp hmem with rfl | hmem
    · exact hn.elim
    · exact h.drawn t n hmem

theorem Inv.draw {t : Nat} (h : Inv cfg s) (he : Causal cfg (.drawn t s.drawn) s.history) :
    Inv cfg (s.draw t) where
  causal := ⟨he, h.causal⟩
  decision := h.decision
  stored id c hc := by
    obtain ⟨hid, hst⟩ := h.stored id c hc
    exact ⟨hid, hst.suffix (List.suffix_cons _ _)⟩
  drawn t' n hmem := by
    rcases List.mem_cons.mp hmem with heq | hmem
    · obtain ⟨-, rfl⟩ := Event.drawn.inj heq
      exact Nat.lt_succ_self _
    · exact Nat.lt_succ_of_lt (h.drawn t' n hmem)

theorem Inv.store {t : Nat} {c : Challenge} (h : Inv cfg s)
    (he : Causal cfg (.stored t c) s.history) : Inv cfg (s.store t c) where
  causal := ⟨he, h.causal⟩
  decision := h.decision
  stored id c' hc := by
    simp only [State.store, State.note, Function.update_apply] at hc
    split at hc
    · next hid =>
      obtain rfl := Option.some.inj hc
      exact ⟨hid.symm, t, List.mem_cons_self⟩
    · obtain ⟨hid, hst⟩ := h.stored id c' hc
      exact ⟨hid, hst.suffix (List.suffix_cons _ _)⟩
  drawn t' n hmem := by
    rcases List.mem_cons.mp hmem with heq | hmem
    · cases heq
    · exact h.drawn t' n hmem

theorem Inv.expire {t ref : Nat} (h : Inv cfg s) (he : Causal cfg (.expired t ref) s.history) :
    Inv cfg (s.expire t ref) where
  causal := ⟨he, h.causal⟩
  decision r := by
    simp only [State.expire, State.note, Function.update_apply, valueOf, h.decision r]
  stored id c hc := by
    obtain ⟨hid, hst⟩ := h.stored id c hc
    exact ⟨hid, hst.suffix (List.suffix_cons _ _)⟩
  drawn t' n hmem := by
    rcases List.mem_cons.mp hmem with heq | hmem
    · cases heq
    · exact h.drawn t' n hmem

theorem Inv.decide {t ref : Nat} {d : Decision} {uid : Int} (h : Inv cfg s)
    (he : Causal cfg (.decided t ref d uid) s.history) : Inv cfg (s.decide t ref d uid) where
  causal := ⟨he, h.causal⟩
  decision r := by
    simp only [State.decide, State.note, Function.update_apply, valueOf, h.decision r]
  stored id c hc := by
    obtain ⟨hid, hst⟩ := h.stored id c hc
    exact ⟨hid, hst.suffix (List.suffix_cons _ _)⟩
  drawn t' n hmem := by
    rcases List.mem_cons.mp hmem with heq | hmem
    · cases heq
    · exact h.drawn t' n hmem

end Steps

/-! ### The requests -/

abbrev logic (cfg : Config) (j : Nat) : Logic State Res :=
  ⟨Inv cfg, Rely j, Guar j, (system cfg).answers⟩

section Requests

variable {cfg : Config} {j : Nat} {s : State}

theorem guar_note {e : Event} (he : e.task = j) : Guar j s (s.note e) := ⟨e, he, rfl⟩

theorem closed_cons {s' : State} {e : Event} {h : List Event} (hs : s'.history = e :: h)
    (he : e.task = j) (hn : ∀ ref, ¬e.Opens ref) : Closed j s' :=
  closed_of_own (by rw [hs]; exact own_cons_self h he) hn

theorem spec_lookup {id : Option String} {Q : Challenge → State → Prop} {r : Request} {uid : Int}
    (hown : own j s.history = [.received j r uid])
    (h : ∀ c s', Inv cfg s' → own j s'.history = [.received j r uid] → Stored s'.history c →
      id = some c.id → Q c s') :
    (lookup id).Spec (logic cfg j) Q (fun _ => Closed j) s := by
  simp only [lookup, lock, bind_eq, spec_bind, spec_ofOption, spec_perform,
    spec_reading]
  refine ⟨fun i hi s' inv rely _ _ => ?_, fun _ => closed_of_own hown fun _ => False.elim⟩
  have hown' : own j s'.history = [.received j r uid] := by rw [rely.2, hown]
  refine ⟨fun c hc => ?_, fun _ => closed_of_own hown' fun _ => False.elim⟩
  obtain ⟨hid, hst⟩ := inv.stored i c hc
  exact h c s' inv hown' hst (by rw [hi, hid])

theorem spec_append {entry : Audit.AuditEntry} {note : Bool → Event} {Q : Unit → State → Prop}
    {E : Error → State → Prop} (htask : ∀ b, (note b).task = j) (hn : ∀ b, (note b).Neutral)
    (hc : ∀ b s', Inv cfg s' → Rely j s s' → Causal cfg (note b) s'.history)
    (hQ : ∀ s', Inv cfg (s'.note (note true)) → Rely j s s' → Q () (s'.note (note true)))
    (hlost : ∀ s', Inv cfg (s'.note (note false)) → Rely j s s' → E .audit (s'.note (note false)))
    (hfailed : ∀ s', Inv cfg s' → Rely j s s' → E .audit s') :
    (append entry note).Spec (logic cfg j) Q E s := by
  simp only [append, awaitAppend, bind_eq, spec_bind, spec_perform]
  intro s' inv rely r _
  have hnote : ∀ b, Inv cfg (s'.note (note b)) := fun b => inv.note (hc b s' inv rely) (hn b)
  cases r with
  | acked => exact ⟨guar_note (htask true), hnote true, hQ s' (hnote true) rely⟩
  | lost => exact ⟨guar_note (htask false), hnote false, hlost s' (hnote false) rely⟩
  | failed => exact hfailed s' inv rely

theorem spec_storeAndAuditRequested {c : Challenge} {details : Data.Fields} {r : Request}
    (hid : c.id = cfg.uuid4 c.ref)
    (hown : own j s.history = [.drawn j c.ref, .received j r cfg.brokerUid]) :
    (storeAndAuditRequested j c details).Spec (logic cfg j) (fun _ => Closed j)
      (fun _ => Closed j) s := by
  simp only [storeAndAuditRequested, lock, bind_eq, spec_bind, spec_perform,
    spec_modify]
  intro s' inv rely _ _
  have hcausal : Causal cfg (.stored j c) s'.history := ⟨hid, r, by rw [rely.2, hown]⟩
  refine ⟨⟨_, rfl, rfl⟩, inv.store hcausal, ?_⟩
  have hclosed : Closed j (s'.store j c) := closed_cons rfl rfl fun _ => False.elim
  refine spec_append (fun _ => rfl) (fun _ => trivial) (fun _ s'' _ rely' => ⟨c, ?_⟩)
    (fun _ _ _ => closed_cons rfl rfl fun _ => False.elim)
    (fun _ _ _ => closed_cons rfl rfl fun _ => False.elim)
    (fun _ _ rely' => hclosed.rely rely')
  rw [rely'.2]
  exact head_own_cons s'.history rfl

theorem spec_draw {r : Request} {Q : Nat × String → State → Prop} (inv : Inv cfg s)
    (hown : own j s.history = [.received j r cfg.brokerUid])
    (h : ∀ n s', own j s'.history = [.drawn j n, .received j r cfg.brokerUid] →
      Q (n, cfg.uuid4 n) s') :
    (draw cfg j).Spec (logic cfg j) Q (fun _ => Closed j) s := by
  simp only [draw, bind_eq, pure_eq, spec_bind, spec_reading,
    spec_modify, spec_ret]
  refine ⟨⟨_, rfl, rfl⟩, inv.draw ⟨⟨r, hown⟩, inv.drawn⟩, h _ _ ?_⟩
  simp [own_cons, Event.task, hown]

theorem spec_wait {id : Option String} (hown : own j s.history =
    [.received j (.wait id) cfg.brokerUid]) :
    (wait j id).Spec (logic cfg j) (fun v s => Closed j s ∧ Waited j (.wait id) v s)
      (fun _ => Closed j) s := by
  simp only [wait, bind_eq, spec_bind]
  refine spec_lookup hown fun c s' inv hown' hst hid => ?_
  simp only [spec_reading]
  split
  · exact ⟨⟨_, rfl, rfl⟩, inv.expire ⟨_, hown'⟩, closed_cons rfl rfl fun _ => False.elim⟩
  · simp only [awaitEvent, spec_bind, spec_perform]
    intro t inv' rely' r _
    have hown'' : own j t.history = [.received j (.wait id) cfg.brokerUid] := by
      rw [rely'.2, hown']
    cases r with
    | timeout =>
      exact ⟨⟨_, rfl, rfl⟩, inv'.expire ⟨_, hown''⟩, closed_cons rfl rfl fun _ => False.elim⟩
    | set =>
      refine ⟨guar_note rfl, inv'.note ⟨(inv'.decision _).symm, _, hown''⟩ trivial,
        closed_cons rfl rfl fun _ => False.elim, c, ?_, ?_⟩
      · exact (hst.suffix rely'.1).suffix (List.suffix_cons _ _)
      · exact ⟨by rw [hid], rfl, rfl, List.mem_cons_self⟩

theorem spec_decide {id confirmation : Option String} {d : Decision} {r : Request}
    (hown : own j s.history = [.received j r cfg.operatorUid])
    (hr : ∀ c, id = some c.id → (d ≠ .approved ∨ confirmation = some c.confirmationPhrase) →
      r.Decides d c) :
    (decide j id confirmation d cfg.operatorUid).Spec (logic cfg j)
      (fun _ s => Closed j s ∧ Decided cfg j r d s) (fun _ => Closed j) s := by
  simp only [decide, bind_eq, spec_bind]
  refine spec_lookup hown fun c s' inv hown' hst hid => ?_
  have hclosed : Closed j s' := closed_of_own hown' fun _ => False.elim
  simp only [spec_state, spec_require, spec_modify, Bool.and_eq_true,
    decide_eq_true_eq, Bool.or_eq_true, hclosed, implies_true, and_true]
  rintro ⟨hpend, htime⟩ hphrase
  have hdec : r.Decides d c := hr c hid hphrase
  have hcausal : Causal cfg (.checked j c.ref d s'.now) s'.history :=
    ⟨c, r, hown', hst, rfl, hdec, by rw [← inv.decision, hpend], htime⟩
  refine ⟨guar_note rfl, inv.note hcausal trivial, ?_⟩
  rw [spec_handle]
  have hhead : ∀ t, Rely j (s'.note (.checked j c.ref d s'.now)) t →
      (own j t.history).head? = some (.checked j c.ref d s'.now) := by
    intro t rely'
    rw [rely'.2]
    exact head_own_cons s'.history rfl
  have hst' : ∀ t, Rely j (s'.note (.checked j c.ref d s'.now)) t → Stored t.history c :=
    fun t rely' => hst.suffix ((List.suffix_cons _ _).trans rely'.1)
  refine spec_append (fun _ => rfl) (fun _ => trivial)
    (fun b t _ rely' => ⟨⟨_, hhead t rely'⟩, c, hst' t rely', rfl, rfl⟩)
    (fun t inv' rely' => ?_) (fun t inv' rely' => ?_) (fun t inv' rely' => ?_)
  · -- the record is acknowledged and the decision becomes visible
    refine ⟨⟨_, rfl, rfl⟩, inv'.decide ⟨rfl, _, head_own_cons _ rfl⟩,
      closed_cons rfl rfl fun _ => False.elim, c, ?_, hdec, List.mem_cons_self⟩
    exact (hst' t rely').suffix ((List.suffix_cons _ _).trans (List.suffix_cons _ _))
  · refine ⟨guar_note rfl, inv'.note (.inr ⟨d, decisionEntry c d cfg.operatorUid, ?_⟩) trivial,
      closed_cons rfl rfl fun _ => False.elim⟩
    exact head_own_cons t.history rfl
  · exact ⟨guar_note rfl, inv'.note (.inl ⟨d, _, hhead t rely'⟩) trivial,
      closed_cons rfl rfl fun _ => False.elim⟩

theorem spec_dispatch (t : Request × Int) (inv : Inv cfg s) (hown : own j s.history = []) :
    (dispatch cfg j t.1 t.2).Spec (logic cfg j) (Answered cfg j t) (fun _ => Closed j) s := by
  obtain ⟨r, uid⟩ := t
  simp only [dispatch, bind_eq, spec_bind, spec_modify]
  have inv' : Inv cfg (s.note (.received j r uid)) := inv.note hown trivial
  have hown' : own j (s.note (.received j r uid)).history = [.received j r uid] :=
    by simp [own_cons, Event.task, hown]
  have hclosed : Closed j (s.note (.received j r uid)) := closed_of_own hown' fun _ => False.elim
  refine ⟨guar_note rfl, inv', ?_⟩
  cases r with
  | create plan sessionId =>
    simp only [requirePeer, createBackup, bind_eq, spec_bind, spec_require,
      spec_ofOption, decide_eq_true_eq, hclosed, implies_true, and_true]
    rintro rfl plan - sessionId - -
    refine spec_draw inv' hown' fun n s' hown'' => ?_
    simp only [spec_reading]
    exact (spec_storeAndAuditRequested rfl hown'').mono (fun _ _ h => ⟨h, trivial⟩) fun _ _ h => h
  | filesystemCreate plan =>
    simp only [requirePeer, createFilesystem, bind_eq, spec_bind, spec_require,
      spec_ofOption, decide_eq_true_eq, hclosed, implies_true, and_true]
    rintro rfl plan -
    refine spec_draw inv' hown' fun n s' hown'' => ?_
    simp only [spec_reading]
    exact (spec_storeAndAuditRequested rfl hown'').mono (fun _ _ h => ⟨h, trivial⟩) fun _ _ h => h
  | storageCreate plan =>
    simp only [requirePeer, createStorage, bind_eq, spec_bind, spec_require,
      spec_ofOption, decide_eq_true_eq, hclosed, implies_true, and_true]
    rintro rfl plan -
    refine spec_draw inv' hown' fun n s' hown'' => ?_
    simp only [spec_reading]
    exact (spec_storeAndAuditRequested rfl hown'').mono (fun _ _ h => ⟨h, trivial⟩) fun _ _ h => h
  | wait id =>
    simp only [requirePeer, spec_bind, spec_require, decide_eq_true_eq, hclosed,
      implies_true, and_true]
    rintro rfl
    exact spec_wait hown'
  | get id =>
    simp only [requirePeer, spec_bind, spec_require, decide_eq_true_eq, hclosed,
      implies_true, and_true]
    rintro rfl
    simp only [get, bind_eq, spec_bind]
    exact spec_lookup hown' fun _ _ _ hown'' _ _ =>
      ⟨closed_of_own hown'' fun _ => False.elim, trivial⟩
  | approve id confirmation =>
    simp only [requirePeer, spec_bind, spec_require, decide_eq_true_eq, hclosed,
      implies_true, and_true]
    rintro rfl
    exact spec_decide hown' fun c hid hphrase =>
      .inl ⟨rfl, by rw [hid, hphrase.resolve_left (not_not_intro rfl)]⟩
  | deny id confirmation =>
    simp only [requirePeer, spec_bind, spec_require, decide_eq_true_eq, hclosed,
      implies_true, and_true]
    rintro rfl
    exact spec_decide hown' fun c hid _ => .inr ⟨rfl, confirmation, by rw [hid]⟩
  | unsupported => exact hclosed

end Requests

def contract (cfg : Config) : Contract (system cfg) where
  inv := Inv cfg
  rely := Rely
  guar := Guar
  fresh j s := own j s.history = []
  post := Answered cfg
  postE j _ _ := Closed j
  refl := Kept.refl
  trans _ _ _ _ := Kept.trans
  guar_rely _ _ _ _ := Noted.kept
  fresh_rely _ _ _ hf hr := hr.2.trans hf
  post_rely _ _ _ _ _ := Answered.rely
  postE_rely _ _ _ _ _ := Closed.rely
  world _ _ inv _ := ⟨⟨inv.causal, inv.decision, inv.stored, inv.drawn⟩, fun k => Kept.refl k _⟩
  handler _ t _ inv hf _ := spec_dispatch t inv hf

theorem holds_of_reachable {cfg : Config} {now : DateTime}
    {p : Pool State Res Error PublicView (Request × Int)}
    (reach : (system cfg).Reachable (State.start now) p) : (contract cfg).Holds p := by
  have inv : Inv cfg (State.start now) :=
    ⟨trivial, fun _ => rfl, by simp [State.start], by simp [State.start]⟩
  exact (contract cfg).sound inv (fun _ => rfl) reach

end Ares.Consent
