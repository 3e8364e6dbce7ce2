import Ares.Consent.Operator
import Ares.Coop.Tokens

/-! How often a challenge is decided.  The authority checks that a challenge is pending before it
appends the record of a decision and assigns the decision after it, and a wait assigns its expiry
without a check.  A challenge is decided at most once in every run in which no two decisions of it
overlap, no wait expires it during or after a decision, and no acknowledgement is lost. -/

namespace Ares.Consent

open Coop

/-- What a step must not do to a challenge that another step is deciding or has decided. -/
def Exclusive : Event → List Event → Prop
  | .checked _ ref _ _, past => ∀ t, ¬InFlight past t ref
  | .expired _ ref, past => (∀ t, ¬InFlight past t ref) ∧
      (valueOf past ref = .pending ∨ valueOf past ref = .expired)
  | .recorded _ _ _ _ acked, _ => acked = true
  | _, _ => True

def isRecord (ref : Nat) : Event → Bool
  | .recorded _ r _ _ _ => r = ref
  | _ => false

def isDecision (ref : Nat) : Event → Bool
  | .decided _ r _ _ => r = ref
  | _ => false

/-- The approved and denied records of the challenge `ref`. -/
def records (ref : Nat) (h : List Event) : List Event := h.filter (isRecord ref)

def decisions (ref : Nat) (h : List Event) : List Event := h.filter (isDecision ref)

/-- How far the one decision of the challenge `ref` has come. -/
inductive Stage (h : List Event) (ref : Nat) : Prop
  | idle (flight : ∀ t, ¬InFlight h t ref) (hrec : records ref h = [])
      (hdec : decisions ref h = []) (value : valueOf h ref = .pending ∨ valueOf h ref = .expired)
  | checked (t : Nat) (d : Decision) (time : DateTime)
      (head : (own t h).head? = some (.checked t ref d time))
      (flight : ∀ t', InFlight h t' ref → t' = t) (hd : d = .approved ∨ d = .denied)
      (hrec : records ref h = []) (hdec : decisions ref h = []) (value : valueOf h ref = .pending)
  | recorded (t : Nat) (d : Decision) (entry : Audit.AuditEntry)
      (head : (own t h).head? = some (.recorded t ref d entry true))
      (flight : ∀ t', InFlight h t' ref → t' = t) (hd : d = .approved ∨ d = .denied)
      (hrec : records ref h = [.recorded t ref d entry true]) (hdec : decisions ref h = [])
      (value : valueOf h ref = .pending)
  | decided (t : Nat) (d : Decision) (entry : Audit.AuditEntry) (uid : Int)
      (flight : ∀ t, ¬InFlight h t ref) (hd : d = .approved ∨ d = .denied)
      (hrec : records ref h = [.recorded t ref d entry true])
      (hdec : decisions ref h = [.decided t ref d uid]) (value : valueOf h ref = d)

section Stages

variable {cfg : Config} {e : Event} {h past : List Event} {t ref : Nat}

theorem inFlight_of_head {e : Event} (he : (own t h).head? = some e) (ho : e.Opens ref) :
    InFlight h t ref := ⟨e, he, ho⟩

theorem not_inFlight_of_head {e : Event} (he : (own t h).head? = some e) (ho : ¬e.Opens ref) :
    ¬InFlight h t ref := by
  rintro ⟨e', he', ho'⟩
  obtain rfl : e = e' := Option.some.inj (he.symm.trans he')
  exact ho ho'

theorem inFlight_cons {t' : Nat} (hin : InFlight (e :: past) t' ref) :
    t' = e.task ∧ e.Opens ref ∨ t' ≠ e.task ∧ InFlight past t' ref := by
  by_cases heq : e.task = t'
  · subst heq
    rw [InFlight, own_cons_self (t := e.task) past rfl] at hin
    exact .inl ⟨rfl, by simpa using hin⟩
  · rw [InFlight, own_cons_ne past heq] at hin
    exact .inr ⟨Ne.symm heq, hin⟩

theorem Stage.frame (hs : Stage past ref) (hflight : ¬InFlight past e.task ref)
    (ho : ¬e.Opens ref) (hr : isRecord ref e = false) (hd : isDecision ref e = false)
    (hv : valueOf (e :: past) ref = valueOf past ref) : Stage (e :: past) ref := by
  have hrecords : records ref (e :: past) = records ref past := by simp [records, hr]
  have hdecisions : decisions ref (e :: past) = decisions ref past := by simp [decisions, hd]
  have flights : ∀ t', InFlight (e :: past) t' ref → InFlight past t' ref := by
    intro t' hin
    obtain ⟨-, hopens⟩ | ⟨-, hin⟩ := inFlight_cons hin
    · exact absurd hopens ho
    · exact hin
  have heads : ∀ t' e', (own t' past).head? = some e' → e'.Opens ref →
      (own t' (e :: past)).head? = some e' := by
    intro t' e' he' ho'
    have hne : e.task ≠ t' := by
      rintro rfl
      exact hflight ⟨e', he', ho'⟩
    rw [own_cons_ne past hne, he']
  cases hs with
  | idle flight hrec hdec value =>
    exact .idle (fun t hin => flight t (flights t hin)) (hrecords.trans hrec)
      (hdecisions.trans hdec) (by rwa [hv])
  | checked t d time head flight hd' hrec hdec value =>
    exact .checked t d time (heads t _ head rfl) (fun t' hin => flight t' (flights t' hin)) hd'
      (hrecords.trans hrec) (hdecisions.trans hdec) (by rwa [hv])
  | recorded t d entry head flight hd' hrec hdec value =>
    exact .recorded t d entry (heads t _ head rfl) (fun t' hin => flight t' (flights t' hin)) hd'
      (hrecords.trans hrec) (hdecisions.trans hdec) (by rwa [hv])
  | decided t d entry uid flight hd' hrec hdec value =>
    exact .decided t d entry uid (fun t hin => flight t (flights t hin)) hd'
      (hrecords.trans hrec) (hdecisions.trans hdec) (by rwa [hv])

theorem Stage.of_checked {d : Decision} {time : DateTime} (hs : Stage past ref)
    (head : (own t past).head? = some (.checked t ref d time)) :
    (∀ t', InFlight past t' ref → t' = t) ∧ (d = .approved ∨ d = .denied) ∧
      records ref past = [] ∧ decisions ref past = [] ∧ valueOf past ref = .pending := by
  have hin : InFlight past t ref := inFlight_of_head head rfl
  cases hs with
  | idle flight | decided _ _ _ _ flight => exact absurd hin (flight t)
  | checked t' d' time' head' flight hd hrec hdec value =>
    obtain rfl := flight t hin
    obtain ⟨-, -, rfl, -⟩ := Event.checked.inj (Option.some.inj (head'.symm.trans head))
    exact ⟨flight, hd, hrec, hdec, value⟩
  | recorded t' d' entry head' flight =>
    obtain rfl := flight t hin
    cases head'.symm.trans head

theorem Stage.of_recorded {d : Decision} {entry : Audit.AuditEntry} {acked : Bool}
    (hs : Stage past ref) (head : (own t past).head? = some (.recorded t ref d entry acked)) :
    acked = true ∧ (∀ t', InFlight past t' ref → t' = t) ∧ (d = .approved ∨ d = .denied) ∧
      records ref past = [.recorded t ref d entry true] ∧ decisions ref past = [] ∧
      valueOf past ref = .pending := by
  have hin : InFlight past t ref := inFlight_of_head head rfl
  cases hs with
  | idle flight | decided _ _ _ _ flight => exact absurd hin (flight t)
  | checked t' d' time' head' flight =>
    obtain rfl := flight t hin
    cases head'.symm.trans head
  | recorded t' d' entry' head' flight hd hrec hdec value =>
    obtain rfl := flight t hin
    obtain ⟨-, -, rfl, rfl, rfl⟩ := Event.recorded.inj (Option.some.inj (head'.symm.trans head))
    exact ⟨rfl, flight, hd, hrec, hdec, value⟩

theorem Stage.of_quiet (hs : Stage past ref) (quiet : ∀ t, ¬InFlight past t ref)
    (value : valueOf past ref = .pending ∨ valueOf past ref = .expired) :
    records ref past = [] ∧ decisions ref past = [] := by
  cases hs with
  | idle _ hrec hdec => exact ⟨hrec, hdec⟩
  | checked t d time head => exact absurd (inFlight_of_head head rfl) (quiet t)
  | recorded t d entry head => exact absurd (inFlight_of_head head rfl) (quiet t)
  | decided t d entry uid _ hd _ _ hv =>
    rw [hv] at value
    rcases hd with rfl | rfl <;> rcases value with hv' | hv' <;> cases hv'

theorem not_inFlight_of_own {e : Event} {l : List Event} (hown : own t past = e :: l)
    (ho : ¬e.Opens ref) : ¬InFlight past t ref :=
  not_inFlight_of_head (by rw [hown]; rfl) ho

theorem not_inFlight_of_fresh (hown : own t past = []) : ¬InFlight past t ref := by
  simp [InFlight, hown]

theorem Stage.step (hs : Stage past ref) (hc : Causal cfg e past) (hx : Exclusive e past) :
    Stage (e :: past) ref := by
  cases e with
  | received t r uid => exact hs.frame (not_inFlight_of_fresh hc) id rfl rfl rfl
  | drawn t n =>
    obtain ⟨⟨r, hown⟩, -⟩ := hc
    exact hs.frame (not_inFlight_of_own hown id) id rfl rfl rfl
  | stored t c =>
    obtain ⟨-, r, hown⟩ := hc
    exact hs.frame (not_inFlight_of_own hown id) id rfl rfl rfl
  | requested t entry =>
    obtain ⟨c, hhead⟩ := hc
    exact hs.frame (not_inFlight_of_head hhead id) id rfl rfl rfl
  | returned t r d =>
    obtain ⟨-, r, hown⟩ := hc
    exact hs.frame (not_inFlight_of_own hown id) id rfl rfl rfl
  | expired t r =>
    obtain ⟨req, hown⟩ := hc
    by_cases href : r = ref
    · subst href
      obtain ⟨hrec, hdec⟩ := hs.of_quiet hx.1 hx.2
      refine .idle (fun t' hin => ?_) hrec hdec (.inr (by simp [valueOf]))
      obtain ⟨-, hopens⟩ | ⟨-, hin⟩ := inFlight_cons hin
      · exact hopens
      · exact hx.1 t' hin
    · exact hs.frame (not_inFlight_of_own hown id) id rfl rfl (by simp [valueOf, Ne.symm href])
  | checked t r d time =>
    obtain ⟨c, req, hown, -, -, hdecides, hpend, -⟩ := hc
    by_cases href : r = ref
    · subst href
      obtain ⟨hrec, hdec⟩ := hs.of_quiet hx (.inl hpend)
      have hd : d = .approved ∨ d = .denied := by
        rcases hdecides with ⟨hd, -⟩ | ⟨hd, -⟩
        · exact .inl hd
        · exact .inr hd
      refine .checked t d time (head_own_cons past rfl) (fun t' hin => ?_) hd hrec hdec hpend
      obtain ⟨heq, -⟩ | ⟨-, hin⟩ := inFlight_cons hin
      · exact heq
      · exact absurd hin (hx t')
    · exact hs.frame (not_inFlight_of_own hown id) href rfl rfl rfl
  | recorded t r d entry acked =>
    obtain ⟨⟨time, hhead⟩, -⟩ := hc
    by_cases href : r = ref
    · subst href
      obtain rfl : acked = true := hx
      obtain ⟨flight, hd, hrec, hdec, hpend⟩ := hs.of_checked hhead
      refine .recorded t d entry (head_own_cons past rfl) (fun t' hin => ?_) hd ?_ hdec hpend
      · obtain ⟨heq, -⟩ | ⟨-, hin⟩ := inFlight_cons hin
        · exact heq
        · exact flight t' hin
      · have hkeep : records r (.recorded t r d entry true :: past) =
            .recorded t r d entry true :: records r past := by simp [records, isRecord]
        rw [hkeep, hrec]
    · exact hs.frame (not_inFlight_of_head hhead href) href (by simp [isRecord, href]) rfl rfl
  | unaudited t r =>
    by_cases href : r = ref
    · subst href
      obtain ⟨d, time, hhead⟩ | ⟨d, entry, hhead⟩ := hc
      · obtain ⟨flight, -, hrec, hdec, hpend⟩ := hs.of_checked hhead
        refine .idle (fun t' hin => ?_) hrec hdec (.inl hpend)
        obtain ⟨-, hopens⟩ | ⟨hne, hin⟩ := inFlight_cons hin
        · exact hopens
        · exact hne (flight t' hin)
      · exact absurd (hs.of_recorded hhead).1 (by decide)
    · have hflight : ¬InFlight past t ref := by
        obtain ⟨d, time, hhead⟩ | ⟨d, entry, hhead⟩ := hc <;>
          exact not_inFlight_of_head hhead href
      exact hs.frame hflight id rfl rfl rfl
  | decided t r d uid =>
    obtain ⟨-, entry, hhead⟩ := hc
    by_cases href : r = ref
    · subst href
      obtain ⟨-, flight, hd, hrec, hdec, hpend⟩ := hs.of_recorded hhead
      refine .decided t d entry uid (fun t' hin => ?_) hd hrec ?_ (by simp [valueOf])
      · obtain ⟨-, hopens⟩ | ⟨hne, hin⟩ := inFlight_cons hin
        · exact hopens
        · exact hne (flight t' hin)
      · have hkeep : decisions r (.decided t r d uid :: past) =
            .decided t r d uid :: decisions r past := by simp [decisions, isDecision]
        rw [hkeep, hdec]
    · exact hs.frame (not_inFlight_of_head hhead href) id rfl (by simp [isDecision, href])
        (by simp [valueOf, Ne.symm href])

theorem stage_of_exclusive (hc : Always (Causal cfg) h) (hx : Always Exclusive h) (ref : Nat) :
    Stage h ref := by
  induction h with
  | nil => exact .idle (fun _ => not_inFlight_of_fresh rfl) rfl rfl (.inl rfl)
  | cons e past ih => exact (ih hc.2 hx.2).step hc.1 hx.1

theorem valueOf_stable (hc : Always (Causal cfg) h) (hx : Always Exclusive h) (hs : past <:+ h)
    (hv : valueOf past ref ≠ .pending) : valueOf h ref = valueOf past ref := by
  induction h with
  | nil => rw [List.suffix_nil.mp hs]
  | cons e l ih =>
    rcases List.suffix_cons_iff.mp hs with rfl | hs
    · rfl
    have hl : valueOf l ref = valueOf past ref := ih hc.2 hx.2 hs
    cases e with
    | decided t r d uid =>
      by_cases href : r = ref
      · subst href
        obtain ⟨-, entry, hhead⟩ := hc.1
        obtain ⟨-, -, -, -, -, hpend⟩ := (stage_of_exclusive hc.2 hx.2 r).of_recorded hhead
        exact absurd (hl.symm.trans hpend) hv
      · rw [valueOf, if_neg (Ne.symm href), hl]
    | expired t r =>
      by_cases href : r = ref
      · subst href
        have hexp := hx.1.2.resolve_left (hl ▸ hv)
        rw [valueOf, if_pos rfl, ← hl, hexp]
      · rw [valueOf, if_neg (Ne.symm href), hl]
    | received | drawn | stored | requested | checked | recorded | unaudited | returned =>
      exact hl

end Stages

/-- The challenge id that a request asks to approve or deny. -/
def Request.target : Request → Option String
  | .approve id _ | .deny id _ => id
  | _ => none

/-- Every challenge is decided at most once, as far as the run has come to `p`. -/
structure DecidedOnce (cfg : Config) (now : DateTime) (p : Requests) : Prop where
  success : ∀ (i j : Nat) (t t' : Request × Int) (v v' : PublicView) (id : String),
    p.tasks[i]? = some (t, .ret v) → p.tasks[j]? = some (t', .ret v') →
    t.1.target = some id → t'.1.target = some id → i = j
  record : ∀ ref, (records ref p.state.history).length ≤ 1
  agrees : (∀ t ∈ p.tasks, t.2.Ended) → ∀ t ref d entry acked,
    .recorded t ref d entry acked ∈ p.state.history → p.state.decision ref = d
  stable : ∀ q ms, (system cfg).Reachable (State.start now) q → (system cfg).Run q ms p →
    ∀ ref, q.state.decision ref ≠ .pending → p.state.decision ref = q.state.decision ref

section Runs

variable {cfg : Config} {now : DateTime} {p : Requests}

theorem decided_of_ret (reach : (system cfg).Reachable (State.start now) p) {j : Nat}
    {t : Request × Int} {v : PublicView} {id : String} (hj : p.tasks[j]? = some (t, .ret v))
    (ht : t.1.target = some id) :
    ∃ ref d, cfg.uuid4 ref = id ∧ .decided j ref d cfg.operatorUid ∈ p.state.history := by
  have holds := holds_of_reachable reach
  have found : ∀ {d}, Decided cfg j t.1 d p.state →
      ∃ ref d, cfg.uuid4 ref = id ∧ .decided j ref d cfg.operatorUid ∈ p.state.history := by
    rintro d ⟨c, ⟨u, hst⟩, hdecides, hdec⟩
    obtain ⟨past, hs⟩ := exists_suffix_of_mem hst
    have hid : c.id = cfg.uuid4 c.ref := (holds.inv.causal.at hs).1
    refine ⟨c.ref, d, ?_, hdec⟩
    rcases hdecides with ⟨-, hr⟩ | ⟨-, confirmation, hr⟩
    · rw [hr] at ht
      rw [← hid, Option.some.inj ht]
    · rw [hr] at ht
      rw [← hid, Option.some.inj ht]
  obtain ⟨-, hpost⟩ := (holds.tasks j _ _ hj).2
  obtain ⟨r, uid⟩ := t
  cases r with
  | approve | deny => exact found hpost
  | create | filesystemCreate | storageCreate | wait | get | unsupported => cases ht

theorem quiet_of_ended (reach : (system cfg).Reachable (State.start now) p)
    (ended : ∀ t ∈ p.tasks, t.2.Ended) (t ref : Nat) : ¬InFlight p.state.history t ref := by
  have holds := holds_of_reachable reach
  by_cases hlt : t < p.tasks.length
  · obtain ⟨⟨r, q⟩, hq⟩ : ∃ u, p.tasks[t]? = some u := ⟨_, List.getElem?_eq_getElem hlt⟩
    have hspec := (holds.tasks t r q hq).2
    have hend : q.Ended := ended _ (List.mem_of_getElem? hq)
    cases q with
    | ret v => exact hspec.1 ref
    | raise e => exact hspec ref
    | get | put | call => exact hend.elim
  · exact not_inFlight_of_fresh (holds.fresh t (by omega))

/-- In every run whose decisions are exclusive, every challenge is decided at most once. -/
theorem decided_once_of_exclusive (cfg : Config) (now : DateTime) (p : Requests)
    (inj : Function.Injective cfg.uuid4) (reach : (system cfg).Reachable (State.start now) p)
    (excl : Always Exclusive p.state.history) : DecidedOnce cfg now p := by
  have holds := holds_of_reachable reach
  have stage := stage_of_exclusive holds.inv.causal excl
  refine ⟨fun i j t t' v v' id hi hj ht ht' => ?_, fun ref => ?_,
    fun ended t ref d entry acked hrec => ?_, fun q ms reachq run ref hv => ?_⟩
  · obtain ⟨ref, d, hid, hdec⟩ := decided_of_ret reach hi ht
    obtain ⟨ref', d', hid', hdec'⟩ := decided_of_ret reach hj ht'
    obtain rfl : ref = ref' := inj (hid.trans hid'.symm)
    have hmem : .decided i ref d cfg.operatorUid ∈ decisions ref p.state.history :=
      List.mem_filter.mpr ⟨hdec, by simp [isDecision]⟩
    have hmem' : .decided j ref d' cfg.operatorUid ∈ decisions ref p.state.history :=
      List.mem_filter.mpr ⟨hdec', by simp [isDecision]⟩
    cases stage ref with
    | idle _ _ hnone | checked _ _ _ _ _ _ _ hnone | recorded _ _ _ _ _ _ _ hnone =>
      simp [hnone] at hmem
    | decided u _ _ _ _ _ _ hone =>
      rw [hone, List.mem_singleton] at hmem hmem'
      rw [(Event.decided.inj hmem).1, (Event.decided.inj hmem').1]
  · cases stage ref with
    | idle _ hrec | checked _ _ _ _ _ _ hrec | recorded _ _ _ _ _ _ hrec
    | decided _ _ _ _ _ _ hrec => simp [hrec]
  · have hmem : .recorded t ref d entry acked ∈ records ref p.state.history :=
      List.mem_filter.mpr ⟨hrec, by simp [isRecord]⟩
    rw [holds.inv.decision]
    cases stage ref with
    | idle _ hnone | checked _ _ _ _ _ _ hnone => simp [hnone] at hmem
    | recorded u _ _ head => exact absurd ⟨_, head, rfl⟩ (quiet_of_ended reach ended u ref)
    | decided _ _ _ _ _ _ hone _ value =>
      rw [hone, List.mem_singleton] at hmem
      rw [value, (Event.recorded.inj hmem).2.2.1]
  · have hs : q.state.history <:+ p.state.history :=
      (holds_of_reachable reachq).history_suffix (fun _ _ _ hg => hg) (fun _ _ _ => List.suffix_refl _)
        run
    rw [(holds_of_reachable reachq).inv.decision] at hv ⊢
    rw [holds.inv.decision]
    exact valueOf_stable holds.inv.causal excl hs hv

end Runs

theorem decided_once_of_exclusive_run : ∃ p : Requests,
    (∃ v, p.tasks[1]? =
      some ((.approve (some "") (some "APPROVE 0123456789ab"), 1000), .ret v)) ∧
    DecidedOnce sampleConfig 0 p := by
  have run : ∃ p, (system sampleConfig).Run (System.initial (State.start 0))
      [.start (.create (some samplePlan) (some "session1"), 0), .resume 0 sampleAnswer,
        .resume 0 sampleAnswer, .start (.approve (some "") (some "APPROVE 0123456789ab"), 1000),
        .resume 1 sampleAnswer, .resume 1 sampleAnswer] p ∧
      (∃ v, p.tasks[1]? =
        some ((.approve (some "") (some "APPROVE 0123456789ab"), 1000), .ret v)) ∧
      Always Exclusive p.state.history := by
    refine ⟨_, .cons trivial (.cons ⟨_, _, _, rfl, trivial⟩ (.cons ⟨_, _, _, rfl, trivial⟩
      (.cons trivial (.cons ⟨_, _, _, rfl, trivial⟩ (.cons ⟨_, _, _, rfl, trivial⟩
      (.nil _)))))), ⟨_, rfl⟩, trivial, rfl, fun t => ?_, trivial, trivial, trivial, trivial,
      trivial, trivial⟩
    rintro ⟨e, he, ho⟩
    have hmem := mem_of_mem_own (List.mem_of_mem_head? he)
    iterate 5
      rcases List.mem_cons.mp hmem with rfl | hmem
      · exact ho
    exact List.not_mem_nil hmem
  obtain ⟨p, run, hv, excl⟩ := run
  exact ⟨p, hv, decided_once_of_exclusive sampleConfig 0 p (ofList_replicate_injective '0' 0) ⟨_, run⟩ excl⟩

/-- An approval and a denial that overlap in their appends both succeed. -/
theorem overlapping_decisions : ¬∀ (cfg : Config) (now : DateTime) (p : Requests),
    Function.Injective cfg.uuid4 → (system cfg).Reachable (State.start now) p →
    DecidedOnce cfg now p := by
  intro claim
  have run : ∃ p, (system sampleConfig).Run (System.initial (State.start 0))
      [.start (.create (some samplePlan) (some "session1"), 0), .resume 0 sampleAnswer,
        .resume 0 sampleAnswer, .start (.approve (some "") (some "APPROVE 0123456789ab"), 1000),
        .start (.deny (some "") none, 1000), .resume 1 sampleAnswer, .resume 2 sampleAnswer,
        .resume 1 sampleAnswer, .resume 2 sampleAnswer] p ∧
      (∃ v, p.tasks[1]? =
        some ((.approve (some "") (some "APPROVE 0123456789ab"), 1000), .ret v)) ∧
      ∃ v, p.tasks[2]? = some ((.deny (some "") none, 1000), .ret v) :=
    ⟨_, .cons trivial (.cons ⟨_, _, _, rfl, trivial⟩ (.cons ⟨_, _, _, rfl, trivial⟩
      (.cons trivial (.cons trivial (.cons ⟨_, _, _, rfl, trivial⟩ (.cons ⟨_, _, _, rfl, trivial⟩
      (.cons ⟨_, _, _, rfl, trivial⟩ (.cons ⟨_, _, _, rfl, trivial⟩ (.nil _))))))))),
      ⟨_, rfl⟩, _, rfl⟩
  obtain ⟨p, run, ⟨v, hv⟩, v', hv'⟩ := run
  have once := claim sampleConfig 0 p (ofList_replicate_injective '0' 0) ⟨_, run⟩
  exact absurd (once.success 1 2 _ _ v v' "" hv hv' rfl rfl) (by decide)

end Ares.Consent
