import Ares.BackupBroker.Invariant

/-! The requests of the backup broker keep its invariant, and a request that has called
`tools.create_backup` leaves one trace of how that ended. -/

namespace Ares.BackupBroker

open Coop Data Audit Backups

/-- A trace of how a call of `tools.create_backup` ended: an acknowledged record, or an entry of the
emergency journal. -/
def Event.closing : Event → Bool
  | .audited _ entry true => entry.eventType = "backup.execution.completed" ||
      entry.eventType = "backup.execution.failed"
  | .emergency _ _ _ => true
  | _ => false

def Event.backupId : Event → Option String
  | .audited _ entry _ => some entry.correlationId
  | .emergency _ _ backupId => some backupId
  | _ => none

/-- A request with these events has not called `tools.create_backup`. -/
def Early (l : List Event) : Prop := ∀ t plan, .invoked t plan ∉ l

/-- A request with these events has called `tools.create_backup(plan)`, and nothing says yet how that
ended. -/
structure Open (plan : BackupPlan) (l : List Event) : Prop where
  only : ∀ t plan', .invoked t plan' ∈ l → plan' = plan
  closings : l.filter Event.closing = []

/-- A request with these events that has called `tools.create_backup` has left one trace of how that
ended, unless it was cancelled while it waited for the ledger. -/
def Settled (l : List Event) : Prop :=
  ∀ t plan, .invoked t plan ∈ l → (∃ t' entry written, .interrupted t' entry written ∈ l) ∨
    ∃ e, l.filter Event.closing = [e] ∧ e.backupId = some plan.backupId

section Lists

variable {l : List Event} {plan : BackupPlan} {e : Event}

theorem Early.settled (h : Early l) : Settled l := fun t plan hmem => absurd hmem (h t plan)

theorem Early.cons (h : Early l) (he : ∀ t plan, e ≠ .invoked t plan) : Early (e :: l) := by
  intro t plan hmem
  rcases List.mem_cons.mp hmem with heq | hmem
  · exact he t plan heq.symm
  · exact h t plan hmem

theorem Open.cons (h : Open plan l) (he : ∀ t plan', e ≠ .invoked t plan')
    (hc : e.closing = false) : Open plan (e :: l) where
  only t plan' hmem := by
    rcases List.mem_cons.mp hmem with heq | hmem
    · exact absurd heq.symm (he t plan')
    · exact h.only t plan' hmem
  closings := by
    rw [List.filter_cons_of_neg (by simp [hc])]
    exact h.closings

theorem Open.close (h : Open plan l) (he : ∀ t plan', e ≠ .invoked t plan')
    (hc : e.closing = true) (hid : e.backupId = some plan.backupId) : Settled (e :: l) := by
  intro t plan' hmem
  rcases List.mem_cons.mp hmem with heq | hmem
  · exact absurd heq.symm (he t plan')
  · refine .inr ⟨e, ?_, ?_⟩
    · rw [List.filter_cons_of_pos hc, h.closings]
    · rw [hid, h.only t plan' hmem]

theorem settled_interrupted {t : Nat} {entry : AuditEntry} {written : Bool} :
    Settled (.interrupted t entry written :: l) :=
  fun _ _ _ => .inl ⟨t, entry, written, List.mem_cons_self⟩

end Lists

abbrev logic (cfg : Config) (j : Nat) : Logic State Res :=
  ⟨Inv cfg, Rely j, Guar j, (system cfg).answers⟩

abbrev At (cfg : Config) := Coop.At (Inv cfg) State.history

/-- The events of the task `j` are settled. -/
def Ends (j : Nat) (s : State) : Prop := Settled (own j s.history)

abbrev Does {α : Type} (cfg : Config) (j : Nat) (p : Task α) (Q : α → State → Prop)
    (E : Error → State → Prop) (s : State) : Prop :=
  p.Spec (logic cfg j) Q E s

section Rules

variable {cfg : Config} {j : Nat} {l : List Event} {s : State} {α : Type} {plan : BackupPlan}
  {E : Error → State → Prop}

theorem At.ends (h : At cfg j l s) (hl : Settled l) : Ends j s := by
  rw [Ends, h.own]
  exact hl

variable {Q : Unit → State → Prop}

theorem does_note {e : Event} (h : At cfg j l s) (ht : e.task = j)
    (he : Causal cfg e s.history) (hn : tokens.kind e = .other)
    (hQ : ∀ s', At cfg j (e :: l) s' → Q () s') : Does cfg j (Proc.modify (State.note e)) Q E s :=
  have inv : Inv cfg (s.note e) := h.inv.note he hn
  ⟨⟨e, ht, rfl⟩, inv, hQ _ (h.step inv ht rfl)⟩

theorem does_quiet {p : Task α} {Q : α → State → Prop} (quiet : p.Quiet) (h : At cfg j l s)
    (hQ : ∀ a s', At cfg j l s' → Q a s') (hE : ∀ e s', At cfg j l s' → E e s') :
    Does cfg j p Q E s :=
  quiet.spec (Kept.refl j) (fun _ _ _ => Kept.trans) h.inv
    (fun a s' inv hr => hQ a s' (h.rely inv hr)) fun e s' inv hr => hE e s' (h.rely inv hr)

theorem does_revalidatePlan {Q : DateTime → State → Prop} (h : At cfg j l s)
    (hQ : ∀ time s', At cfg j l s' → Valid cfg plan time → Q time s')
    (hE : ∀ e s', At cfg j l s' → E e s') :
    Does cfg j (revalidatePlan cfg.lib plan) Q E s := by
  simp only [revalidatePlan, bind_eq, spec_bind, spec_require, spec_ofOption,
    pure_eq, spec_ret]
  refine does_quiet quiet_attempt h (fun now s₁ h₁ => ⟨fun hnow => ?_, fun _ => hE _ _ h₁⟩) hE
  refine does_quiet (quiet_canonicalExisting _ _) h₁ (fun source s₂ h₂ => ?_) hE
  refine does_quiet (quiet_canonicalExisting _ _) h₂ (fun destination s₃ h₃ => ?_) hE
  refine does_quiet (quiet_mountFor _) h₃ (fun sourceMount s₄ h₄ => ?_) hE
  refine does_quiet (quiet_mountFor _) h₄ (fun destinationMount s₅ h₅ => ?_) hE
  refine ⟨fun sourceInfo _ => ⟨fun _ => ?_, fun _ => hE _ _ h₅⟩, fun _ => hE _ _ h₅⟩
  refine ⟨fun destinationInfo _ => ⟨fun _ => ?_, fun _ => hE _ _ h₅⟩, fun _ => hE _ _ h₅⟩
  refine does_quiet quiet_attempt h₅ (fun sourcePhysical s₆ h₆ => ?_) hE
  refine does_quiet quiet_attempt h₆ (fun destinationPhysical s₇ h₇ => ?_) hE
  refine ⟨fun _ => ⟨fun _ => ?_, fun _ => hE _ _ h₇⟩, fun _ => hE _ _ h₇⟩
  refine does_quiet (quiet_rejectSameStorage _ _ _ _) h₇ (fun _ s₈ h₈ => ?_) hE
  refine does_quiet (quiet_validateDestination _ _) h₈ (fun _ s₉ h₉ => ?_) hE
  refine ⟨fun _ => ?_, fun _ => hE _ _ h₉⟩
  refine does_quiet quiet_attempt h₉ (fun taken s₁₀ h₁₀ => ?_) hE
  refine ⟨fun _ => ?_, fun _ => hE _ _ h₁₀⟩
  refine does_quiet quiet_attempt h₁₀ (fun scan s₁₁ h₁₁ => ?_) hE
  refine ⟨fun _ => ?_, fun _ => hE _ _ h₁₁⟩
  refine does_quiet (quiet_availableBytes _) h₁₁ (fun available s₁₂ h₁₂ => ?_) hE
  refine ⟨fun _ => ⟨fun hsha => ?_, fun _ => hE _ _ h₁₂⟩, fun _ => hE _ _ h₁₂⟩
  exact hQ now s₁₂ h₁₂ ⟨of_decide_eq_true hnow, of_decide_eq_true hsha⟩

theorem does_revalidate (h : At cfg j l s)
    (hQ : ∀ time s', At cfg j (.revalidated j plan time :: l) s' → Q () s')
    (hE : ∀ e s', At cfg j l s' → E e s') : Does cfg j (revalidate cfg j plan) Q E s := by
  simp only [revalidate, bind_eq, spec_bind]
  refine does_revalidatePlan h (fun time s' h' hvalid => ?_) hE
  exact does_note h' rfl hvalid rfl (hQ time)

theorem does_append {entry : AuditEntry} (h : At cfg j l s)
    (hQ : ∀ s', At cfg j (.audited j entry true :: l) s' → Q () s')
    (hlost : ∀ s', At cfg j (.audited j entry false :: l) s' → E .audit s')
    (hfailed : ∀ s', At cfg j l s' → E .audit s')
    (hcancelled : ∀ written s', At cfg j (.interrupted j entry written :: l) s' →
      E .cancelled s') : Does cfg j (append j entry) Q E s := by
  simp only [append, bind_eq, spec_bind, spec_perform]
  intro s' inv hr r _
  have h' : At cfg j l s' := h.rely inv hr
  cases r with
  | acked => exact does_note h' rfl trivial rfl hQ
  | lost =>
    rw [spec_bind]
    exact does_note h' rfl trivial rfl hlost
  | failed => exact hfailed s' h'
  | cancelled written =>
    rw [spec_bind]
    exact does_note h' rfl trivial rfl (hcancelled written)

theorem does_append_early {entry : AuditEntry} (hl : Early l)
    (h : At cfg j l s) (hQ : ∀ s', At cfg j (.audited j entry true :: l) s' → Q () s') :
    Does cfg j (append j entry) Q (fun _ s' => Ends j s') s :=
  does_append h hQ (fun _ h' => h'.ends (hl.cons (by simp)).settled) (fun _ h' => h'.ends hl.settled)
    fun _ _ h' => h'.ends (hl.cons (by simp)).settled

theorem does_lock (h : At cfg j l s)
    (hQ : ∀ s', At cfg j l s' → Q () s') (hE : ∀ e s', At cfg j l s' → E e s') :
    Does cfg j lock Q E s := by
  simp only [lock, bind_eq, spec_bind, spec_perform, spec_ofExcept]
  intro s' inv hr r _
  exact ⟨fun _ _ => hQ s' (h.rely inv hr), fun e _ => hE e s' (h.rely inv hr)⟩

theorem does_draw {Q : String → State → Prop} (h : At cfg j l s)
    (hQ : ∀ n s', At cfg j (.drawn j n :: l) s' → Q (cfg.uuid4 n) s') :
    Does cfg j (draw cfg j) Q E s := by
  simp only [draw, bind_eq, spec_bind, spec_reading, spec_modify, pure_eq,
    spec_ret]
  have inv : Inv cfg (s.draw j) := h.inv.draw h.inv.drawn
  exact ⟨⟨.drawn j s.drawn, rfl, rfl⟩, inv, hQ _ _ (h.step (e := .drawn j s.drawn) inv rfl rfl)⟩

theorem does_emergency {event : String} (hl : Open plan l)
    (h : At cfg j l s) (hQ : ∀ s', Ends j s' → Q () s') (hE : ∀ e s', Ends j s' → E e s') :
    Does cfg j (emergency j plan event) Q E s := by
  simp only [emergency, bind_eq, spec_bind, spec_perform, spec_ofExcept]
  refine does_note h rfl trivial rfl fun s₁ h₁ s₂ inv hr r _ => ?_
  have hends : Ends j s₂ := At.ends (h₁.rely inv hr) (hl.close (by simp) rfl rfl)
  exact ⟨fun _ _ => hQ s₂ hends, fun e _ => hE e s₂ hends⟩

theorem does_auditFailure {sessionId : String} {e : Error} (hl : Open plan l) (h : At cfg j l s) :
    Does cfg j (auditFailure j plan sessionId e) (fun _ s' => Ends j s') (fun _ s' => Ends j s')
      s := by
  rw [auditFailure, Does, spec_handle]
  refine does_append h (fun s' h' => h'.ends (hl.close (by simp) rfl rfl)) (fun s' h' => ?_)
    (fun s' h' => ?_) fun written s' h' => h'.ends settled_interrupted
  · exact does_emergency (hl.cons (by simp) rfl) h' (fun _ hs => hs) fun _ _ hs => hs
  · exact does_emergency hl h' (fun _ hs => hs) fun _ _ hs => hs

theorem does_auditCompleted {sessionId : String} {m : BackupManifest} (hl : Open plan l)
    (h : At cfg j l s) :
    Does cfg j (auditCompleted j plan sessionId m)
      (fun _ s' => Ends j s' ∧ .audited j (completedEntry plan sessionId m) true ∈ s'.history)
      (fun _ s' => Ends j s') s := by
  rw [auditCompleted, Does, spec_handle]
  refine does_append h (fun s' h' => ⟨h'.ends (hl.close (by simp) rfl rfl), h'.mem (by simp)⟩)
    (fun s' h' => ?_) (fun s' h' => ?_) fun written s' h' => h'.ends settled_interrupted
  · refine spec_bind.mpr ?_
    exact does_emergency (hl.cons (by simp) rfl) h' (fun _ hs => hs) fun _ _ hs => hs
  · refine spec_bind.mpr ?_
    exact does_emergency hl h' (fun _ hs => hs) fun _ _ hs => hs

end Rules

/-! ### The requests -/

section Requests

variable {cfg : Config} {j : Nat} {s : State} {plan : BackupPlan}

/-- What a request promises when it returns: its events are settled, and a manifest comes with the
acknowledged record of its completion. -/
def Answers (j : Nat) (r : Response) (s : State) : Prop :=
  Ends j s ∧ ∀ m, r = .manifest m →
    ∃ plan sessionId, .audited j (completedEntry plan sessionId m) true ∈ s.history

theorem does_create {g : AuthorizationGrant} {uid : Int}
    (h : At cfg j [.received j (.create (some plan) (some g)) uid] s) :
    Does cfg j (create cfg j plan g) (Answers j) (fun _ s' => Ends j s') s := by
  simp only [create, bind_eq, spec_bind, spec_state, spec_require,
    spec_handle, pure_eq, spec_ret, Proc.throw_eq, spec_raise]
  have early₀ : Early [.received j (.create (some plan) (some g)) uid] := by
    intro t plan' hmem
    simp at hmem
  refine does_lock h (fun s₁ h₁ => ?_) fun _ _ h' => h'.ends early₀.settled
  have inv₂ : Inv cfg (s₁.pop j g.id) := h₁.inv.pop (h₁.inv.grants g.id)
  have h₂ := h₁.step (e := .popped j g.id (s₁.grants g.id)) inv₂ rfl rfl
  have early₂ := early₀.cons (e := .popped j g.id (s₁.grants g.id)) (by simp)
  refine ⟨⟨.popped j g.id (s₁.grants g.id), rfl, rfl⟩, inv₂, fun hmatch => ?_,
    fun _ => At.ends h₂ early₂.settled⟩
  have hstored : s₁.grants g.id = some g := by
    simp only [grantMatches, Bool.and_eq_true, decide_eq_true_eq] at hmatch
    exact hmatch.1.1.1
  rw [hstored] at h₂ hmatch early₂
  refine does_note h₂ rfl ⟨hmatch, uid, h₂.own⟩ rfl fun s₃ h₃ => ?_
  have early₃ := early₂.cons (e := .accepted j plan g s₁.now) (by simp)
  refine does_revalidate h₃ (fun time s₄ h₄ => ?_) fun _ _ h' => h'.ends early₃.settled
  have early₄ := early₃.cons (e := .revalidated j plan time) (by simp)
  refine does_append_early early₄ h₄ fun s₅ h₅ => ?_
  have early₅ := early₄.cons (e := .audited j (executionIntent plan g.sessionId) true) (by simp)
  -- Everything that stands behind the call of the tools stands here.
  refine does_note h₅ rfl ⟨⟨g, uid, s₁.now, time⟩, h₅.own⟩ rfl fun s₆ h₆ => ?_
  have open₆ : Open plan (.invoked j plan ::
      [.audited j (executionIntent plan g.sessionId) true, .revalidated j plan time,
        .accepted j plan g s₁.now, .popped j g.id (some g),
        .received j (.create (some plan) (some g)) uid]) := by
    refine ⟨fun t plan' hmem => ?_, by simp [Event.closing, executionIntent, entryOf]⟩
    rcases List.mem_cons.mp hmem with heq | hmem
    · exact (Event.invoked.inj heq).2
    · exact absurd hmem (early₅ t plan')
  simp only [toolsCreateBackup, bind_eq, spec_bind]
  refine does_revalidatePlan h₆ (fun again s₆' h₆' hvalid => ?_)
    fun e s₇ h₇ => does_auditFailure open₆ h₇
  refine does_note h₆' rfl ⟨hvalid, h₆'.mem (by simp)⟩ rfl fun s₇ h₇ => ?_
  have open₇ := open₆.cons (e := .started j plan again) (by simp) rfl
  refine does_quiet (quiet_copyBackup _ _) h₇ (fun manifest s₈ h₈ => ?_)
    fun e s₈ h₈ => does_auditFailure open₇ h₈
  refine (does_auditCompleted open₇ h₈).mono (fun _ s₉ h₉ => ⟨h₉.1, ?_⟩) fun _ _ h' => h'
  rintro m heq
  exact ⟨plan, g.sessionId, Response.manifest.inj heq ▸ h₉.2⟩

theorem does_authorize {sessionId : String} {request : Request} {uid : Int}
    (h : At cfg j [.received j request uid] s) :
    Does cfg j (authorize cfg j plan sessionId) (Answers j) (fun _ s' => Ends j s') s := by
  simp only [authorize, bind_eq, spec_bind, spec_require, spec_ofOption,
    spec_reading, pure_eq, spec_ret]
  have early₀ : Early [.received j request uid] := by
    intro t plan' hmem
    simp at hmem
  refine does_revalidate h (fun time s₁ h₁ => ?_) fun _ _ h' => h'.ends early₀.settled
  have early₁ := early₀.cons (e := .revalidated j plan time) (by simp)
  refine does_append_early early₁ h₁ fun s₂ h₂ => ?_
  have early₂ := early₁.cons (e := .audited j (authorizationIntent plan sessionId) true) (by simp)
  refine does_quiet quiet_attempt h₂ (fun challenge s₃ h₃ => ?_)
    fun _ _ h' => h'.ends early₂.settled
  refine ⟨fun id _ => ?_, fun _ => h₃.ends early₂.settled⟩
  refine does_note h₃ rfl trivial rfl fun s₄ h₄ => ?_
  have early₄ := early₂.cons (e := .challenged j plan sessionId id) (by simp)
  refine does_quiet quiet_attempt h₄ (fun _ s₅ h₅ => ?_) fun _ _ h' => h'.ends early₄.settled
  refine does_quiet quiet_attempt h₅ (fun decision s₆ h₆ => ?_)
    fun _ _ h' => h'.ends early₄.settled
  refine does_note h₆ rfl trivial rfl fun s₇ h₇ => ?_
  have early₇ := early₄.cons (e := .answered j id decision) (by simp)
  refine ⟨fun happroved => ?_, fun _ => h₇.ends early₇.settled⟩
  obtain rfl := of_decide_eq_true happroved
  refine does_revalidate h₇ (fun time' s₈ h₈ => ?_) fun _ _ h' => h'.ends early₇.settled
  have early₈ := early₇.cons (e := .revalidated j plan time') (by simp)
  refine does_draw h₈ fun n s₉ h₉ => ?_
  have early₉ := early₈.cons (e := .drawn j n) (by simp)
  refine ⟨fun _ => ?_, fun _ => h₉.ends early₉.settled⟩
  refine does_lock h₉ (fun s₁₀ h₁₀ => ?_) fun _ _ h' => h'.ends early₉.settled
  let g := grantFor plan sessionId (cfg.uuid4 n) id s₉.now
  have hcausal : Causal cfg (.granted j g) s₁₀.history := by
    refine ⟨fun g' => h₁₀.not_mem rfl (by simp), plan, ?_, ?_, ⟨time', h₁₀.mem (by simp)⟩, ?_⟩
    · exact h₁₀.mem (by simp [g, grantFor])
    · exact h₁₀.mem (by simp [g, grantFor])
    · exact ⟨n, s₉.now, h₁₀.mem (by simp), rfl⟩
  have inv₁₁ : Inv cfg (s₁₀.grant j g) := h₁₀.inv.grant hcausal
  have h₁₁ := h₁₀.step (e := .granted j g) inv₁₁ rfl rfl
  have early₁₁ := early₉.cons (e := .granted j g) (by simp)
  refine ⟨⟨.granted j g, rfl, rfl⟩, inv₁₁, ?_⟩
  refine does_append_early early₁₁ h₁₁ fun s₁₂ h₁₂ => ⟨h₁₂.ends (early₁₁.cons (by simp)).settled, ?_⟩
  rintro m heq
  cases heq

theorem does_verify {backup : Backup} {manifest : BackupManifest} {request : Request} {uid : Int}
    (h : At cfg j [.received j request uid] s) :
    Does cfg j (verify cfg j backup manifest) (Answers j) (fun _ s' => Ends j s') s := by
  simp only [verify, bind_eq, spec_bind, pure_eq, spec_ret]
  have early₀ : Early [.received j request uid] := by
    intro t plan' hmem
    simp at hmem
  refine does_quiet (quiet_verifyBackup _ _ _) h (fun verification s₁ h₁ => ?_)
    fun _ _ h' => h'.ends early₀.settled
  refine does_append_early early₀ h₁ fun s₂ h₂ => ⟨h₂.ends (early₀.cons (by simp)).settled, ?_⟩
  rintro m heq
  cases heq

theorem does_dispatch {request : Request} {uid : Int} (inv : Inv cfg s)
    (hf : own j s.history = []) :
    Does cfg j (dispatch cfg j request uid) (Answers j) (fun _ s' => Ends j s') s := by
  simp only [dispatch, bind_eq, spec_bind, spec_require]
  refine does_note ⟨inv, hf⟩ rfl hf rfl fun s₁ h₁ => ?_
  have hends : Ends j s₁ := h₁.ends (Early.settled fun t plan' hmem => by simp at hmem)
  refine ⟨fun _ => ?_, fun _ => hends⟩
  cases request with
  | authorize plan sessionId =>
    refine spec_bind.mpr (spec_ofOption.mpr ⟨fun plan _ => ?_, fun _ => hends⟩)
    refine spec_bind.mpr (spec_ofOption.mpr ⟨fun sessionId _ => ?_, fun _ => hends⟩)
    exact spec_bind.mpr (spec_require.mpr ⟨fun _ => does_authorize h₁, fun _ => hends⟩)
  | create plan grant =>
    refine spec_bind.mpr (spec_ofOption.mpr ⟨?_, fun _ => hends⟩)
    rintro plan rfl
    refine spec_bind.mpr (spec_ofOption.mpr ⟨?_, fun _ => hends⟩)
    rintro g rfl
    exact does_create h₁
  | verify backup manifest =>
    refine spec_bind.mpr (spec_ofOption.mpr ⟨fun backup _ => ?_, fun _ => hends⟩)
    refine spec_bind.mpr (spec_ofOption.mpr ⟨fun manifest _ => ?_, fun _ => hends⟩)
    exact does_verify h₁
  | rejected => exact hends

end Requests

def contract (cfg : Config) : Contract (system cfg) where
  inv := Inv cfg
  rely := Rely
  guar := Guar
  fresh j s := own j s.history = []
  post j _ := Answers j
  postE j _ _ := Ends j
  refl := Kept.refl
  trans _ _ _ _ := Kept.trans
  guar_rely _ _ _ _ := Noted.kept
  fresh_rely _ _ _ hf hr := hr.2.trans hf
  post_rely j _ _ _ _ hp hr := by
    refine ⟨?_, fun m hm => ?_⟩
    · rw [Ends, hr.2]
      exact hp.1
    · obtain ⟨plan, sessionId, hmem⟩ := hp.2 m hm
      exact ⟨plan, sessionId, hr.1.subset hmem⟩
  postE_rely j _ _ _ _ hp hr := by
    rw [Ends, hr.2]
    exact hp
  world _ _ inv _ := ⟨⟨inv.causal, inv.grants, inv.drawn⟩, fun k => Kept.refl k _⟩
  handler _ _ _ inv hf _ := does_dispatch inv hf

abbrev Requests := Pool State Res Error Response (Request × Int)

theorem holds_of_reachable {cfg : Config} {now : DateTime} {p : Requests}
    (reach : (system cfg).Reachable (State.start now) p) : (contract cfg).Holds p := by
  have inv : Inv cfg (State.start now) := ⟨trivial, fun _ => rfl, by simp [State.start]⟩
  exact (contract cfg).sound inv (fun _ => rfl) reach

end Ares.BackupBroker
