import Ares.Broker.Dispatch
import Ares.Coop.Tokens

/-! What every step of the storage broker leaves in its history, under every interleaving of its
requests and every answer of its environment. -/

namespace Ares.Broker

open Coop Audit Storage

def tokens : Tokens Event StorageAuthorizationGrant String where
  id g := g.id
  grant := .granted
  pop := .popped
  draw := .drawn
  kind
    | .granted _ g => .granted g
    | .popped _ id stored => .popped id stored
    | .drawn _ n => .drawn n
    | _ => .other
  kind_grant _ _ := rfl
  kind_pop _ _ _ := rfl
  kind_draw _ _ := rfl
  event e := by cases e <;> simp
  drawer h := (Event.drawn.inj h).1

def Closes (entry : AuditEntry) : Prop :=
  entry.eventType = "storage.transaction.completed" ∨ entry.eventType = "storage.transaction.failed"

instance (entry : AuditEntry) : Decidable (Closes entry) := inferInstanceAs (Decidable (_ ∨ _))

def Event.closing : Event → Bool
  | .audited _ entry acked => acked && Closes entry
  | .emergency _ _ _ => true
  | _ => false

/-- The operation that an event closes. -/
def Event.operationId : Event → Option String
  | .audited _ entry _ => some entry.correlationId
  | .emergency _ _ operationId => some operationId
  | _ => none

def closings (t : Nat) (h : List Event) : List Event := (own t h).filter Event.closing

def startedEntry (plan : StorageOperationPlan) : AuditEntry :=
  stageEntry plan writeStarted [("operation", .str plan.operation.value),
    ("target_fingerprint", .str plan.targetDisk.fingerprintSha256)]

/-- The consent that stands behind a grant. -/
structure Consented (cfg : Config) (t : Nat) (plan : StorageOperationPlan)
    (g : StorageAuthorizationGrant) (h : List Event) : Prop where
  request : ∃ uid, .received t (.authorize (some plan)) uid ∈ h
  intent : .audited t (authorizationIntent plan) true ∈ h
  challenge : .challenged t plan g.challengeId ∈ h
  answer : ∃ uid, .answered t g.challengeId (some "approved") (some uid) ∈ h
  body : ∃ n uid now, .drawn t n ∈ h ∧ g = grantFor plan (cfg.uuid4 n) g.challengeId uid now

/-- What stands behind a call of `tools.execute`. -/
structure Executing (t : Nat) (plan : StorageOperationPlan) (g : StorageAuthorizationGrant)
    (h : List Event) : Prop where
  accepted : ∃ time, .accepted t plan g time ∈ h
  intent : .audited t (transactionIntent plan g) true ∈ h
  invoked : .invoked t plan ∈ h

/-- What stands behind a run of the mutating command. -/
structure Writing (cfg : Config) (t : Nat) (plan : StorageOperationPlan) (h : List Event) :
    Prop where
  executing : ∃ g, Executing t plan g h
  started : .audited t (startedEntry plan) true ∈ h
  gate : ∃ dev, .gated t dev ∈ h ∧ (cfg.toolsGate.evaluate dev plan.targetDisk).allowed = true
  identity : ∃ fresh dev, .identified t fresh dev ∈ h ∧
    cfg.identity.revalidate cfg.lib dev plan.targetDisk = .ok fresh

def Causal (cfg : Config) : Event → List Event → Prop
  | .received t _ _, past => own t past = []
  | .drawn _ n, past => ∀ t' n', .drawn t' n' ∈ past → n' < n
  | .granted t g, past => (∀ g', .granted t g' ∉ past) ∧ ∃ plan, Consented cfg t plan g past
  | .popped _ id stored, past => stored = tokens.table past id
  | .accepted t plan g time, past => grantMatches plan g (some g) time = true ∧
      ∃ uid, own t past = [.popped t g.id (some g),
        .received t (.execute (some plan) (some g)) uid]
  | .invoked t plan, past => (∀ plan', .invoked t plan' ∉ past) ∧ ∃ g time,
      .accepted t plan g time ∈ past ∧ .audited t (transactionIntent plan g) true ∈ past
  | .wrote t plan path _, past => path = plan.targetDisk.canonicalPath ∧ Writing cfg t plan past ∧
      closings t past = []
  | _, _ => True

abbrev Inv (cfg : Config) (s : State) : Prop :=
  tokens.Tracks (Causal cfg) s.history s.grants s.drawn

abbrev Rely := Kept State.history

abbrev Guar := Noted State.history

def Event.Benign : Event → Prop
  | .audited t entry acked => (Event.audited t entry acked).closing = false
  | .interrupted _ _ _ | .challenged _ _ _ | .answered _ _ _ _ | .gated _ _ | .identified _ _ _
  | .observerLost _ => True
  | _ => False

/-- The events of a request that has not yet made a grant or called `tools.execute`. -/
def Event.Early : Event → Prop
  | .audited t entry acked => (Event.audited t entry acked).closing = false
  | .wrote _ _ _ _ | .invoked _ _ | .granted _ _ | .emergency _ _ _ => False
  | _ => True

theorem tokens_oneUse (cfg : Config) : tokens.OneUse cfg.uuid4 (Causal cfg) where
  popped hc := hc
  drawn hc := hc
  granted := by
    rintro t g past ⟨hfirst, plan, hconsent⟩
    obtain ⟨n, uid, now, hn, hg⟩ := hconsent.body
    exact ⟨hfirst, n, hn, congrArg (·.id) hg⟩

/-! ### Quiet tools -/

section Quiet

variable (cfg : Config) (plan : StorageOperationPlan)

theorem quiet_attemptTool (c : Call) (timedOut failed : String) :
    (attemptTool c timedOut failed).Quiet := by
  refine Proc.Quiet.handle quiet_attempt fun e => ?_
  cases e <;> exact quiet_raise

theorem quiet_ofIdentity {α : Type} (r : Except IdentityError α) : (ofIdentity r).Quiet := by
  rcases r with (code | _) | a <;> trivial

theorem quiet_identify (target : String) : (identify cfg target).Quiet :=
  Proc.Quiet.bind quiet_attempt fun _ => Proc.Quiet.bind quiet_reading fun _ =>
    Proc.Quiet.bind quiet_attempt fun _ => quiet_ofIdentity _

theorem quiet_inspect (target : String) : (inspect cfg target).Quiet :=
  Proc.Quiet.bind (quiet_identify cfg target) fun _ => Proc.Quiet.bind quiet_attempt fun _ =>
    quiet_ret

theorem quiet_rereadKernel (d : StorageDeviceIdentity) : (rereadKernel d).Quiet := by
  refine Proc.Quiet.bind (quiet_attemptTool _ _ _) fun r => ?_
  cases r with
  | none => exact quiet_raise
  | some code => exact Proc.Quiet.bind quiet_require fun _ => quiet_ret

theorem quiet_rereadDevice (d : StorageDeviceIdentity) : (rereadDevice d).Quiet := by
  rw [rereadDevice]
  cases d.deviceKind with
  | loop | block => exact Proc.Quiet.bind (quiet_rereadKernel d) fun _ => quiet_ret
  | regularFile => exact quiet_ret

theorem quiet_verifyTable : (verifyTable cfg plan).Quiet :=
  Proc.Quiet.bind (quiet_inspect cfg _) fun _ => Proc.Quiet.bind quiet_require fun _ =>
    Proc.Quiet.bind quiet_require fun _ => Proc.Quiet.bind quiet_attempt fun _ =>
      Proc.Quiet.bind quiet_require fun _ => quiet_ret

theorem quiet_validateCheckpoint : (validateCheckpoint plan).Quiet :=
  Proc.Quiet.bind quiet_ofOption fun _ => Proc.Quiet.bind quiet_require fun _ =>
    Proc.Quiet.bind quiet_attempt fun _ => Proc.Quiet.bind quiet_attempt fun _ =>
      Proc.Quiet.bind quiet_ofOption fun _ => quiet_require

theorem quiet_validatePreflightPlan (required : Bool) :
    (validatePreflightPlan cfg plan required).Quiet := by
  refine Proc.Quiet.bind quiet_state fun _ => Proc.Quiet.bind quiet_require fun _ =>
    Proc.Quiet.bind quiet_require fun _ => Proc.Quiet.bind (quiet_inspect cfg _) fun _ =>
      Proc.Quiet.bind quiet_require fun _ => Proc.Quiet.bind quiet_require fun _ => ?_
  cases required
  · exact quiet_ret
  · exact Proc.Quiet.bind quiet_require fun _ => quiet_validateCheckpoint plan

theorem quiet_validatePostwritePlan : (validatePostwritePlan cfg plan).Quiet :=
  Proc.Quiet.bind quiet_state fun _ => Proc.Quiet.bind quiet_require fun _ =>
    Proc.Quiet.bind quiet_require fun _ => Proc.Quiet.bind quiet_require fun _ =>
      Proc.Quiet.bind (quiet_identify cfg _) fun _ => Proc.Quiet.bind quiet_require fun _ =>
        quiet_validateCheckpoint plan

end Quiet

/-! ### Assertions about the own events of a request -/

def Untouched (l : List Event) : Prop := ∀ t plan path script, .wrote t plan path script ∉ l

/-- The operation of `plan` is not closed, and no other plan is written. -/
def Opened (plan : StorageOperationPlan) (l : List Event) : Prop :=
  l.filter Event.closing = [] ∧ ∀ t plan' path script, .wrote t plan' path script ∈ l → plan' = plan

/-- The request was cancelled while it waited for the ledger to append the closing record. -/
def Cut (j : Nat) (h : List Event) : Prop :=
  ∃ entry written, Closes entry ∧ .interrupted j entry written ∈ h

/-- A request that ran the command has closed its operation once. -/
def Settled (j : Nat) (s : State) : Prop := Cut j s.history ∨ ∀ plan path script,
  .wrote j plan path script ∈ s.history →
    ∃ e, closings j s.history = [e] ∧ e.operationId = some plan.operationId

abbrev Steady (j : Nat) (P : State → Prop) : Prop := Stable State.history j Event.Benign P

section Assertions

variable {j : Nat} {plan : StorageOperationPlan} {g : StorageAuthorizationGrant} {e : Event}
  {l l' : List Event} {s s' : State}

theorem Event.Benign.early (he : e.Benign) : e.Early := by
  cases e <;> first | exact he | trivial

theorem Event.Early.closing_eq (he : e.Early) : e.closing = false := by
  cases e <;> first | exact he | rfl | exact he.elim

theorem opened_of_early (h : ∀ e ∈ l, e.Early) : Opened plan l := by
  refine ⟨List.filter_eq_nil_iff.mpr fun e he => ?_, fun t plan' path script hmem => ?_⟩
  · simp [(h e he).closing_eq]
  · exact (h _ hmem).elim

theorem untouched_of_early (h : ∀ e ∈ l, e.Early) : Untouched l :=
  fun _ _ _ _ hmem => (h _ hmem).elim

theorem Opened.cons (h : Opened plan l) (hc : e.closing = false)
    (hw : ∀ t plan' path script, e = .wrote t plan' path script → plan' = plan) :
    Opened plan (e :: l) := by
  refine ⟨by simp [hc, h.1], fun t plan' path script hmem => ?_⟩
  rcases List.mem_cons.mp hmem with heq | hmem
  · exact hw t plan' path script heq.symm
  · exact h.2 t plan' path script hmem

theorem settled_of_untouched (h : Untouched (own j s.history)) : Settled j s :=
  .inr fun _ _ _ hmem => absurd (mem_own hmem) (h _ _ _ _)

theorem Opened.settled (h : Opened plan (own j s.history)) (he : e.task = j)
    (hc : e.closing = true) (hop : e.operationId = some plan.operationId)
    (hs : s'.history = e :: s.history) : Settled j s' := by
  refine .inr fun plan' path script hmem => ?_
  have hown : own j s'.history = e :: own j s.history := by rw [hs, own_cons_self _ he]
  refine ⟨e, by rw [closings, hown, List.filter_cons_of_pos hc, h.1], ?_⟩
  have hmem' : Event.wrote j plan' path script ∈ own j s'.history := mem_own hmem
  rw [hown] at hmem'
  rcases List.mem_cons.mp hmem' with heq | hmem'
  · exact absurd hc (by simp [← heq, Event.closing])
  · rw [h.2 _ _ _ _ hmem']
    exact hop

theorem Settled.rely (h : Settled j s) (hr : Rely j s s') : Settled j s' := by
  rcases h with ⟨entry, written, hcloses, hmem⟩ | h
  · exact .inl ⟨entry, written, hcloses, hr.1.subset hmem⟩
  refine .inr fun plan path script hmem => ?_
  have hmem' : Event.wrote j plan path script ∈ own j s'.history := mem_own hmem
  rw [hr.2] at hmem'
  obtain ⟨e, hclose, hop⟩ := h plan path script (mem_of_mem_own hmem')
  exact ⟨e, by rw [closings, hr.2]; exact hclose, hop⟩

theorem steady_early : Steady j fun s => ∀ e ∈ own j s.history, e.Early :=
  Stable.of_own (P := fun l : List Event => ∀ e ∈ l, e.Early) fun e l h hb e' he' => by
    rcases List.mem_cons.mp he' with rfl | he'
    · exact hb.early
    · exact h e' he'

theorem steady_untouched : Steady j fun s => Untouched (own j s.history) :=
  Stable.of_own fun e l h hb t plan path script hmem => by
    rcases List.mem_cons.mp hmem with rfl | hmem
    · exact hb
    · exact h t plan path script hmem

theorem steady_opened : Steady j fun s => Opened plan (own j s.history) :=
  Stable.of_own fun e l h hb => h.cons hb.early.closing_eq fun t plan' path script heq => by
    subst heq
    exact hb.elim

theorem steady_mem : Steady j fun s => e ∈ s.history :=
  Stable.of_suffix (P := fun l => e ∈ l) fun _ _ h hs => hs.subset h

theorem Executing.suffix (h : Executing j plan g l) (hs : l <:+ l') : Executing j plan g l' where
  accepted := h.accepted.imp fun _ hmem => hs.subset hmem
  intent := hs.subset h.intent
  invoked := hs.subset h.invoked

theorem steady_executing : Steady j fun s => Executing j plan g s.history :=
  Stable.of_suffix fun _ _ h hs => h.suffix hs

end Assertions

/-! ### Rules for the parts of a request -/

abbrev logic (cfg : Config) (j : Nat) : Logic State Res :=
  ⟨Inv cfg, Rely j, Guar j, (system cfg).answers⟩

section Rules

variable {cfg : Config} {j : Nat} {s : State} {P : State → Prop} {α : Type}
  {E : Error → State → Prop}

theorem spec_quiet {p : Task α} {Q : α → State → Prop} (quiet : p.Quiet) (inv : Inv cfg s)
    (hP : Steady j P) (h : P s) (hQ : ∀ a s', Inv cfg s' → P s' → Q a s')
    (hE : ∀ e s', Inv cfg s' → P s' → E e s') : p.Spec (logic cfg j) Q E s :=
  quiet.spec (Kept.refl j) (fun _ _ _ => Kept.trans) inv
    (fun a s' inv' rely => hQ a s' inv' (hP.rely h rely))
    fun e s' inv' rely => hE e s' inv' (hP.rely h rely)

variable {Q : Unit → State → Prop}

theorem spec_thread (inv : Inv cfg s) (hP : Steady j P) (h : P s)
    (hQ : ∀ s', Inv cfg s' → P s' → Q () s') (hE : ∀ e s', Inv cfg s' → P s' → E e s') :
    thread.Spec (logic cfg j) Q E s :=
  spec_quiet quiet_attempt inv hP h (fun _ => hQ) hE

theorem spec_lock (inv : Inv cfg s)
    (hQ : ∀ s', Inv cfg s' → Rely j s s' → Q () s') (hE : ∀ e s', Rely j s s' → E e s') :
    lock.Spec (logic cfg j) Q E s :=
  quiet_attempt.spec (Kept.refl j) (fun _ _ _ => Kept.trans) inv (fun _ => hQ)
    fun e s' _ => hE e s'

theorem spec_append {entry : AuditEntry}
    (hb : ∀ b, (Event.audited j entry b).Benign) (hP : Steady j P) (h : P s)
    (hQ : ∀ s', Inv cfg s' → P s' → .audited j entry true ∈ s'.history → Q () s')
    (hE : ∀ e s', Inv cfg s' → P s' → E e s') :
    (append j entry).Spec (logic cfg j) Q E s := by
  simp only [append, bind_eq, spec_bind, spec_perform]
  intro s' inv rely r _
  have hs' : P s' := hP.rely h rely
  cases r with
  | acked =>
    have inv' : Inv cfg (s'.note (.audited j entry true)) := inv.note trivial rfl
    exact ⟨⟨_, rfl, rfl⟩, inv', hQ _ inv' (hP.note hs' rfl (hb true) rfl) List.mem_cons_self⟩
  | lost =>
    have inv' : Inv cfg (s'.note (.audited j entry false)) := inv.note trivial rfl
    exact ⟨⟨_, rfl, rfl⟩, inv', hE _ _ inv' (hP.note hs' rfl (hb false) rfl)⟩
  | failed => exact hE _ s' inv hs'
  | cancelled written =>
    have inv' : Inv cfg (s'.note (.interrupted j entry written)) := inv.note trivial rfl
    exact ⟨⟨_, rfl, rfl⟩, inv',
      hE _ _ inv' (hP.note (e := .interrupted j entry written) hs' rfl trivial rfl)⟩

theorem spec_revalidate {expected : StorageDeviceIdentity}
    {Q : StorageDeviceIdentity → State → Prop} (inv : Inv cfg s) (hP : Steady j P) (h : P s)
    (hQ : ∀ fresh s', Inv cfg s' → P s' → (∃ dev, .identified j fresh dev ∈ s'.history ∧
      cfg.identity.revalidate cfg.lib dev expected = .ok fresh) → Q fresh s')
    (hE : ∀ e s', Inv cfg s' → P s' → E e s') :
    (revalidate cfg j expected).Spec (logic cfg j) Q E s := by
  simp only [revalidate, bind_eq, spec_bind]
  refine spec_thread inv hP h (fun s₁ inv₁ h₁ => ?_) hE
  simp only [spec_state]
  cases hfresh : cfg.identity.revalidate cfg.lib s₁.devices expected with
  | ok fresh =>
    simp only [spec_bind, spec_modify]
    have inv₂ : Inv cfg (s₁.note (.identified j fresh s₁.devices)) := inv₁.note trivial rfl
    refine ⟨⟨_, rfl, rfl⟩, inv₂, ?_⟩
    have h₂ : P (s₁.note (.identified j fresh s₁.devices)) :=
      hP.note (e := .identified j fresh s₁.devices) h₁ rfl trivial rfl
    exact spec_thread inv₂ (hP.and steady_mem) ⟨h₂, List.mem_cons_self⟩
      (fun s₃ inv₃ h₃ => hQ fresh s₃ inv₃ h₃.1 ⟨_, h₃.2, hfresh⟩)
      fun e s₃ inv₃ h₃ => hE e s₃ inv₃ h₃.1
  | error e =>
    simp only [spec_bind]
    refine spec_thread inv₁ hP h₁ (fun s₃ inv₃ h₃ => ?_) hE
    cases e <;> exact hE _ s₃ inv₃ h₃

variable {plan : StorageOperationPlan}

theorem spec_stage {name : String} {payload : Data.Fields}
    (hb : ∀ b, (Event.audited j (stageEntry plan name payload) b).Benign)
    (inv : Inv cfg s) (hP : Steady j P) (h : P s)
    (hQ : ∀ s', Inv cfg s' → P s' → .audited j (stageEntry plan name payload) true ∈ s'.history →
      Q () s') (hE : ∀ e s', Inv cfg s' → P s' → E e s') :
    (stage j plan name payload).Spec (logic cfg j) Q E s := by
  simp only [stage, bind_eq, spec_bind, spec_reading]
  have record : ∀ s', P s' → (append j (stageEntry plan name payload)).Spec (logic cfg j) Q E s' :=
    fun s' h' => spec_append hb hP h' hQ hE
  split
  · exact record s h
  · rw [spec_bind, spec_handle]
    refine spec_quiet quiet_attempt inv hP h (fun _ s' _ h' => record s' h') ?_
    intro e s' inv' h'
    cases e with
    | os | timeout | runtime =>
      exact ⟨⟨_, rfl, rfl⟩, inv'.note (e := Event.observerLost j) trivial rfl,
        record _ (hP.note (e := .observerLost j) h' rfl trivial rfl)⟩
    | permission | tool | audit | value | cancelled => exact hE _ s' inv' h'

theorem benign_stage {name : String} {payload : Data.Fields}
    (hc : name ≠ "storage.transaction.completed") (hf : name ≠ "storage.transaction.failed")
    (b : Bool) : (Event.audited j (stageEntry plan name payload) b).Benign := by
  simp [Event.Benign, Event.closing, Closes, stageEntry, entryOf, hc, hf]

theorem spec_applyOperation (inv : Inv cfg s)
    (hw : Writing cfg j plan s.history) (ho : Opened plan (own j s.history)) :
    (applyOperation j plan).Spec (logic cfg j)
      (fun _ s' => Inv cfg s' ∧ Opened plan (own j s'.history))
      (fun _ s' => Opened plan (own j s'.history)) s := by
  have run : (writeTable j plan).Spec (logic cfg j)
      (fun _ s' => Inv cfg s' ∧ Opened plan (own j s'.history))
      (fun _ s' => Opened plan (own j s'.history)) s := by
    simp only [writeTable, bind_eq, spec_bind, spec_ofExcept, spec_modify]
    refine ⟨fun script _ => ?_, fun _ _ => ho⟩
    let e := Event.wrote j plan plan.targetDisk.canonicalPath script
    have inv₁ : Inv cfg (s.note e) := inv.note ⟨rfl, hw, ho.1⟩ rfl
    have ho₁ : Opened plan (own j (s.note e).history) := by
      rw [State.note_history, own_cons_self (t := j) s.history rfl]
      refine ho.cons rfl fun t plan' path script' heq => ?_
      exact (Event.wrote.inj heq).2.1.symm
    exact ⟨⟨e, rfl, rfl⟩, inv₁, spec_quiet (quiet_attemptTool _ _ _) inv₁ steady_opened ho₁
      (fun _ _ inv' h => ⟨inv', h⟩) fun _ _ _ h => h⟩
  rw [applyOperation]
  cases plan.operation with
  | create | delete => exact run
  | resize | inspect | move => exact ho

theorem spec_toolsExecute {g : StorageAuthorizationGrant}
    (inv : Inv cfg s) (hx : Executing j plan g s.history)
    (ho : Opened plan (own j s.history)) :
    (toolsExecute cfg j plan (stage j plan)).Spec (logic cfg j)
      (fun _ s => Opened plan (own j s.history)) (fun _ s => Opened plan (own j s.history)) s := by
  have stop : ∀ (e : Error) s', Inv cfg s' → Opened plan (own j s'.history) →
      Opened plan (own j s'.history) := fun _ _ _ h => h
  simp only [toolsExecute, bind_eq, spec_bind, spec_state, spec_require,
    spec_modify]
  refine ⟨fun hgate => ?_, fun _ => ho⟩
  let e := Event.gated j s.devices
  have inv₁ : Inv cfg (s.note e) := inv.note trivial rfl
  have ho₁ : Opened plan (own j (s.note e).history) := steady_opened.note (e := e) ho rfl trivial rfl
  have hx₁ : Executing j plan g (s.note e).history := hx.suffix (List.suffix_cons _ _)
  refine ⟨⟨e, rfl, rfl⟩, inv₁, ?_⟩
  let P₁ : State → Prop := fun s' =>
    (Opened plan (own j s'.history) ∧ Executing j plan g s'.history) ∧ e ∈ s'.history
  have hP₁ : Steady j P₁ := (steady_opened.and steady_executing).and steady_mem
  refine spec_revalidate inv₁ hP₁ ⟨⟨ho₁, hx₁⟩, List.mem_cons_self⟩ (fun fresh s₂ inv₂ h₂ hfresh => ?_)
    fun err s₂ inv₂ h₂ => h₂.1.1
  obtain ⟨dev, hmem, hfresh⟩ := hfresh
  let P₂ : State → Prop := fun s' => P₁ s' ∧ .identified j fresh dev ∈ s'.history
  have hP₂ : Steady j P₂ := hP₁.and steady_mem
  refine spec_quiet (quiet_inspect cfg _) inv₂ hP₂ ⟨h₂, hmem⟩ (fun before s₃ inv₃ h₃ => ?_)
    fun err s₃ inv₃ h₃ => h₃.1.1.1
  refine ⟨fun _ => ?_, fun _ => h₃.1.1.1⟩
  refine spec_stage (benign_stage (by decide) (by decide)) inv₃ hP₂ h₃ (fun s₄ inv₄ h₄ hstart => ?_)
    fun err s₄ inv₄ h₄ => h₄.1.1.1
  -- everything that must stand behind the command stands here
  have hw : Writing cfg j plan s₄.history :=
    ⟨⟨g, h₄.1.1.2⟩, hstart, ⟨s.devices, h₄.1.2, hgate⟩, ⟨fresh, dev, h₄.2, hfresh⟩⟩
  refine (spec_applyOperation inv₄ hw h₄.1.1.1).mono (fun code s₅ h₅ => ?_) fun _ _ h => h
  obtain ⟨inv₅, ho₅⟩ := h₅
  refine ⟨fun _ => ?_, fun _ => ho₅⟩
  refine spec_stage (benign_stage (by decide) (by decide)) inv₅ steady_opened ho₅
    (fun s₆ inv₆ ho₆ _ => ?_) fun err s₆ inv₆ ho₆ => ho₆
  refine spec_quiet (quiet_rereadDevice _) inv₆ steady_opened ho₆ (fun _ s₇ inv₇ ho₇ => ?_) stop
  exact spec_quiet (quiet_verifyTable cfg plan) inv₇ steady_opened ho₇ (fun _ _ _ h => h) stop

theorem spec_emergency {event : String}
    (inv : Inv cfg s) (ho : Opened plan (own j s.history)) (hQ : ∀ s', Settled j s' → Q () s')
    (hE : ∀ e s', Settled j s' → E e s') : (emergency j plan event).Spec (logic cfg j) Q E s := by
  simp only [emergency, bind_eq, spec_bind, spec_modify]
  let e := Event.emergency j event plan.operationId
  have hsettled : Settled j (s.note e) := ho.settled (e := e) rfl rfl rfl rfl
  have inv' : Inv cfg (s.note e) := inv.note trivial rfl
  refine ⟨⟨e, rfl, rfl⟩, inv', ?_⟩
  exact quiet_attempt.spec (Kept.refl j) (fun _ _ _ => Kept.trans) inv'
    (fun _ s' _ rely => hQ s' (hsettled.rely rely)) fun e s' _ rely => hE e s' (hsettled.rely rely)

theorem spec_close {entry : AuditEntry} {after : Task Unit}
    (hc : Closes entry) (hop : entry.correlationId = plan.operationId)
    (ho : Opened plan (own j s.history)) (hE : ∀ e s', Settled j s' → E e s')
    (hafter : ∀ s', Inv cfg s' → Opened plan (own j s'.history) →
      after.Spec (logic cfg j) (fun _ s' => Settled j s') E s') :
    (Proc.handle (append j entry) fun
      | .audit => after
      | e => throw e).Spec (logic cfg j) (fun _ s' => Settled j s') E s := by
  simp only [append, bind_eq, spec_handle, spec_bind, spec_perform]
  intro s' inv rely r _
  have ho' : Opened plan (own j s'.history) := steady_opened.rely ho rely
  cases r with
  | acked =>
    refine ⟨⟨_, rfl, rfl⟩, inv.note trivial rfl, ?_⟩
    exact ho'.settled (e := .audited j entry true) rfl (decide_eq_true hc) (congrArg some hop) rfl
  | lost =>
    have inv' : Inv cfg (s'.note (.audited j entry false)) := inv.note trivial rfl
    refine ⟨⟨_, rfl, rfl⟩, inv', hafter _ inv' ?_⟩
    exact steady_opened.note (e := .audited j entry false) ho' rfl rfl rfl
  | failed => exact hafter s' inv ho'
  | cancelled written =>
    exact ⟨⟨_, rfl, rfl⟩, inv.note trivial rfl, hE _ _ (.inl ⟨entry, written, hc, List.mem_cons_self⟩)⟩

theorem spec_auditFailure {err : Error}
    (ho : Opened plan (own j s.history)) (hE : ∀ e s', Settled j s' → E e s') :
    (auditFailure j plan err).Spec (logic cfg j) (fun _ s' => Settled j s') E s :=
  spec_close (.inr rfl) rfl ho hE fun _ inv ho' => spec_emergency inv ho' (fun _ h => h) hE

theorem spec_auditCompleted {outcome : StorageOperationOutcome}
    (ho : Opened plan (own j s.history)) (hE : ∀ e s', Settled j s' → E e s') :
    (auditCompleted j plan outcome).Spec (logic cfg j) (fun _ s' => Settled j s') E s := by
  simp only [auditCompleted, bind_eq, spec_bind, spec_reading]
  refine spec_close (.inl rfl) rfl ho hE fun s' inv ho' => ?_
  rw [spec_bind]
  exact spec_emergency inv ho' (fun s'' h => hE _ s'' h) hE

end Rules

/-! ### The requests -/

section Requests

variable {cfg : Config} {j : Nat} {s : State} {plan : StorageOperationPlan}

theorem not_mem_of_early {e : Event} (h : ∀ e ∈ own j s.history, e.Early) (ht : e.task = j)
    (he : ¬e.Early) : e ∉ s.history := by
  subst ht
  exact fun hmem => he (h e (mem_own hmem))

theorem settled_of_early (h : ∀ e ∈ own j s.history, e.Early) : Settled j s :=
  settled_of_untouched (untouched_of_early h)

theorem spec_execute {g : StorageAuthorizationGrant} {uid : Int} (inv : Inv cfg s)
    (hown : own j s.history = [.received j (.execute (some plan) (some g)) uid]) :
    (execute cfg j plan g).Spec (logic cfg j) (fun _ s' => Settled j s') (fun _ s' => Settled j s')
      s := by
  simp only [execute, bind_eq, spec_bind, spec_state, spec_modify,
    spec_require, spec_handle]
  have early : ∀ e ∈ own j s.history, e.Early := by
    rw [hown]
    simp [Event.Early]
  refine spec_lock inv (fun s₁ inv₁ rely => ?_) fun _ s₁ rely =>
    settled_of_early (steady_early.rely early rely)
  have hown₁ : own j s₁.history = [.received j (.execute (some plan) (some g)) uid] := by
    rw [rely.2, hown]
  have inv₂ : Inv cfg (s₁.pop j g.id) := inv₁.pop (inv₁.grants g.id)
  have hown₂ : own j (s₁.pop j g.id).history = [.popped j g.id (s₁.grants g.id),
      .received j (.execute (some plan) (some g)) uid] := by
    rw [← hown₁]
    exact own_cons_self _ rfl
  have early₂ : ∀ e ∈ own j (s₁.pop j g.id).history, e.Early := by
    rw [hown₂]
    simp [Event.Early]
  refine ⟨⟨_, rfl, rfl⟩, inv₂, fun hmatch => ?_, fun _ => settled_of_early early₂⟩
  have hstored : s₁.grants g.id = some g := by
    simp only [grantMatches, Bool.and_eq_true, decide_eq_true_eq] at hmatch
    exact hmatch.1.1.1.1.1.1
  rw [hstored] at hmatch hown₂
  let accepted := Event.accepted j plan g s₁.now
  have inv₃ : Inv cfg ((s₁.pop j g.id).note accepted) := inv₂.note ⟨hmatch, uid, hown₂⟩ rfl
  have early₃ : ∀ e ∈ own j ((s₁.pop j g.id).note accepted).history, e.Early := by
    rw [State.note_history, own_cons_self (t := j) _ rfl]
    simpa [accepted, Event.Early] using early₂
  refine ⟨⟨accepted, rfl, rfl⟩, inv₃, ?_⟩
  let P : State → Prop := fun s' => (∀ e ∈ own j s'.history, e.Early) ∧ accepted ∈ s'.history
  have hP : Steady j P := steady_early.and steady_mem
  refine spec_quiet (quiet_validatePreflightPlan cfg plan true) inv₃ hP
    ⟨early₃, List.mem_cons_self⟩ (fun _ s₄ inv₄ h₄ => ?_) fun _ s₄ _ h₄ => settled_of_early h₄.1
  refine spec_append (by intro b; cases b <;> rfl) hP h₄ (fun s₅ inv₅ h₅ hintent => ?_)
    fun _ s₅ _ h₅ => settled_of_early h₅.1
  let invoked := Event.invoked j plan
  have inv₆ : Inv cfg (s₅.note invoked) :=
    inv₅.note ⟨fun plan' => not_mem_of_early h₅.1 rfl id, g, _, h₅.2, hintent⟩ rfl
  have ho₆ : Opened plan (own j (s₅.note invoked).history) := by
    rw [State.note_history, own_cons_self (t := j) _ rfl]
    exact (opened_of_early h₅.1).cons rfl (by simp [invoked])
  have hx₆ : Executing j plan g (s₅.note invoked).history :=
    ⟨⟨_, List.mem_cons_of_mem _ h₅.2⟩, List.mem_cons_of_mem _ hintent, List.mem_cons_self⟩
  refine ⟨⟨invoked, rfl, rfl⟩, inv₆, (spec_toolsExecute inv₆ hx₆ ho₆).mono ?_ ?_⟩
  · exact fun outcome s₇ ho₇ => spec_auditCompleted ho₇ fun _ _ h => h
  · exact fun e s₇ ho₇ => spec_auditFailure ho₇ fun _ _ h => h

theorem Consented.suffix {t : Nat} {g : StorageAuthorizationGrant} {h h' : List Event}
    (hc : Consented cfg t plan g h) (hs : h <:+ h') : Consented cfg t plan g h' where
  request := hc.request.imp fun _ hmem => hs.subset hmem
  intent := hs.subset hc.intent
  challenge := hs.subset hc.challenge
  answer := hc.answer.imp fun _ hmem => hs.subset hmem
  body := by
    obtain ⟨n, uid, now, hn, hg⟩ := hc.body
    exact ⟨n, uid, now, hs.subset hn, hg⟩

theorem spec_consent {P : State → Prop} {Q : String × Option String × Option Int → State → Prop}
    {E : Error → State → Prop} (inv : Inv cfg s) (hP : Steady j P) (h : P s)
    (hQ : ∀ id decision uid s', Inv cfg s' → P s' → .challenged j plan id ∈ s'.history →
      .answered j id decision uid ∈ s'.history → Q (id, decision, uid) s')
    (hE : ∀ e s', P s' → E e s') : (consent j plan).Spec (logic cfg j) Q E s := by
  simp only [consent, bind_eq, spec_handle, spec_bind]
  refine spec_quiet quiet_attempt inv hP h (fun id s₁ inv₁ h₁ => ?_) fun e s₁ _ h₁ => by
    cases e <;> exact hE _ s₁ h₁
  simp only [spec_ofOption, spec_modify]
  refine ⟨fun id _ => ?_, fun _ => hE _ s₁ h₁⟩
  let challenged := Event.challenged j plan id
  have inv₂ : Inv cfg (s₁.note challenged) := inv₁.note trivial rfl
  refine ⟨⟨challenged, rfl, rfl⟩, inv₂, ?_⟩
  let P' : State → Prop := fun s' => P s' ∧ challenged ∈ s'.history
  have hP' : Steady j P' := hP.and steady_mem
  have h₂ : P' (s₁.note challenged) :=
    ⟨hP.note (e := challenged) h₁ rfl trivial rfl, List.mem_cons_self⟩
  refine spec_quiet quiet_attempt inv₂ hP' h₂ (fun _ s₃ inv₃ h₃ => ?_) fun e s₃ _ h₃ => by
    cases e <;> exact hE _ s₃ h₃.1
  refine spec_quiet quiet_attempt inv₃ hP' h₃ (fun r s₄ inv₄ h₄ => ?_) fun e s₄ _ h₄ => by
    cases e <;> exact hE _ s₄ h₄.1
  obtain ⟨decision, uid⟩ := r
  let answered := Event.answered j id decision uid
  have h₅ : P' (s₄.note answered) := hP'.note (e := answered) h₄ rfl trivial rfl
  have inv₅ : Inv cfg (s₄.note answered) := inv₄.note trivial rfl
  exact ⟨⟨answered, rfl, rfl⟩, inv₅, hQ _ _ _ _ inv₅ h₅.1 h₅.2 List.mem_cons_self⟩

theorem spec_draw {Q : String → State → Prop} {E : Error → State → Prop} (inv : Inv cfg s)
    (hQ : ∀ n s', Inv cfg s' → s'.history = .drawn j n :: s.history → Q (cfg.uuid4 n) s') :
    (draw cfg j).Spec (logic cfg j) Q E s := by
  simp only [draw, bind_eq, pure_eq, spec_bind, spec_reading, spec_modify,
    spec_ret]
  exact ⟨⟨_, rfl, rfl⟩, inv.draw inv.drawn, hQ _ _ (inv.draw inv.drawn) rfl⟩

theorem early_drawn {s' : State} {n : Nat} (h : ∀ e ∈ own j s.history, e.Early)
    (hs : s'.history = .drawn j n :: s.history) : ∀ e ∈ own j s'.history, e.Early := by
  rw [hs, own_cons_self (t := j) _ rfl]
  simpa [Event.Early] using h

theorem spec_authorize {uid : Int} (inv : Inv cfg s)
    (hown : own j s.history = [.received j (.authorize (some plan)) uid]) :
    (authorize cfg j plan).Spec (logic cfg j) (fun _ s' => Settled j s')
      (fun _ s' => Settled j s') s := by
  let received := Event.received j (.authorize (some plan)) uid
  have hreceived : received ∈ s.history := mem_of_mem_own (t := j) (by simp [hown, received])
  have early : ∀ e ∈ own j s.history, e.Early := by
    rw [hown]
    simp [Event.Early]
  let P₁ : State → Prop := fun s' => (∀ e ∈ own j s'.history, e.Early) ∧ received ∈ s'.history
  have hP₁ : Steady j P₁ := steady_early.and steady_mem
  simp only [authorize, bind_eq, spec_bind]
  refine spec_quiet (quiet_validatePreflightPlan cfg plan true) inv hP₁ ⟨early, hreceived⟩
    (fun _ s₁ inv₁ h₁ => ?_) fun _ s₁ _ h₁ => settled_of_early h₁.1
  refine spec_append (by intro b; cases b <;> rfl) hP₁ h₁ (fun s₂ inv₂ h₂ hintent => ?_)
    fun _ s₂ _ h₂ => settled_of_early h₂.1
  let P₂ : State → Prop := fun s' =>
    P₁ s' ∧ .audited j (authorizationIntent plan) true ∈ s'.history
  have hP₂ : Steady j P₂ := hP₁.and steady_mem
  refine spec_consent inv₂ hP₂ ⟨h₂, hintent⟩ (fun cid decision operator s₃ inv₃ h₃ hch hans => ?_)
    fun _ s₃ h₃ => settled_of_early h₃.1.1
  have settled₃ : Settled j s₃ := settled_of_early h₃.1.1
  simp only [spec_require, spec_ofOption, decide_eq_true_eq, settled₃, implies_true,
    and_true]
  rintro rfl operator rfl -
  let P₃ : State → Prop := fun s' => (P₂ s' ∧ .challenged j plan cid ∈ s'.history) ∧
    .answered j cid (some "approved") (some operator) ∈ s'.history
  have hP₃ : Steady j P₃ := (hP₂.and steady_mem).and steady_mem
  refine spec_quiet (quiet_validatePreflightPlan cfg plan true) inv₃ hP₃ ⟨⟨h₃, hch⟩, hans⟩
    (fun _ s₄ inv₄ h₄ => ?_) fun _ s₄ _ h₄ => settled_of_early h₄.1.1.1.1
  refine spec_draw inv₄ fun n s₅ inv₅ hs₅ => ?_
  have early₅ : ∀ e ∈ own j s₅.history, e.Early := early_drawn h₄.1.1.1.1 hs₅
  simp only [spec_reading]
  refine ⟨fun _ => ?_, fun _ => settled_of_early early₅⟩
  let g := grantFor plan (cfg.uuid4 n) cid operator s₅.now
  have hconsent : Consented cfg j plan g s₅.history := by
    have grows : s₄.history <:+ s₅.history := hs₅ ▸ List.suffix_cons _ _
    have hdrawn : .drawn j n ∈ s₅.history := hs₅ ▸ List.mem_cons_self
    exact ⟨⟨uid, grows.subset h₄.1.1.1.2⟩, grows.subset h₄.1.1.2, grows.subset h₄.1.2,
      ⟨operator, grows.subset h₄.2⟩, n, operator, s₅.now, hdrawn, rfl⟩
  refine spec_lock inv₅ (fun s₆ inv₆ rely => ?_) fun _ s₆ rely =>
    settled_of_early (steady_early.rely early₅ rely)
  have early₆ : ∀ e ∈ own j s₆.history, e.Early := steady_early.rely early₅ rely
  have inv₇ : Inv cfg (s₆.grant j g) :=
    inv₆.grant ⟨fun g' => not_mem_of_early early₆ rfl id, plan, hconsent.suffix rely.1⟩
  have untouched₇ : Untouched (own j (s₆.grant j g).history) := by
    have hs : own j (s₆.grant j g).history = .granted j g :: own j s₆.history :=
      own_cons_self _ rfl
    rw [hs]
    intro t plan' path script hmem
    rcases List.mem_cons.mp hmem with heq | hmem
    · cases heq
    · exact untouched_of_early early₆ t plan' path script hmem
  refine ⟨⟨_, rfl, rfl⟩, inv₇, ?_⟩
  exact spec_append (by intro b; cases b <;> rfl) steady_untouched untouched₇
    (fun s₈ _ h₈ _ => settled_of_untouched h₈) fun _ s₈ _ h₈ => settled_of_untouched h₈

theorem spec_checkpoint (inv : Inv cfg s) (early : ∀ e ∈ own j s.history, e.Early) :
    (checkpoint cfg j plan).Spec (logic cfg j) (fun _ s' => Settled j s')
      (fun _ s' => Settled j s') s := by
  have stop : ∀ (e : Error) s', Inv cfg s' → (∀ e ∈ own j s'.history, e.Early) → Settled j s' :=
    fun _ _ _ h => settled_of_early h
  simp only [checkpoint, createCheckpoint, bind_eq, pure_eq, spec_bind,
    spec_ret]
  refine spec_quiet (quiet_validatePreflightPlan cfg plan false) inv steady_early early
    (fun _ s₁ inv₁ h₁ => ?_) stop
  refine spec_draw inv₁ fun n s₂ inv₂ hs₂ => ?_
  refine spec_revalidate inv₂ steady_early (early_drawn h₁ hs₂) (fun _ s₃ inv₃ h₃ _ => ?_) stop
  refine spec_revalidate inv₃ steady_early h₃ (fun _ s₄ inv₄ h₄ _ => ?_) stop
  refine spec_quiet quiet_attempt inv₄ steady_early h₄ (fun dump s₅ inv₅ h₅ => ?_) stop
  simp only [spec_reading]
  exact spec_append (by intro b; cases b <;> rfl) steady_early h₅
    (fun _ _ h _ => settled_of_early h) stop

theorem spec_dryRun (inv : Inv cfg s) (early : ∀ e ∈ own j s.history, e.Early) :
    (dryRun cfg j plan).Spec (logic cfg j) (fun _ s' => Settled j s') (fun _ s' => Settled j s')
      s := by
  have stop : ∀ (e : Error) s', Inv cfg s' → (∀ e ∈ own j s'.history, e.Early) → Settled j s' :=
    fun _ _ _ h => settled_of_early h
  simp only [dryRun, bind_eq, spec_bind]
  refine spec_revalidate inv steady_early early (fun _ s₁ inv₁ h₁ _ => ?_) stop
  simp only [spec_ofExcept]
  refine ⟨fun script _ => ?_, fun _ _ => settled_of_early h₁⟩
  exact spec_quiet (quiet_attemptTool _ _ _) inv₁ steady_early h₁
    (fun _ _ _ h => settled_of_early h) stop

theorem spec_verify (inv : Inv cfg s) (early : ∀ e ∈ own j s.history, e.Early) :
    (verify cfg j plan).Spec (logic cfg j) (fun _ s' => Settled j s') (fun _ s' => Settled j s')
      s := by
  have stop : ∀ (e : Error) s', Inv cfg s' → (∀ e ∈ own j s'.history, e.Early) → Settled j s' :=
    fun _ _ _ h => settled_of_early h
  simp only [verify, bind_eq, spec_bind]
  refine spec_quiet (quiet_validatePostwritePlan cfg plan) inv steady_early early
    (fun _ s₁ inv₁ h₁ => ?_) stop
  refine spec_quiet (quiet_verifyTable cfg plan) inv₁ steady_early h₁ (fun _ s₂ _ h₂ => ?_) stop
  exact spec_append (by intro b; cases b <;> rfl) steady_early h₂
    (fun _ _ h _ => settled_of_early h) stop

theorem spec_dispatch (t : Request × Int) (inv : Inv cfg s) (hown : own j s.history = []) :
    (dispatch cfg j t.1 t.2).Spec (logic cfg j) (fun _ s' => Settled j s')
      (fun _ s' => Settled j s') s := by
  obtain ⟨r, uid⟩ := t
  simp only [dispatch, bind_eq, spec_bind, spec_modify, spec_require]
  have inv₁ : Inv cfg (s.note (.received j r uid)) := inv.note hown rfl
  have hown₁ : own j (s.note (.received j r uid)).history = [.received j r uid] := by
    rw [State.note_history, own_cons_self (t := j) _ rfl, hown]
  have early : ∀ e ∈ own j (s.note (.received j r uid)).history, e.Early := by
    rw [hown₁]
    simp [Event.Early]
  have settled : Settled j (s.note (.received j r uid)) := settled_of_early early
  refine ⟨⟨_, rfl, rfl⟩, inv₁, fun _ => ?_, fun _ => settled⟩
  cases r with
  | inspect target =>
    simp only [spec_bind, spec_ofOption, settled, implies_true, and_true]
    rintro target -
    exact spec_quiet (quiet_inspect cfg target) inv₁ steady_early early
      (fun _ _ _ h => settled_of_early h) fun _ _ _ h => settled_of_early h
  | dryRun plan =>
    simp only [spec_bind, spec_ofOption, settled, implies_true, and_true]
    rintro plan -
    refine spec_quiet (quiet_validatePreflightPlan cfg plan false) inv₁ steady_early early
      (fun _ s₂ inv₂ h₂ => ?_) fun _ _ _ h => settled_of_early h
    exact spec_dryRun inv₂ h₂
  | checkpoint plan =>
    simp only [spec_bind, spec_ofOption, settled, implies_true, and_true]
    rintro plan -
    exact spec_checkpoint inv₁ early
  | authorize plan =>
    simp only [spec_bind, spec_ofOption, settled, implies_true, and_true]
    rintro plan rfl
    exact spec_authorize inv₁ hown₁
  | execute plan grant =>
    simp only [spec_bind, spec_ofOption, settled, implies_true, and_true]
    rintro plan rfl grant rfl
    exact spec_execute inv₁ hown₁
  | verify plan =>
    simp only [spec_bind, spec_ofOption, settled, implies_true, and_true]
    rintro plan -
    exact spec_verify inv₁ early
  | rejected => exact settled

end Requests

def contract (cfg : Config) : Contract (system cfg) where
  inv := Inv cfg
  rely := Rely
  guar := Guar
  fresh j s := own j s.history = []
  post j _ _ := Settled j
  postE j _ _ := Settled j
  refl := Kept.refl
  trans _ _ _ _ := Kept.trans
  guar_rely _ _ _ _ := Noted.kept
  fresh_rely _ _ _ hf hr := hr.2.trans hf
  post_rely _ _ _ _ _ := Settled.rely
  postE_rely _ _ _ _ _ := Settled.rely
  world _ _ inv _ := ⟨⟨inv.causal, inv.grants, inv.drawn⟩, fun k => Kept.refl k _⟩
  handler _ t _ inv hf _ := spec_dispatch t inv hf

abbrev Requests := Pool State Res Error Response (Request × Int)

theorem holds_of_reachable {cfg : Config} {now : DateTime} {dev : Devices} {p : Requests}
    (reach : (system cfg).Reachable (State.start now dev) p) : (contract cfg).Holds p := by
  have inv : Inv cfg (State.start now dev) := ⟨trivial, fun _ => rfl, by simp [State.start]⟩
  exact (contract cfg).sound inv (fun _ => rfl) reach

end Ares.Broker
