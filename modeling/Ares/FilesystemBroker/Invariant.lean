import Ares.Coop.Tokens
import Ares.FilesystemBroker.Dispatch

/-! What every step of the filesystem broker leaves in its history, under every interleaving of its
requests and every answer of its environment. -/

namespace Ares.FilesystemBroker

open Coop Data Audit Filesystems

def tokens : Tokens Event FilesystemAuthorizationGrant String where
  id g := g.id
  grant := .granted
  pop := .popped
  draw := .drawn
  kind
    | .granted _ g => .granted g
    | .popped _ id stored => .popped id stored
    | .drawn _ n => .drawn n
    | _ => .other
  kind_grant _ _ := rfl
  kind_pop _ _ _ := rfl
  kind_draw _ _ := rfl
  event e := by cases e <;> simp
  drawer h := (Event.drawn.inj h).1

/-- The consent that stands behind a grant. -/
structure Consented (cfg : Config) (t : Nat) (plan : FilesystemRepairPlan)
    (g : FilesystemAuthorizationGrant) (h : List Event) : Prop where
  challenge : .challenged t plan g.challengeId ∈ h
  answer : ∃ uid, .answered t g.challengeId (some "approved") (some uid) ∈ h
  body : ∃ n uid now, .drawn t n ∈ h ∧ g = grantFor plan (cfg.uuid4 n) g.challengeId uid now

/-- An identity as `identify` builds it. -/
structure Fresh (cfg : Config) (requested : String) (d : DeviceIdentity) : Prop where
  requested : d.requestedPath = requested
  fingerprint : d.fingerprintSha256 = cfg.lib.identitySha256 d.body

/-- What an execution has found when it calls `tools.execute_repair`. -/
structure Checks where
  grant : FilesystemAuthorizationGrant
  uid : Int
  taken : DateTime
  time : DateTime
  checkpoint : ProtectionCheckpoint
  fresh : DeviceIdentity
  tool : String
  args : List String

/-- The events of an execution up to that call. -/
def Checks.events (c : Checks) (t : Nat) (plan : FilesystemRepairPlan) : List Event :=
  [.audited t (executionIntent plan c.checkpoint c.grant c.tool c.args) true,
    .mounted t plan.target plan.mount,
    .identified t plan.target.requestedPath c.fresh,
    .confirmed t c.checkpoint,
    .validated t plan c.time,
    .accepted t plan c.grant c.taken,
    .popped t c.grant.id (some c.grant),
    .received t (.execute (some plan) (some c.grant)) c.uid]

structure Checks.Passed (cfg : Config) (plan : FilesystemRepairPlan) (c : Checks) : Prop where
  valid : planValid cfg plan c.checkpoint c.time = true
  checkpoint : plan.protectionCheckpoint = some c.checkpoint
  identity : c.fresh.fingerprintSha256 = plan.target.fingerprintSha256

def unmountEvents (t : Nat) (plan : FilesystemRepairPlan) : List Event :=
  if plan.mount.mounted then [.audited t (stageEntry plan "filesystem.unmounted" []) true] else []

/-- What an execution has found when it runs the command that repairs. -/
structure Aim where
  time : DateTime
  fresh : DeviceIdentity
  again : DeviceIdentity

/-- The events of an execution from the call of `tools.execute_repair` to that command. -/
def Aim.events (a : Aim) (t : Nat) (plan : FilesystemRepairPlan) (tool : String) : List Event :=
  .audited t (stageEntry plan "filesystem.repair-command.started" [("tool", .str tool)]) true ::
    .identified t plan.target.requestedPath a.again :: (unmountEvents t plan ++
      [.mounted t a.fresh plan.mount, .identified t plan.target.requestedPath a.fresh,
        .invoked t plan a.time])

structure Aim.Passed (plan : FilesystemRepairPlan) (a : Aim) : Prop where
  fresh : a.fresh.fingerprintSha256 = plan.target.fingerprintSha256
  again : a.again.fingerprintSha256 = plan.target.fingerprintSha256

def repairCommand (plan : FilesystemRepairPlan) : Option (String × List String) :=
  (adapterFor plan.filesystem).repairInvocation plan.target.canonicalPath (!plan.target.blockDevice)

def Causal (cfg : Config) : Event → List Event → Prop
  | .received t _ _, past => own t past = []
  | .drawn _ n, past => ∀ t' n', .drawn t' n' ∈ past → n' < n
  | .granted t g, past => (∀ g', .granted t g' ∉ past) ∧ ∃ plan, Consented cfg t plan g past
  | .popped _ id stored, past => stored = tokens.table past id
  | .accepted t plan g time, past => grantMatches plan g (some g) time = true ∧
      ∃ uid, own t past = [.popped t g.id (some g),
        .received t (.execute (some plan) (some g)) uid]
  | .identified _ requested fresh, _ => Fresh cfg requested fresh
  | .invoked t plan _, past => ∃ c : Checks, own t past = c.events t plan ∧ c.Passed cfg plan
  | .repaired t plan tool args, past => repairCommand plan = some (tool, args) ∧
      ∃ (a : Aim) (before : List Event), own t past = a.events t plan tool ++ before ∧ a.Passed plan
  | _, _ => True

abbrev Inv (cfg : Config) (s : State) : Prop :=
  tokens.Tracks (Causal cfg) s.history s.grants s.drawn

abbrev Rely := Kept State.history

abbrev Guar := Noted State.history

theorem tokens_oneUse (cfg : Config) : tokens.OneUse cfg.uuid4 (Causal cfg) where
  popped hc := hc
  drawn hc := hc
  granted := by
    rintro t g past ⟨hfirst, plan, hconsent⟩
    obtain ⟨n, uid, now, hn, hg⟩ := hconsent.body
    exact ⟨hfirst, n, hn, congrArg (·.id) hg⟩

/-! ### Quiet tools -/

section Quiet

theorem quiet_runTool (tool : String) (args : List String) (unavailable timedOut : String) :
    (runTool tool args unavailable timedOut).Quiet := by
  refine Proc.Quiet.handle quiet_attempt fun e => ?_
  cases e <;> exact quiet_raise

theorem quiet_lsblkOf (info : Stat) (canonical : String) : (lsblkOf info canonical).Quiet := by
  cases info with
  | block => exact quiet_attempt
  | regular | other => exact quiet_ret

theorem quiet_check (d : DeviceIdentity) (filesystem : FilesystemType) :
    (check d filesystem).Quiet :=
  Proc.Quiet.bind (quiet_runTool _ _ _ _) fun _ => quiet_ret

theorem quiet_detectFilesystem (lib : Library) (d : DeviceIdentity) :
    (detectFilesystem lib d).Quiet :=
  Proc.Quiet.bind quiet_attempt fun _ => quiet_ret

theorem quiet_requirements (names : List String) : (requirements names).Quiet := by
  induction names with
  | nil => exact quiet_ret
  | cons name names ih =>
    exact Proc.Quiet.bind quiet_attempt fun _ => Proc.Quiet.bind ih fun _ => quiet_ret

theorem quiet_inspectionCheck (d : DeviceIdentity) (filesystem : FilesystemType)
    (missing : List String) (mounted : Bool) :
    (inspectionCheck d filesystem missing mounted).Quiet := by
  rw [inspectionCheck]
  split
  · exact quiet_ret
  · split
    · exact quiet_ret
    · exact Proc.Quiet.bind (quiet_check d filesystem) fun _ => quiet_ret

theorem quiet_inspectFilesystem (id : String) (now : DateTime) (d : DeviceIdentity)
    (filesystem : FilesystemType) (mount : MountSafetyReport) (writable : Bool) :
    (inspectFilesystem id now d filesystem mount writable).Quiet :=
  Proc.Quiet.bind (quiet_requirements _) fun _ =>
    Proc.Quiet.bind (quiet_inspectionCheck _ _ _ _) fun _ => quiet_ret

theorem quiet_unmount (mount : MountSafetyReport) : (unmount mount).Quiet := by
  rw [unmount]
  split
  · exact Proc.Quiet.bind (quiet_runTool _ _ _ _) fun _ => quiet_require
  · exact quiet_raise

theorem quiet_remount (plan : FilesystemRepairPlan) : (remount plan).Quiet := by
  rw [remount]
  split
  · refine Proc.Quiet.handle (Proc.Quiet.bind quiet_attempt fun _ => quiet_ret) fun e => ?_
    cases e <;> first | exact quiet_ret | exact quiet_raise
  · exact quiet_ret

end Quiet

/-! ### Rules for the parts of a request -/

abbrev logic (cfg : Config) (j : Nat) : Logic State Res :=
  ⟨Inv cfg, Rely j, Guar j, (system cfg).answers⟩

abbrev At (cfg : Config) := Coop.At (Inv cfg) State.history

/-- The task does `p`, with `Q` where it returns. -/
abbrev Does {α : Type} (cfg : Config) (j : Nat) (p : Task α) (Q : α → State → Prop) (s : State) :
    Prop :=
  p.Spec (logic cfg j) Q (fun _ _ => True) s

section Rules

variable {cfg : Config} {j : Nat} {l : List Event} {s : State} {α : Type}

variable {Q : Unit → State → Prop}

theorem does_note {e : Event} (h : At cfg j l s) (ht : e.task = j)
    (he : Causal cfg e s.history) (hn : tokens.kind e = .other)
    (hQ : ∀ s', At cfg j (e :: l) s' → Q () s') : Does cfg j (Proc.modify (State.note e)) Q s :=
  have inv : Inv cfg (s.note e) := h.inv.note he hn
  ⟨⟨e, ht, rfl⟩, inv, hQ _ (h.step inv ht rfl)⟩

theorem does_quiet {p : Task α} {Q : α → State → Prop} (quiet : p.Quiet) (h : At cfg j l s)
    (hQ : ∀ a s', At cfg j l s' → Q a s') : Does cfg j p Q s :=
  quiet.spec (Kept.refl j) (fun _ _ _ => Kept.trans) h.inv
    (fun a s' inv hr => hQ a s' (h.rely inv hr)) fun _ _ _ _ => trivial

theorem does_append {entry : AuditEntry} (h : At cfg j l s)
    (hQ : ∀ s', At cfg j (.audited j entry true :: l) s' → Q () s') :
    Does cfg j (append j entry) Q s := by
  simp only [append, bind_eq, spec_bind, spec_perform]
  intro s' inv hr r _
  have h' : At cfg j l s' := h.rely inv hr
  cases r with
  | acked => exact does_note h' rfl trivial rfl hQ
  | lost =>
    rw [spec_bind]
    exact does_note h' rfl trivial rfl fun _ _ => trivial
  | failed => trivial

variable {plan : FilesystemRepairPlan}

theorem does_emergency {event : String} (h : At cfg j l s) :
    Does cfg j (emergency j plan event) (fun _ _ => True) s := by
  simp only [emergency, bind_eq, spec_bind]
  refine fun s' inv hr _ _ => does_note (h.rely inv hr) rfl trivial rfl fun _ _ => ?_
  exact fun _ _ _ _ _ => trivial

theorem identityOf_fresh (requested canonical : String) (info : Stat)
    (blkid : List (String × String)) (lsblk : Lsblk) :
    Fresh cfg requested (identityOf cfg.lib requested canonical info blkid lsblk) :=
  ⟨rfl, rfl⟩

theorem does_identify {requested : String} {Q : DeviceIdentity → State → Prop}
    (h : At cfg j l s) (hQ : ∀ fresh s', At cfg j (.identified j requested fresh :: l) s' →
      Q fresh s') : Does cfg j (identify cfg j requested) Q s := by
  simp only [identify, bind_eq, spec_bind, spec_require, pure_eq,
    spec_ret]
  refine ⟨fun _ => ⟨fun _ => ?_, fun _ => trivial⟩, fun _ => trivial⟩
  refine does_quiet (Proc.Quiet.handle quiet_attempt fun _ => quiet_raise) h ?_
  rintro ⟨canonical, info⟩ s₁ h₁
  refine ⟨fun _ => ⟨fun _ => ?_, fun _ => trivial⟩, fun _ => trivial⟩
  refine does_quiet quiet_attempt h₁ fun blkid s₂ h₂ => ?_
  refine does_quiet (quiet_lsblkOf _ _) h₂ fun lsblk s₃ h₃ => ?_
  refine ⟨fun _ => does_note h₃ rfl ?_ rfl fun s₄ h₄ => hQ _ s₄ h₄, fun _ => trivial⟩
  exact identityOf_fresh requested canonical info blkid lsblk

theorem does_revalidate {expected : DeviceIdentity} {Q : DeviceIdentity → State → Prop}
    (h : At cfg j l s)
    (hQ : ∀ fresh s', At cfg j (.identified j expected.requestedPath fresh :: l) s' →
      fresh.fingerprintSha256 = expected.fingerprintSha256 → Q fresh s') :
    Does cfg j (revalidate cfg j expected) Q s := by
  simp only [revalidate, bind_eq, spec_bind, spec_handle, Proc.throw_eq,
    spec_raise, spec_require, pure_eq, spec_ret, implies_true, and_true]
  exact does_identify h fun fresh s' h' heq => hQ fresh s' h' (of_decide_eq_true heq)

theorem does_inspectMount {d : DeviceIdentity} {Q : MountSafetyReport → State → Prop}
    (h : At cfg j l s)
    (hQ : ∀ report s', At cfg j (.mounted j d report :: l) s' → Q report s') :
    Does cfg j (inspectMount j d) Q s := by
  simp only [inspectMount, bind_eq, spec_bind, pure_eq, spec_ret]
  refine does_quiet quiet_attempt h fun report s₁ h₁ => ?_
  exact does_note h₁ rfl trivial rfl fun s₂ h₂ => hQ report s₂ h₂

theorem does_draw {Q : String → State → Prop} (h : At cfg j l s)
    (hQ : ∀ n s', At cfg j (.drawn j n :: l) s' → Q (cfg.uuid4 n) s') :
    Does cfg j (draw cfg j) Q s := by
  simp only [draw, bind_eq, spec_bind, spec_reading, spec_modify, pure_eq,
    spec_ret]
  have inv : Inv cfg (s.draw j) := h.inv.draw h.inv.drawn
  exact ⟨⟨.drawn j s.drawn, rfl, rfl⟩, inv, hQ _ _ (h.step (e := .drawn j s.drawn) inv rfl rfl)⟩

theorem does_validatePlan {Q : ProtectionCheckpoint → State → Prop} (h : At cfg j l s)
    (hQ : ∀ c time s', At cfg j (.confirmed j c :: .validated j plan time :: l) s' →
      plan.protectionCheckpoint = some c → planValid cfg plan c time = true → Q c s') :
    Does cfg j (validatePlan cfg j plan) Q s := by
  simp only [validatePlan, bind_eq, spec_bind, spec_ofOption, spec_reading,
    spec_require, pure_eq, spec_ret, implies_true, and_true]
  intro c hc hvalid
  refine does_note h rfl trivial rfl fun s₁ h₁ => ?_
  refine does_quiet quiet_attempt h₁ fun durable s₂ h₂ _ => ?_
  exact does_note h₂ rfl trivial rfl fun s₃ h₃ => hQ c s.now s₃ h₃ hc hvalid

theorem does_validateTarget (h : At cfg j l s)
    (hQ : ∀ fresh s', At cfg j (.mounted j plan.target plan.mount ::
        .identified j plan.target.requestedPath fresh :: l) s' →
      fresh.fingerprintSha256 = plan.target.fingerprintSha256 → Q () s') :
    Does cfg j (validateTarget cfg j plan) Q s := by
  simp only [validateTarget, bind_eq, spec_bind]
  refine does_revalidate h fun fresh s₁ h₁ hfp => ?_
  refine does_inspectMount h₁ fun report s₂ h₂ => ?_
  rw [spec_require]
  refine ⟨fun heq => hQ fresh s₂ ?_ hfp, fun _ => trivial⟩
  rwa [← of_decide_eq_true heq]

theorem does_stage {name : String} {payload : Fields}
    (hname : auditedStages.contains name = true) (h : At cfg j l s)
    (hQ : ∀ s', At cfg j (.audited j (stageEntry plan name payload) true :: l) s' → Q () s') :
    Does cfg j (stage j plan name payload) Q s := by
  simp only [stage, bind_eq, spec_bind, hname, if_true]
  exact does_quiet quiet_attempt h fun _ s' h' => does_append h' hQ

theorem does_stage_sent {name : String} {payload : Fields}
    (hname : auditedStages.contains name = false) (h : At cfg j l s)
    (hQ : ∀ s', At cfg j l s' → Q () s') : Does cfg j (stage j plan name payload) Q s := by
  simp only [stage, bind_eq, spec_bind, hname]
  exact does_quiet quiet_attempt h fun _ s' h' => hQ s' h'

end Rules

/-! ### The requests -/

section Requests

variable {cfg : Config} {j : Nat} {l : List Event} {s : State} {plan : FilesystemRepairPlan}

theorem does_unmountWhere {mount : MountSafetyReport} {Q : Unit → State → Prop}
    (h : At cfg j l s) (hQ : ∀ s', At cfg j (unmountEvents j plan ++ l) s' → Q () s') :
    Does cfg j (unmountWhere plan (stage j plan) mount) Q s := by
  rw [unmountWhere]
  rw [unmountEvents] at hQ
  cases hm : plan.mount.mounted with
  | false =>
    rw [hm] at hQ
    exact hQ s h
  | true =>
    rw [hm] at hQ
    simp only [if_true, unmountFirst, bind_eq, spec_bind, spec_require,
      implies_true, and_true]
    intro _
    refine does_stage_sent (by decide) h fun s₁ h₁ => ?_
    refine does_quiet (quiet_unmount _) h₁ fun _ s₂ h₂ => ?_
    exact does_stage (by decide) h₂ hQ

theorem does_repairTarget {a : Aim} (ha : a.Passed plan)
    (h : At cfg j (.identified j plan.target.requestedPath a.again :: (unmountEvents j plan ++
      .mounted j a.fresh plan.mount :: .identified j plan.target.requestedPath a.fresh ::
        .invoked j plan a.time :: l)) s) :
    Does cfg j (repairTarget j plan (stage j plan)) (fun _ s' => Inv cfg s') s := by
  simp only [repairTarget, bind_eq, spec_bind, spec_ofOption, pure_eq,
    spec_ret, implies_true, and_true]
  rintro ⟨tool, args⟩ hcommand
  refine does_stage rfl h fun s₁ h₁ => ?_
  refine does_note h₁ rfl ⟨hcommand, a, l, ?_, ha⟩ rfl fun s₂ h₂ => ?_
  · rw [h₁.own]
    simp [Aim.events]
  · refine does_quiet (quiet_runTool _ _ _ _) h₂ fun result s₃ h₃ => ?_
    exact does_stage rfl h₃ fun s₄ h₄ => h₄.inv

theorem does_remountAfter {after : FilesystemCheckResult} (h : At cfg j l s) :
    Does cfg j (remountAfter plan (stage j plan) after) (fun _ _ => True) s := by
  rw [remountAfter]
  split
  · trivial
  · split
    · simp only [bind_eq, spec_bind]
      refine does_stage_sent rfl h fun s₁ h₁ => ?_
      refine does_quiet (quiet_remount plan) h₁ fun _ s₂ h₂ => ?_
      exact does_stage rfl h₂ fun _ _ => trivial
    · trivial

theorem does_executeRepair {time : DateTime} (h : At cfg j (.invoked j plan time :: l) s) :
    Does cfg j (executeRepair cfg j plan (stage j plan)) (fun _ _ => True) s := by
  simp only [executeRepair, bind_eq, spec_bind, spec_require, pure_eq,
    implies_true, and_true]
  intro _
  refine does_revalidate h fun fresh s₁ h₁ hfresh => ?_
  refine does_inspectMount h₁ fun report s₂ h₂ hmount => ?_
  rw [of_decide_eq_true hmount] at h₂
  refine does_unmountWhere h₂ fun s₃ h₃ => ?_
  refine does_revalidate h₃ fun again s₄ h₄ hagain => ?_
  refine does_quiet (quiet_check _ _) h₄ fun before s₅ h₅ => ?_
  have repair : Does cfg j (repairUnlessHealthy j plan (stage j plan) before)
      (fun _ s' => Inv cfg s') s₅ := by
    rw [repairUnlessHealthy]
    split
    · exact h₅.inv
    · exact does_repairTarget (a := ⟨time, fresh, again⟩) ⟨hfresh, hagain⟩ h₅
  refine repair.mono (fun repaired s₆ inv₆ => ?_) fun _ _ _ => trivial
  refine does_stage rfl ⟨inv₆, rfl⟩ fun s₇ h₇ => ?_
  refine does_quiet (quiet_check _ _) h₇ fun after s₈ h₈ => ?_
  refine does_stage rfl h₈ fun s₉ h₉ => ?_
  exact (does_remountAfter h₉).mono (fun _ _ _ => trivial) fun _ _ _ => trivial

theorem does_close {entry : AuditEntry} {after : Task Unit}
    (hafter : ∀ s', Inv cfg s' → Does cfg j after (fun _ _ => True) s') :
    Does cfg j (Proc.handle (append j entry) fun
      | .audit => after
      | e => throw e) (fun _ _ => True) s := by
  simp only [append, bind_eq, spec_handle, spec_bind, spec_perform]
  intro s' inv _ r _
  cases r with
  | acked => exact ⟨⟨_, rfl, rfl⟩, inv.note trivial rfl, trivial⟩
  | lost =>
    have inv' : Inv cfg (s'.note (.audited j entry false)) := inv.note trivial rfl
    exact ⟨⟨_, rfl, rfl⟩, inv', hafter _ inv'⟩
  | failed => exact hafter s' inv

theorem does_auditFailure (e : Error) :
    Does cfg j (auditFailure j plan e) (fun _ _ => True) s :=
  does_close fun _ inv => does_emergency ⟨inv, rfl⟩

theorem does_auditCompleted (outcome : FilesystemRepairOutcome) :
    Does cfg j (auditCompleted j plan outcome) (fun _ _ => True) s := by
  refine does_close fun s' inv => spec_bind.mpr ?_
  exact does_emergency ⟨inv, rfl⟩

theorem does_execute {g : FilesystemAuthorizationGrant} {uid : Int}
    (h : At cfg j [.received j (.execute (some plan) (some g)) uid] s) :
    Does cfg j (execute cfg j plan g) (fun _ _ => True) s := by
  simp only [execute, bind_eq, spec_bind, spec_state, spec_require,
    spec_ofOption, spec_reading, spec_handle, pure_eq, spec_ret,
    Proc.throw_eq, spec_raise, implies_true, and_true]
  intro s₁ inv₁ hr _ _
  have h₁ := h.rely inv₁ hr
  have inv₂ : Inv cfg (s₁.pop j g.id) := inv₁.pop (inv₁.grants g.id)
  refine ⟨⟨.popped j g.id (s₁.grants g.id), rfl, rfl⟩, inv₂, fun hmatch => ?_⟩
  have hstored : s₁.grants g.id = some g := by
    simp only [grantMatches, Bool.and_eq_true, decide_eq_true_eq] at hmatch
    exact hmatch.1.1.1.1.1.1
  have h₂ := h₁.step (e := .popped j g.id (s₁.grants g.id)) inv₂ rfl rfl
  rw [hstored] at h₂ hmatch
  refine does_note h₂ rfl ⟨hmatch, uid, h₂.own⟩ rfl fun s₃ h₃ => ?_
  refine does_validatePlan h₃ fun c time s₄ h₄ hc hvalid => ?_
  refine does_validateTarget h₄ fun fresh s₅ h₅ hfp => ?_
  rintro ⟨tool, args⟩ -
  refine does_append h₅ fun s₆ h₆ => ?_
  -- Everything that stands behind the call of the tools stands here.
  refine does_note h₆ rfl ⟨⟨g, uid, s₁.now, time, c, fresh, tool, args⟩, h₆.own,
    ⟨hvalid, hc, hfp⟩⟩ rfl fun s₇ h₇ => ?_
  refine (does_executeRepair h₇).mono (fun outcome s₈ _ => ?_) fun e s₈ _ => ?_
  · exact does_auditCompleted outcome
  · exact does_auditFailure e

theorem does_consent {Q : String × Option String × Option Int → State → Prop} (h : At cfg j l s)
    (hQ : ∀ id decision uid s',
      At cfg j (.answered j id decision uid :: .challenged j plan id :: l) s' →
      Q (id, decision, uid) s') : Does cfg j (consent j plan) Q s := by
  rw [consent]
  refine spec_handle.mpr (Proc.Spec.mono (Q := Q) (E := fun _ _ => True) ?_ (fun _ _ h => h)
    fun e _ _ => by cases e <;> trivial)
  simp only [bind_eq, spec_bind, spec_ofOption, pure_eq, spec_ret,
    implies_true, and_true]
  refine does_quiet quiet_attempt h fun challenge s₁ h₁ id _ => ?_
  refine does_note h₁ rfl trivial rfl fun s₂ h₂ => ?_
  refine does_quiet quiet_attempt h₂ fun _ s₃ h₃ => ?_
  refine does_quiet quiet_attempt h₃ fun answer s₄ h₄ => ?_
  obtain ⟨decision, uid⟩ := answer
  exact does_note h₄ rfl trivial rfl fun s₅ h₅ => hQ id decision uid s₅ h₅

theorem does_authorize {request : Request} {uid : Int} (h : At cfg j [.received j request uid] s) :
    Does cfg j (authorize cfg j plan) (fun _ _ => True) s := by
  simp only [authorize, bind_eq, spec_bind, spec_require, spec_ofOption,
    spec_reading, pure_eq, spec_ret]
  refine does_validatePlan h fun c time s₁ h₁ _ _ => ?_
  refine does_validateTarget h₁ fun fresh s₂ h₂ _ => ?_
  refine does_append h₂ fun s₃ h₃ => ?_
  refine does_consent h₃ fun id decision uid s₄ h₄ => ?_
  refine ⟨fun happroved => ⟨?_, fun _ => trivial⟩, fun _ => trivial⟩
  rintro operatorUid rfl
  obtain rfl := of_decide_eq_true happroved
  refine ⟨fun _ => ?_, fun _ => trivial⟩
  refine does_validatePlan h₄ fun c' time' s₅ h₅ _ _ => ?_
  refine does_validateTarget h₅ fun fresh' s₆ h₆ _ => ?_
  refine does_draw h₆ fun n s₇ h₇ => ?_
  refine ⟨fun _ s₈ inv₈ hr _ _ => ?_, fun _ => trivial⟩
  have h₈ := h₇.rely inv₈ hr
  let g := grantFor plan (cfg.uuid4 n) id operatorUid s₇.now
  have hcausal : Causal cfg (.granted j g) s₈.history := by
    refine ⟨fun g' => h₈.not_mem rfl (by simp), plan, ⟨h₈.mem (by simp [g, grantFor]), ?_, ?_⟩⟩
    · exact ⟨operatorUid, h₈.mem (by simp [g, grantFor])⟩
    · exact ⟨n, operatorUid, s₇.now, h₈.mem (by simp), rfl⟩
  have inv₉ : Inv cfg (s₈.grant j g) := inv₈.grant hcausal
  refine ⟨⟨.granted j g, rfl, rfl⟩, inv₉, ?_⟩
  exact does_append ⟨inv₉, rfl⟩ fun _ _ => trivial

theorem does_inspect {device : String} (h : At cfg j l s) :
    Does cfg j (inspect cfg j device) (fun _ _ => True) s := by
  simp only [inspect, toolsInspect, bind_eq, spec_bind, spec_reading, pure_eq,
    spec_ret]
  refine does_identify h fun identity s₁ h₁ => ?_
  refine does_quiet (quiet_detectFilesystem _ _) h₁ fun filesystem s₂ h₂ => ?_
  refine does_inspectMount h₂ fun mount s₃ h₃ => ?_
  refine does_quiet quiet_attempt h₃ fun writable s₄ h₄ => ?_
  refine does_draw h₄ fun n s₅ h₅ => ?_
  cases filesystem with
  | none => exact does_append h₅ fun _ _ => trivial
  | some filesystem =>
    refine does_quiet (quiet_inspectFilesystem _ _ _ _ _ _) h₅ fun _ s₆ h₆ => ?_
    exact does_append h₆ fun _ _ => trivial

theorem does_dispatch {request : Request} {uid : Int} (inv : Inv cfg s)
    (hf : own j s.history = []) :
    Does cfg j (dispatch cfg j request uid) (fun _ _ => True) s := by
  simp only [dispatch, bind_eq, spec_bind, spec_require]
  refine does_note ⟨inv, hf⟩ rfl hf rfl fun s₁ h₁ => ?_
  refine ⟨fun _ => ?_, fun _ => trivial⟩
  cases request with
  | inspect device =>
    refine spec_bind.mpr (spec_ofOption.mpr ⟨fun device _ => ?_, fun _ => trivial⟩)
    exact does_inspect h₁
  | authorize plan =>
    refine spec_bind.mpr (spec_ofOption.mpr ⟨fun plan _ => ?_, fun _ => trivial⟩)
    exact does_authorize h₁
  | execute plan grant =>
    refine spec_bind.mpr (spec_ofOption.mpr ⟨?_, fun _ => trivial⟩)
    rintro plan rfl
    refine spec_bind.mpr (spec_ofOption.mpr ⟨?_, fun _ => trivial⟩)
    rintro g rfl
    exact does_execute h₁
  | rejected => trivial

end Requests

def contract (cfg : Config) : Contract (system cfg) where
  inv := Inv cfg
  rely := Rely
  guar := Guar
  fresh j s := own j s.history = []
  post _ _ _ _ := True
  postE _ _ _ _ := True
  refl := Kept.refl
  trans _ _ _ _ := Kept.trans
  guar_rely _ _ _ _ := Noted.kept
  fresh_rely _ _ _ hf hr := hr.2.trans hf
  post_rely _ _ _ _ _ _ _ := trivial
  postE_rely _ _ _ _ _ _ _ := trivial
  world _ _ inv _ := ⟨⟨inv.causal, inv.grants, inv.drawn⟩, fun k => Kept.refl k _⟩
  handler _ _ _ inv hf _ := does_dispatch inv hf

abbrev Requests := Pool State Res Error Response (Request × Int)

theorem causal_of_reachable {cfg : Config} {now : DateTime} {p : Requests}
    (reach : (system cfg).Reachable (State.start now) p) :
    Always (Causal cfg) p.state.history := by
  have inv : Inv cfg (State.start now) := ⟨trivial, fun _ => rfl, by simp [State.start]⟩
  exact ((contract cfg).sound inv (fun _ => rfl) reach).inv.causal

end Ares.FilesystemBroker
