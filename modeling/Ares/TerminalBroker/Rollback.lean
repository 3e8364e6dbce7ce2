import Ares.Coop.Script
import Ares.TerminalBroker.Sandbox

/-! What a start leaves behind when it fails. -/

namespace Ares.TerminalBroker

open Coop Data

/-! ### A machine that answers the calls of a start -/

/-- How the machine answers, and which writes and mounts are there although they failed. -/
structure Outside where
  answer : Machine → (o : Op) → Res o
  leaves : Machine → Op → Bool

def Outside.effective (out : Outside) (m : Machine) : Op → Bool
  | .mount source root => out.answer m (.mount source root) = .ok 0 ||
      out.leaves m (.mount source root)
  | .writeText path document => (out.answer m (.writeText path document)).isOk ||
      out.leaves m (.writeText path document)
  | o => (out.answer m o).isOk

/-- What the calls of a start make. -/
def Machine.after (out : Outside) (m : Machine) (o : Op) : Machine :=
  let m' := { m with calls := m.calls + 1 }
  if out.effective m o then
    match o with
    | .mkdir path _ parents _ => { m' with
        directories := fun q => m.directories q || if parents then q.isPrefixOf path else q = path }
    | .writeText path _ => { m' with files := Function.update m.files path true }
    | .replace source target => { m' with
        files := Function.update (Function.update m.files source false) target true }
    | .mount _ root => { m' with mounted := Function.update m.mounted root true }
    | _ => m'
  else m'

def Outside.machine (out : Outside) : Server Machine Res := fun o m =>
  (out.answer m o, m.after out o)

def Outside.server (out : Outside) : Server State Res := fun o s =>
  (out.answer s.machine o, { s with machine := s.machine.after out o })

def Machine.present (m : Machine) (q : Path) : Bool := m.directories q || m.files q

/-- A start that returns has its session in the table; one that raises leaves no mount of its own, no
directory and no request of the session. -/
def LeavesNothing (cfg : Config) (plan : TerminalPlan) (before : Machine) :
    Except Error TerminalSession × State → Prop
  | (.ok session, s) => s.sessions plan.sessionId = some session
  | (.error _, s) => (∀ q, s.machine.mounted q → before.mounted q) ∧
      s.machine.present (sessionDirOf cfg plan.sessionId) = false ∧
      s.machine.present (guiRequestOf cfg plan.sessionId) = false

/-! ### The calls of a start -/

def works (o : Op) : Ask Res := ⟨o, Except.isOk⟩

/-- The exceptions of `chown` are suppressed. -/
def triesChown (path : Path) : Ask Res where
  op := .chown path
  accepts
    | .ok _ => true
    | .error e => e.isException

def exactly {α : Type} [DecidableEq α] (v : α) : Except Error α → Bool
  | .ok w => w = v
  | .error _ => false

/-- `is_dir` answers with `b`. -/
def findsDir (path : String) (b : Bool) : Ask Res := ⟨.isDir path, exactly b⟩

def mounts (source : String) (root : Path) : Ask Res := ⟨.mount source root, exactly (0 : Int)⟩

/-- The source that `_validate_plan` looks at. -/
def sourceOf (plan : TerminalPlan) : String :=
  ((plan.target.bind fun target => target.path?.map target.source)).getD ""

/-- What `_validate_plan` checks without asking the machine. -/
structure PlanAccepted (cfg : Config) (plan : TerminalPlan) : Prop where
  fingerprint : plan.fingerprintSha256 = cfg.lib.fingerprint plan.toPlanPayload
  readOnly : plan.readOnly = true
  noBinaries : plan.executeTargetBinaries = false
  target : ∃ target path, plan.target = some target ∧ target.path? = some path ∧ path ≠ "/" ∧
    target.source path ≠ "/" ∧ plan.targetFingerprint = some target.fingerprint

/-- What `_start` checks without asking the machine. -/
structure Redeemable (cfg : Config) (s : State) (plan : TerminalPlan)
    (g : TerminalAuthorizationGrant) : Prop where
  stored : s.grants g.id = some g
  unused : g.consumed = false
  unexpired : s.now < g.expiresAt
  planId : g.planId = plan.id
  planFingerprint : g.planFingerprintSha256 = plan.fingerprintSha256
  plan : PlanAccepted cfg plan

/-- The calls of `_validate_plan`. -/
def validateCalls (plan : TerminalPlan) : List (Ask Res) :=
  if isDevice (sourceOf plan) then [] else [findsDir (sourceOf plan) true]

def checkCalls (plan : TerminalPlan) : List (Ask Res) := works .lock :: validateCalls plan

def makesDir (cfg : Config) (plan : TerminalPlan) : Ask Res :=
  works (.mkdir (sessionDirOf cfg plan.sessionId) 0o700 true false)

/-- The ways to the technical path as a source, each with the source and whether the broker has
mounted it. -/
def technicalCalls (source : String) (sessionDir : Path) :
    List (List (Ask Res) × (String × Bool)) :=
  let root := sessionDir ++ ["root"]
  (if source ≠ "/" then [([findsDir source true], (source, false))] else []) ++
  if isDevice source then [([findsDir source false, works (.mkdir root 0o700 false false),
    mounts source root], (root.str, true))] else []

/-- The ways to a source: the place where it is mounted already comes first. -/
def sourceCalls (target : TerminalTarget) (technicalPath : String) (sessionDir : Path) :
    List (List (Ask Res) × (String × Bool)) :=
  let existing := pathText target.mountpoint
  let technical := technicalCalls (pathText technicalPath) sessionDir
  if target.mountpoint ≠ "" && target.mountpoint ≠ "/" then
    ([findsDir existing true], (existing, false)) ::
      technical.map fun r => (findsDir existing false :: r.1, r.2)
  else technical

def routes (plan : TerminalPlan) (sessionDir : Path) : List (List (Ask Res) × (String × Bool)) :=
  match plan.target with
  | none => []
  | some target => match target.technicalPath with
    | none => []
    | some technicalPath => sourceCalls target technicalPath sessionDir

def controlCalls (sessionDir : Path) : List (Ask Res) :=
  [works (.mkdir (sessionDir ++ ["control"]) 0o770 false false),
    triesChown (sessionDir ++ ["control"])]

def startingEntry (cfg : Config) (plan : TerminalPlan) : Audit.AuditEntry where
  eventType := "terminal.session.starting"
  source := "ares-tool-broker"
  correlationId := plan.sessionId
  sessionId := plan.sessionId
  payload := [("plan_id", .str plan.id), ("plan_fingerprint", .str plan.fingerprintSha256),
    ("target_fingerprint", .optStr plan.targetFingerprint),
    ("runtime_dir_token", .str (cfg.lib.token (sessionDirOf cfg plan.sessionId).str))]

def writeCalls (cfg : Config) (plan : TerminalPlan) (source : String × Bool) : List (Ask Res) :=
  let sessionDir := sessionDirOf cfg plan.sessionId
  let controlDir := sessionDir ++ ["control"]
  let tmp := guiTemporaryOf cfg plan.sessionId
  [works (.writeText (sessionDir ++ ["public.json"]) (publicDocument cfg plan source.1 source.2)),
    works (.chmod (sessionDir ++ ["public.json"]) 0o644),
    works (.writeText (sessionDir ++ ["internal.json"])
      (internalDocument source.1 source.2 controlDir)),
    works (.chmod (sessionDir ++ ["internal.json"]) 0o600),
    works (.mkdir cfg.guiRequestRoot 0o770 true true),
    works (.writeText tmp (guiDocument plan source.1 controlDir)),
    works (.chmod tmp 0o660),
    works (.replace tmp (guiRequestOf cfg plan.sessionId))]

def enterCalls (cfg : Config) (plan : TerminalPlan) : List (Ask Res) :=
  [works .thread, works (.append (startingEntry cfg plan)), works .lock]

/-- The calls after the directory of the session is made, on one way to the source. -/
def restCalls (cfg : Config) (plan : TerminalPlan) (route : List (Ask Res) × (String × Bool)) :
    List (Ask Res) :=
  controlCalls (sessionDirOf cfg plan.sessionId) ++ (route.1 ++ writeCalls cfg plan route.2) ++
    enterCalls cfg plan

variable (cfg : Config) (out : Outside) (s : State) (plan : TerminalPlan)
  (g : TerminalAuthorizationGrant)

/-- The start is let through, and the directory of the session can be made. -/
def Prepares : Prop :=
  Redeemable cfg s plan g ∧ Follows out.machine (checkCalls plan ++ [makesDir cfg plan]) s.machine

/-- Every step of the start goes well. -/
def Completes : Prop :=
  Redeemable cfg s plan g ∧ ∃ route ∈ routes plan (sessionDirOf cfg plan.sessionId),
    Follows out.machine (checkCalls plan ++ [makesDir cfg plan] ++ restCalls cfg plan route) s.machine

/-! ### The scripts of the broker's steps -/

section Scripts

variable {cfg out s plan g} {task : Nat} {o : Op} {α : Type}

theorem serve_attempt : (attempt task o).serve out.server s =
    (out.answer s.machine o,
      { s.note (.called task o) with machine := s.machine.after out o }) := by
  have hnote : (Proc.modify (State.note (.called task o)) : Task Unit).serve out.server s =
      (.ok (), s.note (.called task o)) := rfl
  rw [attempt, bind_eq, serve_bind_ok hnote]
  exact serve_ofExcept _

abbrev Scripted (out : Outside) (C : Prop) (p : Task α) (l : List (Ask Res)) (Q : α → Prop) : Prop :=
  p.Scripted State.machine out.server out.machine C l Q

abbrev Routed (out : Outside) (p : Task α) (routes : List (List (Ask Res) × α)) : Prop :=
  p.Routed State.machine out.server out.machine routes Prod.fst fun r => (· = r.2)

theorem scripted_attempt (o : Op) :
    Scripted out True (attempt task o) [works o] fun _ => True where
  ends s _ hf := by
    rw [serve_attempt]
    cases hanswer : out.answer s.machine o with
    | ok a => exact ⟨a, _, rfl, trivial, rfl⟩
    | error e => simp [works, Outside.machine, hanswer, Except.isOk, Except.toBool] at hf
  stops s hnot := by
    rw [serve_attempt]
    cases hanswer : out.answer s.machine o with
    | ok a => exact absurd ⟨trivial, by simp [works, Outside.machine, hanswer, Except.isOk,
        Except.toBool]⟩ hnot
    | error e => exact ⟨e, _, [works o], rfl, List.prefix_refl _, rfl⟩

theorem scripted_check {a : Ask Res} {f : a.op.Answer → Task α} {C : Prop} {l : List (Ask Res)}
    {Q : α → Prop} (herror : ∀ e, a.accepts (.error e) = false)
    (hgoes : ∀ v, a.accepts (.ok v) = true → Scripted out C (f v) l Q)
    (hends : ∀ v, a.accepts (.ok v) = false → ∀ s, ∃ e, (f v).serve out.server s = (.error e, s)) :
    Scripted out C ((attempt task a.op).bind f) (a :: l) Q where
  ends s hc hf := by
    cases hanswer : out.answer s.machine a.op with
    | error e => simp [Outside.machine, hanswer, herror] at hf
    | ok v =>
      have haccepts : a.accepts (.ok v) = true := by simpa [Outside.machine, hanswer] using hf.1
      rw [serve_bind_ok (by rw [serve_attempt, hanswer])]
      exact (hgoes v haccepts).ends _ hc hf.2
  stops s hnot := by
    cases hanswer : out.answer s.machine a.op with
    | error e =>
      exact ⟨e, _, [a], serve_bind_error (by rw [serve_attempt, hanswer]),
        List.cons_prefix_cons.mpr ⟨rfl, List.nil_prefix⟩, rfl⟩
    | ok v =>
      rw [serve_bind_ok (by rw [serve_attempt, hanswer])]
      cases haccepts : a.accepts (.ok v) with
      | true =>
        have hrest := (hgoes v haccepts).stops { s.note (.called task a.op) with
          machine := s.machine.after out a.op } fun h =>
            hnot ⟨h.1, by simpa [Outside.machine, hanswer] using haccepts, h.2⟩
        obtain ⟨e, t, l', hserve, hfront, hview⟩ := hrest
        exact ⟨e, t, a :: l', hserve, List.cons_prefix_cons.mpr ⟨rfl, hfront⟩, hview⟩
      | false =>
        obtain ⟨e, he⟩ := hends v haccepts { s.note (.called task a.op) with
          machine := s.machine.after out a.op }
        exact ⟨e, _, [a], he, List.cons_prefix_cons.mpr ⟨rfl, List.nil_prefix⟩, rfl⟩

theorem scripted_chown (path : Path) :
    Scripted out True (suppress Error.isException (attempt task (.chown path))) [triesChown path]
      fun _ => True where
  ends s _ hf := by
    rw [suppress, serve_handle, serve_attempt]
    cases hanswer : out.answer s.machine (.chown path) with
    | ok a => exact ⟨a, _, rfl, trivial, rfl⟩
    | error e =>
      have he : e.isException = true := by
        simpa [triesChown, Outside.machine, hanswer] using hf
      simp only [he, if_true]
      exact ⟨(), _, rfl, trivial, rfl⟩
  stops s hnot := by
    rw [suppress, serve_handle, serve_attempt]
    cases hanswer : out.answer s.machine (.chown path) with
    | ok a => exact absurd ⟨trivial, by simp [triesChown, Outside.machine, hanswer]⟩ hnot
    | error e =>
      have he : e.isException = false := by
        simpa [triesChown, Outside.machine, hanswer] using hnot
      exact ⟨e, _, [triesChown path], by simp [he]; rfl, List.prefix_refl _, rfl⟩

variable (out) in
theorem scripted_require (c : Bool) (e : Error) :
    Scripted out (c = true) (require c e) [] fun _ => True :=
  Proc.scripted_require c e

variable (out plan task) in
theorem scripted_validateSource (target : TerminalTarget) (source : String) :
    Scripted out (plan.targetFingerprint = some target.fingerprint)
      (((if isDevice source then pure true else attempt task (.isDir source) : Task Bool)).bind
        fun usable => (require usable (.broker "TERMINAL_TARGET_SOURCE_UNSUPPORTED")).bind
          fun _ => require (plan.targetFingerprint = some target.fingerprint)
            (.broker "TERMINAL_TARGET_FINGERPRINT_CHANGED"))
      (if isDevice source then [] else [findsDir source true]) fun _ => True := by
  have hlast : Scripted out (plan.targetFingerprint = some target.fingerprint)
      (require (plan.targetFingerprint = some target.fingerprint)
        (.broker "TERMINAL_TARGET_FINGERPRINT_CHANGED")) [] fun _ => True :=
    (scripted_require out _ _).mono decide_eq_true_iff fun _ h => h
  split
  · exact hlast
  · refine scripted_check (a := findsDir source true) (fun _ => rfl)
      (fun (v : Bool) hv => ?_) fun (v : Bool) hv s => ?_
    · obtain rfl : v = true := of_decide_eq_true hv
      exact hlast
    · obtain rfl : v = false := Bool.eq_false_iff.mpr (of_decide_eq_false hv)
      exact ⟨_, rfl⟩

theorem scripted_validatePolicy :
    Scripted out (plan.fingerprintSha256 = cfg.lib.fingerprint plan.toPlanPayload ∧
      plan.readOnly = true ∧ plan.executeTargetBinaries = false) (validatePolicy cfg plan) []
      fun _ => True := by
  have hchecks := (scripted_require out
      (plan.fingerprintSha256 = cfg.lib.fingerprint plan.toPlanPayload)
      (.broker "TERMINAL_PLAN_FINGERPRINT_INVALID")).bind fun _ _ =>
    (scripted_require out (plan.readOnly && !plan.executeTargetBinaries)
      (.broker "TERMINAL_PLAN_POLICY_REJECTED")).bind fun _ _ =>
    scripted_require out (plan.networkPolicy = .disabled && plan.devicePolicy = .minimal)
      (.broker "TERMINAL_PLAN_POLICY_REJECTED")
  -- A plan can name no other policies.
  have hnetwork : plan.networkPolicy = .disabled := by cases plan.networkPolicy; rfl
  have hdevice : plan.devicePolicy = .minimal := by cases plan.devicePolicy; rfl
  exact hchecks.mono (by simp [hnetwork, hdevice]) fun _ h => h

theorem scripted_validateTarget :
    Scripted out (∃ target path, plan.target = some target ∧ target.path? = some path ∧
      path ≠ "/" ∧ target.source path ≠ "/" ∧ plan.targetFingerprint = some target.fingerprint)
      (validateTarget task plan) (validateCalls plan) fun _ => True := by
  cases htarget : plan.target with
  | none =>
    rw [validateTarget, htarget]
    exact (Proc.scripted_raise _ _ _).mono (by simp) fun _ h => h
  | some target =>
    cases hpath : target.path? with
    | none =>
      rw [validateTarget, htarget]
      have hraise : Scripted out False (Proc.raise (.broker "TERMINAL_TARGET_INVALID") : Task Unit)
        (validateCalls plan) fun _ => True := Proc.scripted_raise _ _ _
      simp only [ofOption, bind_eq, Proc.bind, hpath]
      exact hraise.mono (by simp [hpath]) fun _ h => h
    | some path =>
      have hcalls : validateCalls plan = if isDevice (target.source path) then []
          else [findsDir (target.source path) true] := by
        simp [validateCalls, sourceOf, htarget, hpath]
      have hlast := (scripted_require out (path ≠ "/")
          (.broker "TERMINAL_TARGET_UNSAFE")).bind fun _ _ =>
        (scripted_require out (target.source path ≠ "/") (.broker "TERMINAL_TARGET_UNSAFE")).bind
          fun _ _ => scripted_validateSource out plan task target (target.source path)
      rw [List.nil_append, List.nil_append, ← hcalls] at hlast
      rw [validateTarget, htarget]
      simp only [ofOption, bind_eq, Proc.bind, hpath]
      exact hlast.mono (by simp [hpath]) fun _ h => h

theorem scripted_validatePlan :
    Scripted out (PlanAccepted cfg plan) (validatePlan cfg task plan) (validateCalls plan)
      fun _ => True := by
  refine (scripted_validatePolicy.bind fun _ _ => scripted_validateTarget).mono
    ⟨fun h => ?_, fun h => ?_⟩ fun _ h => h
  · exact ⟨h.1.1, h.1.2.1, h.1.2.2, h.2⟩
  · exact ⟨⟨h.fingerprint, h.readOnly, h.noBinaries⟩, h.target⟩

/-! ### The directory of the session -/

theorem isDevice_root : isDevice "/" = false := by decide +kernel

variable (out task) in
theorem scripted_mountReadOnly {source : String} (sessionDir : Path) (h : isDevice source = true) :
    Scripted out True (mountReadOnly task source sessionDir)
      [works (.mkdir (sessionDir ++ ["root"]) 0o700 false false),
        mounts source (sessionDir ++ ["root"])]
      (· = ((sessionDir ++ ["root"]).str, true)) := by
  have hmount : Scripted out True
      ((attempt task (.mount source (sessionDir ++ ["root"]))).bind fun returncode =>
        (require (returncode = 0) (.broker "TERMINAL_TARGET_READ_ONLY_MOUNT_FAILED")).bind
          fun _ => pure ((sessionDir ++ ["root"]).str, true))
      [mounts source (sessionDir ++ ["root"])] (· = ((sessionDir ++ ["root"]).str, true)) := by
    refine scripted_check (a := mounts source (sessionDir ++ ["root"])) (fun _ => rfl)
      (fun (v : Int) hv => ?_) fun (v : Int) hv s => ?_
    · rw [show decide (v = 0) = true from hv]
      exact Proc.scripted_ret _
    · rw [show decide (v = 0) = false from hv]
      exact ⟨_, rfl⟩
  rw [mountReadOnly, h]
  exact (scripted_attempt _).next fun _ _ => hmount

variable (task) in
/-- `is_dir` decides which way the task goes. -/
theorem routed_isDir (path : String) {f : Bool → Task α}
    {yes no : List (List (Ask Res) × α)} (htrue : Routed out (f true) yes)
    (hfalse : Routed out (f false) no) :
    Routed out ((attempt task (.isDir path)).bind f)
      (yes.map (fun r => (findsDir path true :: r.1, r.2)) ++
        no.map fun r => (findsDir path false :: r.1, r.2)) where
  ends s r hr hf := by
    have branch : ∀ b : Bool, exactly b (out.answer s.machine (.isDir path)) = true →
        (attempt task (.isDir path)).serve out.server s = (.ok b,
          { s.note (.called task (.isDir path)) with
            machine := s.machine.after out (.isDir path) }) := by
      intro b hb
      rw [serve_attempt]
      cases hanswer : out.answer s.machine (.isDir path) with
      | error e => simp [hanswer, exactly] at hb
      | ok v =>
        obtain rfl : v = b := by simpa [hanswer, exactly] using hb
        rfl
    rcases List.mem_append.mp hr with hr | hr <;> obtain ⟨r, hmem, rfl⟩ := List.mem_map.mp hr
    · rw [serve_bind_ok (branch true hf.1)]
      exact htrue.ends _ r hmem hf.2
    · rw [serve_bind_ok (branch false hf.1)]
      exact hfalse.ends _ r hmem hf.2
  stops s hnot := by
    cases hanswer : out.answer s.machine (.isDir path) with
    | error e =>
      exact ⟨e, _, [findsDir path true], serve_bind_error (by rw [serve_attempt, hanswer]), rfl⟩
    | ok b =>
      rw [serve_bind_ok (by rw [serve_attempt, hanswer])]
      have hb : exactly b (out.answer s.machine (.isDir path)) = true := by
        simp [hanswer, exactly]
      cases b with
      | true =>
        obtain ⟨e, t, l', hserve, hview⟩ := htrue.stops { s.note (.called task (.isDir path)) with
          machine := s.machine.after out (.isDir path) } fun r hr hf =>
            hnot _ (List.mem_append_left _ (List.mem_map.mpr ⟨r, hr, rfl⟩)) ⟨hb, hf⟩
        exact ⟨e, t, findsDir path true :: l', hserve, hview⟩
      | false =>
        obtain ⟨e, t, l', hserve, hview⟩ := hfalse.stops { s.note (.called task (.isDir path)) with
          machine := s.machine.after out (.isDir path) } fun r hr hf =>
            hnot _ (List.mem_append_right _ (List.mem_map.mpr ⟨r, hr, rfl⟩)) ⟨hb, hf⟩
        exact ⟨e, t, findsDir path false :: l', hserve, hview⟩

variable (out task) in
theorem routed_mountReadOnly (source : String) (sessionDir : Path) :
    Routed out (mountReadOnly task source sessionDir)
      (if isDevice source then [([works (.mkdir (sessionDir ++ ["root"]) 0o700 false false),
        mounts source (sessionDir ++ ["root"])], ((sessionDir ++ ["root"]).str, true))] else []) := by
  cases h : isDevice source with
  | true =>
    exact Proc.Scripted.routed (r := (_, ((sessionDir ++ ["root"]).str, true)))
      (scripted_mountReadOnly out task sessionDir h)
  | false =>
    rw [mountReadOnly, h]
    exact routed_raise _

variable (out) in
theorem routed_pure (a : α) : Routed out (pure a : Task α) [([], a)] :=
  Proc.Scripted.routed (r := ([], a)) (Proc.scripted_ret a)

variable (out task) in
theorem routed_technical (source : String) (sessionDir : Path) :
    Routed out ((attempt task (.isDir source)).bind fun there =>
        if there && source ≠ "/" then pure (source, false) else mountReadOnly task source sessionDir)
      (technicalCalls source sessionDir) := by
  have hmount := routed_mountReadOnly out task source sessionDir
  by_cases hroot : source = "/"
  · subst hroot
    rw [isDevice_root] at hmount
    have hboth := routed_isDir task "/" (f := fun _ => mountReadOnly task "/" sessionDir) hmount hmount
    simpa [technicalCalls, isDevice_root] using hboth
  · have hboth := routed_isDir task source
      (f := fun there => if there && source ≠ "/" then pure (source, false)
        else mountReadOnly task source sessionDir)
      (by simpa [hroot] using routed_pure out (source, false)) (by simpa using hmount)
    have hcalls : technicalCalls source sessionDir =
        [(([] : List (Ask Res)), (source, false))].map (fun r => (findsDir source true :: r.1, r.2)) ++
          (if isDevice source then
            [([works (.mkdir (sessionDir ++ ["root"]) 0o700 false false),
              mounts source (sessionDir ++ ["root"])], ((sessionDir ++ ["root"]).str, true))]
            else []).map fun r => (findsDir source false :: r.1, r.2) := by
      cases h : isDevice source <;> simp [technicalCalls, hroot, h]
    rw [hcalls]
    exact hboth

theorem routed_prepareReadOnlySource (sessionDir : Path) :
    Routed out (prepareReadOnlySource task plan sessionDir) (routes plan sessionDir) := by
  cases htarget : plan.target with
  | none =>
    simp only [prepareReadOnlySource, routes, htarget]
    exact routed_raise _
  | some target =>
    cases hpath : target.technicalPath with
    | none =>
      simp only [prepareReadOnlySource, routes, htarget, ofOption, bind_eq, Proc.bind, hpath]
      exact routed_raise _
    | some path =>
      have htechnical := routed_technical out task (pathText path) sessionDir
      simp only [prepareReadOnlySource, routes, htarget, ofOption, bind_eq, Proc.bind, hpath,
        sourceCalls]
      split
      · exact routed_isDir task (pathText target.mountpoint)
          (f := fun existing => if existing then pure (pathText target.mountpoint, false) else _)
          (routed_pure out _) htechnical
      · exact htechnical

variable (cfg out plan task) in
theorem scripted_writeSessionFiles (source : String × Bool) :
    Scripted out True
      (writeSessionFiles cfg task plan (sessionDirOf cfg plan.sessionId) source)
      (writeCalls cfg plan source) fun _ => True :=
  (scripted_attempt _).next fun _ _ => (scripted_attempt _).next fun _ _ =>
    (scripted_attempt _).next fun _ _ => (scripted_attempt _).next fun _ _ =>
    (scripted_attempt _).next fun _ _ => (scripted_attempt _).next fun _ _ =>
    (scripted_attempt _).next fun _ _ => scripted_attempt _

variable (cfg out plan task) in
theorem scripted_enterSession :
    Scripted out True (enterSession cfg task plan (sessionDirOf cfg plan.sessionId))
      (enterCalls cfg plan) fun _ => True := by
  have hend : ∀ session : TerminalSession, Scripted out True
      ((Proc.modify (State.store session.id session)).bind fun _ => pure session) []
      fun _ => True := fun session =>
    Proc.Scripted.silent fun s => ⟨session, s.store session.id session, rfl, rfl⟩
  have hclock : Scripted out True (reading State.now) [] fun _ => True :=
    Proc.Scripted.silent fun s => ⟨s.now, s, rfl, rfl⟩
  exact (scripted_attempt _).next fun _ _ => (scripted_attempt _).next fun _ _ =>
    hclock.next fun now _ => (scripted_attempt _).next fun _ _ => hend (sessionFor cfg plan now)

variable (cfg out plan task) in
theorem routed_rest :
    ((fillSessionDir cfg task plan (sessionDirOf cfg plan.sessionId)).bind fun _ =>
        enterSession cfg task plan (sessionDirOf cfg plan.sessionId)).Routed State.machine
      out.server out.machine (routes plan (sessionDirOf cfg plan.sessionId))
      (restCalls cfg plan) fun _ _ => True := by
  have hcontrol : Scripted out True (makeControlDir task (sessionDirOf cfg plan.sessionId))
      (controlCalls (sessionDirOf cfg plan.sessionId)) fun _ => True :=
    (scripted_attempt _).next fun _ _ => scripted_chown _
  have hsource : Proc.Routed State.machine out.server out.machine
      ((prepareReadOnlySource task plan (sessionDirOf cfg plan.sessionId)).bind
        (writeSessionFiles cfg task plan (sessionDirOf cfg plan.sessionId)))
      (routes plan (sessionDirOf cfg plan.sessionId))
      (fun r => r.1 ++ writeCalls cfg plan r.2) fun _ _ => True := by
    refine (routed_prepareReadOnlySource _).next fun r _ a ha => ?_
    obtain rfl : a = r.2 := ha
    exact scripted_writeSessionFiles cfg out plan task _
  exact (hcontrol.choose fun _ _ => hsource).next fun _ _ _ _ =>
    scripted_enterSession cfg out plan task

/-! ### The checks -/

variable (cfg out plan g task) in
theorem scripted_checks (before : State) :
    Scripted out (Redeemable cfg before plan g)
      ((Proc.modify (State.pop g.id)).bind fun _ =>
        (require (before.grants g.id = some g && !g.consumed)
          (.broker "TERMINAL_AUTHORIZATION_INVALID")).bind fun _ =>
        (require (before.now < g.expiresAt) (.broker "TERMINAL_AUTHORIZATION_EXPIRED")).bind
          fun _ =>
        (require (g.planId = plan.id && g.planFingerprintSha256 = plan.fingerprintSha256)
          (.broker "TERMINAL_AUTHORIZATION_INVALID")).bind fun _ => validatePlan cfg task plan)
      (validateCalls plan) fun _ => True := by
  have hpop : Scripted out True (Proc.modify (State.pop g.id)) [] fun _ => True :=
    Proc.Scripted.silent fun s => ⟨(), s.pop g.id, rfl, rfl⟩
  refine (hpop.bind fun _ _ => (scripted_require out _ _).bind fun _ _ =>
    (scripted_require out _ _).bind fun _ _ => (scripted_require out _ _).bind fun _ _ =>
    scripted_validatePlan).mono ⟨fun h => ?_, fun h => ?_⟩ fun _ h => h
  · obtain ⟨-, hstored, hexpires, hplan, hvalid⟩ := h
    simp only [Bool.and_eq_true, decide_eq_true_eq, Bool.not_eq_true'] at hstored hexpires hplan
    exact ⟨hstored.1, hstored.2, hexpires, hplan.1, hplan.2, hvalid⟩
  · refine ⟨trivial, ?_, ?_, ?_, h.plan⟩
    · simp [h.stored, h.unused]
    · simp [h.unexpired]
    · simp [h.planId, h.planFingerprint]

theorem Redeemable.of_eq {s s' : State} (h : Redeemable cfg s plan g)
    (hgrants : s.grants = s'.grants) (hnow : s.now = s'.now) : Redeemable cfg s' plan g :=
  ⟨hgrants ▸ h.stored, h.unused, hnow ▸ h.unexpired, h.planId, h.planFingerprint, h.plan⟩

def locked (out : Outside) (task : Nat) (s : State) : State :=
  { s.note (.called task .lock) with machine := s.machine.after out .lock }

theorem serve_redeem {u : Unit} (h : out.answer s.machine .lock = .ok u) :
    (redeem cfg task plan g).serve out.server s =
      ((Proc.modify (State.pop g.id)).bind fun _ =>
        (require ((locked out task s).grants g.id = some g && !g.consumed)
          (.broker "TERMINAL_AUTHORIZATION_INVALID")).bind fun _ =>
        (require ((locked out task s).now < g.expiresAt)
          (.broker "TERMINAL_AUTHORIZATION_EXPIRED")).bind fun _ =>
        (require (g.planId = plan.id && g.planFingerprintSha256 = plan.fingerprintSha256)
          (.broker "TERMINAL_AUTHORIZATION_INVALID")).bind fun _ => validatePlan cfg task plan).serve
        out.server (locked out task s) := by
  have hlock : (lock task).serve out.server s = (.ok u, locked out task s) := by
    rw [lock, serve_attempt, h]
    rfl
  rw [redeem, bind_eq, serve_bind_ok hlock]
  rfl

variable (task) in
theorem serve_redeem_ok (h : Redeemable cfg s plan g)
    (hf : Follows out.machine (checkCalls plan) s.machine) :
    ∃ t, (redeem cfg task plan g).serve out.server s = (.ok (), t) ∧
      t.machine = leave out.machine (checkCalls plan) s.machine := by
  cases hanswer : out.answer s.machine .lock with
  | error e => simp [checkCalls, works, Outside.machine, hanswer, Except.isOk, Except.toBool] at hf
  | ok u =>
    obtain ⟨a, t, hserve, -, hmachine⟩ := (scripted_checks cfg out plan g task (locked out task s)).ends
      (locked out task s) (h.of_eq rfl rfl) hf.2
    exact ⟨t, (serve_redeem hanswer).trans hserve, hmachine⟩

variable (task) in
theorem serve_redeem_error
    (h : ¬(Redeemable cfg s plan g ∧ Follows out.machine (checkCalls plan) s.machine)) :
    ∃ e t l, (redeem cfg task plan g).serve out.server s = (.error e, t) ∧ l <+: checkCalls plan ∧
      t.machine = leave out.machine l s.machine := by
  cases hanswer : out.answer s.machine .lock with
  | error e =>
    refine ⟨e, locked out task s, [works .lock], ?_, List.cons_prefix_cons.mpr
      ⟨rfl, List.nil_prefix⟩, rfl⟩
    rw [redeem, bind_eq, serve_bind_error (by rw [lock, serve_attempt, hanswer])]
    rfl
  | ok u =>
    have hlock : (works Op.lock).accepts (out.machine .lock s.machine).1 = true := by
      simp [works, Outside.machine, hanswer, Except.isOk, Except.toBool]
    obtain ⟨e, t, l, hserve, hfront, hmachine⟩ :=
      (scripted_checks cfg out plan g task (locked out task s)).stops (locked out task s) fun hboth =>
        h ⟨hboth.1.of_eq rfl rfl, hlock, hboth.2⟩
    exact ⟨e, t, works .lock :: l, (serve_redeem hanswer).trans hserve,
      List.cons_prefix_cons.mpr ⟨rfl, hfront⟩, hmachine⟩

end Scripts

/-! ### What a start leaves -/

def SameFiles (m m' : Machine) : Prop :=
  m'.directories = m.directories ∧ m'.files = m.files ∧ m'.mounted = m.mounted

section Leaves

variable {cfg out s plan g} {task : Nat}

theorem SameFiles.present {m m' : Machine} (h : SameFiles m m') (q : Path) :
    m'.present q = m.present q := by
  rw [Machine.present, h.1, h.2.1]
  rfl

variable (out) in
theorem sameFiles_checks {l : List (Ask Res)} (hl : l <+: checkCalls plan) (m : Machine) :
    SameFiles m (leave out.machine l m) := by
  refine leave_keeps (P := SameFiles m) (fun a ha m' hm' => ?_) ⟨rfl, rfl, rfl⟩
  have hop : a.op = .lock ∨ a.op = .isDir (sourceOf plan) := by
    have hmem := hl.subset ha
    simp only [checkCalls, validateCalls, List.mem_cons] at hmem
    rcases hmem with rfl | hmem
    · exact .inl rfl
    · split at hmem
      · cases hmem
      · obtain rfl := List.mem_singleton.mp hmem
        exact .inr rfl
  rcases hop with hop | hop <;> rw [hop]
  all_goals
    simp only [Outside.machine, Machine.after]
    split <;> exact hm'

theorem sameFiles_mkdir {path : Path} {mode : Nat} {parents existOk : Bool} {m : Machine} {e : Error}
    (h : out.answer m (.mkdir path mode parents existOk) = .error e) :
    SameFiles m (m.after out (.mkdir path mode parents existOk)) := by
  simp [Machine.after, Outside.effective, h, Except.isOk, Except.toBool, SameFiles]

theorem directories_mkdir {path : Path} {mode : Nat} {parents existOk : Bool} {m : Machine} {u : Unit}
    (h : out.answer m (.mkdir path mode parents existOk) = .ok u) :
    (m.after out (.mkdir path mode parents existOk)).directories path = true := by
  have hself : path.isPrefixOf path = true := List.isPrefixOf_iff_prefix.mpr (List.prefix_refl _)
  cases parents <;>
    simp [Machine.after, Outside.effective, h, Except.isOk, Except.toBool, hself]

theorem directories_leave {q : Path} {l : List (Ask Res)} {m : Machine}
    (h : m.directories q = true) : (leave out.machine l m).directories q = true := by
  refine leave_keeps (P := fun m : Machine => m.directories q = true) (fun a _ m' hm' => ?_) h
  simp only [Outside.machine, Machine.after]
  split
  · split <;> simp [hm']
  · exact hm'

theorem sessions_of_ok {session : TerminalSession} {t : State}
    (h : (start cfg task plan g).serve out.server s = (.ok session, t)) :
    t.sessions plan.sessionId = some session := by
  obtain ⟨_, _, -, h⟩ := serve_bind_eq_ok h
  obtain ⟨_, _, -, h⟩ := serve_bind_eq_ok h
  obtain ⟨sessionDir, _, -, h⟩ := serve_bind_eq_ok h
  obtain ⟨_, _, -, h⟩ := serve_bind_eq_ok h
  obtain ⟨_, _, -, h⟩ := serve_bind_eq_ok h
  obtain ⟨now, _, -, h⟩ := serve_bind_eq_ok h
  obtain ⟨_, t', -, h⟩ := serve_bind_eq_ok h
  have hend : (Except.ok (sessionFor cfg plan now),
      t'.store plan.sessionId (sessionFor cfg plan now)) = (Except.ok session, t) := h
  obtain ⟨hsession, rfl⟩ := Prod.mk.inj hend
  rw [← Except.ok.inj hsession]
  exact Function.update_self _ _ _

variable (cfg out plan g task) in
theorem serve_start_redeemed {t : State}
    (h : (redeem cfg task plan g).serve out.server s = (.ok (), t)) :
    (start cfg task plan g).serve out.server s =
      ((attempt task (.mkdir (sessionDirOf cfg plan.sessionId) 0o700 true false)).bind fun _ =>
        (fillSessionDir cfg task plan (sessionDirOf cfg plan.sessionId)).bind fun _ =>
          enterSession cfg task plan (sessionDirOf cfg plan.sessionId)).serve out.server
        (t.note (.starting task plan.sessionId)) := by
  rw [start, bind_eq, serve_bind_ok h]
  simp only [prepareSessionDir, bind_eq, Proc.bind_assoc]
  rfl

variable (task) in
theorem serve_start_unprepared (h : ¬Prepares cfg out s plan g) :
    ∃ e t, (start cfg task plan g).serve out.server s = (.error e, t) ∧
      SameFiles s.machine t.machine := by
  by_cases hchecks : Redeemable cfg s plan g ∧ Follows out.machine (checkCalls plan) s.machine
  · obtain ⟨t, hserve, hmachine⟩ := serve_redeem_ok task hchecks.1 hchecks.2
    have hsame := sameFiles_checks out (List.prefix_refl (checkCalls plan)) s.machine
    rw [← hmachine] at hsame
    rw [serve_start_redeemed cfg out plan g task hserve]
    cases hmkdir : out.answer t.machine (.mkdir (sessionDirOf cfg plan.sessionId) 0o700 true false) with
    | ok u =>
      refine absurd ⟨hchecks.1, follows_append.mpr ⟨hchecks.2, ?_, trivial⟩⟩ h
      rw [← hmachine]
      simp [makesDir, works, Outside.machine, hmkdir, Except.isOk, Except.toBool]
    | error e =>
      refine ⟨e, _, serve_bind_error (by rw [serve_attempt]; exact congrArg (·, _) hmkdir), ?_⟩
      obtain ⟨hd, hf, hm⟩ := sameFiles_mkdir hmkdir
      exact ⟨hd.trans hsame.1, hf.trans hsame.2.1, hm.trans hsame.2.2⟩
  · obtain ⟨e, t, l, hserve, hfront, hmachine⟩ := serve_redeem_error task hchecks
    refine ⟨e, t, serve_bind_error hserve, ?_⟩
    rw [hmachine]
    exact sameFiles_checks out hfront _

variable (cfg out plan task) in
def made (t : State) : State :=
  { (t.note (.starting task plan.sessionId)).note
      (.called task (.mkdir (sessionDirOf cfg plan.sessionId) 0o700 true false)) with
    machine := t.machine.after out (.mkdir (sessionDirOf cfg plan.sessionId) 0o700 true false) }

variable (task) in
/-- A start that makes the directory either does all that comes after it, or stops with the directory
in place. -/
theorem serve_start_prepared (h : Prepares cfg out s plan g) :
    (Completes cfg out s plan g ∧
      ∃ session t, (start cfg task plan g).serve out.server s = (.ok session, t)) ∨
    (¬Completes cfg out s plan g ∧ ∃ e t, (start cfg task plan g).serve out.server s = (.error e, t) ∧
      t.machine.directories (sessionDirOf cfg plan.sessionId) = true) := by
  obtain ⟨hredeemable, hfollows⟩ := h
  obtain ⟨hchecks, hmkdir, -⟩ := follows_append.mp hfollows
  obtain ⟨t, hserve, hmachine⟩ := serve_redeem_ok task hredeemable hchecks
  rw [serve_start_redeemed cfg out plan g task hserve]
  rw [← hmachine] at hmkdir
  cases hanswer : out.answer t.machine (.mkdir (sessionDirOf cfg plan.sessionId) 0o700 true false) with
  | error e =>
    simp [makesDir, works, Outside.machine, hanswer, Except.isOk, Except.toBool] at hmkdir
  | ok u =>
    have hmade := directories_mkdir hanswer
    have hleave : (made cfg out plan task t).machine =
        leave out.machine (checkCalls plan ++ [makesDir cfg plan]) s.machine := by
      rw [leave_append, ← hmachine]
      rfl
    have hattempt : (attempt task (.mkdir (sessionDirOf cfg plan.sessionId) 0o700 true false)).serve
        out.server (t.note (.starting task plan.sessionId)) = (.ok u, made cfg out plan task t) := by
      rw [serve_attempt]
      exact congrArg (·, made cfg out plan task t) hanswer
    rw [serve_bind_ok hattempt]
    have hrest := routed_rest cfg out plan task
    by_cases hroute : ∃ r ∈ routes plan (sessionDirOf cfg plan.sessionId),
        Follows out.machine (restCalls cfg plan r) (made cfg out plan task t).machine
    · obtain ⟨r, hr, hf⟩ := hroute
      obtain ⟨session, t', hok, -, -⟩ := hrest.ends _ r hr hf
      refine .inl ⟨⟨hredeemable, r, hr, follows_append.mpr ⟨hfollows, ?_⟩⟩, session, t', hok⟩
      rwa [hleave] at hf
    · obtain ⟨e, t', l, herror, hview⟩ := hrest.stops _ fun r hr hf => hroute ⟨r, hr, hf⟩
      refine .inr ⟨fun hcompletes => hroute ?_, e, t', herror, ?_⟩
      · obtain ⟨-, r, hr, hf⟩ := hcompletes
        exact ⟨r, hr, by rw [hleave]; exact (follows_append.mp hf).2⟩
      · rw [hview]
        exact directories_leave hmade

end Leaves

/-- A start leaves nothing behind exactly when every step of it goes well, or when it comes to its end
before it makes the directory of the session and finds no directory and no request of that name. -/
theorem leaves_nothing_iff (cfg : Config) (out : Outside) (task : Nat) (s : State)
    (plan : TerminalPlan) (g : TerminalAuthorizationGrant) :
    LeavesNothing cfg plan s.machine ((start cfg task plan g).serve out.server s) ↔
      Completes cfg out s plan g ∨ (¬Prepares cfg out s plan g ∧
        s.machine.present (sessionDirOf cfg plan.sessionId) = false ∧
        s.machine.present (guiRequestOf cfg plan.sessionId) = false) := by
  have hprepares : Completes cfg out s plan g → Prepares cfg out s plan g := fun hcompletes =>
    let ⟨hredeemable, _, _, hf⟩ := hcompletes
    ⟨hredeemable, (follows_append.mp hf).1⟩
  by_cases h : Prepares cfg out s plan g
  · obtain ⟨hcompletes, session, t, hserve⟩ | ⟨hnot, e, t, hserve, hdir⟩ :=
      serve_start_prepared task h
    · rw [hserve]
      exact ⟨fun _ => .inl hcompletes, fun _ => sessions_of_ok hserve⟩
    · rw [hserve]
      refine ⟨fun hleaves => ?_, fun hcond => ?_⟩
      · have habsent := hleaves.2.1
        simp [Machine.present, hdir] at habsent
      · rcases hcond with hcompletes | ⟨hunprepared, -⟩
        · exact absurd hcompletes hnot
        · exact absurd h hunprepared
  · obtain ⟨e, t, hserve, hsame⟩ := serve_start_unprepared task h
    rw [hserve, LeavesNothing, hsame.present, hsame.present, hsame.2.2]
    constructor
    · exact fun hleaves => .inr ⟨h, hleaves.2⟩
    · rintro (hcompletes | ⟨-, habsent⟩)
      · exact absurd (hprepares hcompletes) h
      · exact ⟨fun _ hq => hq, habsent⟩

/-! ### A mount that fails -/

def failingMount : Outside where
  answer _ o := match o with
    | .mount _ _ => .ok 32
    | o => sampleAnswer o
  leaves _ _ := false

/-- The broker after the authorization of the sample plan. -/
def authorizedState : State :=
  { State.start 0 emptyMachine with
    grants := Function.update (fun _ => none) "" (some (grantFor samplePlan "" 0)) }

set_option maxRecDepth 20000 in
/-- A start whose mount fails leaves the directory of the session. -/
theorem failed_mount_leaves_directory :
    ¬∀ (cfg : Config) (out : Outside) (task : Nat) (s : State) (plan : TerminalPlan)
      (g : TerminalAuthorizationGrant),
      LeavesNothing cfg plan s.machine ((start cfg task plan g).serve out.server s) := by
  intro claim
  have hleaves := claim sampleConfig failingMount 0 authorizedState samplePlan
    (grantFor samplePlan "" 0)
  have herror : ((start sampleConfig 0 samplePlan (grantFor samplePlan "" 0)).serve
      failingMount.server authorizedState).1.isOk = false := by decide +kernel
  have hdir : ((start sampleConfig 0 samplePlan (grantFor samplePlan "" 0)).serve
      failingMount.server authorizedState).2.machine.present
        (sessionDirOf sampleConfig samplePlan.sessionId) = true := by decide +kernel
  generalize (start sampleConfig 0 samplePlan (grantFor samplePlan "" 0)).serve
    failingMount.server authorizedState = outcome at *
  obtain ⟨r, t⟩ := outcome
  cases r with
  | ok session => cases herror
  | error e => exact absurd (hdir.symm.trans hleaves.2.1) (by decide)

end Ares.TerminalBroker
