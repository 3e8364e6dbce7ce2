import Ares.Agent.Copies
import Ares.Coop.Journal

/-! The agent stays inside its authorization.  `Confined` says, for each event, what came before it:
a run that a call goes on with has the steps of a plan and an authorization that was granted to it,
and a capability is started under such an authorization, once, and behind the storage analysis. -/

namespace Ares.Agent

open Coop Data Storage

def Event.task : Event → Nat
  | .received t _ | .found t _ _ | .catalogued t _ | .granted t _ | .stored t _ | .started t _ _
  | .finished t _ _ => t

instance : Tasked Event := ⟨Event.task⟩

/-- A call has granted the authorization `a` to its run, after the exact phrase was given. -/
def Granted (h : List Event) (runId : String) (a : ReadOnlyAuthorization) : Prop :=
  a.runId = runId ∧ ∃ task past payload sessionId operator,
    (.granted task a :: past) <:+ h ∧
    .received task (.authorizeReadOnly runId payload sessionId operator) ∈ past ∧
    payload.confirmed = true

/-- The authorization of a run lists the steps of the run, and it was granted to the run. -/
structure Entitled (h : List Event) (run : AgentRun) (a : ReadOnlyAuthorization) : Prop where
  granted : Granted h run.id { a with consumed := false }
  stepIds : a.stepIds = run.shapes.map (·.id)
  capabilityIds : a.capabilityIds = run.shapes.filterMap (·.capabilityId)

structure Sound (h : List Event) (run : AgentRun) : Prop where
  planned : Planned run.shapes
  entitled : ∀ a, run.authorization = some a → Entitled h run a

/-- The call `task` has found an authorization valid: it has read the run with the authorization,
which was granted before, was not consumed and had not expired, and the plan of the run is the
authorized one under the resources of the catalog. -/
structure Valid (cfg : Config) (task : Nat) (h : List Event) (run : AgentRun)
    (a : ReadOnlyAuthorization) : Prop where
  found : ∃ now before, (.found task now run :: before) <:+ h ∧ Sound before run ∧
    now < a.expiresAt
  authorization : run.authorization = some a
  unconsumed : a.consumed = false
  fingerprint : ∃ resources, .catalogued task resources ∈ h ∧
    a.planFingerprint = runFingerprint cfg run (selectResource resources run.selectedResourceId)

/-- What comes before the start of a capability. -/
structure Permitted (cfg : Config) (task : Nat) (runId c : String) (past : List Event) :
    Prop where
  diagnostic : c ∈ diagnostics
  valid : ∃ run a, run.id = runId ∧ Valid cfg task past run a ∧ Granted past runId a ∧
    c ∈ a.capabilityIds ∧ ∃ step ∈ run.steps, step.capabilityId = some c ∧ step.id ∈ a.stepIds
  once : ∀ runId', .started task runId' c ∉ past
  first : c ≠ diskAnalysis → .finished task diskAnalysis true ∈ past
  unfailed : .finished task diskAnalysis false ∉ past

def Confined (cfg : Config) : Event → List Event → Prop
  | .found _ _ run, past => Sound past run
  | .started task runId c, past => Permitted cfg task runId c past
  | _, _ => True

theorem Granted.suffix {h h' : List Event} {runId : String} {a : ReadOnlyAuthorization}
    (hg : Granted h runId a) (hs : h <:+ h') : Granted h' runId a := by
  obtain ⟨hid, task, past, payload, sessionId, operator, hgranted, hrest⟩ := hg
  exact ⟨hid, task, past, payload, sessionId, operator, hgranted.trans hs, hrest⟩

theorem Sound.suffix {h h' : List Event} {run : AgentRun} (hr : Sound h run) (hs : h <:+ h') :
    Sound h' run :=
  ⟨hr.planned, fun a ha => { hr.entitled a ha with
    granted := (hr.entitled a ha).granted.suffix hs }⟩

theorem Sound.copy {h : List Event} {run run' : AgentRun} (hr : Sound h run)
    (hid : run'.id = run.id) (hshapes : run'.shapes = run.shapes)
    (hauth : ∀ a', run'.authorization = some a' →
      ∃ a, run.authorization = some a ∧ { a' with consumed := a.consumed } = a) : Sound h run' where
  planned := hshapes ▸ hr.planned
  entitled a' ha' := by
    obtain ⟨a, ha, heq⟩ := hauth a' ha'
    obtain ⟨hgranted, hsteps, hcaps⟩ := hr.entitled a ha
    refine ⟨?_, ?_, ?_⟩
    · rw [hid, ← show ({ a with consumed := false } : ReadOnlyAuthorization) =
        { a' with consumed := false } from by rw [← heq]]
      exact hgranted
    · rw [hshapes, ← hsteps, ← heq]
    · rw [hshapes, ← hcaps, ← heq]

/-- The state that the invariant ties to the history. -/
structure Inv (cfg : Config) (s : State) : Prop where
  confined : Always (Confined cfg) s.history
  stored : ∀ k run, s.runs k = some run → run.id = k ∧ Sound s.history run

abbrev Rely := Kept State.history

def Guar (j : Nat) (s s' : State) : Prop := ∀ k, k ≠ j → Kept State.history k s s'

def logic (cfg : Config) (j : Nat) : Logic State Res :=
  ⟨Inv cfg, Rely j, Guar j, (system cfg).answers⟩

section Steps

variable {cfg : Config} {j : Nat} {s : State} {e : Event} {run : AgentRun}

theorem guar_note (he : Event.task e = j) : Guar j s (s.note e) := by
  intro k hk
  have hnoted : Noted State.history j s (s.note e) := ⟨e, he, rfl⟩
  exact hnoted.kept hk.symm

theorem guar_store : Guar j s (s.store j run) := by
  intro k hk
  have hnoted : Noted State.history j s (s.store j run) := ⟨.stored j run, rfl, rfl⟩
  exact hnoted.kept hk.symm

theorem own_note (he : Event.task e = j) : own j (s.note e).history = e :: own j s.history :=
  own_cons_self _ he

theorem guar_same {s' : State} (hs : s'.history = s.history) : Guar j s s' := by
  intro k _
  rw [Kept, hs]
  exact ⟨List.suffix_refl _, rfl⟩

theorem Inv.same {s' : State} (hi : Inv cfg s) (hh : s'.history = s.history)
    (hruns : s'.runs = s.runs) : Inv cfg s' :=
  ⟨hh ▸ hi.confined, fun k run hrun => hh ▸ hi.stored k run (hruns ▸ hrun)⟩

theorem Inv.note (hi : Inv cfg s) (he : Confined cfg e s.history) : Inv cfg (s.note e) :=
  ⟨⟨he, hi.confined⟩, fun k run hrun =>
    ⟨(hi.stored k run hrun).1, (hi.stored k run hrun).2.suffix (List.suffix_cons _ _)⟩⟩

theorem Inv.store (hi : Inv cfg s) (hr : Sound s.history run) : Inv cfg (s.store j run) := by
  refine ⟨⟨trivial, hi.confined⟩, fun k run' hrun => ?_⟩
  have hgrown : s.history <:+ (s.store j run).history := List.suffix_cons _ _
  by_cases hk : k = run.id
  · subst hk
    obtain rfl : run = run' := by simpa [State.store] using hrun
    exact ⟨rfl, hr.suffix hgrown⟩
  · have hold : s.runs k = some run' := by simpa [State.store, hk] using hrun
    exact ⟨(hi.stored k run' hold).1, (hi.stored k run' hold).2.suffix hgrown⟩

end Steps

/-! ### The calls -/

def Event.Idle : Event → Prop
  | .started _ _ _ | .finished _ _ _ => False
  | _ => True

section Calls

variable {cfg : Config} {j : Nat} {s : State} {run : AgentRun} {P : State → Prop}
  (hP : Stable State.history j Event.Idle P)

include hP

theorem attempt_keeps (c : Call) : (attempt c).Keeps (logic cfg j) P :=
  quiet_attempt.keeps fun _ _ hr h => hP.rely h hr

theorem silent_keeps (f : State → State) (hh : ∀ s, (f s).history = s.history)
    (hruns : ∀ s, (f s).runs = s.runs) :
    (Proc.modify f : Task Unit).Keeps (logic cfg j) P :=
  keeps_modify fun s hi hs => ⟨guar_same (hh s), hi.same (hh s) (hruns s),
    hP.rely hs ⟨by rw [hh], by rw [hh]⟩⟩

theorem put_keeps (hr : ∀ s, P s → Sound s.history run) :
    (put j run).Keeps (logic cfg j) P := by
  refine (attempt_keeps hP _).bind fun _ => ?_
  refine Proc.Keeps.bind (quiet_perform.keeps fun _ _ hr h => hP.rely h hr) fun written => ?_
  refine Proc.Keeps.bind ?_ fun _ => (attempt_keeps hP _).bind fun _ =>
    quiet_require.keeps fun _ _ hr h => hP.rely h hr
  cases written with
  | false => exact keeps_ret ()
  | true => exact keeps_modify fun s hi hs =>
      ⟨guar_store, hi.store (hr s hs), hP.note (e := .stored j run) hs rfl trivial rfl⟩

theorem invalidate_keeps (reason : String) (hr : ∀ s, P s → Sound s.history run) :
    (invalidate j run reason).Keeps (logic cfg j) P := by
  intro s hi hs
  refine (Proc.Keeps.bind (put_keeps hP fun s hs => ?_) fun _ =>
    (attempt_keeps hP _).bind fun _ => keeps_ret _) s hi hs
  exact (hr s hs).copy rfl (by simp) fun a' ha' => ⟨a', ha', rfl⟩

theorem catalog_spec (request : Request) (run : Option AgentRun) (hi : Inv cfg s) (hs : P s) :
    (catalog j request run).Spec (logic cfg j)
      (fun resources s' => Inv cfg s' ∧ P s' ∧ .catalogued j resources ∈ s'.history)
      (fun _ s' => Inv cfg s' ∧ P s') s := by
  refine (attempt_keeps hP _).spec_bind hi hs (fun resources s' hi' hs' => ?_)
    fun _ s' hi' hs' => ⟨hi', hs'⟩
  exact ⟨guar_note rfl, hi'.note trivial, hi'.note trivial,
    hP.note (e := .catalogued j resources) hs' rfl trivial rfl, List.mem_cons_self⟩

theorem required_spec (request : Request) (runId : String) (hi : Inv cfg s) (hs : P s) :
    (required cfg j request runId).Spec (logic cfg j)
      (fun run s' => Inv cfg s' ∧ P s' ∧ run.id = runId ∧
        ∃ before, (.found j s'.now run :: before) <:+ s'.history ∧ Sound before run)
      (fun _ s' => Inv cfg s' ∧ P s') s := by
  have hget : (get cfg j request runId).Spec (logic cfg j)
      (fun found s' => Inv cfg s' ∧ P s' ∧
        ∀ run, found = some run → run.id = runId ∧ Sound s'.history run)
      (fun _ s' => Inv cfg s' ∧ P s') s := by
    unfold get
    split
    · refine (attempt_keeps hP _).spec_bind hi hs (fun _ s1 hi1 hs1 => ?_)
        fun _ s' hi' hs' => ⟨hi', hs'⟩
      refine spec_bind.mpr (Proc.Spec.mono (Q := fun found s' => Inv cfg s' ∧ P s' ∧
        ∀ run, found = some run → run.id = runId ∧ Sound s'.history run)
        (E := fun _ s' => Inv cfg s' ∧ P s') ?_ (fun found s2 h2 => ?_) fun _ _ h => h)
      · refine (attempt_keeps hP _).spec_bind hi1 hs1 (fun readable s2 hi2 hs2 => ?_)
          fun _ s' hi' hs' => ⟨hi', hs'⟩
        cases readable with
        | false => exact ⟨hi2, hs2, fun _ h => nomatch h⟩
        | true =>
          have hi3 : Inv cfg (s2.read j request runId) := hi2.same rfl rfl
          exact ⟨guar_same rfl, hi3, hi3, hP.rely hs2 ⟨List.suffix_refl _, rfl⟩,
            fun run hrun => hi2.stored runId run hrun⟩
      · obtain ⟨hi2, hs2, hfound⟩ := h2
        refine (attempt_keeps (hP.and (Stable.of_suffix (P := fun h =>
          ∀ run, found = some run → run.id = runId ∧ Sound h run) fun l l' h hsuffix run hrun =>
            ⟨(h run hrun).1, (h run hrun).2.suffix hsuffix⟩)) _).spec_bind hi2 ⟨hs2, hfound⟩ ?_ ?_
        · exact fun _ s3 hi3 h3 => ⟨hi3, h3.1, h3.2⟩
        · exact fun _ s3 hi3 h3 => ⟨hi3, h3.1⟩
    · exact ⟨hi, hs, fun _ h => nomatch h⟩
  refine spec_bind.mpr (hget.mono (fun found s1 h1 => ?_) fun _ _ h => h)
  obtain ⟨hi1, hs1, hfound⟩ := h1
  cases found with
  | none => exact ⟨hi1, hs1⟩
  | some run =>
    obtain ⟨hid, hr⟩ := hfound run rfl
    exact ⟨guar_note rfl, hi1.note hr, hi1.note hr,
      hP.note (e := .found j s1.now run) hs1 rfl trivial rfl, hid, _, List.suffix_refl _, hr⟩

end Calls

/-! ### The diagnostics -/

/-- The events of a call whose loop has the steps of the capabilities `cs` behind it. -/
structure Behind (j : Nat) (cs : List (Option String)) (storageFailed : Bool) (l : List Event) :
    Prop where
  started : ∀ runId c, .started j runId c ∈ l → some c ∈ cs
  unfailed : storageFailed = false → .finished j diskAnalysis false ∉ l
  collected : cs ≠ [] → storageFailed = false → .finished j diskAnalysis true ∈ l

/-- The same, while the capability `c` runs. -/
structure Amid (j : Nat) (cs : List (Option String)) (c : String) (l : List Event) : Prop where
  started : ∀ runId c', .started j runId c' ∈ l → some c' ∈ cs ++ [some c]
  unfailed : .finished j diskAnalysis false ∉ l
  collected : c ≠ diskAnalysis → .finished j diskAnalysis true ∈ l

theorem Valid.suffix {cfg : Config} {j : Nat} {h h' : List Event} {run : AgentRun}
    {a : ReadOnlyAuthorization} (hv : Valid cfg j h run a) (hs : h <:+ h') :
    Valid cfg j h' run a where
  found :=
    let ⟨now, before, hfound, hrest⟩ := hv.found
    ⟨now, before, hfound.trans hs, hrest⟩
  authorization := hv.authorization
  unconsumed := hv.unconsumed
  fingerprint :=
    let ⟨resources, hmem, heq⟩ := hv.fingerprint
    ⟨resources, hs.subset hmem, heq⟩

theorem Valid.sound {cfg : Config} {j : Nat} {h : List Event} {run : AgentRun}
    {a : ReadOnlyAuthorization} (hv : Valid cfg j h run a) : Sound h run :=
  let ⟨_, _, hfound, hsound, _⟩ := hv.found
  hsound.suffix ((List.suffix_cons _ _).trans hfound)

section Diagnostics

variable {cfg : Config} {j : Nat} {s : State} {run : AgentRun} {a : ReadOnlyAuthorization}
  {cs : List (Option String)} {c : String} {failed : Bool}

theorem Behind.idle {e : Event} {l : List Event} (h : Behind j cs failed l) (he : e.Idle) :
    Behind j cs failed (e :: l) := by
  have hmem : ∀ e', ¬e'.Idle → (e' ∈ e :: l ↔ e' ∈ l) := fun e' hn => by
    rw [List.mem_cons, or_iff_right]
    rintro rfl
    exact hn he
  refine ⟨fun runId c hc => h.started runId c ((hmem _ id).mp hc), fun hf hc => ?_,
    fun hcs hf => (hmem _ id).mpr (h.collected hcs hf)⟩
  exact h.unfailed hf ((hmem _ id).mp hc)

theorem Amid.idle {e : Event} {l : List Event} (h : Amid j cs c l) (he : e.Idle) :
    Amid j cs c (e :: l) := by
  have hmem : ∀ e', ¬e'.Idle → (e' ∈ e :: l ↔ e' ∈ l) := fun e' hn => by
    rw [List.mem_cons, or_iff_right]
    rintro rfl
    exact hn he
  exact ⟨fun runId c hc => h.started runId c ((hmem _ id).mp hc),
    fun hc => h.unfailed ((hmem _ id).mp hc), fun hne => (hmem _ id).mpr (h.collected hne)⟩

/-- A call with a valid authorization and the steps of `cs` behind it. -/
def Underway (cfg : Config) (j : Nat) (run : AgentRun) (a : ReadOnlyAuthorization)
    (cs : List (Option String)) (failed : Bool) (s : State) : Prop :=
  Valid cfg j s.history run a ∧ Behind j cs failed (own j s.history)

theorem underway_stable (cfg : Config) (j : Nat) (run : AgentRun) (a : ReadOnlyAuthorization)
    (cs : List (Option String)) (failed : Bool) :
    Stable State.history j Event.Idle (Underway cfg j run a cs failed) :=
  (Stable.of_suffix fun _ _ h hs => Valid.suffix h hs).and
    (Stable.of_own fun _ _ h he => Behind.idle h he)

theorem amid_stable (cfg : Config) (j : Nat) (run : AgentRun) (a : ReadOnlyAuthorization)
    (cs : List (Option String)) (c : String) :
    Stable State.history j Event.Idle fun s =>
      Valid cfg j s.history run a ∧ Amid j cs c (own j s.history) :=
  (Stable.of_suffix fun _ _ h hs => Valid.suffix h hs).and
    (Stable.of_own fun _ _ h he => Amid.idle h he)

theorem permitted (hu : Underway cfg j run a cs false s) {shape : Shape}
    (hshape : shape ∈ run.shapes) (hc : shape.capabilityId = some c) (hnew : some c ∉ cs)
    (hfirst : c ≠ diskAnalysis → cs ≠ []) : Permitted cfg j run.id c s.history := by
  obtain ⟨hv, hb⟩ := hu
  have hent := hv.sound.entitled a hv.authorization
  obtain ⟨c', hc', heq⟩ := hv.sound.planned.diagnostic _ hshape
  obtain rfl : c = c' := Option.some.inj (hc.symm.trans heq)
  have hgranted := hent.granted
  rw [← hv.unconsumed] at hgranted
  obtain ⟨step, hstep, rfl⟩ := List.mem_map.mp hshape
  refine ⟨hc', ⟨run, a, rfl, hv, hgranted, ?_, step, hstep, hc, ?_⟩, fun runId h => ?_,
    fun hne => mem_of_mem_own (hb.collected (hfirst hne) rfl), fun h => hb.unfailed rfl (mem_own h)⟩
  · rw [hent.capabilityIds]
    exact List.mem_filterMap.mpr ⟨_, hshape, hc⟩
  · rw [hent.stepIds]
    exact List.mem_map_of_mem (f := Shape.id) hshape
  · exact hnew (hb.started runId c (mem_own h))

/-- One step of the loop. -/
theorem runStep_spec {running : AgentRun} {step : AgentPlanStep} {index : Nat} {p : Progress}
    (hi : Inv cfg s) (hu : Underway cfg j run a cs false s) (hp : p.storageFailed = false)
    (hid : running.id = run.id) (hpermitted : Permitted cfg j run.id c s.history)
    (hfirst : c ≠ diskAnalysis → cs ≠ [])
    (hshape : (p.steps.map AgentPlanStep.shape)[index]? = some step.shape) :
    (runStep j running index step c p).Spec (logic cfg j)
      (fun p' s' => Inv cfg s' ∧ Underway cfg j run a (cs ++ [some c]) p'.storageFailed s' ∧
        p'.steps.map AgentPlanStep.shape = p.steps.map AgentPlanStep.shape)
      (fun _ s' => Inv cfg s') s := by
  let Amidst (s : State) : Prop := Valid cfg j s.history run a ∧ Amid j cs c (own j s.history)
  have hkeep := amid_stable cfg j run a cs c
  have hstart : Inv cfg (s.note (.started j running.id c)) ∧
      Amidst (s.note (.started j running.id c)) := by
    refine ⟨hi.note (hid ▸ hpermitted), hu.1.suffix (List.suffix_cons _ _), ?_⟩
    rw [own_note (j := j) (e := .started j running.id c) rfl]
    refine ⟨fun runId c' h => ?_, fun h => ?_, fun hne => ?_⟩
    · rcases List.mem_cons.mp h with heq | h
      · injection heq with _ _ heq
        simp [heq]
      · exact List.mem_append_left _ (hu.2.started runId c' h)
    · exact hu.2.unfailed rfl ((List.mem_cons.mp h).resolve_left (by simp))
    · exact List.mem_cons_of_mem _ (hu.2.collected (hfirst hne) rfl)
  have hinvoke : (invoke j running c p).Spec (logic cfg j)
      (fun r s' => (Inv cfg s' ∧ Amidst s') ∧ r.1.steps = p.steps ∧ r.1.storageFailed = false)
      (fun _ s' => Inv cfg s' ∧ Amidst s') s := by
    rw [invoke, spec_do, spec_modify]
    refine ⟨guar_note rfl, hstart.1, ?_⟩
    split
    · exact (attempt_keeps hkeep _).spec_bind hstart.1 hstart.2
        (fun _ s' hi' hs' => ⟨⟨hi', hs'⟩, rfl, hp⟩) fun _ s' hi' hs' => ⟨hi', hs'⟩
    · refine (attempt_keeps hkeep _).spec_bind hstart.1 hstart.2 (fun execution s' hi' hs' => ?_)
        fun _ s' hi' hs' => ⟨hi', hs'⟩
      cases execution.succeeded with
      | error e => exact ⟨hi', hs'⟩
      | ok result => exact ⟨⟨hi', hs'⟩, rfl, hp⟩
  have hfinish : ∀ {s'} (b : Bool) (p' : Progress), Inv cfg s' → Amidst s' →
      p'.storageFailed = (!b && decide (c = diskAnalysis)) →
      Inv cfg (s'.note (.finished j c b)) ∧
        Underway cfg j run a (cs ++ [some c]) p'.storageFailed (s'.note (.finished j c b)) := by
    intro s' b p' hi' hs' hp'
    refine ⟨hi'.note trivial, hs'.1.suffix (List.suffix_cons _ _), ?_⟩
    rw [own_note (j := j) (e := .finished j c b) rfl, hp']
    refine ⟨fun runId c' h => hs'.2.started runId c' ((List.mem_cons.mp h).resolve_left (by simp)),
      fun hf h => ?_, fun _ hf => ?_⟩
    · rcases List.mem_cons.mp h with heq | h
      · injection heq with _ hc hb
        simp [← hb, ← hc] at hf
      · exact hs'.2.unfailed h
    · by_cases hc : c = diskAnalysis
      · have hb : b = true := by simpa [hc] using hf
        subst hc hb
        exact List.mem_cons_self
      · exact List.mem_cons_of_mem _ (hs'.2.collected hc)
  rw [runStep, spec_do, spec_observe]
  refine hinvoke.mono (fun r s' h => ?_) fun e s' h => ?_
  · obtain ⟨⟨hi', hs'⟩, hsteps, hfailed⟩ := h
    obtain ⟨hi2, hu2⟩ := hfinish true (r.1.succeed index step c r.2) hi' hs' hfailed
    exact ⟨guar_note rfl, hi2, hi2, hu2, hsteps ▸ shapes_set (hsteps ▸ hshape) rfl⟩
  · obtain ⟨hi', hs'⟩ := h
    have hkept : ∀ code, (Proc.bind (Proc.modify (State.note (.finished j c false)))
        fun _ => Proc.ret (p.fail index step c code) : Task Progress).Spec (logic cfg j)
        (fun p' s' => Inv cfg s' ∧ Underway cfg j run a (cs ++ [some c]) p'.storageFailed s' ∧
          p'.steps.map AgentPlanStep.shape = p.steps.map AgentPlanStep.shape)
        (fun _ s' => Inv cfg s') s' := by
      intro code
      obtain ⟨hi2, hu2⟩ := hfinish false (p.fail index step c code) hi' hs' (by
        simp [Progress.fail, hp])
      exact ⟨guar_note rfl, hi2, hi2, hu2, shapes_set hshape rfl⟩
    cases e with
    | cancelled => exact hi'
    | agent code => exact hkept code
    | exception code => exact hkept _

variable (run a) in
/-- The steps of the loop, and what is stored behind each. -/
theorem diagnose_spec (running : AgentRun) (done : List AgentPlanStep) (p : Progress)
    (hid : running.id = run.id)
    (hshapes : running.shapes = run.shapes) (hauth : running.authorization = run.authorization)
    {rest : List AgentPlanStep} (hsteps : running.steps = done ++ rest)
    (hp : p.steps.map AgentPlanStep.shape = run.shapes) (hi : Inv cfg s)
    (hu : Underway cfg j run a (done.map (·.capabilityId)) p.storageFailed s) :
    (diagnose j running a done.length rest p).Spec (logic cfg j)
      (fun p' s' => Inv cfg s' ∧ p'.steps.map AgentPlanStep.shape = run.shapes ∧
        ∃ cs, Underway cfg j run a cs p'.storageFailed s') (fun _ s' => Inv cfg s') s := by
  induction rest generalizing done p s with
  | nil => exact ⟨hi, hp, _, hu⟩
  | cons step rest ih =>
    have hsteps' : running.steps = (done ++ [step]) ++ rest := by simp [hsteps]
    have hindex : (done ++ [step]).length = done.length + 1 := by simp
    have hmap : (done ++ [step]).map (·.capabilityId) =
        done.map (·.capabilityId) ++ [step.capabilityId] := by simp
    have hmem : step.shape ∈ run.shapes := by
      rw [← hshapes, AgentRun.shapes, hsteps]
      exact List.mem_map_of_mem (by simp)
    have hsound := hu.1.sound
    obtain ⟨c, -, hc⟩ := hsound.planned.diagnostic _ hmem
    have hcap : step.capabilityId = some c := hc
    have hlisted : a.stepIds.contains step.id = true := by
      rw [(hsound.entitled a hu.1.authorization).stepIds, List.contains_iff_mem]
      exact List.mem_map_of_mem (f := Shape.id) hmem
    have hall : run.shapes.map (·.capabilityId) =
        done.map (·.capabilityId) ++ some c :: rest.map (·.capabilityId) := by
      rw [← hshapes, AgentRun.shapes, List.map_map, hsteps, ← hcap]
      simp [Function.comp_def, AgentPlanStep.shape]
    have hnew : some c ∉ done.map (·.capabilityId) := by
      have hnodup := hsound.planned.distinct
      rw [hall, List.nodup_append] at hnodup
      exact fun h => hnodup.2.2 _ h _ List.mem_cons_self rfl
    have hfirst : c ≠ diskAnalysis → done.map (·.capabilityId) ≠ [] := by
      intro hne hnil
      have hhead := hsound.planned.first
      rw [hall, hnil] at hhead
      exact hne (by simpa using hhead)
    have hshape : (p.steps.map AgentPlanStep.shape)[done.length]? = some step.shape := by
      rw [hp, ← hshapes, AgentRun.shapes, hsteps]
      simp
    rw [diagnose]
    simp only [hcap, hlisted, Bool.not_true, Bool.false_eq_true, if_false]
    cases hfailed : p.storageFailed with
    | true =>
      rw [if_pos rfl, ← hindex]
      refine ih (done ++ [step]) _ hsteps' ((shapes_set hshape ?_).trans hp) hi ⟨hu.1, ?_⟩
      · rfl
      rw [hmap]
      refine ⟨fun runId c h => List.mem_append_left _ (hu.2.started runId c h), fun hf => ?_,
        fun _ hf => ?_⟩ <;> exact absurd (hfailed.symm.trans hf) (by simp)
    | false =>
      rw [if_neg (by simp)]
      rw [hfailed] at hu
      have hstep := runStep_spec hi hu hfailed hid
        (permitted hu hmem hcap hnew hfirst) hfirst hshape
      refine spec_bind.mpr (hstep.mono (fun p' s1 h1 => ?_) fun _ _ h => h)
      obtain ⟨hi1, hu1, hp1⟩ := h1
      rw [← hcap, ← hmap] at hu1
      refine (put_keeps (underway_stable cfg j run a _ _) fun s hs => ?_).spec_bind hi1 hu1
        (fun _ s2 hi2 hu2 => ?_) fun _ _ hi2 _ => hi2
      · exact hs.1.sound.copy hid (hp1.trans hp) fun a' ha' => ⟨a', hauth ▸ ha', rfl⟩
      · rw [← hindex]
        exact ih (done ++ [step]) _ hsteps' (hp1.trans hp) hi2 hu2

theorem runDiagnostics_spec (request : Request) (hi : Inv cfg s)
    (hu : Underway cfg j run a [] false s) :
    (runDiagnostics j request run a).Spec (logic cfg j) (fun _ s' => Inv cfg s')
      (fun _ s' => Inv cfg s') s := by
  have hstable := underway_stable cfg j run a [] false
  rw [runDiagnostics]
  refine (put_keeps hstable fun s hs => ?_).spec_bind hi hu (fun _ s1 hi1 hu1 => ?_)
    fun _ _ hi' _ => hi'
  · exact hs.1.sound.copy rfl (by simp) fun a' ha' => ⟨a', ha', rfl⟩
  refine (attempt_keeps hstable _).spec_bind hi1 hu1 (fun _ s2 hi2 hu2 => ?_) fun _ _ hi' _ => hi'
  have hloop := diagnose_spec run a (runningRun run a s.now) []
    ⟨(runningRun run a s.now).steps, none, none, [], [], false⟩ rfl (shapes_runningRun a s.now) rfl
    (List.nil_append _).symm (shapes_runningRun a s.now) hi2 hu2
  refine spec_bind.mpr (hloop.mono (fun p s3 h3 => ?_) fun _ _ h => h)
  obtain ⟨hi3, hp, cs, hu3⟩ := h3
  have hstable3 := underway_stable cfg j run a cs p.storageFailed
  refine spec_bind.mpr ((catalog_spec hstable3 _ _ hi3 hu3).mono (fun refreshed s4 h4 => ?_)
    fun _ _ h => h.1)
  refine (put_keeps hstable3 fun s hs => ?_).spec_bind h4.1 h4.2.1 (fun _ s5 hi5 hu5 => ?_)
    fun _ _ hi' _ => hi'
  · refine hs.1.sound.copy rfl hp fun a' ha' => ⟨a, hs.1.authorization, ?_⟩
    obtain rfl := Option.some.inj ha'
    rfl
  · exact (attempt_keeps hstable3 _).spec_bind hi5 hu5 (fun _ _ hi' _ => hi') fun _ _ hi' _ => hi'

end Diagnostics

/-! ### The promises of the calls -/

section Requests

variable (cfg : Config) {j : Nat} {s : State}

theorem unstarted_stable (j : Nat) :
    Stable State.history j Event.Idle fun s => Behind j [] false (own j s.history) :=
  Stable.of_own fun _ _ h he => Behind.idle h he

theorem start_spec (request : AgentRunRequest) (sessionId : String) (hi : Inv cfg s) :
    (start cfg j request sessionId).Spec (logic cfg j) (fun _ s' => Inv cfg s')
      (fun _ s' => Inv cfg s') s := by
  have hsteady : Stable State.history j Event.Idle fun _ => True :=
    ⟨fun h _ => h, fun h _ _ _ => h⟩
  rw [start]
  refine spec_bind.mpr ((catalog_spec hsteady _ _ hi trivial).mono
    (fun resources s1 h1 => ?_) fun _ _ h => h.1)
  refine spec_bind.mpr (spec_require.mpr ⟨fun _ => ?_, fun _ => h1.1⟩)
  refine (attempt_keeps hsteady _).spec_bind h1.1 trivial (fun backendPlan s2 hi2 _ => ?_)
    fun _ _ hi' _ => hi'
  refine spec_bind.mpr fun s3 hi3 _ id _ => ?_
  show Proc.Spec _ (Proc.bind (Proc.modify (State.create j id)) _) _ _ s3
  refine (silent_keeps hsteady (State.create j id) (fun _ => rfl) fun _ => rfl).spec_bind hi3 trivial
    (fun _ s4 hi4 _ => ?_) fun _ _ hi' _ => hi'
  refine (put_keeps hsteady fun s _ => ?_).spec_bind hi4 trivial (fun _ s5 hi5 _ => ?_)
    fun _ _ hi' _ => hi'
  · exact ⟨planned_diagnosticSteps cfg _ _ _, fun a ha => nomatch ha⟩
  · exact (attempt_keeps hsteady _).spec_bind hi5 trivial (fun _ _ hi' _ => hi')
      fun _ _ hi' _ => hi'

/-- The grant of an authorization that was asked for with the exact phrase. -/
theorem grant_spec {run : AgentRun} {runId sessionId operator : String}
    {payload : AgentAuthorizationRequest} (selected : Option ResourceCandidate)
    (hid : run.id = runId) (hr : Sound s.history run)
    (hreceived : .received j (.authorizeReadOnly runId payload sessionId operator) ∈ s.history)
    (hphrase : payload.confirmed = true) :
    (grant cfg j run selected operator).Spec (logic cfg j) (fun _ s' => Inv cfg s')
      (fun _ s' => Inv cfg s') s := by
  have hsteady : Stable State.history j Event.Idle fun s => Sound s.history run ∧
      .received j (.authorizeReadOnly runId payload sessionId operator) ∈ s.history :=
    Stable.of_suffix (P := fun h => Sound h run ∧ Event.received j
      (.authorizeReadOnly runId payload sessionId operator) ∈ h)
      fun _ _ h hs => ⟨h.1.suffix hs, hs.subset h.2⟩
  rw [grant]
  refine spec_bind.mpr fun s1 hi1 hrely id _ => ?_
  show Proc.Spec _ (Proc.bind (Proc.modify (State.draw id)) _) _ _ s1
  refine (silent_keeps hsteady (State.draw id) (fun _ => rfl) fun _ => rfl).spec_bind hi1
    (hsteady.rely ⟨hr, hreceived⟩ hrely) (fun _ s2 hi2 hs2 => ?_) fun _ _ hi' _ => hi'
  let a := newAuthorization cfg run selected operator id s2.now
  have hall : run.steps.filter (·.requiresAuthorization) = run.steps :=
    List.filter_eq_self.mpr fun step hstep =>
      hr.planned.authorized _ (List.mem_map_of_mem (f := AgentPlanStep.shape) hstep)
  have hentitled : Entitled (.granted j a :: s2.history) run a := by
    refine ⟨⟨rfl, j, s2.history, payload, sessionId, operator, List.suffix_refl _, ?_, hphrase⟩,
      ?_, ?_⟩
    · exact hid ▸ hs2.2
    · show (run.steps.filter _).map _ = _
      rw [hall, AgentRun.shapes, List.map_map]
      rfl
    · show (run.steps.filter _).filterMap _ = _
      rw [hall, AgentRun.shapes, List.filterMap_map]
      rfl
  have hsteady3 : Stable State.history j Event.Idle fun s => Sound s.history
      (authorizedRun run a s2.now) := Stable.of_suffix fun _ _ h hs => Sound.suffix h hs
  have hi3 : Inv cfg (s2.note (.granted j a)) := hi2.note trivial
  refine ⟨guar_note rfl, hi3, ?_⟩
  refine (put_keeps hsteady3 fun s hs => hs).spec_bind hi3 ?_ (fun _ s4 hi4 hs4 => ?_)
    fun _ _ hi' _ => hi'
  · have hshapes : (authorizedRun run a s2.now).shapes = run.shapes := shapes_authorizedRun a s2.now
    refine ⟨hshapes.symm ▸ hr.planned, fun a' ha' => ?_⟩
    obtain rfl := Option.some.inj ha'
    refine ⟨hentitled.granted, ?_, ?_⟩
    · rw [shapes_authorizedRun]
      exact hentitled.stepIds
    · rw [shapes_authorizedRun]
      exact hentitled.capabilityIds
  · exact (attempt_keeps hsteady3 _).spec_bind hi4 hs4 (fun _ _ hi' _ => hi') fun _ _ hi' _ => hi'

theorem authorizeReadOnly_spec (runId : String) (payload : AgentAuthorizationRequest)
    (sessionId operator : String) (hi : Inv cfg s)
    (hreceived : .received j (.authorizeReadOnly runId payload sessionId operator) ∈ s.history) :
    (authorizeReadOnly cfg j runId payload sessionId operator).Spec (logic cfg j)
      (fun _ s' => Inv cfg s') (fun _ s' => Inv cfg s') s := by
  have hsteady : Stable State.history j Event.Idle fun s =>
      .received j (.authorizeReadOnly runId payload sessionId operator) ∈ s.history :=
    Stable.of_suffix (P := fun h => Event.received j
      (.authorizeReadOnly runId payload sessionId operator) ∈ h) fun _ _ h hs => hs.subset h
  rw [authorizeReadOnly]
  refine spec_bind.mpr ((required_spec hsteady _ runId hi hreceived).mono
    (fun run s1 h1 => ?_) fun _ _ h => h.1)
  obtain ⟨hi1, hs1, hid, before, hfound, hr⟩ := h1
  have hr1 : Sound s1.history run := hr.suffix ((List.suffix_cons _ _).trans hfound)
  have hsteady1 : Stable State.history j Event.Idle fun s => Sound s.history run ∧
      .received j (.authorizeReadOnly runId payload sessionId operator) ∈ s.history :=
    Stable.of_suffix (P := fun h => Sound h run ∧ Event.received j
      (.authorizeReadOnly runId payload sessionId operator) ∈ h)
      fun _ _ h hs => ⟨h.1.suffix hs, hs.subset h.2⟩
  refine spec_bind.mpr (spec_require.mpr ⟨fun _ => ?_, fun _ => hi1⟩)
  refine spec_bind.mpr (spec_require.mpr ⟨fun hphrase => ?_, fun _ => hi1⟩)
  refine spec_bind.mpr ((catalog_spec hsteady1 _ _ hi1 ⟨hr1, hs1⟩).mono
    (fun resources s2 h2 => ?_) fun _ _ h => h.1)
  obtain ⟨hi2, ⟨hr2, hreceived2⟩, -⟩ := h2
  have hinvalidate : ∀ reason, (invalidate j run reason).Spec (logic cfg j)
      (fun _ s' => Inv cfg s') (fun _ s' => Inv cfg s') s2 := fun reason =>
    (invalidate_keeps hsteady1 reason (fun _ h => h.1) s2 hi2 ⟨hr2, hreceived2⟩).mono
      (fun _ _ h => h.1) fun _ _ h => h.1
  dsimp only
  split
  · exact hinvalidate _
  · split
    · exact hinvalidate _
    · exact grant_spec cfg _ hid hr2 hreceived2 hphrase

theorem execute_spec (runId sessionId : String) (hi : Inv cfg s)
    (hown : Behind j [] false (own j s.history)) :
    (execute cfg j runId sessionId).Spec (logic cfg j) (fun _ s' => Inv cfg s')
      (fun _ s' => Inv cfg s') s := by
  rw [execute]
  refine spec_bind.mpr ((required_spec (unstarted_stable j) _ runId hi hown).mono
    (fun run s1 h1 => ?_) fun _ _ h => h.1)
  obtain ⟨hi1, hown1, hid, before, hfound, hr⟩ := h1
  refine spec_bind.mpr (spec_ofOption.mpr ⟨fun a ha => ?_, fun _ => hi1⟩)
  obtain ⟨hauth, hconsumed⟩ := Option.filter_eq_some_iff.mp ha
  have hr1 : Sound s1.history run := hr.suffix ((List.suffix_cons _ _).trans hfound)
  let Found (h : List Event) : Prop := (.found j s1.now run :: before) <:+ h ∧ Sound h run
  have hsteady : Stable State.history j Event.Idle fun s =>
      Found s.history ∧ Behind j [] false (own j s.history) :=
    (Stable.of_suffix fun _ _ h hs => ⟨h.1.trans hs, h.2.suffix hs⟩).and (unstarted_stable j)
  have hinvalidate : ∀ {s'} reason, Inv cfg s' →
      Found s'.history ∧ Behind j [] false (own j s'.history) →
      (invalidate j run reason).Spec (logic cfg j) (fun _ s' => Inv cfg s')
        (fun _ s' => Inv cfg s') s' := fun reason hi' hs' =>
    (invalidate_keeps hsteady reason (fun _ h => h.1.2) _ hi' hs').mono (fun _ _ h => h.1)
      fun _ _ h => h.1
  show Proc.Spec _ (if a.expiresAt ≤ s1.now then _ else _) _ _ s1
  split
  · exact hinvalidate _ hi1 ⟨⟨hfound, hr1⟩, hown1⟩
  · next hunexpired =>
    refine spec_bind.mpr ((catalog_spec hsteady _ _ hi1 ⟨⟨hfound, hr1⟩, hown1⟩).mono
      (fun resources s2 h2 => ?_) fun _ _ h => h.1)
    obtain ⟨hi2, hs2, hresources⟩ := h2
    dsimp only
    split
    · exact hinvalidate _ hi2 hs2
    · split
      · exact hinvalidate _ hi2 hs2
      · next hfingerprint =>
        refine runDiagnostics_spec _ hi2 ⟨⟨⟨s1.now, before, hs2.1.1, hr, Nat.lt_of_not_le hunexpired⟩,
          hauth, ?_,
          resources, hresources, not_not.mp hfingerprint⟩, hs2.2⟩
        simpa using hconsumed

theorem cancel_spec (runId sessionId : String) (hi : Inv cfg s) :
    (cancel cfg j runId sessionId).Spec (logic cfg j) (fun _ s' => Inv cfg s')
      (fun _ s' => Inv cfg s') s := by
  have hsteady : Stable State.history j Event.Idle fun _ => True :=
    ⟨fun h _ => h, fun h _ _ _ => h⟩
  rw [cancel]
  refine spec_bind.mpr ((required_spec hsteady _ runId hi trivial).mono
    (fun run s1 h1 => ?_) fun _ _ h => h.1)
  obtain ⟨hi1, -, -, before, hfound, hr⟩ := h1
  have hr1 : Sound s1.history run := hr.suffix ((List.suffix_cons _ _).trans hfound)
  have hsteady1 : Stable State.history j Event.Idle fun s => Sound s.history run :=
    Stable.of_suffix fun _ _ h hs => Sound.suffix h hs
  split
  case h_5 =>
    refine (put_keeps hsteady1 fun s hs => ?_).spec_bind hi1 hr1 (fun _ s2 hi2 hs2 => ?_)
      fun _ _ hi' _ => hi'
    · exact hs.copy rfl (by simp) fun a' ha' => ⟨a', ha', rfl⟩
    · exact (attempt_keeps hsteady1 _).spec_bind hi2 hs2 (fun _ _ hi' _ => hi')
        fun _ _ hi' _ => hi'
  all_goals exact hi1

theorem handler_spec (request : Request) (hi : Inv cfg s) (hfresh : own j s.history = []) :
    (handler cfg j request).Spec (logic cfg j) (fun _ s' => Inv cfg s') (fun _ s' => Inv cfg s')
      s := by
  have hi1 : Inv cfg (s.note (.received j request)) := hi.note trivial
  have hown : own j (s.note (.received j request)).history = [.received j request] := by
    rw [own_note (j := j) (e := .received j request) rfl, hfresh]
  have hdispatch : (dispatch cfg j request).Spec (logic cfg j) (fun _ s' => Inv cfg s')
      (fun _ s' => Inv cfg s') (s.note (.received j request)) := by
    cases request with
    | start request sessionId => exact start_spec cfg request sessionId hi1
    | authorizeReadOnly runId payload sessionId operator =>
      exact authorizeReadOnly_spec cfg runId payload sessionId operator hi1 List.mem_cons_self
    | execute runId sessionId =>
      refine execute_spec cfg runId sessionId hi1 (hown ▸ ⟨?_, ?_, ?_⟩) <;> simp
    | cancel runId sessionId => exact cancel_spec cfg runId sessionId hi1
  refine ⟨guar_note rfl, hi1, spec_andFinally.mpr (hdispatch.mono ?_ ?_)⟩ <;>
    exact fun _ s' hi' => ⟨guar_same rfl, hi'.same rfl rfl, hi'.same rfl rfl⟩

end Requests

def contract (cfg : Config) : Contract (system cfg) where
  inv := Inv cfg
  rely := Rely
  guar := Guar
  fresh j s := own j s.history = []
  post _ _ _ _ := True
  postE _ _ _ _ := True
  refl := Kept.refl
  trans _ _ _ _ := Kept.trans
  guar_rely _ k _ _ hjk hg := hg k hjk.symm
  fresh_rely _ _ _ hf hr := hr.2.trans hf
  post_rely _ _ _ _ _ _ _ := trivial
  postE_rely _ _ _ _ _ _ _ := trivial
  world s _ hi _ := ⟨hi.same rfl rfl, fun k => Kept.refl k s⟩
  handler _ request _ hi hf _ := (handler_spec cfg request hi hf).mono (fun _ _ _ => trivial)
    fun _ _ _ => trivial

/-- Before every start of a capability, the call has read the run with an authorization that was
granted to the run after the exact phrase was given, is valid and lists the capability, the call has
not started the capability, and the storage analysis comes first and has succeeded. -/
theorem started_permitted (cfg : Config) (now : DateTime)
    (p : Pool State Res Error AgentRun Request)
    (reach : (system cfg).Reachable (State.initial now (fun _ => none) []) p)
    (task : Nat) (runId c : String) (past : List Event)
    (hstarted : (.started task runId c :: past) <:+ p.state.history) :
    Permitted cfg task runId c past := by
  have hi : Inv cfg (State.initial now (fun _ => none) []) := ⟨trivial, fun _ _ h => nomatch h⟩
  have holds := (contract cfg).sound hi (fun _ => rfl) reach
  exact holds.inv.confined.at hstarted

/-! ### Sample runs -/

def allowed (s : State) : (o : Op) → Res o → Bool
  | .uuid4, id => (id : String) ∉ s.drawn
  | _, _ => true

theorem answers_of_allowed (cfg : Config) {s : State} {o : Op} {r : Res o}
    (h : allowed s o r = true) : (system cfg).answers s o r := by
  cases o with
  | uuid4 =>
    show (r : String) ∉ s.drawn
    exact of_decide_eq_true h
  | call c => trivial
  | write task run => trivial

def admissible (p : Pool State Res Error AgentRun Request) : Move Res Request DateTime → Bool
  | .resume j answer => match p.tasks[j]? with
    | some (_, .call o _) => allowed p.state o (answer o)
    | _ => false
  | _ => true

theorem legal_of_admissible (cfg : Config) (p : Pool State Res Error AgentRun Request)
    (m : Move Res Request DateTime) (h : admissible p m = true) : (system cfg).Legal p m := by
  cases m with
  | start request => exact trivial
  | world now => exact trivial
  | resume j answer =>
    rw [admissible] at h
    split at h
    · next t o k hj => exact ⟨t, o, k, hj, answers_of_allowed cfg h⟩
    · cases h

def sampleConfig : Config where
  casefold := id
  isalnum := Char.isAlphanum
  sha256 content := content.objective

def sampleResource : ResourceCandidate where
  resourceId := "recovery:ares-live"
  humanName := "ARES"
  kind := .recoveryEnvironment
  stableIdentity := "recovery-ares-live"
  recommended := true

/-- Everything succeeds, and `uuid4` returns `id`. -/
def sampleAnswer (id : String) : (o : Op) → Res o
  | .call .thread | .call (.reading _) | .call (.loaded _ _) | .call (.publish _ _) => .ok ()
  | .call (.read _) => .ok true
  | .call (.catalog _ _) => .ok [sampleResource]
  | .call (.plan _ _) => .ok .null
  | .call .analyze => .ok ⟨"", "snapshot", "diagnostic"⟩
  | .call (.execute _ _) => .ok ⟨"succeeded", some [], none⟩
  | .uuid4 => id
  | .write _ _ => true

/-- The task `j` gets `n` answers. -/
def sampleResumes (j n : Nat) (id : String) : List (Move Res Request DateTime) :=
  List.replicate n (.resume j (sampleAnswer id))

def sampleConsent : AgentAuthorizationRequest := ⟨true, some authorizationPhrase⟩

/-- A run about the memory is started and authorized. -/
def authorizedMoves : List (Move Res Request DateTime) :=
  .start (.start ⟨"memoria", none⟩ "session") :: sampleResumes 0 7 "run" ++
    .start (.authorizeReadOnly "run" sampleConsent "session" "operator") ::
    sampleResumes 1 9 "authorization"

def lastStarted : List Event → Option (Nat × String × String)
  | .started task runId c :: _ => some (task, runId, c)
  | _ => none

theorem cons_of_lastStarted {h : List Event} {task : Nat} {runId c : String}
    (hh : lastStarted h = some (task, runId, c)) : ∃ past, h = .started task runId c :: past := by
  unfold lastStarted at hh
  split at hh
  · next past =>
    simp only [Option.some.injEq, Prod.mk.injEq] at hh
    obtain ⟨rfl, rfl, rfl⟩ := hh
    exact ⟨past, rfl⟩
  · cases hh

/-- The memory analysis of the sample run, behind the storage analysis. -/
theorem started_permitted_memory :
    ∃ past, Permitted sampleConfig 2 "run" "system.memory-analysis" past := by
  let moves := authorizedMoves ++ .start (.execute "run" "session") :: sampleResumes 2 12 ""
  have hlast : lastStarted ((system sampleConfig).play
      (System.initial (State.initial 0 (fun _ => none) [])) moves).state.history =
      some (2, "run", "system.memory-analysis") := by decide +kernel
  obtain ⟨past, hpast⟩ := cons_of_lastStarted hlast
  refine ⟨past, started_permitted sampleConfig 0 _ ⟨moves, System.run_of_checked
    (legal_of_admissible sampleConfig) (by decide +kernel)⟩ 2 "run" "system.memory-analysis" past ?_⟩
  rw [hpast]

end Ares.Agent
