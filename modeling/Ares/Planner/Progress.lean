import Ares.Planner.Engine
import Mathlib.Tactic.NormNum

/-! What a plan promises: its steps are the dependency closure of the selected capability with all
the evidence that they require, and when the evidence that it requests is supplied it is ready after
at most two further rounds. -/

namespace Ares.Planner

open Data Capabilities CapabilityManager

variable {lib : ReasoningLibrary} {m : CapabilityManager}

/-! ### Selection -/

theorem get_eq_active (id : Text) : m.get id none = m.active id := by
  rw [CapabilityManager.get, descriptor, active, Option.map_map]
  rfl

variable {metadata : CapabilityMetadata}

theorem active_of_mem_catalog {texts : TextLibrary} {query : Option Text}
    {category : Option CapabilityCategory}
    (h : metadata ∈ m.catalog texts query category) : m.active metadata.id = some metadata := by
  obtain ⟨descriptor, hdescriptor, rfl⟩ := List.mem_map.mp h
  rw [descriptors, List.mem_insertionSort] at hdescriptor
  obtain ⟨id, -, hid⟩ := List.mem_filterMap.mp (List.mem_of_mem_filter hdescriptor)
  have hget : m.get id none = some descriptor.metadata := by
    rw [CapabilityManager.get, hid]
    rfl
  rw [get_eq_active] at hget
  rw [active_id hget]
  exact hget

variable {candidate : Nat × Text}

theorem active_of_selected {goal : Text} (h : selected lib m goal = some candidate) :
    ∃ metadata, m.active candidate.2 = some metadata := by
  have hm : candidate ∈ candidates lib m goal := by
    rw [← List.mem_insertionSort candidateLe]
    exact List.mem_of_mem_head? h
  obtain ⟨metadata, hmetadata, hcandidate⟩ := List.mem_filterMap.mp hm
  split at hcandidate
  · cases hcandidate
  · obtain rfl := Option.some.inj hcandidate
    exact ⟨metadata, active_of_mem_catalog hmetadata⟩

/-! ### Evidence -/

def Supplied (request : ReasoningRequest) (id : Text) : Prop :=
  ∃ fact ∈ request.evidence, fact.id = id ∧ 1 / 2 ≤ fact.confidence

variable {request : ReasoningRequest}

theorem mem_available {id : Text} :
    id ∈ available request ↔ Supplied request id := by
  simp only [available, List.mem_map, List.mem_filter, decide_eq_true_eq, Supplied]
  exact ⟨fun ⟨fact, ⟨hm, hconfidence⟩, hid⟩ => ⟨fact, hm, hid, hconfidence⟩,
    fun ⟨fact, hm, hid, hconfidence⟩ => ⟨fact, ⟨hm, hconfidence⟩, hid⟩⟩

def missingOwn (request : ReasoningRequest) (metadata : CapabilityMetadata) : List Text :=
  metadata.requiredEvidence.filter fun item => !(available request).contains item

theorem mem_missingOwn {id : Text} :
    id ∈ missingOwn request metadata ↔ id ∈ metadata.requiredEvidence ∧ ¬ Supplied request id := by
  simp [missingOwn, mem_available]

variable {ordered : List CapabilityMetadata}

theorem mem_missingEvidence {id : Text} :
    id ∈ missingEvidence request ordered ↔
      (∃ metadata ∈ ordered, id ∈ metadata.requiredEvidence) ∧ ¬ Supplied request id := by
  simp [missingEvidence, mem_available]

theorem missingOwn_eq_nil :
    missingOwn request metadata = [] ↔ ∀ id ∈ metadata.requiredEvidence, Supplied request id := by
  rw [List.eq_nil_iff_forall_not_mem]
  simp only [mem_missingOwn, not_and, not_not]

theorem missingEvidence_eq_nil : missingEvidence request ordered = [] ↔
      ∀ metadata ∈ ordered, ∀ id ∈ metadata.requiredEvidence, Supplied request id := by
  rw [List.eq_nil_iff_forall_not_mem]
  simp only [mem_missingEvidence, not_and, not_not]
  exact ⟨fun h metadata hm id hid => h id ⟨metadata, hm, hid⟩,
    fun h id ⟨metadata, hm, hid⟩ => h metadata hm id hid⟩

/-! ### A plan -/

def drafted (stamp : Stamp) (request : ReasoningRequest) (hypotheses : List Hypothesis) :
    ExecutionPlan where
  stamp := stamp
  goal := request.goal
  status := .stopped
  hypotheses := hypotheses
  requestedEvidence := []
  steps := []
  stopReason := none

/-- The plan for a selected capability. -/
theorem plan_selected (stamp : Stamp) (hselected : selected lib m request.goal = some candidate)
    (hactive : m.active candidate.2 = some metadata)
    (hresolve : m.resolveDependencies candidate.2 = .ok ordered) :
    plan lib m stamp request = .ok (
      let base := drafted stamp request [hypothesisOf candidate]
      if missingOwn request metadata ≠ [] then
        { base with
          status := .needsEvidence
          requestedEvidence := missingOwn request metadata }
      else if missingEvidence request ordered ≠ [] then
        { base with
          status := .needsEvidence
          requestedEvidence := missingEvidence request ordered }
      else
        { base with
          status := .ready
          steps := ordered.map (plannedCapability candidate.2) }) := by
  have hassess : assess lib m request = some (
      if missingOwn request metadata ≠ [] then
        { status := .needsEvidence
          hypotheses := [hypothesisOf candidate]
          requestedEvidence := missingOwn request metadata
          selectedCapabilityId := none
          stopReason := none }
      else
        { status := .capabilitySelected
          hypotheses := [hypothesisOf candidate]
          requestedEvidence := []
          selectedCapabilityId := some candidate.2
          stopReason := none }) := by
    rw [assess, hselected]
    dsimp only
    rw [get_eq_active, hactive]
    rfl
  rw [plan, hassess]
  by_cases hown : missingOwn request metadata = []
  · simp only [hown, ne_eq, not_true_eq_false, if_false, hresolve]
    by_cases hall : missingEvidence request ordered = []
    · simp [hall, drafted]
    · simp [hall, drafted]
  · simp [hown, drafted]

theorem plan_stopped (stamp : Stamp) (hselected : selected lib m request.goal = none) :
    ∃ p, plan lib m stamp request = .ok p ∧ p.status = .stopped := by
  rw [plan, assess, hselected]
  exact ⟨_, rfl, rfl⟩

/-- What is selected for a goal, with its active metadata and its dependency closure. -/
structure Selection (lib : ReasoningLibrary) (m : CapabilityManager) (goal : Text)
    (candidate : Nat × Text) (metadata : CapabilityMetadata) (ordered : List CapabilityMetadata) :
    Prop where
  selected : selected lib m goal = some candidate
  active : m.active candidate.2 = some metadata
  resolve : m.resolveDependencies candidate.2 = .ok ordered

theorem selection_of_selected (hresolves : m.Resolves) {goal : Text}
    (h : selected lib m goal = some candidate) :
    ∃ metadata ordered, Selection lib m goal candidate metadata ordered := by
  obtain ⟨metadata, hactive⟩ := active_of_selected h
  obtain ⟨versions, hversions⟩ := get?_of_active hactive
  obtain ⟨ordered, hordered⟩ := hresolves candidate.2 (Dict.mem_keys.mpr ⟨versions, hversions⟩)
  exact ⟨metadata, ordered, h, hactive, hordered⟩

theorem Selection.mem {goal : Text} (h : Selection lib m goal candidate metadata ordered) :
    metadata ∈ ordered := by
  have hclosure := closure_of_resolve h.resolve
  obtain ⟨last, hlast, hid⟩ := Option.map_eq_some_iff.mp hclosure.last
  have hm := List.mem_of_mem_getLast? hlast
  have hactive := hclosure.active last hm
  rw [hid, h.active] at hactive
  exact Option.some.inj hactive ▸ hm

/-! ### Soundness -/

/-- A ready plan runs the dependency closure of what was selected, whose evidence is all supplied;
a plan that needs evidence requests some that is not supplied and that the closure requires. -/
structure Sound (m : CapabilityManager) (request : ReasoningRequest) (p : ExecutionPlan) : Prop where
  ready : p.status = .ready → ∃ id ordered, p.hypotheses.map (·.capabilityId) = [id] ∧
    Closure m id ordered ∧ p.steps = ordered.map (plannedCapability id) ∧
    ∀ metadata ∈ ordered, ∀ evidence ∈ metadata.requiredEvidence, Supplied request evidence
  needsEvidence : p.status = .needsEvidence → p.requestedEvidence ≠ [] ∧
    ∃ id ordered, p.hypotheses.map (·.capabilityId) = [id] ∧ Closure m id ordered ∧
      ∀ evidence ∈ p.requestedEvidence, ¬ Supplied request evidence ∧
        ∃ metadata ∈ ordered, evidence ∈ metadata.requiredEvidence

section Selected

variable {goal : Text} {candidate : Nat × Text} {metadata : CapabilityMetadata}
  {ordered : List CapabilityMetadata} (h : Selection lib m goal candidate metadata ordered)
  {request : ReasoningRequest} (hgoal : request.goal = goal)

include h hgoal

theorem plan_sound {stamp : Stamp} {p : ExecutionPlan} (hp : plan lib m stamp request = .ok p) :
    p.hypotheses = [hypothesisOf candidate] ∧ Sound m request p := by
  have hclosure := closure_of_resolve h.resolve
  rw [plan_selected _ (hgoal ▸ h.selected) h.active h.resolve] at hp
  obtain rfl := Except.ok.inj hp
  dsimp only
  by_cases hown : missingOwn request metadata = []
  · by_cases hall : missingEvidence request ordered = []
    · rw [if_neg (not_not.mpr hown), if_neg (not_not.mpr hall)]
      exact ⟨rfl, fun _ => ⟨candidate.2, ordered, rfl, hclosure, rfl,
        missingEvidence_eq_nil.mp hall⟩, nofun⟩
    · rw [if_neg (not_not.mpr hown), if_pos hall]
      refine ⟨rfl, nofun, fun _ => ⟨hall, candidate.2, ordered, rfl, hclosure, ?_⟩⟩
      exact fun evidence hevidence =>
        ⟨(mem_missingEvidence.mp hevidence).2, (mem_missingEvidence.mp hevidence).1⟩
  · rw [if_pos hown]
    refine ⟨rfl, nofun, fun _ => ⟨hown, candidate.2, ordered, rfl, hclosure, ?_⟩⟩
    exact fun evidence hevidence =>
      ⟨(mem_missingOwn.mp hevidence).2, metadata, h.mem, (mem_missingOwn.mp hevidence).1⟩

theorem plan_ready (stamp : Stamp)
    (hsupplied : ∀ metadata ∈ ordered, ∀ id ∈ metadata.requiredEvidence, Supplied request id) :
    ∃ p, plan lib m stamp request = .ok p ∧ p.hypotheses = [hypothesisOf candidate] ∧
      p.status = .ready := by
  have hown : missingOwn request metadata = [] := missingOwn_eq_nil.mpr (hsupplied metadata h.mem)
  have hall : missingEvidence request ordered = [] := missingEvidence_eq_nil.mpr hsupplied
  rw [plan_selected _ (hgoal ▸ h.selected) h.active h.resolve]
  dsimp only
  rw [if_neg (not_not.mpr hown), if_neg (not_not.mpr hall)]
  exact ⟨_, rfl, rfl, rfl⟩

/-- With the own evidence of the selected capability, a plan is ready or requests all that the
closure lacks. -/
theorem plan_second (stamp : Stamp)
    (hsupplied : ∀ id ∈ metadata.requiredEvidence, Supplied request id) :
    ∃ p, plan lib m stamp request = .ok p ∧ p.hypotheses = [hypothesisOf candidate] ∧
      (p.status = .ready ∨
        p.status = .needsEvidence ∧ p.requestedEvidence = missingEvidence request ordered) := by
  have hown : missingOwn request metadata = [] := missingOwn_eq_nil.mpr hsupplied
  rw [plan_selected _ (hgoal ▸ h.selected) h.active h.resolve]
  dsimp only
  rw [if_neg (not_not.mpr hown)]
  by_cases hall : missingEvidence request ordered = []
  · rw [if_neg (not_not.mpr hall)]
    exact ⟨_, rfl, rfl, .inl rfl⟩
  · rw [if_pos hall]
    exact ⟨_, rfl, rfl, .inr ⟨rfl, rfl⟩⟩

end Selected

/-! ### Progress -/

/-- The goal again, with the old evidence and what the plan requests. -/
structure Continues (request : ReasoningRequest) (p : ExecutionPlan) (request' : ReasoningRequest) :
    Prop where
  goal : request'.goal = request.goal
  old : ∀ fact ∈ request.evidence, fact ∈ request'.evidence
  requested : ∀ id ∈ p.requestedEvidence, Supplied request' id

theorem Continues.supplied {request request' : ReasoningRequest} {p : ExecutionPlan}
    (h : Continues request p request') {id : Text} (hid : Supplied request id) :
    Supplied request' id := by
  obtain ⟨fact, hm, hfact⟩ := hid
  exact ⟨fact, h.old fact hm, hfact⟩

/-- Whoever supplies what a plan requests, and then what the next one requests, has a ready plan for
the same capability. -/
def Progress (lib : ReasoningLibrary) (m : CapabilityManager) (request : ReasoningRequest)
    (p : ExecutionPlan) : Prop :=
  ∀ stamp₁ request₁, Continues request p request₁ →
    ∃ p₁, plan lib m stamp₁ request₁ = .ok p₁ ∧ p₁.hypotheses = p.hypotheses ∧
      (p₁.status = .ready ∨ p₁.status = .needsEvidence ∧
        ∀ stamp₂ request₂, Continues request₁ p₁ request₂ →
          ∃ p₂, plan lib m stamp₂ request₂ = .ok p₂ ∧ p₂.hypotheses = p.hypotheses ∧
            p₂.status = .ready)

theorem supplied_of_missing {request request' : ReasoningRequest} {p : ExecutionPlan}
    (hcontinues : Continues request p request')
    (hrequested : p.requestedEvidence = missingEvidence request ordered) :
    ∀ metadata ∈ ordered, ∀ id ∈ metadata.requiredEvidence, Supplied request' id := by
  intro metadata hm id hid
  by_cases hold : Supplied request id
  · exact hcontinues.supplied hold
  · refine hcontinues.requested id ?_
    rw [hrequested]
    exact mem_missingEvidence.mpr ⟨⟨metadata, hm, hid⟩, hold⟩

theorem supplied_of_missingOwn {request request' : ReasoningRequest} {p : ExecutionPlan}
    (hcontinues : Continues request p request')
    (hrequested : p.requestedEvidence = missingOwn request metadata) :
    ∀ id ∈ metadata.requiredEvidence, Supplied request' id := by
  intro id hid
  by_cases hold : Supplied request id
  · exact hcontinues.supplied hold
  · refine hcontinues.requested id ?_
    rw [hrequested]
    exact mem_missingOwn.mpr ⟨hid, hold⟩

theorem plan_progress {stamp : Stamp}
    (h : Selection lib m request.goal candidate metadata ordered) {p : ExecutionPlan}
    (hp : plan lib m stamp request = .ok p) (hstatus : p.status = .needsEvidence) :
    Progress lib m request p := by
  intro stamp₁ request₁ hfirst
  have hhypotheses := (plan_sound h rfl hp).1
  rw [hhypotheses]
  rw [plan_selected _ h.selected h.active h.resolve] at hp
  by_cases hown : missingOwn request metadata = []
  · have hrequested : p.requestedEvidence = missingEvidence request ordered := by
      by_cases hall : missingEvidence request ordered = []
      · simp only [hown, hall, ne_eq, not_true_eq_false, if_false, Except.ok.injEq] at hp
        subst hp
        cases hstatus
      · simp only [hown, hall, ne_eq, not_true_eq_false, not_false_eq_true, if_false, if_true,
          Except.ok.injEq] at hp
        subst hp
        rfl
    obtain ⟨p₁, hp₁, hsame, hready⟩ :=
      plan_ready h hfirst.goal stamp₁ (supplied_of_missing hfirst hrequested)
    exact ⟨p₁, hp₁, hsame, .inl hready⟩
  · have hrequested : p.requestedEvidence = missingOwn request metadata := by
      simp only [hown, ne_eq, not_false_eq_true, if_true, Except.ok.injEq] at hp
      subst hp
      rfl
    obtain ⟨p₁, hp₁, hsame, hsecond⟩ :=
      plan_second h hfirst.goal stamp₁ (supplied_of_missingOwn hfirst hrequested)
    refine ⟨p₁, hp₁, hsame, hsecond.imp_right fun ⟨hneeds, hrequested₁⟩ => ⟨hneeds, ?_⟩⟩
    intro stamp₂ request₂ hnext
    exact plan_ready h (hnext.goal.trans hfirst.goal) stamp₂ (supplied_of_missing hnext hrequested₁)

/-- In a sealed registry a plan is always made.  It is sound, and where it requests evidence it is
ready for the same capability after at most two further rounds. -/
theorem planner_sound_and_progressing (lib : ReasoningLibrary) (system : System) (cs : List Call)
    (hsealed : ((new system).calls cs).isSealed) (stamp : Stamp) (request : ReasoningRequest) :
    ∃ p, plan lib ((new system).calls cs) stamp request = .ok p ∧
      Sound ((new system).calls cs) request p ∧
      (p.status = .needsEvidence → Progress lib ((new system).calls cs) request p) := by
  have hresolves := resolves_of_sealed system cs hsealed
  generalize (new system).calls cs = m at hresolves
  cases hselected : selected lib m request.goal with
  | none =>
    obtain ⟨p, hp, hstopped⟩ := plan_stopped stamp hselected
    exact ⟨p, hp, ⟨by simp [hstopped], by simp [hstopped]⟩, by simp [hstopped]⟩
  | some candidate =>
    obtain ⟨metadata, ordered, hselection⟩ := selection_of_selected hresolves hselected
    have hp := plan_selected stamp hselection.selected hselection.active hselection.resolve
    exact ⟨_, hp, (plan_sound hselection rfl hp).2, plan_progress hselection hp⟩

/-! ### A diagnosis whose dependency needs evidence too -/

/-- The functions of Python on ASCII texts. -/
def asciiLibrary : ReasoningLibrary where
  casefold text := text.map fun c => if 65 ≤ c.val ∧ c.val ≤ 90 then c + 32 else c
  isspace c := c.val = 32 || (9 ≤ c.val && c.val ≤ 13) || (28 ≤ c.val && c.val ≤ 31)
  tokenChar c := (65 ≤ c.val && c.val ≤ 90) || (97 ≤ c.val && c.val ≤ 122) ||
    (48 ≤ c.val && c.val ≤ 57)

def evidentDiagnosis : List CapabilityMetadata :=
  [sampleMetadata "boot.diagnosis" "boot" "1.0.0" ["disk.inventory"] ["boot.log"] none
      first_version,
    sampleMetadata "disk.inventory" "list" "1.0.0" [] ["disk.list"] none first_version]

/-- The calls at the start of the service. -/
def startup (capabilities : List CapabilityMetadata) : List Call :=
  [.load [samplePlugin capabilities], .seal]

def sampleStamp : Stamp := ⟨Text.ofString "plan", Text.ofString "2026-01-01T12:00:00Z"⟩

/-- A goal, with a rumour for evidence. -/
def bootRequest : ReasoningRequest where
  goal := Text.ofString "the boot"
  evidence := [⟨Text.ofString "boot.log", 1 / 4, by norm_num, by norm_num⟩]

theorem planner_sample :
    ∃ p, plan asciiLibrary ((new sampleSystem).calls (startup evidentDiagnosis)) sampleStamp
        bootRequest = .ok p ∧
      p.status = .needsEvidence ∧ p.requestedEvidence = [Text.ofString "boot.log"] ∧
      Progress asciiLibrary ((new sampleSystem).calls (startup evidentDiagnosis)) bootRequest p := by
  obtain ⟨p, hp, -, hprogress⟩ := planner_sound_and_progressing asciiLibrary sampleSystem
    (startup evidentDiagnosis) (by decide +kernel) sampleStamp bootRequest
  have hplan : (plan asciiLibrary ((new sampleSystem).calls (startup evidentDiagnosis)) sampleStamp
      bootRequest).toOption.map (fun p => (p.status, p.requestedEvidence)) =
        some (.needsEvidence, [Text.ofString "boot.log"]) := by decide +kernel
  rw [hp] at hplan
  obtain ⟨hstatus, hrequested⟩ := Prod.mk.inj (Option.some.inj hplan)
  exact ⟨p, hp, hstatus, hrequested, hprogress hstatus⟩

end Ares.Planner
