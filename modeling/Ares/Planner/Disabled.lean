import Ares.Planner.Progress
import Ares.Capabilities.Execution

/-! Planning does not ask whether a capability is enabled: `execute` refuses the steps of a ready plan
whose active version is disabled, and no others for that reason. -/

namespace Ares.Planner

open Data Capabilities CapabilityManager

variable {lib : ReasoningLibrary} {m : CapabilityManager}

/-- No step of the plan is refused as disabled, whatever it is given. -/
def Executable (m : CapabilityManager) (p : ExecutionPlan) : Prop :=
  ∀ step ∈ p.steps, ∀ engine payload checkpoint reason,
    m.execute engine step.capabilityId payload none checkpoint ≠ .error (.disabled reason)

theorem executable_iff (hsealed : m.isSealed) {id : Text} {ordered : List CapabilityMetadata}
    (hclosure : Closure m id ordered) {p : ExecutionPlan}
    (hsteps : p.steps = ordered.map (plannedCapability id)) :
    Executable m p ↔ ∀ metadata ∈ ordered, metadata.enabled = true := by
  rw [Executable, hsteps, List.forall_mem_map]
  refine forall₂_congr fun metadata hm => ?_
  have hdisabled := execute_disabled_iff hsealed (hclosure.active metadata hm)
  constructor
  · intro h
    by_contra henabled
    exact h (fun _ => ⟨false, none⟩) (.dict []) none (refusal metadata)
      ((hdisabled _ _ _ _).mpr ⟨Bool.not_eq_true _ ▸ henabled, rfl⟩)
  · intro henabled engine payload checkpoint reason hrefused
    have hfalse := ((hdisabled engine payload checkpoint reason).mp hrefused).1
    rw [henabled] at hfalse
    cases hfalse

theorem sound_of_plan (hresolves : m.Resolves) {stamp : Stamp} {request : ReasoningRequest}
    {p : ExecutionPlan} (hplan : plan lib m stamp request = .ok p) : Sound m request p := by
  cases hselected : selected lib m request.goal with
  | none =>
    obtain ⟨stopped, hstopped, hstatus⟩ := plan_stopped stamp hselected
    obtain rfl := Except.ok.inj (hstopped.symm.trans hplan)
    exact ⟨by simp [hstatus], by simp [hstatus]⟩
  | some candidate =>
    obtain ⟨metadata, ordered, hselection⟩ := selection_of_selected hresolves hselected
    exact (plan_sound hselection rfl hplan).2

/-- A step of a ready plan is refused as disabled exactly when its active version is disabled, so
all steps can be executed exactly when the whole dependency closure of the selected capability is
enabled. -/
theorem ready_plan_executable_iff (lib : ReasoningLibrary) (system : System) (cs : List Call)
    (hsealed : ((new system).calls cs).isSealed) (stamp : Stamp) (request : ReasoningRequest)
    (p : ExecutionPlan) (hplan : plan lib ((new system).calls cs) stamp request = .ok p)
    (hready : p.status = .ready) :
    ∃ id ordered, p.hypotheses.map (·.capabilityId) = [id] ∧
      Closure ((new system).calls cs) id ordered ∧
      p.steps = ordered.map (plannedCapability id) ∧
      (∀ metadata ∈ ordered, ∀ engine payload checkpoint reason,
        ((new system).calls cs).execute engine metadata.id payload none checkpoint =
            .error (.disabled reason) ↔
          metadata.enabled = false ∧ reason = refusal metadata) ∧
      (Executable ((new system).calls cs) p ↔ ∀ metadata ∈ ordered, metadata.enabled = true) := by
  have hsound := sound_of_plan (resolves_of_sealed system cs hsealed) hplan
  obtain ⟨id, ordered, hid, hclosure, hsteps, -⟩ := hsound.ready hready
  exact ⟨id, ordered, hid, hclosure, hsteps,
    fun metadata hm => execute_disabled_iff hsealed (hclosure.active metadata hm),
    executable_iff hsealed hclosure hsteps⟩

/-! ### A registry with a capability that is only designed -/

def designedCapabilities : List CapabilityMetadata :=
  [sampleMetadata "partition.resize" "resize" "1.0.0" ["partition.list"] [] (some "not built")
      first_version,
    sampleMetadata "partition.list" "list" "1.0.0" [] [] none first_version]

def designed : CapabilityManager := (new sampleSystem).calls (startup designedCapabilities)

def resizeRequest : ReasoningRequest where
  goal := Text.ofString "resize it"
  evidence := []

theorem ready_plan_executable_sample :
    ∃ p, plan asciiLibrary designed sampleStamp resizeRequest = .ok p ∧ p.status = .ready ∧
      ¬ Executable designed p := by
  have hplan : (plan asciiLibrary designed sampleStamp resizeRequest).toOption.map
      (fun p => (p.status, p.steps.map (·.capabilityId))) =
        some (.ready, [Text.ofString "partition.list", Text.ofString "partition.resize"]) := by
    decide +kernel
  have hmade : ∃ p, plan asciiLibrary designed sampleStamp resizeRequest = .ok p := by
    cases h : plan asciiLibrary designed sampleStamp resizeRequest with
    | ok p => exact ⟨p, rfl⟩
    | error e =>
      rw [h] at hplan
      cases hplan
  obtain ⟨p, hp⟩ := hmade
  rw [hp] at hplan
  obtain ⟨hready, hids⟩ := Prod.mk.inj (Option.some.inj hplan)
  refine ⟨p, hp, hready, fun hexecutable => ?_⟩
  obtain ⟨id, ordered, -, hclosure, hsteps, -, hiff⟩ := ready_plan_executable_iff asciiLibrary
    sampleSystem (startup designedCapabilities) (by decide +kernel) sampleStamp resizeRequest p hp
    hready
  rw [hsteps, List.map_map] at hids
  have hm : Text.ofString "partition.resize" ∈
      ordered.map ((·.capabilityId) ∘ plannedCapability id) := by
    rw [hids]
    exact List.mem_cons_of_mem _ List.mem_cons_self
  obtain ⟨metadata, hmetadata, hid⟩ := List.mem_map.mp hm
  have henabled := hiff.mp hexecutable metadata hmetadata
  have hactive := hclosure.active metadata hmetadata
  rw [show metadata.id = Text.ofString "partition.resize" from hid] at hactive
  have hoff : (((new sampleSystem).calls (startup designedCapabilities)).active
      (Text.ofString "partition.resize")).map (·.enabled) = some false := by decide +kernel
  rw [hactive, Option.map_some, henabled] at hoff
  cases hoff

/-- A ready plan has a step that is refused as disabled, with a payload that is valid for it. -/
theorem disabled_step_refused : (plan asciiLibrary designed sampleStamp resizeRequest).toOption.map
        (fun p => (p.status, p.steps.map (·.capabilityId))) =
      some (.ready, [Text.ofString "partition.list", Text.ofString "partition.resize"]) ∧
    ((designed.registration (Text.ofString "partition.resize") none).bind fun registration =>
      registration.capability.validateInput (.dict [])).isSome = true ∧
    designed.isSealed = true ∧
    designed.execute (fun _ => ⟨true, none⟩) (Text.ofString "partition.resize") (.dict []) none none =
      .error (.disabled (Text.ofString "not built")) := by
  have hsealed : designed.isSealed = true := by decide +kernel
  have hactive : (designed.active (Text.ofString "partition.resize")).map
      (fun metadata => (metadata.enabled, refusal metadata)) =
        some (false, Text.ofString "not built") := by decide +kernel
  obtain ⟨metadata, hmetadata, heq⟩ := Option.map_eq_some_iff.mp hactive
  obtain ⟨henabled, hreason⟩ := Prod.mk.inj heq
  exact ⟨by decide +kernel, by decide +kernel, hsealed,
    (execute_disabled_iff hsealed hmetadata _ _ _ _).mpr ⟨henabled, hreason.symm⟩⟩

end Ares.Planner
