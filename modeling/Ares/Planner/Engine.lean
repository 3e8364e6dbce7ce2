import Ares.Capabilities.Dependencies
import Mathlib.Data.List.Dedup
import Mathlib.Data.Rat.Defs

/-! The reasoning engine selects a capability by the words of a goal, and the planner turns the
selection into a plan, or asks for the evidence that is missing. -/

namespace Ares.Planner

open Data Capabilities

structure EvidenceFact where
  id : Text
  confidence : ℚ
  nonneg : 0 ≤ confidence
  le_one : confidence ≤ 1

structure ReasoningRequest where
  goal : Text
  evidence : List EvidenceFact

inductive ReasoningStatus
  | needsEvidence | capabilitySelected | stopped
deriving DecidableEq

structure Hypothesis where
  capabilityId : Text
  statement : Text
  confidence : Nat
deriving DecidableEq

structure ReasoningAssessment where
  status : ReasoningStatus
  hypotheses : List Hypothesis
  requestedEvidence : List Text
  selectedCapabilityId : Option Text
  stopReason : Option Text

structure ReasoningLibrary extends CapabilityManager.TextLibrary where
  /-- The class `[a-záéíóúüñ0-9]`, in either case. -/
  tokenChar : CodePoint → Bool

variable (lib : ReasoningLibrary) (m : CapabilityManager)

/-! ### Selection -/

def stopWords : List String :=
  ["the", "and", "for", "with", "from", "this", "that", "una", "uno", "unos", "unas", "del", "las",
    "los", "por", "para", "con", "que", "mis", "sus", "antes"]

/-- The matches of `_TOKEN`: the runs of at least three characters of its class. -/
def tokens (value : Text) : List Text :=
  (value.splitOnP fun c => !lib.tokenChar c).filter fun run => 3 ≤ run.length

/-- `_meaningful_terms`, as a list without duplicates. -/
def meaningfulTerms (value : Text) : List Text :=
  (((tokens lib value).map lib.casefold).filter fun token =>
    stopWords.all fun word => token ≠ Text.ofString word).dedup

def searchable (metadata : CapabilityMetadata) : Text :=
  CapabilityManager.joinSpaces
    ([metadata.name, metadata.description, metadata.objective] ++ metadata.keywords)

/-- `len(goal_terms & metadata_terms)`. -/
def overlap (goal : Text) (metadata : CapabilityMetadata) : Nat :=
  ((meaningfulTerms lib goal).filter fun term =>
    (meaningfulTerms lib (searchable metadata)).contains term).length

/-- `min(0.95, 0.45 + 0.1 * n)`, in hundredths. -/
def confidence (n : Nat) : Nat := min 95 (45 + 10 * n)

/-- `(confidence, metadata.id)` of the capabilities that share a term with the goal. -/
def candidates (goal : Text) : List (Nat × Text) :=
  (m.catalog lib.toTextLibrary none none).filterMap fun metadata =>
    if overlap lib goal metadata = 0 then none
    else some (confidence (overlap lib goal metadata), metadata.id)

/-- The order of `(-item[0], item[1])`. -/
def candidateLe (a b : Nat × Text) : Prop := b.1 < a.1 ∨ b.1 = a.1 ∧ a.2 ≤ b.2

instance : DecidableRel candidateLe :=
  fun a b => inferInstanceAs (Decidable (b.1 < a.1 ∨ b.1 = a.1 ∧ a.2 ≤ b.2))

def selected (goal : Text) : Option (Nat × Text) :=
  ((candidates lib m goal).insertionSort candidateLe).head?

def available (request : ReasoningRequest) : List Text :=
  (request.evidence.filter fun fact => 1 / 2 ≤ fact.confidence).map (·.id)

def hypothesisOf (candidate : Nat × Text) : Hypothesis where
  capabilityId := candidate.2
  statement :=
    Text.ofString "The goal may be addressed by capability " ++ candidate.2 ++ Text.ofString "."
  confidence := candidate.1

/-- `ReasoningEngine.assess`; `none` is the failure of its assertion. -/
def assess (request : ReasoningRequest) : Option ReasoningAssessment :=
  match selected lib m request.goal with
  | none =>
    some {
      status := .stopped
      hypotheses := []
      requestedEvidence := []
      selectedCapabilityId := none
      stopReason := some (Text.ofString "No compatible capability matches the stated goal.") }
  | some candidate =>
    (m.get candidate.2 none).map fun metadata =>
      let missing := metadata.requiredEvidence.filter fun item =>
        !(available request).contains item
      if missing ≠ [] then
        { status := .needsEvidence
          hypotheses := [hypothesisOf candidate]
          requestedEvidence := missing
          selectedCapabilityId := none
          stopReason := none }
      else
        { status := .capabilitySelected
          hypotheses := [hypothesisOf candidate]
          requestedEvidence := []
          selectedCapabilityId := some candidate.2
          stopReason := none }

/-! ### Planning -/

inductive PlanStatus
  | ready | needsEvidence | stopped
deriving DecidableEq

structure PlannedCapability where
  capabilityId : Text
  version : Text
  dependsOn : List Text
  riskLevel : String
  operationClass : String
  estimatedDurationSeconds : UInt64
  rationale : String
deriving DecidableEq

/-- The id and the time of a plan. -/
structure Stamp where
  id : Text
  createdAt : Text

structure ExecutionPlan where
  stamp : Stamp
  goal : Text
  status : PlanStatus
  hypotheses : List Hypothesis
  requestedEvidence : List Text
  steps : List PlannedCapability
  stopReason : Option Text

inductive PlanError
  | assertion
  | resolve (e : CapabilityManager.ResolveError)
deriving DecidableEq

/-- `sorted({evidence … if evidence not in available})`. -/
def missingEvidence (request : ReasoningRequest) (ordered : List CapabilityMetadata) : List Text :=
  ((ordered.flatMap (·.requiredEvidence)).filter fun evidence =>
    !(available request).contains evidence).dedup.insertionSort (· ≤ ·)

def plannedCapability (capabilityId : Text) (metadata : CapabilityMetadata) :
    PlannedCapability where
  capabilityId := metadata.id
  version := metadata.version
  dependsOn := metadata.dependencies
  riskLevel := metadata.risk.value
  operationClass := metadata.operation.value
  estimatedDurationSeconds := metadata.estimatedDurationSeconds
  rationale :=
    if metadata.id ≠ capabilityId then "Required dependency for the selected capability."
    else "Selected by the Reasoning Engine for the stated goal."

/-- `Planner.plan`. -/
def plan (stamp : Stamp) (request : ReasoningRequest) : Except PlanError ExecutionPlan :=
  match assess lib m request with
  | none => .error .assertion
  | some assessment =>
    let base : ExecutionPlan := {
      stamp
      goal := request.goal
      status := .stopped
      hypotheses := assessment.hypotheses
      requestedEvidence := []
      steps := []
      stopReason := none }
    match assessment.status with
    | .stopped => .ok { base with stopReason := assessment.stopReason }
    | .needsEvidence =>
      .ok { base with
        status := .needsEvidence
        requestedEvidence := assessment.requestedEvidence }
    | .capabilitySelected =>
      match assessment.selectedCapabilityId with
      | none =>
        .ok { base with stopReason := some (Text.ofString "Reasoning did not select a capability.") }
      | some capabilityId =>
        match m.resolveDependencies capabilityId with
        | .error e => .error (.resolve e)
        | .ok ordered =>
          let missing := missingEvidence request ordered
          if missing ≠ [] then
            .ok { base with
              status := .needsEvidence
              requestedEvidence := missing }
          else
            .ok { base with
              status := .ready
              steps := ordered.map (plannedCapability capabilityId) }

end Ares.Planner
