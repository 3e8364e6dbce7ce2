import Ares.Data.Dict
import Ares.Data.Value

/-! The contracts of capabilities and plugins, as far as the manager, the reasoning engine and the
planner read them. -/

namespace Ares.Capabilities

open Data

inductive CapabilityCategory
  | storage | backup | recovery | security | network | packages | hardware | optimization | windows
deriving DecidableEq

inductive RiskLevel
  | low | medium | high | critical
deriving DecidableEq

def RiskLevel.value : RiskLevel → String
  | low => "low"
  | medium => "medium"
  | high => "high"
  | critical => "critical"

inductive OperationClass
  | observe | change | recover
deriving DecidableEq

def OperationClass.value : OperationClass → String
  | observe => "observe"
  | change => "change"
  | recover => "recover"

inductive CapabilityMode
  | readOnly | mutating
deriving DecidableEq

def digit (c : CodePoint) : Bool := 48 ≤ c.val && c.val ≤ 57

def versionParts (version : Text) : List Text := version.splitOn (CodePoint.ofChar '.')

/-- `^[0-9]+(?:\.[0-9]+){low - 1,high - 1}$`. -/
def versionPattern (low high : Nat) (version : Text) : Bool :=
  let parts := versionParts version
  low ≤ parts.length && parts.length ≤ high && parts.all fun part => part ≠ [] && part.all digit

/-- `int` of a text of digits. -/
def digitsValue (text : Text) : Nat := text.foldl (fun n c => 10 * n + (c.val - 48)) 0

/-- `_version_tuple` of a text of digits and dots. -/
def versionTuple (version : Text) : List Nat :=
  let parts := (versionParts version).map digitsValue
  parts ++ List.replicate (3 - parts.length) 0

structure OSCompatibility where
  families : List Text
  architectures : List Text
  minimumVersion : Option Text
  liveModes : List Text
  minimum_pattern : ∀ version ∈ minimumVersion, versionPattern 1 3 version = true

structure CapabilityMetadata where
  id : Text
  version : Text
  name : Text
  description : Text
  objective : Text
  category : CapabilityCategory
  operation : OperationClass
  mode : CapabilityMode
  osCompatibility : OSCompatibility
  risk : RiskLevel
  estimatedDurationSeconds : UInt64
  permissions : List Text
  dependencies : List Text
  internalActions : List Text
  requiresAuthorization : Bool
  requiresProtectionCheckpoint : Bool
  requiredEvidence : List Text
  keywords : List Text
  enabled : Bool
  disabledReason : Option Text
  version_pattern : versionPattern 3 3 version = true

structure PluginManifest where
  id : Text
  version : Text
  coreApiVersion : Text
  permissions : List Text
  dependencies : List Text
  osCompatibility : OSCompatibility
  capabilities : List Text

/-! ### Providers -/

/-- A validated input: the attributes that are texts and that the manager reads, and the rest. -/
structure ValidatedInput where
  sessionId : Option Text
  protectedResourceId : Option Text
  protectedResourceFingerprintSha256 : Option Text
  rest : Value

/-- The workflow of a capability, by the ids of the actions of its steps. -/
structure WorkflowDefinition where
  capabilityId : Text
  actions : List Text

structure Capability where
  metadata : CapabilityMetadata
  inputModel : Bool
  outputModel : Bool
  /-- `input_model.model_validate`; `none` is a `ValidationError`. -/
  validateInput : Value → Option ValidatedInput
  /-- `build_workflow`; `none` where it raises. -/
  buildWorkflow : ValidatedInput → Option WorkflowDefinition
  /-- `output_model.model_validate(…).model_dump(mode="json")`. -/
  validateOutput : Value → Option Value

structure CapabilityPlugin where
  manifest : PluginManifest
  capabilities : List Capability

structure CapabilityDescriptor where
  metadata : CapabilityMetadata
  pluginId : Text
  pluginVersion : Text
  active : Bool

inductive ProtectionCheckpointStatus
  | planned | ready | invalid
deriving DecidableEq

structure ProtectionCheckpoint where
  status : ProtectionCheckpointStatus
  protectedResources : List Text
  resourceFingerprints : Dict Text Text
  verificationId : Option Text
  sessionId : Text

end Ares.Capabilities
