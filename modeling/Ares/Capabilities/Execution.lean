import Ares.Capabilities.Dependencies

/-! `execute`: what is checked before the workflow of a capability runs, and when a capability is
refused because it is disabled. -/

namespace Ares.Capabilities

open Data

structure WorkflowExecution where
  succeeded : Bool
  result : Option Value

inductive ProtectionError
  | required
  | session
  | resource
  | fingerprint
deriving DecidableEq

inductive ContractError
  | capabilityId
  | actions
deriving DecidableEq

inductive ExecuteError
  | notSealed
  /-- `KeyError` of a capability that is not registered. -/
  | unknown (id : Text)
  /-- `PermissionError` with the reason of a disabled capability. -/
  | disabled (reason : Text)
  | invalidInput
  | protection (e : ProtectionError)
  /-- `build_workflow` raises. -/
  | workflow
  | contract (e : ContractError)
  | invalidOutput
deriving DecidableEq

def validCheckpoint (checkpoint : Option ProtectionCheckpoint) : Option ProtectionCheckpoint :=
  checkpoint.filter fun c =>
    c.status = .ready && c.protectedResources ≠ [] && c.verificationId.isSome

/-- The check of `_validate_protection_checkpoint` that fails. -/
def protectionError (metadata : CapabilityMetadata) (payload : ValidatedInput)
    (checkpoint : Option ProtectionCheckpoint) : Option ProtectionError :=
  if !metadata.requiresProtectionCheckpoint then none
  else
    match validCheckpoint checkpoint with
    | none => some .required
    | some checkpoint =>
      if payload.sessionId.any (checkpoint.sessionId ≠ ·) then some .session
      else
        match payload.protectedResourceId with
        | none => none
        | some resourceId =>
          if !checkpoint.protectedResources.contains resourceId then some .resource
          else if payload.protectedResourceFingerprintSha256.any fun fingerprint =>
              checkpoint.resourceFingerprints.get? resourceId ≠ some fingerprint then
            some .fingerprint
          else none

/-- The check of `_validate_workflow_contract` that fails. -/
def contractMismatch (metadata : CapabilityMetadata) (definition : WorkflowDefinition) :
    Option ContractError :=
  if definition.capabilityId ≠ metadata.id then some .capabilityId
  else if !(definition.actions.all metadata.internalActions.contains &&
      metadata.internalActions.all definition.actions.contains) then some .actions
  else none

/-- `capability.metadata.disabled_reason or "capability is disabled"`. -/
def refusal (metadata : CapabilityMetadata) : Text :=
  (metadata.disabledReason.filter (· ≠ [])).getD (Text.ofString "capability is disabled")

def validateExecution (capability : Capability) (execution : WorkflowExecution) :
    Except ExecuteError WorkflowExecution :=
  match execution.result with
  | none => .ok execution
  | some result =>
    if !execution.succeeded then .ok execution
    else
      match capability.validateOutput result with
      | none => .error .invalidOutput
      | some output => .ok { execution with result := some output }

namespace CapabilityManager

/-- `execute`; `engine` tells how the workflow engine ends a workflow. -/
def execute (m : CapabilityManager) (engine : WorkflowDefinition → WorkflowExecution) (id : Text)
    (payload : Value) (version : Option Text) (checkpoint : Option ProtectionCheckpoint) :
    Except ExecuteError WorkflowExecution :=
  if !m.isSealed then .error .notSealed
  else
    match m.registration id version with
    | none => .error (.unknown id)
    | some registration =>
      let capability := registration.capability
      let metadata := capability.metadata
      if !metadata.enabled then .error (.disabled (refusal metadata))
      else
        match capability.validateInput payload with
        | none => .error .invalidInput
        | some validated =>
          match protectionError metadata validated checkpoint with
          | some e => .error (.protection e)
          | none =>
            match capability.buildWorkflow validated with
            | none => .error .workflow
            | some definition =>
              match contractMismatch metadata definition with
              | some e => .error (.contract e)
              | none => validateExecution capability (engine definition)

theorem execute_disabled_iff {m : CapabilityManager} (hsealed : m.isSealed) {id : Text}
    {metadata : CapabilityMetadata} (hactive : m.active id = some metadata)
    (engine : WorkflowDefinition → WorkflowExecution) (payload : Value)
    (checkpoint : Option ProtectionCheckpoint) (reason : Text) :
    m.execute engine id payload none checkpoint = .error (.disabled reason) ↔
      metadata.enabled = false ∧ reason = refusal metadata := by
  obtain ⟨registration, hregistration, rfl⟩ := Option.map_eq_some_iff.mp hactive
  rw [execute, hsealed, hregistration]
  change (if !registration.metadata.enabled then _ else _) = _ ↔ _
  cases henabled : registration.metadata.enabled with
  | false => simp [Registration.metadata, eq_comm]
  | true =>
    have passed : ∀ execution reason,
        validateExecution registration.capability execution ≠ .error (.disabled reason) := by
      intro execution reason
      unfold validateExecution
      split
      · exact nofun
      · split
        · exact nofun
        · split <;> exact nofun
    simp only [Bool.not_true, Bool.false_eq_true, if_false, reduceCtorEq, false_and, iff_false]
    split
    · exact nofun
    · split
      · exact nofun
      · split
        · exact nofun
        · split
          · exact nofun
          · exact passed _ _

end CapabilityManager

end Ares.Capabilities
