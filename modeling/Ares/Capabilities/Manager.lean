import Ares.Capabilities.Models
import Ares.Data.DepthFirst
import Mathlib.Data.List.Infix

/-! The capability manager: loading and sealing the registry, its catalog, the dependencies of a
capability in topological order, and the checks before an execution. -/

namespace Ares.Capabilities

open Data

structure Registration where
  capability : Capability
  pluginId : Text
  pluginVersion : Text

def Registration.metadata (r : Registration) : CapabilityMetadata := r.capability.metadata

/-- The system that the manager runs on. -/
structure System where
  osFamily : Text
  osVersion : Text
  architecture : Text
  liveMode : Text
  version_pattern : versionPattern 1 3 osVersion = true

/-- `CapabilityManager`: `_capabilities` by id and version, `_plugins` by id and version, and
`_sealed`. -/
structure CapabilityManager where
  system : System
  capabilities : Dict Text (Dict Text Registration)
  keyed : ∀ id versions version registration, capabilities.get? id = some versions →
    versions.get? version = some registration →
    registration.metadata.id = id ∧ registration.metadata.version = version
  plugins : Dict (Text × Text) CapabilityPlugin
  isSealed : Bool

namespace CapabilityManager

def new (system : System) : CapabilityManager where
  system := system
  capabilities := .empty
  keyed _ _ _ _ h := by
    rw [Dict.get?_empty] at h
    cases h
  plugins := .empty
  isSealed := false

variable (m : CapabilityManager)

/-! ### Versions -/

/-- `max(versions, key=_version_tuple)`: the first of the highest versions. -/
def highest : List Text → Option Text
  | [] => none
  | version :: versions =>
      some (versions.foldl
        (fun best version => if versionTuple best < versionTuple version then version else best)
        version)

/-- `_active_version`; `none` is the `KeyError`. -/
def activeVersion (id : Text) : Option Text :=
  (m.capabilities.get? id).bind fun versions => highest versions.keys

/-- `_registration`; an empty version is none. -/
def registration (id : Text) (version : Option Text) : Option Registration := do
  let versions ← m.capabilities.get? id
  let selected ← (version.filter (· ≠ [])).or (highest versions.keys)
  versions.get? selected

/-! ### Dependencies -/

inductive ResolveError
  /-- `KeyError` of an id that is not in the registry. -/
  | unknown (id : Text)
  | cycle
  | unavailable
  | fuel
deriving DecidableEq

def graph : DepthFirst Text CapabilityMetadata where
  node? id := (m.registration id none).map (·.metadata)
  dependencies := (·.dependencies)

/-- `resolve_dependencies`; `visit` is `DepthFirst.visit`. -/
def resolveDependencies (id : Text) : Except ResolveError (List CapabilityMetadata) :=
  if (m.capabilities.get? id).isNone then .error (.unknown id)
  else
    match m.graph.sort m.capabilities.keys.length id with
    | .ok visited => .ok visited.ordered
    | .error .cycle => .error .cycle
    | .error .missing => .error .unavailable
    | .error .fuel => .error .fuel

/-! ### Loading -/

inductive LoadError
  | isSealed
  | duplicatePlugin
  | coreApi
  | incompatible
  | manifest
  /-- "capability input_model must be a Pydantic model", or the same of output_model -/
  | model (label : String)
  | readOnlyOperation
  | authorization
  | protectionCheckpoint
  | enabledWithReason
  | disabledWithoutReason
  | permission
  | duplicateCapability
deriving DecidableEq

/-- `_validate_compatibility` raises nothing. -/
def compatible (system : System) (os : OSCompatibility) : Bool :=
  os.families.contains system.osFamily && os.architectures.contains system.architecture &&
    os.liveModes.contains system.liveMode &&
    os.minimumVersion.all fun version => !(versionTuple system.osVersion < versionTuple version)

/-- The first check of `_register_capability` that fails, before the registry is read. -/
def contractError (system : System) (manifest : PluginManifest) (capability : Capability) :
    Option LoadError :=
  let metadata := capability.metadata
  if !capability.inputModel then some (.model "input_model")
  else if !capability.outputModel then some (.model "output_model")
  else if metadata.mode = .readOnly && metadata.operation ≠ .observe then some .readOnlyOperation
  else if metadata.requiresAuthorization && metadata.mode ≠ .mutating then some .authorization
  else if metadata.requiresProtectionCheckpoint && metadata.mode ≠ .mutating then
    some .protectionCheckpoint
  else if metadata.enabled && metadata.disabledReason.isSome then some .enabledWithReason
  else if !metadata.enabled && (metadata.disabledReason.filter (· ≠ [])).isNone then
    some .disabledWithoutReason
  else if !compatible system metadata.osCompatibility then some .incompatible
  else if !metadata.permissions.all manifest.permissions.contains then some .permission
  else none

/-- `versions[metadata.version] = _Registration(…)`. -/
def addRegistration (registration : Registration) : CapabilityManager :=
  let id := registration.metadata.id
  let versions := (m.capabilities.get? id).getD .empty
  { m with
    capabilities :=
      m.capabilities.set id (versions.set registration.metadata.version registration)
    keyed := fun key found version other hfound hother => by
      rw [Dict.get?_set] at hfound
      split at hfound
      · next hkey =>
        obtain rfl := Option.some.inj hfound
        rw [Dict.get?_set] at hother
        split at hother
        · next hversion =>
          obtain rfl := Option.some.inj hother
          exact ⟨(eq_of_beq hkey).symm, (eq_of_beq hversion).symm⟩
        · cases hold : m.capabilities.get? id with
          | none =>
            rw [show versions = .empty by simp only [versions, hold, Option.getD_none]] at hother
            cases hother
          | some old =>
            rw [show versions = old by simp only [versions, hold, Option.getD_some]] at hother
            rw [eq_of_beq hkey]
            exact m.keyed id old version other hold hother
      · exact m.keyed key found version other hfound hother }

/-- `_register_capability`. -/
def registerCapability (manifest : PluginManifest) (capability : Capability) :
    Except LoadError CapabilityManager :=
  match contractError m.system manifest capability with
  | some e => .error e
  | none =>
    let metadata := capability.metadata
    if (((m.capabilities.get? metadata.id).getD .empty).get? metadata.version).isSome then
      .error .duplicateCapability
    else .ok (m.addRegistration ⟨capability, manifest.id, manifest.version⟩)

def registerAll (manifest : PluginManifest) :
    CapabilityManager → List Capability → Except LoadError Unit × CapabilityManager
  | m, [] => (.ok (), m)
  | m, capability :: capabilities =>
    match m.registerCapability manifest capability with
    | .error e => (.error e, m)
    | .ok m => registerAll manifest m capabilities

/-- One turn of the loop of `load`. -/
def loadPlugin (plugin : CapabilityPlugin) : Except LoadError Unit × CapabilityManager :=
  let manifest := plugin.manifest
  if (m.plugins.get? (manifest.id, manifest.version)).isSome then (.error .duplicatePlugin, m)
  else if manifest.coreApiVersion ≠ Text.ofString "2.0" then (.error .coreApi, m)
  else if !compatible m.system manifest.osCompatibility then (.error .incompatible, m)
  else if plugin.capabilities.map (·.metadata.id) ≠ manifest.capabilities then
    (.error .manifest, m)
  else
    match registerAll manifest m plugin.capabilities with
    | (.error e, m) => (.error e, m)
    | (.ok (), m) =>
      (.ok (), { m with plugins := m.plugins.set (manifest.id, manifest.version) plugin })

def loadAll : CapabilityManager → List CapabilityPlugin → Except LoadError Unit × CapabilityManager
  | m, [] => (.ok (), m)
  | m, plugin :: plugins =>
    match m.loadPlugin plugin with
    | (.error e, m) => (.error e, m)
    | (.ok (), m) => loadAll m plugins

/-- `load`, with the registry that it leaves. -/
def load (plugins : List CapabilityPlugin) : Except LoadError Unit × CapabilityManager :=
  if m.isSealed then (.error .isSealed, m) else loadAll m plugins

/-! ### Sealing -/

inductive SealError
  | plugin
  | capability
  | resolve (e : ResolveError)
deriving DecidableEq

def pluginsAvailable : Bool :=
  m.plugins.values.all fun plugin =>
    plugin.manifest.dependencies.all (m.plugins.keys.map Prod.fst).contains

def capabilitiesAvailable : Bool :=
  m.capabilities.values.all fun versions => versions.values.all fun registration =>
    registration.metadata.dependencies.all m.capabilities.keys.contains

def resolveError? (id : Text) : Option ResolveError :=
  match m.resolveDependencies id with
  | .error e => some e
  | .ok _ => none

/-- `seal`; of several capabilities that do not resolve, the error is that of one of them. -/
def «seal» : Except SealError Unit × CapabilityManager :=
  if !m.pluginsAvailable then (.error .plugin, m)
  else if !m.capabilitiesAvailable then (.error .capability, m)
  else
    match m.capabilities.keys.findSome? m.resolveError? with
    | some e => (.error (.resolve e), m)
    | none => (.ok (), { m with isSealed := true })

/-! ### The catalog -/

def descriptor (id : Text) (version : Option Text) : Option CapabilityDescriptor :=
  (m.registration id version).map fun registration =>
    { metadata := registration.metadata
      pluginId := registration.pluginId
      pluginVersion := registration.pluginVersion
      active := m.activeVersion id = some registration.metadata.version }

/-- `get`. -/
def get (id : Text) (version : Option Text) : Option CapabilityMetadata :=
  (m.descriptor id version).map (·.metadata)

/-- The string functions of Python that are asked here. -/
structure TextLibrary where
  /-- `str.casefold`. -/
  casefold : Text → Text
  /-- `str.isspace` of one character. -/
  isspace : CodePoint → Bool

/-- `text.split()`. -/
def TextLibrary.split (lib : TextLibrary) (text : Text) : List Text :=
  (text.splitOnP lib.isspace).filter (· ≠ [])

/-- `" ".join(…)`. -/
def joinSpaces (texts : List Text) : Text := (Text.ofString " ").intercalate texts

def haystack (lib : TextLibrary) (metadata : CapabilityMetadata) : Text :=
  lib.casefold (joinSpaces
    ([metadata.id, metadata.name, metadata.description, metadata.objective] ++ metadata.keywords))

def describes (lib : TextLibrary) (query : Option Text) (category : Option CapabilityCategory)
    (metadata : CapabilityMetadata) : Bool :=
  category.all (metadata.category = ·) &&
    (lib.split (lib.casefold (query.getD []))).all fun term =>
      List.IsInfix term (haystack lib metadata)

def idLe (a b : CapabilityDescriptor) : Prop := a.metadata.id ≤ b.metadata.id

instance : DecidableRel idLe :=
  fun a b => inferInstanceAs (Decidable (a.metadata.id ≤ b.metadata.id))

def descriptors (lib : TextLibrary) (query : Option Text) (category : Option CapabilityCategory) :
    List CapabilityDescriptor :=
  ((m.capabilities.keys.filterMap fun id => m.descriptor id none).filter fun descriptor =>
    describes lib query category descriptor.metadata).insertionSort idLe

def catalog (lib : TextLibrary) (query : Option Text) (category : Option CapabilityCategory) :
    List CapabilityMetadata :=
  (m.descriptors lib query category).map (·.metadata)

end CapabilityManager

end Ares.Capabilities
