import Ares.Capabilities.Manager

/-! `resolve_dependencies` is a topological sort of what a capability depends on, and a sealed
registry resolves every capability. -/

namespace Ares.Capabilities

open Data

namespace CapabilityManager

variable {m : CapabilityManager}

/-! ### Active versions -/

theorem foldl_highest (versions : List Text) (first : Text) :
    versions.foldl (fun best version =>
        if versionTuple best < versionTuple version then version else best) first ∈
      first :: versions ∧
    ∀ version ∈ first :: versions, versionTuple version ≤ versionTuple
      (versions.foldl (fun best version =>
        if versionTuple best < versionTuple version then version else best) first) := by
  induction versions generalizing first with
  | nil => simp
  | cons version versions ih =>
    rw [List.foldl_cons]
    split
    · next hlt =>
      obtain ⟨hm, hall⟩ := ih version
      refine ⟨List.mem_cons_of_mem _ hm, fun other hother => ?_⟩
      rcases List.mem_cons.mp hother with rfl | hother
      · exact hlt.le.trans (hall version List.mem_cons_self)
      · exact hall other hother
    · next hlt =>
      obtain ⟨hm, hall⟩ := ih first
      have hfirst := hall first List.mem_cons_self
      refine ⟨?_, fun other hother => ?_⟩
      · rcases List.mem_cons.mp hm with hm | hm
        · rw [hm]
          exact List.mem_cons_self
        · exact List.mem_cons_of_mem _ (List.mem_cons_of_mem _ hm)
      · rcases List.mem_cons.mp hother with rfl | hother
        · exact hfirst
        · rcases List.mem_cons.mp hother with rfl | hother
          · exact (not_lt.mp hlt).trans hfirst
          · exact hall other (List.mem_cons_of_mem _ hother)

theorem highest_spec {versions : List Text} {version : Text}
    (h : highest versions = some version) :
    version ∈ versions ∧ ∀ v ∈ versions, versionTuple v ≤ versionTuple version := by
  cases versions with
  | nil => cases h
  | cons first versions =>
    obtain rfl := Option.some.inj h
    exact foldl_highest versions first

variable {id : Text}

theorem registration_spec {version : Option Text} {r : Registration}
    (h : m.registration id version = some r) :
    ∃ versions selected, m.capabilities.get? id = some versions ∧
      (version.filter (· ≠ [])).or (highest versions.keys) = some selected ∧
      versions.get? selected = some r := by
  obtain ⟨versions, hversions, h⟩ := Option.bind_eq_some_iff.mp h
  obtain ⟨selected, hselected, h⟩ := Option.bind_eq_some_iff.mp h
  exact ⟨versions, selected, hversions, hselected, h⟩

theorem registration_id {version : Option Text} {r : Registration}
    (h : m.registration id version = some r) : r.metadata.id = id := by
  obtain ⟨versions, selected, hversions, -, hr⟩ := registration_spec h
  exact (m.keyed id versions selected r hversions hr).1

/-- The metadata of the active version. -/
def active (m : CapabilityManager) (id : Text) : Option CapabilityMetadata :=
  (m.registration id none).map (·.metadata)

theorem active_id {metadata : CapabilityMetadata}
    (h : m.active id = some metadata) : metadata.id = id := by
  obtain ⟨r, hr, rfl⟩ := Option.map_eq_some_iff.mp h
  exact registration_id hr

theorem active_highest {metadata : CapabilityMetadata}
    (h : m.active id = some metadata) {versions : Dict Text Registration}
    (hversions : m.capabilities.get? id = some versions) :
    ∀ version ∈ versions.keys, versionTuple version ≤ versionTuple metadata.version := by
  obtain ⟨r, hr, rfl⟩ := Option.map_eq_some_iff.mp h
  obtain ⟨found, selected, hfound, hselected, hget⟩ := registration_spec hr
  rw [hversions] at hfound
  obtain rfl := Option.some.inj hfound
  rw [(m.keyed id versions selected r hversions hget).2]
  exact (highest_spec hselected).2

/-! ### Resolving -/

/-- Some version of the capability is registered. -/
def Registered (m : CapabilityManager) (id : Text) : Prop := (m.active id).isSome

theorem get?_of_active {metadata : CapabilityMetadata}
    (h : m.active id = some metadata) : ∃ versions, m.capabilities.get? id = some versions := by
  obtain ⟨r, hr, -⟩ := Option.map_eq_some_iff.mp h
  obtain ⟨versions, -, hversions, -⟩ := registration_spec hr
  exact ⟨versions, hversions⟩

theorem mem_keys_of_node (id : Text) (h : (m.graph.node? id).isSome) :
    id ∈ m.capabilities.keys := by
  obtain ⟨metadata, hmetadata⟩ := Option.isSome_iff_exists.mp h
  exact Dict.mem_keys.mpr (get?_of_active hmetadata)

/-- The dependency closure of a capability, in dependency order: the active metadata of each
capability that it reaches, once, after all its dependencies, and the capability itself last. -/
structure Closure (m : CapabilityManager) (id : Text) (ordered : List CapabilityMetadata) : Prop where
  active : ∀ metadata ∈ ordered, m.active metadata.id = some metadata
  highest : ∀ metadata ∈ ordered, ∀ versions, m.capabilities.get? metadata.id = some versions →
    ∀ version ∈ versions.keys, versionTuple version ≤ versionTuple metadata.version
  reached : ∀ key, key ∈ ordered.map (·.id) ↔ m.graph.Reaches id key
  once : (ordered.map (·.id)).Nodup
  before : ∀ front metadata back, ordered = front ++ metadata :: back →
    ∀ d ∈ metadata.dependencies, d ∈ front.map (·.id)
  last : ordered.getLast?.map (·.id) = some id

theorem closure_of_ordered {keys : List Text} {ordered : List CapabilityMetadata}
    (h : DepthFirst.Ordered m.graph id keys ordered) : Closure m id ordered := by
  have hlookup : List.Forall₂ (fun key metadata => m.active key = some metadata) keys ordered := by
    have hmap := h.nodes
    rw [← List.forall₂_eq_eq_eq, List.forall₂_map_left_iff, List.forall₂_map_right_iff] at hmap
    exact hmap.flip.imp fun _ _ heq => heq.symm
  have hkeys : keys = ordered.map (·.id) := by
    rw [← List.forall₂_eq_eq_eq, List.forall₂_map_right_iff]
    exact hlookup.imp fun _ _ hactive => (active_id hactive).symm
  have hactive : ∀ metadata ∈ ordered, m.active metadata.id = some metadata := by
    intro metadata hm
    obtain ⟨i, hi, rfl⟩ := List.mem_iff_getElem.mp hm
    have hget := hlookup.get (hlookup.length_eq ▸ hi) hi
    rw [List.get_eq_getElem, List.get_eq_getElem] at hget
    rw [active_id hget]
    exact hget
  refine ⟨hactive, fun metadata hm _ => active_highest (hactive metadata hm),
    fun key => hkeys ▸ h.reached key, hkeys ▸ h.nodup, ?_, ?_⟩
  · rintro front metadata back rfl d hd
    refine h.before (front.map (·.id)) metadata.id (back.map (·.id)) (by simp [hkeys]) d ?_
    exact ⟨metadata, hactive metadata (by simp), hd⟩
  · rw [← List.getLast?_map, ← hkeys]
    exact h.last

theorem resolve_eq (h : m.Registered id) :
    m.resolveDependencies id =
      match m.graph.sort m.capabilities.keys.length id with
      | .ok visited => .ok visited.ordered
      | .error .cycle => .error .cycle
      | .error .missing => .error .unavailable
      | .error .fuel => .error .fuel := by
  obtain ⟨metadata, hmetadata⟩ := Option.isSome_iff_exists.mp h
  obtain ⟨versions, hversions⟩ := get?_of_active hmetadata
  rw [resolveDependencies, hversions]
  rfl

theorem resolve_ne_fuel (h : m.Registered id) :
    m.resolveDependencies id ≠ .error .fuel := by
  have hfuel : m.graph.sort m.capabilities.keys.length id ≠ .error .fuel :=
    DepthFirst.sort_ne_fuel mem_keys_of_node
  rw [resolve_eq h]
  split <;> simp_all

theorem resolve_error_iff (h : m.Registered id) :
    (∃ e, m.resolveDependencies id = .error e) ↔ m.graph.Faulty id := by
  rw [← DepthFirst.sort_error_iff mem_keys_of_node, resolve_eq h]
  cases m.graph.sort m.capabilities.keys.length id with
  | ok visited => simp
  | error e => cases e <;> simp

theorem closure_of_resolve {ordered : List CapabilityMetadata}
    (h : m.resolveDependencies id = .ok ordered) : Closure m id ordered := by
  unfold resolveDependencies at h
  split at h
  · cases h
  · split at h
    · next visited hsort =>
      obtain rfl := Except.ok.inj h
      exact closure_of_ordered (DepthFirst.ordered_of_sort mem_keys_of_node hsort)
    all_goals cases h

/-! ### A sealed registry -/

/-- A call on the manager that may change it. -/
inductive Call
  | load (plugins : List CapabilityPlugin)
  | «seal»

def call (m : CapabilityManager) : Call → CapabilityManager
  | .load plugins => (m.load plugins).2
  | .seal => m.seal.2

def Resolves (m : CapabilityManager) : Prop :=
  ∀ id ∈ m.capabilities.keys, ∃ ordered, m.resolveDependencies id = .ok ordered

theorem resolves_of_none (h : m.capabilities.keys.findSome? m.resolveError? = none) :
    m.Resolves := by
  intro id hid
  have hnone := List.findSome?_eq_none_iff.mp h id hid
  rw [resolveError?] at hnone
  split at hnone
  · cases hnone
  · next ordered hordered => exact ⟨ordered, hordered⟩

theorem resolves_of_seal (h : m.seal.1 = .ok ()) : m.seal.2.isSealed ∧ m.seal.2.Resolves := by
  revert h
  rw [«seal»]
  split
  · exact nofun
  · split
    · exact nofun
    · split
      · exact nofun
      · next hnone => exact fun _ => ⟨rfl, resolves_of_none hnone⟩

theorem call_sealed (c : Call) (h : m.isSealed) :
    (m.call c).isSealed ∧ (m.call c).capabilities = m.capabilities := by
  cases c with
  | load plugins =>
    rw [call, load, if_pos h]
    exact ⟨h, rfl⟩
  | «seal» =>
    rw [call, «seal»]
    split
    · exact ⟨h, rfl⟩
    · split
      · exact ⟨h, rfl⟩
      · split
        · exact ⟨h, rfl⟩
        · exact ⟨rfl, rfl⟩

theorem resolve_congr {m m' : CapabilityManager} (h : m.capabilities = m'.capabilities)
    (id : Text) : m.resolveDependencies id = m'.resolveDependencies id := by
  have hregistration : m.registration = m'.registration := by
    funext id version
    rw [registration, registration, h]
  rw [resolveDependencies, resolveDependencies, graph, graph, hregistration, h]

/-- The registry after some calls. -/
def calls (m : CapabilityManager) (cs : List Call) : CapabilityManager := cs.foldl call m

theorem resolves_calls (cs : List Call) (hsealed : m.isSealed) (h : m.Resolves) :
    (m.calls cs).isSealed ∧ (m.calls cs).Resolves := by
  induction cs generalizing m with
  | nil => exact ⟨hsealed, h⟩
  | cons c cs ih =>
    obtain ⟨hcall, hsame⟩ := call_sealed c hsealed
    refine ih hcall fun id hid => ?_
    rw [hsame] at hid
    obtain ⟨ordered, hordered⟩ := h id hid
    exact ⟨ordered, (resolve_congr hsame id).trans hordered⟩

theorem registerAll_isSealed (manifest : PluginManifest) (capabilities : List Capability) :
    (registerAll manifest m capabilities).2.isSealed = m.isSealed := by
  induction capabilities generalizing m with
  | nil => rfl
  | cons capability capabilities ih =>
    rw [registerAll]
    split
    · rfl
    · next registered hregister =>
      rw [ih]
      unfold registerCapability at hregister
      split at hregister
      · cases hregister
      · dsimp only at hregister
        split at hregister
        · cases hregister
        · obtain rfl := Except.ok.inj hregister
          rfl

theorem loadPlugin_isSealed (plugin : CapabilityPlugin) :
    (m.loadPlugin plugin).2.isSealed = m.isSealed := by
  unfold loadPlugin
  dsimp only
  split
  · rfl
  · split
    · rfl
    · split
      · rfl
      · split
        · rfl
        · have hsame := registerAll_isSealed (m := m) plugin.manifest plugin.capabilities
          split
          · next hresult =>
            rw [hresult] at hsame
            exact hsame
          · next hresult =>
            rw [hresult] at hsame
            exact hsame

theorem load_isSealed (plugins : List CapabilityPlugin) :
    (m.load plugins).2.isSealed = m.isSealed := by
  have all : ∀ (plugins : List CapabilityPlugin) (m : CapabilityManager),
      (loadAll m plugins).2.isSealed = m.isSealed := by
    intro plugins
    induction plugins with
    | nil => exact fun _ => rfl
    | cons plugin plugins ih =>
      intro m
      have hsame := loadPlugin_isSealed (m := m) plugin
      rw [loadAll]
      split
      · next hresult =>
        rw [hresult] at hsame
        exact hsame
      · next hresult =>
        rw [hresult] at hsame
        rw [ih]
        exact hsame
  rw [load]
  split
  · rfl
  · exact all plugins m

theorem resolves_of_sealed (system : System) (cs : List Call)
    (h : ((new system).calls cs).isSealed) : ((new system).calls cs).Resolves := by
  have run : ∀ (cs : List Call) (m : CapabilityManager), (m.isSealed → m.Resolves) →
      (m.calls cs).isSealed → (m.calls cs).Resolves := by
    intro cs
    induction cs with
    | nil => exact fun _ hm => hm
    | cons c cs ih =>
      intro m hm
      refine ih (m.call c) fun hcall => ?_
      by_cases hsealed : m.isSealed
      · exact (resolves_calls [c] hsealed (hm hsealed)).2
      · cases c with
        | load plugins =>
          rw [call, load_isSealed] at hcall
          exact absurd hcall hsealed
        | «seal» =>
          revert hcall
          rw [call, «seal»]
          split
          · exact fun h => absurd h hsealed
          · split
            · exact fun h => absurd h hsealed
            · split
              · exact fun h => absurd h hsealed
              · next hnone => exact fun _ => resolves_of_none hnone
  exact run cs (new system) nofun h

theorem mem_keys_of_registered (h : m.Registered id) : id ∈ m.capabilities.keys :=
  mem_keys_of_node id h

/-- Resolving a registered capability ends; it raises exactly when the capability reaches one that
is not registered or one on a cycle, and otherwise returns its dependency closure in order.  Once
`seal` has succeeded it never raises. -/
theorem resolve_dependencies_correct (m : CapabilityManager) :
    (∀ id, m.Registered id →
      m.resolveDependencies id ≠ .error .fuel ∧
      ((∃ e, m.resolveDependencies id = .error e) ↔
        ∃ key, m.graph.Reaches id key ∧ (¬ m.Registered key ∨ m.graph.Cyclic key)) ∧
      ∀ ordered, m.resolveDependencies id = .ok ordered → Closure m id ordered) ∧
    (m.seal.1 = .ok () → ∀ cs id, (m.seal.2.calls cs).Registered id →
      ∃ ordered, (m.seal.2.calls cs).resolveDependencies id = .ok ordered) := by
  refine ⟨fun id hid => ⟨resolve_ne_fuel hid, ?_, fun ordered => closure_of_resolve⟩, ?_⟩
  · rw [resolve_error_iff hid]
    refine exists_congr fun key => and_congr_right fun _ => or_congr_left ?_
    rw [Registered, Bool.not_eq_true, Option.isSome_eq_false_iff, Option.isNone_iff_eq_none]
    rfl
  · intro hseal cs id hid
    obtain ⟨hsealed, hresolves⟩ := resolves_of_seal hseal
    exact (resolves_calls cs hsealed hresolves).2 id (mem_keys_of_registered hid)

end CapabilityManager

/-! ### Three capabilities -/

def sampleSystem : System where
  osFamily := Text.ofString "debian"
  osVersion := Text.ofString "13"
  architecture := Text.ofString "amd64"
  liveMode := Text.ofString "live"
  version_pattern := by decide +kernel

def sampleOS : OSCompatibility where
  families := [Text.ofString "debian"]
  architectures := [Text.ofString "amd64"]
  minimumVersion := none
  liveModes := [Text.ofString "live"]
  minimum_pattern := nofun

/-- A read-only capability that needs no permission; one with a reason is disabled. -/
def sampleMetadata (id keyword version : String) (dependencies evidence : List String)
    (disabledReason : Option String)
    (h : versionPattern 3 3 (Text.ofString version) = true) : CapabilityMetadata where
  id := Text.ofString id
  version := Text.ofString version
  name := Text.ofString "sample"
  description := Text.ofString "a capability"
  objective := Text.ofString "an objective"
  category := .storage
  operation := .observe
  mode := .readOnly
  osCompatibility := sampleOS
  risk := .low
  estimatedDurationSeconds := 0x3ff0000000000000
  permissions := []
  dependencies := dependencies.map Text.ofString
  internalActions := []
  requiresAuthorization := false
  requiresProtectionCheckpoint := false
  requiredEvidence := evidence.map Text.ofString
  keywords := [Text.ofString keyword]
  enabled := disabledReason.isNone
  disabledReason := disabledReason.map Text.ofString
  version_pattern := h

def sampleCapability (metadata : CapabilityMetadata) : Capability where
  metadata := metadata
  inputModel := true
  outputModel := true
  validateInput value := some ⟨none, none, none, value⟩
  buildWorkflow _ := some ⟨metadata.id, []⟩
  validateOutput := some

def samplePlugin (capabilities : List CapabilityMetadata) : CapabilityPlugin where
  manifest := {
    id := Text.ofString "sample.plugin"
    version := Text.ofString "1.0.0"
    coreApiVersion := Text.ofString "2.0"
    permissions := []
    dependencies := []
    osCompatibility := sampleOS
    capabilities := capabilities.map (·.id) }
  capabilities := capabilities.map sampleCapability

/-- The manager that has loaded the capabilities. -/
def loaded (capabilities : List CapabilityMetadata) : CapabilityManager :=
  ((CapabilityManager.new sampleSystem).load [samplePlugin capabilities]).2

theorem first_version : versionPattern 3 3 (Text.ofString "1.0.0") = true := by decide +kernel

/-- A diagnosis that depends on an inventory twice, once through an analysis, which has two
versions. -/
def diagnosis : List CapabilityMetadata :=
  [sampleMetadata "boot.diagnosis" "boot" "1.0.0" ["disk.inventory", "disk.analysis"] [] none
      first_version,
    sampleMetadata "disk.analysis" "disk" "2.10.0" ["disk.inventory"] [] none (by decide +kernel),
    sampleMetadata "disk.analysis" "disk" "2.9.0" ["boot.diagnosis"] [] none (by decide +kernel),
    sampleMetadata "disk.inventory" "list" "1.0.0" [] [] none first_version]

namespace CapabilityManager

theorem resolve_dependencies_sample :
    ∃ ordered, (loaded diagnosis).seal.2.resolveDependencies (Text.ofString "boot.diagnosis") =
        .ok ordered ∧
      ordered.map (fun metadata => (metadata.id, metadata.version)) =
        [(Text.ofString "disk.inventory", Text.ofString "1.0.0"),
          (Text.ofString "disk.analysis", Text.ofString "2.10.0"),
          (Text.ofString "boot.diagnosis", Text.ofString "1.0.0")] ∧
      Closure (loaded diagnosis).seal.2 (Text.ofString "boot.diagnosis") ordered := by
  have hseal : (loaded diagnosis).seal.1 = .ok () := by decide +kernel
  have hregistered :
      (loaded diagnosis).seal.2.Registered (Text.ofString "boot.diagnosis") := by
    have h : ((loaded diagnosis).seal.2.active (Text.ofString "boot.diagnosis")).isSome = true := by
      decide +kernel
    exact h
  obtain ⟨ordered, hordered⟩ :=
    (resolve_dependencies_correct (loaded diagnosis)).2 hseal [] _ hregistered
  refine ⟨ordered, hordered, ?_,
    ((resolve_dependencies_correct (loaded diagnosis).seal.2).1 _ hregistered).2.2 ordered hordered⟩
  have hids : ((loaded diagnosis).seal.2.resolveDependencies
      (Text.ofString "boot.diagnosis")).toOption.map
        (List.map fun metadata => (metadata.id, metadata.version)) =
      some [(Text.ofString "disk.inventory", Text.ofString "1.0.0"),
        (Text.ofString "disk.analysis", Text.ofString "2.10.0"),
        (Text.ofString "boot.diagnosis", Text.ofString "1.0.0")] := by decide +kernel
  have hordered' : (loaded diagnosis).seal.2.resolveDependencies (Text.ofString "boot.diagnosis") =
      .ok ordered := hordered
  rw [hordered'] at hids
  exact Option.some.inj hids

end CapabilityManager

end Ares.Capabilities
