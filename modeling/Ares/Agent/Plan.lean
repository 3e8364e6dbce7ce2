import Mathlib.Data.List.Infix
import Mathlib.Data.List.Nodup
import Ares.Agent.Models

/-! The plan of a run: the diagnostics that an objective asks for, the step of each, and the
fingerprint that an authorization is bound to. -/

namespace Ares.Agent

open Data Storage

/-- What the fingerprint of a run covers of a step. -/
structure StepContent where
  id : String
  capabilityId : Option String
  targetResourceId : Option String
  requiresAuthorization : Bool
  risk : String
  action : Option TechnicalAction
  expectedResult : String
  verification : String
  dependencies : List String

structure RunContent where
  objective : String
  selectedResourceId : Option String
  selectedResourceFingerprint : Option String
  backendPlan : Option Json
  steps : List StepContent

structure Config where
  /-- `str.casefold`. -/
  casefold : String → String
  /-- `str.isalnum`. -/
  isalnum : Char → Bool
  sha256 : RunContent → String

def runFingerprint (cfg : Config) (run : AgentRun) (selected : Option ResourceCandidate) : String :=
  "sha256:" ++ cfg.sha256 {
    objective := run.objective
    selectedResourceId := run.selectedResourceId
    selectedResourceFingerprint := selected.map (·.stableIdentity)
    backendPlan := run.backendPlan
    steps := run.steps.map fun step => {
      id := step.id
      capabilityId := step.capabilityId
      targetResourceId := step.targetResourceId
      requiresAuthorization := step.requiresAuthorization
      risk := step.risk
      action := step.action
      expectedResult := step.expectedResult
      verification := step.verification
      dependencies := step.dependencies } }

def selectResource (resources : List ResourceCandidate) (resourceId : Option String) :
    Option ResourceCandidate :=
  match resourceId with
  | none => none
  | some id => resources.find? fun item => item.resourceId = id

/-- `_recommended`: the only recommended resource of the first kind that has one, or the first
resource. -/
def recommended (resources : List ResourceCandidate) : Option ResourceCandidate :=
  let unique := [ResourceKind.operatingSystem, .disk, .recoveryEnvironment].findSome? fun kind =>
    match resources.filter fun item => item.kind = kind ∧ item.recommended with
    | [item] => some item
    | _ => none
  unique <|> resources.head?

/-- `any(term in lowered for term in terms)`. -/
def mentions (lowered : String) (terms : List String) : Bool :=
  terms.any fun term => decide (term.toList <:+: lowered.toList)

def mentionsBoot (cfg : Config) (objective : String) : Bool :=
  mentions (cfg.casefold objective) ["arranque", "inicia", "boot", "grub", "uefi", "bios"]

def plannerGoal (cfg : Config) (objective : String) : String :=
  if mentionsBoot cfg objective &&
      !mentions (cfg.casefold objective) ["disco", "disk", "storage", "particion", "filesystem"] then
    objective ++ ". Analizar almacenamiento, particiones, filesystem y montajes."
  else objective

structure EvidenceFact where
  id : String
  confidence : String
deriving DecidableEq

def evidenceFromResources (resources : List ResourceCandidate) : List EvidenceFact :=
  if resources.any fun item => item.kind = .disk then [⟨"hardware.block-devices", "0.8"⟩] else []

def diskAnalysis : String := "storage.disk-analysis"

/-- The diagnostics that an objective may ask for, with the terms that ask for each. -/
def groups : List (String × List String) :=
  [("storage.space-analysis",
      ["espacio", "disco lleno", "archivos grandes", "liberar", "caché", "cache", "disk usage"]),
    ("system.memory-analysis", ["memoria", " ram", "swap", "oom", "memory"]),
    ("packages.health-check",
      ["paquete", "apt", "dpkg", "dependencia", "actualización", "actualizacion"]),
    ("services.failure-analysis",
      ["servicio", "systemd", "daemon", "unidades fallidas", "failed service"]),
    ("boot.diagnose", ["arranque", "no inicia", "boot", "grub", "uefi", "bios"])]

def requestedCapabilities (cfg : Config) (objective : String) : List String :=
  let lowered := cfg.casefold objective
  let comprehensive := mentions lowered
    ["diagnóstico completo", "diagnostico completo", "analiza todo", "salud del sistema"]
  diskAnalysis ::
    (groups.filter fun group => comprehensive || mentions lowered group.2).map Prod.fst

structure StepDetails where
  stepId : String
  objective : String
  summary : List String
  result : String
  verification : String
  dependencies : List String
deriving DecidableEq

def details : List (String × StepDetails) :=
  [("storage.disk-analysis", {
      stepId := "collect-storage-evidence"
      objective := "Detectar discos, particiones, filesystems y sistemas instalados."
      summary := [
        "Ejecutar probes pasivos allowlisted de almacenamiento.",
        "Persistir snapshot local de ARES.",
        "Actualizar Knowledge Graph local."]
      result := "Snapshot estructurado de almacenamiento y diagnóstico inicial."
      verification := "El workflow debe producir snapshot_id mediante evidencia real."
      dependencies := [] }),
    ("storage.space-analysis", {
      stepId := "analyze-storage-space"
      objective := "Medir capacidad, inodos y categorías que consumen espacio sin borrar."
      summary := [
        "Consultar statvfs del target resuelto por ARES.",
        "Recorrer metadatos con límites, sin seguir symlinks ni leer contenido personal.",
        "Estimar categorías recuperables sin ejecutar limpieza."]
      result := "SpaceAnalysisResult con consumidores, estimaciones y limitaciones."
      verification := "El resultado debe incluir fingerprint, evidencia y métricas tipadas."
      dependencies := ["collect-storage-evidence"] }),
    ("system.memory-analysis", {
      stepId := "analyze-system-memory"
      objective := "Distinguir presión real, caché, swap y evidencia histórica OOM."
      summary := [
        "Normalizar métricas /proc únicamente para el runtime accesible.",
        "Separar explícitamente evidencia histórica de un target offline.",
        "No terminar procesos, vaciar cachés ni cambiar sysctl."]
      result := "MemoryAnalysisResult con scope runtime u offline inequívoco."
      verification := "No debe atribuir métricas actuales a un sistema offline."
      dependencies := ["collect-storage-evidence"] }),
    ("packages.health-check", {
      stepId := "check-package-health"
      objective := "Revisar coherencia dpkg/APT sin red, locks de escritura ni scripts."
      summary := [
        "Leer metadatos locales dpkg/APT de forma acotada.",
        "Detectar estados incompletos y actualizaciones interrumpidas.",
        "No ejecutar apt update, install, remove ni dpkg --configure."]
      result := "PackageHealthResult con estado y evidencia normalizada."
      verification := "El target debe conservarse sin cambios y sin conexiones de red."
      dependencies := ["collect-storage-evidence"] }),
    ("services.failure-analysis", {
      stepId := "analyze-service-failures"
      objective := "Identificar unidades fallidas y evidencia persistente sin reiniciarlas."
      summary := [
        "Consultar el estado systemd con una invocación fija allowlisted.",
        "Tratar logs y nombres de unidad como datos no confiables.",
        "No reiniciar, habilitar, deshabilitar ni modificar servicios."]
      result := "ServiceFailureResult con unidades y hallazgos acotados."
      verification := "La salida debe estar normalizada y libre de comandos arbitrarios."
      dependencies := ["collect-storage-evidence"] }),
    ("boot.diagnose", {
      stepId := "diagnose-boot"
      objective := "Diagnosticar evidencia de arranque sin modificar GRUB ni NVRAM."
      summary := [
        "Leer snapshot de almacenamiento persistido por ARES.",
        "Determinar firmware UEFI/BIOS desde evidencia local.",
        "Identificar sistemas instalados, candidatos EFI y GRUB visible."]
      result := "BootDiagnosticResult con hallazgos, evidencia y limitaciones."
      verification := "El workflow debe producir findings tipados sin reparar."
      dependencies := ["collect-storage-evidence"] })]

def diagnosticStep (targetResourceId : Option String) (evidenceIds : List String)
    (capabilityId : String) (item : StepDetails) : AgentPlanStep where
  id := item.stepId
  objective := item.objective
  state := .authorizationRequired
  capabilityId := some capabilityId
  targetResourceId
  prerequisites := ["Target identificado por ARES y autorización contextual vigente."]
  risk := "low"
  requiresAuthorization := true
  requiresProtection := false
  action := some {
    capabilityId
    operationClass := "observe"
    risk := "low"
    privileged := true
    commandsVisible := true
    commandSummary := item.summary
    expectedChanges := "Ninguno sobre el target; solo evidencia local de ARES." }
  expectedResult := item.result
  verification := item.verification
  rollbackStrategy := "No aplica: diagnóstico de solo lectura."
  dependencies := item.dependencies
  evidence := evidenceIds
  result := none
  errorCode := none

def diagnosticSteps (cfg : Config) (objective : String) (targetResourceId : Option String)
    (evidenceIds : List String) : List AgentPlanStep :=
  (requestedCapabilities cfg objective).filterMap fun capabilityId =>
    (details.lookup capabilityId).map (diagnosticStep targetResourceId evidenceIds capabilityId)

def capabilityPayload (capabilityId : String) (snapshotId targetResourceId : Option String) :
    Fields :=
  let payload : Fields :=
    [("snapshot_id", .optStr snapshotId), ("target_resource_id", .optStr targetResourceId)]
  if capabilityId = "storage.space-analysis" then payload.set "analysis_depth" (.str "standard")
  else payload

/-! ### What every plan is -/

def diagnostics : List String := diskAnalysis :: groups.map Prod.fst

/-- The part of a step that no call changes. -/
structure Shape where
  id : String
  capabilityId : Option String
  requiresAuthorization : Bool
deriving DecidableEq

def AgentPlanStep.shape (step : AgentPlanStep) : Shape where
  id := step.id
  capabilityId := step.capabilityId
  requiresAuthorization := step.requiresAuthorization

def AgentRun.shapes (run : AgentRun) : List Shape := run.steps.map AgentPlanStep.shape

/-- Steps of distinct diagnostics, with the collection of the storage evidence in front. -/
structure Planned (shapes : List Shape) : Prop where
  diagnostic : ∀ shape ∈ shapes, ∃ c ∈ diagnostics, shape.capabilityId = some c
  authorized : ∀ shape ∈ shapes, shape.requiresAuthorization = true
  distinct : (shapes.map (·.capabilityId)).Nodup
  first : (shapes.map (·.capabilityId)).head? = some (some diskAnalysis)

theorem requestedCapabilities_sublist (cfg : Config) (objective : String) :
    (requestedCapabilities cfg objective).Sublist diagnostics :=
  (List.filter_sublist.map Prod.fst).cons_cons _

theorem details_isSome {c : String} (h : c ∈ diagnostics) : (details.lookup c).isSome := by
  revert c
  decide

section Steps

variable (cfg : Config) (objective : String) (targetResourceId : Option String)
  (evidenceIds : List String)

theorem capabilities_diagnosticSteps :
    (diagnosticSteps cfg objective targetResourceId evidenceIds).map (·.capabilityId) =
      (requestedCapabilities cfg objective).map some := by
  rw [diagnosticSteps, List.map_filterMap, ← List.filterMap_eq_map]
  refine List.filterMap_congr fun c hc => ?_
  obtain ⟨item, hitem⟩ := Option.isSome_iff_exists.mp
    (details_isSome ((requestedCapabilities_sublist cfg objective).subset hc))
  simp [hitem, diagnosticStep]

theorem planned_diagnosticSteps :
    Planned ((diagnosticSteps cfg objective targetResourceId evidenceIds).map
      AgentPlanStep.shape) := by
  have hcaps : ((diagnosticSteps cfg objective targetResourceId evidenceIds).map
      AgentPlanStep.shape).map (·.capabilityId) = (requestedCapabilities cfg objective).map some := by
    rw [List.map_map]
    exact capabilities_diagnosticSteps cfg objective targetResourceId evidenceIds
  refine ⟨fun shape hshape => ?_, fun shape hshape => ?_, ?_, ?_⟩
  · have hmem := hcaps ▸ List.mem_map_of_mem (f := Shape.capabilityId) hshape
    obtain ⟨c, hc, heq⟩ := List.mem_map.mp hmem
    exact ⟨c, (requestedCapabilities_sublist cfg objective).subset hc, heq.symm⟩
  · obtain ⟨step, hstep, rfl⟩ := List.mem_map.mp hshape
    obtain ⟨c, -, hc⟩ := List.mem_filterMap.mp hstep
    obtain ⟨item, -, rfl⟩ := Option.map_eq_some_iff.mp hc
    rfl
  · rw [hcaps]
    have hnodup : diagnostics.Nodup := by decide
    exact List.Nodup.map (fun _ _ h => Option.some.inj h)
      (hnodup.sublist (requestedCapabilities_sublist cfg objective))
  · rw [hcaps]
    rfl

end Steps

end Ares.Agent
