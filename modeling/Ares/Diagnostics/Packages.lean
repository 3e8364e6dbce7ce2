import Ares.Data.Dict
import Ares.Diagnostics.Models
import Mathlib.Data.Rat.Floor

/-! `packages.health-check`: the status file of dpkg, the verdict on it, and when the verdict on a
consistent file is no false alarm. -/

namespace Ares.Diagnostics

open Data

/-! ### The status file -/

def packageKey : List Char := "Package".toList

def statusKey : List Char := "Status".toList

def installedStatus : List Char := "install ok installed".toList

def holdMark : List Char := "hold ".toList

def packageField (line : List Char) : Option (List Char × List Char) :=
  match cut [':'] line with
  | none => none
  | some (key, value) =>
    if key = packageKey ∨ key = statusKey then some (key, strip value) else none

/-- `fields`: the last value of each key counts. -/
def packageFields (paragraph : List Char) : Dict (List Char) (List Char) :=
  ((splitlines paragraph).filterMap packageField).foldl (fun fields field =>
    fields.set field.1 field.2) .empty

structure DpkgStatus where
  installed : Nat
  inconsistent : List (List Char)
  held : List (List Char)
deriving DecidableEq

/-- One turn of the loop of `_parse_dpkg_status`. -/
def addParagraph (lib : TextLibrary) (status : DpkgStatus) (paragraph : List Char) : DpkgStatus :=
  let fields := packageFields paragraph
  let package := safeLabel lib ((fields.get? packageKey).getD "unknown".toList) "package"
  let state := (fields.get? statusKey).getD []
  { installed := if state = installedStatus then status.installed + 1 else status.installed
    inconsistent :=
      if state = installedStatus then status.inconsistent
      else if state ≠ [] then status.inconsistent ++ [package]
      else status.inconsistent
    held :=
      if holdMark.isPrefixOf state then status.held ++ [package] else status.held }

/-- `text.split("\n\n")`. -/
def paragraphs (text : List Char) : List (List Char) := pieces ['\n', '\n'] text

def maxParagraphs : Nat := 200000

/-- `_parse_dpkg_status`. -/
def parseDpkgStatus (lib : TextLibrary) (text : List Char) : DpkgStatus :=
  ((paragraphs text).take maxParagraphs).foldl (addParagraph lib) ⟨0, [], []⟩

/-! ### The other files of the package manager -/

structure DpkgFiles where
  status : Option TextFile
  /-- `var/lib/dpkg/updates`: which items are links; `none` where it cannot be listed. -/
  updates : Option (List Bool)
  extendedStates : Option TextFile
  /-- `var/lib/apt/lists`: which items are files, and their times. -/
  lists : Option (List (Bool × ℚ))
  sourcesList : Option TextFile
  /-- `etc/apt/sources.list.d`, by the names of the items. -/
  sourcesListDirectory : Option (List (List Char × Option TextFile))
  now : ℚ

def maxSmallFile : Nat := 8 * 1024 * 1024

/-- `_safe_directory_count`. -/
def safeDirectoryCount (items : Option (List Bool)) : Nat :=
  match items with
  | none => 0
  | some links => links.countP (!·)

/-- `_apt_metadata_age`, in days. -/
def aptMetadataAge (lists : Option (List (Bool × ℚ))) (now : ℚ) : Option Nat := do
  let items ← lists
  let newest ← ((items.filter (·.1)).map (·.2)).max?
  return ⌊(now - newest) / 86400⌋.toNat

/-- `item.suffix in {".list", ".sources"}`. -/
def isRepositoryFile (name : List Char) : Bool :=
  [".list".toList, ".sources".toList].any fun suffix =>
    suffix.isSuffixOf name && suffix.length < name.length

def isRepositoryLine (line : List Char) : Bool :=
  strip line ≠ [] && (line.dropWhile isspace).head? ≠ some '#'

/-- `_repository_count`. -/
def repositoryCount (files : DpkgFiles) : Nat :=
  let others := (files.sourcesListDirectory.getD []).filter fun item => isRepositoryFile item.1
  (((files.sourcesList :: others.map (·.2)).take 256).map fun file =>
    (splitlines (readBounded file (512 * 1024))).countP isRepositoryLine).sum

/-! ### The verdict -/

inductive PackageStatus
  | healthy | warnings | repairRequired | metadataStale | unsupported | insufficientEvidence
deriving DecidableEq

/-- The name of a status with `-` for `_`. -/
def PackageStatus.label : PackageStatus → String
  | healthy => "healthy"
  | warnings => "warnings"
  | repairRequired => "repair-required"
  | metadataStale => "metadata-stale"
  | unsupported => "unsupported"
  | insufficientEvidence => "insufficient-evidence"

structure PackageHealthResult where
  targetResourceId : String
  targetFingerprint : String
  scope : DiagnosticScope
  status : PackageStatus
  packageManager : Option String
  installedPackages : Nat
  inconsistentPackages : List (List Char)
  heldPackages : List (List Char)
  autoInstalledPackages : Nat
  interruptedUpdateFragments : Nat
  metadataAgeDays : Option Nat
  repositoryEntries : Nat
  findings : List DiagnosticFinding
  limitations : List String
deriving DecidableEq

def packageHealth (parsed : DpkgStatus) (updates : Nat) (metadataAge : Option Nat) : PackageStatus :=
  if parsed.inconsistent ≠ [] ∨ updates ≠ 0 then .repairRequired
  else if metadataAge.any (14 < ·) then .metadataStale
  else if parsed.held ≠ [] then .warnings
  else .healthy

def healthSeverity : PackageStatus → DiagnosticSeverity
  | .repairRequired => .error
  | .metadataStale | .warnings => .warning
  | _ => .info

def healthTitle : PackageStatus → String
  | .repairRequired => "Estado de paquetes inconsistente"
  | .metadataStale => "Metadatos locales de APT antiguos"
  | .warnings => "Paquetes retenidos"
  | _ => "Base de paquetes coherente"

def healthFinding (health : PackageStatus) (parsed : DpkgStatus) (updates : Nat) :
    DiagnosticFinding where
  id := "packages.health." ++ health.label
  severity := healthSeverity health
  confidence := 92
  title := healthTitle health
  detail := "Se observaron " ++ toString parsed.installed ++ " paquetes instalados, " ++
    toString parsed.inconsistent.length ++ " inconsistentes y " ++ toString updates ++
    " fragmento(s) de actualización pendiente(s)."
  recommendation :=
    if health = .repairRequired then
      some "Preparar packages.repair con autorización mutable independiente."
    else none
  recommendedCapability := if health = .repairRequired then some "packages.repair" else none

def unsupportedFinding : DiagnosticFinding where
  id := "packages.manager.unsupported"
  severity := .info
  confidence := 98
  title := "Base dpkg no detectada"
  detail := "Esta versión implementa diagnóstico real para Debian y Ubuntu con dpkg/APT."
  recommendation := none
  recommendedCapability := none

/-- `_packages_sync`. -/
def packagesSync (lib : TextLibrary) (target : Target) (files : DpkgFiles) : PackageHealthResult :=
  let statusText := readBounded files.status maxSmallFile
  if statusText = [] then
    { targetResourceId := target.resourceId
      targetFingerprint := target.fingerprint
      scope := target.scope
      status := .unsupported
      packageManager := none
      installedPackages := 0
      inconsistentPackages := []
      heldPackages := []
      autoInstalledPackages := 0
      interruptedUpdateFragments := 0
      metadataAgeDays := none
      repositoryEntries := 0
      findings := [unsupportedFinding]
      limitations := ["No se afirma compatibilidad con otro gestor de paquetes."] }
  else
    let parsed := parseDpkgStatus lib statusText
    let updates := safeDirectoryCount files.updates
    let extended := readBounded files.extendedStates maxSmallFile
    let metadataAge := aptMetadataAge files.lists files.now
    let health := packageHealth parsed updates metadataAge
    { targetResourceId := target.resourceId
      targetFingerprint := target.fingerprint
      scope := target.scope
      status := health
      packageManager := some "dpkg/apt"
      installedPackages := parsed.installed
      inconsistentPackages := parsed.inconsistent.take 100
      heldPackages := parsed.held.take 100
      autoInstalledPackages := countWord "Auto-Installed: 1".toList extended
      interruptedUpdateFragments := updates
      metadataAgeDays := metadataAge
      repositoryEntries := repositoryCount files
      findings := [healthFinding health parsed updates]
      limitations := ["No se ejecutó apt update ni una resolución mutable de dependencias.",
        "Los metadatos de actualizaciones reflejan únicamente el cache local."] }

end Ares.Diagnostics
