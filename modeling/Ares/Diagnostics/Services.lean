import Ares.Data.Dict
import Ares.Diagnostics.Models

/-! `services.failure-analysis`: the failed units that `systemctl` lists or the logs of an offline
system name, and the verdict on them. -/

namespace Ares.Diagnostics

open Data

variable (lib : TextLibrary)

/-! ### Names of services -/

/-- The class `[A-Za-z0-9_.@-]`. -/
def serviceChar (c : Char) : Bool := asciiAlnum c || ['_', '.', '@', '-'].contains c

def serviceSuffix : List Char := ".service".toList

/-- `\b` between two characters. -/
def boundary (before after : Option Char) : Bool :=
  before.any lib.isWord != after.any lib.isWord

/-- `_SERVICE` matches at the front of the text, behind a character; the longest name counts. -/
def serviceAt (before : Option Char) (text : List Char) : Option (List Char) :=
  if boundary lib before text.head? then
    ((List.range' 1 128).reverse.find? fun k =>
      (text.take k).all serviceChar && serviceSuffix.isPrefixOf (text.drop k) &&
        boundary lib (some 'e') (text.drop (k + serviceSuffix.length)).head?).map fun k =>
          text.take (k + serviceSuffix.length)
  else none

def serviceFrom : Option Char → List Char → Option (List Char)
  | _, [] => none
  | before, c :: rest => (serviceAt lib before (c :: rest)).or (serviceFrom (some c) rest)

/-- `_SERVICE.search(text)`, its group. -/
def searchService (text : List Char) : Option (List Char) :=
  serviceFrom lib none text

/-! ### Failed services -/

structure FailedService where
  unit : List Char
  state : List Char
  reason : String
deriving DecidableEq

/-- The validation of the model. -/
def FailedService.valid (service : FailedService) : Bool :=
  1 ≤ service.unit.length && service.unit.length ≤ 160 && 1 ≤ service.state.length &&
    service.state.length ≤ 64 && service.reason.length ≤ 320

/-- What a line of `systemctl` is read as. -/
def failedService (line : List Char) : Option FailedService :=
  let cleaned := clean line 500
  (searchService lib cleaned).map fun unit =>
    { unit
      state := (((wordsOf cleaned)[3]?).map String.toList).getD "failed".toList
      reason := "Unidad reportada como fallida por systemd." }

def failedLines (text : List Char) : List FailedService :=
  ((splitlines text).take 200).filterMap (failedService lib)

/-- `_parse_failed_services`; `none` is a `ValidationError`. -/
def parseFailedServices (text : List Char) : Option (List FailedService) :=
  if (failedLines lib text).all FailedService.valid then some (failedLines lib text) else none

/-- `_services_from_logs`. -/
def servicesFromLogs (text : List Char) : List FailedService :=
  let lines := splitlines text
  ((lines.drop (lines.length - 5000)).foldl (fun services line =>
    if !lib.failureLine line then services
    else
      match searchService lib line with
      | none => services
      | some unit =>
        if (services.get? unit).isSome then services
        else services.set unit ⟨unit, "failed".toList, "Falla observada en logs persistentes."⟩)
    (Dict.empty : Dict (List Char) FailedService)).values

/-! ### Logs -/

def maxLogBytes : Nat := 512 * 1024

def utf8Length (text : List Char) : Nat := (text.map Char.utf8Size).sum

def logChunks : Nat → List (Option TextFile) → List (List Char)
  | _, [] => []
  | remaining, file :: files =>
    if remaining = 0 then []
    else
      let text := readBounded file remaining
      if text = [] then logChunks remaining files
      else text :: logChunks (remaining - utf8Length text) files

/-- `_historical_logs`, of `syslog`, `kern.log` and `messages`. -/
def historicalLogs (logs : List (Option TextFile)) : List Char :=
  clean (['\n'].intercalate (logChunks maxLogBytes logs)) maxLogBytes

/-- `_error_event_count`. -/
def errorEventCount (text : List Char) : Nat :=
  min 10000 ((splitlines text).countP lib.errorLine)

/-! ### The verdict -/

structure ProcessResult where
  exitCode : Int
  stdout : List Char
deriving DecidableEq

/-- The process runner and the logs, of the running system and of the target. -/
structure ServiceSources where
  available : Bool
  /-- `runner.run("systemctl", …)`; `none` where it raises. -/
  run : Option ProcessResult
  runtimeLogs : List (Option TextFile)
  targetLogs : List (Option TextFile)

inductive ServiceStatus
  | healthy | failuresDetected | historicalOnly | insufficientEvidence
deriving DecidableEq

structure ServiceFailureResult where
  targetResourceId : String
  targetFingerprint : String
  scope : DiagnosticScope
  status : ServiceStatus
  serviceManager : Option String
  failedServices : List FailedService
  errorEvents : Nat
  findings : List DiagnosticFinding
  limitations : List String
deriving DecidableEq

inductive ServiceError
  | runner
  /-- `ValidationError` of a failed service. -/
  | validation
deriving DecidableEq

def failuresFinding (failed : List FailedService) : DiagnosticFinding where
  id := "services.failures.detected"
  severity := .error
  confidence := 86
  title := "Servicios fallidos detectados"
  detail := "ARES observó " ++ toString failed.length ++ " servicio(s) fallido(s) sin reiniciarlos."
  recommendation := some "Correlacionar con memoria, espacio y paquetes antes de reiniciar."
  recommendedCapability := some "services.restart"

def healthyFinding : DiagnosticFinding where
  id := "services.runtime.healthy"
  severity := .info
  confidence := 90
  title := "Sin unidades fallidas"
  detail := "systemd no reportó unidades fallidas en el runtime analizado."
  recommendation := none
  recommendedCapability := none

def offlineFinding (logs : List Char) (errorEvents : Nat) : DiagnosticFinding where
  id := "services.offline.evidence"
  severity := .info
  confidence := if logs ≠ [] then 70 else 100
  title := "Análisis histórico de servicios"
  detail := "Se encontraron " ++ toString errorEvents ++
    " evento(s) de error en evidencia persistente."
  recommendation := none
  recommendedCapability := none

def serviceFinding (status : ServiceStatus) (failed : List FailedService) (logs : List Char)
    (errorEvents : Nat) : DiagnosticFinding :=
  if failed ≠ [] then failuresFinding failed
  else if status = .healthy then healthyFinding
  else offlineFinding logs errorEvents

def serviceResult (target : Target) (status : ServiceStatus)
    (failed : List FailedService) (logs : List Char) (limitations : List String) :
    ServiceFailureResult where
  targetResourceId := target.resourceId
  targetFingerprint := target.fingerprint
  scope := target.scope
  status := status
  serviceManager := some "systemd"
  failedServices := failed.take 100
  errorEvents := errorEventCount lib logs
  findings := [serviceFinding status failed logs (errorEventCount lib logs)]
  limitations := limitations

/-- What `systemctl` lists, with the limitations. -/
def systemctlFailed (sources : ServiceSources) :
    Except ServiceError (List FailedService × List String) :=
  if sources.available then
    match sources.run with
    | none => .error .runner
    | some result =>
      match parseFailedServices lib result.stdout with
      | none => .error .validation
      | some failed => .ok (failed, [])
  else .ok ([], ["systemctl no está disponible o no es un ejecutable confiable."])

/-- `_services`. -/
def services (target : Target) (sources : ServiceSources) :
    Except ServiceError ServiceFailureResult :=
  if target.scope ≠ .installedSystemOffline then
    match systemctlFailed lib sources with
    | .error e => .error e
    | .ok (failed, limitations) =>
      let logs := historicalLogs sources.runtimeLogs
      let status := if failed ≠ [] then .failuresDetected else .healthy
      .ok (serviceResult lib target status failed logs limitations)
  else
    let logs := historicalLogs sources.targetLogs
    let failed := servicesFromLogs lib logs
    let status := if logs ≠ [] then .historicalOnly else .insufficientEvidence
    .ok (serviceResult lib target status failed logs
      ["Un target offline no tiene estado systemd actual; solo se analiza evidencia persistente."])

end Ares.Diagnostics
