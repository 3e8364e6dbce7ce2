import Ares.Backups.Protection
import Ares.Filesystems.Verification
import Ares.Jobs.Runtime
import Ares.Storage.Recovery

/-! `FilesystemRepairService` with the workflow of `filesystem.repair` and its private actions.  The
executor, the stores of backups and checkpoints and the knowledge graph are outside: their calls get
any answer, and the executor sends any number of messages before it ends.  The payloads of events and
of audit entries and the nodes of the graph are left out.  What `uuid4` draws comes with the
request. -/

namespace Ares.Filesystems.Service

open Coop Data Jobs
open Workflows (WorkflowStep WorkflowStage WorkflowDefinition Outputs Called Exc)
open Backups (ProtectionRequest ProtectionLibrary within)

structure FilesystemRepairPlanRequest where
  device : String
  backupId : Option String
deriving DecidableEq

structure FilesystemRepairInput where
  planId : String
  sessionId : String
  createdBy : String
  protectedResourceId : String
  protectedResourceFingerprintSha256 : String
deriving DecidableEq

def FilesystemRepairInput.valid (i : FilesystemRepairInput) : Bool :=
  within 8 128 i.planId && within 8 128 i.sessionId && within 1 128 i.createdBy &&
    within 8 128 i.protectedResourceId &&
    Storage.sha256Pattern i.protectedResourceFingerprintSha256

/-- The record of a repair; `base` is what its actions change of it. -/
structure Repair where
  id : String
  createdAt : DateTime
  planId : String
  sessionId : String
  startedAt : Option DateTime
  authorizationChallengeId : Option String
  checkpointId : Option String
  createdBy : String
  base : FilesystemRepairRecord
deriving DecidableEq

namespace Repair

def status (r : Repair) : RepairExecutionStatus := r.base.execution.status

def withStatus (r : Repair) (status : RepairExecutionStatus) : Repair :=
  { r with base := { r.base with execution := { r.base.execution with status } } }

/-- A record at its end. -/
def ended (r : Repair) (status : RepairExecutionStatus) (now : DateTime) (errorCode : String) :
    Repair :=
  { r with base := { r.base with
    execution := { r.base.execution with
      status, finishedAt := some now, errorCode := some errorCode } } }

end Repair

/-- A dictionary that the actions of the workflow hand on, with the keys that it may have. -/
structure Entries where
  request : Option FilesystemRepairInput := none
  plan : Option FilesystemRepairPlan := none
  grant : Option FilesystemAuthorizationGrant := none
  outcome : Option FilesystemRepairOutcome := none
  repair : Option Repair := none
  verification : Option RepairVerification := none
  knowledgeGraphRevision : Option Nat := none

inductive Value
  | input (i : FilesystemRepairInput)
  | entries (e : Entries)

inductive Folder
  | plans | repairs | inspections
deriving DecidableEq

inductive Doc
  | plan (p : FilesystemRepairPlan)
  | repair (r : Repair)
  | inspection (i : FilesystemInspection)
deriving DecidableEq

/-- The file of a document, by its directory and its name without `.json`. -/
def Doc.file : Doc → Folder × String
  | plan p => (.plans, p.id)
  | repair r => (.repairs, r.id)
  | inspection i => (.inspections, i.id)

inductive Call
  | inspect (device : String)
  | backup (backupId : String)
  | backupVerification (backupId : String)
  | backupManifest (backupId : String)
  | putCheckpoint (checkpoint : ProtectionCheckpoint)
  | messages
  | challenge (plan : FilesystemRepairPlan)
  | requestAuthorization (plan : FilesystemRepairPlan)
  | stage (plan : FilesystemRepairPlan)
  | execute (plan : FilesystemRepairPlan) (grant : FilesystemAuthorizationGrant)
  /-- `graph.apply`, and the revision of its snapshot. -/
  | applyGraph

abbrev Call.Answer : Call → Type
  | inspect _ => Returned FilesystemInspection
  | backup _ => Option Backups.Backup
  | backupVerification _ => Option Backups.BackupVerification
  | backupManifest _ => Option Backups.BackupManifest
  | putCheckpoint _ => Called Unit
  | messages => Nat
  | challenge _ => String
  | requestAuthorization _ => Returned FilesystemAuthorizationGrant
  | stage _ => Unit
  | execute _ _ => Returned FilesystemRepairOutcome
  | applyGraph => Called Nat

inductive Mark
  | protects (request : ProtectionRequest) (backup : Backups.Backup)
      (verification : Backups.BackupVerification) (manifest : Backups.BackupManifest)
      (checkpoint : ProtectionCheckpoint)
  | planned (inspection : FilesystemInspection) (plan : FilesystemRepairPlan)
  | started (plan : FilesystemRepairPlan) (input : FilesystemRepairInput)
      (inspection : FilesystemInspection) (now : DateTime)
  | preflighted (plan : FilesystemRepairPlan) (input : FilesystemRepairInput)
      (inspection : FilesystemInspection) (now : DateTime)
  | granted (plan : FilesystemRepairPlan) (input : FilesystemRepairInput)
      (grant : FilesystemAuthorizationGrant)
  | repairing (plan : FilesystemRepairPlan) (input : FilesystemRepairInput)
      (grant : FilesystemAuthorizationGrant)
  | repaired (plan : FilesystemRepairPlan) (input : FilesystemRepairInput)
      (grant : FilesystemAuthorizationGrant) (outcome : FilesystemRepairOutcome)

/-- The arguments of `_run`, and what its workflow engine would draw. -/
structure Payload where
  plan : FilesystemRepairPlan
  sessionId : String
  createdBy : String
  uuid : String
deriving DecidableEq

inductive Request
  | inspect (device : String)
  | plan (request : FilesystemRepairPlanRequest) (sessionId planId repairId checkpointId : String)
  | getPlan (planId : String)
  | start (planId sessionId createdBy uuid : String)
  | get (repairId : String)
  | verification (repairId : String)
  | cancel (repairId : String)
  | shutdown

inductive Reply
  | inspection (i : FilesystemInspection)
  | plan (p : Option FilesystemRepairPlan)
  | repair (r : Option Repair)
  | verification (v : Option RepairVerification)
  | done

def kind : Kind where
  Doc := Doc
  Key := Folder × String
  key := Doc.file
  sameKey := inferInstance
  Value := Value
  Payload := Payload
  Request := Request
  Reply := Reply
  Mark := Mark
  Call := Call
  Answer := Call.Answer

abbrev Task := Jobs.Task kind

structure Config where
  lib : Library
  protection : ProtectionLibrary
  engine : Workflows.Config Value
  /-- The exception of `CapabilityManager.execute` before it looks at the payload. -/
  refuses : Option Exc

section Service

variable (cfg : Config)

/-! ### The store -/

/-- `_safe_id`. -/
def safeId (value : String) : String :=
  if within 8 128 value && value.toList.all fun c => cfg.lib.isalnum c || c = '-' || c = '_' then
    value
  else "invalid"

def Doc.plan? : Doc → Option FilesystemRepairPlan
  | plan p => some p
  | _ => none

def Doc.repair? : Doc → Option Repair
  | repair r => some r
  | _ => none

def getPlan (who : Handle) (planId : String) : Task (Option FilesystemRepairPlan) := do
  let found ← fetch (K := kind) who (.plans, safeId cfg planId)
  pure (found.bind Doc.plan?)

def getRepair (who : Handle) (repairId : String) : Task (Option Repair) := do
  let found ← fetch (K := kind) who (.repairs, safeId cfg repairId)
  pure (found.bind Doc.repair?)

def ask (who : Handle) (c : Call) : Task c.Answer := Jobs.await who (.call c : Wait kind)

/-! ### Planning -/

/-- `inspect`. -/
def inspect (who : Handle) (device : String) : Task FilesystemInspection := do
  let answer ← ask who (.inspect device)
  let inspection ← (ofReturned answer).handle toServiceError
  put (K := kind) who (.inspection inspection)
  pause who
  pure inspection

/-- `ProtectionCheckpointService.from_backup`, whose own exception has the code. -/
def fromBackup (who : Handle) (request : ProtectionRequest) (backupId checkpointId : String) :
    Task ProtectionCheckpoint := do
  let backup ← ask who (.backup backupId)
  let verification ← ask who (.backupVerification backupId)
  let manifest ← ask who (.backupManifest backupId)
  let now ← reading (·.now)
  match backup, verification, manifest,
      Backups.fromBackup { cfg.protection with checkpointId, now } request backup verification
        manifest with
  | some backup, some verification, some manifest, .ok checkpoint => do
    mark (K := kind) (.protects request backup verification manifest checkpoint)
    let stored ← ask who (.putCheckpoint checkpoint)
    ofCalled stored
    pure checkpoint
  | _, _, _, .error (.code code) => throw (.executor code)
  | _, _, _, _ => throw (.exc .valueError)

/-- What the checkpoint of a plan is to protect. -/
def protectionRequest (inspection : FilesystemInspection) (sessionId : String) :
    ProtectionRequest where
  resourceId := "filesystem:" ++ inspection.identity.fingerprintSha256
  resourceFingerprintSha256 := inspection.identity.fingerprintSha256
  expectedDeviceId := inspection.identity.majorMinor
  sessionId

/-- The body of the `try` of `plan`. -/
def tryProtect (who : Handle) (inspection : FilesystemInspection)
    (sessionId checkpointId backupId : String) : Task (Except String ProtectionCheckpoint) := do
  let checkpoint ←
    fromBackup cfg who (protectionRequest inspection sessionId) backupId checkpointId
  pause who
  pure (.ok checkpoint)

def onProtectionError : Jobs.Error → Task (Except String ProtectionCheckpoint)
  | .executor code => pure (.error code)
  | e => throw e

def protect (who : Handle) (inspection : FilesystemInspection) (sessionId checkpointId : String) :
    Option String → Task (Except String ProtectionCheckpoint)
  | none => pure (.error "verified_full_filesystem_backup_required")
  | some backupId =>
    (tryProtect cfg who inspection sessionId checkpointId backupId).handle onProtectionError

def missingTools (inspection : FilesystemInspection) : List String :=
  (inspection.requiredTools.filter fun item => !item.available).map (·.tool)

def movable (mount : MountSafetyReport) : Bool :=
  !mount.mounted || (mount.safeToUnmount && mount.safeToRemount)

def repairNotRequired (inspection : FilesystemInspection) : Bool :=
  inspection.check.isSome && inspection.health = .healthy

def limitations (inspection : FilesystemInspection)
    (protection : Except String ProtectionCheckpoint) : List String :=
  (inspection.limitations ++
    (match protection with
      | .error code => [code]
      | .ok _ => []) ++
    (if missingTools inspection = [] then []
      else ["required_tools_unavailable:" ++ ",".intercalate (missingTools inspection)]) ++
    (if movable inspection.mount then []
      else ["mounted_filesystem_cannot_be_safely_unmounted_and_restored"]) ++
    (if inspection.writable then [] else ["target_not_writable"]) ++
    (if inspection.repairSupported then []
      else ["automatic_repair_not_supported_for_this_filesystem"]) ++
    (if repairNotRequired inspection then ["repair_not_required"] else [])).eraseDups

def executable (inspection : FilesystemInspection) (checkpoint : Option ProtectionCheckpoint) :
    Bool :=
  checkpoint.any (·.status = .ready) && inspection.writable && inspection.repairSupported &&
    missingTools inspection = [] && movable inspection.mount && !repairNotRequired inspection

def repairActions (mounted : Bool) : List RepairAction :=
  [⟨"filesystem.revalidate-identity",
    "Revalidar identidad estable del dispositivo inmediatamente antes de escribir.", false⟩] ++
  (if mounted then [⟨"filesystem.safe-unmount",
    "Desmontar únicamente si no hay swap, bind/nested mounts ni handles activos.", false⟩]
    else []) ++
  [⟨"filesystem.check-only", "Ejecutar comprobación read-only con el adapter específico.", false⟩,
    ⟨"filesystem.repair", "Ejecutar la reparación fija y allowlisted del adapter.", true⟩,
    ⟨"filesystem.verify",
      "Repetir comprobación read-only y comparar evidencia antes/después.", false⟩] ++
  (if mounted then [⟨"filesystem.safe-remount",
    "Remontar solo tras verificación sana y con opciones restaurables.", false⟩] else [])

def draft (inspection : FilesystemInspection) (filesystem : FilesystemType)
    (protection : Except String ProtectionCheckpoint) (sessionId planId repairId : String)
    (now : DateTime) : FilesystemRepairPlan where
  id := planId
  repairId
  createdAt := now
  expiresAt := now + minutes 15
  sessionId
  target := inspection.identity
  filesystem
  mount := inspection.mount
  detectedProblems := match inspection.check with
    | some check => check.problems
    | none => ["health_check_deferred_until_safe_unmount"]
  evidence := match inspection.check with
    | some check => check.evidence
    | none => ["target_fingerprint=" ++ inspection.identity.fingerprintSha256,
        "mounted=" ++ (if inspection.mount.mounted then "true" else "false")]
  requiredTools := inspection.requiredTools
  requiredPermissions := "block-device.readwrite" ::
    (if inspection.mount.mounted then ["mount.manage"] else [])
  estimatedDurationSeconds := none
  protectionCheckpoint := protection.toOption
  repairActions := repairActions inspection.mount.mounted
  verificationSteps := ["Revalidar fingerprint de dispositivo.",
    "Ejecutar check read-only posterior.", "Comparar estado antes/después.",
    "Remontar únicamente si la verificación lo permite."]
  rollbackStrategy := "No existe rollback automático del metadata. El checkpoint conserva una " ++
    "copia verificada a nivel de archivos para recuperación manual/posterior."
  limitations := limitations inspection protection
  executable := executable inspection protection.toOption
  fingerprintSha256 := ""

/-- `plan`. -/
def plan (who : Handle) (request : FilesystemRepairPlanRequest)
    (sessionId planId repairId checkpointId : String) : Task FilesystemRepairPlan := do
  let inspection ← inspect who request.device
  let filesystem ← ofOption (.service "FILESYSTEM_TYPE_UNSUPPORTED")
    (inspection.filesystem.filter fun _ => inspection.supported)
  let protection ← protect cfg who inspection sessionId checkpointId request.backupId
  require (within 8 128 sessionId) (.exc .valueError)
  let now ← reading (·.now)
  let draft := draft inspection filesystem protection sessionId planId repairId now
  let plan := { draft with fingerprintSha256 := repairPlanFingerprint cfg.lib draft }
  mark (K := kind) (.planned inspection plan)
  put (K := kind) who (.plan plan)
  pause who
  attempt who
  pure plan

/-! ### The actions -/

/-- The key of a dictionary, or the exception of its absence and of `model_validate`. -/
def entry {α : Type} (value : Value) (key : Entries → Option α) : Task α :=
  ofOption (.exc .exception) (match value with
    | .entries e => key e
    | _ => none)

/-- `ValidateFilesystemRepairAction.run`. -/
def validateRepair (who : Handle) (inputs : Value) : Task Value := do
  let input ← ofOption (.exc .valueError) (match inputs with
    | .input i => some i
    | _ => none)
  let found ← getPlan cfg who input.planId
  let plan ← ofOption (.action "FILESYSTEM_REPAIR_PLAN_NOT_FOUND") found
  require (plan.executable &&
      plan.protectionCheckpoint.any fun c => c.status = .ready && c.id ≠ "")
    (.action "FILESYSTEM_PROTECTION_CHECKPOINT_REQUIRED")
  let now ← reading (·.now)
  require (now < plan.expiresAt) (.action "FILESYSTEM_REPAIR_PLAN_EXPIRED")
  require (input.sessionId = plan.sessionId) (.action "FILESYSTEM_REPAIR_SESSION_MISMATCH")
  require (input.protectedResourceId = plan.protectedResourceId)
    (.action "FILESYSTEM_PROTECTION_RESOURCE_MISMATCH")
  require (input.protectedResourceFingerprintSha256 = plan.target.fingerprintSha256)
    (.action "FILESYSTEM_PROTECTION_RESOURCE_MISMATCH")
  let answer ← ask who (.inspect plan.target.requestedPath)
  let inspection ← (ofReturned answer).handle toActionError
  require (inspection.identity.fingerprintSha256 = plan.target.fingerprintSha256)
    (.action "FILESYSTEM_DEVICE_IDENTITY_CHANGED")
  require (inspection.mount = plan.mount) (.action "FILESYSTEM_MOUNT_STATE_CHANGED")
  mark (K := kind) (.preflighted plan input inspection now)
  let repair ← getRepair cfg who plan.repairId
  let _ ← ofOption (.action "FILESYSTEM_REPAIR_RECORD_NOT_FOUND") repair
  pause who
  pure (.entries { request := some input, plan := some plan })

/-- `challenge`. -/
def onChallenge (who : Handle) (repairId challengeId : String) : Task Unit := do
  let current ← getRepair cfg who repairId
  whenSome current fun r =>
    put (K := kind) who (.repair { r with authorizationChallengeId := some challengeId })
  pause who

/-- `executor.request_authorization`. -/
def executorAuthorize (who : Handle) (plan : FilesystemRepairPlan) :
    Task FilesystemAuthorizationGrant := do
  let n ← ask who .messages
  attend (ask who (.challenge plan)) (onChallenge cfg who plan.repairId) n
  let granted ← ask who (.requestAuthorization plan)
  ofReturned granted

/-- `RequestFilesystemRepairAuthorizationAction.run`. -/
def requestRepairAuthorization (who : Handle) (inputs : Value) : Task Value := do
  let input ← entry inputs (·.request)
  let plan ← entry inputs (·.plan)
  let repair ← getRepair cfg who plan.repairId
  let repair ← ofOption (.action "FILESYSTEM_REPAIR_RECORD_NOT_FOUND") repair
  put (K := kind) who (.repair (repair.withStatus .authorizing))
  let grant ← (executorAuthorize cfg who plan).handle toActionError
  mark (K := kind) (.granted plan input grant)
  pure (.entries { request := some input, plan := some plan, grant := some grant })

/-- `_terminal`. -/
def terminal (who : Handle) (repairId : String) (status : RepairExecutionStatus) (code : String) :
    Task Unit := do
  let repair ← getRepair cfg who repairId
  whenSome repair fun r => do
    let now ← reading (·.now)
    put (K := kind) who (.repair (r.ended status now code))

/-- `executor.execute`. -/
def executorExecute (who : Handle) (plan : FilesystemRepairPlan)
    (grant : FilesystemAuthorizationGrant) : Task FilesystemRepairOutcome := do
  let n ← ask who .messages
  attend (ask who (.stage plan)) (fun _ => pause who) n
  let executed ← ask who (.execute plan grant)
  ofReturned executed

/-- The `except` clauses of the repair. -/
def onExecuteError {α : Type} (who : Handle) (repairId : String) : Jobs.Error → Task α
  | .exc .cancelledError => do
    terminal cfg who repairId .cancelled "FILESYSTEM_REPAIR_CANCELLED"
    pause who
    throw .cancelled
  | .executor code => do
    terminal cfg who repairId .failed code
    pause who
    throw (.action code)
  | e => throw e

/-- `ExecuteFilesystemRepairAction.run`. -/
def executeRepair (who : Handle) (inputs : Value) : Task Value := do
  let input ← entry inputs (·.request)
  let plan ← entry inputs (·.plan)
  let grant ← entry inputs (·.grant)
  let repair ← getRepair cfg who plan.repairId
  let repair ← ofOption (.action "FILESYSTEM_REPAIR_RECORD_NOT_FOUND") repair
  let now ← reading (·.now)
  put (K := kind) who (.repair { repair.withStatus .running with
    startedAt := some now, checkpointId := plan.protectionCheckpoint.map (·.id) })
  pause who
  mark (K := kind) (.repairing plan input grant)
  let outcome ←
    (executorExecute who plan grant).handle (onExecuteError cfg who plan.repairId)
  mark (K := kind) (.repaired plan input grant outcome)
  pure (.entries { request := some input, plan := some plan, outcome := some outcome })

/-- The record of a repair with its verdict. -/
def verified (plan : FilesystemRepairPlan) (outcome : FilesystemRepairOutcome) (repair : Repair) :
    Repair :=
  { repair with base := (verifyRepair plan outcome repair.base).1 }

/-- `VerifyFilesystemRepairAction.run`. -/
def verifyRepairAction (who : Handle) (inputs : Value) : Task Value := do
  let _ ← entry inputs (·.request)
  let plan ← entry inputs (·.plan)
  let outcome ← entry inputs (·.outcome)
  let repair ← getRepair cfg who plan.repairId
  let repair ← ofOption (.action "FILESYSTEM_REPAIR_RECORD_NOT_FOUND") repair
  let verification := (verifyRepair plan outcome repair.base).2
  let repair := verified plan outcome repair
  put (K := kind) who (.repair repair)
  pause who
  pure (.entries { repair := some repair, verification := some verification })

def projected (now : DateTime) (repair : Repair) (verification : RepairVerification) : Repair :=
  { repair with base := projectRepair now repair.base verification }

/-- `ProjectFilesystemRepairGraphAction.run`. -/
def projectRepairGraph (who : Handle) (inputs : Value) : Task Value := do
  let repair ← entry inputs (·.repair)
  let verification ← entry inputs (·.verification)
  let applied ← ask who .applyGraph
  let revision ← ofCalled applied
  let now ← reading (·.now)
  let repair := projected now repair verification
  put (K := kind) who (.repair repair)
  pause who
  pause who
  require (1 ≤ revision) (.exc .valueError)
  pure (.entries
    { repair := some repair
      verification := some verification
      knowledgeGraphRevision := some revision })

def action (n : Nat) (context : ActionContext) (inputs : Value) : Task Value :=
  let who := Handle.action n
  if context.actionId = "filesystem.validate-repair-plan" then validateRepair cfg who inputs
  else if context.actionId = "filesystem.request-repair-authorization" then
    requestRepairAuthorization cfg who inputs
  else if context.actionId = "filesystem.execute-repair" then executeRepair cfg who inputs
  else if context.actionId = "filesystem.verify-repair" then verifyRepairAction cfg who inputs
  else if context.actionId = "knowledge.project-filesystem-repair" then
    projectRepairGraph who inputs
  else throw (.exc .exception)

end Service

/-! ### The workflow -/

theorem stepIds : ∀ id ∈ ["validate-repair", "authorize-repair", "execute-repair", "verify-repair",
    "project-repair-knowledge"], id ≠ "" ∧ id.length ≤ 96 := by decide

def validateStep :=
  step "validate-repair" "filesystem.validate-repair-plan" 0 (stepIds _ (by simp))

def authorizeStep :=
  step "authorize-repair" "filesystem.request-repair-authorization" 0 (stepIds _ (by simp))

def repairStep := step "execute-repair" "filesystem.execute-repair" 0 (stepIds _ (by simp))

def verifyStep := step "verify-repair" "filesystem.verify-repair" 1 (stepIds _ (by simp))

def projectStep :=
  step "project-repair-knowledge" "knowledge.project-filesystem-repair" 0 (stepIds _ (by simp))

theorem preflight_ne : "preflight" ≠ "" := by decide

theorem authorization_ne : "authorization" ≠ "" := by decide

theorem repair_ne : "repair" ≠ "" := by decide

theorem verification_ne : "verification" ≠ "" := by decide

theorem knowledge_ne : "knowledge" ≠ "" := by decide

def repairStages : List WorkflowStage :=
  [stage "preflight" validateStep [] preflight_ne,
    stage "authorization" authorizeStep [] authorization_ne,
    stage "repair" repairStep [] repair_ne,
    stage "verification" verifyStep [] verification_ne,
    stage "knowledge" projectStep [] knowledge_ne]

theorem repairStages_nonempty : "filesystem.repair.workflow" ≠ "" ∧ repairStages ≠ [] :=
  ⟨by decide, List.cons_ne_nil _ _⟩

theorem repairStages_distinct : ((repairStages.flatMap (·.steps)).map (·.id)).Nodup := by decide

def repairDefinition : WorkflowDefinition where
  id := "filesystem.repair.workflow"
  version := "1.0.0"
  capabilityId := "filesystem.repair"
  stages := repairStages
  nonempty := repairStages_nonempty
  distinct := repairStages_distinct

/-- The `inputs` of the steps. -/
def repairInputs (input : FilesystemRepairInput) (id : String) (state : Outputs Value) :
    Called Value :=
  if id = "validate-repair" then .returned (.input input)
  else if id = "authorize-repair" then stateOf "validate-repair" state
  else if id = "execute-repair" then stateOf "authorize-repair" state
  else if id = "verify-repair" then stateOf "execute-repair" state
  else stateOf "verify-repair" state

/-- `_VerifiedRepairPostcheck`; a verification has no other status than these four. -/
def verifiedPostcheck : Value → Bool
  | .entries e => e.verification.isSome
  | _ => false

def repairFlow (input : FilesystemRepairInput) : Flow Value where
  definition := repairDefinition
  inputs := repairInputs input
  postcheck _ := verifiedPostcheck
  result := stateOf "project-repair-knowledge"

/-- `FilesystemRepairResult.model_validate`. -/
def validResult : Value → Bool
  | .entries e => e.repair.isSome && e.verification.isSome &&
      e.knowledgeGraphRevision.any (1 ≤ ·)
  | _ => false

/-! ### The service -/

section Service

variable (cfg : Config)

/-- `_validate_protection_checkpoint` of a capability that requires a checkpoint. -/
def protects (checkpoint : ProtectionCheckpoint) (input : FilesystemRepairInput) : Bool :=
  checkpoint.status = .ready && checkpoint.protectedResources ≠ [] &&
    checkpoint.verificationId.isSome && checkpoint.sessionId = input.sessionId &&
    checkpoint.protectedResources.contains input.protectedResourceId &&
    checkpoint.resourceFingerprints.lookup input.protectedResourceId =
      some input.protectedResourceFingerprintSha256

/-- The exceptions of `CapabilityManager.execute` before the workflow. -/
def refused (checkpoint : ProtectionCheckpoint) (input : FilesystemRepairInput) : Option Exc :=
  match cfg.refuses with
  | some e => some e
  | none => if !input.valid then some .valueError
    else if !protects checkpoint input then some .exception
    else none

/-- `_mark_failed`. -/
def markFailed (who : Handle) (repairId code : String) : Task Unit := do
  let repair ← getRepair cfg who repairId
  whenSome repair fun r =>
    if r.status = .completed || r.status = .partially || r.status = .cancelled then pure ()
    else do
      let now ← reading (·.now)
      put (K := kind) who (.repair (r.ended .failed now code))

/-- The payload that `_run` makes of its arguments. -/
def repairInput (plan : FilesystemRepairPlan) (sessionId createdBy : String) :
    FilesystemRepairInput where
  planId := plan.id
  sessionId
  createdBy
  protectedResourceId := plan.protectedResourceId
  protectedResourceFingerprintSha256 := plan.target.fingerprintSha256

/-- The body of the `try` of `_run`. -/
def tryRepair (task : Nat) (who : Handle) (plan : FilesystemRepairPlan)
    (checkpoint : ProtectionCheckpoint) (input : FilesystemRepairInput) (uuid : String) :
    Task Unit := do
  let execution ← executeCapability cfg.engine task who (refused cfg checkpoint input)
    (repairFlow input) validResult (some plan.repairId) uuid
  if execution.status = .succeeded then pure ()
  else markFailed cfg who plan.repairId (codeOr execution.errorCode "FILESYSTEM_REPAIR_FAILED")

/-- The `except` clauses of `_run`. -/
def onRepairError (who : Handle) (repairId : String) : Jobs.Error → Task Unit
  | .exc .cancelledError => do
    let repair ← getRepair cfg who repairId
    whenSome repair fun r =>
      if r.status = .planned || r.status = .authorizing then do
        let now ← reading (·.now)
        put (K := kind) who (.repair (r.ended .cancelled now "FILESYSTEM_REPAIR_CANCELLED"))
      else pure ()
  | _ => markFailed cfg who repairId "FILESYSTEM_REPAIR_FAILED"

/-- `_run`; the payload is made before the `try`. -/
def run (task n : Nat) (p : Payload) : Task Unit := do
  let who := Handle.job n
  let checkpoint ← ofOption (.exc .exception) p.plan.protectionCheckpoint
  let input := repairInput p.plan p.sessionId p.createdBy
  require input.valid (.exc .valueError)
  ((tryRepair cfg task who p.plan checkpoint input p.uuid).handle
      (onRepairError cfg who p.plan.repairId)).andFinally do
    Jobs.await who .thread
    Proc.modify (State.untable p.plan.repairId)

def plannedRepair (plan : FilesystemRepairPlan) (sessionId createdBy : String)
    (checkpoint : ProtectionCheckpoint) (now : DateTime) : Repair where
  id := plan.repairId
  createdAt := now
  planId := plan.id
  sessionId
  startedAt := none
  authorizationChallengeId := none
  checkpointId := some checkpoint.id
  createdBy
  base := ⟨plan, ⟨.planned, none, none, none⟩, none⟩

/-- `start`. -/
def start (who : Handle) (planId sessionId createdBy uuid : String) : Task Repair := do
  let found ← getPlan cfg who planId
  let plan ← ofOption (.service "FILESYSTEM_REPAIR_PLAN_NOT_FOUND") found
  let checkpoint ← ofOption (.service "FILESYSTEM_PROTECTION_CHECKPOINT_REQUIRED")
    (plan.protectionCheckpoint.filter fun _ => plan.executable)
  let now ← reading (·.now)
  require (now < plan.expiresAt) (.service "FILESYSTEM_REPAIR_PLAN_EXPIRED")
  require (plan.sessionId = sessionId) (.service "FILESYSTEM_REPAIR_SESSION_MISMATCH")
  let existing ← getRepair cfg who plan.repairId
  require existing.isNone (.service "FILESYSTEM_REPAIR_ALREADY_REQUESTED")
  let answer ← ask who (.inspect plan.target.requestedPath)
  let current ← (ofReturned answer).handle toServiceError
  require (current.identity.fingerprintSha256 = plan.target.fingerprintSha256)
    (.service "FILESYSTEM_DEVICE_IDENTITY_CHANGED")
  mark (K := kind) (.started plan (repairInput plan sessionId createdBy) current now)
  let created ← reading (·.now)
  let repair := plannedRepair plan sessionId createdBy checkpoint created
  put (K := kind) who (.repair repair)
  let job ← reading (·.jobs.length)
  Proc.modify (State.create (K := kind) ⟨plan, sessionId, createdBy, uuid⟩)
  Jobs.await who .thread
  Proc.modify (State.table plan.repairId job)
  pure repair

/-- `cancel`. -/
def cancel (who : Handle) (repairId : String) : Task Repair := do
  let found ← getRepair cfg who repairId
  let repair ← ofOption (.service "FILESYSTEM_REPAIR_NOT_FOUND") found
  if repair.status = .planned || repair.status = .authorizing then do
    let job ← runningTask who repairId
    let job ← ofOption (.service "FILESYSTEM_CANCELLATION_UNAVAILABLE") job
    Proc.modify (State.cancel (.job job))
    let now ← reading (·.now)
    let repair := repair.ended .cancelled now "FILESYSTEM_REPAIR_CANCELLED"
    put (K := kind) who (.repair repair)
    pause who
    pure repair
  else if repair.status = .running || repair.status = .verifying then
    throw (.service "FILESYSTEM_CANCELLATION_UNSAFE")
  else pure repair

def serve (task : Nat) : Request → Task Reply
  | .inspect device => do
    let i ← inspect (.call task) device
    pure (.inspection i)
  | .plan request sessionId planId repairId checkpointId => do
    let p ← plan cfg (.call task) request sessionId planId repairId checkpointId
    pure (.plan (some p))
  | .getPlan planId => do
    let p ← getPlan cfg (.call task) planId
    pure (.plan p)
  | .start planId sessionId createdBy uuid => do
    let r ← start cfg (.call task) planId sessionId createdBy uuid
    pure (.repair (some r))
  | .get repairId => do
    let r ← getRepair cfg (.call task) repairId
    pure (.repair r)
  | .verification repairId => do
    let r ← getRepair cfg (.call task) repairId
    pure (.verification (r.bind (·.base.verification)))
  | .cancel repairId => do
    let r ← cancel cfg (.call task) repairId
    pure (.repair (some r))
  | .shutdown => do
    shutdown (.call task)
    pure .done

/-- `FilesystemRepairService`. -/
def service : Service kind where
  serve := serve cfg
  job := run cfg
  action := action cfg

end Service

end Ares.Filesystems.Service
