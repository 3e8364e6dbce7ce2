import Ares.Backups.Recovery
import Ares.Jobs.Runtime

/-! `BackupService` with the workflows of `backup.create` and `backup.verify` and their private
actions.  The tools, the executor and the knowledge graph are outside: their calls get any answer,
and the executor sends any number of messages before it ends.  The payloads of events and of audit
entries, the progress of a copy and the nodes of the graph are left out.  What `uuid4` draws comes
with the request. -/

namespace Ares.Backups.Service

open Coop Data Jobs
open Workflows (WorkflowStep WorkflowStage WorkflowDefinition Outputs Called Exc chooseId)

variable (who : Handle)

structure BackupPlanRequest where
  source : String
  destination : String
  excludedNames : List String
deriving DecidableEq

structure BackupCreateRequest where
  planId : String
  requestAuthorization : Bool
deriving DecidableEq

structure BackupCreateInput where
  planId : String
  sessionId : String
  createdBy : String
deriving DecidableEq

structure BackupVerifyInput where
  backupId : String
  sessionId : String
deriving DecidableEq

structure BackupGraphSummary where
  revision : Nat
  nodeCount : Nat
  edgeCount : Nat
deriving DecidableEq

def BackupCreateInput.valid (i : BackupCreateInput) : Bool :=
  within 8 128 i.planId && within 8 128 i.sessionId && within 1 128 i.createdBy

def BackupVerifyInput.valid (i : BackupVerifyInput) : Bool :=
  within 8 128 i.backupId && within 8 128 i.sessionId

/-- A dictionary that the actions of a workflow hand on, with the keys that it may have. -/
structure Entries where
  plan : Option BackupPlan := none
  request : Option BackupCreateInput := none
  grant : Option AuthorizationGrant := none
  manifest : Option BackupManifest := none
  backup : Option Backup := none
  verification : Option BackupVerification := none
  knowledgeGraph : Option BackupGraphSummary := none

inductive Value
  | createInput (i : BackupCreateInput)
  | verifyInput (i : BackupVerifyInput)
  | entries (e : Entries)

inductive Folder
  | plans | records | manifests | verifications
deriving DecidableEq

inductive Doc
  | plan (p : BackupPlan)
  | record (b : Backup)
  | manifest (m : BackupManifest)
  | verification (v : BackupVerification)

/-- The file of a document, by its directory and its name without `.json`. -/
def Doc.file : Doc → Folder × String
  | plan p => (.plans, p.id)
  | record b => (.records, b.id)
  | manifest m => (.manifests, m.backupId)
  | verification v => (.verifications, v.backupId)

/-- A message of the executor while it copies. -/
inductive CopyMessage
  | progress | entry
deriving DecidableEq

inductive Call
  | buildPlan (request : BackupPlanRequest) (policy : BackupPolicy)
  | revalidatePlan (plan : BackupPlan)
  | messages
  | challenge (plan : BackupPlan)
  | requestAuthorization (plan : BackupPlan) (sessionId : String)
  | copyMessage (plan : BackupPlan)
  | create (plan : BackupPlan) (grant : AuthorizationGrant)
  | verify (backup : Backup) (manifest : BackupManifest)
  /-- `graph.apply`. -/
  | applyGraph

abbrev Call.Answer : Call → Type
  | buildPlan _ _ => Returned BackupPlan
  | revalidatePlan _ => Returned Unit
  | messages => Nat
  | challenge _ => String
  | requestAuthorization _ _ => Returned AuthorizationGrant
  | copyMessage _ => CopyMessage
  | create _ _ => Returned BackupManifest
  | verify _ _ => Returned BackupVerification
  | applyGraph => Called BackupGraphSummary

inductive Mark
  | built (plan : BackupPlan)
  | requested (input : BackupCreateInput)
  | revalidated (plan : BackupPlan) (input : BackupCreateInput)
  | granted (plan : BackupPlan) (input : BackupCreateInput) (grant : AuthorizationGrant)
  | copying (plan : BackupPlan) (input : BackupCreateInput) (grant : AuthorizationGrant)
  | copied (plan : BackupPlan) (input : BackupCreateInput) (grant : AuthorizationGrant)
      (manifest : BackupManifest)
  | verified (backup : Backup) (manifest : BackupManifest) (verification : BackupVerification)

/-- The arguments of `_run_create`, and what its workflow engine would draw. -/
structure Payload where
  backupId : String
  input : BackupCreateInput
  workflowId : String
  uuid : String
deriving DecidableEq

inductive Request
  | plan (request : BackupPlanRequest)
  | create (request : BackupCreateRequest) (sessionId createdBy workflowId executionId uuid : String)
  | get (backupId : String)
  | manifest (backupId : String)
  | verification (backupId : String)
  | verify (backupId sessionId uuid : String)
  | cancel (backupId : String)
  | shutdown

inductive Reply
  | plan (p : BackupPlan)
  | accepted (b : Backup)
  | backup (b : Option Backup)
  | manifest (m : Option BackupManifest)
  | verification (v : Option BackupVerification)
  | verified (result : Option Value)
  | cancelled (b : Backup)
  | done

def kind : Kind where
  Doc := Doc
  Key := Folder × String
  key := Doc.file
  sameKey := inferInstance
  Value := Value
  Payload := Payload
  Request := Request
  Reply := Reply
  Mark := Mark
  Call := Call
  Answer := Call.Answer

abbrev Task := Jobs.Task kind

structure Config where
  lib : RecordLibrary
  engine : Workflows.Config Value
  /-- The exception of `CapabilityManager.execute` before it looks at the payload. -/
  refuses : String → Option Exc

section Service

variable (cfg : Config) (who : Handle)

/-! ### The store -/

def fetchSafe (folder : Folder) (id : String) : Task (Option Doc) :=
  if safeId cfg.lib id then fetch who ((folder, id) : Folder × String) else pure none

def Doc.plan? : Doc → Option BackupPlan
  | plan p => some p
  | _ => none

def Doc.record? : Doc → Option Backup
  | record b => some b
  | _ => none

def Doc.manifest? : Doc → Option BackupManifest
  | manifest m => some m
  | _ => none

def Doc.verification? : Doc → Option BackupVerification
  | verification v => some v
  | _ => none

/-- `get_plan`, `get_backup`, `get_manifest` and `get_verification`. -/
def getPlan (planId : String) : Task (Option BackupPlan) := do
  let found ← fetchSafe cfg who .plans planId
  pure (found.bind Doc.plan?)

def getBackup (backupId : String) : Task (Option Backup) := do
  let found ← fetchSafe cfg who .records backupId
  pure (found.bind Doc.record?)

def getManifest (backupId : String) : Task (Option BackupManifest) := do
  let found ← fetchSafe cfg who .manifests backupId
  pure (found.bind Doc.manifest?)

def getVerification (backupId : String) : Task (Option BackupVerification) := do
  let found ← fetchSafe cfg who .verifications backupId
  pure (found.bind Doc.verification?)

def ask (c : Call) : Task c.Answer := Jobs.await who (.call c : Wait kind)

/-! ### The actions -/

/-- The key of a dictionary, or the exception of its absence and of `model_validate`. -/
def entry {α : Type} (value : Value) (key : Entries → Option α) : Task α :=
  ofOption (.exc .exception) (match value with
    | .entries e => key e
    | _ => none)

/-- `_with_status`. -/
def withStatus (backup : Backup) (status : BackupStatus) : Backup :=
  { backup with status, execution := { backup.execution with status } }

/-- A record at its end. -/
def ended (backup : Backup) (status : BackupStatus) (now : DateTime) (errorCode : Option String) :
    Backup :=
  { backup with
    status
    execution := { backup.execution with status, finishedAt := some now, errorCode } }

/-- `ValidateBackupPlanAction.run`. -/
def validateBackupPlan (inputs : Value) : Task Value := do
  let input ← ofOption (.exc .valueError) (match inputs with
    | .createInput i => some i
    | _ => none)
  let plan ← getPlan cfg who input.planId
  let plan ← ofOption (.action "BACKUP_PLAN_NOT_FOUND") plan
  let valid ← ask who (.revalidatePlan plan)
  (ofReturned valid).handle toActionError
  mark (K := kind) (.revalidated plan input)
  let backup ← getBackup cfg who plan.backupId
  let backup ← ofOption (.action "BACKUP_RECORD_NOT_FOUND") backup
  put (K := kind) who (.record (withStatus backup .validating))
  pause who
  pure (.entries { plan := some plan, request := some input })

/-- `challenge`. -/
def onChallenge (backupId challengeId : String) : Task Unit := do
  let backup ← getBackup cfg who backupId
  whenSome backup fun b => put (K := kind) who (.record { b with
    execution := { b.execution with authorizationChallengeId := some challengeId } })
  pause who

/-- `executor.request_authorization`. -/
def requestAuthorization (plan : BackupPlan) (sessionId : String) :
    Task AuthorizationGrant := do
  let n ← ask who .messages
  attend (ask who (.challenge plan)) (onChallenge cfg who plan.backupId) n
  let granted ← ask who (.requestAuthorization plan sessionId)
  ofReturned granted

/-- `RequestBackupAuthorizationAction.run`. -/
def requestBackupAuthorization (inputs : Value) : Task Value := do
  let plan ← entry inputs (·.plan)
  let input ← entry inputs (·.request)
  let grant ← (requestAuthorization cfg who plan input.sessionId).handle toActionError
  mark (K := kind) (.granted plan input grant)
  pure (.entries { plan := some plan, request := some input, grant := some grant })

/-- `progress` and `entry`; the progress itself is left out. -/
def onCopyMessage (backupId : String) : CopyMessage → Task Unit
  | .progress => do
    let current ← getBackup cfg who backupId
    whenSome current fun b => put (K := kind) who (.record b)
    pause who
  | .entry => pause who

/-- `_mark_cancelled` and `_mark_failed`. -/
def markEnded (backupId : String) (status : BackupStatus) (errorCode : String) :
    Task Unit := do
  let backup ← getBackup cfg who backupId
  whenSome backup fun b => do
    let now ← reading (·.now)
    put (K := kind) who (.record (ended b status now (some errorCode)))

/-- `executor.create`. -/
def executorCreate (plan : BackupPlan) (grant : AuthorizationGrant) :
    Task BackupManifest := do
  let n ← ask who .messages
  attend (ask who (.copyMessage plan)) (onCopyMessage cfg who plan.backupId) n
  let created ← ask who (.create plan grant)
  ofReturned created

/-- The `except` clauses of the copy. -/
def onCopyError {α : Type} (who : Handle) (backupId : String) : Jobs.Error → Task α
  | .exc .cancelledError => do
    markEnded cfg who backupId .cancelled "BACKUP_CANCELLED"
    pause who
    throw .cancelled
  | .executor code => do
    markEnded cfg who backupId .failed code
    pause who
    throw (.action code)
  | e => throw e

/-- `CreateBackupFilesAction.run`. -/
def createBackupFiles (context : ActionContext) (inputs : Value) : Task Value := do
  let plan ← entry inputs (·.plan)
  let input ← entry inputs (·.request)
  let grant ← entry inputs (·.grant)
  let backup ← getBackup cfg who plan.backupId
  let backup ← ofOption (.action "BACKUP_RECORD_NOT_FOUND") backup
  let started ← reading (·.now)
  put (K := kind) who (.record { backup with
    status := .running
    execution := { backup.execution with
      status := .running
      startedAt := some started
      workflowExecutionId := some context.executionId } })
  pause who
  mark (K := kind) (.copying plan input grant)
  let manifest ← (executorCreate cfg who plan grant).handle (onCopyError cfg who plan.backupId)
  mark (K := kind) (.copied plan input grant manifest)
  pure (.entries { manifest := some manifest, request := some input })

def manifested (backup : Backup) (manifest : BackupManifest) : Backup :=
  { backup with
    size := manifest.totalSizeBytes
    fileCount := manifest.fileCount
    checksum := some manifest.manifestChecksumSha256
    status := .verifying
    verificationStatus := .running
    execution := { backup.execution with status := .verifying } }

/-- `PersistBackupManifestAction.run`. -/
def persistBackupManifest (inputs : Value) : Task Value := do
  let manifest ← entry inputs (·.manifest)
  let input ← entry inputs (·.request)
  put (K := kind) who (.manifest manifest)
  let backup ← getBackup cfg who manifest.backupId
  let backup ← ofOption (.action "BACKUP_RECORD_NOT_FOUND") backup
  let backup := manifested backup manifest
  put (K := kind) who (.record backup)
  pure (.entries { backup := some backup, manifest := some manifest, request := some input })

def statusOf : BackupVerificationStatus → BackupStatus
  | .verified => .completed
  | .corrupted => .corrupted
  | .notRun | .running | .failed => .failed

def judged (backup : Backup) (verification : BackupVerification) (now : DateTime) : Backup :=
  let status := statusOf verification.status
  { ended backup status now (if status = .completed then none else some "BACKUP_VERIFY_FAILED") with
    verificationStatus := verification.status }

/-- `VerifyBackupAction.run`. -/
def verifyBackupAction (inputs : Value) : Task Value := do
  let backup ← entry inputs (·.backup)
  let manifest ← entry inputs (·.manifest)
  pause who
  let answer ← ask who (.verify backup manifest)
  let verification ← (ofReturned answer).handle toActionError
  mark (K := kind) (.verified backup manifest verification)
  put (K := kind) who (.verification verification)
  let now ← reading (·.now)
  let backup := judged backup verification now
  put (K := kind) who (.record backup)
  pause who
  (if backup.status = .completed then pause who else pure ())
  pure (.entries
    { backup := some backup, manifest := some manifest, verification := some verification })

/-- `ProjectBackupGraphAction.run`. -/
def projectBackupGraph (inputs : Value) : Task Value := do
  let _ ← entry inputs (·.backup)
  let _ ← entry inputs (·.manifest)
  let _ ← entry inputs (·.verification)
  let applied ← ask who .applyGraph
  let summary ← ofCalled applied
  pause who
  let e ← entry inputs some
  pure (.entries { e with knowledgeGraph := some summary })

/-- `LoadBackupForVerificationAction.run`. -/
def loadBackupForVerification (inputs : Value) : Task Value := do
  let input ← ofOption (.exc .valueError) (match inputs with
    | .verifyInput i => some i
    | _ => none)
  let backup ← getBackup cfg who input.backupId
  let manifest ← getManifest cfg who input.backupId
  let backup ← ofOption (.action "BACKUP_NOT_FOUND") backup
  let manifest ← ofOption (.action "BACKUP_MANIFEST_NOT_FOUND") manifest
  pure (.entries { backup := some backup, manifest := some manifest })

def action (n : Nat) (context : ActionContext) (inputs : Value) : Task Value :=
  let who := Handle.action n
  if context.actionId = "backup.validate-plan" then validateBackupPlan cfg who inputs
  else if context.actionId = "backup.request-authorization" then
    requestBackupAuthorization cfg who inputs
  else if context.actionId = "backup.create-files" then createBackupFiles cfg who context inputs
  else if context.actionId = "backup.persist-manifest" then persistBackupManifest cfg who inputs
  else if context.actionId = "backup.verify-integrity" then verifyBackupAction who inputs
  else if context.actionId = "knowledge.project-backup" then projectBackupGraph who inputs
  else if context.actionId = "backup.load-verification-target" then
    loadBackupForVerification cfg who inputs
  else throw (.exc .exception)

end Service

/-! ### The workflows -/

theorem stepIds : ∀ id ∈ ["validate-plan", "request-authorization", "create-files",
    "persist-manifest", "verify-backup", "project-knowledge-graph", "load-backup"],
    id ≠ "" ∧ id.length ≤ 96 := by decide

def validateStep := step "validate-plan" "backup.validate-plan" 0 (stepIds _ (by simp))

def authorizeStep :=
  step "request-authorization" "backup.request-authorization" 0 (stepIds _ (by simp))

def createStep := step "create-files" "backup.create-files" 0 (stepIds _ (by simp))

def persistStep := step "persist-manifest" "backup.persist-manifest" 0 (stepIds _ (by simp))

/-- The step `verify-backup`, with its postchecks. -/
def verifyStep (postchecks : Nat) :=
  step "verify-backup" "backup.verify-integrity" postchecks (stepIds _ (by simp))

def projectStep := step "project-knowledge-graph" "knowledge.project-backup" 0 (stepIds _ (by simp))

def loadStep := step "load-backup" "backup.load-verification-target" 0 (stepIds _ (by simp))

theorem stageIds : ∀ id ∈ ["validation", "authorization", "copy", "verification", "knowledge",
    "verify", "backup.create.workflow", "backup.verify.workflow"], id ≠ "" := by decide

def createStages : List WorkflowStage :=
  [stage "validation" validateStep [] (stageIds _ (by simp)),
    stage "authorization" authorizeStep [] (stageIds _ (by simp)),
    stage "copy" createStep [persistStep] (stageIds _ (by simp)),
    stage "verification" (verifyStep 1) [] (stageIds _ (by simp)),
    stage "knowledge" projectStep [] (stageIds _ (by simp))]

theorem createStages_distinct : ((createStages.flatMap (·.steps)).map (·.id)).Nodup := by decide

def verifyStages : List WorkflowStage :=
  [stage "verify" loadStep [verifyStep 0, projectStep] (stageIds _ (by simp))]

theorem verifyStages_distinct : ((verifyStages.flatMap (·.steps)).map (·.id)).Nodup := by decide

def createDefinition : WorkflowDefinition where
  id := "backup.create.workflow"
  version := "1.0.0"
  capabilityId := "backup.create"
  stages := createStages
  nonempty := ⟨stageIds _ (by simp), List.cons_ne_nil _ _⟩
  distinct := createStages_distinct

def verifyDefinition : WorkflowDefinition where
  id := "backup.verify.workflow"
  version := "1.0.0"
  capabilityId := "backup.verify"
  stages := verifyStages
  nonempty := ⟨stageIds _ (by simp), List.cons_ne_nil _ _⟩
  distinct := verifyStages_distinct

/-- The `inputs` of the steps of `backup.create`. -/
def createInputs (input : BackupCreateInput) (id : String) (state : Outputs Value) :
    Called Value :=
  if id = "validate-plan" then .returned (.createInput input)
  else if id = "request-authorization" then stateOf "validate-plan" state
  else if id = "create-files" then stateOf "request-authorization" state
  else if id = "persist-manifest" then stateOf "create-files" state
  else if id = "verify-backup" then stateOf "persist-manifest" state
  else stateOf "verify-backup" state

/-- The `inputs` of the steps of `backup.verify`. -/
def verifyInputs (input : BackupVerifyInput) (id : String) (state : Outputs Value) :
    Called Value :=
  if id = "load-backup" then .returned (.verifyInput input)
  else if id = "verify-backup" then stateOf "load-backup" state
  else stateOf "verify-backup" state

/-- `_BackupResultPostcheck`. -/
def resultPostcheck : Value → Bool
  | .entries ⟨_, _, _, _, some b, some v, _⟩ => b.id = v.backupId
  | _ => false

/-- `_create_result`. -/
def createResult (state : Outputs Value) : Called Value :=
  match stateOf "project-knowledge-graph" state with
  | .returned (.entries ⟨_, _, _, some m, some b, some v, some g⟩) =>
    .returned (.entries ⟨none, none, none, some m, some b, some v, some g⟩)
  | _ => .raised .exception

/-- `_verify_result`. -/
def verifyResult (state : Outputs Value) : Called Value :=
  match stateOf "project-knowledge-graph" state with
  | .returned (.entries ⟨_, _, _, _, some b, some v, some g⟩) =>
    .returned (.entries ⟨none, none, none, none, some b, some v, some g⟩)
  | _ => .raised .exception

def createFlow (input : BackupCreateInput) : Flow Value where
  definition := createDefinition
  inputs := createInputs input
  postcheck _ := resultPostcheck
  result := createResult

def verifyFlow (input : BackupVerifyInput) : Flow Value where
  definition := verifyDefinition
  inputs := verifyInputs input
  postcheck _ _ := true
  result := verifyResult

/-- `BackupCreateResult.model_validate`. -/
def validCreateResult : Value → Bool
  | .entries e => e.backup.isSome && e.manifest.isSome && e.verification.isSome &&
      e.knowledgeGraph.isSome
  | _ => false

/-- `BackupVerifyResult.model_validate`. -/
def validVerifyResult : Value → Bool
  | .entries e => e.backup.isSome && e.verification.isSome && e.knowledgeGraph.isSome
  | _ => false

/-! ### The service -/

section Service

variable (cfg : Config) (who : Handle)

/-- The exceptions of `CapabilityManager.execute` before the workflow. -/
def refused (capabilityId : String) (valid : Bool) : Option Exc :=
  match cfg.refuses capabilityId with
  | some e => some e
  | none => if valid then none else some .valueError

/-- `_mark_terminal_failure`. -/
def markTerminalFailure (backupId code : String) (cancelled : Bool) : Task Unit := do
  let backup ← getBackup cfg who backupId
  whenSome backup fun b =>
    if b.status = .completed || b.status = .corrupted then pure ()
    else do
      let now ← reading (·.now)
      put (K := kind) who
        (.record (ended b (if cancelled then .cancelled else .failed) now (some code)))

/-- The body of the `try` of `_run_create`. -/
def tryCreate (task : Nat) (who : Handle) (p : Payload) : Task Unit := do
  let execution ← executeCapability cfg.engine task who (refused cfg "backup.create" p.input.valid)
    (createFlow p.input) validCreateResult (some p.workflowId) p.uuid
  if execution.status = .succeeded && execution.result.isSome then pure ()
  else
    let cancelled := execution.status = .cancelled
    markTerminalFailure cfg who p.backupId
      (codeOr execution.errorCode (if cancelled then "BACKUP_CANCELLED" else "BACKUP_CREATE_FAILED"))
      cancelled

/-- The `except` clauses of `_run_create`. -/
def onCreateError (backupId : String) : Jobs.Error → Task Unit
  | .exc .cancelledError => markTerminalFailure cfg who backupId "BACKUP_CANCELLED" true
  | _ => markTerminalFailure cfg who backupId "BACKUP_CREATE_FAILED" false

/-- `_run_create`. -/
def runCreate (task n : Nat) (p : Payload) : Task Unit :=
  let who := Handle.job n
  ((tryCreate cfg task who p).handle (onCreateError cfg who p.backupId)).andFinally do
    Jobs.await who .thread
    Proc.modify (State.untable p.backupId)

/-- `dict.fromkeys((*policy.excluded_names, *request.excluded_names))`. -/
def excludedNames (request : BackupPlanRequest) : List String :=
  (builtinExcludedNames ++ request.excludedNames).eraseDups

/-- `plan`. -/
def plan (request : BackupPlanRequest) : Task BackupPlan := do
  let answer ← ask who (.buildPlan request ⟨excludedNames request⟩)
  let plan ← (ofReturned answer).handle toServiceError
  mark (K := kind) (.built plan)
  put (K := kind) who (.plan plan)
  pause who
  Jobs.attempt who
  pure plan

def policyJson (policy : BackupPolicy) : Json :=
  .obj [("overwrite", .bool false), ("follow_symlinks", .bool false),
    ("allow_same_filesystem", .bool false), ("cross_filesystems", .bool false),
    ("checksum_algorithm", .str "sha256"), ("excluded_names", .strs policy.excludedNames)]

def plannedBackup (plan : BackupPlan) (input : BackupCreateInput) (workflowId executionId : String)
    (now : DateTime) : Backup where
  id := plan.backupId
  createdAt := now
  source := plan.source
  destination := plan.destination
  size := 0
  fileCount := 0
  status := .planned
  checksum := none
  verificationStatus := .notRun
  metadata := [("plan_fingerprint_sha256", .str plan.fingerprintSha256),
    ("policy", policyJson plan.policy), ("exclusion_count", .nat plan.exclusions.length)]
  createdBy := input.createdBy
  sessionId := input.sessionId
  planId := plan.id
  execution :=
    { id := executionId
      backupId := plan.backupId
      workflowExecutionId := some workflowId
      status := .planned
      startedAt := none
      finishedAt := none
      authorizationChallengeId := none
      errorCode := none }

/-- `create`. -/
def create (request : BackupCreateRequest)
    (sessionId createdBy workflowId executionId uuid : String) : Task Backup := do
  require request.requestAuthorization
    (.service "BACKUP_EXPLICIT_AUTHORIZATION_REQUEST_REQUIRED")
  mark (K := kind) (.requested ⟨request.planId, sessionId, createdBy⟩)
  let found ← getPlan cfg who request.planId
  let plan ← ofOption (.service "BACKUP_PLAN_NOT_FOUND") found
  let existing ← getBackup cfg who plan.backupId
  require existing.isNone (.service "BACKUP_ALREADY_REQUESTED")
  let now ← reading (·.now)
  let input : BackupCreateInput := ⟨plan.id, sessionId, createdBy⟩
  let backup := plannedBackup plan input workflowId executionId now
  put (K := kind) who (.record backup)
  let job ← reading (·.jobs.length)
  Proc.modify (State.create (K := kind) ⟨backup.id, input, workflowId, uuid⟩)
  Jobs.await who .thread
  Proc.modify (State.table backup.id job)
  pure backup

/-- `verify`. -/
def verify (task : Nat) (who : Handle) (backupId sessionId uuid : String) : Task (Option Value) := do
  let input : BackupVerifyInput := ⟨backupId, sessionId⟩
  let execution ← executeCapability cfg.engine task who (refused cfg "backup.verify" input.valid)
    (verifyFlow input) validVerifyResult none uuid
  require (execution.status = .succeeded && execution.result.isSome)
    (.service (codeOr execution.errorCode "BACKUP_VERIFY_FAILED"))
  pure execution.result

/-- `self.workflows.cancel(workflow_id)`, where there is one. -/
def cancelExecution (task : Nat) (who : Handle) (workflowId : Option String) : Task Bool :=
  match workflowId with
  | some id => cancelWorkflow task who id
  | none => pure false

/-- `task.cancel()` of the background task of a backup, where it is not done. -/
def cancelTask (backupId : String) : Task Bool := do
  match ← runningTask who backupId with
  | some n => do
    Proc.modify (State.cancel (.job n))
    pure true
  | none => pure false

/-- `p`, where `done` is false. -/
def orElse (done : Bool) (p : Task Bool) : Task Bool := if done then pure true else p

/-- `cancel`. -/
def cancel (task : Nat) (who : Handle) (backupId : String) : Task Backup := do
  let found ← getBackup cfg who backupId
  let backup ← ofOption (.service "BACKUP_NOT_FOUND") found
  if backup.status.terminal then pure backup
  else do
    let stopped ← cancelExecution task who backup.execution.workflowExecutionId
    let cancelled ← orElse stopped (cancelTask who backupId)
    require cancelled (.service "BACKUP_CANCELLATION_UNAVAILABLE")
    pause who
    let later ← getBackup cfg who backupId
    pure (later.getD backup)

def serve (task : Nat) : Request → Task Reply
  | .plan request => do
    let p ← plan (.call task) request
    pure (.plan p)
  | .create request sessionId createdBy workflowId executionId uuid => do
    let b ← create cfg (.call task) request sessionId createdBy workflowId executionId uuid
    pure (.accepted b)
  | .get backupId => do
    let b ← getBackup cfg (.call task) backupId
    pure (.backup b)
  | .manifest backupId => do
    let m ← getManifest cfg (.call task) backupId
    pure (.manifest m)
  | .verification backupId => do
    let v ← getVerification cfg (.call task) backupId
    pure (.verification v)
  | .verify backupId sessionId uuid => do
    let result ← verify cfg task (.call task) backupId sessionId uuid
    pure (.verified result)
  | .cancel backupId => do
    let b ← cancel cfg task (.call task) backupId
    pure (.cancelled b)
  | .shutdown => do
    shutdown (.call task)
    pure .done

/-- `BackupService`. -/
def service : Service kind where
  serve := serve cfg
  job := runCreate cfg
  action := action cfg

end Service

end Ares.Backups.Service
