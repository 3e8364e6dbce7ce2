import Ares.Backups.Tools
import Ares.Storage.Recovery

/-! The records that a stopped process leaves behind: what `BackupStore.prepare` makes of the directory
`records`, and what `BackupService.cancel` makes of a record in it.  The JSON codec is a parameter; the
disk takes every write. -/

namespace Ares.Backups

open Data
open Storage (Directory Stored Globbed isRecord)

def maxRecordBytes : Nat := 4000000

structure RecordLibrary where
  /-- `Backup.model_validate_json` of the bytes read as UTF-8, with the id that `execution` has by
  default.  Its exceptions are `ValueError`s. -/
  validate : String → List UInt8 → Option Backup
  /-- The UTF-8 bytes of `json.dumps` of `model_dump(mode="json")`, or none where one of them
  raises. -/
  dumps : Backup → Option (List UInt8)
  /-- `str.isalnum` of a character. -/
  isAlnum : Char → Bool

inductive RecordError
  | encoding
  | tooLarge
deriving DecidableEq

/-- What `prepare` draws and reads off the clock while it is at the file of a name. -/
structure Restart where
  executionId : String → String
  finished : String → DateTime

/-! ### The source -/

def BackupStatus.interrupted : BackupStatus → Bool
  | validating | running | verifying => true
  | planned | completed | failed | cancelled | corrupted => false

/-- The statuses that `cancel` returns at once. -/
def BackupStatus.terminal : BackupStatus → Bool
  | completed | failed | cancelled | corrupted => true
  | planned | validating | running | verifying => false

section Store

variable (lib : RecordLibrary)

/-- `_read_model` for a record. -/
def readModel (executionId : String) : Option Stored → Option Backup
  | some (.file content) =>
      if content.length > maxRecordBytes then none else lib.validate executionId content
  | none | some .special | some (.unreadable _) => none

/-- `_write_model`, as the entry that it leaves. -/
def writeModel (b : Backup) : Except RecordError (Option Stored) :=
  match lib.dumps b with
  | none => .error .encoding
  | some text =>
      let encoded := text ++ [10]
      if encoded.length > maxRecordBytes then .error .tooLarge else .ok (some (.file encoded))

def Backup.reconciled (b : Backup) (now : DateTime) : Backup :=
  { b with
    status := .failed
    verificationStatus := .failed
    execution := { b.execution with
      status := .failed
      finishedAt := some now
      errorCode := some "BACKUP_INTERRUPTED" }
    metadata := b.metadata.set "reconciled_after_restart" (.bool true) }

def reconcileRecord (restart : Restart) (name : String) (entry : Option Stored) :
    Except RecordError (Option Stored) :=
  match readModel lib (restart.executionId name) entry with
  | none => .ok entry
  | some backup =>
      if !backup.status.interrupted then .ok entry
      else writeModel lib (backup.reconciled (restart.finished name))

/-- `_reconcile_interrupted_records`, over the names in the order of `glob("*.json")`: the directory
that it leaves, and the exception that ends it early. -/
def reconcileInterruptedRecords (restart : Restart) (names : List String) (dir : Directory) :
    Directory × Option RecordError :=
  sweep (reconcileRecord lib restart) names dir

def safeId (value : String) : Bool :=
  8 ≤ value.length && value.length ≤ 128 &&
    value.toList.all fun c => lib.isAlnum c || c = '-' || c = '_'

def getBackup (dir : Directory) (executionId backupId : String) : Option Backup :=
  if safeId lib backupId then readModel lib executionId (dir (backupId ++ ".json")) else none

/-- `BackupService.cancel`: `workflowsCancel` is what the engine answers, `running` whether the task
table has a task of the backup that is not done, and `later` what is read at the end. -/
def cancel (dir : Directory) (workflowsCancel : String → Bool) (running : Bool)
    (later : Option Backup) (executionId backupId : String) : Except String Backup :=
  match getBackup lib dir executionId backupId with
  | none => .error "BACKUP_NOT_FOUND"
  | some backup =>
      if backup.status.terminal then .ok backup
      else
        let cancelled := backup.execution.workflowExecutionId.any workflowsCancel || running
        if !cancelled then .error "BACKUP_CANCELLATION_UNAVAILABLE" else .ok (later.getD backup)

end Store

/-! ### What is owed -/

/-- The constraints of the fields of a `Backup`. -/
structure Backup.Valid (b : Backup) : Prop where
  source : b.source.valid = true
  destination : b.destination.valid = true
  checksum : ∀ sha, b.checksum = some sha → Storage.sha256Pattern sha = true
  createdBy : within 1 128 b.createdBy = true
  sessionId : within 8 128 b.sessionId = true

/-- Validation accepts nothing that breaks a constraint, and takes the id only for a default.  A
record that was written is read back, apart from what the encoding makes of `metadata`. -/
structure RecordLibrary.Lawful (lib : RecordLibrary) : Prop where
  valid : ∀ {executionId content b}, lib.validate executionId content = some b → b.Valid
  anyId : ∀ {executionId content b}, lib.validate executionId content = some b →
    ∀ executionId', ∃ id, lib.validate executionId' content =
      some { b with execution := { b.execution with id } }
  loads_dumps : ∀ {b text}, b.Valid → lib.dumps b = some text →
    ∃ metadata, ∀ executionId, lib.validate executionId (text ++ [10]) = some { b with metadata }

/-- Nothing is stuck in the directory `dir'` that a restart leaves of `dir`: a cancellation in a
process that runs no task and no workflow returns the record. -/
structure Unstuck (lib : RecordLibrary) (dir dir' : Directory) : Prop where
  terminal : ∀ name executionId b, isRecord name = true →
    readModel lib executionId (dir' name) = some b → b.status.terminal = true
  cancels : ∀ backupId executionId b, getBackup lib dir' executionId backupId = some b →
    ∀ later, cancel lib dir' (fun _ => false) false later executionId backupId = .ok b
  kept : ∀ name, (∃ executionId b, readModel lib executionId (dir name) = some b ∧
    b.status.terminal = true) → dir' name = dir name

/-- `prepare` returns, leaves nothing stuck, and a second `prepare` changes no file. -/
def Prepares (lib : RecordLibrary) (restart : Restart) (names : List String) (dir : Directory) :
    Prop :=
  ∃ dir', reconcileInterruptedRecords lib restart names dir = (dir', none) ∧ Unstuck lib dir dir' ∧
    ∀ restart' names', Globbed dir' names' →
      reconcileInterruptedRecords lib restart' names' dir' = (dir', none)

/-- No record is planned, and every interrupted one can be written again with the fields of the
recovery. -/
def Recoverable (lib : RecordLibrary) (restart : Restart) (dir : Directory) : Prop :=
  ∀ name b, isRecord name = true → readModel lib (restart.executionId name) (dir name) = some b →
    b.status ≠ .planned ∧ (b.status.interrupted = true →
      ∃ text, lib.dumps (b.reconciled (restart.finished name)) = some text ∧
        text.length < maxRecordBytes)

/-! ### One file -/

variable {lib : RecordLibrary} {restart : Restart}

theorem settled_iff {status : BackupStatus} :
    status.terminal = true ↔ status ≠ .planned ∧ status.interrupted = false := by
  cases status <;> decide

theorem writeModel_ok_iff {b : Backup} {entry : Option Stored} :
    writeModel lib b = .ok entry ↔ ∃ text, lib.dumps b = some text ∧ text.length < maxRecordBytes ∧
      entry = some (.file (text ++ [10])) := by
  rw [writeModel]
  cases hdumps : lib.dumps b with
  | none => simp
  | some text =>
    simp only [List.length_append, List.length_singleton]
    split
    · have large : ¬text.length < maxRecordBytes := by omega
      simp [large]
    · have small : text.length < maxRecordBytes := by omega
      simp [small, eq_comm]

theorem reconcileRecord_idle {name : String} {entry : Option Stored}
    (h : ∀ b, readModel lib (restart.executionId name) entry = some b →
      b.status.interrupted = false) :
    reconcileRecord lib restart name entry = .ok entry := by
  rw [reconcileRecord]
  cases hread : readModel lib (restart.executionId name) entry with
  | none => rfl
  | some b => simp [h b hread]

theorem reconcileRecord_interrupted {name : String} {entry : Option Stored} {b : Backup}
    (hread : readModel lib (restart.executionId name) entry = some b)
    (h : b.status.interrupted = true) :
    reconcileRecord lib restart name entry =
      writeModel lib (b.reconciled (restart.finished name)) := by
  simp [reconcileRecord, hread, h]

theorem reconcileRecord_ok_iff {name : String} {entry : Option Stored} :
    (∃ entry', reconcileRecord lib restart name entry = .ok entry') ↔
      ∀ b, readModel lib (restart.executionId name) entry = some b →
        b.status.interrupted = true →
          ∃ text, lib.dumps (b.reconciled (restart.finished name)) = some text ∧
            text.length < maxRecordBytes := by
  constructor
  · rintro ⟨entry', h⟩ b hread hstatus
    rw [reconcileRecord_interrupted hread hstatus, writeModel_ok_iff] at h
    obtain ⟨text, hdumps, hsize, -⟩ := h
    exact ⟨text, hdumps, hsize⟩
  · intro h
    by_cases hidle : ∀ b, readModel lib (restart.executionId name) entry = some b →
        b.status.interrupted = false
    · exact ⟨entry, reconcileRecord_idle hidle⟩
    · push Not at hidle
      obtain ⟨b, hread, hstatus⟩ := hidle
      have hstatus' : b.status.interrupted = true := by simpa using hstatus
      obtain ⟨text, hdumps, hsize⟩ := h b hread hstatus'
      refine ⟨some (.file (text ++ [10])), ?_⟩
      rw [reconcileRecord_interrupted hread hstatus']
      exact writeModel_ok_iff.mpr ⟨text, hdumps, hsize, rfl⟩

/-! ### What is written can be read -/

section Lawful

variable (lawful : lib.Lawful)
include lawful

theorem readModel_valid {executionId : String} {entry : Option Stored} {b : Backup}
    (h : readModel lib executionId entry = some b) : b.Valid := by
  rw [readModel.eq_def] at h
  split at h
  · split at h
    · cases h
    · exact lawful.valid h
  · cases h
  · cases h
  · cases h

theorem readModel_anyId {executionId : String} {entry : Option Stored} {b : Backup}
    (h : readModel lib executionId entry = some b) (executionId' : String) :
    ∃ id, readModel lib executionId' entry =
      some { b with execution := { b.execution with id } } := by
  rw [readModel.eq_def] at h ⊢
  split at h
  · split at h
    · cases h
    · next hsize =>
      rw [if_neg hsize]
      exact lawful.anyId h executionId'
  · cases h
  · cases h
  · cases h

theorem status_anyId {executionId executionId' : String} {entry : Option Stored} {b b' : Backup}
    (h : readModel lib executionId entry = some b)
    (h' : readModel lib executionId' entry = some b') : b'.status = b.status := by
  obtain ⟨id, hid⟩ := readModel_anyId lawful h executionId'
  rw [h'] at hid
  rw [Option.some.inj hid]

theorem readModel_written {b : Backup} {text : List UInt8} (valid : b.Valid)
    (hdumps : lib.dumps b = some text) (hsize : text.length < maxRecordBytes) :
    ∃ metadata, ∀ executionId, readModel lib executionId (some (.file (text ++ [10]))) =
      some { b with metadata } := by
  obtain ⟨metadata, hvalidate⟩ := lawful.loads_dumps valid hdumps
  refine ⟨metadata, fun executionId => ?_⟩
  have small : ¬(text ++ [10]).length > maxRecordBytes := by
    rw [List.length_append, List.length_singleton]
    omega
  rw [readModel, if_neg small]
  exact hvalidate executionId

/-- What a visit that does not fail leaves: a file without an interrupted record as it was, a failed
record in the place of an interrupted one. -/
theorem reconcileRecord_cases {name : String} {entry entry' : Option Stored}
    (h : reconcileRecord lib restart name entry = .ok entry') :
    entry' = entry ∧ (∀ executionId b, readModel lib executionId entry = some b →
        b.status.interrupted = false) ∨
      (∃ b, readModel lib (restart.executionId name) entry = some b ∧
        b.status.interrupted = true) ∧
      ∀ executionId b, readModel lib executionId entry' = some b → b.status = .failed := by
  cases hread : readModel lib (restart.executionId name) entry with
  | none =>
    rw [reconcileRecord, hread] at h
    refine .inl ⟨(Except.ok.inj h).symm, fun executionId b hb => ?_⟩
    obtain ⟨id, hid⟩ := readModel_anyId lawful hb (restart.executionId name)
    rw [hread] at hid
    cases hid
  | some b =>
    cases hstatus : b.status.interrupted with
    | false =>
      rw [reconcileRecord_idle fun b' hb' => by
        rw [Option.some.inj (hb'.symm.trans hread), hstatus]] at h
      refine .inl ⟨(Except.ok.inj h).symm, fun executionId b' hb' => ?_⟩
      rw [status_anyId lawful hread hb', hstatus]
    | true =>
      rw [reconcileRecord_interrupted hread hstatus, writeModel_ok_iff] at h
      obtain ⟨text, hdumps, hsize, rfl⟩ := h
      have hb := readModel_valid lawful hread
      have valid : (b.reconciled (restart.finished name)).Valid :=
        ⟨hb.source, hb.destination, hb.checksum, hb.createdBy, hb.sessionId⟩
      obtain ⟨metadata, hwritten⟩ := readModel_written lawful valid hdumps hsize
      refine .inr ⟨⟨b, rfl, hstatus⟩, fun executionId b' hb' => ?_⟩
      rw [hwritten] at hb'
      exact Option.some.inj hb' ▸ rfl

end Lawful

/-! ### The directory -/

section Directory

variable {dir : Directory} {names : List String} (globbed : Globbed dir names)
include globbed

theorem mem_of_read {executionId name : String} {b : Backup} (hname : isRecord name = true)
    (h : readModel lib executionId (dir name) = some b) : name ∈ names := by
  refine (globbed.mem_iff name).mpr ⟨hname, ?_⟩
  cases hentry : dir name with
  | none =>
    rw [hentry] at h
    cases h
  | some entry => rfl

variable (lawful : lib.Lawful)
include lawful

theorem reconciled_cases (h : (reconcileInterruptedRecords lib restart names dir).2 = none)
    {name : String} (hname : isRecord name = true) :
    (reconcileInterruptedRecords lib restart names dir).1 name = dir name ∧
        (∀ executionId b, readModel lib executionId (dir name) = some b →
          b.status.interrupted = false) ∨
      (∃ b, readModel lib (restart.executionId name) (dir name) = some b ∧
        b.status.interrupted = true) ∧
      ∀ executionId b, readModel lib executionId
        ((reconcileInterruptedRecords lib restart names dir).1 name) = some b →
          b.status = .failed := by
  by_cases hmem : name ∈ names
  · exact reconcileRecord_cases lawful (sweep_visited globbed.nodup h hmem)
  · refine .inl ⟨sweep_of_not_mem hmem dir, fun executionId b hb => ?_⟩
    exact absurd (mem_of_read globbed hname hb) hmem

theorem unstuck_of_reconciled (h : (reconcileInterruptedRecords lib restart names dir).2 = none)
    (hplanned : ∀ name b, isRecord name = true →
      readModel lib (restart.executionId name) (dir name) = some b → b.status ≠ .planned) :
    Unstuck lib dir (reconcileInterruptedRecords lib restart names dir).1 := by
  have hterminal : ∀ name executionId b, isRecord name = true → readModel lib executionId
      ((reconcileInterruptedRecords lib restart names dir).1 name) = some b →
        b.status.terminal = true := by
    intro name executionId b hname hb
    rcases reconciled_cases globbed lawful h hname with ⟨hsame, hidle⟩ | ⟨-, hfailed⟩
    · rw [hsame] at hb
      obtain ⟨id, hid⟩ := readModel_anyId lawful hb (restart.executionId name)
      have hne := hplanned name _ hname hid
      exact settled_iff.mpr ⟨hne, hidle executionId b hb⟩
    · rw [hfailed executionId b hb]
      rfl
  refine ⟨hterminal, fun backupId executionId b hb later => ?_, ?_⟩
  · have hread : readModel lib executionId
        ((reconcileInterruptedRecords lib restart names dir).1 (backupId ++ ".json")) = some b := by
      rw [getBackup] at hb
      split at hb
      · exact hb
      · cases hb
    have hname : isRecord (backupId ++ ".json") = true := by
      rw [isRecord, List.isSuffixOf_iff_suffix, String.toList_append]
      exact List.suffix_append _ _
    rw [cancel, hb]
    simp only [hterminal _ executionId b hname hread, if_true]
  · rintro name ⟨executionId, b, hb, hstatus⟩
    by_cases hmem : name ∈ names
    · have hname := ((globbed.mem_iff name).mp hmem).1
      rcases reconciled_cases globbed lawful h hname with ⟨hsame, -⟩ | ⟨⟨b', hb', hactive⟩, -⟩
      · exact hsame
      · rw [status_anyId lawful hb hb', (settled_iff.mp hstatus).2] at hactive
        cases hactive
    · exact sweep_of_not_mem hmem dir

theorem settled_of_reconciled (h : (reconcileInterruptedRecords lib restart names dir).2 = none)
    {restart' : Restart} {names' : List String}
    (globbed' : Globbed (reconcileInterruptedRecords lib restart names dir).1 names') :
    reconcileInterruptedRecords lib restart' names'
        (reconcileInterruptedRecords lib restart names dir).1 =
      ((reconcileInterruptedRecords lib restart names dir).1, none) := by
  refine sweep_fixed fun name hmem' => reconcileRecord_idle fun b hb => ?_
  obtain ⟨hname, -⟩ := (globbed'.mem_iff name).mp hmem'
  rcases reconciled_cases globbed lawful h hname with ⟨hsame, hidle⟩ | ⟨-, hfailed⟩
  · rw [hsame] at hb
    exact hidle _ b hb
  · rw [hfailed _ b hb]
    rfl

/-- A restart leaves nothing stuck exactly where no record is planned and every interrupted one can
be written again. -/
theorem prepares_iff_recoverable :
    Prepares lib restart names dir ↔ Recoverable lib restart dir := by
  constructor
  · rintro ⟨dir', hrun, hunstuck, -⟩ name b hname hb
    have hmem := mem_of_read globbed hname hb
    have hnone : (reconcileInterruptedRecords lib restart names dir).2 = none := by rw [hrun]
    have hvisit := sweep_visited globbed.nodup hnone hmem
    refine ⟨fun hplanned => ?_, reconcileRecord_ok_iff.mp ⟨_, hvisit⟩ b hb⟩
    -- a planned record stays as it is
    have hidle : reconcileRecord lib restart name (dir name) = .ok (dir name) :=
      reconcileRecord_idle fun b' hb' => by
        rw [Option.some.inj (hb'.symm.trans hb), hplanned]
        rfl
    have hdir : (reconcileInterruptedRecords lib restart names dir).1 = dir' := by rw [hrun]
    have hkept : dir' name = dir name := by
      rw [← hdir]
      exact Except.ok.inj (hvisit.symm.trans hidle)
    have hterminal := hunstuck.terminal name _ b hname (hkept.symm ▸ hb)
    rw [hplanned] at hterminal
    cases hterminal
  · intro h
    have hnone : (reconcileInterruptedRecords lib restart names dir).2 = none := by
      refine (sweep_none_iff globbed.nodup dir).mpr fun name hmem => ?_
      refine reconcileRecord_ok_iff.mpr fun b hb => ?_
      exact (h name b ((globbed.mem_iff name).mp hmem).1 hb).2
    refine ⟨_, Prod.ext rfl hnone, ?_, fun restart' names' globbed' => ?_⟩
    · exact unstuck_of_reconciled globbed lawful hnone fun name b hname hb => (h name b hname hb).1
    · exact settled_of_reconciled globbed lawful hnone globbed'

end Directory

/-! ### Samples -/

def recordSample (status : BackupStatus) : Backup where
  id := "backup-0001"
  createdAt := 0
  source := ⟨"/src", "8:1", none, "/src", "ext4", 0, 0, 0⟩
  destination := ⟨"/dst", "/dst/ARES/backup-0001", "8:17", none, "/dst", "ext4", .localFilesystem,
    1000000000⟩
  size := 0
  fileCount := 0
  status := status
  checksum := none
  verificationStatus := .notRun
  metadata := []
  createdBy := "local"
  sessionId := "session-1"
  planId := "plan-0001"
  execution := ⟨"execution-1", "backup-0001", some "workflow-1", status, none, none, none, none⟩

def recordHead : List UInt8 :=
  Storage.ascii "\x7b\"checksum\":null,\"compression_status\":\"none\"," ++
    Storage.ascii "\"created_at\":\"1970-01-01T00:00:00Z\",\"created_by\":\"local\"," ++
    Storage.ascii "\"destination\":\x7b\"available_bytes\":1000000000," ++
    Storage.ascii "\"backup_path\":\"/dst/ARES/backup-0001\",\"device_id\":\"8:17\"," ++
    Storage.ascii "\"filesystem_type\":\"ext4\",\"kind\":\"local_filesystem\"," ++
    Storage.ascii "\"mount_point\":\"/dst\",\"physical_device_id\":null," ++
    Storage.ascii "\"root_path\":\"/dst\"\x7d,\"encryption_status\":\"none\"," ++
    Storage.ascii "\"execution\":\x7b\"authorization_challenge_id\":null," ++
    Storage.ascii "\"backup_id\":\"backup-0001\",\"error_code\":"

def recordProgress : List UInt8 :=
  Storage.ascii ",\"id\":\"execution-1\",\"progress\":\x7b\"bytes_completed\":0," ++
    Storage.ascii "\"bytes_total\":0,\"eta_seconds\":null,\"files_completed\":0," ++
    Storage.ascii "\"files_total\":0,\"percent\":0.0,\"speed_bytes_per_second\":null\x7d," ++
    Storage.ascii "\"started_at\":null,\"status\":"

def recordCounts : List UInt8 :=
  Storage.ascii ",\"workflow_execution_id\":\"workflow-1\"\x7d,\"file_count\":0," ++
    Storage.ascii "\"id\":\"backup-0001\",\"metadata\":"

def recordOrigin : List UInt8 :=
  Storage.ascii ",\"plan_id\":\"plan-0001\",\"session_id\":\"session-1\",\"size\":0," ++
    Storage.ascii "\"source\":\x7b\"device_id\":\"8:1\",\"estimated_directory_count\":0," ++
    Storage.ascii "\"estimated_file_count\":0,\"estimated_size_bytes\":0," ++
    Storage.ascii "\"filesystem_type\":\"ext4\",\"mount_point\":\"/src\"," ++
    Storage.ascii "\"path\":\"/src\",\"physical_device_id\":null\x7d,\"status\":"

def recordText (errorCode finishedAt status metadata verification : String) : List UInt8 :=
  recordHead ++ (Storage.ascii errorCode ++ (Storage.ascii ",\"finished_at\":" ++
    (Storage.ascii finishedAt ++ (recordProgress ++ (Storage.ascii status ++ (recordCounts ++
      (Storage.ascii metadata ++ (recordOrigin ++ (Storage.ascii status ++
        (Storage.ascii ",\"verification_status\":" ++ (Storage.ascii verification ++
          Storage.ascii ",\"version\":\"1.0\"\x7d")))))))))))

def plannedText : List UInt8 :=
  recordText "null" "null" "\"PLANNED\"" "\x7b\x7d" "\"NOT_RUN\""

def runningText : List UInt8 :=
  recordText "null" "null" "\"RUNNING\"" "\x7b\x7d" "\"NOT_RUN\""

def failedText : List UInt8 :=
  recordText "\"BACKUP_INTERRUPTED\"" "\"1970-01-01T00:00:00Z\"" "\"FAILED\""
    "\x7b\"reconciled_after_restart\":true\x7d" "\"FAILED\""

def sameRecord (b c : Backup) : Bool :=
  b.id = c.id && b.createdAt = c.createdAt && b.source = c.source &&
    b.destination = c.destination && b.size = c.size && b.fileCount = c.fileCount &&
    b.status = c.status && b.checksum = c.checksum &&
    b.verificationStatus = c.verificationStatus && b.createdBy = c.createdBy &&
    b.sessionId = c.sessionId && b.planId = c.planId && b.execution = c.execution

theorem eq_of_sameRecord {b c : Backup} (h : sameRecord b c = true) :
    c = { b with metadata := c.metadata } := by
  cases b
  cases c
  simp_all [sameRecord]

/-- A library that knows the samples and what a restart makes of them. -/
def sampleRecords : RecordLibrary where
  validate _ bytes :=
    if bytes = plannedText ++ [10] then some (recordSample .planned)
    else if bytes = runningText ++ [10] then some (recordSample .running)
    else if bytes = failedText ++ [10] then some ((recordSample .running).reconciled 0)
    else none
  dumps b := if sameRecord b ((recordSample .running).reconciled 0) then some failedText else none
  isAlnum := Char.isAlphanum

theorem append_ne {head a b : List UInt8} {n : Nat} (h : a.take n ≠ b.take n) :
    head ++ a ≠ head ++ b := by
  intro heq
  exact h (congrArg (List.take n) (List.append_cancel_left heq))

theorem failed_ne (status verification : String) :
    failedText ≠ recordText "null" "null" status "\x7b\x7d" verification := by
  refine append_ne (n := 1) ?_
  have hnull : Storage.ascii "null" = [110, 117, 108, 108] := by decide +kernel
  have hcode : Storage.ascii "\"BACKUP_INTERRUPTED\"" = 34 :: (Storage.ascii
    "\"BACKUP_INTERRUPTED\"").tail := by decide +kernel
  rw [hnull, hcode]
  simp

theorem running_ne : runningText ≠ plannedText := by
  intro heq
  have hrest := List.append_cancel_left (List.append_cancel_left (List.append_cancel_left
    (List.append_cancel_left (List.append_cancel_left heq))))
  have hrunning : Storage.ascii "\"RUNNING\"" = 34 :: 82 :: (Storage.ascii "\"RUNNING\"").drop 2 := by
    decide +kernel
  have hplanned : Storage.ascii "\"PLANNED\"" = 34 :: 80 :: (Storage.ascii "\"PLANNED\"").drop 2 := by
    decide +kernel
  rw [hrunning, hplanned] at hrest
  simp at hrest

theorem recordText_length {errorCode finishedAt status metadata verification : String}
    (h : (Storage.ascii errorCode).length + (Storage.ascii finishedAt).length +
      2 * (Storage.ascii status).length + (Storage.ascii metadata).length +
      (Storage.ascii verification).length ≤ 200) :
    (recordText errorCode finishedAt status metadata verification).length < maxRecordBytes := by
  have hhead : recordHead.length ≤ 900 := by
    rw [recordHead]
    iterate 8 refine Storage.append_small ?_ (Storage.ascii_small (by decide))
    exact Storage.ascii_small (by decide)
  have hprogress : recordProgress.length ≤ 400 := by
    rw [recordProgress]
    iterate 3 refine Storage.append_small ?_ (Storage.ascii_small (by decide))
    exact Storage.ascii_small (by decide)
  have hcounts : recordCounts.length ≤ 200 := by
    rw [recordCounts]
    exact Storage.append_small (Storage.ascii_small (by decide)) (Storage.ascii_small (by decide))
  have horigin : recordOrigin.length ≤ 500 := by
    rw [recordOrigin]
    iterate 4 refine Storage.append_small ?_ (Storage.ascii_small (by decide))
    exact Storage.ascii_small (by decide)
  have hfinished : (Storage.ascii ",\"finished_at\":").length ≤ 100 :=
    Storage.ascii_small (by decide)
  have hverification : (Storage.ascii ",\"verification_status\":").length ≤ 100 :=
    Storage.ascii_small (by decide)
  have hend : (Storage.ascii ",\"version\":\"1.0\"\x7d").length ≤ 100 :=
    Storage.ascii_small (by decide)
  simp only [recordText, List.length_append, maxRecordBytes]
  omega

theorem planned_small : plannedText.length < maxRecordBytes :=
  recordText_length (by decide +kernel)

theorem failed_small : failedText.length < maxRecordBytes :=
  recordText_length (by decide +kernel)

theorem recordSample_valid (status : BackupStatus) : (recordSample status).Valid where
  source := by cases status <;> decide
  destination := by cases status <;> decide
  checksum sha h := by simp [recordSample] at h
  createdBy := by cases status <;> decide
  sessionId := by cases status <;> decide

theorem sampleRecords_lawful : sampleRecords.Lawful where
  valid := by
    intro executionId content b h
    simp only [sampleRecords] at h
    split at h
    · exact Option.some.inj h ▸ recordSample_valid _
    · split at h
      · exact Option.some.inj h ▸ recordSample_valid _
      · split at h
        · have hvalid := recordSample_valid .running
          exact Option.some.inj h ▸ ⟨hvalid.source, hvalid.destination, hvalid.checksum,
            hvalid.createdBy, hvalid.sessionId⟩
        · cases h
  anyId := by
    intro executionId content b h executionId'
    exact ⟨b.execution.id, h⟩
  loads_dumps := by
    intro b text _ h
    simp only [sampleRecords] at h
    split at h
    · next hsame =>
      obtain rfl := Option.some.inj h
      refine ⟨((recordSample .running).reconciled 0).metadata, fun executionId => ?_⟩
      rw [← eq_of_sameRecord hsame]
      simp [sampleRecords, failed_ne, plannedText, runningText]
    · cases h

def sampleRestart : Restart := ⟨fun _ => "execution-2", fun _ => 0⟩

/-- The directory with the file of a sample. -/
def sampleRecordDirectory (text : List UInt8) : Directory := fun name =>
  if name = "backup-0001.json" then some (.file (text ++ [10])) else none

theorem sampleRecordDirectory_globbed (text : List UInt8) :
    Globbed (sampleRecordDirectory text) ["backup-0001.json"] where
  nodup := by decide
  mem_iff name := by
    rw [List.mem_singleton]
    constructor
    · rintro rfl
      exact ⟨by decide, rfl⟩
    · rintro ⟨-, h⟩
      unfold sampleRecordDirectory at h
      split at h
      · assumption
      · cases h

theorem readModel_sample {executionId name : String} {text : List UInt8} {b : Backup}
    (h : readModel sampleRecords executionId (sampleRecordDirectory text name) = some b) :
    sampleRecords.validate executionId (text ++ [10]) = some b := by
  unfold sampleRecordDirectory at h
  split at h
  · rw [readModel] at h
    split at h
    · cases h
    · exact h
  · cases h

/-- A running record is settled by a restart. -/
theorem running_recovers : Prepares sampleRecords sampleRestart ["backup-0001.json"]
    (sampleRecordDirectory runningText) := by
  refine (prepares_iff_recoverable (sampleRecordDirectory_globbed _) sampleRecords_lawful).mpr ?_
  intro name b _ hb
  have hread := readModel_sample hb
  simp only [sampleRecords, List.append_cancel_right_eq, running_ne, if_false,
    if_true] at hread
  obtain rfl := Option.some.inj hread
  have hsame : sameRecord ((recordSample .running).reconciled 0)
    ((recordSample .running).reconciled 0) = true := by decide
  have hdumps : sampleRecords.dumps ((recordSample .running).reconciled 0) = some failedText := by
    simp only [sampleRecords, hsame, if_true]
  exact ⟨by decide, fun _ => ⟨failedText, hdumps, failed_small⟩⟩

/-- A planned record stays planned, and cannot be cancelled. -/
theorem planned_stuck : Globbed (sampleRecordDirectory plannedText) ["backup-0001.json"] ∧
      readModel sampleRecords "execution-2" (sampleRecordDirectory plannedText "backup-0001.json") =
        some (recordSample .planned) ∧
      reconcileInterruptedRecords sampleRecords sampleRestart ["backup-0001.json"]
        (sampleRecordDirectory plannedText) = (sampleRecordDirectory plannedText, none) ∧
      (∀ later, cancel sampleRecords (sampleRecordDirectory plannedText) (fun _ => false) false later
        "execution-2" "backup-0001" = .error "BACKUP_CANCELLATION_UNAVAILABLE") ∧
      ¬Prepares sampleRecords sampleRestart ["backup-0001.json"]
        (sampleRecordDirectory plannedText) := by
  have small : ¬(plannedText ++ [10]).length > maxRecordBytes := by
    have hlen := planned_small
    rw [List.length_append, List.length_singleton]
    omega
  have hread : readModel sampleRecords "execution-2"
      (sampleRecordDirectory plannedText "backup-0001.json") = some (recordSample .planned) := by
    show readModel sampleRecords "execution-2" (some (.file (plannedText ++ [10]))) = _
    rw [readModel, if_neg small]
    simp [sampleRecords]
  have hrun : reconcileInterruptedRecords sampleRecords sampleRestart ["backup-0001.json"]
      (sampleRecordDirectory plannedText) = (sampleRecordDirectory plannedText, none) := by
    refine sweep_fixed fun name hmem => reconcileRecord_idle fun b hb => ?_
    rw [List.mem_singleton.mp hmem] at hb
    rw [← Option.some.inj (hread.symm.trans hb)]
    rfl
  have hget : getBackup sampleRecords (sampleRecordDirectory plannedText) "execution-2"
      "backup-0001" = some (recordSample .planned) := by
    rw [getBackup, if_pos (by decide)]
    exact hread
  refine ⟨sampleRecordDirectory_globbed _, hread, hrun, fun later => ?_, ?_⟩
  · rw [cancel, hget]
    rfl
  · rintro ⟨dir', hrun', hunstuck, -⟩
    rw [hrun] at hrun'
    obtain ⟨rfl, -⟩ := Prod.mk.inj hrun'
    have hterminal := hunstuck.terminal "backup-0001.json" _ _ (by decide) hread
    cases hterminal

end Ares.Backups
