import Ares.Backups.Tools

/-! Creating a backup, and verifying one. -/

namespace Ares.Backups

open Coop Data

variable (lib : Library)

variable {σ : Type}

def maxManifestBytes : Nat := 128000000

def manifestName : String := ".ares-manifest.json"

/-! ### Copying -/

/-- `BackupEntry(..)`: the bounds of the model. -/
def entryOf (relative : Path) (info : Stat) (size : Nat) (entryType : BackupEntryType)
    (checksum : Option String) : Except Error BackupEntry :=
  if within 1 4096 relative.posix && 0 ≤ info.mtimeNs && info.mode ≤ 0o7777 then
    .ok {
      relativePath := relative.posix
      sizeBytes := size
      mtimeNs := info.mtimeNs.toNat
      mode := info.mode
      entryType
      checksumSha256 := checksum }
  else .error .value

def writeBlocks (target : Path) : List (List UInt8) → Tool σ Unit
  | [] => pure ()
  | block :: blocks => do
    attempt (.write target block)
    attempt .send
    writeBlocks target blocks

/-- `_copy_regular_file`: the checksum, and how many bytes the callback has heard of. -/
def copyRegularFile (item target : Path) (info : Stat) : Tool σ (String × Nat) := do
  let (current, blocks, failure) ← attempt (.openSource item)
  require (current.kind = .regular && current.inode = info.inode &&
    current.device = info.device) (.tool "BACKUP_SOURCE_CHANGED")
  attempt (.create target)
  writeBlocks target blocks
  raiseIf failure
  let final ← attempt (.fstat item)
  require (final.size = info.size && final.mtimeNs = info.mtimeNs)
    (.tool "BACKUP_SOURCE_CHANGED")
  attempt (.finish target info)
  pure (lib.contentSha256 blocks.flatten, blocks.flatten.length)

def copyEntry (partialRoot item relative : Path) : Tool σ (BackupEntry × Nat) := do
  let target := partialRoot ++ relative
  require (partialRoot.isPrefixOf target) (.tool "BACKUP_PATH_TRAVERSAL")
  let info ← attempt (.lstat item)
  match info.kind with
  | .directory =>
    attempt (.mkdir target info.mode true false)
    let entry ← Proc.ofExcept (entryOf relative info 0 .directory none)
    attempt .send
    attempt .send
    pure (entry, 0)
  | .regular =>
    attempt (.mkdir target.dropLast 0o700 true true)
    let (checksum, copied) ← copyRegularFile lib item target info
    let entry ← Proc.ofExcept (entryOf relative info info.size .file (some checksum))
    attempt .send
    attempt .send
    pure (entry, copied)
  | _ => throw (.tool "BACKUP_SOURCE_CHANGED")

/-- The items of the walk: their entries, and the bytes that were copied. -/
def copyEntries (partialRoot : Path) :
    List (Path × Path) → Tool σ (List BackupEntry × Nat)
  | [] => pure ([], 0)
  | (item, relative) :: items => do
    let (entry, copied) ← copyEntry lib partialRoot item relative
    let (entries, rest) ← copyEntries partialRoot items
    pure (entry :: entries, copied + rest)

def fileCount (entries : List BackupEntry) : Nat :=
  entries.countP fun entry => entry.entryType = .file

def directoryCount (entries : List BackupEntry) : Nat :=
  entries.countP fun entry => entry.entryType = .directory

def totalSize (entries : List BackupEntry) : Nat :=
  ((entries.filter fun entry => entry.entryType = .file).map (·.sizeBytes)).sum

/-- `_write_manifest_file`. -/
def writeManifestFile (root : Path) (manifest : BackupManifest) : Tool σ Unit := do
  let encoded := lib.dumpsManifest manifest ++ [10]
  require (encoded.length ≤ maxManifestBytes) (.tool "BACKUP_MANIFEST_TOO_LARGE")
  attempt (.writeNew (root ++ [manifestName]) encoded)

/-- What `create_backup` does in its `try`. -/
def fillPartial (plan : BackupPlan) (source aresRoot final partialRoot : Path) :
    Tool σ BackupManifest := do
  let sourceMount ← mountFor source
  let sourceInfo ← ofOption (.tool "BACKUP_SOURCE_FILESYSTEM_UNKNOWN") sourceMount
  let (items, failure) ← attempt (.walkCopyEntries source sourceInfo.deviceId plan.policy)
  let (entries, bytesDone) ← copyEntries lib partialRoot items
  raiseIf failure
  let payload : ManifestPayload := {
    backupId := plan.backupId
    source := plan.source
    entries
    fileCount := fileCount entries
    directoryCount := directoryCount entries
    totalSizeBytes := totalSize entries }
  require (payload.fileCount = plan.includedFileCount &&
    payload.directoryCount = plan.includedDirectoryCount &&
    payload.totalSizeBytes = plan.source.estimatedSizeBytes && bytesDone = payload.totalSizeBytes)
    (.tool "BACKUP_SOURCE_CHANGED")
  let createdAt ← attempt .now
  let manifest : BackupManifest :=
    { payload with createdAt, manifestChecksumSha256 := lib.manifestSha256 payload }
  writeManifestFile lib partialRoot manifest
  attempt (.replace partialRoot final)
  attempt (.fsyncDirectory aresRoot)
  attempt .send
  pure manifest

def prepareBackupDestination (aresRoot final partialRoot : Path) : Tool σ Unit := do
  let finalTaken ← attempt (.lexists final)
  require (!finalTaken) (.tool "BACKUP_DESTINATION_EXISTS")
  let partialTaken ← attempt (.lexists partialRoot)
  require (!partialTaken) (.tool "BACKUP_DESTINATION_EXISTS")
  attempt (.mkdir aresRoot 0o700 false true)
  let outside ← attempt (.unsafeDirectory aresRoot)
  require (!outside) (.tool "BACKUP_DESTINATION_UNSAFE")
  attempt (.mkdir partialRoot 0o700 false false)

/-- `create_backup` after its revalidation. -/
def copyBackup (plan : BackupPlan) : Tool σ BackupManifest := do
  let source := components plan.source.path
  let aresRoot := (components plan.destination.rootPath).join "ARES"
  let final := components plan.destination.backupPath
  let partialRoot := aresRoot.join (".partial-" ++ plan.backupId)
  prepareBackupDestination aresRoot final partialRoot
  Proc.handle (fillPartial lib plan source aresRoot final partialRoot) fun e => do
    match e with
    | .cancelled | .tool _ =>
      attempt (.removePartial partialRoot)
      throw e
    | .os | .permission =>
      attempt (.removePartial partialRoot)
      throw (.tool "BACKUP_IO_FAILED")
    | _ => throw e

def createBackup (plan : BackupPlan) : Tool σ BackupManifest := do
  let _ ← revalidatePlan lib plan
  copyBackup lib plan

/-! ### Verifying -/

/-- `_verification_failure`. -/
def verificationFailure (backup : Backup) (manifest : BackupManifest) (missing : List String)
    (message : String) : Tool σ BackupVerification := do
  let id ← attempt .randomId
  let createdAt ← attempt .now
  pure {
    id
    backupId := backup.id
    createdAt
    status := .corrupted
    expectedFileCount := manifest.fileCount
    verifiedFileCount := 0
    expectedSizeBytes := manifest.totalSizeBytes
    verifiedSizeBytes := 0
    manifestValid := false
    checksumMismatches := []
    missingEntries := missing
    unexpectedEntries := []
    sourceChangedEntries := []
    message }

/-- `lstat`, or none where it raises `OSError`. -/
def lstat? (path : Path) : Tool σ (Option Stat) :=
  Proc.handle (do return some (← attempt (.lstat path))) fun e =>
    if e.isOsError then pure none else throw e

def safeBackupRoot (root : Path) : Tool σ Bool := do
  let info ← lstat? root
  pure (info.any (·.kind = .directory))

def regularFileExistsNoSymlink (path : Path) : Tool σ Bool := do
  let info ← lstat? path
  pure (info.any (·.kind = .regular))

def destinationManifestMatches (root : Path) (manifest : BackupManifest) :
    Tool σ Bool := do
  let content ← attempt (.readBounded (root ++ [manifestName]) maxManifestBytes)
  pure <| match content.bind lib.loadsManifest with
    | some stored => stored = manifest &&
        stored.manifestChecksumSha256 = lib.manifestSha256 stored.toManifestPayload
    | none => false

/-- What the loop over the entries has found. -/
structure Findings where
  mismatches : List String
  missing : List String
  sourceChanged : List String
  verifiedFiles : Nat
  verifiedBytes : Nat

def Findings.none : Findings := ⟨[], [], [], 0, 0⟩

/-- A verified file against the source, where the source still has a regular file. -/
def compareSource (item : Path) (checksum : String) : Tool σ Bool := do
  if ← regularFileExistsNoSymlink item then
    match ← (attempt (.readRegular item)).observe with
    | .ok content => pure (lib.contentSha256 content = checksum)
    | .error e => if e.isOsError then pure false else throw e
  else pure true

def checkEntry (sourceRoot root : Path) (found : Findings) (entry : BackupEntry) :
    Tool σ Findings := do
  let relative := components entry.relativePath
  let token := lib.token entry.relativePath
  if isAbsolute entry.relativePath || relative.contains ".." then
    pure { found with mismatches := token :: found.mismatches }
  else
    let target := root ++ relative
    require (root.isPrefixOf target) (.tool "BACKUP_PATH_TRAVERSAL")
    match ← lstat? target with
    | none => pure { found with missing := token :: found.missing }
    | some info =>
      match entry.entryType with
      | .directory =>
        if info.kind = .directory then pure found
        else pure { found with mismatches := token :: found.mismatches }
      | .file =>
        if info.kind ≠ .regular then pure { found with mismatches := token :: found.mismatches }
        else
          let content ← attempt (.readRegular target)
          let checksum := lib.contentSha256 content
          if some checksum ≠ entry.checksumSha256 || info.size ≠ entry.sizeBytes then
            pure { found with mismatches := token :: found.mismatches }
          else
            let same ← compareSource lib (sourceRoot ++ relative) checksum
            pure { found with
              verifiedFiles := found.verifiedFiles + 1
              verifiedBytes := found.verifiedBytes + info.size
              sourceChanged := if same then found.sourceChanged
                else token :: found.sourceChanged }

def checkEntries (sourceRoot root : Path) (found : Findings) :
    List BackupEntry → Tool σ Findings
  | [] => pure found
  | entry :: entries => do
    let found ← checkEntry lib sourceRoot root found entry
    checkEntries sourceRoot root found entries

def expectedPaths (manifest : BackupManifest) : List String :=
  manifestName :: (manifest.entries.filter fun entry =>
    !isAbsolute entry.relativePath && !(components entry.relativePath).contains "..").map
      fun entry => (components entry.relativePath).posix

/-- `_unexpected_paths`, sorted. -/
def unexpectedPaths (root : Path) (expected : List String) :
    Tool σ (List String) := do
  let paths ← attempt (.walkTree root)
  pure ((((paths.map Path.posix).filter (!expected.contains ·)).map lib.token).dedup.mergeSort)

def verdict (found : Findings) (unexpected : List String) : BackupVerificationStatus × String :=
  if found.mismatches ≠ [] || found.missing ≠ [] || unexpected ≠ [] then
    (.corrupted, "Backup verification detected missing, unexpected or corrupt entries.")
  else if found.sourceChanged ≠ [] then
    (.failed, "Backup is internally consistent, but the source changed after copying.")
  else (.verified, "Backup manifest, file counts, sizes and SHA-256 checksums verified.")

def verifyBackup (backup : Backup) (manifest : BackupManifest) :
    Tool σ BackupVerification := do
  let root := components backup.destination.backupPath
  let safe ← safeBackupRoot root
  if !safe then
    verificationFailure backup manifest ["backup-root"] "Backup destination is missing or unsafe."
  else if manifest.manifestChecksumSha256 ≠ lib.manifestSha256 manifest.toManifestPayload then
    verificationFailure backup manifest [] "Backup manifest checksum is invalid."
  else if !(← destinationManifestMatches lib root manifest) then
    verificationFailure backup manifest [] "Destination manifest is missing, changed or invalid."
  else
    let found ← checkEntries lib (components manifest.source.path) root .none manifest.entries
    let unexpected ← unexpectedPaths lib root (expectedPaths manifest)
    let (status, message) := verdict found unexpected
    let id ← attempt .randomId
    let createdAt ← attempt .now
    pure {
      id
      backupId := backup.id
      createdAt
      status
      expectedFileCount := manifest.fileCount
      verifiedFileCount := found.verifiedFiles
      expectedSizeBytes := manifest.totalSizeBytes
      verifiedSizeBytes := found.verifiedBytes
      manifestValid := true
      checksumMismatches := found.mismatches.mergeSort
      missingEntries := found.missing.mergeSort
      unexpectedEntries := unexpected
      sourceChangedEntries := found.sourceChanged.mergeSort
      message }

end Ares.Backups
