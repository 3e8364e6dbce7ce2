import Ares.Backups.Evidence
import Ares.Backups.RoundTrip

/-! Checkpoints that are made of verified backups, and what they protect. -/

namespace Ares.Backups

open Coop Data

/-! ### The source -/

/-- What `json.dumps` of the evidence is made of. -/
structure EvidenceBody where
  backupId : String
  verificationId : String
  manifestSha256 : String
  resourceId : String
  resourceFingerprintSha256 : String
  deviceId : String

/-- What the service takes from outside. -/
structure ProtectionLibrary where
  evidenceSha256 : EvidenceBody → String
  /-- `str(Path(value).resolve(strict=False))`, or the value where it raises `OSError`. -/
  normalized : String → String
  checkpointId : String
  now : DateTime

structure ProtectionRequest where
  resourceId : String
  resourceFingerprintSha256 : String
  expectedDeviceId : String
  sessionId : String

inductive ProtectionError
  | code (code : String)
  | value
deriving DecidableEq

def readyCheckpoint (lib : ProtectionLibrary) (request : ProtectionRequest) (backup : Backup)
    (verification : BackupVerification) (manifest : BackupManifest) : ProtectionCheckpoint where
  id := lib.checkpointId
  createdAt := lib.now
  status := .ready
  protectedResources := [request.resourceId]
  resourceFingerprints := [(request.resourceId, request.resourceFingerprintSha256)]
  providerCapabilityId := "backup.create"
  protectionKind := .backup
  backupId := some backup.id
  verificationId := some verification.id
  sessionId := request.sessionId
  evidenceSha256 := lib.evidenceSha256 {
    backupId := backup.id
    verificationId := verification.id
    manifestSha256 := manifest.manifestChecksumSha256
    resourceId := request.resourceId
    resourceFingerprintSha256 := request.resourceFingerprintSha256
    deviceId := request.expectedDeviceId }
  limitations := [
    "El checkpoint es una copia a nivel de archivos, no un snapshot de bloques ni rollback " ++
      "del metadata del filesystem.",
    "Solo protege los datos que pudieron leerse y verificarse durante backup.create."]

/-- `from_backup`, with what it reads from the store; the checkpoint is put into its store. -/
def fromBackup (lib : ProtectionLibrary) (request : ProtectionRequest) (backup : Option Backup)
    (verification : Option BackupVerification) (manifest : Option BackupManifest) :
    Except ProtectionError ProtectionCheckpoint :=
  match backup, verification, manifest with
  | some backup, some verification, some manifest =>
    let source := backup.source
    if backup.status ≠ .completed then .error (.code "PROTECTION_BACKUP_NOT_COMPLETED")
    else if verification.status ≠ .verified then .error (.code "PROTECTION_BACKUP_NOT_VERIFIED")
    else if source.deviceId ≠ request.expectedDeviceId then
      .error (.code "PROTECTION_BACKUP_TARGET_MISMATCH")
    else if lib.normalized source.path ≠ lib.normalized source.mountPoint then
      .error (.code "PROTECTION_BACKUP_NOT_FULL_FILESYSTEM")
    else if manifest.source ≠ source ∨ manifest.backupId ≠ backup.id then
      .error (.code "PROTECTION_BACKUP_MANIFEST_MISMATCH")
    -- the bounds of `session_id` in the model of a checkpoint
    else if !within 8 128 request.sessionId then .error .value
    else .ok (readyCheckpoint lib request backup verification manifest)
  | _, _, _ => .error (.code "PROTECTION_BACKUP_NOT_FOUND")

/-- The policy that `BackupService.plan` makes of the excluded names of a request. -/
def planPolicy (names : List String) : BackupPolicy :=
  ⟨(builtinExcludedNames ++ names).eraseDups⟩

/-! ### Filesystems -/

/-- A filesystem, and the directory of it that is mounted. -/
structure Filesystem where
  files : Entries
  root : Path

/-- A regular file outside the built-in excluded names. -/
structure Filesystem.Has (fs : Filesystem) (path : Path) (content : List UInt8) : Prop where
  file : ∃ info, find? fs.files path = some (.file info content)
  plain : ∀ part ∈ path, part ∉ builtinExcludedNames

def World.backedUpAs (w : World) (path : Path) : Option Path :=
  match w.source, path with
  | .directory _ _, part :: rest => some (part :: rest)
  | .file _ _, [] => some w.sourceRoot.getLast?.toList
  | _, _ => none

/-- The manifest has an entry for every file, at its path below the directory that is mounted. -/
def Complete (lib : Library) (w : World) (fs : Filesystem) (manifest : BackupManifest) : Prop :=
  ∀ path content, fs.Has path content → ∃ rel name, path = fs.root ++ rel ∧
    w.backedUpAs rel = some name ∧ ∃ entry ∈ manifest.entries,
      entry.relativePath = name.posix ∧ entry.entryType = .file ∧
      entry.sizeBytes = content.length ∧ entry.checksumSha256 = some (lib.contentSha256 content)

/-- A checkpoint is given for a complete backup only, and the error says that it is not full. -/
def Protects (lib : Library) (w : World) (fs : Filesystem) (manifest : BackupManifest) :
    Except ProtectionError ProtectionCheckpoint → Prop
  | .ok _ => Complete lib w fs manifest
  | .error e => e = .code "PROTECTION_BACKUP_NOT_FULL_FILESYSTEM"

/-- On the way down the path, no name is excluded, and `stat` works and finds the device. -/
def Passable (names : List String) (deviceId : String) : Entries → Path → Prop
  | _, [] => True
  | entries, name :: rest => name ∉ names ∧ ∃ node, entries.lookup name = some node ∧
      node.info.unstatable = false ∧ node.info.device = deviceId ∧
      match node with
      | .directory _ inner => Passable names deviceId inner rest
      | _ => True

/-- The source shows a regular file with this content at a path that can be passed. -/
def Shown (lib : Library) (w : World) (names : List String) (deviceId : String) (rel : Path)
    (content : List UInt8) : Prop :=
  (∃ info shown, w.sourceAt rel = some (.file info shown) ∧ shown.length = content.length ∧
    lib.contentSha256 shown = lib.contentSha256 content) ∧
  ∀ info entries, w.source = .directory info entries → Passable names deviceId entries rel

/-! ### What the walk passes -/

section Passing

variable {policy : BackupPolicy} {names : List String} {deviceId : String}

theorem excludedReason_eq_none {name : String} {node : Tree} :
    excludedReason policy deviceId name node = none ↔ name ∉ policy.excludedNames ∧
      node.info.unstatable = false ∧ node.info.device = deviceId ∧
      (node.kind = .directory ∨ node.kind = .regular) := by
  rw [excludedReason]
  by_cases hname : name ∈ policy.excludedNames
  · simp [hname]
  · cases hstat : node.info.unstatable with
    | true => cases node <;> simp_all [Tree.kind]
    | false =>
      by_cases hdevice : node.info.device = deviceId
      · cases node <;> simp_all [Tree.kind]
      · cases node <;> simp_all [Tree.kind]

theorem passable_of_reaches {entries : Entries} {base : Path} {name : String} {node : Tree}
    (hreach : Reaches policy deviceId entries base name node)
    (hreason : excludedReason policy deviceId name node = none)
    (hnodup : (entries.map Prod.fst).Nodup) (hsound : SoundIn entries) :
    Passable policy.excludedNames deviceId entries (base ++ [name]) := by
  induction hreach with
  | @here entries name node hmem =>
    obtain ⟨hname, hstat, hdevice, -⟩ := excludedReason_eq_none.mp hreason
    refine ⟨hname, node, lookup_of_mem hnodup hmem, hstat, hdevice, ?_⟩
    cases node <;> trivial
  | @inside entries inner dir name info base node hmem hopen _ ih =>
    obtain ⟨hname, hstat, hdevice, -⟩ := excludedReason_eq_none.mp hopen
    obtain ⟨-, hinner⟩ := soundIn_mem hsound hmem
    exact ⟨hname, _, lookup_of_mem hnodup hmem, hstat, hdevice, ih hreason hinner.1 hinner.2⟩

theorem reaches_of_passable {entries : Entries} {path : Path} {node : Tree}
    (hfind : find? entries path = some node)
    (hkind : node.kind = .directory ∨ node.kind = .regular)
    (hpass : Passable policy.excludedNames deviceId entries path) :
    ∃ base name, path = base ++ [name] ∧ Reaches policy deviceId entries base name node ∧
      excludedReason policy deviceId name node = none := by
  induction path generalizing entries with
  | nil => cases hfind
  | cons name rest ih =>
    obtain ⟨hname, child, hlookup, hstat, hdevice, hrest⟩ := hpass
    have hmem := mem_of_lookup hlookup
    cases rest with
    | nil =>
      obtain rfl := Option.some.inj (hlookup.symm.trans hfind)
      refine ⟨[], name, rfl, .here hmem, ?_⟩
      exact excludedReason_eq_none.mpr ⟨hname, hstat, hdevice, hkind⟩
    | cons part rest =>
      rw [find?, hlookup] at hfind
      · cases child with
        | directory info inner =>
          obtain ⟨base, last, heq, hreach, hreason⟩ := ih hfind hrest
          refine ⟨name :: base, last, by rw [heq]; rfl, .inside hmem ?_ hreach, hreason⟩
          exact excludedReason_eq_none.mpr ⟨hname, hstat, hdevice, .inl rfl⟩
        | _ => cases hfind
      · simp

theorem passable_planPolicy {entries : Entries} {path : Path}
    (hplain : ∀ part ∈ path, part ∉ builtinExcludedNames) :
    Passable (planPolicy names).excludedNames deviceId entries path ↔
      Passable names deviceId entries path := by
  induction path generalizing entries with
  | nil => exact Iff.rfl
  | cons name rest ih =>
    rw [List.forall_mem_cons] at hplain
    have hname : name ∉ (planPolicy names).excludedNames ↔ name ∉ names := by
      simp [planPolicy, hplain.1]
    have hrest : ∀ node : Tree, (match node with
        | .directory _ inner => Passable (planPolicy names).excludedNames deviceId inner rest
        | _ => True) ↔ match node with
        | .directory _ inner => Passable names deviceId inner rest
        | _ => True := by
      intro node
      cases node with
      | directory info inner => exact ih hplain.2
      | _ => exact Iff.rfl
    simp only [Passable, hname, hrest]

end Passing

/-! ### What a manifest has -/

section Having

variable {lib : Library} {w : World} {plan : BackupPlan} {manifest : BackupManifest}
  {names : List String}

theorem find_legal {entries : Entries} {path : Path} {node : Tree} (hsound : SoundIn entries)
    (h : find? entries path = some node) : ∀ part ∈ path, Legal part := by
  induction path generalizing entries with
  | nil => cases h
  | cons name rest ih =>
    cases rest with
    | nil =>
      have hmem : (name, node) ∈ entries := mem_of_lookup h
      simpa using (soundIn_mem hsound hmem).1
    | cons part rest =>
      rw [find?] at h
      · cases hlookup : entries.lookup name with
        | none =>
          rw [hlookup] at h
          cases h
        | some child =>
          rw [hlookup] at h
          obtain ⟨hlegal, hchild⟩ := soundIn_mem hsound (mem_of_lookup hlookup)
          cases child with
          | directory info inner => exact List.forall_mem_cons.mpr ⟨hlegal, ih hchild.2 h⟩
          | _ => cases h
      · simp

section

variable (hev : Evidence lib w plan manifest) (hroot : components plan.source.path = w.sourceRoot)
  (hsound : w.source.Sound)
include hev hroot hsound

/-- The manifest has an entry for a file exactly when the source shows it. -/
theorem Evidence.has_iff (hread : ∀ info content, w.read info content = content)
    (hpolicy : plan.policy = planPolicy names) {rel : Path}
    {content : List UInt8} (hplain : ∀ part ∈ rel, part ∉ builtinExcludedNames)
    (hlegal : ∀ part ∈ rel, Legal part) :
    (∃ name, w.backedUpAs rel = some name ∧ ∃ entry ∈ manifest.entries,
      entry.relativePath = name.posix ∧ entry.entryType = .file ∧
      entry.sizeBytes = content.length ∧
      entry.checksumSha256 = some (lib.contentSha256 content)) ↔
    Shown lib w names plan.source.deviceId rel content := by
  cases hsource : w.source with
  | directory info entries =>
    rw [hev.directory hroot hsound hsource, hpolicy]
    rw [hsource] at hsound
    cases rel with
    | nil => simp [World.backedUpAs, hsource, Shown, World.sourceAt]
    | cons part rest =>
      have hat := sourceAt_directory hsource (List.cons_ne_nil part rest)
      have hback : w.backedUpAs (part :: rest) = some (part :: rest) := by
        simp only [World.backedUpAs, hsource]
      constructor
      · rintro ⟨name, hname, entry, hmem, hpath, htype, hsize, hsha⟩
        obtain rfl := Option.some.inj (hback.symm.trans hname)
        obtain ⟨v, hv, rfl⟩ := List.mem_map.mp hmem
        have hrel : v.relative = part :: rest :=
          posix_inj (named_of_legal (included_legal hsound.2 hv).2) (named_of_legal hlegal) hpath
        have hfind := find_included hsound.1 hsound.2 hv
        obtain ⟨base, last, node, hreach, hreason, rfl⟩ := mem_included.mp hv
        have hpass := passable_of_reaches hreach hreason hsound.1 hsound.2
        cases node with
        | file info' shown =>
          have hsha' := Option.some.inj hsha
          rw [hread] at hsha'
          refine ⟨⟨info', shown, ?_, hsize, hsha'⟩, fun info'' entries' heq => ?_⟩
          · rw [hat, ← hrel]
            exact hfind
          · obtain ⟨-, rfl⟩ := Tree.directory.inj (hsource.symm.trans heq)
            rw [← passable_planPolicy hplain, ← hrel]
            exact hpass
        | _ => cases htype
      · rintro ⟨⟨info', shown, hshown, hsize, hsha⟩, hpass⟩
        rw [hat] at hshown
        have hpass' := (passable_planPolicy hplain).mpr (hpass info entries hsource)
        obtain ⟨base, last, heq, hreach, hreason⟩ := reaches_of_passable hshown (.inr rfl) hpass'
        refine ⟨_, hback, manifestEntry lib w.read (visit (planPolicy names) plan.source.deviceId base
          (last, .file info' shown)), List.mem_map_of_mem
            (mem_included.mpr ⟨base, last, _, hreach, hreason, rfl⟩), ?_, rfl, hsize, ?_⟩
        · rw [heq]
          rfl
        · exact congrArg some ((congrArg lib.contentSha256 (hread info' shown)).trans hsha)
  | file info shown =>
    rw [hev.file hroot hsource]
    cases rel with
    | nil =>
      simp [World.backedUpAs, hsource, Shown, World.sourceAt, manifestEntry, Tree.size, hread]
    | cons part rest => simp [World.backedUpAs, hsource, Shown, World.sourceAt]
  | symlink info =>
    obtain ⟨items, hwalk, -⟩ := hev.entries
    rw [hroot, World.walkCopy, sourceFile_root, hsource] at hwalk
    cases hwalk
  | special info =>
    obtain ⟨items, hwalk, -⟩ := hev.entries
    rw [hroot, World.walkCopy, sourceFile_root, hsource] at hwalk
    cases hwalk

end

theorem buildPlan_policy {policy : BackupPolicy} {sourcePath destinationPath : String} {w' : World}
    (h : w.runs (buildPlan lib sourcePath destinationPath policy) = (.ok plan, w')) :
    plan.policy = policy := by
  simp only [World.runs, buildPlan, bind_eq] at h
  iterate 23 obtain ⟨_, _, -, h⟩ := serve_bind_eq_ok h
  rw [← Except.ok.inj (congrArg Prod.fst h)]

end Having

/-! ### What a checkpoint protects -/

section Service

variable {lib : Library} {plib : ProtectionLibrary} {request : ProtectionRequest} {backup : Backup}
  {verification : BackupVerification} {manifest : BackupManifest}

variable (plib) in
theorem fromBackup_eq (hcompleted : backup.status = .completed)
    (hverified : verification.status = .verified)
    (hdevice : backup.source.deviceId = request.expectedDeviceId)
    (hsource : manifest.source = backup.source) (hid : manifest.backupId = backup.id)
    (hsession : within 8 128 request.sessionId = true) :
    (plib.normalized backup.source.path ≠ plib.normalized backup.source.mountPoint ∧
      fromBackup plib request (some backup) (some verification) (some manifest) =
        .error (.code "PROTECTION_BACKUP_NOT_FULL_FILESYSTEM")) ∨
    (plib.normalized backup.source.path = plib.normalized backup.source.mountPoint ∧
      ∃ checkpoint, fromBackup plib request (some backup) (some verification) (some manifest) =
        .ok checkpoint ∧ checkpoint.status = .ready) := by
  by_cases hfull : plib.normalized backup.source.path = plib.normalized backup.source.mountPoint
  · refine .inr ⟨hfull, readyCheckpoint plib request backup verification manifest, ?_, rfl⟩
    simp only [fromBackup, hcompleted, hverified, hdevice, hfull, hsource, hid, hsession, ne_eq,
      not_true_eq_false, or_self, if_false, Bool.not_true, Bool.false_eq_true]
  · refine .inl ⟨hfull, ?_⟩
    simp only [fromBackup, hcompleted, hverified, hdevice, ne_eq, not_true_eq_false, if_false]
    exact if_pos hfull

/-- A checkpoint of a backup protects its filesystem exactly when the backup is not of a mount point,
or the source shows every file of the filesystem where `stat` works and the request excludes no
name. -/
theorem protects_iff_shown {u u' w w' : World} {plan : BackupPlan} {fs : Filesystem}
    {sourcePath destinationPath : String} {names : List String}
    (hplan : u.runs (buildPlan lib sourcePath destinationPath (planPolicy names)) = (.ok plan, u'))
    (hcreate : w.runs (createBackup lib plan) = (.ok manifest, w'))
    (hroot : components plan.source.path = w.sourceRoot) (hsound : w.source.Sound)
    (hblocks : ∀ info content, (w.blocks info content).flatten = content) (hfiles : SoundIn fs.files)
    (hsource : backup.source = plan.source) (hid : backup.id = plan.backupId)
    (hcompleted : backup.status = .completed) (hverified : verification.status = .verified)
    (hdevice : backup.source.deviceId = request.expectedDeviceId)
    (hsession : within 8 128 request.sessionId = true) :
    Protects lib w fs manifest
        (fromBackup plib request (some backup) (some verification) (some manifest)) ↔
      plib.normalized backup.source.path ≠ plib.normalized backup.source.mountPoint ∨
        ∀ path content, fs.Has path content →
          ∃ rel, path = fs.root ++ rel ∧ Shown lib w names plan.source.deviceId rel content := by
  have hev := createBackup_ok hsound hroot hcreate
  have hpolicy := buildPlan_policy hplan
  have hcomplete : Complete lib w fs manifest ↔ ∀ path content, fs.Has path content →
      ∃ rel, path = fs.root ++ rel ∧ Shown lib w names plan.source.deviceId rel content := by
    refine forall₂_congr fun path content => imp_congr_right fun hhas => ?_
    refine exists_congr fun rel => ?_
    rw [exists_and_left, and_congr_right_iff]
    rintro rfl
    obtain ⟨⟨info, hfind⟩, hplain⟩ := hhas
    have hlegal := find_legal hfiles hfind
    exact hev.has_iff hroot hsound hblocks hpolicy
      (fun part hpart => hplain part (List.mem_append_right _ hpart))
      (fun part hpart => hlegal part (List.mem_append_right _ hpart))
  rw [← hcomplete]
  rcases fromBackup_eq plib hcompleted hverified hdevice (hev.source.trans hsource.symm)
    (hev.backupId.trans hid.symm) hsession with ⟨hpart, herror⟩ | ⟨hfull, checkpoint, hok, -⟩
  · rw [herror]
    exact ⟨fun _ => .inl hpart, fun _ => rfl⟩
  · rw [hok]
    exact ⟨.inr, fun h => h.resolve_left (not_not_intro hfull)⟩

end Service

/-! ### A machine with one file -/

def sampleProtection : ProtectionLibrary where
  evidenceSha256 _ := Storage.sampleSha 'f' '0'
  normalized text := text
  checkpointId := "checkpoint-1"
  now := 10

def sampleRequest : ProtectionRequest where
  resourceId := "filesystem-1"
  resourceFingerprintSha256 := Storage.sampleSha 'b' '0'
  expectedDeviceId := "8:1"
  sessionId := "session-1"

/-- The file of the sample is all of its filesystem. -/
def sampleFilesystem : Filesystem := ⟨sampleEntries "notes.txt", []⟩

section Sample

variable (names : List String)

def samplePlan : BackupPlan :=
  (sampleWorld "notes.txt").plan (sampleLibrary "notes.txt") (planPolicy names)
    (sampleEntries "notes.txt") (sampleMount "8:1" ["src"]) (sampleMount "8:17" ["dst"])

def sampleManifest : BackupManifest :=
  (sampleWorld "notes.txt").manifest (sampleLibrary "notes.txt") (planPolicy names)
    (sampleEntries "notes.txt") (sampleMount "8:1" ["src"])

/-- What `from_backup` makes of the backup with these excluded names. -/
def sampleCheckpoint : Except ProtectionError ProtectionCheckpoint :=
  fromBackup sampleProtection sampleRequest (some (completedSample (samplePlan names)))
    (some (verified (sampleWorld "notes.txt") (planPolicy names) (sampleEntries "notes.txt")
      (sampleMount "8:1" ["src"]) (completedSample (samplePlan names))))
    (some (sampleManifest names))

variable {names}

theorem sample_planned
    (hsize : (scanEntries (planPolicy names) "8:1" (sampleEntries "notes.txt")).bytesTotal ≤ 2) :
    (sampleWorld "notes.txt").runs (buildPlan (sampleLibrary "notes.txt") "/src" "/dst"
      (planPolicy names)) = (.ok (samplePlan names), (sampleWorld "notes.txt").planned) :=
  runs_buildPlan (sample_ready _ _ ⟨by decide, by decide, by decide⟩ (by decide) (by decide) hsize)
    (sample_documented _ _) names_src names_dst

theorem sample_created
    (hsize : (scanEntries (planPolicy names) "8:1" (sampleEntries "notes.txt")).bytesTotal ≤ 2) :
    (sampleWorld "notes.txt").planned.runs (createBackup (sampleLibrary "notes.txt")
      (samplePlan names)) = (.ok (sampleManifest names), (sampleWorld "notes.txt").done
        (sampleLibrary "notes.txt") (planPolicy names) (sampleEntries "notes.txt")
        (sampleMount "8:1" ["src"])) :=
  (sample_ready _ _ ⟨by decide, by decide, by decide⟩ (by decide) (by decide)
    hsize).runs_createBackup (sample_storable _) (by decide)

end Sample

theorem sampleFilesystem_has {path : Path} {content : List UInt8}
    (h : sampleFilesystem.Has path content) : path = ["notes.txt"] ∧ content = [104, 105] := by
  obtain ⟨⟨info, hfind⟩, -⟩ := h
  cases path with
  | nil => cases hfind
  | cons name rest =>
    by_cases hname : name = "notes.txt"
    · subst hname
      cases rest with
      | nil =>
        have hcontent := Option.some.inj hfind
        exact ⟨rfl, (Tree.file.inj hcontent).2.symm⟩
      | cons part rest => simp [find?, sampleFilesystem, sampleEntries] at hfind
    · have hnone : (sampleEntries "notes.txt").lookup name = none := by
        simp [sampleEntries, hname]
      cases rest with
      | nil => simp [find?, sampleFilesystem, hnone] at hfind
      | cons part rest => simp [find?, sampleFilesystem, hnone] at hfind

/-- A request that excludes no name: the checkpoint protects the file. -/
theorem notes_protected : Protects (sampleLibrary "notes.txt") (sampleWorld "notes.txt").planned
    sampleFilesystem (sampleManifest []) (sampleCheckpoint []) := by
  refine (protects_iff_shown (sample_planned (by decide)) (sample_created (by decide)) ?_ ?_ ?_ ?_
    rfl rfl rfl rfl rfl (by decide)).mpr (.inr fun path content hhas => ?_)
  · exact names_src.components
  · exact ⟨by decide, ⟨by decide, by decide, by decide⟩, trivial, trivial⟩
  · intro info content
    exact List.append_nil content
  · exact ⟨⟨by decide, by decide, by decide⟩, trivial, trivial⟩
  · obtain ⟨rfl, rfl⟩ := sampleFilesystem_has hhas
    refine ⟨["notes.txt"], rfl, ⟨_, [104, 105], rfl, rfl, rfl⟩, fun info entries heq => ?_⟩
    obtain ⟨rfl, rfl⟩ := Tree.directory.inj heq
    exact ⟨by simp, _, rfl, rfl, rfl, trivial⟩

/-- A request that excludes `notes.txt`: the checkpoint is ready, and the manifest is empty. -/
theorem excluded_notes_ready :
    (sampleWorld "notes.txt").runs (buildPlan (sampleLibrary "notes.txt") "/src" "/dst"
      (planPolicy ["notes.txt"])) = (.ok (samplePlan ["notes.txt"]),
        (sampleWorld "notes.txt").planned) ∧
    ((sampleWorld "notes.txt").planned.runs (createBackup (sampleLibrary "notes.txt")
      (samplePlan ["notes.txt"]))).1 = .ok (sampleManifest ["notes.txt"]) ∧
    sampleFilesystem.Has ["notes.txt"] [104, 105] ∧
    (sampleManifest ["notes.txt"]).entries = [] ∧
    (∃ checkpoint, sampleCheckpoint ["notes.txt"] = .ok checkpoint ∧ checkpoint.status = .ready) ∧
    ¬Protects (sampleLibrary "notes.txt") (sampleWorld "notes.txt").planned sampleFilesystem
      (sampleManifest ["notes.txt"]) (sampleCheckpoint ["notes.txt"]) := by
  have hhas : sampleFilesystem.Has ["notes.txt"] [104, 105] := ⟨⟨_, rfl⟩, by decide⟩
  have hentries : (sampleManifest ["notes.txt"]).entries = [] := by decide +kernel
  have hready : ∃ checkpoint, sampleCheckpoint ["notes.txt"] = .ok checkpoint ∧
      checkpoint.status = .ready := ⟨_, rfl, rfl⟩
  refine ⟨sample_planned (by decide), congrArg Prod.fst (sample_created (by decide)), hhas,
    hentries, hready, ?_⟩
  obtain ⟨checkpoint, hok, -⟩ := hready
  rw [hok]
  intro hcomplete
  obtain ⟨rel, name, -, -, entry, hmem, -⟩ := hcomplete _ _ hhas
  rw [hentries] at hmem
  cases hmem

end Ares.Backups
