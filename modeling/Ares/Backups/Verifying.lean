import Mathlib.Data.List.Dedup
import Ares.Backups.Machine
import Ares.Data.PurePath
import Ares.Storage.Devices

/-! What a verification that says that a backup is verified has verified, and when it says so. -/

namespace Ares.Backups

open Coop Data

/-! ### One entry -/

section Entries

variable {lib : Library} {m : Machine} {sourceRoot root : Path}

theorem runs_regular {path : Path} :
    m.runs (regularFileExistsNoSymlink path) =
      if hasNul path then .error .value
      else .ok (((m.at? path).map Tree.stat).any (·.kind = .regular)) := by
  rw [regularFileExistsNoSymlink, bind_eq, Machine.runs_bind, Machine.runs_lstat?]
  split <;> rfl

/-- The source is found to be the same: it is no regular file any more, or its content has the
checksum. -/
theorem compareSource_eq_ok {path : Path} {checksum : String} :
    m.runs (compareSource lib path checksum) = .ok true ↔
      hasNul path = false ∧ ∀ info content, m.at? path = some (.file info content) →
        m.readable path = true ∧ lib.contentSha256 content = checksum := by
  rw [compareSource, bind_eq, Machine.runs_bind, runs_regular]
  cases hnul : hasNul path with
  | true => simp
  | false =>
    cases hat : m.at? path with
    | none => simp
    | some node =>
      cases node with
      | file info content =>
        have hread := Machine.readRegular_file hat
        have hcall : m.runs (attempt (.readRegular path)).observe =
            .ok (if m.readable path then .ok content else .error .os) := by
          rw [Machine.runs_observe, Machine.runs_attempt, hread]
        cases hr : m.readable path <;> simp [hr] at hcall <;>
          simp [Tree.stat, Tree.kind, hcall, Error.isOsError]
      | _ => simp [Tree.stat, Tree.kind]

/-- What a verified backup has of an entry. -/
structure Intact (lib : Library) (m : Machine) (root : Path) (entry : BackupEntry) : Prop where
  relative : isAbsolute entry.relativePath = false
  inside : ".." ∉ components entry.relativePath
  directory : entry.entryType = .directory → ∃ info inner,
    m.at? (root ++ components entry.relativePath) = some (.directory info inner)
  file : entry.entryType = .file → ∃ info content,
    m.at? (root ++ components entry.relativePath) = some (.file info content) ∧
    content.length = entry.sizeBytes ∧ entry.checksumSha256 = some (lib.contentSha256 content)

/-- The entry leaves no trace in the verification. -/
structure Passes (lib : Library) (m : Machine) (sourceRoot root : Path) (entry : BackupEntry) :
    Prop extends Intact lib m root entry where
  readable : entry.entryType = .file →
    m.readable (root ++ components entry.relativePath) = true
  source : entry.entryType = .file →
    hasNul (sourceRoot ++ components entry.relativePath) = false ∧
    ∀ info content, m.at? (sourceRoot ++ components entry.relativePath) =
        some (.file info content) →
      m.readable (sourceRoot ++ components entry.relativePath) = true ∧
      entry.checksumSha256 = some (lib.contentSha256 content)

/-- Nothing was found to be wrong. -/
structure Findings.Clean (found : Findings) : Prop where
  mismatches : found.mismatches = []
  missing : found.missing = []
  sourceChanged : found.sourceChanged = []

def Findings.count (found : Findings) (entry : BackupEntry) : Findings :=
  match entry.entryType with
  | .directory => found
  | .file => { found with
      verifiedFiles := found.verifiedFiles + 1
      verifiedBytes := found.verifiedBytes + entry.sizeBytes }

theorem Findings.clean_count {found : Findings} {entry : BackupEntry} :
    (found.count entry).Clean ↔ found.Clean := by
  rw [count]
  split
  · rfl
  · exact ⟨fun ⟨h, h', h''⟩ => ⟨h, h', h''⟩, fun ⟨h, h', h''⟩ => ⟨h, h', h''⟩⟩

theorem isPrefixOf_append (base rest : Path) : base.isPrefixOf (base ++ rest) = true :=
  List.isPrefixOf_iff_prefix.mpr (List.prefix_append _ _)

/-- An entry that leaves no trace. -/
theorem Passes.of_clean {found found' : Findings} {entry : BackupEntry}
    (h : m.runs (checkEntry lib sourceRoot root found entry) = .ok found')
    (hclean : found'.Clean) :
    found.Clean ∧ Passes lib m sourceRoot root entry ∧ found' = found.count entry := by
  rw [checkEntry] at h
  cases hplain : isAbsolute entry.relativePath || (components entry.relativePath).contains ".." with
  | true =>
    rw [if_pos hplain] at h
    obtain rfl := Except.ok.inj h
    exact absurd hclean.mismatches (List.cons_ne_nil _ _)
  | false =>
    rw [if_neg (Bool.eq_false_iff.mp hplain), bind_eq, Machine.runs_require_bind (isPrefixOf_append _ _),
      bind_eq, Machine.runs_bind] at h
    rw [Bool.or_eq_false_iff, List.contains_eq_mem, decide_eq_false_iff_not] at hplain
    obtain ⟨stat, hstat, h⟩ := bind_eq_ok h
    obtain ⟨hnul, rfl⟩ := Machine.runs_lstat?_eq_ok hstat
    cases hat : m.at? (root ++ components entry.relativePath) with
    | none =>
      rw [hat] at h
      obtain rfl := Except.ok.inj h
      exact absurd hclean.missing (List.cons_ne_nil _ _)
    | some node =>
      simp only [hat, Option.map_some] at h
      cases htype : entry.entryType with
      | directory =>
        simp only [htype] at h
        split at h
        · next hkind =>
          obtain rfl := Except.ok.inj h
          cases node with
          | directory info inner =>
            refine ⟨hclean, ⟨⟨hplain.1, hplain.2, fun _ => ⟨info, inner, hat⟩, ?_⟩, ?_, ?_⟩, ?_⟩
            · simp [htype]
            · simp [htype]
            · simp [htype]
            · rw [Findings.count, htype]
          | _ => cases hkind
        · obtain rfl := Except.ok.inj h
          exact absurd hclean.mismatches (List.cons_ne_nil _ _)
      | file =>
        simp only [htype] at h
        split at h
        · obtain rfl := Except.ok.inj h
          exact absurd hclean.mismatches (List.cons_ne_nil _ _)
        · rw [bind_eq, Machine.runs_bind, Machine.runs_attempt] at h
          obtain ⟨content, hread, h⟩ := bind_eq_ok h
          obtain ⟨hreadable, info, hat'⟩ := Machine.readRegular_eq_ok hread
          obtain rfl := Option.some.inj (hat.symm.trans hat')
          split at h
          · obtain rfl := Except.ok.inj h
            exact absurd hclean.mismatches (List.cons_ne_nil _ _)
          · next hmatch =>
            simp only [Bool.or_eq_true, decide_eq_true_eq, not_or, ne_eq, not_not] at hmatch
            rw [bind_eq, Machine.runs_bind] at h
            obtain ⟨same, hsame, h⟩ := bind_eq_ok h
            obtain rfl := Except.ok.inj h
            cases same with
            | false => exact absurd hclean.sourceChanged (List.cons_ne_nil _ _)
            | true =>
              obtain ⟨hclear, hsource⟩ := compareSource_eq_ok.mp hsame
              refine ⟨⟨hclean.mismatches, hclean.missing, hclean.sourceChanged⟩,
                ⟨⟨hplain.1, hplain.2, ?_, fun _ => ⟨info, content, hat, hmatch.2, hmatch.1.symm⟩⟩,
                  fun _ => hreadable, fun _ => ⟨hclear, fun info' content' hat' => ?_⟩⟩, ?_⟩
              · simp [htype]
              · obtain ⟨hread', heq⟩ := hsource info' content' hat'
                exact ⟨hread', hmatch.1.symm.trans (congrArg some heq.symm)⟩
              · rw [Findings.count, htype]
                exact congrArg (fun n => { found with
                  verifiedFiles := found.verifiedFiles + 1
                  verifiedBytes := found.verifiedBytes + n }) hmatch.2

theorem Passes.runs {entry : BackupEntry} (h : Passes lib m sourceRoot root entry)
    (found : Findings) :
    m.runs (checkEntry lib sourceRoot root found entry) = .ok (found.count entry) := by
  have hplain : ¬(isAbsolute entry.relativePath ||
      (components entry.relativePath).contains "..") = true := by
    simp [h.relative, h.inside]
  rw [checkEntry, if_neg hplain, bind_eq, Machine.runs_require_bind (isPrefixOf_append _ _),
    bind_eq, Machine.runs_bind, Machine.runs_lstat?]
  cases htype : entry.entryType with
  | directory =>
    obtain ⟨info, inner, hat⟩ := h.directory htype
    simp [m.noNul hat, hat, htype, Tree.stat, Tree.kind, Findings.count]
  | file =>
    obtain ⟨info, content, hat, hsize, hsum⟩ := h.file htype
    obtain ⟨hclear, hsource⟩ := h.source htype
    have hread : m.runs (attempt (.readRegular (root ++ components entry.relativePath))) =
        .ok content := by
      rw [Machine.runs_attempt, Machine.readRegular_file hat, if_pos (h.readable htype)]
    have hsame : m.runs (compareSource lib (sourceRoot ++ components entry.relativePath)
        (lib.contentSha256 content)) = .ok true := by
      refine compareSource_eq_ok.mpr ⟨hclear, fun info' content' hat' => ?_⟩
      obtain ⟨hread', hsum'⟩ := hsource info' content' hat'
      exact ⟨hread', Option.some.inj (hsum'.symm.trans hsum)⟩
    simp [m.noNul hat, hat, htype, Tree.stat, Tree.kind, Tree.size, hread, hsize, hsum, hsame,
      Findings.count]

/-! ### All entries -/

theorem checkEntries_clean {found found' : Findings} {entries : List BackupEntry} :
    (m.runs (checkEntries lib sourceRoot root found entries) = .ok found' ∧ found'.Clean) ↔
      found.Clean ∧ (∀ entry ∈ entries, Passes lib m sourceRoot root entry) ∧
        found' = entries.foldl Findings.count found := by
  induction entries generalizing found with
  | nil =>
    simp only [checkEntries, pure_eq, Machine.runs_ret, Except.ok.injEq, List.not_mem_nil,
      false_implies, implies_true, true_and, List.foldl_nil]
    constructor
    · rintro ⟨rfl, hclean⟩
      exact ⟨hclean, rfl⟩
    · rintro ⟨hclean, rfl⟩
      exact ⟨rfl, hclean⟩
  | cons entry entries ih =>
    rw [checkEntries, bind_eq, Machine.runs_bind, List.forall_mem_cons, List.foldl_cons]
    constructor
    · rintro ⟨h, hclean⟩
      obtain ⟨next, hentry, hrest⟩ := bind_eq_ok h
      obtain ⟨hnext, hall, heq⟩ := ih.mp ⟨hrest, hclean⟩
      obtain ⟨hfound, hpass, rfl⟩ := Passes.of_clean hentry hnext
      exact ⟨hfound, ⟨hpass, hall⟩, heq⟩
    · rintro ⟨hclean, ⟨hpass, hall⟩, heq⟩
      rw [hpass.runs, Machine.ok_bind]
      exact ih.mpr ⟨Findings.clean_count.mpr hclean, hall, heq⟩

theorem foldl_count (found : Findings) (entries : List BackupEntry) :
    entries.foldl Findings.count found = { found with
      verifiedFiles := found.verifiedFiles + fileCount entries
      verifiedBytes := found.verifiedBytes + totalSize entries } := by
  induction entries generalizing found with
  | nil => rfl
  | cons entry entries ih =>
    rw [List.foldl_cons, ih]
    cases htype : entry.entryType with
    | directory => simp [Findings.count, htype, fileCount, totalSize]
    | file =>
      simp only [Findings.count, htype, fileCount, totalSize, decide_true, List.countP_cons_of_pos,
        List.filter_cons_of_pos, List.map_cons, List.sum_cons]
      congr 1 <;> omega

theorem manifestMatches_eq_ok {manifest : BackupManifest} :
    m.runs (destinationManifestMatches lib root manifest) = .ok true ↔
      ∃ info content, m.at? (root ++ [manifestName]) = some (.file info content) ∧
        content.length ≤ maxManifestBytes ∧ m.readable (root ++ [manifestName]) = true ∧
        lib.loadsManifest content = some manifest ∧
        manifest.manifestChecksumSha256 = lib.manifestSha256 manifest.toManifestPayload := by
  rw [destinationManifestMatches, bind_eq, Machine.runs_bind, Machine.runs_attempt,
    Machine.answer]
  cases hat : m.at? (root ++ [manifestName]) with
  | none => simp
  | some node =>
    cases node with
    | file info content =>
      by_cases hsize : maxManifestBytes < content.length
      · simp [hsize, Nat.not_le.mpr hsize]
      · cases hread : m.readable (root ++ [manifestName]) with
        | false => simp [hsize]
        | true =>
          cases hloads : lib.loadsManifest content with
          | none => simp [hsize, hloads]
          | some stored =>
            simp only [hsize, if_false, if_true, Machine.ok_bind, Option.bind_some, hloads,
              pure_eq, Machine.runs_ret, Except.ok.injEq, Bool.and_eq_true, decide_eq_true_eq,
              Option.some.injEq, Tree.file.injEq, true_and]
            constructor
            · rintro ⟨rfl, hsum⟩
              exact ⟨info, content, ⟨rfl, rfl⟩, Nat.not_lt.mp hsize, hloads, hsum⟩
            · rintro ⟨info', content', ⟨rfl, rfl⟩, -, hloads', hsum⟩
              obtain rfl := Option.some.inj (hloads.symm.trans hloads')
              exact ⟨rfl, hsum⟩
    | _ => simp

def Expected (manifest : BackupManifest) (rel : Path) : Prop :=
  rel.posix = manifestName ∨
    ∃ entry ∈ manifest.entries, rel.posix = (components entry.relativePath).posix

theorem sorted_tokens_eq_nil {texts : List String} :
    (texts.map lib.token).dedup.mergeSort = [] ↔ texts = [] := by
  rw [← List.map_eq_nil_iff (f := lib.token) (l := texts)]
  generalize texts.map lib.token = tokens
  rw [← List.dedup_eq_nil (l := tokens)]
  exact ⟨fun h => (h ▸ (List.mergeSort_perm tokens.dedup _).symm).eq_nil,
    fun h => by rw [h, List.mergeSort_nil]⟩

theorem unexpected_eq_nil {expected : List String} :
    m.runs (unexpectedPaths lib root expected) = .ok [] ↔
      ∀ rel ∈ m.found root, rel.posix ∈ expected := by
  have hruns : m.runs (unexpectedPaths lib root expected) =
      .ok (((((m.found root).map Path.posix).filter (!expected.contains ·)).map
        lib.token).dedup.mergeSort) := by
    rw [unexpectedPaths, bind_eq, Machine.runs_bind, Machine.runs_attempt]
    rfl
  rw [hruns, Except.ok.injEq, sorted_tokens_eq_nil, List.filter_eq_nil_iff]
  simp

theorem mem_expectedPaths {manifest : BackupManifest} {rel : Path}
    (h : ∀ entry ∈ manifest.entries, Intact lib m root entry) :
    rel.posix ∈ expectedPaths manifest ↔ Expected manifest rel := by
  have hall : (manifest.entries.filter fun entry => !isAbsolute entry.relativePath &&
      !(components entry.relativePath).contains "..") = manifest.entries :=
    List.filter_eq_self.mpr fun entry hentry => by
      simp [(h entry hentry).relative, (h entry hentry).inside]
  rw [expectedPaths, hall, List.mem_cons, List.mem_map, Expected]
  simp only [eq_comm (b := rel.posix)]

/-! ### The verdict -/

/-- What a verified backup at `root` is. -/
structure Certified (lib : Library) (m : Machine) (root : Path) (manifest : BackupManifest) :
    Prop where
  checksum : manifest.manifestChecksumSha256 = lib.manifestSha256 manifest.toManifestPayload
  stored : ∃ info content, m.at? (root ++ [manifestName]) = some (.file info content) ∧
    lib.loadsManifest content = some manifest
  entries : ∀ entry ∈ manifest.entries, Intact lib m root entry
  top : ∃ info inner, m.at? root = some (.directory info inner)
  found : ∀ rel ∈ m.found root, Expected manifest rel

/-- The files of the backup can be read. -/
structure Legible (m : Machine) (root : Path) (manifest : BackupManifest) : Prop where
  own : m.readable (root ++ [manifestName]) = true
  small : ∀ info content, m.at? (root ++ [manifestName]) = some (.file info content) →
    content.length ≤ maxManifestBytes
  entries : ∀ entry ∈ manifest.entries, entry.entryType = .file →
    m.readable (root ++ components entry.relativePath) = true

def Undrifted (lib : Library) (m : Machine) (sourceRoot : Path) (manifest : BackupManifest) : Prop :=
  ∀ entry ∈ manifest.entries, entry.entryType = .file →
    hasNul (sourceRoot ++ components entry.relativePath) = false ∧
    ∀ info content, m.at? (sourceRoot ++ components entry.relativePath) =
        some (.file info content) →
      m.readable (sourceRoot ++ components entry.relativePath) = true ∧
      entry.checksumSha256 = some (lib.contentSha256 content)

/-- The verification of a backup that is verified. -/
def certificate (m : Machine) (backup : Backup) (manifest : BackupManifest) :
    BackupVerification where
  id := m.id
  backupId := backup.id
  createdAt := m.clock
  status := .verified
  expectedFileCount := manifest.fileCount
  verifiedFileCount := fileCount manifest.entries
  expectedSizeBytes := manifest.totalSizeBytes
  verifiedSizeBytes := totalSize manifest.entries
  manifestValid := true
  checksumMismatches := []
  missingEntries := []
  unexpectedEntries := []
  sourceChangedEntries := []
  message := "Backup manifest, file counts, sizes and SHA-256 checksums verified."

theorem verdict_verified {found : Findings} {unexpected : List String} :
    (verdict found unexpected).1 = .verified ↔ found.Clean ∧ unexpected = [] := by
  rw [verdict]
  split
  · next h =>
    simp only [ne_eq, Bool.or_eq_true, decide_eq_true_eq] at h
    refine iff_of_false (by simp) fun ⟨hclean, hnone⟩ => ?_
    rcases h with (h | h) | h
    · exact h hclean.mismatches
    · exact h hclean.missing
    · exact h hnone
  · next h =>
    simp only [ne_eq, Bool.or_eq_true, decide_eq_true_eq, not_or, not_not] at h
    split
    · next hchanged => exact iff_of_false (by simp) fun ⟨hclean, _⟩ => hchanged hclean.sourceChanged
    · next hsame => exact iff_of_true rfl ⟨⟨h.1.1, h.1.2, not_not.mp hsame⟩, h.2⟩

theorem failure_corrupted {backup : Backup} {manifest : BackupManifest} {missing : List String}
    {message : String} {v : BackupVerification}
    (h : m.runs (verificationFailure backup manifest missing message) = .ok v) :
    v.status = .corrupted := by
  simp only [verificationFailure, bind_eq, Machine.runs_bind] at h
  obtain rfl := Except.ok.inj h
  rfl

theorem runs_safeBackupRoot : m.runs (safeBackupRoot root) =
      if hasNul root then .error .value
      else .ok (((m.at? root).map Tree.stat).any (·.kind = .directory)) := by
  rw [safeBackupRoot, bind_eq, Machine.runs_bind, Machine.runs_lstat?]
  split <;> rfl

theorem top_of_safe (h : m.runs (safeBackupRoot root) = .ok true) :
    ∃ info inner, m.at? root = some (.directory info inner) := by
  rw [runs_safeBackupRoot] at h
  split at h
  · cases h
  · cases hat : m.at? root with
    | none => simp [hat] at h
    | some node =>
      cases node with
      | directory info inner => exact ⟨info, inner, rfl⟩
      | _ => simp [hat, Tree.stat, Tree.kind] at h

theorem safe_of_top {info : FileInfo} {inner : Entries}
    (h : m.at? root = some (.directory info inner)) :
    m.runs (safeBackupRoot root) = .ok true := by
  rw [runs_safeBackupRoot, m.noNul h, h]
  rfl

variable {backup : Backup} {manifest : BackupManifest} {v : BackupVerification}

theorem certified_of_verified (h : m.runs (verifyBackup lib backup manifest) = .ok v)
    (hv : v.status = .verified) :
    Certified lib m (components backup.destination.backupPath) manifest ∧
      Legible m (components backup.destination.backupPath) manifest ∧
      Undrifted lib m (components manifest.source.path) manifest ∧
      v = certificate m backup manifest := by
  rw [verifyBackup, bind_eq, Machine.runs_bind] at h
  obtain ⟨safe, hsafe, h⟩ := bind_eq_ok h
  cases safe with
  | false => exact absurd ((failure_corrupted h).symm.trans hv) (by simp)
  | true =>
    simp only [Bool.not_true, Bool.false_eq_true, if_false] at h
    split at h
    · exact absurd ((failure_corrupted h).symm.trans hv) (by simp)
    · next hsum =>
      rw [bind_eq, Machine.runs_bind] at h
      obtain ⟨same, hsame, h⟩ := bind_eq_ok h
      cases same with
      | false => exact absurd ((failure_corrupted h).symm.trans hv) (by simp)
      | true =>
        simp only [Bool.not_true, Bool.false_eq_true, if_false, bind_eq,
          Machine.runs_bind] at h
        obtain ⟨found, hfound, h⟩ := bind_eq_ok h
        obtain ⟨unexpected, hunexpected, h⟩ := bind_eq_ok h
        obtain rfl := Except.ok.inj h
        obtain ⟨hclean, rfl⟩ := verdict_verified.mp hv
        obtain ⟨-, hpass, rfl⟩ := checkEntries_clean.mp ⟨hfound, hclean⟩
        obtain ⟨info, content, hat, hsmall, hread, hloads, hchecksum⟩ :=
          manifestMatches_eq_ok.mp hsame
        have hintact := fun entry hentry => (hpass entry hentry).toIntact
        refine ⟨⟨hchecksum, ⟨info, content, hat, hloads⟩, hintact, top_of_safe hsafe,
          fun rel hrel => (mem_expectedPaths hintact).mp (unexpected_eq_nil.mp hunexpected rel hrel)⟩,
          ⟨hread, fun info' content' hat' => ?_, fun entry hentry => (hpass entry hentry).readable⟩,
          fun entry hentry => (hpass entry hentry).source, ?_⟩
        · obtain ⟨-, rfl⟩ := Tree.file.inj (Option.some.inj (hat.symm.trans hat'))
          exact hsmall
        · simp [foldl_count, Findings.none, certificate, verdict]

theorem verified_of_certified
    (h : Certified lib m (components backup.destination.backupPath) manifest)
    (hlegible : Legible m (components backup.destination.backupPath) manifest)
    (hsource : Undrifted lib m (components manifest.source.path) manifest) :
    m.runs (verifyBackup lib backup manifest) = .ok (certificate m backup manifest) := by
  obtain ⟨info, inner, htop⟩ := h.top
  obtain ⟨info', content, hat, hloads⟩ := h.stored
  have hsame := manifestMatches_eq_ok.mpr
    ⟨info', content, hat, hlegible.small _ _ hat, hlegible.own, hloads, h.checksum⟩
  have hpass : ∀ entry ∈ manifest.entries, Passes lib m (components manifest.source.path)
      (components backup.destination.backupPath) entry := fun entry hentry =>
    { h.entries entry hentry with
      readable := hlegible.entries entry hentry
      source := hsource entry hentry }
  have hnone : Findings.none.Clean := ⟨rfl, rfl, rfl⟩
  obtain ⟨hcheck, -⟩ := checkEntries_clean.mpr ⟨hnone, hpass, rfl⟩
  have hfound : m.runs (unexpectedPaths lib (components backup.destination.backupPath)
      (expectedPaths manifest)) = .ok [] :=
    unexpected_eq_nil.mpr fun rel hrel => (mem_expectedPaths h.entries).mpr (h.found rel hrel)
  rw [verifyBackup, bind_eq, Machine.runs_bind, safe_of_top htop, Machine.ok_bind]
  simp only [Bool.not_true, Bool.false_eq_true, if_false, h.checksum, ne_eq, not_true_eq_false,
    bind_eq, Machine.runs_bind]
  rw [hsame]
  simp only [Machine.ok_bind, Bool.not_true, Bool.false_eq_true, if_false, Machine.runs_bind, hcheck,
    hfound]
  have hid : m.runs (attempt .randomId) = .ok m.id := Machine.runs_attempt .randomId
  have hnow : m.runs (attempt .now) = .ok m.clock := Machine.runs_attempt .now
  simp [hid, hnow, foldl_count, Findings.none, certificate, verdict]

/-- VERIFIED is sound: the manifest's checksum is valid and the destination has the same manifest;
every entry names a path below the root and is there, of its type and no symlink, with the size and
the hash of the manifest; and every path that is found is the manifest's own or an entry's. -/
theorem verified_sound (h : m.runs (verifyBackup lib backup manifest) = .ok v)
    (hv : v.status = .verified) :
    Certified lib m (components backup.destination.backupPath) manifest :=
  (certified_of_verified h hv).1

end Entries

/-! ### A verified backup -/

def sampleInfo : FileInfo := ⟨0o644, 0, "8:1", 3, false⟩

/-- A machine's files: the source, with a content of its file, and a backup at `/dst`. -/
def verifiedTree (content : List UInt8) : Tree :=
  .directory sampleInfo [
    ("src", .directory sampleInfo [("notes.txt", .file sampleInfo content)]),
    ("dst", .directory sampleInfo [
      (manifestName, .file sampleInfo [123, 125]),
      ("notes.txt", .file sampleInfo [104, 105])])]

theorem verifiedTree_sound (content : List UInt8) : (verifiedTree content).Sound := by
  have hsrc : Legal "src" := ⟨by decide, by decide, by decide⟩
  have hdst : Legal "dst" := ⟨by decide, by decide, by decide⟩
  have hnotes : Legal "notes.txt" := ⟨by decide, by decide, by decide⟩
  have hmanifest : Legal ".ares-manifest.json" := ⟨by decide, by decide, by decide⟩
  simp [verifiedTree, Tree.Sound, SoundIn, manifestName, hsrc, hdst, hnotes, hmanifest]

def verifiedMachine : Machine :=
  .ofTree (verifiedTree [104, 105]) (verifiedTree_sound _) 3 (Storage.sampleSha 'a' '0')

/-- A manifest of one file, with a file count. -/
def verifiedManifest (files : Nat) : BackupManifest where
  backupId := Storage.sampleSha 'a' '0'
  source := ⟨"/src", "8:1", none, "/src", "ext4", 2, 1, 0⟩
  entries := [⟨"notes.txt", 2, 0, 0o644, .file, some (Storage.sampleSha 'c' '0')⟩]
  fileCount := files
  directoryCount := 0
  totalSizeBytes := 2
  createdAt := 3
  manifestChecksumSha256 := Storage.sampleSha 'e' '0'

def verifiedLibrary (manifest : BackupManifest) : Library where
  planSha256 _ := Storage.sampleSha 'd' '0'
  manifestSha256 _ := Storage.sampleSha 'e' '0'
  contentSha256 content := Storage.sampleSha (if content = [104, 105] then 'c' else 'b') '0'
  token text := text
  dumpsManifest _ := [123, 125]
  loadsManifest _ := some manifest

def verifiedBackup : Backup where
  id := Storage.sampleSha 'a' '0'
  createdAt := 3
  source := (verifiedManifest 1).source
  destination := ⟨"/dst", "/dst", "8:17", none, "/dst", "ext4", .mountedExternalDisk, 1000000000⟩
  size := 2
  fileCount := 1
  status := .verifying
  checksum := none
  verificationStatus := .running
  metadata := []
  createdBy := "local"
  sessionId := "session-1"
  planId := Storage.sampleSha 'a' '0'
  execution := ⟨"execution-1", Storage.sampleSha 'a' '0', none, .verifying, none, none, none, none⟩

theorem verified_sample (files : Nat) :
    verifiedMachine.runs (verifyBackup (verifiedLibrary (verifiedManifest files)) verifiedBackup
      (verifiedManifest files)) =
        .ok (certificate verifiedMachine verifiedBackup (verifiedManifest files)) := by
  have hdst : components verifiedBackup.destination.backupPath = ["dst"] := by decide
  have hsrc : components "/src" = ["src"] := by decide
  have hnotes : components "notes.txt" = ["notes.txt"] := by decide
  have hentry : ∀ P : BackupEntry → Prop,
      P ⟨"notes.txt", 2, 0, 0o644, .file, some (Storage.sampleSha 'c' '0')⟩ →
        ∀ entry ∈ (verifiedManifest files).entries, P entry := fun P h entry hmem => by
    rwa [List.mem_singleton.mp hmem]
  have hfound : verifiedMachine.found ["dst"] = [[manifestName], ["notes.txt"]] := rfl
  refine verified_of_certified (hdst ▸ ⟨rfl, ⟨_, _, rfl, rfl⟩, hentry _ ?_, ⟨_, _, rfl⟩, ?_⟩)
    ⟨rfl, fun info content hat => ?_, fun _ _ _ => rfl⟩
    (hentry _ fun _ => ⟨?_, fun info content hat => ?_⟩)
  · refine ⟨by decide, by decide, by simp, fun _ => ⟨sampleInfo, [104, 105], ?_, rfl, rfl⟩⟩
    rw [hnotes]
    rfl
  · rw [hfound]
    simp only [List.forall_mem_cons, List.not_mem_nil, false_implies, implies_true, and_true]
    exact ⟨.inl (by decide), .inr ⟨_, List.mem_cons_self, by decide⟩⟩
  · rw [hdst] at hat
    obtain ⟨-, rfl⟩ := Tree.file.inj (Option.some.inj hat)
    decide
  · show hasNul (components "/src" ++ components "notes.txt") = false
    decide
  · refine ⟨rfl, ?_⟩
    have hat' : some (Tree.file sampleInfo [104, 105]) = some (.file info content) := by
      rw [← hat]
      show _ = verifiedMachine.at? (components "/src" ++ components "notes.txt")
      rw [hsrc, hnotes]
      rfl
    obtain ⟨-, rfl⟩ := Tree.file.inj (Option.some.inj hat')
    rfl

/-- The sample with its right count. -/
theorem verified_sound_sample : Certified (verifiedLibrary (verifiedManifest 1)) verifiedMachine
      (components verifiedBackup.destination.backupPath) (verifiedManifest 1) :=
  verified_sound (verified_sample 1) rfl

end Ares.Backups
