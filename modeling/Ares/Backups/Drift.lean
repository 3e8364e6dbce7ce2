import Ares.Backups.Evidence
import Ares.Backups.RoundTrip

/-! A source that changes after it was copied.  The verification looks for a copied file below the
path of the source, where the single file that is itself the source is not. -/

namespace Ares.Backups

open Coop Data

section Drift

variable {lib : Library} {w w' : World} {plan : BackupPlan} {manifest : BackupManifest} {m : Machine}
  {backup : Backup}

def copied (w : World) (plan : BackupPlan) (manifest : BackupManifest) :
    List ((Path × Path) × BackupEntry) :=
  (w.walkCopy (components plan.source.path) plan.source.deviceId plan.policy).1.zip manifest.entries

/-- A file that was copied is still a regular file, with another hash than the manifest's. -/
def Drifted (lib : Library) (w : World) (plan : BackupPlan) (manifest : BackupManifest)
    (m : Machine) : Prop :=
  ∃ item relative entry, ((item, relative), entry) ∈ copied w plan manifest ∧
    entry.entryType = .file ∧ ∃ info content, m.at? item = some (.file info content) ∧
      entry.checksumSha256 ≠ some (lib.contentSha256 content)

/-- The backup at `root` is as the manifest says, and can be read. -/
def Standing (lib : Library) (m : Machine) (root : Path) (manifest : BackupManifest) : Prop :=
  Certified lib m root manifest ∧ Legible m root manifest

section

variable (hroot : components plan.source.path = w.sourceRoot)
include hroot

theorem copied_directory {info : FileInfo} {entries : Entries}
    (hsource : w.source = .directory info entries)
    (hentries : manifest.entries =
      (included plan.policy plan.source.deviceId entries).map (manifestEntry lib w.read)) :
    copied w plan manifest = (included plan.policy plan.source.deviceId entries).map fun v =>
      ((w.sourceRoot ++ v.relative, v.relative), manifestEntry lib w.read v) := by
  rw [copied, hroot, World.walkCopy, sourceFile_root, hsource, hentries]
  exact List.zip_map'

theorem copied_file {info : FileInfo} {content : List UInt8} {entry : BackupEntry}
    (hsource : w.source = .file info content) (hentries : manifest.entries = [entry]) :
    copied w plan manifest = [((w.sourceRoot, w.sourceRoot.getLast?.toList), entry)] := by
  rw [copied, hroot, World.walkCopy, sourceFile_root, hsource, hentries]
  rfl

theorem copied_other (hdirectory : w.source.kind ≠ .directory) (hfile : w.source.kind ≠ .regular) :
    copied w plan manifest = [] := by
  rw [copied, hroot, World.walkCopy, sourceFile_root]
  cases hsource : w.source with
  | directory info entries => exact absurd (by rw [hsource]; rfl) hdirectory
  | file info content => exact absurd (by rw [hsource]; rfl) hfile
  | symlink | special => rfl

theorem Evidence.drift_seen (hev : Evidence lib w plan manifest) (hsound : w.source.Sound)
    (hdrift : Drifted lib w plan manifest m) {info : FileInfo} {entries : Entries}
    (hsource : w.source = .directory info entries) :
    ¬Undrifted lib m (components manifest.source.path) manifest := by
  intro hsame
  have hentries := hev.directory hroot hsound hsource
  obtain ⟨item, relative, entry, hmem, htype, info', content, hat, hne⟩ := hdrift
  rw [copied_directory hroot hsource hentries] at hmem
  obtain ⟨v, hv, heq⟩ := List.mem_map.mp hmem
  obtain ⟨hitem, rfl⟩ := Prod.mk.inj heq
  obtain ⟨rfl, rfl⟩ := Prod.mk.inj hitem
  rw [hsource] at hsound
  have hrel : components (manifestEntry lib w.read v).relativePath = v.relative :=
    components_posix (named_of_legal (included_legal hsound.2 hv).2)
  have hmem : manifestEntry lib w.read v ∈ manifest.entries := hentries ▸ List.mem_map_of_mem hv
  obtain ⟨-, hkept⟩ := hsame _ hmem htype
  rw [hev.source, hroot, hrel] at hkept
  exact hne (hkept info' content hat).2

theorem Evidence.drift_unseen (hev : Evidence lib w plan manifest)
    (htop : w.sourceRoot = [] → w.source.kind = .directory)
    (hdrift : Drifted lib w plan manifest m) {info : FileInfo} {content : List UInt8}
    (hsource : w.source = .file info content) :
    Undrifted lib m (components manifest.source.path) manifest := by
  have hentries := hev.file hroot hsource
  obtain ⟨item, relative, entry, hmem, -, info', content', hat, -⟩ := hdrift
  rw [copied_file hroot hsource hentries, List.mem_singleton] at hmem
  obtain ⟨hitem, -⟩ := Prod.mk.inj hmem
  obtain ⟨rfl, -⟩ := Prod.mk.inj hitem
  obtain ⟨above, name, hpath⟩ : ∃ above name, w.sourceRoot = above ++ [name] := by
    rcases List.eq_nil_or_concat' w.sourceRoot with hnil | ⟨above, name, hpath⟩
    · have hkind := htop hnil
      rw [hsource] at hkind
      cases hkind
    · exact ⟨above, name, hpath⟩
  have hnamed : Named name := by
    refine named_components plan.source.path name ?_
    rw [hroot, hpath]
    exact List.mem_append_right _ List.mem_cons_self
  have hrel : components (Path.posix (w.sourceRoot.getLast?.toList)) = [name] := by
    rw [hpath, List.getLast?_concat]
    exact components_posix (by simpa using hnamed)
  intro entry hentry _
  rw [hentries, List.mem_singleton] at hentry
  rw [hentry, hev.source, hroot, manifestEntry, hrel]
  refine ⟨?_, fun info content hbelow => ?_⟩
  · have hclear := m.noNul hat
    rw [hasNul, List.any_eq_false] at hclear ⊢
    intro part hpart
    rcases List.mem_append.mp hpart with hpart | hpart
    · exact hclear part hpart
    · refine hclear part ?_
      rw [hpath, List.mem_singleton.mp hpart]
      exact List.mem_append_right _ List.mem_cons_self
  · rw [m.leaf hat name] at hbelow
    cases hbelow

end

/-- Drift of a source is detected when the source is a directory.  Of a single file it is not: then
the backup is verified whenever it stands as the manifest says. -/
theorem drift_detected_iff (hsound : w.source.Sound)
    (htop : w.sourceRoot = [] → w.source.kind = .directory)
    (hroot : components plan.source.path = w.sourceRoot)
    (hmade : w.runs (createBackup lib plan) = (.ok manifest, w'))
    (hdrift : Drifted lib w plan manifest m) :
    (∀ v, m.runs (verifyBackup lib backup manifest) = .ok v → v.status ≠ .verified) ↔
      w.source.kind = .directory ∨
        ¬Standing lib m (components backup.destination.backupPath) manifest := by
  have hev := createBackup_ok hsound hroot hmade
  constructor
  · intro hdetected
    refine or_iff_not_imp_left.mpr fun hdirectory ⟨hcertified, hlegible⟩ => ?_
    cases hsource : w.source with
    | file info content =>
      exact hdetected _ (verified_of_certified hcertified hlegible
        (hev.drift_unseen hroot htop hdrift hsource)) rfl
    | directory => exact hdirectory (by rw [hsource]; rfl)
    | symlink | special =>
      obtain ⟨item, relative, entry, hmem, -⟩ := hdrift
      rw [copied_other hroot hdirectory (by rw [hsource]; simp [Tree.kind])] at hmem
      cases hmem
  · rintro (hkind | hfallen) v hruns hverified
    · cases hsource : w.source with
      | directory info entries =>
        exact hev.drift_seen hroot hsound hdrift hsource (certified_of_verified hruns hverified).2.2.1
      | _ =>
        rw [hsource] at hkind
        cases hkind
    · obtain ⟨hcertified, hlegible, -⟩ := certified_of_verified hruns hverified
      exact hfallen ⟨hcertified, hlegible⟩

end Drift

/-! ### A single file that changes -/

/-- A machine whose source is a file. -/
def singleWorld : World :=
  { sampleWorld "notes.txt" with
    sourceRoot := ["src", "notes.txt"]
    source := .file sampleInfo [104, 105] }

def singleSource : BackupSource := ⟨"/src/notes.txt", "8:1", none, "/src", "ext4", 2, 1, 0⟩

def singlePlan : BackupPlan where
  id := Storage.sampleSha 'a' '0'
  backupId := Storage.sampleSha 'a' '0'
  source := singleSource
  destination := {
    rootPath := "/dst"
    backupPath := Path.str ["dst", "ARES", Storage.sampleSha 'a' '0']
    deviceId := "8:17"
    physicalDeviceId := none
    mountPoint := "/dst"
    filesystemType := "ext4"
    kind := .mountedExternalDisk
    availableBytes := 1000000000 }
  policy := samplePolicy
  requiredBytes := 16777218
  includedFileCount := 1
  includedDirectoryCount := 0
  exclusions := []
  estimatedDurationSeconds := none
  createdAt := 0
  expiresAt := 900000001
  fingerprintSha256 := Storage.sampleSha 'd' '0'

def singleManifest : BackupManifest :=
  { verifiedManifest 1 with source := singleSource, createdAt := 1 }

def singleBackup : Backup :=
  { verifiedBackup with source := singleSource, destination := singlePlan.destination }

def changedTree : Tree :=
  .directory sampleInfo [
    ("src", .directory sampleInfo [("notes.txt", .file sampleInfo [98, 121])]),
    ("dst", .directory sampleInfo [
      ("ARES", .directory sampleInfo [
        (Storage.sampleSha 'a' '0', .directory sampleInfo [
          (manifestName, .file sampleInfo [123, 125]),
          ("notes.txt", .file sampleInfo [104, 105])])])])]

theorem changedTree_sound : changedTree.Sound := by
  have hsrc : Legal "src" := ⟨by decide, by decide, by decide⟩
  have hdst : Legal "dst" := ⟨by decide, by decide, by decide⟩
  have hnotes : Legal "notes.txt" := ⟨by decide, by decide, by decide⟩
  have hmanifest : Legal ".ares-manifest.json" := ⟨by decide, by decide, by decide⟩
  simp [changedTree, Tree.Sound, SoundIn, manifestName, hsrc, hdst, hnotes, hmanifest, legal_ARES,
    legal_sample]

def changedMachine : Machine :=
  .ofTree changedTree changedTree_sound 3 (Storage.sampleSha 'a' '0')

theorem single_made :
    ∃ w', singleWorld.runs (createBackup (verifiedLibrary singleManifest) singlePlan) =
      (.ok singleManifest, w') := by
  have hmade : (singleWorld.runs (createBackup (verifiedLibrary singleManifest) singlePlan)).1 =
      .ok singleManifest := by decide +kernel
  exact ⟨_, Prod.fst_eq_iff.mp hmade⟩

theorem components_singleSource : components singlePlan.source.path = singleWorld.sourceRoot := by
  decide

theorem single_drifted :
    Drifted (verifiedLibrary singleManifest) singleWorld singlePlan singleManifest
      changedMachine := by
  refine ⟨["src", "notes.txt"], ["notes.txt"],
    ⟨"notes.txt", 2, 0, 0o644, .file, some (Storage.sampleSha 'c' '0')⟩, ?_, rfl, sampleInfo,
    [98, 121], rfl, by decide⟩
  rw [copied, components_singleSource]
  exact List.mem_cons_self

theorem single_standing : Standing (verifiedLibrary singleManifest) changedMachine
      (components singleBackup.destination.backupPath) singleManifest := by
  have hroot : components singleBackup.destination.backupPath =
      ["dst", "ARES", Storage.sampleSha 'a' '0'] := by decide +kernel
  have hnotes : components "notes.txt" = ["notes.txt"] := by decide
  have hentry : ∀ P : BackupEntry → Prop,
      P ⟨"notes.txt", 2, 0, 0o644, .file, some (Storage.sampleSha 'c' '0')⟩ →
        ∀ entry ∈ singleManifest.entries, P entry := fun P h entry hmem => by
    rwa [List.mem_singleton.mp hmem]
  have hfound : changedMachine.found ["dst", "ARES", Storage.sampleSha 'a' '0'] =
      [[manifestName], ["notes.txt"]] := rfl
  rw [hroot]
  refine ⟨⟨rfl, ⟨_, _, rfl, rfl⟩, hentry _ ?_, ⟨_, _, rfl⟩, ?_⟩,
    ⟨rfl, fun info content hat => ?_, fun _ _ _ => rfl⟩⟩
  · refine ⟨by decide, by decide, by simp, fun _ => ⟨sampleInfo, [104, 105], ?_, rfl, rfl⟩⟩
    rw [hnotes]
    rfl
  · rw [hfound]
    simp only [List.forall_mem_cons, List.not_mem_nil, false_implies, implies_true, and_true]
    exact ⟨.inl (by decide), .inr ⟨_, List.mem_cons_self, by decide⟩⟩
  · obtain ⟨-, rfl⟩ := Tree.file.inj (Option.some.inj hat)
    decide

/-- The sample: it is not detected exactly because the source is no directory. -/
theorem drift_detected_sample :
    (∀ v, changedMachine.runs (verifyBackup (verifiedLibrary singleManifest) singleBackup
        singleManifest) = .ok v → v.status ≠ .verified) ↔
      singleWorld.source.kind = .directory ∨
        ¬Standing (verifiedLibrary singleManifest) changedMachine
          (components singleBackup.destination.backupPath) singleManifest := by
  obtain ⟨w', hmade⟩ := single_made
  exact drift_detected_iff trivial (by decide) components_singleSource hmade single_drifted

/-- A backup is made of the file `notes.txt`, the file is changed, and the backup is verified. -/
theorem drift_undetected :
    (∃ w', singleWorld.runs (createBackup (verifiedLibrary singleManifest) singlePlan) =
      (.ok singleManifest, w')) ∧
    Drifted (verifiedLibrary singleManifest) singleWorld singlePlan singleManifest changedMachine ∧
    ∃ v, changedMachine.runs (verifyBackup (verifiedLibrary singleManifest) singleBackup
      singleManifest) = .ok v ∧ v.status = .verified := by
  obtain ⟨w', hmade⟩ := single_made
  have hsound : singleWorld.source.Sound := trivial
  have hev := createBackup_ok hsound components_singleSource hmade
  refine ⟨⟨w', hmade⟩, single_drifted, _, verified_of_certified single_standing.1 single_standing.2
    (hev.drift_unseen components_singleSource (by decide) single_drifted rfl), rfl⟩

end Ares.Backups
