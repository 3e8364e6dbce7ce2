import Mathlib.Data.List.Pairwise
import Ares.Backups.Verifying
import Ares.Storage.Recovery

/-! The counts of a verification.  The expected ones are read off the manifest, where nothing ties
them to its entries. -/

namespace Ares.Backups

open Coop Data

/-! ### Manifests that the broker accepts -/

def BackupEntry.valid (entry : BackupEntry) : Bool :=
  within 1 4096 entry.relativePath && entry.mode ≤ 0o7777 &&
  entry.checksumSha256.all Storage.sha256Pattern

/-- `BackupManifest.model_validate` accepts it. -/
def BackupManifest.valid (manifest : BackupManifest) : Bool :=
  manifest.source.valid && manifest.entries.all BackupEntry.valid &&
  Storage.sha256Pattern manifest.manifestChecksumSha256

/-! ### Agreement -/

section Agreement

variable {κ : Type} [DecidableEq κ] (key : BackupEntry → κ)

def distinctFiles (manifest : BackupManifest) : List BackupEntry :=
  (manifest.entries.filter (·.entryType = .file)).pwFilter fun a b => key a ≠ key b

/-- The counts of a verification agree with each other and with the file entries. -/
structure CountsAgree (v : BackupVerification) (manifest : BackupManifest) : Prop where
  files : v.verifiedFileCount = v.expectedFileCount
  distinct : v.expectedFileCount = (distinctFiles key manifest).length
  bytes : v.verifiedSizeBytes = v.expectedSizeBytes
  sizes : v.expectedSizeBytes = ((distinctFiles key manifest).map (·.sizeBytes)).sum

/-- The totals of a manifest are those of its entries, and no file is in it twice. -/
structure Totalled (manifest : BackupManifest) : Prop where
  files : manifest.fileCount = fileCount manifest.entries
  bytes : manifest.totalSizeBytes = totalSize manifest.entries
  once : (manifest.entries.filter (·.entryType = .file)).Pairwise fun a b => key a ≠ key b

variable {key} {lib : Library} {m : Machine} {backup : Backup} {manifest : BackupManifest}
  {v : BackupVerification}

theorem length_fileEntries (entries : List BackupEntry) :
    (entries.filter (·.entryType = .file)).length = fileCount entries :=
  List.countP_eq_length_filter.symm

theorem distinctFiles_eq_self : (distinctFiles key manifest).length = fileCount manifest.entries ↔
      distinctFiles key manifest = manifest.entries.filter (·.entryType = .file) := by
  rw [← length_fileEntries]
  exact ⟨(List.pwFilter_sublist _).eq_of_length, fun h => by rw [h]⟩

theorem once_iff :
    (manifest.entries.filter (·.entryType = .file)).Pairwise (fun a b => key a ≠ key b) ↔
      distinctFiles key manifest = manifest.entries.filter (·.entryType = .file) :=
  List.pwFilter_eq_self.symm

/-- The counts of a backup that is verified agree exactly when its manifest gives the totals of its
entries and has no file twice; whatever it is that tells two entries apart. -/
theorem counts_agree_iff (h : m.runs (verifyBackup lib backup manifest) = .ok v)
    (hv : v.status = .verified) : CountsAgree key v manifest ↔ Totalled key manifest := by
  obtain ⟨-, -, -, rfl⟩ := certified_of_verified h hv
  constructor
  · rintro ⟨hfiles, hdistinct, hbytes, hsizes⟩
    have hself := distinctFiles_eq_self.mp (hdistinct.symm.trans hfiles.symm)
    exact ⟨hfiles.symm, hbytes.symm, once_iff.mpr hself⟩
  · rintro ⟨hfiles, hbytes, honce⟩
    have hself := once_iff.mp honce
    refine ⟨hfiles.symm, hfiles.trans (distinctFiles_eq_self.mpr hself).symm, hbytes.symm, ?_⟩
    rw [hself]
    exact hbytes

end Agreement

/-- The sample with its right count. -/
theorem counts_agree_sample :
    CountsAgree id (certificate verifiedMachine verifiedBackup (verifiedManifest 1))
        (verifiedManifest 1) ↔
      Totalled id (verifiedManifest 1) :=
  counts_agree_iff (verified_sample 1) rfl

/-- The manifest counts seven files and has one: the broker accepts it, and the backup is verified
with one file where seven are expected. -/
theorem verified_with_seven : (verifiedManifest 7).valid = true ∧
      verifiedMachine.runs (verifyBackup (verifiedLibrary (verifiedManifest 7)) verifiedBackup
        (verifiedManifest 7)) =
          .ok (certificate verifiedMachine verifiedBackup (verifiedManifest 7)) ∧
      (certificate verifiedMachine verifiedBackup (verifiedManifest 7)).status = .verified ∧
      (certificate verifiedMachine verifiedBackup (verifiedManifest 7)).verifiedFileCount = 1 ∧
      (certificate verifiedMachine verifiedBackup (verifiedManifest 7)).expectedFileCount = 7 :=
  ⟨by decide +kernel, verified_sample 7, rfl, by decide +kernel, rfl⟩

end Ares.Backups
