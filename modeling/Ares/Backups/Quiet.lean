import Ares.Coop.Logic
import Ares.Backups.Create

/-! The tools leave the shared state of their process alone: all that they do is calls. -/

namespace Ares.Backups

open Coop Data

variable (lib : Library)

variable {σ : Type}

theorem quiet_osAs {α : Type} {code : String} {p : Tool σ α} (hp : p.Quiet) :
    (osAs code p).Quiet :=
  hp.handle fun _ => quiet_raise

theorem quiet_raiseIf (failure : Option Error) : (raiseIf failure : Tool σ Unit).Quiet := by
  cases failure <;> trivial

theorem quiet_canonicalExisting (raw code : String) :
    (canonicalExisting raw code : Tool σ Path).Quiet :=
  quiet_require.bind fun _ => quiet_require.bind fun _ => quiet_osAs quiet_attempt

theorem quiet_mountFor (path : Path) : (mountFor path : Tool σ (Option MountInfo)).Quiet := by
  refine quiet_attempt.observe.bind fun r => ?_
  cases r with
  | ok mounts => trivial
  | error e =>
    dsimp only
    split
    · exact quiet_attempt.bind fun _ => trivial
    · trivial

theorem quiet_rejectSameStorage (a b : String) (c d : Option String) :
    (rejectSameStorage a b c d : Tool σ Unit).Quiet :=
  quiet_require.bind fun _ => quiet_require

theorem quiet_validateDestination (path : Path) (info : MountInfo) :
    (validateDestination path info : Tool σ Unit).Quiet :=
  quiet_require.bind fun _ => quiet_require.bind fun _ =>
    quiet_attempt.bind fun _ => quiet_require

theorem quiet_availableBytes (path : Path) : (availableBytes path : Tool σ Nat).Quiet :=
  quiet_osAs quiet_attempt

theorem quiet_revalidatePlan (plan : BackupPlan) :
    (revalidatePlan lib plan : Tool σ DateTime).Quiet :=
  quiet_attempt.bind fun _ => quiet_require.bind fun _ =>
    (quiet_canonicalExisting _ _).bind fun _ => (quiet_canonicalExisting _ _).bind fun _ =>
      (quiet_mountFor _).bind fun _ => (quiet_mountFor _).bind fun _ =>
        quiet_ofOption.bind fun _ => quiet_require.bind fun _ =>
          quiet_ofOption.bind fun _ => quiet_require.bind fun _ =>
            quiet_attempt.bind fun _ => quiet_attempt.bind fun _ =>
              quiet_require.bind fun _ => quiet_require.bind fun _ =>
                (quiet_rejectSameStorage _ _ _ _).bind fun _ =>
                  (quiet_validateDestination _ _).bind fun _ => quiet_require.bind fun _ =>
                    quiet_attempt.bind fun _ => quiet_require.bind fun _ =>
                      quiet_attempt.bind fun _ => quiet_require.bind fun _ =>
                        (quiet_availableBytes _).bind fun _ => quiet_require.bind fun _ =>
                          quiet_require.bind fun _ => trivial

theorem quiet_writeBlocks (target : Path) (blocks : List (List UInt8)) :
    (writeBlocks target blocks : Tool σ Unit).Quiet := by
  induction blocks with
  | nil => trivial
  | cons block blocks ih =>
    exact quiet_attempt.bind fun _ => quiet_attempt.bind fun _ => ih

theorem quiet_copyRegularFile (item target : Path) (info : Stat) :
    (copyRegularFile lib item target info : Tool σ (String × Nat)).Quiet :=
  quiet_attempt.bind fun _ => quiet_require.bind fun _ => quiet_attempt.bind fun _ =>
    (quiet_writeBlocks _ _).bind fun _ => (quiet_raiseIf _).bind fun _ =>
      quiet_attempt.bind fun _ => quiet_require.bind fun _ =>
        quiet_attempt.bind fun _ => trivial

theorem quiet_copyEntry (partialRoot item relative : Path) :
    (copyEntry lib partialRoot item relative : Tool σ (BackupEntry × Nat)).Quiet := by
  refine quiet_require.bind fun _ => quiet_attempt.bind fun info => ?_
  cases info.kind with
  | directory =>
    exact quiet_attempt.bind fun _ => quiet_ofExcept.bind fun _ =>
      quiet_attempt.bind fun _ => quiet_attempt.bind fun _ => trivial
  | regular =>
    exact quiet_attempt.bind fun _ => (quiet_copyRegularFile _ _ _ _).bind fun _ =>
      quiet_ofExcept.bind fun _ => quiet_attempt.bind fun _ =>
        quiet_attempt.bind fun _ => trivial
  | symlink | special => trivial

theorem quiet_copyEntries (partialRoot : Path) (items : List (Path × Path)) :
    (copyEntries lib partialRoot items : Tool σ (List BackupEntry × Nat)).Quiet := by
  induction items with
  | nil => trivial
  | cons item items ih =>
    exact (quiet_copyEntry _ _ _ _).bind fun _ => ih.bind fun _ => trivial

theorem quiet_fillPartial (plan : BackupPlan) (a b c d : Path) :
    (fillPartial lib plan a b c d : Tool σ BackupManifest).Quiet :=
  (quiet_mountFor _).bind fun _ => quiet_ofOption.bind fun _ => quiet_attempt.bind fun _ =>
    (quiet_copyEntries _ _ _).bind fun _ => (quiet_raiseIf _).bind fun _ =>
      quiet_require.bind fun _ => quiet_attempt.bind fun _ =>
        (quiet_require.bind fun _ => quiet_attempt).bind fun _ =>
          quiet_attempt.bind fun _ => quiet_attempt.bind fun _ =>
            quiet_attempt.bind fun _ => trivial

theorem quiet_prepareBackupDestination (a b c : Path) :
    (prepareBackupDestination a b c : Tool σ Unit).Quiet :=
  quiet_attempt.bind fun _ => quiet_require.bind fun _ =>
    quiet_attempt.bind fun _ => quiet_require.bind fun _ => quiet_attempt.bind fun _ =>
      quiet_attempt.bind fun _ => quiet_require.bind fun _ => quiet_attempt

theorem quiet_copyBackup (plan : BackupPlan) :
    (copyBackup lib plan : Tool σ BackupManifest).Quiet := by
  refine (quiet_prepareBackupDestination _ _ _).bind fun _ =>
    (quiet_fillPartial _ _ _ _ _ _).handle fun e => ?_
  cases e <;> first | exact quiet_attempt.bind fun _ => quiet_raise | exact quiet_raise

theorem quiet_lstat? (path : Path) : (lstat? path : Tool σ (Option Stat)).Quiet := by
  refine (quiet_attempt.bind fun _ => quiet_ret).handle fun e => ?_
  split <;> trivial

theorem quiet_compareSource (item : Path) (checksum : String) :
    (compareSource lib item checksum : Tool σ Bool).Quiet := by
  refine ((quiet_lstat? _).bind fun _ => quiet_ret).bind fun regular => ?_
  split
  · refine quiet_attempt.observe.bind fun r => ?_
    cases r with
    | ok content => trivial
    | error e =>
      dsimp only
      split <;> trivial
  · trivial

theorem quiet_checkEntry (sourceRoot root : Path) (found : Findings)
    (entry : BackupEntry) : (checkEntry lib sourceRoot root found entry : Tool σ Findings).Quiet := by
  rw [checkEntry]
  split
  · trivial
  · refine quiet_require.bind fun _ => (quiet_lstat? _).bind fun info => ?_
    cases info with
    | none => trivial
    | some info =>
      cases entry.entryType with
      | directory =>
        dsimp only
        split <;> trivial
      | file =>
        dsimp only
        split
        · trivial
        · refine quiet_attempt.bind fun content => ?_
          split
          · trivial
          · exact (quiet_compareSource _ _ _).bind fun _ => trivial

theorem quiet_checkEntries (sourceRoot root : Path) (found : Findings)
    (entries : List BackupEntry) :
    (checkEntries lib sourceRoot root found entries : Tool σ Findings).Quiet := by
  induction entries generalizing found with
  | nil => trivial
  | cons entry entries ih => exact (quiet_checkEntry _ _ _ _ _).bind fun found => ih found

theorem quiet_verificationFailure (backup : Backup) (manifest : BackupManifest)
    (missing : List String) (message : String) :
    (verificationFailure backup manifest missing message : Tool σ BackupVerification).Quiet :=
  quiet_attempt.bind fun _ => quiet_attempt.bind fun _ => trivial

theorem quiet_verifyBackup (backup : Backup) (manifest : BackupManifest) :
    (verifyBackup lib backup manifest : Tool σ BackupVerification).Quiet := by
  refine ((quiet_lstat? _).bind fun _ => quiet_ret).bind fun safe => ?_
  split
  · exact quiet_verificationFailure _ _ _ _
  · split
    · exact quiet_verificationFailure _ _ _ _
    · refine (quiet_attempt.bind fun _ => quiet_ret).bind fun matched => ?_
      split
      · exact quiet_verificationFailure _ _ _ _
      · exact (quiet_checkEntries _ _ _ _ _).bind fun _ =>
          (quiet_attempt.bind fun _ => quiet_ret).bind fun _ => quiet_attempt.bind fun _ =>
            quiet_attempt.bind fun _ => trivial

end Ares.Backups
