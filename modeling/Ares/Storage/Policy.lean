import Ares.Storage.Models

/-! The impact of a partition operation on the data and on the boot path, as the deterministic
policy judges it. -/

namespace Ares.Storage

def PartitionRole.protected_ : PartitionRole → Bool
  | efi | boot | recovery | swap => true
  | _ => false

/-- `volumes[item]`; of two volumes with one id the later counts. -/
def volumeOf (layout : StorageLayout) (id : String) : Option VolumeResource :=
  layout.volumes.reverse.find? fun volume => volume.id = id

def deleteImpact (layout : StorageLayout) (target : PartitionResource) : DataImpactAssessment :=
  let hasFilesystem := target.filesystemId.any fun id => layout.filesystems.any (·.id = id)
  let mounted := target.mountPointIds.any fun id => layout.mountPoints.any (·.id = id)
  let memberVolumes := target.volumeIds.filterMap (volumeOf layout)
  let lvm := memberVolumes.any fun item =>
    item.kind = .lvmPv || item.kind = .lvmVg || item.kind = .lvmLv
  let raid := memberVolumes.any fun item => item.kind = .mdraid || item.kind = .hardwareRaid
  let encrypted := target.encryptionStatus ≠ .none && target.encryptionStatus ≠ .unknown
  let blocking :=
    hasFilesystem || mounted || lvm || raid || encrypted || target.role.protected_
  { level := if blocking then .critical else .medium
    affectedResources := [target.id]
    reasons :=
      ["Deleting a partition removes its table entry and can make contained data inaccessible."] ++
      (if hasFilesystem then ["A filesystem is detected on the target partition."] else []) ++
      (if mounted then ["The target partition is mounted."] else []) ++
      (if lvm then ["LVM membership is detected and LVM mutation is unsupported."] else []) ++
      (if raid then ["RAID membership is detected and RAID mutation is unsupported."] else []) ++
      (if encrypted then
        ["Encryption is detected and encrypted-volume mutation is unsupported."] else []) ++
      (if target.role.protected_ then
        ["Partition has protected role " ++ target.role.value ++ "."] else [])
    mounted
    filesystemChangeRequired := hasFilesystem
    lvmDetected := lvm
    raidDetected := raid
    encryptionDetected := encrypted
    dataLossPossible := true
    executable := !blocking }

def analyzeDataImpact (operation : StorageOperationType) (layout : StorageLayout)
    (target : Option PartitionResource) : DataImpactAssessment :=
  match operation with
  | .create =>
    { level := .low
      reasons := ["Partition table metadata will change only inside verified free space."]
      dataLossPossible := false
      executable := true }
  | .resize | .move =>
    { level := if operation = .move then .critical else .unknown
      affectedResources := (target.map (·.id)).toList
      reasons := ["Partition resize/move requires filesystem-aware data movement policy " ++
        "that is not enabled."]
      filesystemChangeRequired := true
      dataLossPossible := true
      executable := false }
  | .delete | .inspect =>
    match target with
    | none =>
      { level := .unknown
        reasons := ["Target partition evidence is missing."]
        dataLossPossible := true
        executable := false }
    | some target => deleteImpact layout target

def analyzeBootImpact (operation : StorageOperationType) (layout : StorageLayout)
    (target : Option PartitionResource) : BootImpactAssessment :=
  if operation = .create then
    { level := .none
      reasons := ["New partition is confined to verified free space."]
      recoveryStrategyAvailable := true
      executable := true }
  else
    match target with
    | none =>
      { level := .unknown
        reasons := ["Target partition evidence is missing."]
        executable := false }
    | some target =>
      let related := layout.bootDependencies.filter (·.partitionNumber = some target.number)
      if !related.isEmpty || target.role = .efi || target.role = .boot then
        { level := .critical
          affectedDependencies := related.map (·.id)
          reasons :=
            if related.isEmpty then
              ["Target partition is classified as a boot-critical partition."]
            else related.map (·.reason)
          executable := false }
      else if target.role = .recovery then
        { level := .likely
          reasons := ["Recovery partition modification can remove a boot/recovery path."]
          executable := false }
      else
        match operation with
        | .move =>
          { level := .unknown
            reasons := ["Move can invalidate boot references; implementation is disabled."]
            executable := false }
        | .resize =>
          { level := .possible
            reasons :=
              ["Resize requires filesystem and boot-reference verification not enabled yet."]
            executable := false }
        | _ =>
          { level := .none
            reasons := ["No boot dependency is associated with the target partition."]
            recoveryStrategyAvailable := true
            executable := true }

end Ares.Storage
