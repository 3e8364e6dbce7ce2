import Mathlib.Data.List.Dedup
import Ares.Data.Lines
import Ares.Storage.Sfdisk

/-! What `PartitionTableTool._enrich` adds to a partition table: the answers of `blkid`, the mounts and
the swap areas of the machine, and what follows from them about each partition. -/

namespace Ares.Storage

open Data

variable (lib : TableLibrary)

/-- The library functions behind an inspection. -/
structure InspectLibrary extends TableLibrary where
  /-- `canonical_sha256` of what a layout consists of, without its id, its time and its evidence. -/
  bodySha256 : StorageLayout → String

/-- What an inspection finds around the table. -/
structure Surroundings where
  /-- `/proc/self/mountinfo`, where it can be read. -/
  mountinfo : Option String
  /-- `/proc/swaps`, where it can be read. -/
  swaps : Option String
  /-- `runner.inspect("blkid").available` at the partition of this position. -/
  blkidAvailable : Nat → Bool
  /-- The exit code and the output of `blkid`; `none` is a `PartitionToolError`. -/
  blkid : Nat → List String → Option (Int × String)
  /-- `etc/os-release` below a mount point; `none` is no regular file of at most 64000 bytes. -/
  osRelease : String → Option String

/-! ### Texts -/

/-- `line.split()`. -/
def words (line : List Char) : List String :=
  ((line.splitOnP lib.isspace).filter (· ≠ [])).map String.ofList

/-- `key, value = line.split("=", 1)`, where the line has an `=`. -/
def assignment (line : List Char) : Option (String × List Char) :=
  if line.contains '=' then
    some (String.ofList (line.takeWhile (· ≠ '=')), (line.dropWhile (· ≠ '=')).tail)
  else none

/-! ### The bounds of the models -/

def shortId (id : String) : Bool := 3 ≤ id.length && id.length ≤ 192

def boundedPath (path : String) : Bool := 1 ≤ path.length && path.length ≤ 4096

def FilesystemResource.valid (f : FilesystemResource) : Bool :=
  shortId f.id && boundedPath f.devicePath && f.filesystemType.all (·.length ≤ 64) &&
    f.uuid.all (·.length ≤ 256) && f.label.all (·.length ≤ 256)

def MountPointResource.valid (m : MountPointResource) : Bool :=
  shortId m.id && boundedPath m.source && boundedPath m.path && m.filesystemType.all (·.length ≤ 64)

def VolumeResource.valid (v : VolumeResource) : Bool :=
  shortId v.id && 1 ≤ v.name.length && v.name.length ≤ 256

def OperatingSystemResource.valid (o : OperatingSystemResource) : Bool :=
  shortId o.id && 1 ≤ o.name.length && o.name.length ≤ 256 && o.version.all (·.length ≤ 256) &&
    boundedPath o.source && boundedPath o.mountPoint

def BootDependency.valid (d : BootDependency) : Bool :=
  shortId d.id && 1 ≤ d.kind.length && d.kind.length ≤ 96 && d.partitionNumber.all (1 ≤ ·) &&
    d.resourcePath.all (·.length ≤ 4096) && 1 ≤ d.reason.length && d.reason.length ≤ 512

def validated {α : Type} (valid : α → Bool) (value : α) : Except PartitionError α :=
  if valid value then .ok value else .error .validation

/-! ### The mounts and the swap areas -/

/-- A line of `/proc/self/mountinfo` about a device at an absolute path. -/
def mountOf (line : List Char) : Option MountPointResource :=
  let fields := words lib line
  let separator := fields.idxOf "-"
  if !fields.contains "-" || fields.length < separator + 3 || separator < 6 then none
  else
    let target := unescapeMount (fields.getD 4 "")
    let source := unescapeMount (fields.getD (separator + 2) "")
    if "/dev/".toList.isPrefixOf source.toList && "/".toList.isPrefixOf target.toList then
      some {
        id := "raw-mount:" ++ takeChars 24 (lib.tokenSha256 (source ++ ":" ++ target))
        source
        path := target
        filesystemType := some (fields.getD (separator + 1) "")
        options := ((fields.getD 5 "").toList.splitOn ',').map String.ofList }
    else none

def mountLines (env : Surroundings) : List (List Char) := (env.mountinfo.map textLines).getD []

def listedMounts (env : Surroundings) : List MountPointResource :=
  (mountLines env).filterMap (mountOf lib)

/-- The mounts that `_mount_records` reads. -/
def readMounts (env : Surroundings) : List MountPointResource :=
  ((mountLines env).take 4096).filterMap (mountOf lib)

/-- `_mount_records`. -/
def mountRecords (env : Surroundings) :
    Except PartitionError (List MountPointResource) :=
  (readMounts lib env).mapM (validated MountPointResource.valid)

/-- `_swap_sources`. -/
def swapSources (env : Surroundings) : List String :=
  ((env.swaps.map textLines).getD []).tail.filterMap fun line => (words lib line).head?

/-! ### The probe of a partition -/

/-- The assignments that `blkid` printed, the newest first. -/
abbrev Probe := List (String × String)

def parseBlkidExport (text : String) : Probe :=
  ((textLines text).take 128).foldl (fun output line =>
    match assignment line with
    | some (key, value) =>
      if ["TYPE", "UUID", "LABEL", "USAGE", "VERSION", "PART_ENTRY_TYPE"].contains key then
        (key, String.ofList (value.take 512)) :: output
      else output
    | none => output) []

def probeOffset (identity : StorageDeviceIdentity) (p : PartitionResource) : Nat :=
  p.startSector * identity.logicalSectorSize.toNat

def probeSize (identity : StorageDeviceIdentity) (p : PartitionResource) : Nat :=
  p.sizeSectors * identity.logicalSectorSize.toNat

/-- The arguments of `blkid`; a path that is not safe is not probed. -/
def blkidArgs (identity : StorageDeviceIdentity) (p : PartitionResource) : Option (List String) :=
  if identity.deviceKind = .regularFile then
    some ["--probe", "--output", "export", "--offset", toString (probeOffset identity p), "--size",
      toString (probeSize identity p), identity.canonicalPath]
  else if safeDevice p.path then some ["--probe", "--output", "export", p.path]
  else none

def blkidReport (env : Surroundings) (identity : StorageDeviceIdentity) (i : Nat)
    (p : PartitionResource) : Probe :=
  if env.blkidAvailable i then
    match (blkidArgs identity p).bind (env.blkid i) with
    | some (exitCode, stdout) =>
      if exitCode = 0 ∨ exitCode = 2 then parseBlkidExport stdout else []
    | none => []
  else []

def printedArgs (identity : StorageDeviceIdentity) (p : PartitionResource) :
    Except PartitionError Unit := do
  printed (probeOffset identity p)
  printed (probeSize identity p)

/-- `_probe_partition`. -/
def probePartition (env : Surroundings) (identity : StorageDeviceIdentity) (i : Nat)
    (p : PartitionResource) : Except PartitionError Probe :=
  if env.blkidAvailable i && identity.deviceKind = .regularFile then
    (printedArgs identity p).map fun _ => blkidReport env identity i p
  else .ok (blkidReport env identity i p)

/-- What a probe shows, in the order in which the kinds are tried. -/
inductive Signature
  | luks | bitlocker | lvm | raid | swap | none
  | filesystem (type : String)
deriving DecidableEq

def usageOf (probe : Probe) : String :=
  lib.casefold ((probe.lookup "USAGE").getD "")

def signatureOf (probe : Probe) : Signature :=
  if probe = [] then .none
  else
    let usage := usageOf lib probe
    let fsType := (probe.lookup "TYPE").bind nonempty
    if fsType = some "crypto_LUKS" then .luks
    else if fsType.any fun t => occursIn "bitlocker" (lib.casefold t) then .bitlocker
    else if fsType = some "LVM2_member" ∨ usage = "lvm" then .lvm
    else if usage = "raid" ∨ fsType.any fun t => occursIn "raid" (lib.casefold t) then .raid
    else if fsType = some "swap" then .swap
    else
      match fsType with
      | some t => .filesystem t
      | Option.none => .none

/-- `_filesystem_resize_support`. -/
def filesystemResizeSupport (fsType : String) : ResizeSupport :=
  let normalized := lib.casefold fsType
  if ["ext2", "ext3", "ext4", "btrfs", "ntfs"].contains normalized then .shrinkAndGrow
  else if normalized = "xfs" then .grow
  else .unknown

/-- What the probe says about a partition. -/
structure Probed where
  role : PartitionRole
  encryption : EncryptionStatus
  volume : Option VolumeResource
  filesystem : Option FilesystemResource
  swap : List Nat

def Probed.nothing (p : PartitionResource) : Probed :=
  ⟨p.role, p.encryptionStatus, none, none, []⟩

def memberVolume (p : PartitionResource) (kind : VolumeKind) (label name : String) :
    Except PartitionError VolumeResource :=
  validated VolumeResource.valid ⟨"volume:" ++ label ++ ":" ++ p.id, kind, name, [p.path]⟩

def readProbe (p : PartitionResource) (probe : Probe) :
    Except PartitionError Probed :=
  let fsUuid := probe.lookup "UUID"
  let label := probe.lookup "LABEL"
  match signatureOf lib probe with
  | .luks =>
    (memberVolume p .crypt "crypt" (textOr label "LUKS")).map fun volume =>
      { Probed.nothing p with encryption := .luks, volume := some volume }
  | .bitlocker =>
    (memberVolume p .crypt "crypt" (textOr label "BitLocker")).map fun volume =>
      { Probed.nothing p with encryption := .bitlocker, volume := some volume }
  | .lvm =>
    (memberVolume p .lvmPv "lvm-pv" (textOr label (textOr fsUuid "LVM PV"))).map fun volume =>
      { Probed.nothing p with role := .lvm, volume := some volume }
  | .raid =>
    (memberVolume p .mdraid "mdraid" (textOr label (textOr fsUuid "RAID member"))).map fun volume =>
      { Probed.nothing p with role := .raid, volume := some volume }
  | .swap => .ok { Probed.nothing p with role := .swap, swap := [p.number] }
  | .filesystem fsType =>
    (validated FilesystemResource.valid {
      id := "filesystem:" ++ takeChars 24 (lib.tokenSha256 (p.id ++ ":" ++ fsType))
      devicePath := p.path
      filesystemType := some fsType
      uuid := fsUuid
      label
      totalBytes := none
      usedBytes := none
      availableBytes := none
      resizeSupport := filesystemResizeSupport lib fsType }).map fun filesystem =>
      { Probed.nothing p with filesystem := some filesystem }
  | .none => .ok (Probed.nothing p)

/-! ### What is mounted -/

/-- `value.strip().strip('"')[:256]`. -/
def osValue (value : List Char) : String :=
  let stripped := strip lib value
  let quoted := (stripped.dropWhile (· = '"')).reverse.dropWhile (· = '"')
  String.ofList (quoted.reverse.take 256)

/-- `_detect_os`. -/
def detectOs (env : Surroundings) (source mountPoint : String) :
    Except PartitionError (Option OperatingSystemResource) :=
  match env.osRelease mountPoint with
  | none => .ok none
  | some text =>
    let values := ((textLines text).take 128).filterMap fun line =>
      (assignment line).map fun field => (field.1, osValue lib field.2)
    let get := fun key => (values.reverse.lookup key).bind nonempty
    match (get "PRETTY_NAME").orElse fun _ => get "NAME" with
    | none => .ok none
    | some name =>
      (validated OperatingSystemResource.valid {
        id := "os:" ++ takeChars 24 (lib.tokenSha256 (source ++ ":" ++ name))
        name
        version := (get "VERSION_ID").orElse fun _ => values.reverse.lookup "VERSION"
        source
        mountPoint }).map some

def bootPaths : List String := ["/", "/boot", "/boot/efi"]

def bootMount (p : PartitionResource) (record : MountPointResource) :
    Except PartitionError (Option BootDependency) :=
  if bootPaths.contains record.path then
    (validated BootDependency.valid {
      id := "boot:" ++ takeChars 24 (lib.tokenSha256 (record.source ++ ":" ++ record.path))
      kind := if record.path = "/" then "linux-root" else "boot-mount"
      partitionNumber := some p.number
      resourcePath := some record.path
      reason := "Partition is mounted at boot-sensitive path " ++ record.path ++ "."
      critical := true }).map some
  else .ok none

/-- What one mount of a partition adds to the layout. -/
structure Mounted where
  mount : MountPointResource
  operatingSystem : Option OperatingSystemResource
  bootDependency : Option BootDependency

def readMount (env : Surroundings) (p : PartitionResource)
    (record : MountPointResource) : Except PartitionError Mounted := do
  let mount ← validated MountPointResource.valid
    { record with
      id := "mount:" ++ takeChars 24 (lib.tokenSha256 (record.source ++ ":" ++ record.path)) }
  let operatingSystem ← detectOs lib env record.source record.path
  let bootDependency ← bootMount lib p record
  pure { mount, operatingSystem, bootDependency }

/-! ### The layout -/

def efiDependency (p : PartitionResource) : BootDependency where
  id := "boot:efi:" ++ p.id
  kind := "efi-system-partition"
  partitionNumber := some p.number
  resourcePath := some p.path
  reason := "Partition type identifies an EFI System Partition."
  critical := true

def legacyDependency (p : PartitionResource) : BootDependency where
  id := "boot:legacy:" ++ p.id
  kind := "legacy-bootable"
  partitionNumber := some p.number
  resourcePath := some p.path
  reason := "MBR bootable flag is set."
  critical := true

/-- What one partition adds to the layout. -/
structure Found where
  partition : PartitionResource
  filesystems : List FilesystemResource
  mounts : List MountPointResource
  volumes : List VolumeResource
  operatingSystems : List OperatingSystemResource
  bootDependencies : List BootDependency
  swap : List Nat
  recovery : List Nat

/-- The role of a partition and the swap areas it adds, from the swap areas there are. -/
def takeSwap (sources : List String) (swap : List Nat) (p : PartitionResource) (probed : Probed) :
    PartitionRole × List Nat :=
  if sources.contains p.path && !(swap ++ probed.swap).contains p.number then
    (.swap, probed.swap ++ [p.number])
  else (probed.role, probed.swap)

/-- The dependencies that the fields of a partition show. -/
def ownDependencies (p : PartitionResource) (role : PartitionRole) : List BootDependency :=
  (if role = .efi then [efiDependency p] else []) ++
    if p.bootable then [legacyDependency p] else []

/-- What is found about a partition with its probe, its mounts, its role and its dependencies. -/
def foundWith (p : PartitionResource) (probed : Probed) (mounted : List Mounted)
    (taken : PartitionRole × List Nat) (own : List BootDependency) : Found where
  partition := { p with
    filesystemId := probed.filesystem.map (·.id)
    mountPointIds := mounted.map (·.mount.id)
    operatingSystemIds := mounted.filterMap fun m => m.operatingSystem.map (·.id)
    volumeIds := (probed.volume.map (·.id)).toList
    encryptionStatus := probed.encryption
    role := taken.1 }
  filesystems := probed.filesystem.toList
  mounts := mounted.map (·.mount)
  volumes := probed.volume.toList
  operatingSystems := mounted.filterMap (·.operatingSystem)
  bootDependencies := mounted.filterMap (·.bootDependency) ++ own
  swap := taken.2
  recovery := if taken.1 = .recovery then [p.number] else []

/-- The body of the loop of `_enrich`. -/
def enrichPartition (env : Surroundings) (identity : StorageDeviceIdentity)
    (records : List MountPointResource) (swap : List Nat) (i : Nat) (p : PartitionResource) :
    Except PartitionError Found := do
  let probe ← probePartition env identity i p
  let probed ← readProbe lib p probe
  let mounted ← (records.filter (·.source = p.path)).mapM (readMount lib env p)
  let taken := takeSwap (swapSources lib env) swap p probed
  let own ← (ownDependencies p taken.1).mapM (validated BootDependency.valid)
  pure (foundWith p probed mounted taken own)

/-- The loop of `_enrich`, from a position on. -/
def enrichFrom (env : Surroundings) (identity : StorageDeviceIdentity)
    (records : List MountPointResource) :
    List Nat → Nat → List PartitionResource → Except PartitionError (List Found)
  | _, _, [] => .ok []
  | swap, i, p :: rest => do
    let found ← enrichPartition lib env identity records swap i p
    let founds ← enrichFrom env identity records (swap ++ found.swap) (i + 1) rest
    pure (found :: founds)

def foundLayout (lib : InspectLibrary) (identity : StorageDeviceIdentity) (table : PartitionTable)
    (founds : List Found) (id : String) (observedAt : DateTime) : StorageLayout :=
  let body : StorageLayout := {
    id := ""
    observedAt := 0
    disk := {
      id := identity.resourceId
      identity
      partitionTableId := "partition-table:" ++ takeChars 24 identity.fingerprintSha256 }
    partitionTable := PartitionTable.stamp lib.toTableLibrary
      { table with
        partitions := founds.map (·.partition)
        fingerprintSha256 := String.ofList (List.replicate 64 '0') }
    filesystems := founds.flatMap (·.filesystems)
    mountPoints := founds.flatMap (·.mounts)
    volumes := founds.flatMap (·.volumes)
    operatingSystems := founds.flatMap (·.operatingSystems)
    bootDependencies := founds.flatMap (·.bootDependencies)
    swapPartitions := (founds.flatMap (·.swap)).dedup.insertionSort (· ≤ ·)
    recoveryPartitions := (founds.flatMap (·.recovery)).dedup.insertionSort (· ≤ ·)
    warnings := []
    evidenceSha256 := "" }
  { body with id, observedAt, evidenceSha256 := lib.bodySha256 body }

/-- `_enrich`. -/
def enrichLayout (lib : InspectLibrary) (env : Surroundings) (identity : StorageDeviceIdentity)
    (table : PartitionTable) (id : String) (observedAt : DateTime) :
    Except PartitionError StorageLayout := do
  let records ← mountRecords lib.toTableLibrary env
  let founds ← enrichFrom lib.toTableLibrary env identity records [] 0 table.partitions
  printed identity.sizeBytes.toNat
  pure (foundLayout lib identity table founds id observedAt)

end Ares.Storage
