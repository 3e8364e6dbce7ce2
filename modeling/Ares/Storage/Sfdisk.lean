import Mathlib.Algebra.Group.Nat.Defs
import Ares.Data.Gaps
import Ares.Storage.Integrity

/-! The partition tables that `tools/partition.py` builds: the one that it reads from the JSON of
`sfdisk`, the empty ones, and the one with other partitions.  A text is a list of characters, so a
lone surrogate, which is not printable, never reaches it. -/

namespace Ares.Storage

open Data

variable (lib : TableLibrary)

inductive PartitionError
  /-- `PartitionToolError`. -/
  | tool (code : String)
  /-- `StorageOperationEngineError`. -/
  | engine (code : String)
  /-- `ValueError` of `int`, which takes no more than 4300 digits. -/
  | digits
  | validation
  /-- `RecursionError` of `json.loads`. -/
  | recursion
  /-- `OverflowError` or `ZeroDivisionError` of a division. -/
  | arithmetic
deriving DecidableEq

/-- The library functions behind a table. -/
structure TableLibrary extends Library where
  /-- `canonical_sha256` of the fields that make up the fingerprint of a table. -/
  tableSha256 : PartitionTable → String
  /-- `str.isprintable` of one character. -/
  isprintable : Char → Bool
  /-- `str.isspace` of one character. -/
  isspace : Char → Bool
  /-- `str.isdigit` of one character. -/
  isdigit : Char → Bool
  /-- `int(text)`; `none` is a `ValueError`. -/
  int : String → Option Int

def PartitionResource.geometry (p : PartitionResource) : PartitionResource :=
  { p with
    id := ""
    path := ""
    role := .unknown
    filesystemId := none
    mountPointIds := []
    operatingSystemIds := []
    volumeIds := []
    encryptionStatus := .unknown }

def partitionTableFingerprint (table : PartitionTable) : String :=
  lib.tableSha256
    { table with partitions := table.partitions.map (·.geometry), fingerprintSha256 := "" }

/-- `draft.model_copy(update={"fingerprint_sha256": …})`. -/
def PartitionTable.stamp (draft : PartitionTable) : PartitionTable :=
  { draft with fingerprintSha256 := partitionTableFingerprint lib draft }

/-! ### The characters of the fields -/

/-- `value or None` for a text. -/
def nonempty (text : String) : Option String := if text = "" then none else some text

/-- `str.strip`. -/
def strip (cs : List Char) : List Char :=
  ((cs.dropWhile lib.isspace).reverse.dropWhile lib.isspace).reverse

/-- `_clean`. -/
def clean (value : Json) (limit : Nat) : Option String :=
  match value with
  | .str s =>
    nonempty (String.ofList
      ((strip lib (s.toList.filter fun c => lib.isprintable c && c ≠ '\x00')).take limit))
  | _ => none

/-- `_nonnegative_int`. -/
def nonnegativeInt (value : Json) : Option Nat :=
  let converted := match value with
    | .int i => some i
    | .str s => lib.int s
    | _ => none
  converted.bind fun i => if 0 ≤ i then some i.toNat else none

/-- `_positive_int`. -/
def positiveInt (value : Json) : Option Nat :=
  (nonnegativeInt lib value).bind fun n => if 0 < n then some n else none

/-- `bool(value)`. -/
def truthy : Json → Bool
  | .null => false
  | .bool b => b
  | .int i => i ≠ 0
  | .float text => text ≠ "0.0" && text ≠ "-0.0"
  | .str s => s ≠ ""
  | .arr items => !items.isEmpty
  | .obj fields => !fields.isEmpty

/-- `[0-9]`. -/
def asciiDigit (c : Char) : Bool := '0' ≤ c && c ≤ '9'

def digitsValue (cs : List Char) : Nat := cs.foldl (fun n c => 10 * n + (c.toNat - 48)) 0

/-- `[A-Za-z0-9]`. -/
def asciiAlnum (c : Char) : Bool :=
  asciiDigit c || ('a' ≤ c && c ≤ 'z') || ('A' ≤ c && c ≤ 'Z')

/-- `_SAFE_DEVICE.fullmatch(value)`. -/
def safeDevice (value : String) : Bool :=
  let rest := value.toList.drop 5
  "/dev/".toList.isPrefixOf value.toList && 1 ≤ rest.length && rest.length ≤ 128 &&
    rest.all fun c => asciiAlnum c || "_.:+/-".toList.contains c

/-- `_SAFE_NAME.fullmatch(value)`. -/
def safeName (value : String) : Bool :=
  1 ≤ value.toList.length && value.toList.length ≤ 96 &&
    value.toList.all fun c => asciiAlnum c || " ._+:-".toList.contains c

/-- `_partition_number`; `$` also matches in front of one newline at the end. -/
def partitionNumber (raw : Json) (fallback : Nat) : Except PartitionError Nat :=
  match raw with
  | .str s =>
    let reversed := s.toList.reverse
    let reversed := if reversed.head? = some '\n' then reversed.tail else reversed
    let digits := (reversed.takeWhile asciiDigit).reverse
    if digits = [] then .ok fallback
    else if 4300 < digits.length then .error .digits
    else if 1 ≤ digitsValue digits then .ok (digitsValue digits)
    else .ok fallback
  | _ => .ok fallback

@[irreducible] def digitLimit : Nat := 10 ^ 4300

/-- `str` of a number, as far as it can raise a `ValueError`. -/
def printed (n : Nat) : Except PartitionError Unit :=
  if n < digitLimit then .ok () else .error .digits

/-! ### Partitions -/

/-- `str(uuid4()).upper()` and `uuid4().hex`, of 32 hexadecimal digits. -/
structure Uuid where
  digits : List (Fin 16)
  size : digits.length = 32

def hexUpper (d : Fin 16) : Char := "0123456789ABCDEF".toList.getD d '0'

def hexLower (d : Fin 16) : Char := "0123456789abcdef".toList.getD d '0'

def Uuid.upper (u : Uuid) : String :=
  let cs := u.digits.map hexUpper
  String.ofList (cs.take 8 ++ '-' :: (cs.drop 8).take 4 ++ '-' :: (cs.drop 12).take 4 ++
    '-' :: (cs.drop 16).take 4 ++ '-' :: cs.drop 20)

def Uuid.hex (u : Uuid) : String := String.ofList (u.digits.map hexLower)

def partitionId (identity : StorageDeviceIdentity) (number start size : Nat)
    (partuuid : Option String) : String :=
  "partition:" ++ takeChars 24 (lib.tokenSha256 (identity.fingerprintSha256 ++ ":" ++
    toString number ++ ":" ++ toString start ++ ":" ++ toString size ++ ":" ++ partuuid.getD ""))

def partitionPath (identity : StorageDeviceIdentity) (rawNode : Json)
    (number : Nat) : String :=
  if identity.deviceKind = .regularFile then
    "image:" ++ takeChars 16 (lib.tokenSha256 identity.canonicalPath) ++ ":" ++ toString number
  else
    let base := identity.canonicalPath
    let separator := if base.toList.getLast?.any lib.isdigit then "p" else ""
    let own := base ++ separator ++ toString number
    match rawNode with
    | .str node => if safeDevice node then node else own
    | _ => own

/-- `_role`; no character outside ASCII becomes a letter of the codes by changing its case. -/
def roleOf (tableType : PartitionTableType) (typeCode : Option String) (bootable : Bool) :
    PartitionRole :=
  let value := (typeCode.getD "").toUpper
  let lower := value.toLower
  let short := if "0x".toList.isPrefixOf lower.toList then String.ofList (lower.toList.drop 2)
    else lower
  if tableType = .gpt then
    if value = "C12A7328-F81F-11D2-BA4B-00A0C93EC93B" then .efi
    else if value = "0657FD6D-A4AB-43C4-84E5-0933C84B4F4F" then .swap
    else if value = "E6D6D379-F507-44C2-A23C-238F2A3DF928" then .lvm
    else if value = "A19D880F-05FC-4D3B-A006-743F0F84911E" then .raid
    else if value = "DE94BBA4-06D1-4D40-A16A-BFD50179D6AC" then .recovery
    else if value = "EBD0A0A2-B9E5-4433-87C0-68B6B72699C7" then .windows
    else .normal
  else if short = "ef" then .efi
  else if short = "82" then .swap
  else if short = "8e" then .lvm
  else if short = "fd" then .raid
  else if bootable then .boot
  else .normal

/-- The bounds that the partition model puts on its fields. -/
def PartitionResource.valid (p : PartitionResource) : Bool :=
  3 ≤ p.id.length && p.id.length ≤ 192 && 1 ≤ p.number && 1 ≤ p.path.length &&
  p.path.length ≤ 4096 && 0 < p.sizeSectors && 0 < p.sizeBytes &&
  p.typeCode.all (·.length ≤ 128) && p.partuuid.all (·.length ≤ 256) &&
  p.name.all (·.length ≤ 256) && p.attrs.all (·.length ≤ 256)

/-- `PartitionResource(…)`. -/
def PartitionResource.checked (p : PartitionResource) : Except PartitionError PartitionResource :=
  if p.valid then .ok p else .error .validation

def defaultPartitionType (tableType : PartitionTableType) : String :=
  if tableType = .gpt then "0FC63DAF-8483-4772-8E79-3D69D8477DE4" else "83"

/-- `value or default` for an optional text. -/
def textOr (value : Option String) (default : String) : String :=
  (value.bind nonempty).getD default

def newPartitionResource (uuid : Uuid) (identity : StorageDeviceIdentity)
    (tableType : PartitionTableType) (number startSector sizeSectors sectorSize : Nat)
    (typeCode name : Option String) : Except PartitionError PartitionResource :=
  if name.any (!safeName ·) then .error (.tool "STORAGE_PARTITION_NAME_UNSAFE")
  else
    let partuuid := if tableType = .gpt then some uuid.upper else none
    let normalizedType := textOr typeCode (defaultPartitionType tableType)
    PartitionResource.checked {
      id := partitionId lib identity number startSector sizeSectors partuuid
      number
      path := partitionPath lib identity .null number
      startSector
      endSector := startSector + sizeSectors - 1
      sizeSectors
      sizeBytes := sizeSectors * sectorSize
      typeCode := some normalizedType
      partuuid
      name
      bootable := false
      attrs := none
      role := roleOf tableType (some normalizedType) false
      filesystemId := none
      mountPointIds := []
      operatingSystemIds := []
      volumeIds := []
      encryptionStatus := .unknown }

/-! ### Tables -/

/-- `_free`. -/
def free (start stop sectorSize : Nat) : FreeRegion where
  startSector := start
  endSector := stop
  sizeSectors := stop + 1 - start
  sizeBytes := (stop + 1 - start) * sectorSize

/-- `sorted(partitions, key=lambda item: item.start_sector)`. -/
def sortedByStart (partitions : List PartitionResource) : List PartitionResource :=
  partitions.insertionSort fun a b => a.startSector ≤ b.startSector

/-- `_free_regions`. -/
def freeRegions (partitions : List PartitionResource) (first last sectorSize : Nat) :
    List FreeRegion :=
  if last < first then []
  else
    (gaps PartitionResource.startSector PartitionResource.endSector last first
      (sortedByStart partitions)).map fun g => free g.1 g.2 sectorSize

/-- The order of `(item.start_sector, item.number)`. -/
def placeLe (a b : PartitionResource) : Prop :=
  a.startSector < b.startSector ∨ a.startSector = b.startSector ∧ a.number ≤ b.number

instance : DecidableRel placeLe := fun a b =>
  inferInstanceAs (Decidable (a.startSector < b.startSector ∨
    a.startSector = b.startSector ∧ a.number ≤ b.number))

instance : Std.Total placeLe where
  total a b := by
    unfold placeLe
    omega

instance : IsTrans PartitionResource placeLe where
  trans a b c hab hbc := by
    unfold placeLe at *
    omega

/-- The bounds that the table model puts on its fields. -/
def PartitionTable.valid (t : PartitionTable) : Bool :=
  t.guid.all (·.length ≤ 256) && 512 ≤ t.sectorSize && t.sectorSize ≤ 65536

/-- The numbers that the fingerprint of a table covers. -/
def PartitionTable.numbers (t : PartitionTable) : List Nat :=
  [t.sectorSize, t.firstUsableSector, t.lastUsableSector, t.totalSectors] ++
  t.partitions.flatMap (fun p =>
    [p.number, p.startSector, p.endSector, p.sizeSectors, p.sizeBytes]) ++
  t.freeRegions.flatMap fun r => [r.startSector, r.endSector, r.sizeSectors, r.sizeBytes]

/-- `PartitionTable(…)` with its own fingerprint. -/
def PartitionTable.checked (draft : PartitionTable) :
    Except PartitionError PartitionTable :=
  if !draft.valid then .error .validation
  else if draft.numbers.all (· < digitLimit) then .ok (draft.stamp lib)
  else .error .digits

/-- The table over `[first, last]` of a disk with the partitions in the order of their places. -/
def draftTable (type : PartitionTableType) (guid : Option String)
    (sectorSize first last total : Nat) (partitions : List PartitionResource) : PartitionTable where
  type
  guid
  sectorSize
  firstUsableSector := first
  lastUsableSector := last
  totalSectors := total
  partitions
  freeRegions := freeRegions partitions first last sectorSize
  fingerprintSha256 := String.ofList (List.replicate 64 '0')

/-- One item of the list of partitions; an item without a start and a size is passed over. -/
def parsePartition (identity : StorageDeviceIdentity)
    (tableType : PartitionTableType) (sectorSize index : Nat) (raw : Json) :
    Except PartitionError (Option PartitionResource) :=
  match raw with
  | .obj fields =>
    let get := fun key => (Fields.get? fields key).getD .null
    match nonnegativeInt lib (get "start"), positiveInt lib (get "size") with
    | some start, some size => do
      let number ← partitionNumber (get "node") index
      printed start
      printed size
      let typeCode := clean lib (get "type") 128
      let partuuid := clean lib (get "uuid") 256
      let bootable := truthy (get "bootable")
      let partition ← PartitionResource.checked {
        id := partitionId lib identity number start size partuuid
        number
        path := partitionPath lib identity (get "node") number
        startSector := start
        endSector := start + size - 1
        sizeSectors := size
        sizeBytes := size * sectorSize
        typeCode
        partuuid
        name := clean lib (get "name") 256
        bootable
        attrs := clean lib (get "attrs") 256
        role := roleOf tableType typeCode bootable
        filesystemId := none
        mountPointIds := []
        operatingSystemIds := []
        volumeIds := []
        encryptionStatus := .unknown }
      pure (some partition)
    | _, _ => .ok none
  | _ => .ok none

/-- The loop over `enumerate(raw_partitions, start=index)`. -/
def parsePartitions (identity : StorageDeviceIdentity)
    (tableType : PartitionTableType) (sectorSize : Nat) :
    Nat → List Json → Except PartitionError (List PartitionResource)
  | _, [] => .ok []
  | index, raw :: rest => do
    let partition ← parsePartition lib identity tableType sectorSize index raw
    let partitions ← parsePartitions identity tableType sectorSize (index + 1) rest
    pure (partition.toList ++ partitions)

/-- `parse_sfdisk_json`, on what `json.loads` makes of the text; `none` is a `ValueError`. -/
def parseSfdiskJson (payload : Option Json)
    (identity : StorageDeviceIdentity) : Except PartitionError PartitionTable :=
  match payload with
  | some (.obj document) =>
    match (Fields.get? document "partitiontable").getD .null with
    | .obj rawTable => do
      let get := fun key => (Fields.get? rawTable key).getD .null
      let tableType := match get "label" with
        | .str label =>
          if label = "gpt" then PartitionTableType.gpt else if label = "dos" then .mbr else .unknown
        | _ => .unknown
      let sectorSize :=
        (positiveInt lib (get "sectorsize")).getD identity.logicalSectorSize.toNat
      let total := identity.sizeBytes.toNat / sectorSize
      let first := (nonnegativeInt lib (get "firstlba")).getD
        (if tableType = .gpt then min 2048 (max 34 (total - 34))
          else if 4096 < total then 2048 else 1)
      let last := (nonnegativeInt lib (get "lastlba")).getD
        (max first (if tableType = .gpt then total - 34 else total - 1))
      let items := match get "partitions" with
        | .arr items => items
        | _ => []
      let partitions ← parsePartitions lib identity tableType sectorSize 1 items
      PartitionTable.checked lib (draftTable tableType (clean lib (get "id") 256) sectorSize first
        last total (partitions.insertionSort placeLe))
    | _ => .error (.tool "STORAGE_PARTITION_TABLE_PARSE_FAILED")
  | _ => .error (.tool "STORAGE_PARTITION_TABLE_PARSE_FAILED")

/-- What `json.loads` makes of a text. -/
inductive JsonLoads
  | value (json : Json)
  /-- `ValueError`. -/
  | invalid
  /-- `RecursionError`, for a text that is nested too deeply. -/
  | tooDeep

/-- `parse_sfdisk_json` with its `json.loads`. -/
def parseSfdiskText (loads : String → JsonLoads) (text : String)
    (identity : StorageDeviceIdentity) : Except PartitionError PartitionTable :=
  match loads text with
  | .value json => parseSfdiskJson lib (some json) identity
  | .invalid => parseSfdiskJson lib none identity
  | .tooDeep => .error .recursion

/-- `_empty_table`. -/
def emptyTable (identity : StorageDeviceIdentity) :
    Except PartitionError PartitionTable :=
  let sector := identity.logicalSectorSize.toNat
  let total := identity.sizeBytes.toNat / sector
  let first := if 4096 < total then 2048 else 1
  PartitionTable.checked lib (draftTable .unknown none sector first (max first (total - 1)) total [])

def buildEmptyTable (identity : StorageDeviceIdentity)
    (tableType : PartitionTableType) (guid : String) : Except PartitionError PartitionTable :=
  let sector := identity.logicalSectorSize.toNat
  let total := identity.sizeBytes.toNat / sector
  match tableType with
  | .gpt =>
    let first := if 4096 < total then 2048 else 34
    PartitionTable.checked lib
      (draftTable .gpt (some guid) sector first (max first (total - 34)) total [])
  | .mbr =>
    let first := if 4096 < total then 2048 else 1
    PartitionTable.checked lib
      (draftTable .mbr (some guid) sector first (max first (total - 1)) total [])
  | .unknown => .error (.tool "STORAGE_PARTITION_TABLE_TYPE_REQUIRED")

def withPartitions (table : PartitionTable)
    (partitions : List PartitionResource) : PartitionTable :=
  let sorted := partitions.insertionSort placeLe
  PartitionTable.stamp lib
    { table with
      partitions := sorted
      freeRegions :=
        freeRegions sorted table.firstUsableSector table.lastUsableSector table.sectorSize
      fingerprintSha256 := String.ofList (List.replicate 64 '0') }

/-- What the probes and the mounts add to a partition. -/
structure Details where
  role : PartitionRole
  filesystemId : Option String
  mountPointIds : List String
  operatingSystemIds : List String
  volumeIds : List String
  encryptionStatus : EncryptionStatus

def PartitionResource.withDetails (p : PartitionResource) (d : Details) : PartitionResource :=
  { p with
    role := d.role
    filesystemId := d.filesystemId
    mountPointIds := d.mountPointIds
    operatingSystemIds := d.operatingSystemIds
    volumeIds := d.volumeIds
    encryptionStatus := d.encryptionStatus }

/-- The table of `_enrich`, from what it found about each partition. -/
def enrich (details : PartitionResource → Details) (table : PartitionTable) :
    PartitionTable :=
  PartitionTable.stamp lib
    { table with
      partitions := table.partitions.map fun p => p.withDetails (details p)
      fingerprintSha256 := String.ofList (List.replicate 64 '0') }

/-- A layout that `PartitionTableTool.inspect` can return: its table comes from the answer of
`sfdisk`, or is the empty one of an image without a table. -/
def Inspected (layout : StorageLayout) : Prop :=
  ∃ payload details table,
    (parseSfdiskJson lib payload layout.disk.identity = .ok table ∨
      layout.disk.identity.deviceKind = .regularFile ∧
        emptyTable lib layout.disk.identity = .ok table) ∧
    layout.partitionTable = enrich lib details table

end Ares.Storage
