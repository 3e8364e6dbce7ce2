import Ares.Data.Double
import Ares.Operations.State
import Ares.Storage.Sfdisk

/-! The partition table that the engine proposes for a request.  The size of a partition in sectors
is a quotient rounded up: the quotient that Python finds is a double. -/

namespace Ares.Operations

open Data Storage

/-- The bounds of the fields and the validator `operation_fields`. -/
def DeclarativeStorageOperationRequest.valid (request : DeclarativeStorageOperationRequest) :
    Bool :=
  1 ≤ request.targetDisk.length && request.targetDisk.length ≤ 4096 &&
  request.partitionNumber.all (1 ≤ ·) && request.sizeBytes.all (1048576 ≤ ·) &&
  request.newSizeBytes.all (1048576 ≤ ·) && request.partitionType.all (·.length ≤ 128) &&
  request.partitionName.all (·.length ≤ 96) && request.freeRegionIndex ≤ 127 &&
  match request.operation with
  | .create => request.sizeBytes.isSome
  | .delete => request.partitionNumber.isSome
  | .resize => request.partitionNumber.isSome && request.newSizeBytes.isSome
  | .move => request.partitionNumber.isSome && request.newStartSector.isSome

/-- The `uuid4()` values that one planning draws. -/
structure Uuids where
  table : Uuid
  partition : Uuid

abbrev SectorCount := Nat → Nat → Except PartitionError Nat

/-- `math.ceil(size_bytes / sector_size)`. -/
def ceilSectors : SectorCount := fun sizeBytes sectorSize =>
  match ceilQuotient sizeBytes sectorSize with
  | some sectors => .ok sectors
  | none => .error .arithmetic

def exactCeil (sizeBytes sectorSize : Nat) : Nat := (sizeBytes + sectorSize - 1) / sectorSize

/-- `math.ceil(size_bytes / sector_size)` with the division read exactly. -/
def exactSectors : SectorCount := fun sizeBytes sectorSize => .ok (exactCeil sizeBytes sectorSize)

/-- `_align_up`. -/
def alignUp (value alignment : Nat) : Nat := (value + alignment - 1) / alignment * alignment

/-- `_overlaps`. -/
def overlaps (aStart aEnd bStart bEnd : Nat) : Bool := aStart ≤ bEnd && bStart ≤ aEnd

def numberLimit (tableType : PartitionTableType) : Nat := if tableType = .gpt then 128 else 4

/-- `_next_partition_number`. -/
def nextPartitionNumber (tableType : PartitionTableType) (partitions : List PartitionResource) :
    Except PartitionError Nat :=
  let used := partitions.map (·.number)
  match (List.range' 1 (numberLimit tableType)).find? fun number => number ∉ used with
  | some number => .ok number
  | none => .error (.engine
      (if tableType = .gpt then "STORAGE_GPT_PARTITION_LIMIT" else "STORAGE_MBR_PRIMARY_LIMIT"))

/-- `_find_partition`. -/
def findPartition (partitions : List PartitionResource) (number : Option Nat) :
    Except PartitionError PartitionResource :=
  match number with
  | none => .error (.engine "STORAGE_PARTITION_REQUIRED")
  | some number =>
    match partitions.find? (·.number = number) with
    | some partition => .ok partition
    | none => .error (.engine "STORAGE_PARTITION_NOT_FOUND")

/-- A `PartitionToolError` becomes an error of the engine. -/
def toEngine : PartitionError → PartitionError
  | .tool code => .engine code
  | e => e

/-- The first step of `_plan_create`: the table that gets the partition.  A disk whose table is of
no known type gets an empty one. -/
def workingTable (lib : TableLibrary) (uuids : Uuids)
    (request : DeclarativeStorageOperationRequest) (original : StorageLayout) :
    Except PartitionError PartitionTable :=
  let table := original.partitionTable
  if table.type = .unknown then
    match request.tableType with
    | some .gpt => buildEmptyTable lib original.disk.identity .gpt uuids.table.upper
    | some .mbr =>
      buildEmptyTable lib original.disk.identity .mbr ("0x" ++ takeChars 8 uuids.table.hex)
    | _ => .error (.engine "STORAGE_PARTITION_TABLE_TYPE_REQUIRED")
  else if request.tableType.any (· ≠ table.type) then
    .error (.engine "STORAGE_PARTITION_TABLE_TYPE_MISMATCH")
  else .ok table

/-- `max(1, 1_048_576 // sector_size)`. -/
def alignment (sectorSize : Nat) : Nat := max 1 (1048576 / sectorSize)

/-- The rest of `_plan_create`. -/
def placePartition (count : SectorCount) (lib : TableLibrary) (uuids : Uuids)
    (request : DeclarativeStorageOperationRequest) (identity : StorageDeviceIdentity)
    (table : PartitionTable) : Except PartitionError PartitionResource :=
  match table.freeRegions[request.freeRegionIndex]?, request.sizeBytes with
  | some region, some sizeBytes => do
    let sizeSectors ← count sizeBytes table.sectorSize
    let start := alignUp region.startSector (alignment table.sectorSize)
    if region.endSector < start + sizeSectors - 1 then
      throw (.engine "STORAGE_INSUFFICIENT_FREE_SPACE")
    let number ← nextPartitionNumber table.type table.partitions
    (newPartitionResource lib uuids.partition identity table.type number start sizeSectors
      table.sectorSize request.partitionType request.partitionName).mapError toEngine
  | none, _ => .error (.engine "STORAGE_FREE_REGION_NOT_FOUND")
  | some _, none => .error .validation

/-- `_plan_create` with a reading of its division. -/
def planCreateBy (count : SectorCount) (lib : TableLibrary) (uuids : Uuids)
    (request : DeclarativeStorageOperationRequest) (original : StorageLayout) :
    Except PartitionError (PartitionTable × PartitionResource) := do
  let table ← workingTable lib uuids request original
  let partition ← placePartition count lib uuids request original.disk.identity table
  pure (withPartitions lib table (table.partitions ++ [partition]), partition)

/-- `_plan_create`. -/
def planCreate (lib : TableLibrary) (uuids : Uuids) (request : DeclarativeStorageOperationRequest)
    (original : StorageLayout) : Except PartitionError (PartitionTable × PartitionResource) :=
  planCreateBy ceilSectors lib uuids request original

/-- The table with `changed` in the place of the partition of its number. -/
def replacePartition (lib : TableLibrary) (table : PartitionTable) (changed : PartitionResource) :
    PartitionTable :=
  withPartitions lib table
    (table.partitions.map fun item => if item.number = changed.number then changed else item)

/-- One of the other partitions has a sector of `[start, stop]`. -/
def conflict (table : PartitionTable) (target : PartitionResource) (start stop : Nat) : Bool :=
  table.partitions.any fun other =>
    other.number ≠ target.number && overlaps start stop other.startSector other.endSector

/-- `_plan_resize`. -/
def planResize (lib : TableLibrary) (newSizeBytes : Nat) (table : PartitionTable)
    (target : PartitionResource) : Except PartitionError PartitionTable := do
  let sizeSectors ← ceilSectors newSizeBytes table.sectorSize
  if sizeSectors = 0 || sizeSectors = target.sizeSectors then
    throw (.engine "STORAGE_RESIZE_SIZE_INVALID")
  let stop := target.startSector + sizeSectors - 1
  if table.lastUsableSector < stop then throw (.engine "STORAGE_INSUFFICIENT_FREE_SPACE")
  if conflict table target target.startSector stop then
    throw (.engine "STORAGE_PARTITION_CONFLICT")
  pure (replacePartition lib table
    { target with
      endSector := stop
      sizeSectors
      sizeBytes := sizeSectors * table.sectorSize })

/-- `_plan_move`. -/
def planMove (lib : TableLibrary) (newStartSector : Nat) (table : PartitionTable)
    (target : PartitionResource) : Except PartitionError PartitionTable := do
  let stop := newStartSector + target.sizeSectors - 1
  if newStartSector < table.firstUsableSector || table.lastUsableSector < stop then
    throw (.engine "STORAGE_MOVE_BOUNDARY_INVALID")
  if conflict table target newStartSector stop then throw (.engine "STORAGE_PARTITION_CONFLICT")
  pure (replacePartition lib table { target with startSector := newStartSector, endSector := stop })

/-- The proposed table of a request and its target, as `plan` finds them. -/
def proposedTable (lib : TableLibrary) (uuids : Uuids)
    (request : DeclarativeStorageOperationRequest) (original : StorageLayout) :
    Except PartitionError (PartitionTable × PartitionResource) :=
  let table := original.partitionTable
  match request.operation with
  | .create => planCreate lib uuids request original
  | .delete => do
    let target ← findPartition table.partitions request.partitionNumber
    pure (withPartitions lib table (table.partitions.filter (·.number ≠ target.number)), target)
  | .resize => do
    let target ← findPartition table.partitions request.partitionNumber
    match request.newSizeBytes with
    | some newSizeBytes => pure (← planResize lib newSizeBytes table target, target)
    | none => .error .validation
  | .move => do
    let target ← findPartition table.partitions request.partitionNumber
    match request.newStartSector with
    | some newStartSector => pure (← planMove lib newStartSector table target, target)
    | none => .error .validation

end Ares.Operations
