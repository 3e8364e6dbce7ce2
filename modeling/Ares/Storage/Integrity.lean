import Mathlib.Data.List.Sort
import Ares.Storage.Models

/-! The fingerprints of identities, layouts and plans, and the geometry of a partition table.  A
fingerprint is the digest of a document without its own fingerprint; the digest is any function of
the document. -/

namespace Ares.Storage

/-- The documents that `canonical_sha256` is given.  A key that the code removes from a document is
cleared here. -/
inductive Payload
  | identity (d : StorageDeviceIdentity)
  | layout (l : StorageLayout)
  | plan (p : StorageOperationPlan)
  | fields (f : Data.Fields)

/-- The library functions behind the fingerprints. -/
structure Library where
  canonicalSha256 : Payload → String
  /-- `hashlib.sha256(value.encode("utf-8")).hexdigest()`. -/
  tokenSha256 : String → String
  /-- `str.casefold`. -/
  casefold : String → String

/-- An identity without its fingerprint. -/
def StorageDeviceIdentity.content (d : StorageDeviceIdentity) : StorageDeviceIdentity :=
  { d with fingerprintSha256 := "" }

def deviceIdentityFingerprint (lib : Library) (d : StorageDeviceIdentity) : String :=
  lib.canonicalSha256 (.identity d.content)

def layoutFingerprint (lib : Library) (l : StorageLayout) : String :=
  lib.canonicalSha256 (.layout { l with id := "", observedAt := 0, evidenceSha256 := "" })

def storagePlanFingerprint (lib : Library) (p : StorageOperationPlan) : String :=
  lib.canonicalSha256 (.plan { p with fingerprintSha256 := "" })

def storagePlanIntegrityValid (lib : Library) (p : StorageOperationPlan) : Bool :=
  storagePlanFingerprint lib p = p.fingerprintSha256

structure PartitionSignature where
  number : Nat
  startSector : Nat
  sizeSectors : Nat
  typeCode : String
  partuuid : String
  name : Option String
  bootable : Bool
deriving DecidableEq

structure GeometrySignature where
  type : String
  guid : Option String
  sectorSize : Nat
  partitions : List PartitionSignature
deriving DecidableEq

def partitionGeometrySignature (lib : Library) (table : PartitionTable) : GeometrySignature where
  type := table.type.value
  guid := table.guid
  sectorSize := table.sectorSize
  partitions := (table.partitions.insertionSort (·.number ≤ ·.number)).map fun item =>
    { number := item.number
      startSector := item.startSector
      sizeSectors := item.sizeSectors
      typeCode := lib.casefold (item.typeCode.getD "")
      partuuid := lib.casefold (item.partuuid.getD "")
      name := item.name
      bootable := item.bootable }

end Ares.Storage
