import Ares.Data.Except
import Ares.Storage.FreeRegions

/-! What `parse_sfdisk_json` makes of the answer of `sfdisk`: which of its entries become partitions,
and which answers end in an exception other than its own. -/

namespace Ares.Storage

open Data

variable {lib : TableLibrary} {identity : StorageDeviceIdentity} {type : PartitionTableType}
  {sectorSize index : Nat} {raw json : Json} {rawTable : Fields} {p : PartitionResource}

/-! ### The parts of the answer -/

/-- `fields.get(key)`. -/
def member (fields : Fields) (key : String) : Json := (Fields.get? fields key).getD .null

def rawTable? : Json → Option Fields
  | .obj document =>
    match member document "partitiontable" with
    | .obj rawTable => some rawTable
    | _ => none
  | _ => none

def rawItems (rawTable : Fields) : List Json :=
  match member rawTable "partitions" with
  | .arr items => items
  | _ => []

def rawType (rawTable : Fields) : PartitionTableType :=
  match member rawTable "label" with
  | .str label => if label = "gpt" then .gpt else if label = "dos" then .mbr else .unknown
  | _ => .unknown

section Header

variable (lib : TableLibrary) (identity : StorageDeviceIdentity) (rawTable : Fields)

def rawSectorSize : Nat :=
  (positiveInt lib (member rawTable "sectorsize")).getD identity.logicalSectorSize.toNat

def rawTotal : Nat := identity.sizeBytes.toNat / rawSectorSize lib identity rawTable

def rawFirst : Nat :=
  (nonnegativeInt lib (member rawTable "firstlba")).getD
    (if rawType rawTable = .gpt then min 2048 (max 34 (rawTotal lib identity rawTable - 34))
      else if 4096 < rawTotal lib identity rawTable then 2048 else 1)

def rawLast : Nat :=
  (nonnegativeInt lib (member rawTable "lastlba")).getD
    (max (rawFirst lib identity rawTable)
      (if rawType rawTable = .gpt then rawTotal lib identity rawTable - 34
        else rawTotal lib identity rawTable - 1))

def rawDraft (partitions : List PartitionResource) : PartitionTable :=
  draftTable (rawType rawTable) (clean lib (member rawTable "id") 256)
    (rawSectorSize lib identity rawTable) (rawFirst lib identity rawTable)
    (rawLast lib identity rawTable) (rawTotal lib identity rawTable)
    (partitions.insertionSort placeLe)

end Header

theorem parseSfdiskJson_some (h : rawTable? json = some rawTable) :
    parseSfdiskJson lib (some json) identity =
      parsePartitions lib identity (rawType rawTable) (rawSectorSize lib identity rawTable) 1
        (rawItems rawTable) >>= fun partitions =>
          (rawDraft lib identity rawTable partitions).checked lib := by
  cases json with
  | obj document =>
    have hfields : (Fields.get? document "partitiontable").getD .null = .obj rawTable := by
      cases hmember : (Fields.get? document "partitiontable").getD .null with
      | obj fields =>
        simp only [rawTable?, member, hmember, Option.some.injEq] at h
        rw [h]
      | _ => simp [rawTable?, member, hmember] at h
    simp only [parseSfdiskJson, hfields]
    rfl
  | _ => cases h

theorem parseSfdiskJson_none (h : rawTable? json = none) :
    parseSfdiskJson lib (some json) identity =
      .error (.tool "STORAGE_PARTITION_TABLE_PARSE_FAILED") := by
  cases json with
  | obj document =>
    cases hmember : (Fields.get? document "partitiontable").getD .null with
    | obj fields => simp [rawTable?, member, hmember] at h
    | _ => simp only [parseSfdiskJson, hmember]
  | _ => rfl

/-! ### One entry -/

/-- The start and the size of an entry, where the parser finds both. -/
def span? (lib : TableLibrary) : Json → Option (Nat × Nat)
  | .obj fields =>
    match nonnegativeInt lib (member fields "start"), positiveInt lib (member fields "size") with
    | some start, some size => some (start, size)
    | _, _ => none
  | _ => none

def rawNode : Json → Json
  | .obj fields => member fields "node"
  | _ => .null

def nodeDigits : Json → List Char
  | .str s =>
    let reversed := s.toList.reverse
    let reversed := if reversed.head? = some '\n' then reversed.tail else reversed
    (reversed.takeWhile asciiDigit).reverse
  | _ => []

/-- The positive number that a node name ends in, or the position of the entry. -/
def numberOf (raw : Json) (index : Nat) : Nat :=
  if 1 ≤ digitsValue (nodeDigits raw) then digitsValue (nodeDigits raw) else index

theorem partitionNumber_eq (raw : Json) (index : Nat) :
    partitionNumber raw index =
      if 4300 < (nodeDigits raw).length then .error .digits else .ok (numberOf raw index) := by
  have hdigits : ∀ digits : List Char,
      (if digits = [] then Except.ok index
        else if 4300 < digits.length then Except.error PartitionError.digits
        else if 1 ≤ digitsValue digits then Except.ok (digitsValue digits) else .ok index) =
      if 4300 < digits.length then .error .digits
      else .ok (if 1 ≤ digitsValue digits then digitsValue digits else index) := by
    intro digits
    cases digits with
    | nil => simp [digitsValue]
    | cons c cs =>
      rw [if_neg (by simp)]
      split
      · rfl
      · split <;> rfl
  cases raw with
  | str s => exact hdigits _
  | _ => simp [partitionNumber, nodeDigits, numberOf, digitsValue]

/-- No conversion of an entry fails: its numbers have at most 4300 digits, and the path is no longer
than the model allows. -/
structure Parsable (lib : TableLibrary) (identity : StorageDeviceIdentity) (entry : Json × Nat) :
    Prop where
  digits : (nodeDigits (rawNode entry.1)).length ≤ 4300
  path : (partitionPath lib identity (rawNode entry.1)
    (numberOf (rawNode entry.1) entry.2)).length ≤ 4096
  printed : ∀ span, span? lib entry.1 = some span → span.1 < digitLimit ∧ span.2 < digitLimit

/-- The partition is the one that an entry describes. -/
structure Describes (lib : TableLibrary) (sectorSize : Nat) (entry : Json × Nat)
    (p : PartitionResource) : Prop where
  span : span? lib entry.1 = some (p.startSector, p.sizeSectors)
  number : p.number = numberOf (rawNode entry.1) entry.2
  stop : p.endSector = p.startSector + p.sizeSectors - 1
  bytes : p.sizeBytes = p.sizeSectors * sectorSize

theorem positiveInt_pos {value : Json} {n : Nat} (h : positiveInt lib value = some n) : 0 < n := by
  obtain ⟨m, -, h⟩ := Option.bind_eq_some_iff.1 h
  split at h
  · next hpos =>
    obtain rfl := Option.some.inj h
    exact hpos
  · cases h

theorem span_pos {start size : Nat} (h : span? lib raw = some (start, size)) : 0 < size := by
  cases raw with
  | obj fields =>
    rw [span?] at h
    split at h
    · next hsize =>
      obtain ⟨rfl, rfl⟩ := Prod.mk.inj (Option.some.inj h)
      exact positiveInt_pos hsize
    · cases h
  | _ => cases h

def partitionOf (lib : TableLibrary) (identity : StorageDeviceIdentity) (type : PartitionTableType)
    (sectorSize index : Nat) (fields : Fields) (start size : Nat) : PartitionResource :=
  let number := numberOf (member fields "node") index
  let typeCode := clean lib (member fields "type") 128
  let partuuid := clean lib (member fields "uuid") 256
  let bootable := truthy (member fields "bootable")
  { id := partitionId lib identity number start size partuuid
    number
    path := partitionPath lib identity (member fields "node") number
    startSector := start
    endSector := start + size - 1
    sizeSectors := size
    sizeBytes := size * sectorSize
    typeCode
    partuuid
    name := clean lib (member fields "name") 256
    bootable
    attrs := clean lib (member fields "attrs") 256
    role := roleOf type typeCode bootable
    filesystemId := none
    mountPointIds := []
    operatingSystemIds := []
    volumeIds := []
    encryptionStatus := .unknown }

theorem parsePartition_obj {fields : Fields} {start size : Nat}
    (hspan : span? lib (.obj fields) = some (start, size)) :
    parsePartition lib identity type sectorSize index (.obj fields) =
      (do
        let _ ← partitionNumber (member fields "node") index
        printed start
        printed size
        let p ← (partitionOf lib identity type sectorSize index fields start size).checked
        pure (some p)) := by
  rw [span?] at hspan
  split at hspan
  · next hstart hsize =>
    obtain ⟨rfl, rfl⟩ := Prod.mk.inj (Option.some.inj hspan)
    simp only [member] at hstart hsize
    simp only [parsePartition, member, partitionOf, partitionNumber_eq]
    rw [hstart, hsize]
    by_cases hdigits : 4300 < (nodeDigits ((Fields.get? fields "node").getD .null)).length
    · simp only [if_pos hdigits, bind, Except.bind]
    · simp only [if_neg hdigits, bind, Except.bind]
  · cases hspan

theorem clean_length (value : Json) (limit : Nat) :
    (clean lib value limit).all (·.length ≤ limit) = true := by
  cases value with
  | str text =>
    rw [clean, nonempty]
    split
    · rfl
    · simp only [Option.all_some, decide_eq_true_eq, String.length_ofList]
      exact List.length_take_le _ _
  | _ => rfl

variable (lib identity) in
theorem partitionId_length (number start size : Nat) (partuuid : Option String) :
    3 ≤ (partitionId lib identity number start size partuuid).length ∧
      (partitionId lib identity number start size partuuid).length ≤ 192 := by
  have hname : "partition:".length = 10 := by decide
  have htake : ∀ text : String, (takeChars 24 text).length ≤ 24 := by
    intro text
    rw [takeChars, String.length_ofList]
    exact List.length_take_le _ _
  rw [partitionId, String.length_append, hname]
  have := htake (lib.tokenSha256 (identity.fingerprintSha256 ++ ":" ++ toString number ++ ":" ++
    toString start ++ ":" ++ toString size ++ ":" ++ partuuid.getD ""))
  omega

variable (lib identity) in
theorem partitionPath_nonempty (node : Json) (number : Nat) :
    1 ≤ (partitionPath lib identity node number).length := by
  have himage : "image:".length = 6 := by decide
  have hnumber : 1 ≤ (toString number).length := by
    rw [Nat.one_le_iff_ne_zero, String.length_eq_zero_iff.ne]
    exact Nat.repr_ne_empty
  have hown : ∀ a b : String, 1 ≤ (a ++ b ++ toString number).length := by
    intro a b
    rw [String.length_append]
    omega
  rw [partitionPath]
  split
  · simp only [String.length_append, himage]
    omega
  · dsimp only
    split
    · next text =>
      split
      · next hsafe =>
        simp only [safeDevice, Bool.and_eq_true, decide_eq_true_eq, List.length_drop] at hsafe
        rw [← String.length_toList]
        omega
      · exact hown _ _
    · exact hown _ _

theorem numberOf_pos (node : Json) (hindex : 1 ≤ index) : 1 ≤ numberOf node index := by
  rw [numberOf]
  split
  · assumption
  · exact hindex

variable (lib identity type sectorSize) in
theorem partitionOf_valid (fields : Fields) (start : Nat) {size : Nat} (hindex : 1 ≤ index)
    (hsize : 0 < size) :
    (partitionOf lib identity type sectorSize index fields start size).valid = true ↔
      (partitionPath lib identity (member fields "node")
        (numberOf (member fields "node") index)).length ≤ 4096 ∧ 0 < sectorSize := by
  have hid := fun number partuuid => partitionId_length lib identity number start size partuuid
  have hpath := partitionPath_nonempty lib identity (member fields "node")
    (numberOf (member fields "node") index)
  have hnumber := numberOf_pos (member fields "node") hindex
  simp only [PartitionResource.valid, partitionOf, clean_length, (hid _ _).1, (hid _ _).2, hpath,
    hnumber, hsize, decide_true, Bool.true_and, Bool.and_true, Bool.and_eq_true, decide_eq_true_eq,
    Nat.mul_pos_iff_of_pos_left]
  exact and_congr_left' decide_eq_true_iff

variable (identity type sectorSize) in
theorem parsePartition_spec {span : Nat × Nat} (hspan : span? lib raw = some span)
    (hindex : 1 ≤ index) :
    (∃ p, parsePartition lib identity type sectorSize index raw = .ok (some p) ∧
      Describes lib sectorSize (raw, index) p ∧ p.valid = true ∧
      Parsable lib identity (raw, index)) ∨
    (parsePartition lib identity type sectorSize index raw = .error .digits ∨
      parsePartition lib identity type sectorSize index raw = .error .validation) ∧
      (0 < sectorSize → ¬Parsable lib identity (raw, index)) := by
  obtain ⟨start, size⟩ := span
  cases raw with
  | obj fields =>
    rw [parsePartition_obj hspan, partitionNumber_eq]
    by_cases hdigits : 4300 < (nodeDigits (member fields "node")).length
    · rw [if_pos hdigits]
      refine .inr ⟨.inl rfl, fun _ h => ?_⟩
      have := h.digits
      dsimp only [rawNode] at this
      omega
    · rw [if_neg hdigits, printed, printed]
      by_cases hstart : start < digitLimit
      · by_cases hsize : size < digitLimit
        · rw [if_pos hstart, if_pos hsize, PartitionResource.checked]
          have hvalid := partitionOf_valid lib identity type sectorSize fields start hindex
            (span_pos hspan)
          split
          · next hv =>
            refine .inl ⟨_, rfl, ⟨hspan, rfl, rfl, rfl⟩, hv, ⟨?_, (hvalid.1 hv).1, ?_⟩⟩
            · exact Nat.not_lt.1 hdigits
            · intro span h
              obtain rfl := Option.some.inj (hspan.symm.trans h)
              exact ⟨hstart, hsize⟩
          · next hv =>
            refine .inr ⟨.inr rfl, fun hpos h => hv (hvalid.2 ⟨h.path, hpos⟩)⟩
        · rw [if_pos hstart, if_neg hsize]
          exact .inr ⟨.inl rfl, fun _ h => hsize (h.printed _ hspan).2⟩
      · rw [if_neg hstart]
        exact .inr ⟨.inl rfl, fun _ h => hstart (h.printed _ hspan).1⟩
  | _ => cases hspan

theorem parsePartition_none (h : span? lib raw = none) :
    parsePartition lib identity type sectorSize index raw = .ok none := by
  cases raw with
  | obj fields =>
    rw [span?] at h
    simp only [member] at h
    rw [parsePartition]
    dsimp only
    split
    · next hstart hsize =>
      rw [hstart, hsize] at h
      cases h
    · rfl
  | _ => rfl

theorem parsePartition_role
    (h : parsePartition lib identity type sectorSize index raw = .ok (some p)) :
    p.role = roleOf type p.typeCode p.bootable ∧ p.encryptionStatus = .unknown := by
  cases hspan : span? lib raw with
  | none => cases (parsePartition_none hspan).symm.trans h
  | some span =>
    obtain ⟨start, size⟩ := span
    cases raw with
    | obj fields =>
      rw [parsePartition_obj hspan] at h
      obtain ⟨_, -, h⟩ := bind_eq_ok h
      obtain ⟨_, -, h⟩ := bind_eq_ok h
      obtain ⟨_, -, h⟩ := bind_eq_ok h
      obtain ⟨q, hq, h⟩ := bind_eq_ok h
      obtain rfl := Option.some.inj (Except.ok.inj h)
      rw [PartitionResource.checked] at hq
      split at hq
      · obtain rfl := Except.ok.inj hq
        exact ⟨rfl, rfl⟩
      · cases hq
    | _ => cases hspan

/-! ### The list of entries -/

def entriesFrom (lib : TableLibrary) (index : Nat) (items : List Json) : List (Json × Nat) :=
  (items.zipIdx index).filter fun entry => (span? lib entry.1).isSome

theorem entriesFrom_some {items : List Json} {span : Nat × Nat} (h : span? lib raw = some span) :
    entriesFrom lib index (raw :: items) = (raw, index) :: entriesFrom lib (index + 1) items := by
  rw [entriesFrom, List.zipIdx_cons, List.filter_cons_of_pos (by simp [h])]
  rfl

theorem entriesFrom_none {items : List Json} (h : span? lib raw = none) :
    entriesFrom lib index (raw :: items) = entriesFrom lib (index + 1) items := by
  rw [entriesFrom, List.zipIdx_cons, List.filter_cons_of_neg (by simp [h])]
  rfl

/-- What the loop has when it ends: one partition for each entry with a start and a size. -/
structure Parsed (lib : TableLibrary) (identity : StorageDeviceIdentity) (sectorSize : Nat)
    (entries : List (Json × Nat)) (partitions : List PartitionResource) : Prop where
  described : List.Forall₂ (Describes lib sectorSize) entries partitions
  valid : ∀ p ∈ partitions, p.valid = true
  parsable : ∀ entry ∈ entries, Parsable lib identity entry

variable (lib identity type sectorSize) in
theorem parsePartitions_spec (items : List Json) (hindex : 1 ≤ index) :
    (∃ partitions, parsePartitions lib identity type sectorSize index items = .ok partitions ∧
      Parsed lib identity sectorSize (entriesFrom lib index items) partitions) ∨
    (parsePartitions lib identity type sectorSize index items = .error .digits ∨
      parsePartitions lib identity type sectorSize index items = .error .validation) ∧
      (0 < sectorSize → ¬∀ entry ∈ entriesFrom lib index items, Parsable lib identity entry) := by
  induction items generalizing index with
  | nil => exact .inl ⟨[], rfl, .nil, by simp, by simp [entriesFrom]⟩
  | cons raw rest ih =>
    rw [parsePartitions]
    cases hspan : span? lib raw with
    | none =>
      rw [parsePartition_none hspan, entriesFrom_none hspan]
      rcases ih (Nat.le_add_left 1 index) with ⟨ps, hps, hparsed⟩ | ⟨herror, hnot⟩
      · rw [hps]
        exact .inl ⟨ps, rfl, hparsed⟩
      · refine .inr ⟨?_, hnot⟩
        rcases herror with herror | herror
        · exact .inl (by rw [herror]; rfl)
        · exact .inr (by rw [herror]; rfl)
    | some span =>
      rw [entriesFrom_some hspan]
      rcases parsePartition_spec identity type sectorSize hspan hindex with
        ⟨p, hp, hdescribes, hvalid, hparsable⟩ | ⟨herror, hnot⟩
      · rw [hp]
        rcases ih (Nat.le_add_left 1 index) with ⟨ps, hps, hparsed⟩ | ⟨herror, hnot⟩
        · rw [hps]
          exact .inl ⟨p :: ps, rfl, .cons hdescribes hparsed.described,
            List.forall_mem_cons.2 ⟨hvalid, hparsed.valid⟩,
            List.forall_mem_cons.2 ⟨hparsable, hparsed.parsable⟩⟩
        · refine .inr ⟨?_, fun hpos h => hnot hpos (List.forall_mem_cons.1 h).2⟩
          rcases herror with herror | herror
          · exact .inl (by rw [herror]; rfl)
          · exact .inr (by rw [herror]; rfl)
      · refine .inr ⟨?_, fun hpos h => hnot hpos (List.forall_mem_cons.1 h).1⟩
        rcases herror with herror | herror
        · exact .inl (by rw [herror]; rfl)
        · exact .inr (by rw [herror]; rfl)

theorem parsePartitions_role {items : List Json} {partitions : List PartitionResource}
    (h : parsePartitions lib identity type sectorSize index items = .ok partitions)
    (hp : p ∈ partitions) :
    p.role = roleOf type p.typeCode p.bootable ∧ p.encryptionStatus = .unknown := by
  induction items generalizing index partitions with
  | nil =>
    obtain rfl := Except.ok.inj h
    cases hp
  | cons raw rest ih =>
    obtain ⟨q, hq, h⟩ := bind_eq_ok h
    obtain ⟨qs, hqs, h⟩ := bind_eq_ok h
    obtain rfl := Except.ok.inj h
    rcases List.mem_append.1 hp with hp | hp
    · obtain rfl : q = some p := Option.mem_toList.1 hp
      exact parsePartition_role hq
    · exact ih hqs hp

/-- The entries that become partitions. -/
def rawEntries (lib : TableLibrary) (rawTable : Fields) : List (Json × Nat) :=
  entriesFrom lib 1 (rawItems rawTable)

def rawSpans (lib : TableLibrary) (rawTable : Fields) : List (Nat × Nat) :=
  (rawEntries lib rawTable).filterMap fun entry => span? lib entry.1

theorem spans_described {entries : List (Json × Nat)} {partitions : List PartitionResource}
    (h : List.Forall₂ (Describes lib sectorSize) entries partitions) :
    entries.filterMap (fun entry => span? lib entry.1) =
      partitions.map fun p => (p.startSector, p.sizeSectors) := by
  induction h with
  | nil => rfl
  | cons hentry _ ih => simp only [List.filterMap_cons, hentry.span, ih, List.map_cons]

/-! ### The numbers of the table -/

theorem digitLimit_gt : 65536 < digitLimit := by
  have hpow : ∀ n, 5 ≤ n → 65536 < 10 ^ n := fun n hn =>
    (by decide : 65536 < 10 ^ 5).trans_le (Nat.pow_le_pow_right (by decide) hn)
  unfold digitLimit
  exact hpow 4300 (by decide)

/-- Every number of the table that the answer describes has at most 4300 digits: the usable range,
the numbers of the partitions, their ends and sizes, and the sizes of what lies free between them. -/
structure Printable (lib : TableLibrary) (identity : StorageDeviceIdentity) (rawTable : Fields) :
    Prop where
  first : rawFirst lib identity rawTable < digitLimit
  last : rawLast lib identity rawTable < digitLimit
  total : rawTotal lib identity rawTable < digitLimit
  numbers : ∀ entry ∈ rawEntries lib rawTable, numberOf (rawNode entry.1) entry.2 < digitLimit
  spans : ∀ span ∈ rawSpans lib rawTable, span.1 + span.2 ≤ digitLimit ∧
    span.2 * rawSectorSize lib identity rawTable < digitLimit
  free : ∀ a b, rawFirst lib identity rawTable ≤ a → a ≤ b →
    rawFirst lib identity rawTable ≤ rawLast lib identity rawTable →
    (b ≤ rawLast lib identity rawTable ∨ ∃ span ∈ rawSpans lib rawTable, b < span.1) →
    (∀ span ∈ rawSpans lib rawTable, b < span.1 ∨ span.1 + span.2 - 1 < a) →
    (b + 1 - a) * rawSectorSize lib identity rawTable < digitLimit

theorem numbers_all_iff (t : PartitionTable) :
    t.numbers.all (· < digitLimit) = true ↔
      (t.sectorSize < digitLimit ∧ t.firstUsableSector < digitLimit ∧
        t.lastUsableSector < digitLimit ∧ t.totalSectors < digitLimit) ∧
      (∀ p ∈ t.partitions, p.number < digitLimit ∧ p.startSector < digitLimit ∧
        p.endSector < digitLimit ∧ p.sizeSectors < digitLimit ∧ p.sizeBytes < digitLimit) ∧
      ∀ r ∈ t.freeRegions, r.startSector < digitLimit ∧ r.endSector < digitLimit ∧
        r.sizeSectors < digitLimit ∧ r.sizeBytes < digitLimit := by
  simp only [PartitionTable.numbers, List.all_append, List.all_flatMap, List.all_cons, List.all_nil,
    Bool.and_true, Bool.and_eq_true, List.all_eq_true, decide_eq_true_eq, and_assoc]

theorem forall₂_right {α β : Type} {R : α → β → Prop} {left : List α} {right : List β}
    (h : List.Forall₂ R left right) {b : β} (hb : b ∈ right) : ∃ a ∈ left, R a b := by
  induction h with
  | nil => cases hb
  | cons hab _ ih =>
    rcases List.mem_cons.1 hb with rfl | hb
    · exact ⟨_, List.mem_cons_self, hab⟩
    · obtain ⟨a, ha, hR⟩ := ih hb
      exact ⟨a, List.mem_cons_of_mem _ ha, hR⟩

theorem forall₂_left {α β : Type} {R : α → β → Prop} {left : List α} {right : List β}
    (h : List.Forall₂ R left right) {a : α} (ha : a ∈ left) : ∃ b ∈ right, R a b :=
  forall₂_right h.flip ha

section Draft

variable {partitions : List PartitionResource}
  (hparsed : Parsed lib identity (rawSectorSize lib identity rawTable) (rawEntries lib rawTable)
    partitions)
include hparsed

theorem Parsed.mem_spans {span : Nat × Nat} :
    span ∈ rawSpans lib rawTable ↔ ∃ p ∈ partitions, (p.startSector, p.sizeSectors) = span := by
  rw [rawSpans, spans_described hparsed.described, List.mem_map]

theorem Parsed.extent (hp : p ∈ partitions) :
    0 < p.sizeSectors ∧ p.endSector = p.startSector + p.sizeSectors - 1 ∧
      p.sizeBytes = p.sizeSectors * rawSectorSize lib identity rawTable := by
  obtain ⟨entry, -, h⟩ := forall₂_right hparsed.described hp
  exact ⟨span_pos h.span, h.stop, h.bytes⟩

/-- The table can be written down exactly where the answer has no number that is too long. -/
theorem Parsed.printable_iff (hge : 512 ≤ rawSectorSize lib identity rawTable)
    (hle : rawSectorSize lib identity rawTable ≤ 65536) :
    (rawDraft lib identity rawTable partitions).numbers.all (· < digitLimit) = true ↔
      Printable lib identity rawTable := by
  have hsorted : ∀ q, q ∈ sortedByStart (partitions.insertionSort placeLe) ↔ q ∈ partitions :=
    fun q => (List.mem_insertionSort _).trans (List.mem_insertionSort _)
  have horder : (sortedByStart (partitions.insertionSort placeLe)).Pairwise
      fun a b => a.startSector ≤ b.startSector := List.pairwise_insertionSort _ _
  have hbytes : ∀ n, n ≤ n * rawSectorSize lib identity rawTable := fun n =>
    Nat.le_mul_of_pos_right n (by omega)
  have hlimit := digitLimit_gt
  rw [numbers_all_iff]
  simp only [rawDraft, draftTable, List.mem_insertionSort]
  constructor
  · rintro ⟨⟨-, hfirst, hlast, htotal⟩, hpartitions, hregions⟩
    refine ⟨hfirst, hlast, htotal, fun entry hentry => ?_, fun span hspan => ?_,
      fun a b hfa hab hrange hend hfree => ?_⟩
    · obtain ⟨p, hp, h⟩ := forall₂_left hparsed.described hentry
      exact h.number ▸ (hpartitions p hp).1
    · obtain ⟨p, hp, rfl⟩ := hparsed.mem_spans.1 hspan
      obtain ⟨hpos, hstop, hsize⟩ := hparsed.extent hp
      obtain ⟨-, -, hend, -, hsizeBytes⟩ := hpartitions p hp
      exact ⟨by dsimp only; omega, hsize ▸ hsizeBytes⟩
    · obtain ⟨g, hg, hin⟩ := exists_gap_of_free PartitionResource.startSector
        PartitionResource.endSector (sortedByStart (partitions.insertionSort placeLe)) hfa hab
        (hend.imp_right fun ⟨span, hspan, hlt⟩ => by
          obtain ⟨p, hp, rfl⟩ := hparsed.mem_spans.1 hspan
          exact ⟨p, (hsorted p).2 hp, hlt⟩)
        fun q hq => by
          rw [(hparsed.extent ((hsorted q).1 hq)).2.1]
          exact hfree _ (hparsed.mem_spans.2 ⟨q, (hsorted q).1 hq, rfl⟩)
      have hregion := (hregions _ (mem_freeRegions.2 ⟨hrange, g, hg, rfl⟩)).2.2.2
      exact (Nat.mul_le_mul_right _ (by omega)).trans_lt hregion
  · intro h
    have hpartition : ∀ p ∈ partitions, p.startSector + p.sizeSectors ≤ digitLimit ∧
        p.sizeBytes < digitLimit := by
      intro p hp
      obtain ⟨-, -, hsize⟩ := hparsed.extent hp
      have hspan := h.spans _ (hparsed.mem_spans.2 ⟨p, hp, rfl⟩)
      exact ⟨hspan.1, hsize ▸ hspan.2⟩
    refine ⟨⟨by omega, h.first, h.last, h.total⟩, fun p hp => ?_, fun r hr => ?_⟩
    · obtain ⟨hpos, hstop, hsize⟩ := hparsed.extent hp
      obtain ⟨hend, hsizeBytes⟩ := hpartition p hp
      obtain ⟨entry, hentry, hdescribes⟩ := forall₂_right hparsed.described hp
      have hle' := hbytes p.sizeSectors
      refine ⟨hdescribes.number ▸ h.numbers entry hentry, ?_, ?_, ?_, hsizeBytes⟩ <;> omega
    · obtain ⟨hrange, g, hg, rfl⟩ := mem_freeRegions.1 hr
      have hgap := gap_nonempty hg
      have hend := end_of_mem_gaps hg
      have hfree := h.free g.1 g.2 (le_of_mem_gaps hg) hgap hrange
        (hend.imp_right fun ⟨q, hq, hlt⟩ =>
          ⟨_, hparsed.mem_spans.2 ⟨q, (hsorted q).1 hq, rfl⟩, hlt⟩)
        fun span hspan => by
          obtain ⟨q, hq, rfl⟩ := hparsed.mem_spans.1 hspan
          rw [← (hparsed.extent hq).2.1]
          exact apart_of_mem_gaps horder hg ((hsorted q).2 hq)
      have hstop : g.2 < digitLimit := by
        rcases hend with hlast | ⟨q, hq, hlt⟩
        · exact hlast.trans_lt h.last
        · have := hpartition q ((hsorted q).1 hq)
          omega
      have hle' := hbytes (g.2 + 1 - g.1)
      simp only [free]
      exact ⟨by omega, hstop, by omega, hfree⟩

end Draft

/-! ### The whole answer -/

/-- The answer can be turned into a table: no value of it is outside the bounds of the models, and no
number of it is too long. -/
structure Fitting (lib : TableLibrary) (identity : StorageDeviceIdentity) (rawTable : Fields) :
    Prop where
  sector_ge : 512 ≤ rawSectorSize lib identity rawTable
  sector_le : rawSectorSize lib identity rawTable ≤ 65536
  parsable : ∀ entry ∈ rawEntries lib rawTable, Parsable lib identity entry
  printable : Printable lib identity rawTable

theorem rawDraft_valid (partitions : List PartitionResource) :
    (rawDraft lib identity rawTable partitions).valid = true ↔
      512 ≤ rawSectorSize lib identity rawTable ∧ rawSectorSize lib identity rawTable ≤ 65536 := by
  simp only [PartitionTable.valid, rawDraft, draftTable, clean_length, Bool.true_and,
    Bool.and_eq_true]
  exact and_congr decide_eq_true_iff decide_eq_true_iff

variable (lib identity) in
/-- An answer with a table becomes the table of its entries where it fits, and ends in an exception
that is not the tool's own where it does not. -/
theorem parseSfdiskJson_spec (h : rawTable? json = some rawTable) :
    (∃ partitions, parseSfdiskJson lib (some json) identity =
        .ok ((rawDraft lib identity rawTable partitions).stamp lib) ∧
      Parsed lib identity (rawSectorSize lib identity rawTable) (rawEntries lib rawTable)
        partitions ∧ Fitting lib identity rawTable) ∨
    (parseSfdiskJson lib (some json) identity = .error .digits ∨
      parseSfdiskJson lib (some json) identity = .error .validation) ∧
      ¬Fitting lib identity rawTable := by
  rw [parseSfdiskJson_some h]
  rcases parsePartitions_spec lib identity (rawType rawTable) (rawSectorSize lib identity rawTable)
    (rawItems rawTable) le_rfl with ⟨partitions, hpartitions, hparsed⟩ | ⟨herror, hnot⟩
  · rw [hpartitions]
    change (∃ _, PartitionTable.checked lib _ = _ ∧ _) ∨
      (PartitionTable.checked lib _ = _ ∨ PartitionTable.checked lib _ = _) ∧ _
    rw [PartitionTable.checked]
    by_cases hvalid : (rawDraft lib identity rawTable partitions).valid = true
    · obtain ⟨hge, hle⟩ := (rawDraft_valid _).1 hvalid
      have hprintable := Parsed.printable_iff hparsed hge hle
      rw [hvalid]
      by_cases hnumbers :
          (rawDraft lib identity rawTable partitions).numbers.all (· < digitLimit) = true
      · rw [if_pos hnumbers]
        exact .inl ⟨partitions, rfl, hparsed, hge, hle, hparsed.parsable, hprintable.1 hnumbers⟩
      · rw [if_neg hnumbers]
        exact .inr ⟨.inl rfl, fun hfit => hnumbers (hprintable.2 hfit.printable)⟩
    · rw [if_pos (by simpa using hvalid)]
      exact .inr ⟨.inr rfl, fun hfit => hvalid ((rawDraft_valid _).2 ⟨hfit.sector_ge, hfit.sector_le⟩)⟩
  · refine .inr ⟨?_, fun hfit => hnot (by have := hfit.sector_ge; omega) hfit.parsable⟩
    rcases herror with herror | herror
    · exact .inl (by rw [herror]; rfl)
    · exact .inr (by rw [herror]; rfl)

/-- A declared outcome: a table within the bounds of the models, or the error of the tool. -/
def Declared : Except PartitionError PartitionTable → Prop
  | .ok table =>
    table.valid = true ∧ 0 < table.sectorSize ∧ ∀ p ∈ table.partitions, p.valid = true
  | .error e => ∃ code, e = .tool code

theorem parseSfdiskJson_declared_iff (h : rawTable? json = some rawTable) :
    Declared (parseSfdiskJson lib (some json) identity) ↔ Fitting lib identity rawTable := by
  rcases parseSfdiskJson_spec lib identity h with
    ⟨partitions, heq, hparsed, hfit⟩ | ⟨heq, hnot⟩
  · have hsector := hfit.sector_ge
    have hvalid := (rawDraft_valid partitions).2 ⟨hsector, hfit.sector_le⟩
    rw [heq]
    refine iff_of_true ⟨hvalid, ?_, fun p hp => ?_⟩ hfit
    · dsimp only [PartitionTable.stamp, rawDraft, draftTable]
      omega
    · exact hparsed.valid p ((List.mem_insertionSort _).1 hp)
  · refine iff_of_false (fun hdeclared => ?_) hnot
    rcases heq with heq | heq <;>
    · rw [heq] at hdeclared
      obtain ⟨_, hcode⟩ := hdeclared
      cases hcode

/-- The text is no JSON, or has no table, or has one that fits. -/
def Acceptable (lib : TableLibrary) (identity : StorageDeviceIdentity) : JsonLoads → Prop
  | .value json => ∀ rawTable, rawTable? json = some rawTable → Fitting lib identity rawTable
  | .invalid => True
  | .tooDeep => False

/-- The parser has a declared outcome exactly on the texts that are not nested too deeply and whose
table, where they have one, fits. -/
theorem parseSfdiskText_declared_iff (lib : TableLibrary) (loads : String → JsonLoads)
    (text : String) (identity : StorageDeviceIdentity) :
    Declared (parseSfdiskText lib loads text identity) ↔ Acceptable lib identity (loads text) := by
  rw [parseSfdiskText]
  cases loads text with
  | invalid => exact iff_of_true ⟨_, rfl⟩ trivial
  | tooDeep => exact iff_of_false (fun ⟨_, h⟩ => by cases h) id
  | value json =>
    cases htable : rawTable? json with
    | none =>
      refine iff_of_true ?_ fun _ h => by simp [htable] at h
      dsimp only
      rw [parseSfdiskJson_none htable]
      exact ⟨_, rfl⟩
    | some rawTable =>
      refine (parseSfdiskJson_declared_iff htable).trans ⟨fun h other hother => ?_, fun h => ?_⟩
      · exact Option.some.inj (htable.symm.trans hother) ▸ h
      · exact h _ htable

/-- The table of a text has one partition for each of its entries with a start and a size. -/
theorem parseSfdiskText_entries {loads : String → JsonLoads} {text : String} {table : PartitionTable}
    (h : parseSfdiskText lib loads text identity = .ok table) :
    ∃ json rawTable, loads text = .value json ∧ rawTable? json = some rawTable ∧
      ∃ partitions, partitions.Perm table.partitions ∧
        List.Forall₂ (Describes lib table.sectorSize) (rawEntries lib rawTable) partitions := by
  rw [parseSfdiskText] at h
  split at h
  · next json hloads =>
    cases htable : rawTable? json with
    | none =>
      rw [parseSfdiskJson_none htable] at h
      cases h
    | some rawTable =>
      refine ⟨json, rawTable, hloads, htable, ?_⟩
      rcases parseSfdiskJson_spec lib identity htable with
        ⟨partitions, heq, hparsed, -⟩ | ⟨heq, -⟩
      · obtain rfl := Except.ok.inj (heq.symm.trans h)
        exact ⟨partitions, (List.perm_insertionSort _ _).symm, hparsed.described⟩
      · rcases heq with heq | heq <;>
        · rw [heq] at h
          cases h
  · cases h
  · cases h

theorem parseSfdiskText_role {loads : String → JsonLoads} {text : String} {table : PartitionTable}
    (h : parseSfdiskText lib loads text identity = .ok table) (hp : p ∈ table.partitions) :
    p.role = roleOf table.type p.typeCode p.bootable ∧ p.encryptionStatus = .unknown := by
  rw [parseSfdiskText] at h
  split at h
  · next json _ =>
    cases htable : rawTable? json with
    | none => cases (parseSfdiskJson_none htable).symm.trans h
    | some rawTable =>
      rw [parseSfdiskJson_some htable] at h
      obtain ⟨partitions, hpartitions, h⟩ := bind_eq_ok h
      rw [PartitionTable.checked] at h
      split at h
      · cases h
      · split at h
        · obtain rfl := Except.ok.inj h
          exact parsePartitions_role hpartitions ((List.mem_insertionSort _).1 hp)
        · cases h
  · cases h
  · cases h

/-! ### Samples -/

/-- A library for texts in ASCII. -/
def sampleTables : TableLibrary where
  toLibrary := sampleDigests
  tableSha256 _ := sampleSha 'a' '0'
  isprintable c := 32 ≤ c.toNat && c.toNat < 127
  isspace c := c = ' '
  isdigit c := asciiDigit c
  int text := text.toInt?

/-- The document of a table. -/
def tableDocument (fields : Fields) : Json := .obj [("partitiontable", .obj fields)]

/-- A `json.loads` that knows one text. -/
def loadsOnly (text : String) (json : Json) : String → JsonLoads := fun s =>
  if s = text then .value json else .invalid

theorem loadsOnly_self (text : String) (json : Json) : loadsOnly text json text = .value json :=
  if_pos rfl

def smallSectors : String := "\x7b\"partitiontable\": \x7b\"sectorsize\": 100\x7d\x7d"

theorem parse_smallSectors : ¬ ∀ (lib : TableLibrary) (loads : String → JsonLoads) (text : String)
    (identity : StorageDeviceIdentity), identity.valid = true →
    Declared (parseSfdiskText lib loads text identity) := by
  intro h
  have hdeclared := h sampleTables
    (loadsOnly smallSectors (tableDocument [("sectorsize", .int 100)])) smallSectors sampleIdentity
    (by decide +kernel)
  rw [parseSfdiskText, loadsOnly_self] at hdeclared
  have hfit := (parseSfdiskJson_declared_iff rfl).1 hdeclared
  exact absurd hfit.sector_ge (by decide +kernel)

/-- A text with an entry that is no object and one that is. -/
def mixedEntries : String :=
  "\x7b\"partitiontable\": \x7b\"partitions\": [\"bad\", \x7b\"start\": 8, \"size\": 8\x7d]\x7d\x7d"

def mixedTable : Fields :=
  [("partitions", .arr [.str "bad", .obj [("start", .int 8), ("size", .int 8)]])]

theorem parse_mixedEntries : ∃ table,
    parseSfdiskText sampleTables (loadsOnly mixedEntries (tableDocument mixedTable)) mixedEntries
      sampleIdentity = .ok table ∧ table.partitions.length = 1 := by
  rw [parseSfdiskText, loadsOnly_self]
  exact map_eq_ok (f := fun table : PartitionTable => table.partitions.length) (b := 1)
    (by decide +kernel)

theorem parseSfdiskText_entries_sample : ∃ table,
    parseSfdiskText sampleTables (loadsOnly mixedEntries (tableDocument mixedTable)) mixedEntries
      sampleIdentity = .ok table ∧
    ∃ json rawTable, loadsOnly mixedEntries (tableDocument mixedTable) mixedEntries = .value json ∧
      rawTable? json = some rawTable ∧ ∃ partitions, partitions.Perm table.partitions ∧
        List.Forall₂ (Describes sampleTables table.sectorSize) (rawEntries sampleTables rawTable)
          partitions := by
  obtain ⟨table, htable, -⟩ := parse_mixedEntries
  exact ⟨table, htable, parseSfdiskText_entries htable⟩

/-- The entry that is no object has no partition. -/
theorem parse_drops_entry : ¬ ∀ (lib : TableLibrary) (loads : String → JsonLoads) (text : String)
    (identity : StorageDeviceIdentity) (table : PartitionTable) (json : Json) (rawTable : Fields),
    identity.valid = true → parseSfdiskText lib loads text identity = .ok table →
    loads text = .value json → rawTable? json = some rawTable →
    (∃ partitions, partitions.Perm table.partitions ∧
      List.Forall₂ (fun raw p => span? lib raw = some (p.startSector, p.sizeSectors))
        (rawItems rawTable) partitions) ∧ (table.partitions.map (·.number)).Nodup := by
  intro h
  obtain ⟨table, htable, hone⟩ := parse_mixedEntries
  obtain ⟨⟨partitions, hperm, hitems⟩, -⟩ := h _ _ _ _ _ _ mixedTable (by decide +kernel) htable
    (loadsOnly_self _ _) rfl
  have htwo := hitems.length_eq
  rw [hperm.length_eq, hone] at htwo
  exact absurd htwo (by decide)

end Ares.Storage
