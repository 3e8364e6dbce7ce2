import Ares.Operations.Placement
import Ares.Storage.Script

/-! What the texts of a request and of a device can do to the script of an accepted plan. -/

namespace Ares.Operations

open Data Storage

variable {lib : TableLibrary} {uuids : Uuids} {request : DeclarativeStorageOperationRequest}
  {original : StorageLayout} {table proposed : PartitionTable} {p q : PartitionResource}
  {type : PartitionTableType} {script : String}

/-! ### Texts of a device -/

def OneLine (p : PartitionResource) : Prop :=
  ∀ text ∈ p.typeCode.toList ++ p.partuuid.toList ++ p.name.toList ++ p.attrs.toList,
    '\n' ∉ text.toList

theorem clean_oneLine (hprint : lib.isprintable '\n' = false) {value : Json} {limit : Nat}
    {text : String} (h : clean lib value limit = some text) : '\n' ∉ text.toList := by
  intro hmem
  cases value with
  | str s =>
    rw [clean, nonempty] at h
    split at h
    · cases h
    · obtain rfl := Option.some.inj h
      rw [String.toList_ofList] at hmem
      have hstrip := List.mem_of_mem_take hmem
      rw [strip, List.mem_reverse] at hstrip
      have hdrop := (List.dropWhile_sublist _).subset hstrip
      rw [List.mem_reverse] at hdrop
      have hfilter := List.of_mem_filter ((List.dropWhile_sublist _).subset hdrop)
      simp [hprint] at hfilter
  | _ => cases h

variable {identity : StorageDeviceIdentity}

theorem parsePartition_oneLine (hprint : lib.isprintable '\n' = false)
    {sectorSize index : Nat} {raw : Json}
    (h : parsePartition lib identity type sectorSize index raw = .ok (some p)) : OneLine p := by
  unfold parsePartition at h
  split at h
  · dsimp only at h
    split at h
    · obtain ⟨number, -, h⟩ := bind_eq_ok h
      obtain ⟨-, -, h⟩ := bind_eq_ok (x := printed _) h
      obtain ⟨-, -, h⟩ := bind_eq_ok (x := printed _) h
      obtain ⟨p', hp', h⟩ := bind_eq_ok h
      obtain rfl := Option.some.inj (Except.ok.inj h)
      obtain rfl := checked_ok hp'
      intro text htext
      simp only [List.mem_append, Option.mem_toList] at htext
      rcases htext with ((htext | htext) | htext) | htext <;> exact clean_oneLine hprint htext
    · cases h
  · cases h

theorem parsePartitions_oneLine (hprint : lib.isprintable '\n' = false)
    {sectorSize index : Nat} {items : List Json}
    {partitions : List PartitionResource}
    (h : parsePartitions lib identity type sectorSize index items = .ok partitions) :
    ∀ p ∈ partitions, OneLine p := by
  induction items generalizing index partitions with
  | nil =>
    obtain rfl := Except.ok.inj h
    simp
  | cons raw rest ih =>
    obtain ⟨partition, hpartition, h⟩ := bind_eq_ok h
    obtain ⟨others, hothers, h⟩ := bind_eq_ok h
    obtain rfl := Except.ok.inj h
    intro p hp
    rcases List.mem_append.1 hp with hp | hp
    · obtain rfl := Option.mem_toList.1 hp
      exact parsePartition_oneLine hprint hpartition
    · exact ih hothers p hp

/-- A device brings no newline into its table. -/
structure OneLineTable (table : PartitionTable) : Prop where
  guid : ∀ guid, table.guid = some guid → '\n' ∉ guid.toList
  partitions : ∀ p ∈ table.partitions, OneLine p

theorem inspected_oneLine (hprint : lib.isprintable '\n' = false) (h : Inspected lib original) :
    OneLineTable original.partitionTable := by
  obtain ⟨payload, details, table, htable, heq⟩ := h
  suffices hone : OneLineTable table by
    rw [heq]
    refine ⟨hone.guid, fun p hp => ?_⟩
    obtain ⟨q, hq, rfl⟩ := List.mem_map.1 hp
    exact hone.partitions q hq
  rcases htable with hparse | ⟨-, hempty⟩
  · unfold parseSfdiskJson at hparse
    split at hparse
    · split at hparse
      · obtain ⟨partitions, hpartitions, hparse⟩ := bind_eq_ok hparse
        obtain ⟨-, rfl⟩ := checked_table hparse
        refine ⟨fun guid hguid => clean_oneLine hprint hguid, fun p hp => ?_⟩
        exact parsePartitions_oneLine hprint hpartitions p ((List.mem_insertionSort _).1 hp)
      · cases hparse
    · cases hparse
  · obtain ⟨-, rfl⟩ := checked_table hempty
    exact ⟨fun guid hguid => (nomatch hguid), fun p hp => (nomatch hp)⟩

/-! ### The texts of a plan -/

theorem nonempty_eq_some {text value : String} (h : nonempty text = some value) : value = text := by
  rw [nonempty] at h
  split at h
  · cases h
  · exact (Option.some.inj h).symm

theorem bind_nonempty {o : Option String} {value : String} (h : o.bind nonempty = some value) :
    o = some value := by
  obtain ⟨text, htext, hvalue⟩ := Option.bind_eq_some_iff.1 h
  rw [htext, nonempty_eq_some hvalue]

theorem gptText_eq_some {o : Option String} {value : String} (h : gptText type o = some value) :
    o = some value := by
  rw [gptText] at h
  split at h
  · exact bind_nonempty h
  · cases h

def RowFaithful (type : PartitionTableType) (p : PartitionResource) : Prop :=
  (∀ e ∈ texts type p, '\n' ∉ (entryValue e).toList) ∧ RowReadable type p

theorem rowFaithful_iff : RowFaithful type p ↔
    (∀ e ∈ entries type p, '\n' ∉ (entryValue e).toList) ∧ RowReadable type p := by
  have hnum := fun n => newline_not_mem (plain_toDigits n)
  rw [RowFaithful, entries]
  simp [entryValue, hnum]

theorem oneLine_texts (h : OneLine p) {e : String × Option String} (he : e ∈ texts type p) :
    '\n' ∉ (entryValue e).toList := by
  have htext : ∀ text, p.typeCode = some text ∨ p.partuuid = some text ∨ p.name = some text ∨
      p.attrs = some text → '\n' ∉ text.toList := by
    intro text htext
    refine h text ?_
    simp only [List.mem_append, Option.mem_toList]
    tauto
  simp only [texts, List.mem_append, Option.mem_toList, Option.map_eq_some_iff] at he
  rcases he with (((⟨v, hv, rfl⟩ | ⟨v, hv, rfl⟩) | ⟨v, hv, rfl⟩) | ⟨v, hv, rfl⟩) | he
  · exact htext v (.inl (bind_nonempty hv))
  · exact htext v (.inr (.inl (gptText_eq_some hv)))
  · simpa [entryValue] using htext v (.inr (.inr (.inl (gptText_eq_some hv))))
  · exact htext v (.inr (.inr (.inr (gptText_eq_some hv))))
  · split at he
    · rw [List.mem_singleton.1 he]
      decide
    · cases he

def SameTexts (p q : PartitionResource) : Prop :=
  p.typeCode = q.typeCode ∧ p.partuuid = q.partuuid ∧ p.name = q.name ∧ p.attrs = q.attrs ∧
    p.bootable = q.bootable

theorem SameTexts.texts_eq (h : SameTexts p q) : texts type p = texts type q := by
  obtain ⟨htype, huuid, hname, hattrs, hboot⟩ := h
  rw [texts, texts, htype, huuid, hname, hattrs, hboot]

theorem SameTexts.rowFaithful (h : SameTexts p q) : RowFaithful type p ↔ RowFaithful type q := by
  rw [RowFaithful, RowFaithful, rowReadable_iff, rowReadable_iff, h.texts_eq]

theorem plain_upper (u : Uuid) : Plain u.upper.toList := by
  have hdigit : ∀ d : Fin 16, hexUpper d ≠ ',' ∧ hexUpper d ≠ '"' ∧ hexUpper d ≠ '\n' := by decide
  intro c hc
  have hmem : c = '-' ∨ c ∈ u.digits.map hexUpper := by
    rw [Uuid.upper, String.toList_ofList] at hc
    simp only [List.mem_append, List.mem_cons] at hc
    rcases hc with (((hc | rfl | hc) | rfl | hc) | rfl | hc) | rfl | hc
    all_goals first
      | exact .inl rfl
      | exact .inr (List.mem_of_mem_take hc)
      | exact .inr (List.mem_of_mem_drop (List.mem_of_mem_take hc))
      | exact .inr (List.mem_of_mem_drop hc)
  rcases hmem with rfl | hmem
  · decide
  · obtain ⟨d, -, rfl⟩ := List.mem_map.1 hmem
    exact hdigit d

theorem plain_safeName {name : String} (h : safeName name = true) : Plain name.toList := by
  intro c hc
  simp only [safeName, Bool.and_eq_true, List.all_eq_true] at h
  have hsafe := h.2 c hc
  refine ⟨?_, ?_, ?_⟩ <;> rintro rfl <;> exact absurd hsafe (by decide)

theorem plain_default (type : PartitionTableType) : Plain (defaultPartitionType type).toList := by
  cases type <;> decide

/-- A new partition has the requested type or the default one, a PARTUUID on a GPT disk and the
requested name, which is a safe one. -/
structure NewTexts (uuid : Uuid) (type : PartitionTableType) (typeCode name : Option String)
    (p : PartitionResource) : Prop where
  typeCode_eq : p.typeCode = some (textOr typeCode (defaultPartitionType type))
  partuuid_eq : p.partuuid = if type = .gpt then some uuid.upper else none
  name_eq : p.name = name
  attrs_eq : p.attrs = none
  bootable_eq : p.bootable = false
  safe : ∀ text, name = some text → safeName text = true

theorem newPartitionResource_texts {uuid : Uuid}
    {number start sectors sectorSize : Nat} {typeCode name : Option String}
    (h : newPartitionResource lib uuid identity type number start sectors sectorSize typeCode name =
      .ok p) : NewTexts uuid type typeCode name p := by
  rw [newPartitionResource] at h
  split at h
  · cases h
  · next hname =>
    obtain rfl := checked_ok h
    refine ⟨rfl, rfl, rfl, rfl, rfl, fun text htext => ?_⟩
    simpa [htext] using hname

/-- The reader takes the text for one value of one line; if more follows, the text also has to close
its quotes. -/
def ValueReadable (followed : Bool) (text : String) : Prop :=
  '\n' ∉ text.toList ∧ bare ',' '"' false text.toList = true ∧
    (followed = true → quotedAfter '"' false text.toList = false)

theorem valueReadable_of_plain {followed : Bool} {text : String} (h : Plain text.toList) :
    ValueReadable followed text :=
  ⟨newline_not_mem h, bare_of_plain h, fun _ => quotedAfter_of_plain h⟩

variable (type) in
theorem valueReadable_textOr {followed : Bool} {typeCode : Option String} :
    ValueReadable followed (textOr typeCode (defaultPartitionType type)) ↔
      ∀ text, typeCode = some text → ValueReadable followed text := by
  have hdefault : ValueReadable followed (defaultPartitionType type) :=
    valueReadable_of_plain (plain_default type)
  cases typeCode with
  | none => exact ⟨fun _ text h => (nomatch h), fun _ => hdefault⟩
  | some text =>
    have hall : (∀ other, some text = some other → ValueReadable followed other) ↔
        ValueReadable followed text := by simp
    rw [hall]
    by_cases hempty : text = ""
    · subst hempty
      refine ⟨fun _ => valueReadable_of_plain (List.forall_mem_nil _), fun _ => ?_⟩
      simpa [textOr, nonempty] using hdefault
    · simp [textOr, nonempty, hempty]

theorem bare_quoted {name : String} (h : Plain name.toList) :
    bare ',' '"' false ("\"" ++ name ++ "\"").toList = true := by
  have hrest := bare_plain h true ['"']
  simp only [String.toList_append]
  change bare ',' '"' false ('"' :: (name.toList ++ ['"'])) = true
  rw [bare]
  simpa [quoteStep] using hrest.trans (by decide)

theorem textOr_nonempty (typeCode : Option String) :
    nonempty (textOr typeCode (defaultPartitionType type)) =
      some (textOr typeCode (defaultPartitionType type)) := by
  have hdefault : defaultPartitionType type ≠ "" := by cases type <;> decide
  cases typeCode with
  | none => simp [textOr, nonempty, hdefault]
  | some text => by_cases hempty : text = "" <;> simp [textOr, nonempty, hempty, hdefault]

theorem NewTexts.texts_eq {uuid : Uuid} {typeCode name : Option String}
    (h : NewTexts uuid type typeCode name p) :
    texts type p = ("type", some (textOr typeCode (defaultPartitionType type))) ::
      if type = .gpt then ("uuid", some uuid.upper) ::
        (name.map fun text => ("name", some ("\"" ++ text ++ "\""))).toList
      else [] := by
  have hupper : nonempty uuid.upper = some uuid.upper := by
    rw [nonempty, if_neg]
    intro hempty
    have := congrArg (fun text : String => '-' ∈ text.toList) hempty
    simp [Uuid.upper] at this
  have hname : name.bind nonempty = name := by
    cases hname : name with
    | none => rfl
    | some text =>
      have hne : text ≠ "" := by
        rintro rfl
        exact absurd (h.safe _ hname) (by decide)
      simp [nonempty, hne]
  rw [texts, h.typeCode_eq, h.partuuid_eq, h.name_eq, h.attrs_eq, h.bootable_eq]
  by_cases hgpt : type = .gpt
  · simp [gptText, hgpt, textOr_nonempty, hupper, hname]
  · simp [gptText, hgpt, textOr_nonempty]

/-- The row of a new partition is read back exactly when the requested type allows it; on a GPT disk
the PARTUUID follows. -/
theorem new_row_iff {uuid : Uuid} {typeCode name : Option String}
    (h : NewTexts uuid type typeCode name p) :
    RowFaithful type p ↔ ∀ text, typeCode = some text → ValueReadable (type = .gpt) text := by
  rw [← valueReadable_textOr type, RowFaithful, rowReadable_iff, h.texts_eq, ValueReadable]
  have hupper := plain_upper uuid
  have hsafe : ∀ text, name = some text → Plain text.toList := fun text htext =>
    plain_safeName (h.safe text htext)
  by_cases hgpt : type = .gpt
  · have hline := newline_not_mem hupper
    have hbare := bare_of_plain hupper
    have hclosed := quotedAfter_of_plain hupper
    cases hname : name with
    | none => simp [hgpt, entryValue, hline, hbare]
    | some text =>
      have hquoted := bare_quoted (hsafe text hname)
      have htext := newline_not_mem (hsafe text hname)
      simp [hgpt, entryValue, hline, hbare, hclosed, htext] at hquoted ⊢
      tauto
  · simp [hgpt, entryValue]

/-! ### The texts of a proposed table -/

def keptPartitions (request : DeclarativeStorageOperationRequest) (table : PartitionTable) :
    List PartitionResource :=
  let others := table.partitions.filter fun item => request.partitionNumber ≠ some item.number
  match request.operation with
  | .create => if table.type = .unknown then [] else table.partitions
  | .delete => others
  | .resize | .move =>
    others ++ (table.partitions.find? fun item => request.partitionNumber = some item.number).toList

def plannedType (request : DeclarativeStorageOperationRequest) (table : PartitionTable) :
    PartitionTableType :=
  if request.operation = .create ∧ table.type = .unknown then request.tableType.getD .unknown
  else table.type

/-- The rows of the partitions that stay are readable, and so is the requested type. -/
def InputsReadable (request : DeclarativeStorageOperationRequest) (table : PartitionTable) : Prop :=
  (∀ q ∈ keptPartitions request table, RowReadable (plannedType request table) q) ∧
    (request.operation = .create → ∀ text, request.partitionType = some text →
      ValueReadable (plannedType request table = .gpt) text)

theorem withPartitions_mem {partitions : List PartitionResource} :
    p ∈ (withPartitions lib table partitions).partitions ↔ p ∈ partitions :=
  (withPartitions_perm lib table partitions).mem_iff

theorem findPartition_spec {partitions : List PartitionResource} {number : Option Nat}
    (h : findPartition partitions number = .ok p) :
    number = some p.number ∧
      partitions.find? (fun item => number = some item.number) = some p := by
  unfold findPartition at h
  split at h
  · cases h
  · next n =>
    split at h
    · next found hfind =>
      obtain rfl := Except.ok.inj h
      have hnumber : found.number = n := by simpa using List.find?_some hfind
      have htest : (fun item : PartitionResource => decide (some n = some item.number)) =
          fun item => decide (item.number = n) := by
        funext item
        simp [eq_comm]
      exact ⟨by rw [hnumber], by rw [htest]; exact hfind⟩
    · cases h

/-- What texts decide holds of every partition of the changed table exactly when it holds of the
other partitions and of the one that is changed. -/
theorem replacePartition_forall {number : Option Nat} {changed : PartitionResource}
    (htarget : findPartition table.partitions number = .ok p) (hsame : SameTexts p changed)
    (hnumber : changed.number = p.number) :
    (∀ q ∈ (replacePartition lib table changed).partitions, RowFaithful type q) ↔
      ∀ q ∈ (table.partitions.filter fun item => number ≠ some item.number) ++
        (table.partitions.find? fun item => number = some item.number).toList,
        RowFaithful type q := by
  obtain ⟨rfl, hfind⟩ := findPartition_spec htarget
  have hmem := List.mem_of_find?_eq_some hfind
  rw [hfind]
  constructor
  · intro hall q hq
    rcases List.mem_append.1 hq with hq | hq
    · obtain ⟨hq, hne⟩ := List.mem_filter.1 hq
      have hne : q.number ≠ p.number := fun heq => by simp [heq] at hne
      refine hall q (withPartitions_mem.2 (List.mem_map.2 ⟨q, hq, ?_⟩))
      rw [if_neg (by rw [hnumber]; exact hne)]
    · obtain rfl : q = p := by simpa using hq
      refine hsame.rowFaithful.2 (hall changed (withPartitions_mem.2 (List.mem_map.2 ⟨q, hmem, ?_⟩)))
      rw [if_pos hnumber.symm]
  · intro hall q hq
    obtain ⟨item, hitem, rfl⟩ := List.mem_map.1 (withPartitions_mem.1 hq)
    split
    · exact hsame.rowFaithful.1 (hall p (by simp))
    · next hne =>
      refine hall item (List.mem_append_left _ (List.mem_filter.2 ⟨hitem, ?_⟩))
      rw [hnumber] at hne
      exact decide_eq_true fun heq => hne (Option.some.inj heq).symm

theorem buildEmptyTable_type {guid : String}
    (h : buildEmptyTable lib identity type guid = .ok table) :
    table.type = type ∧ table.guid = some guid := by
  obtain ⟨first, last, total, hchecked⟩ := buildEmptyTable_spec h
  rw [(checked_table hchecked).2]
  exact ⟨rfl, rfl⟩

theorem plain_hex (u : Uuid) : Plain u.hex.toList := by
  have hdigit : ∀ d : Fin 16, hexLower d ≠ ',' ∧ hexLower d ≠ '"' ∧ hexLower d ≠ '\n' := by decide
  intro c hc
  rw [Uuid.hex, String.toList_ofList] at hc
  obtain ⟨d, -, rfl⟩ := List.mem_map.1 hc
  exact hdigit d

theorem newline_not_mem_diskId (u : Uuid) : '\n' ∉ ("0x" ++ takeChars 8 u.hex).toList := by
  intro hmem
  rw [String.toList_append, List.mem_append] at hmem
  rcases hmem with hmem | hmem
  · exact absurd hmem (by decide)
  · rw [takeChars, String.toList_ofList] at hmem
    exact newline_not_mem (plain_hex u) (List.mem_of_mem_take hmem)

/-- The table that gets the partition has the planned type, a label id of one line and the kept
partitions. -/
theorem workingTable_texts (hone : OneLineTable original.partitionTable)
    (hcreate : request.operation = .create)
    (h : workingTable lib uuids request original = .ok table) :
    table.type = plannedType request original.partitionTable ∧
      (∀ guid, table.guid = some guid → '\n' ∉ guid.toList) ∧
      table.partitions = keptPartitions request original.partitionTable := by
  rw [plannedType, keptPartitions, hcreate]
  rw [workingTable] at h
  split at h
  · next htype =>
    split at h
    · next hrequest =>
      obtain ⟨htable, hguid⟩ := buildEmptyTable_type h
      refine ⟨by simp [htype, hrequest, htable], fun guid hg => ?_, ?_⟩
      · rw [hguid] at hg
        exact Option.some.inj hg ▸ newline_not_mem (plain_upper uuids.table)
      · simp [htype, buildEmptyTable_partitions h]
    · next hrequest =>
      obtain ⟨htable, hguid⟩ := buildEmptyTable_type h
      refine ⟨by simp [htype, hrequest, htable], fun guid hg => ?_, ?_⟩
      · rw [hguid] at hg
        exact Option.some.inj hg ▸ newline_not_mem_diskId uuids.table
      · simp [htype, buildEmptyTable_partitions h]
    · cases h
  · next htype =>
    split at h
    · cases h
    · obtain rfl := Except.ok.inj h
      exact ⟨by simp [htype], hone.guid, by simp [htype]⟩

theorem placePartition_texts {count : SectorCount}
    (h : placePartition count lib uuids request identity table = .ok p) :
    NewTexts uuids.partition table.type request.partitionType request.partitionName p := by
  rw [placePartition] at h
  split at h
  · obtain ⟨sectors, -, h⟩ := bind_eq_ok (x := count _ _) h
    dsimp only at h
    split at h
    · cases h
    · obtain ⟨number, -, h⟩ := bind_eq_ok (x := nextPartitionNumber _ _) h
      exact newPartitionResource_texts (mapError_eq_ok h)
  · cases h
  · cases h

theorem changed_spec {target : PartitionResource}
    (h : (∃ size, planResize lib size table target = .ok proposed) ∨
      ∃ start, planMove lib start table target = .ok proposed) :
    ∃ changed, proposed = replacePartition lib table changed ∧ SameTexts target changed ∧
      changed.number = target.number := by
  rcases h with ⟨size, h⟩ | ⟨start, h⟩
  · obtain ⟨sectors, -, hproposed, -⟩ := planResize_ok h
    exact ⟨_, hproposed, ⟨rfl, rfl, rfl, rfl, rfl⟩, rfl⟩
  · exact ⟨_, (planMove_ok h).1, ⟨rfl, rfl, rfl, rfl, rfl⟩, rfl⟩

theorem keptPartitions_subset (hq : q ∈ keptPartitions request table) : q ∈ table.partitions := by
  rw [keptPartitions] at hq
  cases hop : request.operation with
  | create =>
    simp only [hop] at hq
    split at hq
    · cases hq
    · exact hq
  | delete =>
    simp only [hop] at hq
    exact (List.mem_filter.1 hq).1
  | resize | move =>
    simp only [hop, List.mem_append] at hq
    rcases hq with hq | hq
    · exact (List.mem_filter.1 hq).1
    · exact List.mem_of_find?_eq_some (Option.mem_toList.1 hq)

theorem kept_rowFaithful (hone : OneLineTable table) (hq : q ∈ keptPartitions request table) :
    RowFaithful type q ↔ RowReadable type q :=
  ⟨(·.2), fun hread => ⟨fun _ he =>
    oneLine_texts (hone.partitions q (keptPartitions_subset hq)) he, hread⟩⟩

theorem inputsReadable_iff (hone : OneLineTable table) (hne : request.operation ≠ .create) :
    InputsReadable request table ↔
      ∀ q ∈ keptPartitions request table, RowFaithful table.type q := by
  have htype : plannedType request table = table.type := by simp [plannedType, hne]
  rw [InputsReadable, htype]
  constructor
  · intro hread q hq
    exact (kept_rowFaithful hone hq).2 (hread.1 q hq)
  · intro hall
    exact ⟨fun q hq => (kept_rowFaithful hone hq).1 (hall q hq), fun hc => absurd hc hne⟩

theorem replaced_texts (hone : OneLineTable table)
    (hop : request.operation = .resize ∨ request.operation = .move)
    (htarget : findPartition table.partitions request.partitionNumber = .ok p)
    (h : ∃ changed, proposed = replacePartition lib table changed ∧ SameTexts p changed ∧
      changed.number = p.number) :
    proposed.type = plannedType request table ∧
      (∀ guid, proposed.guid = some guid → '\n' ∉ guid.toList) ∧
      ((∀ q ∈ proposed.partitions, RowFaithful proposed.type q) ↔ InputsReadable request table) := by
  obtain ⟨changed, rfl, hsame, hnumber⟩ := h
  have hne : request.operation ≠ .create := by
    rcases hop with hop | hop <;> simp [hop]
  have hkept : keptPartitions request table =
      (table.partitions.filter fun item => request.partitionNumber ≠ some item.number) ++
        (table.partitions.find? fun item => request.partitionNumber = some item.number).toList := by
    rcases hop with hop | hop <;> simp only [keptPartitions, hop]
  refine ⟨by rw [plannedType, if_neg (fun h => hne h.1)]; rfl, hone.guid, ?_⟩
  rw [inputsReadable_iff hone hne, hkept]
  exact replacePartition_forall htarget hsame hnumber

/-- What a plan does to the texts of the disk. -/
theorem proposedTable_texts (hone : OneLineTable original.partitionTable)
    (h : proposedTable lib uuids request original = .ok (proposed, p)) :
    proposed.type = plannedType request original.partitionTable ∧
      (∀ guid, proposed.guid = some guid → '\n' ∉ guid.toList) ∧
      ((∀ q ∈ proposed.partitions, RowFaithful proposed.type q) ↔
        InputsReadable request original.partitionTable) := by
  unfold proposedTable at h
  split at h
  · next hop =>
    obtain ⟨table, htable, hplace, rfl⟩ := planCreateBy_spec h
    obtain ⟨htype, hguid, hpartitions⟩ := workingTable_texts hone hop htable
    have hnew := new_row_iff (placePartition_texts hplace)
    refine ⟨htype, hguid, ?_⟩
    change (∀ q ∈ (withPartitions lib table _).partitions, RowFaithful table.type q) ↔ _
    simp only [withPartitions_mem, List.mem_append, List.mem_singleton, or_imp, forall_and,
      forall_eq, hpartitions]
    rw [InputsReadable, hnew, htype]
    exact and_congr (forall₂_congr fun q hq => kept_rowFaithful hone hq) (by simp [hop])
  · next hop =>
    obtain ⟨target, htarget, h⟩ := bind_eq_ok h
    obtain ⟨rfl, rfl⟩ := Prod.mk.inj (Except.ok.inj h)
    have hne : request.operation ≠ .create := by simp [hop]
    refine ⟨by rw [plannedType, if_neg (fun h => hne h.1)]; rfl, hone.guid, ?_⟩
    rw [inputsReadable_iff hone hne, keptPartitions, hop, (findPartition_spec htarget).1]
    have hsame : ∀ q : PartitionResource, decide (q.number ≠ target.number) =
        decide (some target.number ≠ some q.number) := by
      intro q
      by_cases heq : q.number = target.number
      · simp [heq]
      · simp [heq, Ne.symm heq]
    refine forall_congr' fun q => ?_
    rw [withPartitions_mem, List.mem_filter, List.mem_filter, hsame]
    rfl
  · next hop =>
    obtain ⟨target, htarget, h⟩ := bind_eq_ok h
    split at h
    · obtain ⟨t, hchanged, h⟩ := bind_eq_ok h
      obtain ⟨rfl, rfl⟩ := Prod.mk.inj (Except.ok.inj h)
      exact replaced_texts hone (.inl hop) htarget (changed_spec (.inl ⟨_, hchanged⟩))
    · cases h
  · next hop =>
    obtain ⟨target, htarget, h⟩ := bind_eq_ok h
    split at h
    · obtain ⟨t, hchanged, h⟩ := bind_eq_ok h
      obtain ⟨rfl, rfl⟩ := Prod.mk.inj (Except.ok.inj h)
      exact replaced_texts hone (.inr hop) htarget (changed_spec (.inr ⟨_, hchanged⟩))
    · cases h

/-- The script of an accepted plan says the proposed table exactly when the rows of the partitions
that stay and the requested type are readable. -/
theorem script_faithful_iff (hprint : lib.isprintable '\n' = false) (hinspected : Inspected lib original)
    (h : proposedTable lib uuids request original = .ok (proposed, p))
    (hscript : renderSfdiskScript proposed = .ok script) :
    Faithful proposed script ↔ InputsReadable request original.partitionTable := by
  obtain ⟨-, hguid, hiff⟩ := proposedTable_texts (inspected_oneLine hprint hinspected) h
  rw [faithful_iff hscript, ← hiff]
  constructor
  · rintro ⟨hlines, hrows⟩ q hq
    exact rowFaithful_iff.2 ⟨hlines.values q hq, hrows q hq⟩
  · intro hall
    refine ⟨⟨fun guid hg => hguid guid (bind_nonempty hg), fun q hq => ?_⟩, fun q hq => ?_⟩
    · exact (rowFaithful_iff.1 (hall q hq)).1
    · exact (hall q hq).2

/-- An MBR disk with one partition. -/
def mbrSfdisk : Option Json := sampleSfdisk "dos" [sampleItem 2048 2048]

/-- A request whose partition type brings a field of its own. -/
def injectingRequest : DeclarativeStorageOperationRequest :=
  { createRequest none 1048576 with partitionType := some "83, bootable" }

theorem script_faithful_iff_sample : ∃ proposed p script,
    proposedTable sampleTables sampleUuids injectingRequest (inspectedLayout mbrSfdisk) =
      .ok (proposed, p) ∧
    renderSfdiskScript proposed = .ok script ∧
    (Faithful proposed script ↔
      InputsReadable injectingRequest (inspectedLayout mbrSfdisk).partitionTable) := by
  obtain ⟨⟨proposed, p⟩, hplan, hok⟩ := map_eq_ok (b := true)
    (f := fun r => (renderSfdiskScript r.1).isOk)
    (x := proposedTable sampleTables sampleUuids injectingRequest (inspectedLayout mbrSfdisk))
    (by decide +kernel)
  cases hscript : renderSfdiskScript proposed with
  | error e => simp [hscript, Except.isOk, Except.toBool] at hok
  | ok script =>
    exact ⟨proposed, p, script, hplan, hscript, script_faithful_iff (by decide)
      (inspected_sample (by decide +kernel)) hplan hscript⟩

/-- The requested type `83, bootable` sets the boot flag of a partition that has none. -/
theorem request_adds_field : ¬ ∀ (lib : TableLibrary) (uuids : Uuids)
    (request : DeclarativeStorageOperationRequest) (original : StorageLayout)
    (proposed : PartitionTable) (p : PartitionResource) (script : String),
    lib.isprintable '\n' = false → Inspected lib original → request.valid = true →
    proposedTable lib uuids request original = .ok (proposed, p) →
    renderSfdiskScript proposed = .ok script → Faithful proposed script := by
  intro h
  obtain ⟨⟨proposed, p⟩, hplan, hok⟩ := map_eq_ok (b := (true, false))
    (f := fun r => ((renderSfdiskScript r.1).isOk,
      r.1.partitions.all fun q => decide (RowReadable r.1.type q)))
    (x := proposedTable sampleTables sampleUuids injectingRequest (inspectedLayout mbrSfdisk))
    (by decide +kernel)
  obtain ⟨hok, hrows⟩ := Prod.mk.inj hok
  cases hscript : renderSfdiskScript proposed with
  | error e => simp [hscript, Except.isOk, Except.toBool] at hok
  | ok script =>
    have hfaithful := h _ _ _ _ _ _ script (by decide) (inspected_sample (by decide +kernel))
      (by decide +kernel) hplan hscript
    have hall := ((faithful_iff hscript).1 hfaithful).2
    rw [List.all_eq_true.2 fun q hq => decide_eq_true (hall q hq)] at hrows
    cases hrows

end Ares.Operations
