import Ares.Data.Quoted
import Ares.Storage.Sfdisk

/-! The script that tells `sfdisk` the proposed table, and what a reader of the script finds in it.
The reader takes a script apart at the newlines, a row at the commas outside of double quotes and a
field at its first equals sign. -/

namespace Ares.Storage

open Data

/-! ### The script -/

def scriptHeader (table : PartitionTable) : List String :=
  ["label: " ++ (if table.type = .gpt then "gpt" else "dos"), "unit: sectors",
    "sector-size: " ++ toString table.sectorSize] ++
  (match table.guid.bind nonempty with
    | some guid => ["label-id: " ++ guid]
    | none => []) ++
  (if table.type = .gpt then
    ["first-lba: " ++ toString table.firstUsableSector,
      "last-lba: " ++ toString table.lastUsableSector] else [])

/-- `value and table.type is PartitionTableType.GPT`. -/
def gptText (type : PartitionTableType) (value : Option String) : Option String :=
  if type = .gpt then value.bind nonempty else none

def rowFields (type : PartitionTableType) (p : PartitionResource) :
    Except PartitionError (List String) :=
  if (gptText type p.name).any (!safeName ·) then .error (.tool "STORAGE_PARTITION_NAME_UNSAFE")
  else .ok (
    ["start=" ++ toString p.startSector, "size=" ++ toString p.sizeSectors] ++
    ((p.typeCode.bind nonempty).map ("type=" ++ ·)).toList ++
    ((gptText type p.partuuid).map ("uuid=" ++ ·)).toList ++
    ((gptText type p.name).map fun name => "name=\"" ++ name ++ "\"").toList ++
    ((gptText type p.attrs).map ("attrs=" ++ ·)).toList ++
    (if p.bootable && type = .mbr then ["bootable"] else []))

/-- `sorted(table.partitions, key=lambda item: item.number)`. -/
def PartitionTable.byNumber (table : PartitionTable) : List PartitionResource :=
  table.partitions.insertionSort (·.number ≤ ·.number)

def scriptRows (type : PartitionTableType) :
    List PartitionResource → Except PartitionError (List String)
  | [] => .ok []
  | p :: rest => do
    let fields ← rowFields type p
    let rows ← scriptRows type rest
    pure (", ".intercalate fields :: rows)

def renderSfdiskScript (table : PartitionTable) : Except PartitionError String :=
  if table.type = .unknown then .error (.tool "STORAGE_PARTITION_TABLE_TYPE_REQUIRED")
  else do
    let rows ← scriptRows table.type table.byNumber
    let script := "\n".intercalate (scriptHeader table ++ [""] ++ rows) ++ "\n"
    if 1000000 < script.utf8ByteSize then .error (.tool "STORAGE_PARTITION_SCRIPT_TOO_LARGE")
    else .ok script

/-! ### What the script is to say -/

/-- The texts of a partition by name; the value of a name stands in quotes and a flag has none. -/
def texts (type : PartitionTableType) (p : PartitionResource) : List (String × Option String) :=
  ((p.typeCode.bind nonempty).map fun v => ("type", some v)).toList ++
  ((gptText type p.partuuid).map fun v => ("uuid", some v)).toList ++
  ((gptText type p.name).map fun v => ("name", some ("\"" ++ v ++ "\""))).toList ++
  ((gptText type p.attrs).map fun v => ("attrs", some v)).toList ++
  (if p.bootable && type = .mbr then [("bootable", none)] else [])

/-- The fields of a partition. -/
def entries (type : PartitionTableType) (p : PartitionResource) :
    List (String × Option String) :=
  [("start", some (toString p.startSector)), ("size", some (toString p.sizeSectors))] ++ texts type p

def entryText (e : String × Option String) : String :=
  match e.2 with
  | some value => e.1 ++ "=" ++ value
  | none => e.1

def readEntry (text : List Char) : String × Option String :=
  match text.dropWhile (· ≠ '=') with
  | [] => (String.ofList text, none)
  | _ :: value => (String.ofList (text.takeWhile (· ≠ '=')), some (String.ofList value))

def readRow (row : List Char) : List (String × Option String) :=
  (splitOutside ',' '"' false row).map fun piece => readEntry (dropBlanks ' ' piece)

/-- The script has the header of the table, an empty line and one row for each partition, and the
reader finds the fields of the partition in its row. -/
def Faithful (table : PartitionTable) (script : String) : Prop :=
  ∃ rows, script.toList.splitOn '\n' =
      (scriptHeader table).map String.toList ++ [[]] ++ rows ++ [[]] ∧
    rows.map readRow = table.byNumber.map (entries table.type)

/-! ### Reading a row -/

variable {type : PartitionTableType} {p : PartitionResource} {table : PartitionTable}
  {script : String}

theorem rowFields_spec {fields : List String} (h : rowFields type p = .ok fields) :
    fields = (entries type p).map entryText ∧ (gptText type p.name).all safeName = true := by
  rw [rowFields] at h
  by_cases hname : (gptText type p.name).any (!safeName ·) = true
  · rw [if_pos hname] at h
    cases h
  · rw [if_neg hname] at h
    obtain rfl := Except.ok.inj h
    constructor
    · rw [entries, texts]
      generalize p.typeCode.bind nonempty = typeCode
      generalize gptText type p.partuuid = partuuid
      generalize gptText type p.name = name
      generalize gptText type p.attrs = attrs
      have hquote : ∀ text, "name=\"" ++ text = "name=" ++ ("\"" ++ text) := by
        intro text
        rw [← String.append_assoc]
        rfl
      cases typeCode <;> cases partuuid <;> cases name <;> cases attrs <;>
        split <;> simp [entryText, String.append_assoc, hquote]
    · cases hopt : gptText type p.name with
      | none => rfl
      | some name => simpa [hopt] using hname

theorem entries_key {e : String × Option String} (he : e ∈ entries type p) :
    e.1 ∈ ["start", "size", "type", "uuid", "name", "attrs", "bootable"] := by
  simp only [entries, texts, List.mem_append, List.mem_cons, Option.mem_toList,
    Option.map_eq_some_iff, List.not_mem_nil, or_false] at he
  rcases he with (rfl | rfl) | (((⟨v, -, rfl⟩ | ⟨v, -, rfl⟩) | ⟨v, -, rfl⟩) | ⟨v, -, rfl⟩) | he
  case inr.inr =>
    split at he
    · rw [List.mem_singleton.1 he]
      simp
    · cases he
  all_goals simp

theorem readEntry_entryText {e : String × Option String} (hkey : '=' ∉ e.1.toList) :
    readEntry (entryText e).toList = e := by
  obtain ⟨key, value⟩ := e
  have hall : ∀ c ∈ key.toList, decide (c ≠ '=') = true := by
    intro c hc
    simpa using fun h : c = '=' => hkey (h ▸ hc)
  cases value with
  | none =>
    simp only [entryText, readEntry]
    rw [← List.append_nil key.toList, List.dropWhile_append_of_pos hall]
    simp
  | some value =>
    have htext : (key ++ "=" ++ value).toList = key.toList ++ '=' :: value.toList := by simp
    simp only [entryText, readEntry]
    rw [htext, List.dropWhile_append_of_pos hall, List.takeWhile_append_of_pos hall]
    simp

theorem entryText_readEntry (text : List Char) : (entryText (readEntry text)).toList = text := by
  rw [readEntry]
  split
  · simp [entryText]
  · next c value hdrop =>
    have hc : c = '=' := by
      have hhead := List.head?_dropWhile_not (fun c => decide (c ≠ '=')) text
      rw [hdrop] at hhead
      simpa using hhead
    have htext := List.takeWhile_append_dropWhile (p := fun c => decide (c ≠ '=')) (l := text)
    rw [hdrop, hc] at htext
    simpa [entryText] using htext

theorem readEntry_injective : Function.Injective readEntry := fun a b h => by
  rw [← entryText_readEntry a, h, entryText_readEntry]

/-! ### Rows that are read as they were written -/

def entryValue (e : String × Option String) : String := e.2.getD e.1

/-- No value of the row has a comma outside of double quotes, and all but the last close theirs. -/
def RowReadable (type : PartitionTableType) (p : PartitionResource) : Prop :=
  (∀ e ∈ entries type p, bare ',' '"' false (entryValue e).toList = true) ∧
    ∀ e ∈ (entries type p).dropLast, quotedAfter '"' false (entryValue e).toList = false

instance (type : PartitionTableType) (p : PartitionResource) : Decidable (RowReadable type p) :=
  inferInstanceAs (Decidable (_ ∧ _))

def rowPieces (fields : List String) : List (List Char) :=
  match fields with
  | [] => []
  | first :: rest => first.toList :: rest.map fun field => ' ' :: field.toList

theorem toList_row (fields : List String) :
    (", ".intercalate fields).toList = [','].intercalate (rowPieces fields) := by
  induction fields with
  | nil => rfl
  | cons first rest ih =>
    cases rest with
    | nil => simp [rowPieces]
    | cons second rest =>
      simp only [String.toList_intercalate, rowPieces, List.map_cons] at ih ⊢
      rw [List.intercalate_cons_cons, List.intercalate_cons_cons, List.intercalate_cons_cons_left,
        ← ih]
      simp

def Plain (text : List Char) : Prop := ∀ c ∈ text, c ≠ ',' ∧ c ≠ '"' ∧ c ≠ '\n'

-- Not by instance search, which may go through every character.
instance (text : List Char) : Decidable (Plain text) := List.decidableBAll _ text

theorem quotedAfter_plain {text : List Char} (h : Plain text) (inside : Bool) (rest : List Char) :
    quotedAfter '"' inside (text ++ rest) = quotedAfter '"' inside rest := by
  induction text with
  | nil => rfl
  | cons c cs ih =>
    have hc := h c List.mem_cons_self
    rw [← ih fun d hd => h d (List.mem_cons_of_mem _ hd)]
    simp [quotedAfter, quoteStep, hc.2.1]

theorem bare_plain {text : List Char} (h : Plain text) (inside : Bool) (rest : List Char) :
    bare ',' '"' inside (text ++ rest) = bare ',' '"' inside rest := by
  induction text with
  | nil => rfl
  | cons c cs ih =>
    have hc := h c List.mem_cons_self
    rw [← ih fun d hd => h d (List.mem_cons_of_mem _ hd)]
    simp [bare, quoteStep, hc.1, hc.2.1]

theorem entry_plain {e : String × Option String} (hkey : Plain e.1.toList) :
    ∃ front, Plain front ∧ (entryText e).toList = front ++ (entryValue e).toList := by
  obtain ⟨key, value⟩ := e
  cases value with
  | none => exact ⟨[], by simp [Plain], by simp [entryText, entryValue]⟩
  | some value =>
    refine ⟨key.toList ++ ['='], fun c hc => ?_, by simp [entryText, entryValue]⟩
    rcases List.mem_append.1 hc with hc | hc
    · exact hkey c hc
    · rw [List.mem_singleton.1 hc]
      decide

theorem entries_plain {e : String × Option String} (he : e ∈ entries type p) :
    Plain e.1.toList ∧ '=' ∉ e.1.toList ∧ (entryText e).toList.head? ≠ some ' ' := by
  have hkey := entries_key he
  obtain ⟨key, value⟩ := e
  simp only [List.mem_cons, List.not_mem_nil, or_false] at hkey
  rcases hkey with rfl | rfl | rfl | rfl | rfl | rfl | rfl <;>
    cases value <;> simp [Plain, entryText]

theorem map_rowPieces {β : Type} (f : List Char → β)
    (hf : ∀ front, Plain front → ∀ rest, f (front ++ rest) = f rest)
    {es : List (String × Option String)} (hes : ∀ e ∈ es, Plain e.1.toList) :
    (rowPieces (es.map entryText)).map f = es.map fun e => f (entryValue e).toList := by
  have hvalue : ∀ e ∈ es, f (entryText e).toList = f (entryValue e).toList := by
    intro e he
    obtain ⟨front, hfront, htext⟩ := entry_plain (hes e he)
    rw [htext, hf front hfront]
  have hblank : ∀ text, f (' ' :: text) = f text := fun text => hf [' '] (by simp [Plain]) text
  cases es with
  | nil => rfl
  | cons e es =>
    simp only [List.map_cons, rowPieces, List.map_map, Function.comp_def, hblank,
      hvalue e List.mem_cons_self, List.cons.injEq, true_and]
    exact List.map_congr_left fun d hd => hvalue d (List.mem_cons_of_mem _ hd)

theorem rowPieces_ne_nil : rowPieces ((entries type p).map entryText) ≠ [] := by
  simp [entries, rowPieces]

theorem separable_rowPieces :
    separable ',' '"' false (rowPieces ((entries type p).map entryText)) = true ↔
      RowReadable type p := by
  have hplain : ∀ e ∈ entries type p, Plain e.1.toList := fun e he => (entries_plain he).1
  have hbare := map_rowPieces (bare ',' '"' false) (fun _ h => bare_plain h false) hplain
  have hquoted := map_rowPieces (quotedAfter '"' false) (fun _ h => quotedAfter_plain h false) hplain
  have hbare' : (∀ piece ∈ rowPieces ((entries type p).map entryText),
      bare ',' '"' false piece = true) ↔
        ∀ e ∈ entries type p, bare ',' '"' false (entryValue e).toList = true := by
    rw [← List.forall_mem_map (f := bare ',' '"' false) (P := (· = true)), hbare,
      List.forall_mem_map]
  have hquoted' : (∀ piece ∈ (rowPieces ((entries type p).map entryText)).dropLast,
      quotedAfter '"' false piece = false) ↔
        ∀ e ∈ (entries type p).dropLast, quotedAfter '"' false (entryValue e).toList = false := by
    rw [← List.forall_mem_map (f := quotedAfter '"' false) (P := (· = false)), List.map_dropLast,
      hquoted, ← List.map_dropLast, List.forall_mem_map]
  rw [separable_iff rowPieces_ne_nil, hbare', hquoted']
  rfl

theorem dropBlanks_rowPieces : (rowPieces ((entries type p).map entryText)).map (dropBlanks ' ') =
      (entries type p).map fun e => (entryText e).toList := by
  have hhead : ∀ e ∈ entries type p, dropBlanks ' ' (entryText e).toList = (entryText e).toList := by
    intro e he
    have hne := (entries_plain he).2.2
    cases htext : (entryText e).toList with
    | nil => rfl
    | cons c cs =>
      rw [htext] at hne
      have hc : c ≠ ' ' := by simpa using hne
      simp [dropBlanks, hc]
  have hblank : ∀ text, dropBlanks ' ' (' ' :: text) = dropBlanks ' ' text := fun text => by
    simp [dropBlanks]
  revert hhead
  generalize entries type p = es
  intro hhead
  cases es with
  | nil => rfl
  | cons e es =>
    simp only [List.map_cons, rowPieces, List.map_map, Function.comp_def, hblank,
      hhead e List.mem_cons_self, List.cons.injEq, true_and]
    exact List.map_congr_left fun d hd => hhead d (List.mem_cons_of_mem _ hd)

/-- The row of a partition, as it is written when its name is not refused. -/
def rowText (type : PartitionTableType) (p : PartitionResource) : String :=
  ", ".intercalate ((entries type p).map entryText)

theorem readRow_iff : readRow (rowText type p).toList = entries type p ↔ RowReadable type p := by
  have hread : entries type p =
      (rowPieces ((entries type p).map entryText)).map fun piece =>
        readEntry (dropBlanks ' ' piece) := by
    rw [← Function.comp_def readEntry, ← List.map_map, dropBlanks_rowPieces, List.map_map]
    conv => lhs; rw [← List.map_id (entries type p)]
    exact List.map_congr_left fun e he => (readEntry_entryText (entries_plain he).2.1).symm
  rw [← separable_rowPieces, ← splitOutside_intercalate_iff, ← toList_row, readRow, rowText]
  constructor
  · intro h
    refine eq_of_dropBlanks (show ',' ≠ ' ' by decide) ?_ ?_
    · refine List.map_injective_iff.2 readEntry_injective ?_
      rw [List.map_map, List.map_map]
      exact h.trans hread
    · rw [intercalate_splitOutside, toList_row]
  · intro h
    rw [h]
    exact hread.symm

/-! ### Scripts that are read as they were written -/

theorem scriptRows_spec {ps : List PartitionResource} {rows : List String}
    (h : scriptRows type ps = .ok rows) :
    rows = ps.map (rowText type) ∧ ∀ p ∈ ps, (gptText type p.name).all safeName = true := by
  induction ps generalizing rows with
  | nil =>
    obtain rfl := Except.ok.inj h
    simp
  | cons p ps ih =>
    rw [scriptRows] at h
    cases hfields : rowFields type p with
    | error e =>
      rw [hfields] at h
      cases h
    | ok fields =>
      cases hrows : scriptRows type ps with
      | error e =>
        rw [hfields, hrows] at h
        cases h
      | ok rest =>
        rw [hfields, hrows] at h
        obtain rfl := Except.ok.inj h
        obtain ⟨hfields, hname⟩ := rowFields_spec hfields
        obtain ⟨hrest, hnames⟩ := ih hrows
        rw [hfields, hrest]
        exact ⟨rfl, List.forall_mem_cons.2 ⟨hname, hnames⟩⟩

def scriptLines (table : PartitionTable) : List (List Char) :=
  (scriptHeader table).map String.toList ++ [[]] ++
    table.byNumber.map (fun p => (rowText table.type p).toList) ++ [[]]

theorem renderSfdiskScript_spec (h : renderSfdiskScript table = .ok script) :
    table.type ≠ .unknown ∧ script.toList = ['\n'].intercalate (scriptLines table) ∧
      ∀ p ∈ table.byNumber, (gptText table.type p.name).all safeName = true := by
  rw [renderSfdiskScript] at h
  split at h
  · cases h
  · next htype =>
    cases hrows : scriptRows table.type table.byNumber with
    | error e =>
      rw [hrows] at h
      cases h
    | ok rows =>
      rw [hrows] at h
      obtain ⟨rfl, hnames⟩ := scriptRows_spec hrows
      refine ⟨htype, ?_, hnames⟩
      change (if _ then _ else _) = _ at h
      split at h
      · cases h
      · obtain rfl := Except.ok.inj h
        have hjoin := String.intercalate_append_of_ne_nil (s := "\n")
          (l := scriptHeader table ++ [""] ++ table.byNumber.map (rowText table.type)) (m := [""])
          (by simp) (by simp)
        rw [String.intercalate_singleton, String.append_empty] at hjoin
        rw [← hjoin, String.toList_intercalate, scriptLines]
        simp [Function.comp_def]

/-- No value of a partition and no label id has a newline. -/
structure OneLiners (table : PartitionTable) : Prop where
  guid : ∀ guid, table.guid.bind nonempty = some guid → '\n' ∉ guid.toList
  values : ∀ p ∈ table.partitions, ∀ e ∈ entries table.type p, '\n' ∉ (entryValue e).toList

theorem plain_toDigits (n : Nat) : Plain (Nat.toDigits 10 n) := by
  intro c h
  have hdigit : c.isDigit = true := Nat.isDigit_of_mem_toDigits (by decide) (by decide) h
  refine ⟨?_, ?_, ?_⟩ <;> rintro rfl <;> exact absurd hdigit (by decide)

theorem newline_not_mem {text : List Char} (h : Plain text) : '\n' ∉ text := fun hmem =>
  (h _ hmem).2.2 rfl

theorem bare_of_plain {text : List Char} (h : Plain text) : bare ',' '"' false text = true := by
  have := bare_plain h false []
  rwa [List.append_nil] at this

theorem quotedAfter_of_plain {text : List Char} (h : Plain text) :
    quotedAfter '"' false text = false := by
  have := quotedAfter_plain h false []
  rwa [List.append_nil] at this

theorem rowReadable_iff : RowReadable type p ↔
    (∀ e ∈ texts type p, bare ',' '"' false (entryValue e).toList = true) ∧
      ∀ e ∈ (texts type p).dropLast, quotedAfter '"' false (entryValue e).toList = false := by
  have hbare := fun n => bare_of_plain (plain_toDigits n)
  have hclosed := fun n => quotedAfter_of_plain (plain_toDigits n)
  rw [RowReadable, entries]
  cases htexts : texts type p with
  | nil => simp [entryValue, hbare, hclosed]
  | cons e es =>
    rw [List.dropLast_append_of_ne_nil (by simp)]
    simp [entryValue, hbare, hclosed]

theorem scriptHeader_lines : (∀ line ∈ scriptHeader table, line ≠ "") ∧
      ((∀ line ∈ scriptHeader table, '\n' ∉ line.toList) ↔
        ∀ guid, table.guid.bind nonempty = some guid → '\n' ∉ guid.toList) := by
  have hnum := fun n => newline_not_mem (plain_toDigits n)
  rw [scriptHeader]
  generalize table.guid.bind nonempty = guid
  cases guid <;> split <;> split <;> simp_all

theorem newline_not_mem_rowText :
    '\n' ∉ (rowText type p).toList ↔ ∀ e ∈ entries type p, '\n' ∉ (entryValue e).toList := by
  have hplain : ∀ e ∈ entries type p, Plain e.1.toList := fun e he => (entries_plain he).1
  have hmap := map_rowPieces (fun text => decide ('\n' ∈ text))
    (fun front hfront rest => by
      have : '\n' ∉ front := fun h => (hfront _ h).2.2 rfl
      simp [this]) hplain
  have hiff : (∀ piece ∈ rowPieces ((entries type p).map entryText),
      decide ('\n' ∈ piece) = false) ↔
        ∀ e ∈ entries type p, decide ('\n' ∈ (entryValue e).toList) = false := by
    rw [← List.forall_mem_map (f := fun text => decide ('\n' ∈ text)) (P := (· = false)), hmap,
      List.forall_mem_map]
  rw [rowText, toList_row, mem_intercalate (by decide)]
  simpa using hiff

theorem scriptLines_iff : (∀ line ∈ scriptLines table, '\n' ∉ line) ↔ OneLiners table := by
  have hmem : ∀ p, p ∈ table.byNumber ↔ p ∈ table.partitions := fun p =>
    List.mem_insertionSort _
  have hsplit : (∀ line ∈ scriptLines table, '\n' ∉ line) ↔
      (∀ line ∈ scriptHeader table, '\n' ∉ line.toList) ∧
        ∀ p ∈ table.byNumber, '\n' ∉ (rowText table.type p).toList := by
    simp [scriptLines, or_imp, forall_and]
  rw [hsplit, scriptHeader_lines.2]
  constructor
  · rintro ⟨hguid, hrows⟩
    exact ⟨hguid, fun p hp => newline_not_mem_rowText.1 (hrows p ((hmem p).2 hp))⟩
  · rintro ⟨hguid, hvalues⟩
    exact ⟨hguid, fun p hp => newline_not_mem_rowText.2 (hvalues p ((hmem p).1 hp))⟩

theorem faithful_iff (h : renderSfdiskScript table = .ok script) :
    Faithful table script ↔
      OneLiners table ∧ ∀ p ∈ table.partitions, RowReadable table.type p := by
  obtain ⟨-, htext, -⟩ := renderSfdiskScript_spec h
  have hne : scriptLines table ≠ [] := by simp [scriptLines]
  have hmem : ∀ p, p ∈ table.byNumber ↔ p ∈ table.partitions := fun p =>
    List.mem_insertionSort _
  rw [Faithful, htext]
  constructor
  · rintro ⟨rows, hsplit, hrows⟩
    have hlength : rows.length = table.byNumber.length := by
      simpa using congrArg List.length hrows
    have hlines := not_mem_of_length_splitOn hne (by
      rw [hsplit]
      simp [scriptLines, hlength])
    rw [List.splitOn_intercalate '\n' hlines hne, scriptLines] at hsplit
    have hsame : table.byNumber.map (fun p => (rowText table.type p).toList) = rows := by
      simpa using hsplit
    refine ⟨scriptLines_iff.1 hlines, fun p hp => readRow_iff.1 ?_⟩
    rw [← hsame, List.map_map] at hrows
    exact List.map_inj_left.1 hrows p ((hmem p).2 hp)
  · rintro ⟨hlines, hrows⟩
    refine ⟨table.byNumber.map fun p => (rowText table.type p).toList, ?_, ?_⟩
    · exact List.splitOn_intercalate '\n' (scriptLines_iff.2 hlines) hne
    · rw [List.map_map]
      exact List.map_congr_left fun p hp => readRow_iff.2 (hrows p ((hmem p).1 hp))

end Ares.Storage
