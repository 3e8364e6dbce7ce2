import Ares.Storage.Devices
import Ares.Storage.Script

/-! The geometry that the check after a write compares, and how much of it the script determines. -/

namespace Ares.Storage

open Data

variable {lib : Library} {type : PartitionTableType} {p q : PartitionResource}
  {table left right : PartitionTable} {script : String}

/-! ### The compared geometry -/

/-- The geometry of a table up to the case of its letters. -/
def foldedSignature (lib : Library) (table : PartitionTable) : GeometrySignature :=
  let s := partitionGeometrySignature lib table
  { s with
    guid := s.guid.map lib.casefold
    partitions := s.partitions.map fun q => { q with name := q.name.map lib.casefold } }

/-- What the comparison looks at in a partition and its row does not have. -/
structure LeftOut where
  number : Nat
  named : Bool
  mbrTexts : Option (String × Option String)
  gptBootable : Option Bool
deriving DecidableEq

def leftOut (lib : Library) (type : PartitionTableType) (p : PartitionResource) : LeftOut where
  number := p.number
  named := p.name.isSome
  mbrTexts :=
    if type = .gpt then none
    else some (lib.casefold (p.partuuid.getD ""), p.name.map lib.casefold)
  gptBootable := if type = .gpt then some p.bootable else none

/-- What the comparison looks at in a partition and its row has. -/
structure Written where
  startSector : Nat
  sizeSectors : Nat
  typeCode : String
  gptTexts : Option (String × String)
  mbrBootable : Option Bool
deriving DecidableEq

def written (lib : Library) (type : PartitionTableType) (p : PartitionResource) : Written where
  startSector := p.startSector
  sizeSectors := p.sizeSectors
  typeCode := lib.casefold (p.typeCode.getD "")
  gptTexts :=
    if type = .gpt then some (lib.casefold (p.partuuid.getD ""), lib.casefold (p.name.getD ""))
    else none
  mbrBootable := if type = .gpt then none else some p.bootable

/-- The tables agree on what the script leaves out: the partition numbers, whether there is a label
id and a name at all, the names and PARTUUIDs of MBR partitions and the boot flags of GPT ones. -/
def AgreeLeftOut (lib : Library) (left right : PartitionTable) : Prop :=
  left.guid.isSome = right.guid.isSome ∧
    left.byNumber.map (leftOut lib left.type) = right.byNumber.map (leftOut lib right.type)

/-- The tables agree on what the script has. -/
def AgreeWritten (lib : Library) (left right : PartitionTable) : Prop :=
  left.type = right.type ∧
    lib.casefold (left.guid.getD "") = lib.casefold (right.guid.getD "") ∧
    left.sectorSize = right.sectorSize ∧
    left.byNumber.map (written lib left.type) = right.byNumber.map (written lib right.type)

theorem optionMap_eq_iff {f : String → String} {a b : Option String} :
    a.map f = b.map f ↔ a.isSome = b.isSome ∧ f (a.getD "") = f (b.getD "") := by
  cases a <;> cases b <;> simp

theorem map_eq_map_iff_of_joint {α β γ δ : Type} {f : α → β} {g : α → γ} {h : α → δ}
    (hj : ∀ a b, f a = f b ↔ g a = g b ∧ h a = h b) (l r : List α) :
    l.map f = r.map f ↔ l.map g = r.map g ∧ l.map h = r.map h := by
  induction l generalizing r with
  | nil => cases r <;> simp
  | cons a l ih =>
    cases r with
    | nil => simp
    | cons b r =>
      simp only [List.map_cons, List.cons.injEq, hj, ih]
      tauto

theorem map_eq_of_map_eq {α β γ : Type} {f : α → β} {g : α → γ} (hfg : ∀ a b, f a = f b → g a = g b)
    {l r : List α} (h : l.map f = r.map f) : l.map g = r.map g := by
  induction l generalizing r with
  | nil => cases r <;> simp_all
  | cons a l ih =>
    cases r with
    | nil => cases h
    | cons b r =>
      rw [List.map_cons, List.map_cons, List.cons.injEq] at h
      rw [List.map_cons, List.map_cons, hfg a b h.1, ih h.2]

def compared (lib : Library) (p : PartitionResource) : PartitionSignature where
  number := p.number
  startSector := p.startSector
  sizeSectors := p.sizeSectors
  typeCode := lib.casefold (p.typeCode.getD "")
  partuuid := lib.casefold (p.partuuid.getD "")
  name := p.name.map lib.casefold
  bootable := p.bootable

theorem compared_eq_iff (type : PartitionTableType) (p q : PartitionResource) :
    compared lib p = compared lib q ↔
      leftOut lib type p = leftOut lib type q ∧ written lib type p = written lib type q := by
  simp only [compared, leftOut, written, PartitionSignature.mk.injEq, LeftOut.mk.injEq,
    Written.mk.injEq]
  by_cases hgpt : type = .gpt
  · simp only [hgpt, if_true, Option.some.injEq, Prod.mk.injEq, optionMap_eq_iff]
    tauto
  · simp only [hgpt, if_false, Option.some.injEq, Prod.mk.injEq, optionMap_eq_iff]
    tauto

theorem value_injective : Function.Injective PartitionTableType.value := by
  intro a b h
  cases a <;> cases b <;> first | rfl | (revert h; decide)

/-- Two tables have the same geometry exactly when they agree on what the script leaves out and on
what it has. -/
theorem foldedSignature_eq_iff : foldedSignature lib left = foldedSignature lib right ↔
      AgreeLeftOut lib left right ∧ AgreeWritten lib left right := by
  have hfold : ∀ t : PartitionTable, foldedSignature lib t =
      ⟨t.type.value, t.guid.map lib.casefold, t.sectorSize, t.byNumber.map (compared lib)⟩ := by
    intro t
    simp [foldedSignature, partitionGeometrySignature, PartitionTable.byNumber, compared]
  rw [hfold, hfold, GeometrySignature.mk.injEq, value_injective.eq_iff, optionMap_eq_iff,
    AgreeLeftOut, AgreeWritten]
  by_cases htype : left.type = right.type
  · rw [htype, map_eq_map_iff_of_joint (compared_eq_iff right.type)]
    tauto
  · simp [htype]

/-! ### What the script determines -/

/-- The script of the table is read back to the table. -/
def Readable (table : PartitionTable) : Prop :=
  OneLiners table ∧ ∀ p ∈ table.partitions, RowReadable table.type p

def valuesOf (key : String) (es : List (String × Option String)) : List (Option String) :=
  es.filterMap fun e => if e.1 = key then some e.2 else none

theorem valuesOf_append (key : String) (es fs : List (String × Option String)) :
    valuesOf key (es ++ fs) = valuesOf key es ++ valuesOf key fs := List.filterMap_append

theorem valuesOf_toList (key key' : String) (f : String → String) (o : Option String) :
    valuesOf key (o.map fun v => (key', some (f v))).toList =
      if key' = key then (o.map fun v => some (f v)).toList else [] := by
  by_cases hkey : key' = key <;> cases o <;> simp [valuesOf, hkey]

theorem valuesOf_entries (key : String) (type : PartitionTableType) (p : PartitionResource) :
    valuesOf key (entries type p) =
      (if "start" = key then [some (toString p.startSector)] else []) ++
      (if "size" = key then [some (toString p.sizeSectors)] else []) ++
      (if "type" = key then ((p.typeCode.bind nonempty).map some).toList else []) ++
      (if "uuid" = key then ((gptText type p.partuuid).map some).toList else []) ++
      (if "name" = key then
        ((gptText type p.name).map fun v => some ("\"" ++ v ++ "\"")).toList else []) ++
      (if "attrs" = key then ((gptText type p.attrs).map some).toList else []) ++
      (if "bootable" = key ∧ (p.bootable && type = .mbr) = true then [none] else []) := by
  simp only [entries, texts, valuesOf_append, ← List.append_assoc]
  congr 1
  · congr 1
    · congr 1
      · congr 1
        · congr 1
          · by_cases hstart : "start" = key <;> by_cases hsize : "size" = key <;>
              simp [valuesOf, hstart, hsize]
          · exact valuesOf_toList key "type" id _
        · exact valuesOf_toList key "uuid" id _
      · exact valuesOf_toList key "name" (fun v => "\"" ++ v ++ "\"") _
    · exact valuesOf_toList key "attrs" id _
  · by_cases hkey : "bootable" = key <;> split <;> simp_all [valuesOf]

theorem toList_map_injective {f : String → Option String} (hf : Function.Injective f)
    {a b : Option String} (h : (a.map f).toList = (b.map f).toList) : a = b := by
  cases a <;> cases b <;> simp_all [hf.eq_iff]

theorem getD_nonempty (o : Option String) : (o.bind nonempty).getD "" = o.getD "" := by
  cases o with
  | none => rfl
  | some text =>
    by_cases h : text = "" <;> simp [nonempty, h]

theorem repr_injective : Function.Injective Nat.repr := by
  intro a b h
  have hdigits := congrArg String.toList h
  rw [Nat.toList_repr, Nat.toList_repr] at hdigits
  have hvalue := congrArg (Nat.ofDigitChars 10 · 0) hdigits
  simpa only [Nat.ofDigitChars_ten_toDigits] using hvalue

/-- Two partitions with the same fields agree on what the row has. -/
theorem written_of_entries (h : entries type p = entries type q) (htype : type ≠ .unknown) :
    written lib type p = written lib type q := by
  have hvalues := fun key => congrArg (valuesOf key) h
  simp only [valuesOf_entries] at hvalues
  have hstart : p.startSector = q.startSector := by
    have := hvalues "start"
    exact repr_injective (by simpa using this)
  have hsize : p.sizeSectors = q.sizeSectors := by
    have := hvalues "size"
    exact repr_injective (by simpa using this)
  have hcode : p.typeCode.bind nonempty = q.typeCode.bind nonempty :=
    toList_map_injective (Option.some_injective _) (by
      simpa only [String.reduceEq, if_true, if_false, List.nil_append, List.append_nil, false_and]
        using hvalues "type")
  have huuid : gptText type p.partuuid = gptText type q.partuuid :=
    toList_map_injective (Option.some_injective _) (by
      simpa only [String.reduceEq, if_true, if_false, List.nil_append, List.append_nil, false_and]
        using hvalues "uuid")
  have hname : gptText type p.name = gptText type q.name :=
    toList_map_injective (f := fun v => some ("\"" ++ v ++ "\"")) (fun a b hab => by simpa using hab)
      (by
        simpa only [String.reduceEq, if_true, if_false, List.nil_append, List.append_nil, false_and]
          using hvalues "name")
  have hboot : type = .mbr → p.bootable = q.bootable := by
    intro hmbr
    have := hvalues "bootable"
    cases hp : p.bootable <;> cases hq : q.bootable <;> simp [hmbr, hp, hq] at this ⊢
  have hgpt : ∀ value : Option String, type = .gpt →
      value.getD "" = (gptText type value).getD "" := by
    intro value htype
    rw [gptText, if_pos htype, getD_nonempty]
  rw [written, written, hstart, hsize, ← getD_nonempty p.typeCode, hcode, getD_nonempty]
  cases type with
  | gpt =>
    simp only [if_true]
    rw [hgpt p.partuuid rfl, hgpt p.name rfl, huuid, hname, ← hgpt _ rfl, ← hgpt _ rfl]
  | mbr =>
    simp only [reduceCtorEq, if_false]
    rw [hboot rfl]
  | unknown => exact absurd rfl htype

/-! ### Tables with one script -/

theorem header_injective (h : scriptHeader left = scriptHeader right)
    (hleft : left.type ≠ .unknown) (hright : right.type ≠ .unknown) :
    left.type = right.type ∧ left.sectorSize = right.sectorSize ∧
      left.guid.bind nonempty = right.guid.bind nonempty := by
  simp only [scriptHeader, List.cons_append, List.nil_append, List.cons.injEq, true_and] at h
  obtain ⟨hlabel, hsize, hrest⟩ := h
  have htype : left.type = right.type := by
    cases hl : left.type <;> cases hr : right.type <;> simp_all
  refine ⟨htype, repr_injective (by simpa using hsize), ?_⟩
  rw [htype] at hrest
  have hids := (List.append_inj' hrest (by split <;> rfl)).1
  generalize left.guid.bind nonempty = a at hids ⊢
  generalize right.guid.bind nonempty = b at hids ⊢
  cases a <;> cases b <;> simp only [List.cons.injEq, reduceCtorEq] at hids ⊢
  simpa using hids

theorem agreeWritten_of_script (hleft : renderSfdiskScript left = .ok script)
    (hright : renderSfdiskScript right = .ok script) (hreadl : Readable left)
    (hreadr : Readable right) : AgreeWritten lib left right := by
  obtain ⟨htypel, -, -⟩ := renderSfdiskScript_spec hleft
  obtain ⟨htyper, -, -⟩ := renderSfdiskScript_spec hright
  obtain ⟨rowsl, hsplitl, hrowsl⟩ := (faithful_iff hleft).2 hreadl
  obtain ⟨rowsr, hsplitr, hrowsr⟩ := (faithful_iff hright).2 hreadr
  -- the empty line separates the header from the rows
  have hheader : ∀ t : PartitionTable, ∀ line ∈ (scriptHeader t).map String.toList,
      decide (line ≠ []) = true := by
    intro t line hline
    obtain ⟨text, htext, rfl⟩ := List.mem_map.1 hline
    simpa using scriptHeader_lines.1 text htext
  have hlines := hsplitl.symm.trans hsplitr
  simp only [List.append_assoc] at hlines
  have hheaders : (scriptHeader left).map String.toList = (scriptHeader right).map String.toList := by
    have htake := congrArg (List.takeWhile fun line => decide (line ≠ [])) hlines
    rw [List.takeWhile_append_of_pos (hheader left),
      List.takeWhile_append_of_pos (hheader right)] at htake
    simpa using htake
  rw [hheaders] at hlines
  have hrows : rowsl = rowsr := by simpa using hlines
  obtain ⟨htype, hsize, hguid⟩ := header_injective
    (List.map_injective_iff.2 (fun _ _ => String.toList_injective) hheaders) htypel htyper
  refine ⟨htype, by rw [← getD_nonempty, hguid, getD_nonempty], hsize, ?_⟩
  rw [hrows, hrowsr, htype] at hrowsl
  rw [htype]
  exact map_eq_of_map_eq (fun p q h => written_of_entries h htyper) hrowsl.symm

/-- Two tables with one script have the same geometry exactly when they agree on what the script
leaves out and, where one of them cannot be read back from it, also on what it has. -/
theorem same_geometry_iff (lib : Library) (hleft : renderSfdiskScript left = .ok script)
    (hright : renderSfdiskScript right = .ok script) :
    foldedSignature lib left = foldedSignature lib right ↔
      AgreeLeftOut lib left right ∧
        (Readable left ∧ Readable right ∨ AgreeWritten lib left right) := by
  rw [foldedSignature_eq_iff]
  constructor
  · rintro ⟨hout, hin⟩
    exact ⟨hout, .inr hin⟩
  · rintro ⟨hout, hread | hin⟩
    · exact ⟨hout, agreeWritten_of_script hleft hright hread.1 hread.2⟩
    · exact ⟨hout, hin⟩

/-- Two partitions of a GPT disk, the second one under the number `n`. -/
def numberedTable (n : Nat) : PartitionTable :=
  sampleTable [samplePartition,
    { samplePartition with number := n, startSector := 4096, endSector := 6143 }]

theorem numberedTable_script : (renderSfdiskScript (numberedTable 2)).isOk = true ∧
      renderSfdiskScript (numberedTable 3) = renderSfdiskScript (numberedTable 2) := by
  decide +kernel

theorem same_geometry_iff_sample : ∃ script,
    renderSfdiskScript (numberedTable 2) = .ok script ∧
      renderSfdiskScript (numberedTable 3) = .ok script ∧
      (foldedSignature sampleDigests (numberedTable 2) =
          foldedSignature sampleDigests (numberedTable 3) ↔
        AgreeLeftOut sampleDigests (numberedTable 2) (numberedTable 3) ∧
          (Readable (numberedTable 2) ∧ Readable (numberedTable 3) ∨
            AgreeWritten sampleDigests (numberedTable 2) (numberedTable 3))) := by
  obtain ⟨hok, hsame⟩ := numberedTable_script
  cases hscript : renderSfdiskScript (numberedTable 2) with
  | error e => simp [hscript, Except.isOk, Except.toBool] at hok
  | ok script =>
    exact ⟨script, rfl, hsame.trans hscript,
      same_geometry_iff sampleDigests hscript (hsame.trans hscript)⟩

/-- Partitions 1 and 3 are written with the script of partitions 1 and 2. -/
theorem script_leaves_numbers_out : ¬ ∀ (lib : Library) (left right : PartitionTable)
    (script : String), renderSfdiskScript left = .ok script →
    renderSfdiskScript right = .ok script →
    foldedSignature lib left = foldedSignature lib right := by
  intro h
  obtain ⟨hok, hsame⟩ := numberedTable_script
  cases hscript : renderSfdiskScript (numberedTable 2) with
  | error e => simp [hscript, Except.isOk, Except.toBool] at hok
  | ok script =>
    have heq := h sampleDigests _ _ script hscript (hsame.trans hscript)
    exact absurd heq (by decide +kernel)

end Ares.Storage
