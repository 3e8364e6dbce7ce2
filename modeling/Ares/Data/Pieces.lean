import Mathlib.Data.List.Basic

/-! Texts that are split at a word, and texts in which one word is put for another.  The words are
found from left to right and do not overlap. -/

namespace Data

variable {α : Type*} {sep old front rest : List α}

/-! ### Where a word can begin -/

def Inert (word text : List α) : Prop :=
  ∀ back, back ≠ [] → back <:+ text → ∀ rest, ¬ word <+: back ++ rest

theorem Inert.tail {c : α} {word text : List α} (h : Inert word (c :: text)) : Inert word text :=
  fun back hback hsuffix => h back hback (hsuffix.trans (List.suffix_cons c text))

section Marks

variable {mark c : α} {word block : List α}

theorem inert_singleton (h : c ≠ mark) : Inert (mark :: word) [c] := by
  intro back hback hsuffix rest hprefix
  rcases List.suffix_cons_iff.mp hsuffix with rfl | hnil
  · exact h (List.cons_prefix_cons.mp hprefix).1.symm
  · exact hback (List.suffix_nil.mp hnil)

theorem inert_word (hmark : mark ∉ block) (hlength : block.length = word.length)
    (hne : block ≠ word) : Inert (mark :: word) (mark :: block) := by
  intro back hback hsuffix rest hprefix
  rcases List.suffix_cons_iff.mp hsuffix with rfl | hinside
  · have hword := (List.cons_prefix_cons.mp hprefix).2
    have hblock := List.prefix_of_prefix_length_le (List.prefix_append block rest) hword
      (Nat.le_of_eq hlength)
    exact hne (hblock.eq_of_length hlength)
  · obtain ⟨d, tail, rfl⟩ := List.exists_cons_of_ne_nil hback
    obtain rfl := (List.cons_prefix_cons.mp hprefix).1
    exact hmark (hinside.subset List.mem_cons_self)

end Marks

/-! ### Splitting -/

variable [DecidableEq α]

/-- The pieces between the separators, while `skip` characters of a separator are still to pass. -/
def splitFrom (sep : List α) : Nat → List α → List (List α)
  | _, [] => [[]]
  | skip + 1, _ :: rest => splitFrom sep skip rest
  | 0, c :: rest =>
    if sep.isPrefixOf (c :: rest) then [] :: splitFrom sep (sep.length - 1) rest
    else (splitFrom sep 0 rest).modifyHead (c :: ·)

/-- `text.split(sep)` for a separator that is not empty. -/
def pieces (sep text : List α) : List (List α) := splitFrom sep 0 text

theorem splitFrom_ne_nil (sep : List α) (skip : Nat) (text : List α) :
    splitFrom sep skip text ≠ [] := by
  fun_induction splitFrom sep skip text with
  | case1 | case3 => simp
  | case2 skip c rest ih => exact ih
  | case4 c rest h ih => simpa using ih

theorem pieces_ne_nil (sep text : List α) : pieces sep text ≠ [] := splitFrom_ne_nil sep 0 text

theorem splitFrom_append (front rest : List α) :
    splitFrom sep front.length (front ++ rest) = pieces sep rest := by
  induction front with
  | nil => rfl
  | cons c front ih => exact ih

theorem pieces_cons_of_not {c : α} (h : ¬ sep <+: c :: rest) :
    pieces sep (c :: rest) = (pieces sep rest).modifyHead (c :: ·) :=
  if_neg (by rwa [List.isPrefixOf_iff_prefix])

theorem pieces_sep (hsep : sep ≠ []) (rest : List α) :
    pieces sep (sep ++ rest) = [] :: pieces sep rest := by
  obtain ⟨c, tail, rfl⟩ := List.exists_cons_of_ne_nil hsep
  have hprefix : (c :: tail).isPrefixOf (c :: (tail ++ rest)) = true :=
    List.isPrefixOf_iff_prefix.mpr (List.prefix_append (c :: tail) rest)
  rw [pieces, List.cons_append, splitFrom, if_pos hprefix]
  exact congrArg _ (splitFrom_append tail rest)

theorem pieces_inert (h : Inert sep front) (rest : List α) :
    pieces sep (front ++ rest) = (pieces sep rest).modifyHead (front ++ ·) := by
  induction front with
  | nil =>
    change _ = List.modifyHead id _
    rw [List.modifyHead_id]
    rfl
  | cons c front ih =>
    have hnot : ¬ sep <+: c :: (front ++ rest) := h (c :: front) nofun List.suffix_rfl rest
    rw [List.cons_append, pieces_cons_of_not hnot, ih h.tail, List.modifyHead_modifyHead]
    rfl

/-- `text.count(word)` for a word that is not empty. -/
def countWord (word text : List α) : Nat := (pieces word text).length - 1

/-! ### Replacing -/

/-- `text.replace(old, new)` for an old word that is not empty. -/
def replaceWord (old new text : List α) : List α := new.intercalate (pieces old text)

theorem replaceWord_nil (old new : List α) : replaceWord old new [] = [] := by
  simp [replaceWord, pieces, splitFrom]

omit [DecidableEq α] in
theorem intercalate_modifyHead (new front : List α) {parts : List (List α)} (h : parts ≠ []) :
    new.intercalate (parts.modifyHead (front ++ ·)) = front ++ new.intercalate parts := by
  obtain ⟨first, parts, rfl⟩ := List.exists_cons_of_ne_nil h
  cases parts with
  | nil => simp
  | cons next parts => simp

theorem replaceWord_inert (h : Inert old front) (new rest : List α) :
    replaceWord old new (front ++ rest) = front ++ replaceWord old new rest := by
  rw [replaceWord, pieces_inert h, intercalate_modifyHead new front (pieces_ne_nil old rest)]
  rfl

theorem replaceWord_old (hold : old ≠ []) (new rest : List α) :
    replaceWord old new (old ++ rest) = new ++ replaceWord old new rest := by
  rw [replaceWord, pieces_sep hold, List.intercalate_cons_of_ne_nil (pieces_ne_nil old rest),
    List.nil_append]
  rfl

/-- In a text of blocks, each of which is the old word or has no part of it, the old blocks are
replaced. -/
theorem replaceWord_flatMap {β : Type*} {new : List α} (hold : old ≠ [])
    {before after : β → List α}
    (h : ∀ b, before b = old ∧ after b = new ∨ Inert old (before b) ∧ after b = before b)
    (blocks : List β) :
    replaceWord old new (blocks.flatMap before) = blocks.flatMap after := by
  induction blocks with
  | nil => exact replaceWord_nil old new
  | cons b blocks ih =>
    rw [List.flatMap_cons, List.flatMap_cons]
    rcases h b with ⟨hbefore, hafter⟩ | ⟨hinert, hafter⟩
    · rw [hbefore, hafter, replaceWord_old hold, ih]
    · rw [hafter, replaceWord_inert hinert, ih]

section Map

variable {β : Type*} [DecidableEq β] {f : α → β}

theorem pieces_map (hf : Function.Injective f) (sep text : List α) :
    pieces (sep.map f) (text.map f) = (pieces sep text).map (List.map f) := by
  have hprefix : ∀ text : List α, (sep.map f).isPrefixOf (text.map f) = sep.isPrefixOf text := by
    intro text
    rw [Bool.eq_iff_iff, List.isPrefixOf_iff_prefix, List.isPrefixOf_iff_prefix,
      List.prefix_map_iff_of_injective hf]
  have walk : ∀ skip, splitFrom (sep.map f) skip (text.map f) =
      (splitFrom sep skip text).map (List.map f) := by
    intro skip
    fun_induction splitFrom sep skip text with
    | case1 => simp [splitFrom]
    | case2 skip c rest ih => exact ih
    | case3 c rest h ih =>
      rw [List.map_cons, splitFrom, ← List.map_cons, hprefix, if_pos h, List.length_map, ih]
      rfl
    | case4 c rest h ih =>
      rw [List.map_cons, splitFrom, ← List.map_cons, hprefix, if_neg h, ih]
      cases splitFrom sep 0 rest <;> rfl
  exact walk 0

theorem replaceWord_map (hf : Function.Injective f) (old new text : List α) :
    (replaceWord old new text).map f = replaceWord (old.map f) (new.map f) (text.map f) := by
  rw [replaceWord, replaceWord, pieces_map hf]
  generalize pieces old text = parts
  induction parts with
  | nil => rfl
  | cons part parts ih =>
    cases parts with
    | nil => simp
    | cons next parts => simpa using ih

end Map

end Data
