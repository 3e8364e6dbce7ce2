import Mathlib.Data.List.Basic

/-! Texts that are split at the separators outside of quotes.  A text is split back into the pieces
that were joined exactly when no piece has a separator outside of quotes and every piece but the
last closes its quotes. -/

namespace Data

variable {α : Type*} [DecidableEq α]

/-- Whether the reader is between two quotes after `c`. -/
def quoteStep (quote : α) (inside : Bool) (c : α) : Bool := if c = quote then !inside else inside

def quotedAfter (quote : α) (inside : Bool) (text : List α) : Bool :=
  text.foldl (quoteStep quote) inside

def bare (sep quote : α) : Bool → List α → Bool
  | _, [] => true
  | inside, c :: cs => (inside || c ≠ sep) && bare sep quote (quoteStep quote inside c) cs

def splitOutside (sep quote : α) : Bool → List α → List (List α)
  | _, [] => [[]]
  | inside, c :: cs =>
    if c = sep ∧ inside = false then [] :: splitOutside sep quote false cs
    else (splitOutside sep quote (quoteStep quote inside c) cs).modifyHead (c :: ·)

def separable (sep quote : α) : Bool → List (List α) → Bool
  | _, [] => false
  | inside, [piece] => bare sep quote inside piece
  | inside, piece :: pieces =>
    bare sep quote inside piece && !quotedAfter quote inside piece &&
      separable sep quote false pieces

variable {sep quote : α} {inside : Bool} {text front : List α} {pieces : List (List α)}

theorem separable_cons {piece : List α} (h : pieces ≠ []) :
    separable sep quote inside (piece :: pieces) =
      (bare sep quote inside piece && !quotedAfter quote inside piece &&
        separable sep quote false pieces) := by
  cases pieces with
  | nil => exact absurd rfl h
  | cons => rfl

variable (sep quote inside text) in
theorem splitOutside_ne_nil : splitOutside sep quote inside text ≠ [] := by
  induction text generalizing inside with
  | nil => simp [splitOutside]
  | cons c cs ih =>
    rw [splitOutside]
    split
    · simp
    · simpa using ih _

theorem splitOutside_append (h : bare sep quote inside front = true) (text : List α) :
    splitOutside sep quote inside (front ++ text) =
      (splitOutside sep quote (quotedAfter quote inside front) text).modifyHead (front ++ ·) := by
  induction front generalizing inside with
  | nil =>
    change _ = List.modifyHead id _
    rw [List.modifyHead_id]
    rfl
  | cons c cs ih =>
    rw [bare, Bool.and_eq_true] at h
    have hc : ¬(c = sep ∧ inside = false) := by
      rintro ⟨rfl, rfl⟩
      simp at h
    rw [List.cons_append, splitOutside, if_neg hc, ih h.2, List.modifyHead_modifyHead]
    rfl

theorem splitOutside_sep (text : List α) :
    splitOutside sep quote false (sep :: text) = [] :: splitOutside sep quote false text := by
  rw [splitOutside, if_pos ⟨rfl, rfl⟩]

theorem splitOutside_intercalate (h : separable sep quote inside pieces = true) :
    splitOutside sep quote inside ([sep].intercalate pieces) = pieces := by
  induction pieces generalizing inside with
  | nil => cases h
  | cons piece rest ih =>
    by_cases hrest : rest = []
    · subst hrest
      have hsplit := splitOutside_append h []
      simpa [splitOutside] using hsplit
    · rw [separable_cons hrest, Bool.and_eq_true, Bool.and_eq_true] at h
      obtain ⟨⟨hbare, hclosed⟩, htail⟩ := h
      rw [Bool.not_eq_true'] at hclosed
      rw [List.intercalate_cons_of_ne_nil hrest, List.append_assoc, List.singleton_append,
        splitOutside_append hbare, hclosed, splitOutside_sep, ih htail, List.modifyHead_cons,
        List.append_nil]

theorem separable_splitOutside (inside : Bool) (text : List α) :
    separable sep quote inside (splitOutside sep quote inside text) = true := by
  induction text generalizing inside with
  | nil => rfl
  | cons c cs ih =>
    rw [splitOutside]
    split
    · next h =>
      rw [separable_cons (splitOutside_ne_nil _ _ _ _), ih]
      simp [bare, quotedAfter, h.2]
    · next h =>
      have hstep : inside = true ∨ ¬c = sep := by
        cases inside <;> simp_all
      have hpieces := ih (quoteStep quote inside c)
      revert hpieces
      generalize splitOutside sep quote (quoteStep quote inside c) cs = pieces
      intro hpieces
      match pieces, hpieces with
      | [piece], hpieces => simpa [separable, bare, hstep] using hpieces
      | piece :: next :: rest, hpieces => simpa [separable, bare, hstep, quotedAfter] using hpieces

theorem intercalate_splitOutside (inside : Bool) (text : List α) :
    [sep].intercalate (splitOutside sep quote inside text) = text := by
  induction text generalizing inside with
  | nil => rfl
  | cons c cs ih =>
    rw [splitOutside]
    split
    · next h =>
      rw [List.intercalate_cons_of_ne_nil (splitOutside_ne_nil _ _ _ _), ih]
      simp [h.1]
    · have hpieces := ih (quoteStep quote inside c)
      obtain ⟨piece, rest, heq⟩ := List.exists_cons_of_ne_nil
        (splitOutside_ne_nil sep quote (quoteStep quote inside c) cs)
      rw [heq] at hpieces ⊢
      cases rest with
      | nil => simpa using hpieces
      | cons next rest => simpa using hpieces

theorem splitOutside_intercalate_iff :
    splitOutside sep quote inside ([sep].intercalate pieces) = pieces ↔
      separable sep quote inside pieces = true := by
  refine ⟨fun h => ?_, splitOutside_intercalate⟩
  rw [← h]
  exact separable_splitOutside _ _

theorem separable_iff (h : pieces ≠ []) :
    separable sep quote false pieces = true ↔
      (∀ piece ∈ pieces, bare sep quote false piece = true) ∧
        ∀ piece ∈ pieces.dropLast, quotedAfter quote false piece = false := by
  induction pieces with
  | nil => exact absurd rfl h
  | cons piece rest ih =>
    by_cases hrest : rest = []
    · subst hrest
      simp [separable]
    · rw [separable_cons hrest, List.dropLast_cons_of_ne_nil hrest]
      simp only [Bool.and_eq_true, Bool.not_eq_true', ih hrest, List.forall_mem_cons]
      tauto

/-! ### Blanks in front of the pieces -/

section Blanks

variable {blank : α} {left right : List (List α)}

def dropBlanks (blank : α) (text : List α) : List α := text.dropWhile (· = blank)

theorem eq_nil_of_dropBlanks_append {piece extra rest : List α}
    (h : dropBlanks blank (piece ++ extra) = dropBlanks blank piece)
    (hrest : ∀ c ∈ (extra ++ rest).head?, c ≠ blank) : extra = [] := by
  cases extra with
  | nil => rfl
  | cons c extra =>
    exfalso
    have hc : c ≠ blank := hrest c rfl
    rw [dropBlanks, dropBlanks, List.dropWhile_append] at h
    split at h
    · next hempty =>
      rw [List.isEmpty_iff.1 hempty] at h
      simp [hc] at h
    · exact absurd h (by simp)

/-- Two texts that go on without a blank are the same if the whole texts are and they differ at
most in their blanks. -/
theorem append_inj_of_dropBlanks {p q r s : List α} (h : p ++ r = q ++ s)
    (hr : ∀ c ∈ r.head?, c ≠ blank) (hs : ∀ c ∈ s.head?, c ≠ blank)
    (hblanks : dropBlanks blank p = dropBlanks blank q) : p = q ∧ r = s := by
  rcases List.append_eq_append_iff.1 h with ⟨x, rfl, rfl⟩ | ⟨x, rfl, rfl⟩
  · obtain rfl := eq_nil_of_dropBlanks_append hblanks.symm hr
    simp
  · obtain rfl := eq_nil_of_dropBlanks_append hblanks hs
    simp

omit [DecidableEq α] in
theorem intercalate_cons_eq (sep : α) (piece : List α) (pieces : List (List α)) :
    [sep].intercalate (piece :: pieces) =
      piece ++ if pieces = [] then [] else sep :: [sep].intercalate pieces := by
  split
  · next h => simp [h]
  · next h => rw [List.intercalate_cons_of_ne_nil h]; simp

/-- Two lists of pieces are the same if the texts that join them are and the pieces differ at most
in their blanks. -/
theorem eq_of_dropBlanks (hsep : sep ≠ blank)
    (hblanks : left.map (dropBlanks blank) = right.map (dropBlanks blank))
    (htext : [sep].intercalate left = [sep].intercalate right) : left = right := by
  induction left generalizing right with
  | nil => simpa using hblanks.symm
  | cons p left ih =>
    cases right with
    | nil => simp at hblanks
    | cons q right =>
      rw [List.map_cons, List.map_cons, List.cons.injEq] at hblanks
      rw [intercalate_cons_eq, intercalate_cons_eq] at htext
      have hhead : ∀ pieces : List (List α), ∀ c ∈ (if pieces = [] then []
          else sep :: [sep].intercalate pieces).head?, c ≠ blank := by
        intro pieces c hc
        split at hc
        · cases hc
        · rw [List.head?_cons, Option.mem_some_iff] at hc
          exact hc ▸ hsep
      obtain ⟨rfl, hrest⟩ := append_inj_of_dropBlanks htext (hhead left) (hhead right) hblanks.1
      have hnil : left = [] ↔ right = [] := by
        rw [← List.map_eq_nil_iff (f := dropBlanks blank), hblanks.2, List.map_eq_nil_iff]
      by_cases hleft : left = []
      · rw [hleft, hnil.1 hleft]
      · rw [if_neg hleft, if_neg (mt hnil.2 hleft), List.cons.injEq] at hrest
        rw [ih hblanks.2 hrest.2]

end Blanks

/-! ### Separators without quotes -/

theorem not_mem_of_mem_splitOn {piece : List α} (h : piece ∈ text.splitOn sep) : sep ∉ piece := by
  induction text generalizing piece with
  | nil =>
    obtain rfl : piece = [] := by simpa using h
    exact List.not_mem_nil
  | cons c cs ih =>
    rw [List.splitOn_cons_eq_if_modifyHead] at h
    split at h
    · rcases List.mem_cons.1 h with rfl | h
      · exact List.not_mem_nil
      · exact ih h
    · next hc =>
      obtain ⟨first, rest, heq⟩ := List.exists_cons_of_ne_nil (List.splitOn_ne_nil sep cs)
      rw [heq] at h ih
      rcases List.mem_cons.1 h with rfl | h
      · intro hmem
        rcases List.mem_cons.1 hmem with rfl | hmem
        · simp at hc
        · exact ih List.mem_cons_self hmem
      · exact ih (List.mem_cons_of_mem _ h)

omit [DecidableEq α] in
theorem mem_intercalate {c : α} (hc : c ≠ sep) :
    c ∈ [sep].intercalate pieces ↔ ∃ piece ∈ pieces, c ∈ piece := by
  induction pieces with
  | nil => simp
  | cons piece rest ih =>
    rw [intercalate_cons_eq, List.mem_append]
    by_cases hrest : rest = []
    · simp [hrest]
    · simp [hrest, ih, hc]

theorem splitOn_intercalate_flatMap (h : pieces ≠ []) :
    ([sep].intercalate pieces).splitOn sep = pieces.flatMap (·.splitOn sep) := by
  induction pieces with
  | nil => exact absurd rfl h
  | cons piece rest ih =>
    by_cases hrest : rest = []
    · subst hrest
      simp
    · rw [List.intercalate_cons_of_ne_nil hrest, List.append_assoc, List.singleton_append,
        List.splitOn_append_cons_self, ih hrest, List.flatMap_cons]

theorem not_mem_of_length_splitOn (h : pieces ≠ [])
    (hlength : (([sep].intercalate pieces).splitOn sep).length = pieces.length) :
    ∀ piece ∈ pieces, sep ∉ piece := by
  rw [splitOn_intercalate_flatMap h] at hlength
  clear h
  have hpos : ∀ text : List α, 1 ≤ (text.splitOn sep).length := fun text =>
    List.length_pos_iff.2 (List.splitOn_ne_nil sep text)
  have hle : ∀ ps : List (List α), ps.length ≤ (ps.flatMap (·.splitOn sep)).length := by
    intro ps
    induction ps with
    | nil => simp
    | cons p ps ih =>
      have := hpos p
      simp only [List.flatMap_cons, List.length_append, List.length_cons]
      omega
  induction pieces with
  | nil => simp
  | cons piece rest ih =>
    have := hpos piece
    have := hle rest
    simp only [List.flatMap_cons, List.length_append, List.length_cons] at hlength
    have hone : (piece.splitOn sep).length = 1 := by omega
    intro p hp
    rcases List.mem_cons.1 hp with rfl | hp
    · obtain ⟨only, honly⟩ := List.length_eq_one_iff.1 hone
      have htext := (List.intercalate_splitOn sep : [sep].intercalate (p.splitOn sep) = p)
      rw [honly, List.intercalate_singleton] at htext
      exact not_mem_of_mem_splitOn (show p ∈ p.splitOn sep by simp [honly, htext])
    · exact ih (by omega) p hp

end Data
