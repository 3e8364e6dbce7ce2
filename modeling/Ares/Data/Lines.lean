import Ares.Data.Pieces

/-! Texts as Python reads them: the lines of a text, the words of a line, the two sides of a separator,
and the escapes with which the kernel writes the fields of its tables. -/

namespace Data

/-- The characters behind which `str.splitlines` ends a line. -/
def lineBreak (c : Char) : Bool :=
  ['\n', '\r', '\x0b', '\x0c', '\x1c', '\x1d', '\x1e', '\x85', '\u2028', '\u2029'].contains c

/-- `str.splitlines`. -/
def splitlines : List Char → List (List Char)
  | [] => []
  | '\r' :: '\n' :: rest => [] :: splitlines rest
  | c :: rest =>
    if lineBreak c then [] :: splitlines rest
    else
      match splitlines rest with
      | [] => [[c]]
      | line :: lines => (c :: line) :: lines

def textLines (text : String) : List (List Char) := splitlines text.toList

/-! ### Lines -/

theorem splitlines_cons {c : Char} {rest : List Char} (h : ∀ tail, rest = '\n' :: tail → c ≠ '\r') :
    splitlines (c :: rest) = if lineBreak c then [] :: splitlines rest
      else match splitlines rest with
        | [] => [[c]]
        | line :: lines => (c :: line) :: lines :=
  splitlines.eq_3 c rest fun tail hc htail => h tail htail hc

theorem splitlines_ne_nil {text : List Char} (h : text ≠ []) : splitlines text ≠ [] := by
  fun_cases splitlines text with
  | case1 => exact absurd rfl h
  | case2 | case3 | case4 | case5 => simp

theorem splitlines_cons_append {c : Char} {rest : List Char} (y : List Char) (h : lineBreak c = false)
    (ih : splitlines (rest ++ '\n' :: y) = splitlines (rest ++ ['\n']) ++ splitlines y) :
    splitlines (c :: rest ++ '\n' :: y) = splitlines (c :: rest ++ ['\n']) ++ splitlines y := by
  have hc : c ≠ '\r' := by
    rintro rfl
    cases h
  obtain ⟨line, lines, hlines⟩ := List.exists_cons_of_ne_nil
    (splitlines_ne_nil (show rest ++ ['\n'] ≠ [] by simp))
  rw [List.cons_append, List.cons_append, splitlines_cons fun _ _ => hc,
    splitlines_cons fun _ _ => hc, h, ih, hlines]
  rfl

theorem splitlines_append_newline (x y : List Char) :
    splitlines (x ++ '\n' :: y) = splitlines (x ++ ['\n']) ++ splitlines y := by
  fun_induction splitlines x with
  | case1 => simp [splitlines, lineBreak]
  | case2 rest ih => simpa [splitlines] using ih
  | case3 c rest hnot hbreak ih =>
    by_cases hr : c = '\r' ∧ rest = []
    · obtain ⟨rfl, rfl⟩ := hr
      simp [splitlines]
    · have hcons : ∀ z tail, rest ++ '\n' :: z = '\n' :: tail → c ≠ '\r' := by
        intro z tail htail hc
        cases rest with
        | nil => exact hr ⟨hc, rfl⟩
        | cons d rest =>
          obtain ⟨rfl, -⟩ := List.cons.inj htail
          exact hnot rest hc rfl
      rw [List.cons_append, List.cons_append, splitlines_cons (hcons y),
        splitlines_cons (hcons []), if_pos hbreak, if_pos hbreak, ih, List.cons_append]
  | case4 c rest hnot hbreak heq ih => exact splitlines_cons_append y (Bool.eq_false_iff.mpr hbreak) ih
  | case5 c rest hnot hbreak line lines heq ih =>
    exact splitlines_cons_append y (Bool.eq_false_iff.mpr hbreak) ih

theorem splitlines_line {line : List Char} (h : ∀ c ∈ line, lineBreak c = false) :
    splitlines (line ++ ['\n']) = [line] := by
  induction line with
  | nil => simp [splitlines, lineBreak]
  | cons c line ih =>
    have hc := h c List.mem_cons_self
    have hne : c ≠ '\r' := by
      rintro rfl
      cases hc
    rw [List.cons_append, splitlines_cons fun _ _ => hne, hc,
      ih fun d hd => h d (List.mem_cons_of_mem c hd)]
    rfl

/-! ### Words and sides -/

/-- `str.isspace` of one character. -/
def isspace (c : Char) : Bool :=
  ('\t' ≤ c && c ≤ '\r') || ('\x1c' ≤ c && c ≤ ' ') || ('\u2000' ≤ c && c ≤ '\u200a') ||
    ['\x85', '\xa0', '\u1680', '\u2028', '\u2029', '\u202f', '\u205f', '\u3000'].contains c

/-- `line.split()`. -/
def wordsOf (line : List Char) : List String :=
  ((line.splitOnP isspace).filter (· ≠ [])).map String.ofList

def cut (separator : List Char) : List Char → Option (List Char × List Char)
  | [] => none
  | c :: rest =>
    if separator.isPrefixOf (c :: rest) then some ([], (c :: rest).drop separator.length)
    else (cut separator rest).map fun sides => (c :: sides.1, sides.2)

/-- `pattern in text`. -/
def occursIn (pattern text : String) : Bool :=
  text.toList.tails.any pattern.toList.isPrefixOf

/-! ### The escapes of `mountinfo` -/

section Escapes

variable {α : Type*} [DecidableEq α] (ofChar : Char → α)

def octalDigits : Char → List Char
  | ' ' => ['0', '4', '0']
  | '\t' => ['0', '1', '1']
  | '\n' => ['0', '1', '2']
  | _ => ['1', '3', '4']

def octalCode (x : Char) : List α := ofChar '\\' :: (octalDigits x).map ofChar

def decodeField (value : List α) : List α :=
  replaceWord (octalCode ofChar '\\') [ofChar '\\']
    (replaceWord (octalCode ofChar '\n') [ofChar '\n']
      (replaceWord (octalCode ofChar '\t') [ofChar '\t']
        (replaceWord (octalCode ofChar ' ') [ofChar ' '] value)))

end Escapes

/-- `_unescape_mount`, for the strings without lone surrogates that the mount tables hold. -/
def unescapeMount (value : String) : String := String.ofList (decodeField id value.toList)

end Data
