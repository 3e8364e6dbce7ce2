import Ares.Data.Value

/-! A JSON codec for plain documents: no floats, and only strings that are written without an
escape.  `json.dumps` and `json.loads` do the same on these documents. -/

namespace Data.Plain

def plainPoint (c : CodePoint) : Bool := 32 ≤ c.val && c.val < 127 && c.val != 34 && c.val != 92

def plain : Value → Bool :=
  Value.all
    (fun
      | .str s => s.all plainPoint
      | .float _ | .other => false
      | _ => true)
    fun keys => keys.all fun key => key.all plainPoint

def digitsAux : Nat → Nat → List UInt8
  | 0, _ => []
  | fuel + 1, n =>
      if n < 10 then [UInt8.ofNat (48 + n)]
      else digitsAux fuel (n / 10) ++ [UInt8.ofNat (48 + n % 10)]

def printNat (n : Nat) : List UInt8 := digitsAux (n + 1) n

def printInt : Int → List UInt8
  | .ofNat n => printNat n
  | .negSucc n => 45 :: printNat (n + 1)

def printText (s : Text) : List UInt8 := 34 :: (s.map fun c => UInt8.ofNat c.val) ++ [34]

mutual

def print : Value → List UInt8
  | .none => [110, 117, 108, 108]
  | .bool true => [116, 114, 117, 101]
  | .bool false => [102, 97, 108, 115, 101]
  | .int i => printInt i
  | .str s => printText s
  | .list [] => [91, 93]
  | .list (item :: items) => 91 :: print item ++ printItems items
  | .dict [] => [123, 125]
  | .dict ((key, value) :: fields) =>
      123 :: printText key ++ 58 :: print value ++ printFields fields
  | .float _ | .other => []

def printItems : List Value → List UInt8
  | [] => [93]
  | item :: items => 44 :: print item ++ printItems items

def printFields : List (Text × Value) → List UInt8
  | [] => [125]
  | (key, value) :: fields => 44 :: printText key ++ 58 :: print value ++ printFields fields

end

def text (value : Value) : Option (List UInt8) := if plain value then some (print value) else none

/-! ### Reading -/

def isDigit (b : UInt8) : Bool := 48 ≤ b.toNat && b.toNat < 58

def readNat (bytes : List UInt8) : Option (Nat × List UInt8) :=
  match bytes.takeWhile isDigit with
  | [] => none
  | digits =>
      some (digits.foldl (fun n b => n * 10 + (b.toNat - 48)) 0, bytes.dropWhile isDigit)

def readInt (bytes : List UInt8) : Option (Int × List UInt8) :=
  match bytes with
  | [] => none
  | b :: rest =>
      if b = 45 then (readNat rest).map fun (n, rest) => (-(n : Int), rest)
      else (readNat bytes).map fun (n, rest) => ((n : Int), rest)

def readText (bytes : List UInt8) : Option (Text × List UInt8) :=
  match bytes.dropWhile (· != 34) with
  | [] => none
  | _ :: rest => some ((bytes.takeWhile (· != 34)).map fun b => Fin.ofNat _ b.toNat, rest)

def readWord (word : List UInt8) (value : Value) (bytes : List UInt8) :
    Option (Value × List UInt8) :=
  if bytes.take word.length = word then some (value, bytes.drop word.length) else none

def expect (b : UInt8) : List UInt8 → Option (List UInt8)
  | [] => none
  | c :: rest => if c = b then some rest else none

mutual

def read : Nat → List UInt8 → Option (Value × List UInt8)
  | 0, _ => none
  | _, [] => none
  | fuel + 1, b :: rest =>
      if b = 110 then readWord [117, 108, 108] .none rest
      else if b = 116 then readWord [114, 117, 101] (.bool true) rest
      else if b = 102 then readWord [97, 108, 115, 101] (.bool false) rest
      else if b = 34 then (readText rest).map fun (s, rest) => (.str s, rest)
      else if b = 91 then
        if rest.head? = some 93 then some (.list [], rest.tail)
        else do
          let (item, rest) ← read fuel rest
          let (items, rest) ← readItems fuel rest
          some (.list (item :: items), rest)
      else if b = 123 then
        if rest.head? = some 125 then some (.dict [], rest.tail)
        else do
          let (field, rest) ← readField fuel rest
          let (fields, rest) ← readFields fuel rest
          some (.dict (field :: fields), rest)
      else (readInt (b :: rest)).map fun (i, rest) => (.int i, rest)

def readItems : Nat → List UInt8 → Option (List Value × List UInt8)
  | 0, _ => none
  | _, [] => none
  | fuel + 1, b :: rest =>
      if b = 93 then some ([], rest)
      else if b = 44 then do
        let (item, rest) ← read fuel rest
        let (items, rest) ← readItems fuel rest
        some (item :: items, rest)
      else none

def readField : Nat → List UInt8 → Option ((Text × Value) × List UInt8)
  | 0, _ => none
  | fuel + 1, bytes => do
      let rest ← expect 34 bytes
      let (key, rest) ← readText rest
      let rest ← expect 58 rest
      let (value, rest) ← read fuel rest
      some ((key, value), rest)

def readFields : Nat → List UInt8 → Option (List (Text × Value) × List UInt8)
  | 0, _ => none
  | _, [] => none
  | fuel + 1, b :: rest =>
      if b = 125 then some ([], rest)
      else if b = 44 then do
        let (field, rest) ← readField fuel rest
        let (fields, rest) ← readFields fuel rest
        some (field :: fields, rest)
      else none

end

/-- A document and the newline after it. -/
def loads (bytes : List UInt8) : Option Value :=
  match read bytes.length bytes with
  | some (value, [10]) => some value
  | _ => none

/-! ### Reading what was printed -/

theorem isDigit_ofNat {d : Nat} (h : d < 10) : isDigit (UInt8.ofNat (48 + d)) = true := by
  simp [isDigit, UInt8.toNat_ofNat']
  omega

theorem digitsAux_digits (fuel n : Nat) : ∀ b ∈ digitsAux fuel n, isDigit b = true := by
  induction fuel generalizing n with
  | zero => simp [digitsAux]
  | succ fuel ih =>
      intro b hb
      unfold digitsAux at hb
      split at hb
      · rw [List.mem_singleton.mp hb]
        exact isDigit_ofNat (by omega)
      · rcases List.mem_append.mp hb with hb | hb
        · exact ih _ b hb
        · rw [List.mem_singleton.mp hb]
          exact isDigit_ofNat (by omega)

theorem digitsAux_value (fuel n : Nat) (h : n < fuel) :
    (digitsAux fuel n).foldl (fun n b => n * 10 + (b.toNat - 48)) 0 = n := by
  induction fuel generalizing n with
  | zero => omega
  | succ fuel ih =>
      unfold digitsAux
      split
      · simp [UInt8.toNat_ofNat']
        omega
      · rw [List.foldl_append, ih (n / 10) (by omega)]
        simp [UInt8.toNat_ofNat']
        omega

theorem printNat_ne_nil (n : Nat) : printNat n ≠ [] := by
  unfold printNat digitsAux
  split <;> simp

def Delimited (rest : List UInt8) : Prop := ∀ b ∈ rest.head?, isDigit b = false

theorem takeWhile_append {p : UInt8 → Bool} {front rest : List UInt8}
    (hfront : ∀ b ∈ front, p b = true) (hrest : ∀ b ∈ rest.head?, p b = false) :
    (front ++ rest).takeWhile p = front ∧ (front ++ rest).dropWhile p = rest := by
  rw [List.takeWhile_append_of_pos hfront, List.dropWhile_append_of_pos hfront]
  cases rest with
  | nil => simp
  | cons b rest => simp [hrest b rfl]

theorem readNat_print (n : Nat) {rest : List UInt8} (h : Delimited rest) :
    readNat (printNat n ++ rest) = some (n, rest) := by
  obtain ⟨taken, dropped⟩ := takeWhile_append (digitsAux_digits (n + 1) n) h
  have value := digitsAux_value (n + 1) n (Nat.lt_succ_self n)
  unfold readNat
  rw [printNat, taken, dropped]
  split
  · exact absurd ‹_› (printNat_ne_nil n)
  · rw [value]

theorem readInt_print (i : Int) {rest : List UInt8} (h : Delimited rest) :
    readInt (printInt i ++ rest) = some (i, rest) := by
  cases i with
  | negSucc n =>
      simp only [printInt, List.cons_append, readInt, if_true, readNat_print (n + 1) h]
      rfl
  | ofNat n =>
      have digit := digitsAux_digits (n + 1) n
      have number := readNat_print n h
      rw [printInt]
      cases hn : printNat n with
      | nil => exact absurd hn (printNat_ne_nil n)
      | cons b digits =>
          have hb : b ≠ 45 := by
            rintro rfl
            have := digit 45 (by rw [← printNat, hn]; exact List.mem_cons_self)
            simp [isDigit] at this
          rw [hn] at number
          rw [List.cons_append] at number ⊢
          simp only [readInt, if_neg hb, number]
          rfl

theorem plainPoint_byte {c : CodePoint} (h : plainPoint c = true) :
    UInt8.ofNat c.val ≠ 34 ∧ UInt8.ofNat c.val ≠ 10 ∧
      (Fin.ofNat 0x110000 (UInt8.ofNat c.val).toNat : CodePoint) = c := by
  simp only [plainPoint, Bool.and_eq_true, decide_eq_true_eq, bne_iff_ne] at h
  have small : (UInt8.ofNat c.val).toNat = c.val := by
    rw [UInt8.toNat_ofNat']
    omega
  refine ⟨?_, ?_, ?_⟩
  · intro heq
    have := congrArg UInt8.toNat heq
    rw [small] at this
    simp at this
    omega
  · intro heq
    have := congrArg UInt8.toNat heq
    rw [small] at this
    simp at this
    omega
  · rw [small]
    exact Fin.ofNat_val_eq_self c

theorem readText_print {s : Text} (h : s.all plainPoint = true) (rest : List UInt8) :
    readText ((s.map fun c => UInt8.ofNat c.val) ++ 34 :: rest) = some (s, rest) := by
  rw [List.all_eq_true] at h
  have inner : ∀ b ∈ s.map fun c => UInt8.ofNat c.val, (b != 34) = true := by
    intro b hb
    obtain ⟨c, hc, rfl⟩ := List.mem_map.mp hb
    simpa using (plainPoint_byte (h c hc)).1
  obtain ⟨taken, dropped⟩ := @takeWhile_append _ _ (34 :: rest) inner (by simp)
  have back : (s.map fun c => UInt8.ofNat c.val).map (fun b => Fin.ofNat 0x110000 b.toNat) = s := by
    rw [List.map_map]
    conv_rhs => rw [← List.map_id s]
    exact List.map_congr_left fun c hc => (plainPoint_byte (h c hc)).2.2
  simp only [readText, taken, dropped, back]

theorem delimited_cons {b : UInt8} (h : isDigit b = false) (rest : List UInt8) :
    Delimited (b :: rest) := by
  intro c hc
  cases hc
  exact h

theorem delimited_items (items : List Value) (rest : List UInt8) :
    Delimited (printItems items ++ rest) := by
  cases items with
  | nil => exact delimited_cons (by decide) _
  | cons => exact delimited_cons (by decide) _

theorem delimited_fields (fields : List (Text × Value)) (rest : List UInt8) :
    Delimited (printFields fields ++ rest) := by
  cases fields with
  | nil => exact delimited_cons (by decide) _
  | cons => exact delimited_cons (by decide) _

theorem print_head {value : Value} (h : plain value) :
    ∃ b bytes, print value = b :: bytes ∧ b ≠ 93 ∧ b ≠ 125 := by
  cases value with
  | none => exact ⟨_, _, rfl, by decide, by decide⟩
  | bool b => cases b <;> exact ⟨_, _, rfl, by decide, by decide⟩
  | int i =>
      cases i with
      | negSucc n => exact ⟨_, _, rfl, by decide, by decide⟩
      | ofNat n =>
          obtain ⟨b, bytes, hb⟩ := List.exists_cons_of_ne_nil (printNat_ne_nil n)
          have digit := digitsAux_digits (n + 1) n b (by rw [← printNat, hb]; simp)
          refine ⟨b, bytes, by rw [print, printInt, hb], ?_, ?_⟩ <;>
            · rintro rfl
              simp [isDigit] at digit
  | float => simp [plain, Value.all] at h
  | str s => exact ⟨_, _, rfl, by decide, by decide⟩
  | list items => cases items <;> exact ⟨_, _, rfl, by decide, by decide⟩
  | dict fields => cases fields <;> exact ⟨_, _, rfl, by decide, by decide⟩
  | other => simp [plain, Value.all] at h

theorem readField_print {key : Text} {value : Value} {fuel : Nat} {rest : List UInt8}
    (hkey : key.all plainPoint = true)
    (hvalue : read fuel (print value ++ rest) = some (value, rest)) :
    readField (fuel + 1) (printText key ++ 58 :: print value ++ rest) =
      some ((key, value), rest) := by
  have htext := readText_print hkey (58 :: (print value ++ rest))
  simp only [printText, List.append_assoc, List.cons_append, List.nil_append]
  simp [readField, expect, htext, hvalue]

theorem plain_dict {key : Text} {value : Value} {fields : List (Text × Value)}
    (h : plain (.dict ((key, value) :: fields))) :
    key.all plainPoint = true ∧ plain value = true ∧ plain (.dict fields) = true := by
  simp only [plain, Value.all, Value.allFields, List.map_cons, List.all_cons,
    Bool.and_eq_true] at h ⊢
  exact ⟨h.1.1, h.2.1, h.1.2, h.2.2⟩

theorem plain_list {item : Value} {items : List Value} (h : plain (.list (item :: items))) :
    plain item = true ∧ plain (.list items) = true := by
  simp only [plain, Value.all, Value.allItems, Bool.and_eq_true] at h ⊢
  exact h

-- Every printed value is as long as the fuel that reading it takes.
mutual

theorem read_print : ∀ (value : Value) (fuel : Nat) (rest : List UInt8), plain value →
    (print value).length ≤ fuel → Delimited rest → read fuel (print value ++ rest) = some (value, rest)
  | .none, fuel + 1, rest, _, _, _ => by simp [print, read, readWord]
  | .bool true, fuel + 1, rest, _, _, _ => by simp [print, read, readWord]
  | .bool false, fuel + 1, rest, _, _, _ => by simp [print, read, readWord]
  | .int i, fuel + 1, rest, _, _, hrest => by
      have number := readInt_print i hrest
      rw [print]
      have front : ∃ b bytes, printInt i = b :: bytes ∧ (b = 45 ∨ isDigit b = true) := by
        cases i with
        | negSucc n => exact ⟨_, _, rfl, Or.inl rfl⟩
        | ofNat n =>
            obtain ⟨b, bytes, hb⟩ := List.exists_cons_of_ne_nil (printNat_ne_nil n)
            have digit := digitsAux_digits (n + 1) n b (by rw [← printNat, hb]; simp)
            exact ⟨b, bytes, hb, Or.inr digit⟩
      obtain ⟨b, bytes, hb, kind⟩ := front
      have apart : b ≠ 110 ∧ b ≠ 116 ∧ b ≠ 102 ∧ b ≠ 34 ∧ b ≠ 91 ∧ b ≠ 123 := by
        rcases kind with rfl | digit
        · decide
        · refine ⟨?_, ?_, ?_, ?_, ?_, ?_⟩ <;>
            · rintro rfl
              simp [isDigit] at digit
      rw [hb] at number ⊢
      simp only [List.cons_append] at number ⊢
      simp [read, apart, number]
  | .str s, fuel + 1, rest, h, _, _ => by
      have htext := readText_print (s := s) (by simpa [plain, Value.all] using h) rest
      simp only [print, printText, List.append_assoc, List.cons_append, List.nil_append]
      simp [read, htext]
  | .list [], fuel + 1, rest, _, _, _ => by simp [print, read]
  | .list (item :: items), fuel + 1, rest, h, hfuel, _ => by
      obtain ⟨hitem, hitems⟩ := plain_list h
      obtain ⟨b, bytes, hb, open', _⟩ := print_head hitem
      simp only [print, List.cons_append, List.length_cons, List.length_append] at hfuel
      have first := read_print item fuel (printItems items ++ rest) hitem (by omega)
        (delimited_items items rest)
      have others := readItems_print items fuel rest hitems (by omega)
      simp only [print, List.cons_append, List.append_assoc]
      rw [hb] at first ⊢
      simp only [List.cons_append] at first ⊢
      simp [read, open', first, others]
  | .dict [], fuel + 1, rest, _, _, _ => by simp [print, read]
  | .dict ((key, value) :: fields), fuel + 1, rest, h, hfuel, _ => by
      obtain ⟨hkey, hvalue, hfields⟩ := plain_dict h
      simp only [print, printText, List.cons_append, List.length_cons, List.length_append] at hfuel
      obtain ⟨fuel, rfl⟩ : ∃ n, fuel = n + 1 := ⟨fuel - 1, by omega⟩
      have inner := read_print value fuel (printFields fields ++ rest) hvalue (by omega)
        (delimited_fields fields rest)
      have first := readField_print hkey inner
      have others := readFields_print fields (fuel + 1) rest hfields (by omega)
      simp only [print, List.cons_append, List.append_assoc]
      simp only [printText, List.cons_append, List.append_assoc, List.nil_append] at first ⊢
      simp [read, first, others]
  | .float _, _, _, h, _, _ => by simp [plain, Value.all] at h
  | .other, _, _, h, _, _ => by simp [plain, Value.all] at h
  | .none, 0, _, _, h, _ | .bool true, 0, _, _, h, _ | .bool false, 0, _, _, h, _
  | .str _, 0, _, _, h, _ | .list [], 0, _, _, h, _ | .list (_ :: _), 0, _, _, h, _
  | .dict [], 0, _, _, h, _ | .dict (_ :: _), 0, _, _, h, _ => by
      simp [print, printText] at h
  | .int i, 0, _, h, hfuel, _ => by
      obtain ⟨b, bytes, hb, -⟩ := print_head h
      rw [hb] at hfuel
      simp at hfuel

theorem readItems_print : ∀ (items : List Value) (fuel : Nat) (rest : List UInt8),
    plain (.list items) → (printItems items).length ≤ fuel →
      readItems fuel (printItems items ++ rest) = some (items, rest)
  | [], fuel + 1, rest, _, _ => by simp [printItems, readItems]
  | item :: items, fuel + 1, rest, h, hfuel => by
      obtain ⟨hitem, hitems⟩ := plain_list h
      simp only [printItems, List.cons_append, List.length_cons, List.length_append] at hfuel
      have first := read_print item fuel (printItems items ++ rest) hitem (by omega)
        (delimited_items items rest)
      have others := readItems_print items fuel rest hitems (by omega)
      simp only [printItems, List.cons_append, List.append_assoc]
      simp [readItems, first, others]
  | [], 0, _, _, h | _ :: _, 0, _, _, h => by simp [printItems] at h

theorem readFields_print : ∀ (fields : List (Text × Value)) (fuel : Nat) (rest : List UInt8),
    plain (.dict fields) → (printFields fields).length ≤ fuel →
      readFields fuel (printFields fields ++ rest) = some (fields, rest)
  | [], fuel + 1, rest, _, _ => by simp [printFields, readFields]
  | (key, value) :: fields, fuel + 1, rest, h, hfuel => by
      obtain ⟨hkey, hvalue, hfields⟩ := plain_dict h
      simp only [printFields, printText, List.cons_append, List.length_cons,
        List.length_append] at hfuel
      obtain ⟨fuel, rfl⟩ : ∃ n, fuel = n + 1 := ⟨fuel - 1, by omega⟩
      have inner := read_print value fuel (printFields fields ++ rest) hvalue (by omega)
        (delimited_fields fields rest)
      have first := readField_print hkey inner
      have others := readFields_print fields (fuel + 1) rest hfields (by omega)
      simp only [printFields, List.cons_append, List.append_assoc] at first ⊢
      simp [readFields, first, others]
  | [], 0, _, _, h | (_, _) :: _, 0, _, _, h => by simp [printFields] at h

end

theorem loads_text {value : Value} {bytes : List UInt8} (h : text value = some bytes) :
    loads (bytes ++ [10]) = some value := by
  unfold text at h
  split at h
  · cases h
    have whole := read_print value ((print value) ++ [10]).length [10] ‹_› (by simp)
      (delimited_cons (by decide) [])
    simp only [loads, whole]
  · cases h

/-! ### Lines -/

theorem newline_not_mem_printNat (n : Nat) : 10 ∉ printNat n := by
  intro hm
  have digit := digitsAux_digits (n + 1) n 10 hm
  simp [isDigit] at digit

theorem newline_not_mem_printText {s : Text} (h : s.all plainPoint = true) :
    10 ∉ printText s := by
  rw [List.all_eq_true] at h
  simp only [printText, List.cons_append, List.mem_cons, List.mem_append, List.mem_map]
  rintro (h10 | ⟨c, hc, h10⟩ | h10 | h10)
  · cases h10
  · exact (plainPoint_byte (h c hc)).2.1 h10
  · cases h10
  · cases h10

mutual

theorem newline_not_mem_print : ∀ value : Value, plain value → 10 ∉ print value
  | .none, _ | .bool true, _ | .bool false, _ | .list [], _ | .dict [], _ => by simp [print]
  | .int (.ofNat n), _ => by simpa [print, printInt] using newline_not_mem_printNat n
  | .int (.negSucc n), _ => by simpa [print, printInt] using newline_not_mem_printNat (n + 1)
  | .str s, h => newline_not_mem_printText (by simpa [plain, Value.all] using h)
  | .list (item :: items), h => by
      obtain ⟨hitem, hitems⟩ := plain_list h
      simp [print, newline_not_mem_print item hitem, newline_not_mem_printItems items hitems]
  | .dict ((key, value) :: fields), h => by
      obtain ⟨hkey, hvalue, hfields⟩ := plain_dict h
      simp [print, newline_not_mem_printText hkey, newline_not_mem_print value hvalue,
        newline_not_mem_printFields fields hfields]
  | .float _, h | .other, h => by simp [plain, Value.all] at h

theorem newline_not_mem_printItems :
    ∀ items : List Value, plain (.list items) → 10 ∉ printItems items
  | [], _ => by simp [printItems]
  | item :: items, h => by
      obtain ⟨hitem, hitems⟩ := plain_list h
      simp [printItems, newline_not_mem_print item hitem, newline_not_mem_printItems items hitems]

theorem newline_not_mem_printFields :
    ∀ fields : List (Text × Value), plain (.dict fields) → 10 ∉ printFields fields
  | [], _ => by simp [printFields]
  | (key, value) :: fields, h => by
      obtain ⟨hkey, hvalue, hfields⟩ := plain_dict h
      simp [printFields, newline_not_mem_printText hkey, newline_not_mem_print value hvalue,
        newline_not_mem_printFields fields hfields]

end

theorem newline_not_mem_text {value : Value} {bytes : List UInt8} (h : text value = some bytes) :
    10 ∉ bytes := by
  unfold text at h
  split at h
  · cases h
    exact newline_not_mem_print value ‹_›
  · cases h

end Data.Plain
