import Ares.Data.Lines
import Ares.Data.Sorted

/-! The escapes of the fields of `/proc/self/mountinfo`, and the three functions that decode them by
four replacements in the whole field, one after the other. -/

namespace Ares.Mountinfo

open Data

section Alphabet

variable {α : Type*} [DecidableEq α] (ofChar : Char → α)

def special : List Char := [' ', '\t', '\n', '\\']

def escape (c : α) : List α :=
  match special.find? fun x => ofChar x = c with
  | some x => octalCode ofChar x
  | none => [c]

def escapeField (value : List α) : List α := value.flatMap (escape ofChar)

variable {ofChar}

theorem mem_special {x : Char} : x ∈ special ↔ x = ' ' ∨ x = '\t' ∨ x = '\n' ∨ x = '\\' := by
  simp [special]

theorem escape_special (hinj : Function.Injective ofChar) {x : Char} (hx : x ∈ special) :
    escape ofChar (ofChar x) = octalCode ofChar x := by
  have hfind : (special.find? fun y => ofChar y = ofChar x) = some x := by
    simp only [hinj.eq_iff]
    rcases mem_special.mp hx with rfl | rfl | rfl | rfl <;> rfl
  rw [escape, hfind]

theorem escape_plain {c : α} (h : ∀ x ∈ special, ofChar x ≠ c) : escape ofChar c = [c] := by
  have hfind : (special.find? fun x => ofChar x = c) = none := by
    simpa [List.find?_eq_none] using h
  rw [escape, hfind]

theorem inert_escape (hinj : Function.Injective ofChar) {x : Char} (hx : x ∈ special) {c : α}
    (hc : ofChar x ≠ c) : Inert (octalCode ofChar x) (escape ofChar c) := by
  by_cases hspecial : ∃ y ∈ special, ofChar y = c
  · obtain ⟨y, hy, rfl⟩ := hspecial
    have hne : y ≠ x := fun h => hc (h ▸ rfl)
    have hdistinct : ∀ x ∈ special, ∀ y ∈ special, octalDigits y = octalDigits x → y = x := by
      intro x hx y hy
      rcases mem_special.mp hx with rfl | rfl | rfl | rfl <;>
        rcases mem_special.mp hy with rfl | rfl | rfl | rfl <;> decide
    have hmark : ∀ y ∈ special, '\\' ∉ octalDigits y := by
      intro y hy
      rcases mem_special.mp hy with rfl | rfl | rfl | rfl <;> decide
    have hlength : ∀ y ∈ special, (octalDigits y).length = 3 := by
      intro y hy
      rcases mem_special.mp hy with rfl | rfl | rfl | rfl <;> rfl
    rw [escape_special hinj hy]
    refine inert_word ?_ ?_ ?_
    · rw [List.mem_map_of_injective hinj]
      exact hmark y hy
    · rw [List.length_map, List.length_map, hlength y hy, hlength x hx]
    · exact fun h => hne (hdistinct x hx y hy (hinj.list_map h))
  · have hplain : ∀ y ∈ special, ofChar y ≠ c := fun y hy hyc => hspecial ⟨y, hy, hyc⟩
    rw [escape_plain hplain]
    exact inert_singleton (hplain '\\' (by decide)).symm

def halfway (ofChar : Char → α) (done : List Char) (c : α) : List α :=
  if c ∈ done.map ofChar then [c] else escape ofChar c

/-- A replacement decodes one more character.  The backslash comes last, so that no backslash stands
alone before. -/
theorem replace_halfway (hinj : Function.Injective ofChar) {x : Char} (hx : x ∈ special)
    {done : List Char} (hfresh : x ∉ done) (hback : '\\' ∉ done) (value : List α) :
    replaceWord (octalCode ofChar x) [ofChar x] (value.flatMap (halfway ofChar done)) =
      value.flatMap (halfway ofChar (x :: done)) := by
  refine replaceWord_flatMap (List.cons_ne_nil _ _) (fun c => ?_) value
  by_cases hc : ofChar x = c
  · subst hc
    left
    rw [halfway, halfway, if_neg (by rwa [List.mem_map_of_injective hinj]),
      if_pos (by simp),
      escape_special hinj hx]
    exact ⟨rfl, rfl⟩
  · right
    have hsame : halfway ofChar (x :: done) c = halfway ofChar done c := by
      simp [halfway, Ne.symm hc]
    refine ⟨?_, hsame⟩
    rw [halfway]
    split
    · next hdone =>
      obtain ⟨d, hd, rfl⟩ := List.mem_map.mp hdone
      exact inert_singleton fun h => hback (hinj h ▸ hd)
    · exact inert_escape hinj hx hc

theorem decodeField_escapeField (hinj : Function.Injective ofChar) (value : List α) :
    decodeField ofChar (escapeField ofChar value) = value := by
  have hstart : halfway ofChar [] = escape ofChar := funext fun c => if_neg List.not_mem_nil
  have hend : halfway ofChar ['\\', '\n', '\t', ' '] = fun c => [c] := by
    funext c
    have hall : ∀ x ∈ special, x ∈ ['\\', '\n', '\t', ' '] := by
      intro x hx
      rcases mem_special.mp hx with rfl | rfl | rfl | rfl <;> simp
    rw [halfway]
    split
    · rfl
    · next h => exact escape_plain fun x hx hxc => h (List.mem_map.mpr ⟨x, hall x hx, hxc⟩)
  rw [decodeField, escapeField, ← hstart, replace_halfway hinj (by decide) (by decide) (by decide),
    replace_halfway hinj (by decide) (by decide) (by decide),
    replace_halfway hinj (by decide) (by decide) (by decide),
    replace_halfway hinj (by decide) (by decide) (by decide), hend]
  exact List.flatMap_singleton' value

theorem decodeField_map (hinj : Function.Injective ofChar) (value : List Char) :
    (decodeField id value).map ofChar = decodeField ofChar (value.map ofChar) := by
  simp only [decodeField, replaceWord_map hinj, octalCode, List.map_cons, List.map_nil, List.map_id,
    id_eq]

end Alphabet

/-! ### The three copies -/

/-- `_unescape_mount` of `tools/partition.py`. -/
def Partition.unescapeMount (value : Text) : Text := decodeField CodePoint.ofChar value

/-- `_decode_mount` of `tools/backup.py`. -/
def Backup.decodeMount (value : Text) : Text := decodeField CodePoint.ofChar value

/-- `_unescape_mount` of `tools/filesystem.py`. -/
def Filesystem.unescapeMount (value : Text) : Text := decodeField CodePoint.ofChar value

theorem unescapeMount_ofString (value : String) :
    Text.ofString (unescapeMount value) = Partition.unescapeMount (Text.ofString value) := by
  rw [Text.ofString, unescapeMount, String.toList_ofList]
  exact decodeField_map CodePoint.ofChar_injective value.toList

/-! ### Escaping and decoding -/

/-- All three give back every string that is escaped. -/
theorem mount_escapes_inverted (value : Text) :
    Partition.unescapeMount (escapeField CodePoint.ofChar value) = value ∧
      Backup.decodeMount (escapeField CodePoint.ofChar value) = value ∧
      Filesystem.unescapeMount (escapeField CodePoint.ofChar value) = value :=
  have h := decodeField_escapeField CodePoint.ofChar_injective value
  ⟨h, h, h⟩

end Ares.Mountinfo
