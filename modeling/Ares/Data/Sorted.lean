import Ares.Data.Dict
import Ares.Data.Value

/-! What stays of a dictionary when its keys are sorted, at every depth. -/

namespace Data

theorem CodePoint.ofChar_injective : Function.Injective CodePoint.ofChar := by
  intro a b h
  have bound (c : Char) : c.toNat < 0x110000 := by
    rcases c.valid with hc | hc
    · exact hc.trans (by decide)
    · exact hc.2
  have hval := congrArg Fin.val h
  simp only [CodePoint.ofChar, Fin.ofNat, Nat.mod_eq_of_lt (bound a),
    Nat.mod_eq_of_lt (bound b)] at hval
  exact Char.toNat_inj.mp hval

theorem Text.ofString_inj {a b : String} : Text.ofString a = Text.ofString b ↔ a = b := by
  rw [Text.ofString, Text.ofString, CodePoint.ofChar_injective.list_map.eq_iff]
  exact String.toList_inj

theorem Text.beq_ofString (a b : String) : (Text.ofString a == Text.ofString b) = (a == b) := by
  rw [Bool.eq_iff_iff, beq_iff_eq, beq_iff_eq, Text.ofString_inj]

namespace Value

theorem distinct_list {items : List Value} :
    (Value.list items).distinct ↔ ∀ item ∈ items, item.distinct := by
  rw [Value.distinct, Value.all, Value.allItems_eq, List.all_eq_true]

theorem distinct_dict {fields : List (Text × Value)} :
    (Value.dict fields).distinct ↔
      (fields.map Prod.fst).Nodup ∧ ∀ field ∈ fields, field.2.distinct := by
  rw [Value.distinct, Value.all, Value.allFields_eq, Bool.and_eq_true, List.all_eq_true,
    decide_eq_true_eq]

theorem serialisable_dict {allowNan : Bool} {fields : List (Text × Value)} :
    (Value.dict fields).serialisable allowNan ↔
      ∀ field ∈ fields, field.2.serialisable allowNan := by
  rw [Value.serialisable, Value.all, Value.allFields_eq, Bool.true_and, List.all_eq_true]

/-- The items of a dictionary in the order of their keys, sorted themselves. -/
def sortedFields (fields : List (Text × Value)) : List (Text × Value) :=
  (sortFields fields).insertionSort keyLe

theorem sortKeys_dict (fields : List (Text × Value)) :
    (dict fields).sortKeys = dict (sortedFields fields) := by
  rw [sortKeys, sortedFields]

theorem sortKeys_str (s : Text) : (str s).sortKeys = str s := rfl

theorem sortKeys_int (i : Int) : (int i).sortKeys = int i := rfl

theorem sortKeys_list (items : List Value) :
    (list items).sortKeys = list (items.map sortKeys) := by
  rw [sortKeys, sortItems_eq]

theorem sortedFields_perm (fields : List (Text × Value)) :
    (sortedFields fields).Perm (sortFields fields) := List.perm_insertionSort _ _

theorem lookup_sortFields (fields : List (Text × Value)) (key : Text) :
    (sortFields fields).lookup key = (fields.lookup key).map sortKeys := by
  induction fields with
  | nil => rfl
  | cons field fields ih =>
    rw [sortFields, lookup_cons_eq_ite, lookup_cons_eq_ite, ih]
    split <;> rfl

theorem lookup_sortedFields {fields : List (Text × Value)} (nodup : (fields.map Prod.fst).Nodup)
    (key : Text) : (sortedFields fields).lookup key = (fields.lookup key).map sortKeys := by
  have keys : ((sortFields fields).map Prod.fst).Nodup := by rwa [sortFields_keys]
  have perm := sortedFields_perm fields
  have keys' := (perm.map Prod.fst).nodup_iff.mpr keys
  rw [← lookup_sortFields]
  let sorted : Dict Text Value := ⟨sortedFields fields, keys'⟩
  let unsorted : Dict Text Value := ⟨sortFields fields, keys⟩
  have same : sorted.entries.Perm unsorted.entries := perm
  exact Dict.perm_iff.mp same key

theorem all_sortedFields (p : Text → Bool) (fields : List (Text × Value)) :
    ((sortedFields fields).all fun field => p field.1) = fields.all fun field => p field.1 := by
  rw [(sortedFields_perm fields).all_eq, sortFields_eq, List.all_map]
  rfl

end Value

end Data
