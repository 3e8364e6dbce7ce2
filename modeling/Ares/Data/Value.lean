import Mathlib.Algebra.Group.Nat.Defs
import Mathlib.Algebra.GroupWithZero.Nat
import Mathlib.Data.List.Lex
import Mathlib.Data.List.Sort

/-! Python values as far as JSON documents are made of them.  A string is the list of its code
points, lone surrogates included, a float is its IEEE bits, and a dictionary is the list of its
items. -/

namespace Data

abbrev CodePoint := Fin 0x110000

abbrev Text := List CodePoint

instance codePoints_neZero : NeZero 0x110000 := ⟨by decide⟩

instance Text.lawfulBEq : LawfulBEq Text := inferInstance

def CodePoint.ofChar (c : Char) : CodePoint := Fin.ofNat 0x110000 c.toNat

def Text.ofString (s : String) : Text := s.toList.map CodePoint.ofChar

inductive Value
  | none
  | bool (b : Bool)
  | int (i : Int)
  | float (bits : UInt64)
  | str (s : Text)
  | list (items : List Value)
  | dict (fields : List (Text × Value))
  | other

def asText : Value → Option Text
  | .str s => some s
  | _ => none

def asList : Value → Option (List Value)
  | .list items => some items
  | _ => none

namespace Value

def lit (s : String) : Value := str (Text.ofString s)

/-- The exponent is not all ones, so the float is neither infinite nor a NaN. -/
def finiteBits (bits : UInt64) : Bool := (bits.toNat / 2 ^ 52) % 2 ^ 11 != 2 ^ 11 - 1

-- One traversal serves every predicate here: `leaf` is asked at the leaves, `keys` at each
-- dictionary.
mutual

def all (leaf : Value → Bool) (keys : List Text → Bool) : Value → Bool
  | list items => allItems leaf keys items
  | dict fields => keys (fields.map Prod.fst) && allFields leaf keys fields
  | none => leaf none
  | bool b => leaf (bool b)
  | int i => leaf (int i)
  | float bits => leaf (float bits)
  | str s => leaf (str s)
  | other => leaf other

def allItems (leaf : Value → Bool) (keys : List Text → Bool) : List Value → Bool
  | [] => true
  | item :: items => all leaf keys item && allItems leaf keys items

def allFields (leaf : Value → Bool) (keys : List Text → Bool) : List (Text × Value) → Bool
  | [] => true
  | (_, value) :: fields => all leaf keys value && allFields leaf keys fields

end

def distinct : Value → Bool := all (fun _ => true) fun keys => decide keys.Nodup

/-- `json.dumps` has a case for the value; a float that is not finite needs `allow_nan`. -/
def serialisable (allowNan : Bool) : Value → Bool :=
  all
    (fun
      | float bits => allowNan || finiteBits bits
      | other => false
      | _ => true)
    fun _ => true

def keyLe (x y : Text × Value) : Prop := x.1 ≤ y.1

instance : DecidableRel keyLe := fun x y => inferInstanceAs (Decidable (x.1 ≤ y.1))

-- `sort_keys=True`, at every depth.
mutual

def sortKeys : Value → Value
  | list items => list (sortItems items)
  | dict fields => dict ((sortFields fields).insertionSort keyLe)
  | none => none
  | bool b => bool b
  | int i => int i
  | float bits => float bits
  | str s => str s
  | other => other

def sortItems : List Value → List Value
  | [] => []
  | item :: items => sortKeys item :: sortItems items

def sortFields : List (Text × Value) → List (Text × Value)
  | [] => []
  | (key, value) :: fields => (key, sortKeys value) :: sortFields fields

end

/-! ### Sorting -/

instance : Std.Total keyLe := ⟨fun x y => le_total x.1 y.1⟩

instance : IsTrans (Text × Value) keyLe := ⟨fun _ _ _ h h' => le_trans h h'⟩

theorem allItems_eq (leaf keys) (items : List Value) :
    allItems leaf keys items = items.all (all leaf keys) := by
  induction items with
  | nil => rfl
  | cons item items ih => simp [allItems, ih]

theorem allFields_eq (leaf keys) (fields : List (Text × Value)) :
    allFields leaf keys fields = fields.all fun field => all leaf keys field.2 := by
  induction fields with
  | nil => rfl
  | cons field fields ih => simp [allFields, ih]

theorem sortItems_eq (items : List Value) : sortItems items = items.map sortKeys := by
  induction items with
  | nil => rfl
  | cons item items ih => simp [sortItems, ih]

theorem sortFields_eq (fields : List (Text × Value)) :
    sortFields fields = fields.map fun field => (field.1, sortKeys field.2) := by
  induction fields with
  | nil => rfl
  | cons field fields ih => simp [sortFields, ih]

theorem sortFields_keys (fields : List (Text × Value)) :
    (sortFields fields).map Prod.fst = fields.map Prod.fst := by
  simp [sortFields_eq, Function.comp_def]

/-- Insertion keeps an entry in front of the entries above it, so leaving entries out and sorting
commute. -/
theorem filter_orderedInsert (p : Text × Value → Bool) (x : Text × Value)
    {fields : List (Text × Value)} (sorted : fields.Pairwise keyLe) :
    (fields.orderedInsert keyLe x).filter p =
      if p x then (fields.filter p).orderedInsert keyLe x else fields.filter p := by
  induction fields with
  | nil => by_cases hx : p x <;> simp [hx]
  | cons y fields ih =>
      have below : ∀ z ∈ fields, keyLe y z := fun z hz => List.rel_of_pairwise_cons sorted hz
      have rest := ih sorted.of_cons
      by_cases hle : keyLe x y
      · rw [List.orderedInsert_cons_of_le _ _ hle]
        by_cases hx : p x
        · have head : ∀ z ∈ (y :: fields).filter p, keyLe x z := by
            intro z hz
            rcases List.mem_cons.mp (List.mem_of_mem_filter hz) with rfl | hz
            · exact hle
            · exact le_trans hle (below z hz)
          cases hkept : (y :: fields).filter p with
          | nil => simp [hx, hkept]
          | cons z kept =>
              have hz : keyLe x z := head z (by simp [hkept])
              simp [hx, hkept, List.orderedInsert_cons_of_le _ _ hz]
        · simp [hx]
      · rw [List.orderedInsert_of_not_le _ _ hle]
        by_cases hy : p y
        · by_cases hx : p x <;> simp [hx, hy, rest, List.orderedInsert_of_not_le _ _ hle]
        · by_cases hx : p x <;> simp [hx, hy, rest]

theorem filter_insertionSort (p : Text × Value → Bool) (fields : List (Text × Value)) :
    (fields.insertionSort keyLe).filter p = (fields.filter p).insertionSort keyLe := by
  induction fields with
  | nil => rfl
  | cons field fields ih =>
      rw [List.insertionSort_cons, filter_orderedInsert p field (List.pairwise_insertionSort _ _),
        ih]
      by_cases h : p field <;> simp [h]

theorem map_insertionSort (f : Text × Value → Text × Value) (keep : ∀ x, (f x).1 = x.1)
    (fields : List (Text × Value)) :
    (fields.insertionSort keyLe).map f = (fields.map f).insertionSort keyLe := by
  refine List.map_insertionSort keyLe keyLe f fields ?_
  intro x _ y _
  simp [keyLe, keep]

-- Sorting again changes nothing: the values are sorted by induction, and the items already are.
mutual

theorem sortKeys_sortKeys : ∀ value : Value, value.sortKeys.sortKeys = value.sortKeys
  | list items => by simp only [sortKeys]; rw [sortItems_sortItems items]
  | dict fields => by
      have twice := sortFields_sortFields fields
      have commute := map_insertionSort (fun field => (field.1, sortKeys field.2)) (fun _ => rfl)
        (sortFields fields)
      rw [← sortFields_eq, ← sortFields_eq, twice] at commute
      simp only [sortKeys]
      rw [commute, List.Pairwise.insertionSort_eq (List.pairwise_insertionSort _ _)]
  | none | bool _ | int _ | float _ | str _ | other => rfl

theorem sortItems_sortItems : ∀ items : List Value, sortItems (sortItems items) = sortItems items
  | [] => rfl
  | item :: items => by simp [sortItems, sortKeys_sortKeys item, sortItems_sortItems items]

theorem sortFields_sortFields :
    ∀ fields : List (Text × Value), sortFields (sortFields fields) = sortFields fields
  | [] => rfl
  | (key, value) :: fields => by
      simp [sortFields, sortKeys_sortKeys value, sortFields_sortFields fields]

end

-- What does not depend on the order of the keys holds of a value exactly when it holds of the
-- sorted value.
mutual

theorem all_sortKeys {leaf : Value → Bool} {keys : List Text → Bool}
    (perm : ∀ {a b : List Text}, a.Perm b → keys a = keys b) :
    ∀ value : Value, all leaf keys value.sortKeys = all leaf keys value
  | list items => by simp only [sortKeys, all]; exact allItems_sortItems perm items
  | dict fields => by
      have sorted := List.perm_insertionSort keyLe (sortFields fields)
      have order := perm (sorted.map Prod.fst)
      have inner : allFields leaf keys ((sortFields fields).insertionSort keyLe) =
          allFields leaf keys (sortFields fields) := by
        rw [allFields_eq, allFields_eq]
        exact sorted.all_eq
      simp only [sortKeys, all]
      rw [order, inner, sortFields_keys, allFields_sortFields perm fields]
  | none | bool _ | int _ | float _ | str _ | other => rfl

theorem allItems_sortItems {leaf : Value → Bool} {keys : List Text → Bool}
    (perm : ∀ {a b : List Text}, a.Perm b → keys a = keys b) :
    ∀ items : List Value, allItems leaf keys (sortItems items) = allItems leaf keys items
  | [] => rfl
  | item :: items => by
      simp [sortItems, allItems, all_sortKeys perm item, allItems_sortItems perm items]

theorem allFields_sortFields {leaf : Value → Bool} {keys : List Text → Bool}
    (perm : ∀ {a b : List Text}, a.Perm b → keys a = keys b) :
    ∀ fields : List (Text × Value),
      allFields leaf keys (sortFields fields) = allFields leaf keys fields
  | [] => rfl
  | (_, value) :: fields => by
      simp [sortFields, allFields, all_sortKeys perm value, allFields_sortFields perm fields]

end

theorem distinct_sortKeys (value : Value) : value.sortKeys.distinct = value.distinct :=
  all_sortKeys (fun perm => by simp [perm.nodup_iff]) value

theorem serialisable_sortKeys (allowNan : Bool) (value : Value) :
    value.sortKeys.serialisable allowNan = value.serialisable allowNan :=
  all_sortKeys (fun _ => rfl) value

end Value

end Data
