import Mathlib.Data.List.Basic

/-! JSON values as `json.loads` returns them.  An object is the list of its fields; a float is kept
as its shortest decimal text. -/

namespace Data

inductive Json
  | null
  | bool (b : Bool)
  | int (i : Int)
  | float (text : String)
  | str (s : String)
  | arr (items : List Json)
  | obj (fields : List (String × Json))

abbrev Fields := List (String × Json)

namespace Json

def optStr : Option String → Json
  | some s => str s
  | none => null

def optInt : Option Int → Json
  | some i => int i
  | none => null

def nat (n : Nat) : Json := int n

def strs (items : List String) : Json := arr (items.map str)

end Json

namespace Fields

/-- `fields.get(key)`. -/
def get? (fields : Fields) (key : String) : Option Json := fields.lookup key

/-- `fields[key] = value`. -/
def set (fields : Fields) (key : String) (value : Json) : Fields :=
  if (fields.lookup key).isSome then
    fields.map fun field => if field.1 = key then (key, value) else field
  else
    fields ++ [(key, value)]

/-- `{**fields, **others}`. -/
def update (fields others : Fields) : Fields :=
  others.foldl (fun acc field => acc.set field.1 field.2) fields

end Fields

/-- `value[:n]`. -/
def takeChars (n : Nat) (s : String) : String := String.ofList (s.toList.take n)

end Data
