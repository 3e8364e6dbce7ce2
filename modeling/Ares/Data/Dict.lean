import Mathlib.Data.List.Nodup

/-! Dictionaries: the entries in the order in which their keys were added. -/

namespace Data

variable {κ α : Type} [BEq κ] [LawfulBEq κ]

theorem mem_of_lookup_eq_some {entries : List (κ × α)} {key : κ} {value : α}
    (h : entries.lookup key = some value) : (key, value) ∈ entries := by
  obtain ⟨front, back, rfl, -⟩ := List.lookup_eq_some_iff.mp h
  simp

theorem lookup_eq_some_of_mem {entries : List (κ × α)} {key : κ} {value : α}
    (nodup : (entries.map Prod.fst).Nodup) (hm : (key, value) ∈ entries) :
    entries.lookup key = some value := by
  obtain ⟨front, back, rfl⟩ := List.append_of_mem hm
  refine List.lookup_eq_some_iff.mpr ⟨front, back, rfl, fun entry hentry => ?_⟩
  have apart : entry.1 ≠ key := by
    rw [List.map_append, List.nodup_append] at nodup
    exact nodup.2.2 _ (List.mem_map_of_mem hentry) _ (by simp)
  simpa using Ne.symm apart

/-- `entries[key] = value`. -/
def setEntry (key : κ) (value : α) : List (κ × α) → List (κ × α)
  | [] => [(key, value)]
  | entry :: entries =>
      if entry.1 == key then (key, value) :: entries else entry :: setEntry key value entries

theorem mem_keys_setEntry {key k : κ} {value : α} {entries : List (κ × α)} :
    k ∈ (setEntry key value entries).map Prod.fst ↔ k = key ∨ k ∈ entries.map Prod.fst := by
  induction entries with
  | nil => simp [setEntry]
  | cons entry entries ih =>
    rw [setEntry]
    split
    · next h => simp [eq_of_beq h]
    · simp only [List.map_cons, List.mem_cons, ih]
      tauto

theorem nodup_setEntry {key : κ} {value : α} {entries : List (κ × α)}
    (h : (entries.map Prod.fst).Nodup) : ((setEntry key value entries).map Prod.fst).Nodup := by
  induction entries with
  | nil => simp [setEntry]
  | cons entry entries ih =>
    rw [List.map_cons, List.nodup_cons] at h
    rw [setEntry]
    split
    · next hkey =>
      rw [List.map_cons, List.nodup_cons]
      exact ⟨eq_of_beq hkey ▸ h.1, h.2⟩
    · next hkey =>
      rw [List.map_cons, List.nodup_cons, mem_keys_setEntry]
      exact ⟨fun hm => hm.elim (fun heq => hkey (beq_iff_eq.mpr heq)) h.1, ih h.2⟩

omit [LawfulBEq κ] in
theorem lookup_cons_eq_ite (entry : κ × α) (entries : List (κ × α)) (k : κ) :
    (entry :: entries).lookup k = if k == entry.1 then some entry.2 else entries.lookup k := by
  rw [List.lookup_cons]
  cases k == entry.1 <;> rfl

theorem lookup_setEntry (key k : κ) (value : α) (entries : List (κ × α)) :
    (setEntry key value entries).lookup k = if k == key then some value else entries.lookup k := by
  induction entries with
  | nil => exact lookup_cons_eq_ite (key, value) [] k
  | cons entry entries ih =>
    rw [setEntry]
    split
    · next hentry =>
      rw [lookup_cons_eq_ite, lookup_cons_eq_ite, eq_of_beq hentry]
      cases k == key <;> rfl
    · next hentry =>
      rw [lookup_cons_eq_ite, lookup_cons_eq_ite, ih]
      by_cases h : k = entry.1
      · have hkey : (k == key) = false := by
          rw [h]
          simpa using hentry
        rw [beq_iff_eq.mpr h, hkey]
        rfl
      · rw [beq_eq_false_iff_ne.mpr h]
        rfl

structure Dict (κ α : Type) where
  entries : List (κ × α)
  nodup : (entries.map Prod.fst).Nodup

namespace Dict

def empty : Dict κ α := ⟨[], List.nodup_nil⟩

def get? (d : Dict κ α) (key : κ) : Option α := d.entries.lookup key

def set (d : Dict κ α) (key : κ) (value : α) : Dict κ α :=
  ⟨setEntry key value d.entries, nodup_setEntry d.nodup⟩

def keys (d : Dict κ α) : List κ := d.entries.map Prod.fst

def values (d : Dict κ α) : List α := d.entries.map Prod.snd

/-- `{key(item): item for item in items}`. -/
def index (key : α → κ) (items : List α) : Dict κ α :=
  items.foldl (fun d item => d.set (key item) item) empty

/-- `d.setdefault(key, []).append(value)`. -/
def append (d : Dict κ (List α)) (key : κ) (value : α) : Dict κ (List α) :=
  d.set key ((d.get? key).getD [] ++ [value])

omit [LawfulBEq κ] in
@[simp] theorem get?_empty (key : κ) : (empty : Dict κ α).get? key = none := rfl

@[simp] theorem get?_set (d : Dict κ α) (key k : κ) (value : α) :
    (d.set key value).get? k = if k == key then some value else d.get? k :=
  lookup_setEntry key k value d.entries

theorem get?_eq_some_iff {d : Dict κ α} {key : κ} {value : α} :
    d.get? key = some value ↔ (key, value) ∈ d.entries :=
  ⟨mem_of_lookup_eq_some, lookup_eq_some_of_mem d.nodup⟩

theorem mem_values {d : Dict κ α} {value : α} :
    value ∈ d.values ↔ ∃ key, d.get? key = some value := by
  simp only [values, List.mem_map, get?_eq_some_iff]
  exact ⟨fun ⟨entry, hm, h⟩ => ⟨entry.1, h ▸ hm⟩, fun ⟨key, hm⟩ => ⟨_, hm, rfl⟩⟩

theorem mem_keys {d : Dict κ α} {key : κ} : key ∈ d.keys ↔ ∃ value, d.get? key = some value := by
  simp only [keys, List.mem_map, get?_eq_some_iff]
  exact ⟨fun ⟨entry, hm, h⟩ => ⟨entry.2, h ▸ hm⟩, fun ⟨value, hm⟩ => ⟨_, hm, rfl⟩⟩

theorem mem_keys_iff {d : Dict κ α} {key : κ} : key ∈ d.keys ↔ (d.get? key).isSome := by
  rw [mem_keys, Option.isSome_iff_exists]

theorem perm_iff {d d' : Dict κ α} :
    d.entries.Perm d'.entries ↔ ∀ key, d.get? key = d'.get? key := by
  constructor
  · intro h key
    apply Option.ext
    intro value
    rw [get?_eq_some_iff, get?_eq_some_iff, h.mem_iff]
  · intro h
    refine (List.perm_ext_iff_of_nodup (List.Nodup.of_map _ d.nodup)
      (List.Nodup.of_map _ d'.nodup)).mpr fun entry => ?_
    rw [← get?_eq_some_iff, ← get?_eq_some_iff, h]

theorem get?_foldl_set_eq {β : Type} (items : List β) (f : β → κ) (g : β → α) (d : Dict κ α)
    (key : κ) :
    (items.foldl (fun d item => d.set (f item) (g item)) d).get? key =
      ((items.reverse.find? (key == f ·)).map g).or (d.get? key) := by
  induction items generalizing d with
  | nil => rfl
  | cons x items ih =>
    rw [List.foldl_cons, ih, get?_set, List.reverse_cons, List.find?_append]
    cases items.reverse.find? (key == f ·) with
    | some last => rfl
    | none => cases hkey : key == f x <;> simp [hkey]

theorem get?_foldl_set {β : Type} {items : List β} {f : β → κ} {g : β → α} {d : Dict κ α} {key : κ}
    {value : α} (h : (items.foldl (fun d item => d.set (f item) (g item)) d).get? key = some value) :
    (∃ item ∈ items, f item = key ∧ g item = value) ∨ d.get? key = some value := by
  rw [get?_foldl_set_eq, Option.or_eq_some_iff, Option.map_eq_some_iff] at h
  rcases h with ⟨item, hfind, hvalue⟩ | ⟨-, h⟩
  · exact .inl ⟨item, List.mem_reverse.mp (List.mem_of_find?_eq_some hfind),
      (eq_of_beq (List.find?_some (p := (key == f ·)) hfind)).symm, hvalue⟩
  · exact .inr h

theorem get?_index_eq (f : α → κ) (items : List α) (key : κ) :
    (index f items).get? key = items.reverse.find? (key == f ·) := by
  have h := get?_foldl_set_eq items f id empty key
  rwa [get?_empty, Option.or_none, Option.map_id] at h

theorem get?_index {items : List α} {f : α → κ} {key : κ} {item : α}
    (h : (index f items).get? key = some item) : item ∈ items ∧ f item = key := by
  rw [get?_index_eq] at h
  exact ⟨List.mem_reverse.mp (List.mem_of_find?_eq_some h),
    (eq_of_beq (List.find?_some (p := (key == f ·)) h)).symm⟩

end Dict

end Data
