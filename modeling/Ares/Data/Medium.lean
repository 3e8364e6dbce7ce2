import Mathlib.Data.List.Basic
import Mathlib.Logic.Function.Basic
import Mathlib.Order.MinMax

/-! Named files on a medium that may lose power.  A name stands for a file at once, but until its
directory is written to the medium a loss of power may take it back to a file that it stood for
before; and it leaves anything at all in a file whose content was not written to the medium. -/

namespace Data

structure Medium (ν β : Type) where
  /-- The files that a name has stood for, the oldest first; `none` is no file. -/
  entries : ν → List (Option Nat)
  safe : ν → Nat
  content : Nat → List β
  synced : Nat → Bool
  safe_lt : ∀ n, safe n < (entries n).length

namespace Medium

variable {ν β : Type} (m : Medium ν β) {m' : Medium ν β} {n : ν} {i k : Nat}

/-- No name stands for a file. -/
def empty : Medium ν β where
  entries _ := [none]
  safe _ := 0
  content _ := []
  synced _ := false
  safe_lt _ := Nat.one_pos

/-- The file that a name stands for. -/
def current (n : ν) : Option Nat := (m.entries n).getLast?.join

def write (i : Nat) (data : List β) : Medium ν β :=
  { m with content := Function.update m.content i data, synced := Function.update m.synced i false }

/-- `fsync` of a file. -/
def syncFile (i : Nat) : Medium ν β := { m with synced := Function.update m.synced i true }

/-- The name stands for the file `i` from now on. -/
def link [DecidableEq ν] (n : ν) (i : Nat) : Medium ν β where
  entries := Function.update m.entries n (m.entries n ++ [some i])
  safe := m.safe
  content := m.content
  synced := m.synced
  safe_lt n' := by
    have h := m.safe_lt n'
    rw [Function.update_apply]
    split
    · next heq =>
      subst heq
      rw [List.length_append]
      omega
    · exact h

def newest (n : ν) : Nat := (m.entries n).length - 1

/-- The place `k`, or the next place that there is and that is not behind the medium. -/
def reached (n : ν) (k : Nat) : Nat := max (m.safe n) (min k (m.newest n))

theorem reached_lt (n : ν) (k : Nat) : m.reached n k < (m.entries n).length := by
  have := m.safe_lt n
  rw [reached, newest]
  omega

/-- `fsync` of a directory with the names `inside`, begun when their newest entries were at
`upto`. -/
def syncDirectory (inside : ν → Bool) (upto : ν → Nat) : Medium ν β where
  entries := m.entries
  safe n := if inside n then m.reached n (upto n) else m.safe n
  content := m.content
  synced := m.synced
  safe_lt n := by
    split
    · exact m.reached_lt n _
    · exact m.safe_lt n

/-- After a loss of power every name is back at some entry, and what was not on the medium is
lost. -/
def losePower (back : ν → Nat) (lost : Nat → List β) : Medium ν β where
  entries n := (m.entries n).take (m.reached n (back n) + 1)
  safe n := m.reached n (back n)
  content i := if m.synced i then m.content i else lost i
  synced _ := true
  safe_lt n := by
    have := m.reached_lt n (back n)
    rw [List.length_take]
    omega

/-- Names have got new entries, and no more is at risk. -/
structure Grows (m m' : Medium ν β) : Prop where
  entries : ∀ n, m.entries n <+: m'.entries n
  safe : ∀ n, m.safe n ≤ m'.safe n

variable {m}

theorem Grows.refl (m : Medium ν β) : m.Grows m :=
  ⟨fun _ => List.prefix_refl _, fun _ => Nat.le_refl _⟩

theorem Grows.trans {m'' : Medium ν β} (h : m.Grows m') (h' : m'.Grows m'') : m.Grows m'' :=
  ⟨fun n => (h.entries n).trans (h'.entries n), fun n => (h.safe n).trans (h'.safe n)⟩

theorem grows_link [DecidableEq ν] : m.Grows (m.link n i) := by
  refine ⟨fun n' => ?_, fun _ => Nat.le_refl _⟩
  show m.entries n' <+: Function.update m.entries n _ n'
  rw [Function.update_apply]
  split
  · next heq =>
    subst heq
    exact List.prefix_append _ _
  · exact List.prefix_refl _

theorem grows_syncDirectory {inside : ν → Bool} {upto : ν → Nat} :
    m.Grows (m.syncDirectory inside upto) := by
  refine ⟨fun _ => List.prefix_refl _, fun n => ?_⟩
  show m.safe n ≤ if inside n then m.reached n (upto n) else m.safe n
  split
  · exact Nat.le_max_left _ _
  · exact Nat.le_refl _

theorem Grows.getElem? {f : Option Nat} (h : m.Grows m') (hk : (m.entries n)[k]? = some f) :
    (m'.entries n)[k]? = some f := by
  obtain ⟨l, hl⟩ := h.entries n
  rw [← hl, List.getElem?_append_left (List.getElem?_eq_some_iff.mp hk).1, hk]

theorem getElem?_link [DecidableEq ν] {n' : ν} {f : Option Nat}
    (hk : ((m.link n i).entries n')[k]? = some f) :
    (m.entries n')[k]? = some f ∨ n' = n ∧ k = (m.entries n).length ∧ f = some i := by
  have hk' : (Function.update m.entries n (m.entries n ++ [some i]) n')[k]? = some f := hk
  rw [Function.update_apply] at hk'
  split at hk'
  · next heq =>
    subst heq
    rw [List.getElem?_append] at hk'
    split at hk'
    · exact .inl hk'
    · obtain ⟨hlt, heq⟩ := List.getElem?_eq_some_iff.mp hk'
      have hlen : k = (m.entries n').length := by
        rw [List.length_singleton] at hlt
        omega
      subst hlen
      simp only [Nat.sub_self, List.getElem_cons_zero] at heq
      exact .inr ⟨rfl, rfl, heq.symm⟩
  · exact .inl hk'

theorem getElem?_link_self [DecidableEq ν] :
    ((m.link n i).entries n)[m.newest n + 1]? = some (some i) := by
  have hpos := m.safe_lt n
  show (Function.update m.entries n _ n)[m.newest n + 1]? = _
  rw [Function.update_self, newest, Nat.sub_add_cancel (by omega), List.getElem?_concat_length]

theorem getElem?_losePower {back : ν → Nat} {lost : Nat → List β} {f : Option Nat}
    (hk : (m.entries n)[k]? = some f) (hs : k ≤ m.safe n) :
    ((m.losePower back lost).entries n)[k]? = some f := by
  have hle : m.safe n ≤ m.reached n (back n) := Nat.le_max_left _ _
  show ((m.entries n).take (m.reached n (back n) + 1))[k]? = _
  rw [List.getElem?_take_of_lt (by omega), hk]

theorem getElem?_of_losePower {back : ν → Nat} {lost : Nat → List β} {f : Option Nat}
    (hk : ((m.losePower back lost).entries n)[k]? = some f) : (m.entries n)[k]? = some f := by
  have hk' : ((m.entries n).take (m.reached n (back n) + 1))[k]? = some f := hk
  rw [List.getElem?_take] at hk'
  split at hk'
  · exact hk'
  · cases hk'

theorem current_eq : m.current n = some i ↔ (m.entries n)[m.newest n]? = some (some i) := by
  rw [current, newest, ← List.getLast?_eq_getElem?, Option.join_eq_some_iff]

theorem le_newest {f : Option Nat} (hk : (m.entries n)[k]? = some f) : k ≤ m.newest n := by
  have := (List.getElem?_eq_some_iff.mp hk).1
  rw [newest]
  omega

theorem le_safe_syncDirectory {m₀ : Medium ν β} {inside : ν → Bool} (h : m₀.Grows m)
    (hn : inside n = true) (hk : k ≤ m₀.newest n) :
    k ≤ (m.syncDirectory inside m₀.newest).safe n := by
  show k ≤ if inside n then m.reached n (m₀.newest n) else m.safe n
  have hlen := (h.entries n).length_le
  rw [if_pos hn, reached]
  simp only [newest] at *
  omega

end Medium

end Data
