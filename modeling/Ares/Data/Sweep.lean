import Mathlib.Logic.Function.Basic
import Mathlib.Data.List.Nodup

/-! A loop that visits keys of a map and replaces the value at each, up to the first failure.  What
was replaced before a failure stays replaced. -/

namespace Data

variable {κ α ε : Type} [DecidableEq κ]

def sweep (visit : κ → Option α → Except ε (Option α)) :
    List κ → (κ → Option α) → (κ → Option α) × Option ε
  | [], m => (m, none)
  | k :: ks, m =>
      match visit k (m k) with
      | .ok v => sweep visit ks (Function.update m k v)
      | .error e => (m, some e)

variable {visit : κ → Option α → Except ε (Option α)}

theorem sweep_ok {k : κ} {ks : List κ} {m : κ → Option α} {v : Option α}
    (h : visit k (m k) = .ok v) :
    sweep visit (k :: ks) m = sweep visit ks (Function.update m k v) := by
  simp [sweep, h]

theorem sweep_error {k : κ} {ks : List κ} {m : κ → Option α} {e : ε}
    (h : visit k (m k) = .error e) : sweep visit (k :: ks) m = (m, some e) := by
  simp [sweep, h]

theorem sweep_of_not_mem {k : κ} {ks : List κ} (h : k ∉ ks) (m : κ → Option α) :
    (sweep visit ks m).1 k = m k := by
  induction ks generalizing m with
  | nil => rfl
  | cons k' ks ih =>
      obtain ⟨hne, htail⟩ := not_or.mp (mt List.mem_cons.mpr h)
      cases hv : visit k' (m k') with
      | error e => rw [sweep_error hv]
      | ok v => rw [sweep_ok hv, ih htail, Function.update_of_ne hne]

-- The keys are distinct, so a visit finds at its key the value from before the loop.
theorem visit_update {k k' : κ} {ks : List κ} (hnodup : (k :: ks).Nodup) (hmem : k' ∈ ks)
    (m : κ → Option α) (v : Option α) : Function.update m k v k' = m k' := by
  have hne : k' ≠ k := fun h => (List.nodup_cons.mp hnodup).1 (h ▸ hmem)
  exact Function.update_of_ne hne v m

theorem sweep_none_iff {ks : List κ} (hnodup : ks.Nodup) (m : κ → Option α) :
    (sweep visit ks m).2 = none ↔ ∀ k ∈ ks, ∃ v, visit k (m k) = .ok v := by
  induction ks generalizing m with
  | nil => simp [sweep]
  | cons k ks ih =>
      have rest := ih (List.nodup_cons.mp hnodup).2
      cases hv : visit k (m k) with
      | error e => simp [sweep_error hv, hv]
      | ok v =>
          rw [sweep_ok hv, rest, List.forall_mem_cons]
          constructor
          · intro h
            refine ⟨⟨v, hv⟩, ?_⟩
            intro k' hk'
            rw [← visit_update hnodup hk' m v]
            exact h k' hk'
          · rintro ⟨-, h⟩ k' hk'
            rw [visit_update hnodup hk' m v]
            exact h k' hk'

theorem sweep_visited {ks : List κ} (hnodup : ks.Nodup) {m : κ → Option α}
    (h : (sweep visit ks m).2 = none) {k : κ} (hk : k ∈ ks) :
    visit k (m k) = .ok ((sweep visit ks m).1 k) := by
  induction ks generalizing m with
  | nil => cases hk
  | cons k' ks ih =>
      have htail := (List.nodup_cons.mp hnodup).2
      cases hv : visit k' (m k') with
      | error e =>
          rw [sweep_error hv] at h
          cases h
      | ok v =>
          rw [sweep_ok hv] at h ⊢
          rcases List.mem_cons.mp hk with rfl | hk
          · rw [sweep_of_not_mem (List.nodup_cons.mp hnodup).1, Function.update_self, hv]
          · rw [← visit_update hnodup hk m v]
            exact ih htail h hk

theorem sweep_fixed {ks : List κ} {m : κ → Option α}
    (h : ∀ k ∈ ks, visit k (m k) = .ok (m k)) : sweep visit ks m = (m, none) := by
  induction ks with
  | nil => rfl
  | cons k ks ih =>
      obtain ⟨hk, hks⟩ := List.forall_mem_cons.mp h
      rw [sweep_ok hk, Function.update_eq_self]
      exact ih hks

end Data
