import Mathlib.Data.List.Nodup

/-! The first occurrences in a list, as `dict.fromkeys` keeps them. -/

namespace Data

variable {α : Type} [DecidableEq α]

theorem filter_eraseDups (p : α → Bool) : ∀ l : List α, (l.filter p).eraseDups = l.eraseDups.filter p
  | [] => rfl
  | a :: l => by
    have hless : (l.filter fun b => !b == a).length < l.length + 1 :=
      Nat.lt_succ_of_le (List.length_filter_le _ _)
    have ih := filter_eraseDups p (l.filter fun b => !b == a)
    have hswap : (l.filter p).filter (fun b => !b == a) = (l.filter fun b => !b == a).filter p := by
      simp only [List.filter_filter, Bool.and_comm]
    rw [List.eraseDups_cons]
    by_cases ha : p a = true
    · rw [List.filter_cons_of_pos ha, List.filter_cons_of_pos ha, List.eraseDups_cons, hswap, ih]
    · have hskip : (l.filter p).filter (fun b => !b == a) = l.filter p := by
        refine List.filter_eq_self.mpr fun b hb => ?_
        have hp := (List.mem_filter.mp hb).2
        simp only [Bool.not_eq_true', beq_eq_false_iff_ne]
        rintro rfl
        exact ha hp
      rw [List.filter_cons_of_neg ha, List.filter_cons_of_neg ha, ← ih, ← hswap, hskip]
termination_by l => l.length

theorem nodup_eraseDups : ∀ l : List α, l.eraseDups.Nodup
  | [] => List.nodup_nil
  | a :: l => by
    have hless : (l.filter fun b => !b == a).length < l.length + 1 :=
      Nat.lt_succ_of_le (List.length_filter_le _ _)
    rw [List.eraseDups_cons, List.nodup_cons]
    exact ⟨by simp, nodup_eraseDups _⟩
termination_by l => l.length

theorem eraseDups_of_nodup {l : List α} (h : l.Nodup) : l.eraseDups = l := by
  induction l with
  | nil => rfl
  | cons a l ih =>
    obtain ⟨hnot, hnodup⟩ := List.nodup_cons.mp h
    have hfilter : l.filter (fun b => !b == a) = l := by
      refine List.filter_eq_self.mpr fun b hb => ?_
      simp only [Bool.not_eq_true', beq_eq_false_iff_ne]
      rintro rfl
      exact hnot hb
    rw [List.eraseDups_cons, hfilter, ih hnodup]

theorem removeAll_congr {l m : List α} (r : List α) (h : ∀ a, a ∈ l ↔ a ∈ m) :
    r.removeAll l = r.removeAll m :=
  List.filter_congr fun a _ => by simp [h a]

theorem eraseDups_filter_append (p : α → Bool) (l r : List α) :
    (l.eraseDups.filter p ++ r).eraseDups = (l.filter p ++ r).eraseDups := by
  have hmem : ∀ a, a ∈ l.eraseDups.filter p ↔ a ∈ l.filter p := by simp
  rw [List.eraseDups_append, List.eraseDups_append, removeAll_congr r hmem,
    eraseDups_of_nodup ((nodup_eraseDups l).filter p), filter_eraseDups]

theorem eraseDups_append_eq_iff (l r : List α) :
    (l ++ r).eraseDups = r.eraseDups ↔ l.eraseDups <+: r.eraseDups := by
  rw [List.eraseDups_append]
  constructor
  · intro h
    exact ⟨_, h⟩
  · rintro ⟨rest, h⟩
    have hnodup := nodup_eraseDups r
    rw [← h, List.nodup_append] at hnodup
    have hnone : l.eraseDups.removeAll l = [] := by simp [List.removeAll]
    have hrest : rest.removeAll l = rest := by
      refine List.filter_eq_self.mpr fun a ha => ?_
      simp only [Bool.not_eq_true', List.elem_eq_mem, decide_eq_false_iff_not]
      exact fun hal => hnodup.2.2 a (List.mem_eraseDups.mpr hal) a ha rfl
    have hremove : (r.removeAll l).eraseDups = rest := by
      rw [List.removeAll, filter_eraseDups, ← h, List.filter_append]
      exact (congrArg₂ _ hnone hrest).trans rest.nil_append
    rw [hremove, h]

theorem eraseDups_append_append_eq_iff (k l r : List α) :
    (k ++ l ++ r).eraseDups = (k ++ r).eraseDups ↔
      (l.removeAll k).eraseDups <+: (r.removeAll k).eraseDups := by
  have hsplit : (l ++ r).removeAll k = l.removeAll k ++ r.removeAll k := List.filter_append _ _
  rw [List.append_assoc, List.eraseDups_append, List.eraseDups_append, List.append_right_inj,
    hsplit, eraseDups_append_eq_iff]

end Data
