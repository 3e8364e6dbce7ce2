import Mathlib.Data.List.Basic
import Mathlib.Order.MinMax

/-! The gaps that intervals leave on a line of natural numbers.  The intervals may overlap, may lie
inside one another and may reach past the end of the line. -/

namespace Data

variable {α : Type*} {start stop : α → Nat} {last cursor : Nat} {items : List α} {g : Nat × Nat}

/-- The gaps from `cursor` up to `last` between the intervals `[start a, stop a]`, which are given
by increasing start. -/
def gaps (start stop : α → Nat) (last : Nat) : Nat → List α → List (Nat × Nat)
  | cursor, [] => if cursor ≤ last then [(cursor, last)] else []
  | cursor, a :: rest =>
    (if cursor < start a then [(cursor, start a - 1)] else []) ++
      gaps start stop last (max cursor (stop a + 1)) rest

theorem mem_gaps_cons {a : α} :
    g ∈ gaps start stop last cursor (a :: items) ↔
      cursor < start a ∧ g = (cursor, start a - 1) ∨
        g ∈ gaps start stop last (max cursor (stop a + 1)) items := by
  rw [gaps, List.mem_append]
  by_cases h : cursor < start a <;> simp [h]

theorem le_of_mem_gaps (h : g ∈ gaps start stop last cursor items) : cursor ≤ g.1 := by
  induction items generalizing cursor with
  | nil =>
    rw [gaps] at h
    split at h
    · obtain rfl := List.mem_singleton.1 h
      exact le_rfl
    · cases h
  | cons a rest ih =>
    rcases mem_gaps_cons.1 h with ⟨-, rfl⟩ | h
    · exact le_rfl
    · exact (le_max_left _ _).trans (ih h)

theorem apart_of_mem_gaps (hsorted : items.Pairwise fun a b => start a ≤ start b)
    (h : g ∈ gaps start stop last cursor items) {a : α} (ha : a ∈ items) :
    g.2 < start a ∨ stop a < g.1 := by
  induction items generalizing cursor with
  | nil => cases ha
  | cons b rest ih =>
    obtain ⟨hb, hrest⟩ := List.pairwise_cons.1 hsorted
    rcases mem_gaps_cons.1 h with ⟨hlt, rfl⟩ | h
    · -- the gap in front of `b` ends before `b`, and so before everything that comes later
      have hle : start b ≤ start a := by
        rcases List.mem_cons.1 ha with rfl | ha
        · exact le_rfl
        · exact hb a ha
      exact .inl (by dsimp only; omega)
    · rcases List.mem_cons.1 ha with rfl | ha
      · have := le_of_mem_gaps h
        exact .inr (by omega)
      · exact ih hrest h ha

variable (stop last cursor) in
theorem exists_gap_iff (hsorted : items.Pairwise fun a b => start a ≤ start b)
    (hlast : ∀ a ∈ items, start a ≤ last + 1) (k : Nat) :
    (∃ g ∈ gaps start stop last cursor items, g.1 ≤ k ∧ k ≤ g.2) ↔
      cursor ≤ k ∧ k ≤ last ∧ ∀ a ∈ items, k < start a ∨ stop a < k := by
  induction items generalizing cursor with
  | nil =>
    rw [gaps]
    split
    · simp
    · simp
      omega
  | cons a rest ih =>
    obtain ⟨ha, hrest⟩ := List.pairwise_cons.1 hsorted
    obtain ⟨halast, hrestlast⟩ := List.forall_mem_cons.1 hlast
    have hih := @ih (max cursor (stop a + 1)) hrest hrestlast
    constructor
    · rintro ⟨g, hg, hk⟩
      rcases mem_gaps_cons.1 hg with ⟨hlt, rfl⟩ | hg
      · dsimp only at hk
        refine ⟨hk.1, by omega, List.forall_mem_cons.2 ⟨.inl (by omega), fun b hb => ?_⟩⟩
        have := ha b hb
        exact .inl (by omega)
      · obtain ⟨hcursor, hle, hout⟩ := hih.1 ⟨g, hg, hk⟩
        exact ⟨by omega, hle, List.forall_mem_cons.2 ⟨.inr (by omega), hout⟩⟩
    · rintro ⟨hcursor, hle, hout⟩
      obtain ⟨hhead, hout⟩ := List.forall_mem_cons.1 hout
      by_cases hk : k < start a
      · exact ⟨(cursor, start a - 1), mem_gaps_cons.2 (.inl ⟨by omega, rfl⟩), hcursor,
          by dsimp only; omega⟩
      · obtain ⟨g, hg, hin⟩ := hih.2 ⟨by omega, hle, hout⟩
        exact ⟨g, mem_gaps_cons.2 (.inr hg), hin⟩

theorem gap_nonempty (h : g ∈ gaps start stop last cursor items) : g.1 ≤ g.2 := by
  induction items generalizing cursor with
  | nil =>
    rw [gaps] at h
    split at h
    · obtain rfl := List.mem_singleton.1 h
      assumption
    · cases h
  | cons a rest ih =>
    rcases mem_gaps_cons.1 h with ⟨hlt, rfl⟩ | h
    · dsimp only
      omega
    · exact ih h

theorem pairwise_gaps (hproper : ∀ a ∈ items, start a ≤ stop a) :
    (gaps start stop last cursor items).Pairwise fun g h => g.2 + 1 < h.1 := by
  induction items generalizing cursor with
  | nil =>
    rw [gaps]
    split <;> simp
  | cons a rest ih =>
    obtain ⟨ha, hrest⟩ := List.forall_mem_cons.1 hproper
    rw [gaps]
    refine List.pairwise_append.2 ⟨by split <;> simp, ih hrest, fun g hg h hh => ?_⟩
    have hle := le_of_mem_gaps hh
    split at hg
    · obtain rfl := List.mem_singleton.1 hg
      dsimp only
      omega
    · cases hg

theorem end_of_mem_gaps (h : g ∈ gaps start stop last cursor items) :
    g.2 ≤ last ∨ ∃ a ∈ items, g.2 < start a := by
  induction items generalizing cursor with
  | nil =>
    rw [gaps] at h
    split at h
    · obtain rfl := List.mem_singleton.1 h
      exact .inl le_rfl
    · cases h
  | cons a rest ih =>
    rcases mem_gaps_cons.1 h with ⟨hlt, rfl⟩ | h
    · exact .inr ⟨a, List.mem_cons_self, by dsimp only; omega⟩
    · rcases ih h with hle | ⟨b, hb, hlt⟩
      · exact .inl hle
      · exact .inr ⟨b, List.mem_cons_of_mem _ hb, hlt⟩

variable (start stop items) in
theorem exists_gap_of_free {a b : Nat} (hcursor : cursor ≤ a) (hab : a ≤ b)
    (hend : b ≤ last ∨ ∃ x ∈ items, b < start x) (hfree : ∀ x ∈ items, b < start x ∨ stop x < a) :
    ∃ g ∈ gaps start stop last cursor items, g.1 ≤ a ∧ b ≤ g.2 := by
  induction items generalizing cursor with
  | nil =>
    have hlast : b ≤ last := by simpa using hend
    rw [gaps, if_pos (by omega)]
    exact ⟨_, List.mem_singleton_self _, hcursor, hlast⟩
  | cons x rest ih =>
    obtain ⟨hx, hrest⟩ := List.forall_mem_cons.1 hfree
    by_cases hbefore : b < start x
    · exact ⟨(cursor, start x - 1), mem_gaps_cons.2 (.inl ⟨by omega, rfl⟩), hcursor,
        by dsimp only; omega⟩
    · have hend' : b ≤ last ∨ ∃ y ∈ rest, b < start y := by simpa [hbefore] using hend
      obtain ⟨g, hg, hin⟩ := @ih (max cursor (stop x + 1)) (by omega) hend' hrest
      exact ⟨g, mem_gaps_cons.2 (.inr hg), hin⟩

end Data
