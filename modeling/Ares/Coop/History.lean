import Mathlib.Data.List.Infix

/-! Histories: lists of events, the last event first.  `Always P h` says that `P` holds of every
event of `h` and the events before it. -/

namespace Coop

variable {η : Type} {P Q : η → List η → Prop} {e : η} {h past : List η}

def Always (P : η → List η → Prop) : List η → Prop
  | [] => True
  | e :: past => P e past ∧ Always P past

@[simp] theorem always_nil : Always P [] := trivial

@[simp] theorem always_cons : Always P (e :: past) ↔ P e past ∧ Always P past := Iff.rfl

theorem Always.suffix (hh : Always P h) (hs : past <:+ h) : Always P past := by
  induction h with
  | nil => obtain rfl := List.suffix_nil.mp hs; trivial
  | cons e l ih =>
    rcases List.suffix_cons_iff.mp hs with rfl | hs
    · exact hh
    · exact ih hh.2 hs

theorem Always.at (hh : Always P h) (hs : (e :: past) <:+ h) : P e past := (hh.suffix hs).1

theorem always_iff : Always P h ↔ ∀ e past, (e :: past) <:+ h → P e past := by
  refine ⟨fun hh _ _ hs => hh.at hs, fun hall => ?_⟩
  induction h with
  | nil => trivial
  | cons e l ih =>
    exact ⟨hall e l (List.suffix_refl _),
      ih fun e' past hs => hall e' past (hs.trans (List.suffix_cons e l))⟩

theorem exists_suffix_of_mem (he : e ∈ h) : ∃ past, (e :: past) <:+ h := by
  obtain ⟨later, past, rfl⟩ := List.append_of_mem he
  exact ⟨past, List.suffix_append _ _⟩

theorem Always.exists_past (hh : Always P h) (he : e ∈ h) :
    ∃ past, (e :: past) <:+ h ∧ P e past ∧ Always P past := by
  obtain ⟨past, hs⟩ := exists_suffix_of_mem he
  exact ⟨past, hs, hh.suffix hs⟩

theorem sublist_of_suffix {l : List η} (hl : l.Sublist past) (hs : (e :: past) <:+ h) :
    (e :: l).Sublist h :=
  (hl.cons_cons e).trans hs.sublist

theorem past_or_eq_or_past {e e' : η} {past past' : List η} (hs : (e :: past) <:+ h)
    (hs' : (e' :: past') <:+ h) :
    (e' :: past') <:+ past ∨ (e = e' ∧ past = past') ∨ (e :: past) <:+ past' := by
  rcases List.suffix_or_suffix_of_suffix hs hs' with hlt | hlt
  · rcases List.suffix_cons_iff.mp hlt with heq | hlt
    · exact .inr (.inl ⟨(List.cons.inj heq).1, (List.cons.inj heq).2⟩)
    · exact .inr (.inr hlt)
  · rcases List.suffix_cons_iff.mp hlt with heq | hlt
    · exact .inr (.inl ⟨(List.cons.inj heq).1.symm, (List.cons.inj heq).2.symm⟩)
    · exact .inl hlt

theorem Always.unique {K : η → Prop} {e e' : η} (hh : Always P h)
    (once : ∀ e past, P e past → K e → ∀ e' ∈ past, ¬K e') (he : e ∈ h) (he' : e' ∈ h) (hk : K e)
    (hk' : K e') : e = e' := by
  obtain ⟨past, hs⟩ := exists_suffix_of_mem he
  obtain ⟨past', hs'⟩ := exists_suffix_of_mem he'
  rcases past_or_eq_or_past hs hs' with hlt | ⟨heq, -⟩ | hlt
  · exact absurd hk' (once e past (hh.at hs) hk e' (hlt.subset List.mem_cons_self))
  · exact heq
  · exact absurd hk (once e' past' (hh.at hs') hk' e (hlt.subset List.mem_cons_self))

theorem Always.drawn_once (draw : Nat → Nat → η) {t t' n : Nat}
    (fresh : ∀ {t n past}, P (draw t n) past → ∀ t' n', draw t' n' ∈ past → n' < n)
    (hh : Always P h) (hd : draw t n ∈ h) (hd' : draw t' n ∈ h) : draw t n = draw t' n := by
  refine hh.unique (K := fun e => ∃ t, e = draw t n) ?_ hd hd' ⟨t, rfl⟩ ⟨t', rfl⟩
  rintro _ past hcause ⟨u, rfl⟩ _ hmem ⟨u', rfl⟩
  exact Nat.lt_irrefl n (fresh hcause u' n hmem)

end Coop
