import Ares.Coop.Journal

/-! One-use tokens.  Events of a history put tokens into a table, take them out by their ids, and
draw the numbers that ids are made from; where every taking finds what the table holds and every
number is new, no token is found twice. -/

namespace Coop

variable {η γ ι : Type} [DecidableEq ι]

inductive Kind (γ ι : Type)
  | granted (g : γ)
  | popped (i : ι) (found : Option γ)
  | drawn (n : Nat)
  | other

/-- The events of each task that put a token into the table, take one out, with what they found, or
draw a number. -/
structure Tokens (η γ ι : Type) where
  id : γ → ι
  grant : Nat → γ → η
  pop : Nat → ι → Option γ → η
  draw : Nat → Nat → η
  kind : η → Kind γ ι
  kind_grant : ∀ t g, kind (grant t g) = .granted g
  kind_pop : ∀ t i found, kind (pop t i found) = .popped i found
  kind_draw : ∀ t n, kind (draw t n) = .drawn n
  event : ∀ e, (∃ t g, e = grant t g) ∨ (∃ t i found, e = pop t i found) ∨ (∃ t n, e = draw t n) ∨
    kind e = .other
  drawer : ∀ {t t' n}, draw t n = draw t' n → t = t'

namespace Tokens

variable (T : Tokens η γ ι)

/-- The tokens that the table holds after a history. -/
def table : List η → ι → Option γ
  | [], _ => none
  | e :: past, i =>
    match T.kind e with
    | .granted g => if i = T.id g then some g else table past i
    | .popped i' _ => if i = i' then none else table past i
    | .drawn _ | .other => table past i

variable {T} {h past q q' : List η} {i : ι} {g g' : γ} {t t' : Nat}

@[simp] theorem table_grant : T.table (T.grant t g :: past) i =
    if i = T.id g then some g else T.table past i := by
  rw [table, T.kind_grant]

@[simp] theorem table_pop {i' : ι} {found : Option γ} : T.table (T.pop t i' found :: past) i =
    if i = i' then none else T.table past i := by
  rw [table, T.kind_pop]

@[simp] theorem table_draw {n : Nat} : T.table (T.draw t n :: past) i = T.table past i := by
  rw [table, T.kind_draw]

theorem table_other {e : η} (he : T.kind e = .other) : T.table (e :: past) i = T.table past i := by
  rw [table, he]

omit [DecidableEq ι] in
theorem grant_ne_pop {found : Option γ} : T.grant t g ≠ T.pop t' i found := by
  intro heq
  have hkind := congrArg T.kind heq
  rw [T.kind_grant, T.kind_pop] at hkind
  cases hkind

theorem granted_of_table (ht : T.table h i = some g) : T.id g = i ∧ ∃ t later past,
    h = later ++ T.grant t g :: past ∧ ∀ t' found, T.pop t' i found ∉ later := by
  induction h with
  | nil => cases ht
  | cons e l ih =>
    have older : T.table l i = some g → (∀ t' found, T.pop t' i found ≠ e) →
        T.id g = i ∧ ∃ t later past, e :: l = later ++ T.grant t g :: past ∧
          ∀ t' found, T.pop t' i found ∉ later := by
      intro hl hne
      obtain ⟨hid, t, later, past, rfl, hnot⟩ := ih hl
      refine ⟨hid, t, e :: later, past, rfl, fun t' found hmem => ?_⟩
      rcases List.mem_cons.mp hmem with heq | hmem
      · exact hne t' found heq
      · exact hnot t' found hmem
    rcases T.event e with ⟨t, g', rfl⟩ | ⟨t, i', found, rfl⟩ | ⟨t, n, rfl⟩ | hother
    · rw [table_grant] at ht
      split at ht
      · next heq =>
        obtain rfl := Option.some.inj ht
        exact ⟨heq.symm, t, [], l, rfl, by simp⟩
      · exact older ht fun t' found heq => grant_ne_pop heq.symm
    · rw [table_pop] at ht
      split at ht
      · cases ht
      · next hne =>
        refine older ht fun t' found' heq => hne ?_
        have hkind := congrArg T.kind heq
        rw [T.kind_pop, T.kind_pop] at hkind
        exact (Kind.popped.inj hkind).1
    · rw [table_draw] at ht
      refine older ht fun t' found heq => ?_
      have hkind := congrArg T.kind heq
      rw [T.kind_pop, T.kind_draw] at hkind
      cases hkind
    · rw [table_other hother] at ht
      refine older ht fun t' found heq => ?_
      rw [← heq, T.kind_pop] at hother
      cases hother

/-! ### A table and a counter that follow a history -/

/-- Every event has its cause, the table holds what the history says, and the numbers drawn so far
are below the counter. -/
structure Tracks (T : Tokens η γ ι) (C : η → List η → Prop) (h : List η) (table : ι → Option γ)
    (count : Nat) : Prop where
  causal : Always C h
  grants : ∀ i, table i = T.table h i
  drawn : ∀ t n, T.draw t n ∈ h → n < count

section Steps

variable {C : η → List η → Prop} {table : ι → Option γ} {count : Nat} {e : η}

theorem Tracks.note (hk : T.Tracks C h table count) (he : C e h) (hn : T.kind e = .other) :
    T.Tracks C (e :: h) table count where
  causal := ⟨he, hk.causal⟩
  grants i := (hk.grants i).trans (table_other hn).symm
  drawn t n hmem := by
    rcases List.mem_cons.mp hmem with rfl | hmem
    · rw [T.kind_draw] at hn
      cases hn
    · exact hk.drawn t n hmem

theorem Tracks.draw (hk : T.Tracks C h table count) (he : C (T.draw t count) h) :
    T.Tracks C (T.draw t count :: h) table (count + 1) where
  causal := ⟨he, hk.causal⟩
  grants i := (hk.grants i).trans table_draw.symm
  drawn t' n hmem := by
    rcases List.mem_cons.mp hmem with heq | hmem
    · have hkind := congrArg T.kind heq
      rw [T.kind_draw, T.kind_draw] at hkind
      have hn := Kind.drawn.inj hkind
      omega
    · exact Nat.lt_succ_of_lt (hk.drawn t' n hmem)

theorem Tracks.grant (hk : T.Tracks C h table count) (he : C (T.grant t g) h) :
    T.Tracks C (T.grant t g :: h) (Function.update table (T.id g) (some g)) count where
  causal := ⟨he, hk.causal⟩
  grants i := by
    rw [Function.update_apply, table_grant, hk.grants i]
  drawn t' n hmem := by
    rcases List.mem_cons.mp hmem with heq | hmem
    · have hkind := congrArg T.kind heq
      rw [T.kind_draw, T.kind_grant] at hkind
      cases hkind
    · exact hk.drawn t' n hmem

theorem Tracks.pop (hk : T.Tracks C h table count) (he : C (T.pop t i (table i)) h) :
    T.Tracks C (T.pop t i (table i) :: h) (Function.update table i none) count where
  causal := ⟨he, hk.causal⟩
  grants i' := by
    rw [Function.update_apply, table_pop, hk.grants i']
  drawn t' n hmem := by
    rcases List.mem_cons.mp hmem with heq | hmem
    · have hkind := congrArg T.kind heq
      rw [T.kind_draw, T.kind_pop] at hkind
      cases hkind
    · exact hk.drawn t' n hmem

end Steps

/-! ### Tokens that are used once -/

/-- Causes under which every taking finds what the table holds, every number is new, and a task puts
in one token, with the id of a number that it drew. -/
structure OneUse (T : Tokens η γ ι) (uuid : Nat → ι) (C : η → List η → Prop) : Prop where
  popped : ∀ {t i found past}, C (T.pop t i found) past → found = T.table past i
  drawn : ∀ {t n past}, C (T.draw t n) past → ∀ t' n', T.draw t' n' ∈ past → n' < n
  granted : ∀ {t g past}, C (T.grant t g) past → (∀ g', T.grant t g' ∉ past) ∧
    ∃ n, T.draw t n ∈ past ∧ T.id g = uuid n

section Once

variable {C : η → List η → Prop} {uuid : Nat → ι}

/-- A token that was taken out was put in before. -/
theorem OneUse.granted_of_popped (hT : T.OneUse uuid C) (hc : Always C h)
    (hmem : T.pop t i (some g) ∈ h) :
    ∃ u past, (T.grant u g :: past) <:+ h ∧ C (T.grant u g) past := by
  obtain ⟨q, hs⟩ := exists_suffix_of_mem hmem
  obtain ⟨-, u, later, past, rfl, -⟩ := granted_of_table (hT.popped (hc.at hs)).symm
  have hgrant : (T.grant u g :: past) <:+ h :=
    (List.suffix_append _ _).trans ((List.suffix_cons _ _).trans hs)
  exact ⟨u, past, hgrant, hc.at hgrant⟩

theorem OneUse.granted_once (hT : T.OneUse uuid C) (inj : Function.Injective uuid)
    (hc : Always C h) (hs : (T.grant t g :: q) <:+ h) (hmem : T.grant t' g' ∈ q) :
    T.id g' ≠ T.id g := by
  intro hid
  have hcq : Always C q := hc.suffix ((List.suffix_cons _ _).trans hs)
  obtain ⟨q', hs', hcause, -⟩ := hcq.exists_past hmem
  obtain ⟨hfirst, n, hn, hg⟩ := hT.granted (hc.at hs)
  obtain ⟨-, n', hn', hg'⟩ := hT.granted hcause
  obtain rfl : n' = n := inj (by rw [← hg', hid, hg])
  have hn'' : T.draw t' n' ∈ q := ((List.suffix_cons _ _).trans hs').subset hn'
  obtain rfl : t = t' := T.drawer (hcq.drawn_once T.draw hT.drawn hn hn'')
  exact hfirst g' hmem

theorem OneUse.popped_once (hT : T.OneUse uuid C) (inj : Function.Injective uuid)
    (hc : Always C h) (hs : (T.pop t i (some g) :: q) <:+ h)
    (hs' : (T.pop t' i (some g') :: q') <:+ q) : False := by
  have hcq : Always C q := hc.suffix ((List.suffix_cons _ _).trans hs)
  obtain ⟨hid, u, later, past, rfl, hnot⟩ := granted_of_table (hT.popped (hc.at hs)).symm
  -- The earlier taking lies before the token that the later one found.
  have hpast : (T.pop t' i (some g') :: q') <:+ past := by
    have hlen : (T.grant u g :: past) <:+ later ++ T.grant u g :: past := List.suffix_append _ _
    rcases past_or_eq_or_past hlen hs' with hlt | ⟨heq, -⟩ | hlt
    · exact hlt
    · exact absurd heq grant_ne_pop
    · obtain ⟨front, hfront⟩ := hs'
      obtain ⟨mid, rfl⟩ := hlt
      have hsplit : (front ++ [T.pop t' i (some g')] ++ mid) ++ T.grant u g :: past =
          later ++ T.grant u g :: past := by simpa using hfront
      refine absurd ?_ (hnot t' (some g'))
      rw [← List.append_cancel_right hsplit]
      simp
  obtain ⟨hid', u', later', past', rfl, -⟩ := granted_of_table (hT.popped (hcq.at hs')).symm
  have hmem : T.grant u' g' ∈ past := ((List.suffix_cons _ _).trans hpast).subset (by simp)
  exact hT.granted_once inj hcq (List.suffix_append later _) hmem (hid'.trans hid.symm)

theorem OneUse.popped_unique (hT : T.OneUse uuid C) (inj : Function.Injective uuid)
    (hc : Always C h) (he : T.pop t i (some g) ∈ h) (he' : T.pop t' i (some g') ∈ h) :
    T.pop t i (some g) = T.pop t' i (some g') := by
  obtain ⟨r, hr⟩ := exists_suffix_of_mem he
  obtain ⟨r', hr'⟩ := exists_suffix_of_mem he'
  rcases past_or_eq_or_past hr hr' with hlt | ⟨heq, -⟩ | hlt
  · exact (hT.popped_once inj hc hr hlt).elim
  · exact heq
  · exact (hT.popped_once inj hc hr' hlt).elim

end Once

end Tokens

theorem ofList_replicate_injective (c : Char) (k : Nat) :
    Function.Injective fun n : Nat => String.ofList (List.replicate (n + k) c) := by
  intro m n heq
  have hlen := congrArg (fun s : String => s.toList.length) heq
  simpa using hlen

end Coop
