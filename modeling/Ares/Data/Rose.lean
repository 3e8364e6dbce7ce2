import Ares.Data.Except

/-! Finitely branching trees: the listing of their nodes in pre-order, each with the values above
it, and the traversal that collects at most so many of them. -/

namespace Data

universe u

inductive Rose (α : Type u)
  | node (value : α) (children : List (Rose α))

namespace Rose

variable {α β ε : Type}

mutual

/-- The nodes in pre-order, each with the values above it, the nearest first. -/
def branches (above : List α) : Rose α → List (List α × α)
  | node value children => (above, value) :: branchesAll (value :: above) children

def branchesAll (above : List α) : List (Rose α) → List (List α × α)
  | [] => []
  | tree :: trees => branches above tree ++ branchesAll above trees

end

mutual

/-- The tree without the nodes that are not kept and all below them, of the first `width` children
of each node. -/
def prune (keep : α → Bool) (width : Nat) : Rose α → List (Rose α)
  | node value children =>
      if keep value then [node value (pruneAll keep width width children)] else []

/-- The same of the first `n` trees. -/
def pruneAll (keep : α → Bool) (width : Nat) : Nat → List (Rose α) → List (Rose α)
  | 0, _ => []
  | _, [] => []
  | n + 1, tree :: trees => prune keep width tree ++ pruneAll keep width n trees

end

mutual

/-- Adds the nodes of a tree to `output`, in pre-order.  A node that is not kept is left out with
all below it, and so is one that finds `cap` entries there. -/
def collect (keep : α → Bool) (emit : Option α → α → Except ε β) (cap width : Nat)
    (parent : Option α) : Rose α → List β → Except ε (List β)
  | node value children, output =>
      if !keep value || cap ≤ output.length then .ok output
      else
        match emit parent value with
        | .error e => .error e
        | .ok entry => collectAll keep emit cap width (some value) width children (output ++ [entry])

/-- The same for the first `n` trees. -/
def collectAll (keep : α → Bool) (emit : Option α → α → Except ε β) (cap width : Nat)
    (parent : Option α) : Nat → List (Rose α) → List β → Except ε (List β)
  | 0, _, output => .ok output
  | _, [], output => .ok output
  | n + 1, tree :: trees, output =>
      match collect keep emit cap width parent tree output with
      | .error e => .error e
      | .ok output => collectAll keep emit cap width parent n trees output

end

/-! ### The listing -/

/-- Every entry that has a value above it comes after the entry of that value. -/
def Led (above : List α) (listing : List (List α × α)) : Prop :=
  ∀ front entry back, listing = front ++ entry :: back →
    entry.1 = above ∨ ∃ value rest, entry.1 = value :: rest ∧ (rest, value) ∈ front

theorem Led.append {above : List α} {first second : List (List α × α)} (h1 : Led above first)
    (h2 : Led above second) : Led above (first ++ second) := by
  intro front entry back hlisting
  rcases List.append_eq_append_iff.mp hlisting with ⟨more, rfl, hmore⟩ | ⟨more, hfirst, hmore⟩
  · rcases h2 more entry back hmore with h | ⟨value, rest, h, hm⟩
    · exact .inl h
    · exact .inr ⟨value, rest, h, List.mem_append_right first hm⟩
  · cases more with
    | nil =>
      rw [List.append_nil] at hfirst
      rcases h2 [] entry back hmore.symm with h | ⟨_, _, _, hm⟩
      · exact .inl h
      · cases hm
    | cons x more =>
      obtain ⟨rfl, rfl⟩ := List.cons.inj hmore
      exact h1 front entry more hfirst

theorem Led.below {above : List α} {value : α} {listing : List (List α × α)}
    (h : Led (value :: above) listing) : Led above ((above, value) :: listing) := by
  intro front entry back hlisting
  cases front with
  | nil =>
    obtain ⟨rfl, -⟩ := List.cons.inj hlisting
    exact .inl rfl
  | cons x front =>
    obtain ⟨rfl, htail⟩ := List.cons.inj hlisting
    rcases h front entry back htail with h | ⟨parent, rest, h, hm⟩
    · exact .inr ⟨value, above, h, List.mem_cons_self⟩
    · exact .inr ⟨parent, rest, h, List.mem_cons_of_mem _ hm⟩

theorem Led.take {above : List α} {listing : List (List α × α)} (h : Led above listing) (n : Nat) :
    Led above (listing.take n) := by
  intro front entry back htake
  refine h front entry (back ++ listing.drop n) ?_
  rw [← List.cons_append, ← List.append_assoc, ← htake, List.take_append_drop]

mutual

theorem branches_led (above : List α) : ∀ tree : Rose α, Led above (branches above tree)
  | node value children => (branchesAll_led (value :: above) children).below

theorem branchesAll_led (above : List α) :
    ∀ trees : List (Rose α), Led above (branchesAll above trees)
  | [] => fun front _ _ h => by cases front <;> cases h
  | tree :: trees => (branches_led above tree).append (branchesAll_led above trees)

end

theorem branchesAll_append (above : List α) (first second : List (Rose α)) :
    branchesAll above (first ++ second) = branchesAll above first ++ branchesAll above second := by
  induction first with
  | nil => rfl
  | cons tree first ih => simp [branchesAll, ih]

-- What stands above a tree does not change the values in it.
mutual

theorem map_snd_branches (above above' : List α) :
    ∀ tree : Rose α, (branches above tree).map (·.2) = (branches above' tree).map (·.2)
  | node value children => by
      simp only [branches, List.map_cons]
      rw [map_snd_branchesAll (value :: above) (value :: above')]

theorem map_snd_branchesAll (above above' : List α) :
    ∀ trees : List (Rose α), (branchesAll above trees).map (·.2) = (branchesAll above' trees).map (·.2)
  | [] => rfl
  | tree :: trees => by
      simp only [branchesAll, List.map_append]
      rw [map_snd_branches above above', map_snd_branchesAll above above']

end

theorem Led.above {listing front back : List (List α × α)} {entry : List α × α}
    (h : Led [] listing) (hlisting : listing = front ++ entry :: back) :
    ∀ value ∈ entry.1, ∃ rest, (rest, value) ∈ front := by
  obtain ⟨n, hn⟩ : ∃ n, entry.1.length = n := ⟨_, rfl⟩
  induction n generalizing front entry back with
  | zero =>
    rw [List.length_eq_zero_iff.mp hn]
    nofun
  | succ n ih =>
    rcases h front entry back hlisting with htop | ⟨parent, rest, hentry, hm⟩
    · rw [htop] at hn
      cases hn
    · intro value hvalue
      rw [hentry] at hvalue
      rcases List.mem_cons.mp hvalue with rfl | hvalue
      · exact ⟨rest, hm⟩
      · obtain ⟨before, after, rfl⟩ := List.append_of_mem hm
        rw [List.append_assoc, List.cons_append] at hlisting
        have hlength : rest.length = n := by simpa [hentry] using hn
        obtain ⟨up, hup⟩ := ih hlisting hlength value hvalue
        exact ⟨up, List.mem_append_left _ hup⟩

/-! ### Pruning -/

-- What is left has been kept.
mutual

theorem keep_prune (keep : α → Bool) (width : Nat) (above : List α) :
    ∀ (tree : Rose α), ∀ entry ∈ branchesAll above (prune keep width tree), keep entry.2
  | node value children => by
      rw [prune]
      split
      · next hkeep =>
        intro entry hm
        rw [branchesAll, branchesAll, branches, List.append_nil] at hm
        rcases List.mem_cons.mp hm with rfl | hm
        · exact hkeep
        · exact keep_pruneAll keep width (value :: above) width children entry hm
      · nofun

theorem keep_pruneAll (keep : α → Bool) (width : Nat) (above : List α) :
    ∀ (n : Nat) (trees : List (Rose α)),
      ∀ entry ∈ branchesAll above (pruneAll keep width n trees), keep entry.2
  | 0, _ => by simp [pruneAll, branchesAll]
  | n + 1, [] => by simp [pruneAll, branchesAll]
  | n + 1, tree :: trees => by
      rw [pruneAll, branchesAll_append]
      intro entry hm
      rcases List.mem_append.mp hm with hm | hm
      · exact keep_prune keep width above tree entry hm
      · exact keep_pruneAll keep width above n trees entry hm

end

-- Every node is kept and none has more than `width` children.
mutual

def Within (keep : α → Bool) (width : Nat) : Rose α → Prop
  | node value children => keep value ∧ children.length ≤ width ∧ WithinAll keep width children

def WithinAll (keep : α → Bool) (width : Nat) : List (Rose α) → Prop
  | [] => True
  | tree :: trees => Within keep width tree ∧ WithinAll keep width trees

end

mutual

theorem prune_of_within {keep : α → Bool} {width : Nat} :
    ∀ {tree : Rose α}, Within keep width tree → prune keep width tree = [tree]
  | node value children, h => by
      rw [Within] at h
      obtain ⟨hkeep, hwidth, hchildren⟩ := h
      rw [prune, if_pos hkeep, pruneAll_of_within hwidth hchildren]

theorem pruneAll_of_within {keep : α → Bool} {width : Nat} :
    ∀ {n : Nat} {trees : List (Rose α)}, trees.length ≤ n → WithinAll keep width trees →
      pruneAll keep width n trees = trees
  | 0, [], _, _ => by rw [pruneAll]
  | n + 1, [], _, _ => by simp [pruneAll]
  | n + 1, tree :: trees, hn, h => by
      rw [WithinAll] at h
      rw [pruneAll, prune_of_within h.1, pruneAll_of_within (Nat.le_of_succ_le_succ hn) h.2]
      rfl

end

/-! ### Collecting -/

/-- What is left of a traversal that may still add `room` entries. -/
def emitted (emit : Option α → α → Except ε β) (room : Nat) (listing : List (List α × α)) :
    Except ε (List β) :=
  (listing.take room).mapM fun entry => emit entry.1.head? entry.2

theorem mapM_length {f : α → Except ε β} {items : List α} {results : List β}
    (h : items.mapM f = .ok results) : results.length = items.length :=
  (mapM_eq_ok h).length_eq.symm

/-- A traversal that stops at `cap` entries emits the front of one listing and then, in the room
that is left, the front of the next. -/
theorem emitted_append (emit : Option α → α → Except ε β) (cap : Nat) (output : List β)
    (first second : List (List α × α)) :
    (match (emitted emit (cap - output.length) first).map (output ++ ·) with
      | .error e => .error e
      | .ok output => (emitted emit (cap - output.length) second).map (output ++ ·)) =
      (emitted emit (cap - output.length) (first ++ second)).map (output ++ ·) := by
  have split : emitted emit (cap - output.length) (first ++ second) =
      (do
        let entries ← emitted emit (cap - output.length) first
        let others ← emitted emit (cap - output.length - first.length) second
        pure (entries ++ others)) := by
    rw [emitted, List.take_append, List.mapM_append]
    rfl
  rw [split]
  cases hfirst : emitted emit (cap - output.length) first with
  | error e => rfl
  | ok entries =>
    have hlength := mapM_length hfirst
    rw [List.length_take] at hlength
    have room : cap - (output ++ entries).length = cap - output.length - first.length := by
      rw [List.length_append]
      omega
    simp only [Except.map, room]
    cases emitted emit (cap - output.length - first.length) second with
    | error e => rfl
    | ok others => simp [bind, Except.bind, pure, Except.pure, List.append_assoc]

-- The parent that the traversal passes on is the nearest value above in the listing.
mutual

theorem collect_eq (keep : α → Bool) (emit : Option α → α → Except ε β) (cap width : Nat)
    (above : List α) : ∀ (tree : Rose α) (output : List β),
      collect keep emit cap width above.head? tree output =
        (emitted emit (cap - output.length) (branchesAll above (prune keep width tree))).map
          (output ++ ·)
  | node value children, output => by
      rw [collect, prune]
      cases hkeep : keep value with
      | false => simp [branchesAll, emitted, Except.map, pure, Except.pure]
      | true =>
        by_cases hcap : cap ≤ output.length
        · have room : cap - output.length = 0 := by omega
          simp [hcap, room, emitted, Except.map, pure, Except.pure]
        · obtain ⟨room, hroom⟩ : ∃ room, cap - output.length = room + 1 :=
            ⟨cap - output.length - 1, by omega⟩
          have listing : branchesAll above [node value (pruneAll keep width width children)] =
              (above, value) :: branchesAll (value :: above)
                (pruneAll keep width width children) := by
            simp [branchesAll, branches]
          simp only [Bool.not_true, Bool.false_or, hcap, decide_false, Bool.false_eq_true, if_false,
            if_true]
          rw [listing, hroom, emitted, List.take_succ_cons, List.mapM_cons]
          cases hemit : emit above.head? value with
          | error e => rfl
          | ok entry =>
            have rest := collectAll_eq keep emit cap width (value :: above) width children
              (output ++ [entry])
            have left : cap - (output ++ [entry]).length = room := by
              rw [List.length_append, List.length_singleton]
              omega
            rw [left, List.head?_cons] at rest
            simp only [rest, emitted]
            cases (List.take room (branchesAll (value :: above)
              (pruneAll keep width width children))).mapM fun entry => emit entry.1.head? entry.2 with
            | error e => rfl
            | ok entries =>
              simp [Except.map, bind, Except.bind, pure, Except.pure]

theorem collectAll_eq (keep : α → Bool) (emit : Option α → α → Except ε β) (cap width : Nat)
    (above : List α) : ∀ (n : Nat) (trees : List (Rose α)) (output : List β),
      collectAll keep emit cap width above.head? n trees output =
        (emitted emit (cap - output.length) (branchesAll above (pruneAll keep width n trees))).map
          (output ++ ·)
  | 0, trees, output => by
      simp [collectAll, pruneAll, branchesAll, emitted, Except.map, pure, Except.pure]
  | n + 1, [], output => by
      simp [collectAll, pruneAll, branchesAll, emitted, Except.map, pure, Except.pure]
  | n + 1, tree :: trees, output => by
      have first := collect_eq keep emit cap width above tree output
      have rest := collectAll_eq keep emit cap width above n trees
      rw [collectAll, pruneAll, branchesAll_append, ← emitted_append, first]
      simp only [rest]

end

end Rose

end Data
