import Mathlib.Logic.Relation
import Mathlib.Data.List.Nodup
import Mathlib.Data.List.Perm.Subperm

/-! Depth-first topological sorting of the part of a graph that a node reaches, with detection of
cycles and of keys that are no node. -/

namespace Data

open Relation

/-- Nodes by key, each with the keys that it depends on. -/
structure DepthFirst (κ α : Type) where
  node? : κ → Option α
  dependencies : α → List κ

namespace DepthFirst

inductive Fault
  | cycle
  | missing
  | fuel
deriving DecidableEq

/-- The keys that are done, the last one first, and their nodes in the order in which they were
done. -/
structure Visited (κ α : Type) where
  keys : List κ
  ordered : List α

/-! ### The graph -/

variable {κ α : Type} (g : DepthFirst κ α)

def Depends (a b : κ) : Prop := ∃ node, g.node? a = some node ∧ b ∈ g.dependencies node

def Reaches : κ → κ → Prop := ReflTransGen g.Depends

/-- The key reaches itself along at least one dependency. -/
def Cyclic (key : κ) : Prop := TransGen g.Depends key key

def Faulty (root : κ) : Prop := ∃ key, g.Reaches root key ∧ (g.node? key = none ∨ g.Cyclic key)

/-- Each key is a node whose dependencies all come after it in the list, where it is not itself. -/
inductive Sorted : List κ → Prop
  | nil : Sorted []
  | cons {key : κ} {node : α} {keys : List κ} (node? : g.node? key = some node)
      (fresh : key ∉ keys) (dependencies : ∀ d ∈ g.dependencies node, d ∈ keys)
      (rest : Sorted keys) : Sorted (key :: keys)

variable {g}

theorem Sorted.nodup {keys : List κ} (h : g.Sorted keys) : keys.Nodup := by
  induction h with
  | nil => exact List.nodup_nil
  | cons _ fresh _ _ ih => exact List.nodup_cons.mpr ⟨fresh, ih⟩

theorem Sorted.isSome {keys : List κ} (h : g.Sorted keys) :
    ∀ key ∈ keys, (g.node? key).isSome := by
  induction h with
  | nil => nofun
  | cons node? _ _ _ ih =>
    intro key hm
    rcases List.mem_cons.mp hm with rfl | hm
    · rw [node?]
      rfl
    · exact ih key hm

theorem Sorted.closed {keys : List κ} (h : g.Sorted keys) {a b : κ} (ha : a ∈ keys)
    (hab : g.Depends a b) : b ∈ keys := by
  induction h with
  | nil => cases ha
  | cons hnode _ dependencies _ ih =>
    rcases List.mem_cons.mp ha with rfl | ha
    · obtain ⟨node, hsome, hb⟩ := hab
      rw [hnode] at hsome
      obtain rfl := Option.some.inj hsome
      exact List.mem_cons_of_mem _ (dependencies b hb)
    · exact List.mem_cons_of_mem _ (ih ha)

theorem Sorted.reaches {keys : List κ} (h : g.Sorted keys) {a b : κ} (ha : a ∈ keys)
    (hab : g.Reaches a b) : b ∈ keys := by
  induction hab with
  | refl => exact ha
  | tail _ hstep ih => exact h.closed ih hstep

theorem Sorted.acyclic {keys : List κ} (h : g.Sorted keys) : ∀ key ∈ keys, ¬ g.Cyclic key := by
  induction h with
  | nil => nofun
  | @cons first node keys hnode fresh dependencies rest ih =>
    intro key hm hcycle
    rcases List.mem_cons.mp hm with rfl | hm
    · obtain ⟨next, ⟨found, hfound, hnext⟩, hback⟩ := TransGen.head'_iff.mp hcycle
      rw [hnode] at hfound
      obtain rfl := Option.some.inj hfound
      exact fresh (rest.reaches (dependencies next hnext) hback)
    · exact ih key hm hcycle

theorem Sorted.before {keys : List κ} (h : g.Sorted keys) {front back : List κ} {key d : κ}
    (hkeys : keys.reverse = front ++ key :: back) (hd : g.Depends key d) : d ∈ front := by
  induction h generalizing back with
  | nil => cases front <;> cases hkeys
  | @cons first node keys hnode _ dependencies rest ih =>
    rw [List.reverse_cons] at hkeys
    rcases List.eq_nil_or_concat back with rfl | ⟨back, last, rfl⟩
    · obtain ⟨rfl, hkey⟩ := List.append_inj' hkeys rfl
      obtain rfl := List.singleton_inj.mp hkey
      obtain ⟨found, hfound, hmem⟩ := hd
      rw [hnode] at hfound
      obtain rfl := Option.some.inj hfound
      exact List.mem_reverse.mpr (dependencies d hmem)
    · rw [List.concat_eq_append, ← List.cons_append, ← List.append_assoc] at hkeys
      exact ih (List.append_inj' hkeys rfl).1

/-! ### A visit -/

/-- The keys are sorted, and the nodes are theirs. -/
structure Visited.Good (g : DepthFirst κ α) (visited : Visited κ α) : Prop where
  sorted : g.Sorted visited.keys
  nodes : visited.ordered.map some = visited.keys.reverse.map g.node?

/-- What becomes of visiting some keys below those of `visiting`. -/
def Outcome (g : DepthFirst κ α) (visiting keys : List κ) (visited : Visited κ α) :
    Except Fault (Visited κ α) → Prop
  | .ok after => after.Good g ∧ (∀ key ∈ keys, key ∈ after.keys) ∧
      ∃ new, after.keys = new ++ visited.keys ∧
        ∀ k ∈ new, k ∉ visiting ∧ ∃ key ∈ keys, g.Reaches key k
  | .error .cycle => ∃ key ∈ keys, ∃ k, g.Reaches key k ∧ g.Cyclic k
  | .error .missing => ∃ key ∈ keys, ∃ k, g.Reaches key k ∧ g.node? k = none
  | .error .fuel => False

/-- Visits one after the other come out as each of them does. -/
theorem outcome_foldlM {visiting keys : List κ} {visited : Visited κ α}
    {f : Visited κ α → κ → Except Fault (Visited κ α)} (hgood : visited.Good g)
    (hf : ∀ visited, visited.Good g → ∀ key ∈ keys, Outcome g visiting [key] visited (f visited key)) :
    Outcome g visiting keys visited (keys.foldlM f visited) := by
  induction keys generalizing visited with
  | nil => exact ⟨hgood, nofun, [], rfl, nofun⟩
  | cons key keys ih =>
    rw [List.foldlM_cons]
    have first := hf visited hgood key List.mem_cons_self
    cases hfirst : f visited key with
    | error e =>
      rw [hfirst] at first
      cases e with
      | cycle =>
        obtain ⟨r, hr, hk⟩ := first
        exact ⟨key, List.mem_cons_self, List.mem_singleton.mp hr ▸ hk⟩
      | missing =>
        obtain ⟨r, hr, hk⟩ := first
        exact ⟨key, List.mem_cons_self, List.mem_singleton.mp hr ▸ hk⟩
      | fuel => exact first
    | ok middle =>
      rw [hfirst] at first
      obtain ⟨hmiddle, hdone, new, hnew, hreach⟩ := first
      have rest := ih hmiddle fun visited hvisited k hk =>
        hf visited hvisited k (List.mem_cons_of_mem _ hk)
      change Outcome g visiting (key :: keys) visited (keys.foldlM f middle)
      cases hrest : keys.foldlM f middle with
      | error e =>
        rw [hrest] at rest
        cases e with
        | cycle =>
          obtain ⟨r, hr, hk⟩ := rest
          exact ⟨r, List.mem_cons_of_mem _ hr, hk⟩
        | missing =>
          obtain ⟨r, hr, hk⟩ := rest
          exact ⟨r, List.mem_cons_of_mem _ hr, hk⟩
        | fuel => exact rest
      | ok after =>
        rw [hrest] at rest
        obtain ⟨hafter, hdone', new', hnew', hreach'⟩ := rest
        refine ⟨hafter, fun k hk => ?_, new' ++ new, ?_, fun k hk => ?_⟩
        · rcases List.mem_cons.mp hk with rfl | hk
          · rw [hnew']
            exact List.mem_append_right _ (hdone k List.mem_cons_self)
          · exact hdone' k hk
        · rw [hnew', hnew, List.append_assoc]
        · rcases List.mem_append.mp hk with hk | hk
          · obtain ⟨hout, r, hr, hreach⟩ := hreach' k hk
            exact ⟨hout, r, List.mem_cons_of_mem _ hr, hreach⟩
          · obtain ⟨hout, r, hr, hreach⟩ := hreach k hk
            exact ⟨hout, key, List.mem_cons_self, List.mem_singleton.mp hr ▸ hreach⟩

/-- The keys that are being visited lead down to the key, and the fuel lasts for the nodes that are
not among them. -/
structure Below (g : DepthFirst κ α) (nodes : List κ) (fuel : Nat) (visiting : List κ) (key : κ) :
    Prop where
  leads : ∀ v ∈ visiting, TransGen g.Depends v key
  nodup : visiting.Nodup
  counted : ∀ v ∈ visiting, v ∈ nodes
  fuel : nodes.length < fuel + visiting.length

theorem Below.deeper {nodes visiting : List κ} {fuel : Nat} {key d : κ}
    (below : Below g nodes (fuel + 1) visiting key) (hvisiting : key ∉ visiting)
    (hcounted : key ∈ nodes) (hd : g.Depends key d) : Below g nodes fuel (key :: visiting) d where
  leads v hv := by
    rcases List.mem_cons.mp hv with rfl | hv
    · exact .single hd
    · exact (below.leads v hv).tail hd
  nodup := List.nodup_cons.mpr ⟨hvisiting, below.nodup⟩
  counted v hv := by
    rcases List.mem_cons.mp hv with rfl | hv
    · exact hcounted
    · exact below.counted v hv
  fuel := by
    have hlt := below.fuel
    rw [List.length_cons]
    omega

variable [DecidableEq κ]

/-- Visits a key below those of `visiting`. -/
def visit (g : DepthFirst κ α) : Nat → List κ → Visited κ α → κ → Except Fault (Visited κ α)
  | 0, _, _, _ => .error .fuel
  | fuel + 1, visiting, visited, key =>
    if key ∈ visited.keys then .ok visited
    else if key ∈ visiting then .error .cycle
    else
      match g.node? key with
      | none => .error .missing
      | some node =>
        match (g.dependencies node).foldlM (visit g fuel (key :: visiting)) visited with
        | .error e => .error e
        | .ok visited => .ok ⟨key :: visited.keys, visited.ordered ++ [node]⟩

theorem outcome_visit {nodes : List κ} (hnodes : ∀ key, (g.node? key).isSome → key ∈ nodes) :
    ∀ {fuel : Nat} {visiting : List κ} {visited : Visited κ α} {key : κ}, visited.Good g →
      Below g nodes fuel visiting key →
      Outcome g visiting [key] visited (g.visit fuel visiting visited key) := by
  intro fuel
  induction fuel with
  | zero =>
    intro visiting visited key _ below
    have hle := (below.nodup.subperm below.counted).length_le
    have hlt := below.fuel
    omega
  | succ fuel ih =>
    intro visiting visited key hgood below
    rw [visit]
    by_cases hdone : key ∈ visited.keys
    · rw [if_pos hdone]
      exact ⟨hgood, fun k hk => List.mem_singleton.mp hk ▸ hdone, [], rfl, nofun⟩
    rw [if_neg hdone]
    by_cases hvisiting : key ∈ visiting
    · rw [if_pos hvisiting]
      exact ⟨key, List.mem_singleton_self key, key, .refl, below.leads key hvisiting⟩
    rw [if_neg hvisiting]
    cases hnode : g.node? key with
    | none => exact ⟨key, List.mem_singleton_self key, key, .refl, hnode⟩
    | some node =>
      have depends {d : κ} (hd : d ∈ g.dependencies node) : g.Depends key d := ⟨node, hnode, hd⟩
      have deeper {d : κ} (hd : d ∈ g.dependencies node) :
          Below g nodes fuel (key :: visiting) d :=
        below.deeper hvisiting (hnodes key (by rw [hnode]; rfl)) (depends hd)
      have inner : Outcome g (key :: visiting) (g.dependencies node) visited
          ((g.dependencies node).foldlM (g.visit fuel (key :: visiting)) visited) :=
        outcome_foldlM hgood fun _ h d hd => ih h (deeper hd)
      dsimp only
      cases hfold : (g.dependencies node).foldlM (g.visit fuel (key :: visiting)) visited with
      | error e =>
        rw [hfold] at inner
        cases e with
        | cycle =>
          obtain ⟨d, hd, k, hreach, hcyclic⟩ := inner
          exact ⟨key, List.mem_singleton_self key, k, .head (depends hd) hreach, hcyclic⟩
        | missing =>
          obtain ⟨d, hd, k, hreach, hmissing⟩ := inner
          exact ⟨key, List.mem_singleton_self key, k, .head (depends hd) hreach, hmissing⟩
        | fuel => exact inner
      | ok after =>
        rw [hfold] at inner
        obtain ⟨hafter, hall, new, hnew, hreach⟩ := inner
        have fresh : key ∉ after.keys := by
          rw [hnew, List.mem_append]
          rintro (hk | hk)
          · exact (hreach key hk).1 List.mem_cons_self
          · exact hdone hk
        refine ⟨⟨.cons hnode fresh hall hafter.sorted, ?_⟩, fun k hk => ?_, key :: new, ?_,
          fun k hk => ?_⟩
        · rw [List.map_append, hafter.nodes, List.reverse_cons, List.map_append, List.map_cons,
            List.map_cons, hnode]
          rfl
        · exact List.mem_singleton.mp hk ▸ List.mem_cons_self
        · rw [hnew]
          rfl
        · rcases List.mem_cons.mp hk with rfl | hk
          · exact ⟨hvisiting, k, List.mem_singleton_self k, .refl⟩
          · obtain ⟨hout, d, hd, hreach⟩ := hreach k hk
            exact ⟨fun h => hout (List.mem_cons_of_mem _ h), key, List.mem_singleton_self key,
              .head (depends hd) hreach⟩

/-! ### Sorting from a root -/

/-- The visit of a root with fuel for `size` nodes. -/
def sort (g : DepthFirst κ α) (size : Nat) (root : κ) : Except Fault (Visited κ α) :=
  g.visit (size + 1) [] ⟨[], []⟩ root

/-- The nodes that the root reaches, by key: each of them once, after all that it depends on, and
the root last. -/
structure Ordered (g : DepthFirst κ α) (root : κ) (keys : List κ) (ordered : List α) : Prop where
  nodes : ordered.map some = keys.map g.node?
  nodup : keys.Nodup
  reached : ∀ key, key ∈ keys ↔ g.Reaches root key
  before : ∀ front key back, keys = front ++ key :: back → ∀ d, g.Depends key d → d ∈ front
  last : keys.getLast? = some root

theorem visit_keys {fuel : Nat} {visiting : List κ} {visited after : Visited κ α} {key : κ}
    (hnew : key ∉ visited.keys) (h : g.visit fuel visiting visited key = .ok after) :
    ∃ keys, after.keys = key :: keys := by
  cases fuel with
  | zero => cases h
  | succ fuel =>
    rw [visit, if_neg hnew] at h
    split at h
    · cases h
    · split at h
      · cases h
      · split at h
        · cases h
        · obtain rfl := Except.ok.inj h
          exact ⟨_, rfl⟩

section Root

variable {nodes : List κ} (hnodes : ∀ key, (g.node? key).isSome → key ∈ nodes) {root : κ}

include hnodes

theorem outcome_sort : Outcome g [] [root] ⟨[], []⟩ (g.sort nodes.length root) :=
  outcome_visit hnodes ⟨.nil, rfl⟩
    ⟨nofun, List.nodup_nil, nofun, by rw [List.length_nil]; omega⟩

theorem sort_ne_fuel : g.sort nodes.length root ≠ .error .fuel := by
  intro h
  have outcome : Outcome g [] [root] ⟨[], []⟩ _ := outcome_sort hnodes
  rw [h] at outcome
  exact outcome

theorem ordered_of_sort {visited : Visited κ α} (h : g.sort nodes.length root = .ok visited) :
    Ordered g root visited.keys.reverse visited.ordered := by
  have outcome : Outcome g [] [root] ⟨[], []⟩ _ := outcome_sort hnodes
  rw [h] at outcome
  obtain ⟨hgood, hroot, new, hnew, hreach⟩ := outcome
  rw [List.append_nil] at hnew
  refine ⟨hgood.nodes, List.nodup_reverse.mpr hgood.sorted.nodup, fun key => ?_,
    fun front key back hkeys d => hgood.sorted.before hkeys, ?_⟩
  · rw [List.mem_reverse]
    constructor
    · intro hk
      obtain ⟨-, r, hr, hreach⟩ := hreach key (hnew ▸ hk)
      exact List.mem_singleton.mp hr ▸ hreach
    · exact hgood.sorted.reaches (hroot root (List.mem_singleton_self root))
  · obtain ⟨keys, hkeys⟩ := visit_keys List.not_mem_nil h
    rw [hkeys, List.reverse_cons, List.getLast?_concat]

theorem sort_error_iff : (∃ e, g.sort nodes.length root = .error e) ↔ g.Faulty root := by
  have outcome : Outcome g [] [root] ⟨[], []⟩ _ := outcome_sort hnodes
  cases hsort : g.sort nodes.length root with
  | error e =>
    rw [hsort] at outcome
    refine ⟨fun _ => ?_, fun _ => ⟨e, rfl⟩⟩
    cases e with
    | cycle =>
      obtain ⟨r, hr, k, hreach, hcyclic⟩ := outcome
      exact ⟨k, List.mem_singleton.mp hr ▸ hreach, .inr hcyclic⟩
    | missing =>
      obtain ⟨r, hr, k, hreach, hmissing⟩ := outcome
      exact ⟨k, List.mem_singleton.mp hr ▸ hreach, .inl hmissing⟩
    | fuel => exact outcome.elim
  | ok visited =>
    rw [hsort] at outcome
    obtain ⟨hgood, hroot, -⟩ := outcome
    refine ⟨fun ⟨e, he⟩ => (nomatch he), fun ⟨k, hreach, hfault⟩ => ?_⟩
    have hk := hgood.sorted.reaches (hroot root (List.mem_singleton_self root)) hreach
    rcases hfault with hmissing | hcyclic
    · have hsome := hgood.sorted.isSome k hk
      rw [hmissing] at hsome
      cases hsome
    · exact (hgood.sorted.acyclic k hk hcyclic).elim

end Root

end DepthFirst

end Data
