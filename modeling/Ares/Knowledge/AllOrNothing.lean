import Ares.Data.Plain
import Ares.Knowledge.Graph

/-! When a call of `apply` that raises leaves the graph and its file as they were. -/

namespace Ares.Knowledge

open Data

variable (nodes : List GraphNode)

variable {lib : GraphLibrary} {g g' : KnowledgeGraph}

namespace KnowledgeGraph

/-! ### Graphs that look the same -/

/-- The same node under every id, the same edges, the same revision. -/
structure Same (g g' : KnowledgeGraph) : Prop where
  nodes : ∀ id, g.nodes.get? id = g'.nodes.get? id
  edges : ∀ edge, edge ∈ g.edges ↔ edge ∈ g'.edges
  revision : g.revision = g'.revision

theorem mem_values {node : GraphNode} :
    node ∈ g.nodes.values ↔ g.nodes.get? node.id = some node := by
  rw [Dict.mem_values]
  exact ⟨fun ⟨id, h⟩ => (g.keyed id node h).symm ▸ h, fun h => ⟨node.id, h⟩⟩

instance : Std.Total nodeLe := ⟨fun a b => le_total a.id b.id⟩

instance : IsTrans GraphNode nodeLe := ⟨fun _ _ _ h h' => le_trans h h'⟩

instance : Std.Total edgeLe := ⟨fun a b => le_total (edgeKey a) (edgeKey b)⟩

instance : IsTrans GraphEdge edgeLe := ⟨fun _ _ _ h h' => le_trans h h'⟩

theorem edgeKey_injective {a b : GraphEdge} (h : edgeKey a = edgeKey b) : a = b := by
  rcases a with ⟨source, relation, target, _, _, _⟩
  rcases b with ⟨source', relation', target', _, _, _⟩
  simp only [edgeKey, EmbeddingLike.apply_eq_iff_eq, Prod.mk.injEq] at h
  obtain ⟨rfl, rfl, rfl⟩ := h
  rfl

theorem mem_sortedNodes {node : GraphNode} :
    node ∈ g.sortedNodes ↔ g.nodes.get? node.id = some node := by
  rw [sortedNodes, List.mem_insertionSort, mem_values]

theorem mem_sortedEdges {edge : GraphEdge} : edge ∈ g.sortedEdges ↔ edge ∈ g.edges := by
  rw [sortedEdges, List.mem_insertionSort]

theorem sortedNodes_eq_iff :
    g.sortedNodes = g'.sortedNodes ↔ ∀ id, g.nodes.get? id = g'.nodes.get? id := by
  constructor
  · intro h id
    apply Option.ext
    intro node
    constructor <;> intro hnode
    · have hid := g.keyed id node hnode
      have hm : node ∈ g.sortedNodes := mem_sortedNodes.mpr (hid.symm ▸ hnode)
      rw [h, mem_sortedNodes, hid] at hm
      exact hm
    · have hid := g'.keyed id node hnode
      have hm : node ∈ g'.sortedNodes := mem_sortedNodes.mpr (hid.symm ▸ hnode)
      rw [← h, mem_sortedNodes, hid] at hm
      exact hm
  · intro h
    have values : g.nodes.values.Perm g'.nodes.values := (Dict.perm_iff.mpr h).map _
    refine List.Perm.eq_of_pairwise ?_ (List.pairwise_insertionSort _ _)
      (List.pairwise_insertionSort _ _)
      ((List.perm_insertionSort _ _).trans (values.trans (List.perm_insertionSort _ _).symm))
    intro a b ha hb hab hba
    have hid : a.id = b.id := le_antisymm hab hba
    have ha' := mem_sortedNodes.mp ha
    have hb' := mem_sortedNodes.mp hb
    rw [h, hid, hb'] at ha'
    exact (Option.some.inj ha').symm

theorem sortedEdges_eq_iff :
    g.sortedEdges = g'.sortedEdges ↔ ∀ edge, edge ∈ g.edges ↔ edge ∈ g'.edges := by
  constructor
  · intro h edge
    rw [← mem_sortedEdges, h, mem_sortedEdges]
  · intro h
    have perm := (List.perm_ext_iff_of_nodup g.edges_nodup g'.edges_nodup).mpr h
    refine List.Perm.eq_of_pairwise ?_ (List.pairwise_insertionSort _ _)
      (List.pairwise_insertionSort _ _)
      ((List.perm_insertionSort _ _).trans (perm.trans (List.perm_insertionSort _ _).symm))
    exact fun a b _ _ hab hba => edgeKey_injective (le_antisymm hab hba)

theorem snapshot_eq_iff (now : Datetime) : g.snapshot now = g'.snapshot now ↔ Same g g' := by
  rw [snapshot, snapshot, GraphSnapshot.mk.injEq, sortedNodes_eq_iff, sortedEdges_eq_iff]
  exact ⟨fun ⟨_, hrevision, _, hnodes, hedges⟩ => ⟨hnodes, hedges, hrevision⟩,
    fun h => ⟨rfl, h.revision, rfl, h.nodes, h.edges⟩⟩

/-! ### What an update does -/

@[simp] theorem addNodes_edges : (g.addNodes nodes).edges = g.edges := by
  induction nodes generalizing g with
  | nil => rfl
  | cons node nodes ih => exact ih

@[simp] theorem addNodes_revision : (g.addNodes nodes).revision = g.revision := by
  induction nodes generalizing g with
  | nil => rfl
  | cons node nodes ih => exact ih

theorem addNodes_get? (id : Text) :
    (g.addNodes nodes).nodes.get? id =
      (nodes.reverse.find? (·.id = id)).or (g.nodes.get? id) := by
  induction nodes generalizing g with
  | nil => rfl
  | cons node nodes ih =>
    have first : (g.addNode node).nodes.get? id =
        if id == node.id then some node else g.nodes.get? id := Dict.get?_set ..
    change ((g.addNode node).addNodes nodes).nodes.get? id = _
    rw [ih, first, List.reverse_cons, List.find?_append]
    cases nodes.reverse.find? (·.id = id) with
    | some last => rfl
    | none =>
      by_cases h : node.id = id
      · simp [h]
      · simp [h, Ne.symm h]

theorem addEdges_spec (known : List Text) (edges : List GraphEdge) :
    (addEdges known g edges).2 = edges.all (knows known) ∧
      (addEdges known g edges).1.nodes = g.nodes ∧
      (addEdges known g edges).1.revision = g.revision ∧
      ∀ edge, edge ∈ (addEdges known g edges).1.edges ↔
        edge ∈ g.edges ∨ edge ∈ edges.takeWhile (knows known) := by
  induction edges generalizing g with
  | nil => simp [addEdges]
  | cons first edges ih =>
    cases hknown : knows known first with
    | false => simp [addEdges, hknown]
    | true =>
      obtain ⟨hall, hnodes, hrevision, hedges⟩ := ih (g := g.addEdge first)
      simp only [addEdges, hknown, if_true]
      refine ⟨?_, hnodes, hrevision, fun edge => ?_⟩
      · rw [hall, List.all_cons, hknown, Bool.true_and]
      · rw [hedges, List.takeWhile_cons_of_pos hknown, List.mem_cons, addEdge,
          List.mem_insert_iff]
        tauto

def knownId (g : KnowledgeGraph) (nodes : List GraphNode) (id : Text) : Bool :=
  nodes.any (·.id = id) || (g.nodes.get? id).isSome

def knownEdge (g : KnowledgeGraph) (nodes : List GraphNode) (edge : GraphEdge) : Bool :=
  g.knownId nodes edge.source && g.knownId nodes edge.target

theorem contains_keys (id : Text) :
    (g.addNodes nodes).nodes.keys.contains id = g.knownId nodes id := by
  rw [Bool.eq_iff_iff, List.contains_iff_mem, Dict.mem_keys_iff, addNodes_get?, knownId,
    Option.isSome_or, Bool.or_eq_true, Bool.or_eq_true, List.find?_isSome, List.any_eq_true]
  simp

theorem knows_keys : knows (g.addNodes nodes).nodes.keys = g.knownEdge nodes := by
  funext edge
  rw [knows, contains_keys, contains_keys, knownEdge]

theorem Same.addNodes (h : Same g g') (nodes : List GraphNode) :
    Same (g.addNodes nodes) (g'.addNodes nodes) where
  nodes id := by rw [addNodes_get?, addNodes_get?, h.nodes]
  edges edge := by rw [addNodes_edges, addNodes_edges, h.edges]
  revision := by rw [addNodes_revision, addNodes_revision, h.revision]

theorem Same.addEdges (h : Same g g') {known known' : List Text}
    (hknown : knows known = knows known') (edges : List GraphEdge) :
    Same (KnowledgeGraph.addEdges known g edges).1 (KnowledgeGraph.addEdges known' g' edges).1 := by
  obtain ⟨-, hnodes, hrevision, hedges⟩ := addEdges_spec (g := g) known edges
  obtain ⟨-, hnodes', hrevision', hedges'⟩ := addEdges_spec (g := g') known' edges
  refine ⟨fun id => ?_, fun edge => ?_, ?_⟩
  · rw [hnodes, hnodes', h.nodes]
  · rw [hedges, hedges', h.edges, hknown]
  · rw [hrevision, hrevision', h.revision]

theorem Same.knownEdge (h : Same g g') (nodes : List GraphNode) :
    g.knownEdge nodes = g'.knownEdge nodes := by
  funext edge
  simp only [KnowledgeGraph.knownEdge, knownId, h.nodes]

def updated (g : KnowledgeGraph) (nodes : List GraphNode) (edges : List GraphEdge) :
    KnowledgeGraph :=
  { (KnowledgeGraph.addEdges (g.addNodes nodes).nodes.keys (g.addNodes nodes) edges).1 with
    revision := g.revision + 1 }

def partlyUpdated (g : KnowledgeGraph) (nodes : List GraphNode) (edges : List GraphEdge) :
    KnowledgeGraph :=
  (KnowledgeGraph.addEdges (g.addNodes nodes).nodes.keys (g.addNodes nodes) edges).1

theorem update_eq (edges : List GraphEdge) (now : Datetime) :
    g.update nodes edges now =
      if edges.all (g.knownEdge nodes) then
        (g.updated nodes edges, some ((g.updated nodes edges).snapshot now))
      else (g.partlyUpdated nodes edges, none) := by
  obtain ⟨hall, -, hrevision, -⟩ :=
    addEdges_spec (g := g.addNodes nodes) (g.addNodes nodes).nodes.keys edges
  rw [knows_keys] at hall
  rw [update, updated, partlyUpdated, ← hall]
  rw [addNodes_revision] at hrevision
  generalize KnowledgeGraph.addEdges (g.addNodes nodes).nodes.keys (g.addNodes nodes) edges =
    result at hrevision
  rcases result with ⟨after, done⟩
  cases done with
  | false => rfl
  | true =>
    have same : after.revision = g.revision := hrevision
    simp only [same, if_true]

theorem Same.update (h : Same g g') (nodes : List GraphNode) (edges : List GraphEdge)
    (now : Datetime) : (g.update nodes edges now).2 = (g'.update nodes edges now).2 := by
  have hknown := h.knownEdge nodes
  have hnodes := h.addNodes nodes
  have hknows : knows (g.addNodes nodes).nodes.keys = knows (g'.addNodes nodes).nodes.keys := by
    rw [knows_keys, knows_keys, hknown]
  have hedges := hnodes.addEdges hknows edges
  rw [update_eq, update_eq, hknown]
  split
  · refine congrArg some ((snapshot_eq_iff now).mpr ⟨hedges.nodes, hedges.edges, ?_⟩)
    change g.revision + 1 = g'.revision + 1
    rw [h.revision]
  · rfl

/-- The nodes, each the last of its id, and the edges are in the graph already. -/
structure Holds (g : KnowledgeGraph) (nodes : List GraphNode) (edges : List GraphEdge) : Prop where
  nodes : ∀ id node, nodes.reverse.find? (·.id = id) = some node → g.nodes.get? id = some node
  edges : ∀ edge ∈ edges, edge ∈ g.edges

/-- An update that stops at an unknown node changes nothing exactly when what it has added by then
was there before. -/
theorem same_partlyUpdated_iff (edges : List GraphEdge) :
    Same g (g.partlyUpdated nodes edges) ↔
      g.Holds nodes (edges.takeWhile (g.knownEdge nodes)) := by
  obtain ⟨-, hnodes, hrevision, hedges⟩ :=
    addEdges_spec (g := g.addNodes nodes) (g.addNodes nodes).nodes.keys edges
  rw [knows_keys] at hedges
  rw [addNodes_edges] at hedges
  constructor
  · intro h
    refine ⟨fun id node hnode => ?_, fun edge hm => ?_⟩
    · have hid := h.nodes id
      rw [partlyUpdated, hnodes, addNodes_get?, hnode] at hid
      exact hid
    · exact (h.edges edge).mpr ((hedges edge).mpr (.inr hm))
  · intro h
    refine ⟨fun id => ?_, fun edge => ?_, ?_⟩
    · rw [partlyUpdated, hnodes, addNodes_get?]
      cases hnode : nodes.reverse.find? (·.id = id) with
      | none => rfl
      | some node => exact h.nodes id node hnode
    · rw [partlyUpdated, hedges]
      exact ⟨.inl, fun hm => hm.elim id (h.edges edge)⟩
    · rw [partlyUpdated, hrevision, addNodes_revision]

end KnowledgeGraph

/-! ### Calls that raise -/

/-- The next snapshot shows what it showed before, the file is the same, and later updates come out
as if the call had not been made. -/
structure Untouched (g : KnowledgeGraph) (file : Entry) (g' : KnowledgeGraph) (file' : Entry) :
    Prop where
  snapshot : ∀ now, g'.snapshot now = g.snapshot now
  file : file' = file
  later : ∀ nodes edges now, (g'.update nodes edges now).2 = (g.update nodes edges now).2

theorem untouched_iff {file file' : Entry} :
    Untouched g file g' file' ↔ g.Same g' ∧ file' = file := by
  constructor
  · intro h
    exact ⟨(KnowledgeGraph.snapshot_eq_iff ⟨[]⟩).mp (h.snapshot ⟨[]⟩).symm, h.file⟩
  · rintro ⟨same, hfile⟩
    exact ⟨fun now => ((KnowledgeGraph.snapshot_eq_iff now).mpr same).symm, hfile,
      fun nodes edges now => (same.update nodes edges now).symm⟩

/-- If the call raises, nothing has changed. -/
def AllOrNothing (lib : GraphLibrary) (g : KnowledgeGraph) (file : Entry) (nodes : List GraphNode)
    (edges : List GraphEdge) (now : Datetime) (fate : Fate) : Prop :=
  match apply lib g file nodes edges now fate with
  | (.ok _, _) => True
  | (.error _, g', file') => Untouched g file g' file'

def Writable (lib : GraphLibrary) (snapshot : GraphSnapshot) : Prop :=
  ∃ encoded, encode lib snapshot = some encoded ∧ encoded.length ≤ maxGraphBytes

/-- The call never gets the lock; or some edge names an unknown node and all that comes before the
first such edge is in the graph already; or no edge does, the new snapshot can be written, no call
of the operating system raises and the call is not cancelled. -/
def Harmless (lib : GraphLibrary) (g : KnowledgeGraph) (nodes : List GraphNode)
    (edges : List GraphEdge) (now : Datetime) (fate : Fate) : Prop :=
  fate = .waiting ∨
    (if edges.all (g.knownEdge nodes) then
      fate = .ran none ∧ Writable lib ((g.updated nodes edges).snapshot now)
    else g.Holds nodes (edges.takeWhile (g.knownEdge nodes)))

theorem not_untouched_updated {file file' : Entry} (nodes : List GraphNode)
    (edges : List GraphEdge) : ¬ Untouched g file (g.updated nodes edges) file' := by
  intro h
  have hrevision : g.revision = g.revision + 1 := (untouched_iff.mp h).1.revision
  omega

theorem write_ok_iff {snapshot : GraphSnapshot} {raises : Option WriteCall} {file : Entry} :
    (write lib snapshot raises file).1 = .ok () ↔ raises = none ∧ Writable lib snapshot := by
  unfold write Writable
  cases hencode : encode lib snapshot with
  | none => simp
  | some encoded =>
    by_cases hsize : maxGraphBytes < encoded.length
    · simp [hsize]
    · cases raises <;> simp [hsize, Nat.not_lt.mp hsize]

/-- A call that raises leaves everything as it was exactly when it is harmless. -/
theorem graph_all_or_nothing_iff (lib : GraphLibrary) (g : KnowledgeGraph) (file : Entry)
    (nodes : List GraphNode) (edges : List GraphEdge) (now : Datetime) (fate : Fate) :
    AllOrNothing lib g file nodes edges now fate ↔ Harmless lib g nodes edges now fate := by
  unfold AllOrNothing Harmless apply
  cases fate with
  | waiting => simp [untouched_iff, KnowledgeGraph.Same.mk]
  | ran raises =>
    rw [KnowledgeGraph.update_eq]
    by_cases hknown : edges.all (g.knownEdge nodes)
    · simp only [hknown, if_true]
      have hwrite :
          (write lib ((g.updated nodes edges).snapshot now) raises file).1 = .ok () ↔ _ :=
        write_ok_iff
      rcases hresult : write lib ((g.updated nodes edges).snapshot now) raises file with
        ⟨result, file'⟩
      rw [hresult] at hwrite
      cases result with
      | ok _ => simpa using hwrite
      | error e =>
        simp only [reduceCtorEq, false_iff] at hwrite
        simpa [not_untouched_updated] using hwrite
    · simp only [hknown, if_false, Bool.false_eq_true, reduceCtorEq, false_or]
      rw [untouched_iff, KnowledgeGraph.same_partlyUpdated_iff]
      simp
  | cancelled raises =>
    rw [KnowledgeGraph.update_eq]
    by_cases hknown : edges.all (g.knownEdge nodes)
    · simp [hknown, not_untouched_updated]
    · simp only [hknown, if_false, Bool.false_eq_true, reduceCtorEq, false_or]
      rw [untouched_iff, KnowledgeGraph.same_partlyUpdated_iff]
      simp

/-! ### An edge to an unknown node -/

/-- JSON on plain documents, and times as they are printed. -/
def plainLibrary : GraphLibrary where
  jsonable value := if value.distinct && value.serialisable false then some value else none
  text := Plain.text
  loads := Plain.loads
  datetime
    | .str s => some ⟨s⟩
    | _ => none
  int
    | .int i => some i
    | _ => none

theorem plainLibrary_lawful : plainLibrary.Lawful where
  jsonable_json hdistinct hplain := by
    simp [plainLibrary, hdistinct, hplain]
  jsonable_distinct h := by
    simp only [plainLibrary] at h
    split at h
    · next hvalue =>
      obtain rfl := Option.some.inj h
      exact (Bool.and_eq_true_iff.mp hvalue).1
    · cases h
  loads_text _ _ h := Plain.loads_text h
  datetime_isoformat _ := rfl
  int_int _ := rfl

def noon : Datetime := ⟨Text.ofString "2026-01-01T12:00:00Z"⟩

def sampleNode (id : String) (h : nodeId (Text.ofString id) = true) : GraphNode :=
  ⟨Text.ofString id, .disk, .ofFields [] rfl, noon, h⟩

def sampleEdge (source target : String) (hs : edgeEnd (Text.ofString source) = true)
    (ht : edgeEnd (Text.ofString target) = true) : GraphEdge :=
  ⟨Text.ofString source, Text.ofString "contains", Text.ofString target, hs, by decide +kernel, ht⟩

def newDisk : GraphNode := sampleNode "disk:new" (by decide +kernel)

theorem newDisk_end : edgeEnd (Text.ofString "disk:new") = true := by decide +kernel

def danglingEdge : GraphEdge :=
  sampleEdge "disk:new" "disk:missing" newDisk_end (by decide +kernel)

/-- The call is refused for its edge, and its node stays in the graph. -/
theorem refused_node_stays :
    (∀ file, (apply plainLibrary .empty file [newDisk] [danglingEdge] noon (.ran none)).1 =
      .error .unknownNode) ∧
    ¬ AllOrNothing plainLibrary .empty .absent [newDisk] [danglingEdge] noon (.ran none) := by
  have hknown : [danglingEdge].all (KnowledgeGraph.empty.knownEdge [newDisk]) = false := by
    decide +kernel
  have hupdate := KnowledgeGraph.update_eq (g := .empty) [newDisk] [danglingEdge] noon
  rw [hknown] at hupdate
  refine ⟨fun file => by simp [apply, hupdate], fun h => ?_⟩
  simp only [AllOrNothing, apply, hupdate, Bool.false_eq_true, if_false] at h
  have holds := (KnowledgeGraph.same_partlyUpdated_iff _ _).mp (untouched_iff.mp h).1
  have stored := holds.nodes newDisk.id newDisk (by simp)
  simp [KnowledgeGraph.empty] at stored

end Ares.Knowledge
