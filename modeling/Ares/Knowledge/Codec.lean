import Ares.Data.Sorted
import Ares.Knowledge.AllOrNothing

/-! What `_write` writes is what `prepare` reads: the nodes, the edges and the revision of the
snapshot, and the nodes whole where their attributes are JSON values. -/

namespace Ares.Knowledge

open Data

variable {lib : GraphLibrary}

def GraphNode.JsonValued (node : GraphNode) : Prop :=
  (Value.dict node.attributes.fields).serialisable false

/-! ### Records -/

theorem named_keys (fields : List (String × Value)) :
    (named fields).map Prod.fst = (fields.map Prod.fst).map Text.ofString := by
  simp [named]

theorem named_nodup {fields : List (String × Value)} (nodup : (fields.map Prod.fst).Nodup) :
    ((named fields).map Prod.fst).Nodup := by
  rw [named_keys]
  exact nodup.map fun a b h => Text.ofString_inj.mp h

theorem lookup_named (fields : List (String × Value)) (key : String) :
    (named fields).lookup (Text.ofString key) = fields.lookup key := by
  induction fields with
  | nil => rfl
  | cons field fields ih =>
    rw [named, List.map_cons, lookup_cons_eq_ite, lookup_cons_eq_ite, Text.beq_ofString, ← ih]
    rfl

theorem member_sorted {fields : List (String × Value)} (nodup : (fields.map Prod.fst).Nodup)
    (key : String) :
    member (Value.sortedFields (named fields)) key = (fields.lookup key).map Value.sortKeys := by
  rw [member, Value.lookup_sortedFields (named_nodup nodup), lookup_named]

theorem keysAmong_sorted (keys : List String) (fields : List (String × Value)) :
    keysAmong keys (Value.sortedFields (named fields)) =
      fields.all fun field => keys.contains field.1 := by
  rw [keysAmong, Value.all_sortedFields fun key => keys.any fun k => key = Text.ofString k, named,
    List.all_map]
  congr 1
  funext field
  simp only [Function.comp_apply, List.contains_eq_any_beq]
  congr 1
  funext key
  rw [Bool.eq_iff_iff, decide_eq_true_eq, Text.ofString_inj, beq_iff_eq]

theorem mapM_eq_some {α β : Type} {f : α → Option β} {items : List α} {results : List β}
    (h : items.mapM f = some results) : List.Forall₂ (fun a b => f a = some b) items results := by
  induction items generalizing results with
  | nil =>
    obtain rfl := Option.some.inj h
    exact .nil
  | cons a rest ih =>
    rw [List.mapM_cons] at h
    obtain ⟨b, hb, h⟩ := Option.bind_eq_some_iff.mp h
    obtain ⟨bs, hbs, h⟩ := Option.bind_eq_some_iff.mp h
    obtain rfl := Option.some.inj h
    exact .cons hb (ih hbs)

theorem mem_of_mapM_eq_some {α β : Type} {f : α → Option β} {items : List α} {results : List β}
    (h : items.mapM f = some results) {b : β} (hm : b ∈ results) : ∃ a ∈ items, f a = some b := by
  have matched := mapM_eq_some h
  clear h
  induction matched with
  | nil => cases hm
  | @cons a c _ _ head _ ih =>
    rcases List.mem_cons.mp hm with rfl | hm
    · exact ⟨a, List.mem_cons_self, head⟩
    · obtain ⟨a', ha, hf⟩ := ih hm
      exact ⟨a', List.mem_cons_of_mem _ ha, hf⟩

theorem mapM_of_forall₂ {α β : Type} {f : α → Option β} {items : List α} {results : List β}
    (h : List.Forall₂ (fun a b => f a = some b) items results) : items.mapM f = some results := by
  induction h with
  | nil => rfl
  | cons head _ ih =>
    rw [List.mapM_cons, head, ih]
    rfl

theorem Attributes.ext {a b : Attributes} (h : a.fields = b.fields) : a = b := by
  cases a
  cases b
  cases h
  rfl

theorem attributesOf_fields (attributes : Attributes) :
    attributesOf (.dict attributes.fields) = some attributes := by
  rw [attributesOf, dif_pos attributes.distinct]
  refine congrArg some (Attributes.ext ?_)
  have sorted := attributes.sorted
  rw [Value.sortKeys_dict] at sorted
  exact Value.dict.inj sorted

/-! ### Nodes and edges -/

theorem kindOf_value (kind : GraphKind) : kindOf (.lit kind.value) = some kind := by
  simp only [kindOf, Value.lit, asText, Option.bind_eq_bind, Option.bind_some, Text.ofString_inj]
  cases kind <;> decide +kernel

theorem dumped_attributes (lawful : lib.Lawful) {node : GraphNode}
    {attributes : List (Text × Value)}
    (h : (node.attributes.fields.mapM fun field =>
      (lib.jsonable field.2).map fun json => (field.1, json)) = some attributes) :
    (Value.dict attributes).distinct ∧
      (node.JsonValued → attributes = node.attributes.fields) := by
  have each := mapM_eq_some h
  obtain ⟨nodup, values⟩ := Value.distinct_dict.mp node.attributes.distinct
  have keys : attributes.map Prod.fst = node.attributes.fields.map Prod.fst := by
    refine (List.forall₂_eq_eq_eq ▸ List.forall₂_map_left_iff.mpr (List.forall₂_map_right_iff.mpr
      (each.imp fun field json hjson => ?_)) : _ = _).symm
    obtain ⟨value, -, rfl⟩ := Option.map_eq_some_iff.mp hjson
    rfl
  refine ⟨Value.distinct_dict.mpr ⟨keys ▸ nodup, fun field hm => ?_⟩, fun hjson => ?_⟩
  · obtain ⟨i, hi, rfl⟩ := List.mem_iff_getElem.mp hm
    have hfield := each.get (i := i) (each.length_eq ▸ hi) hi
    obtain ⟨value, hvalue, heq⟩ := Option.map_eq_some_iff.mp hfield
    rw [← List.get_eq_getElem (i := ⟨i, hi⟩), ← heq]
    exact lawful.jsonable_distinct hvalue
  · have same : (node.attributes.fields.mapM fun field =>
        (lib.jsonable field.2).map fun json => (field.1, json)) =
          some node.attributes.fields := by
      refine mapM_of_forall₂ (List.forall₂_same.mpr fun field hm => ?_)
      rw [lawful.jsonable_json (values field hm) (Value.serialisable_dict.mp hjson field hm)]
      rfl
    exact Option.some.inj (h.symm.trans same)

theorem validateNode_dump (lawful : lib.Lawful) (now : Datetime) {node : GraphNode} {value : Value}
    (h : dumpNode lib node = some value) :
    ∃ node', validateNode lib now value.sortKeys = some node' ∧ node'.id = node.id ∧
      (node.JsonValued → node' = node) := by
  obtain ⟨attributes, hattributes, h⟩ := Option.bind_eq_some_iff.mp h
  obtain rfl := Option.some.inj h
  obtain ⟨distinct, json⟩ := dumped_attributes lawful hattributes
  have sorted := (Value.distinct_sortKeys (.dict attributes)).trans distinct
  rw [Value.sortKeys_dict] at sorted
  have hread : attributesOf (.dict (Value.sortedFields attributes)) =
      some (.ofFields (Value.sortedFields attributes) sorted) := by
    rw [attributesOf, dif_pos sorted]
  refine ⟨⟨node.id, node.kind, .ofFields (Value.sortedFields attributes) sorted, node.observedAt,
    node.id_pattern⟩, ?_, rfl, fun hjson => ?_⟩
  · rw [record, Value.sortKeys_dict, validateNode, keysAmong_sorted]
    have hkind : kindOf (Value.lit node.kind.value).sortKeys = some node.kind := kindOf_value _
    simp [member_sorted, lookup_cons_eq_ite, Value.sortKeys_str, asText, hkind,
      Value.sortKeys_dict, hread, node.id_pattern, lawful.datetime_isoformat]
  · rcases node with ⟨id, kind, nodeAttributes, observedAt, id_pattern⟩
    obtain rfl := json hjson
    have whole := attributesOf_fields nodeAttributes
    have hsorted := nodeAttributes.sorted
    rw [Value.sortKeys_dict] at hsorted
    rw [← hsorted, hread] at whole
    rw [Option.some.inj whole]

theorem validateEdge_dump (edge : GraphEdge) : validateEdge (dumpEdge edge).sortKeys = some edge := by
  rw [dumpEdge, record, Value.sortKeys_dict, validateEdge, keysAmong_sorted]
  simp [member_sorted, lookup_cons_eq_ite, Value.sortKeys_str, asText, edge.source_length,
    edge.relation_pattern, edge.target_length]

/-! ### Snapshots -/

/-- The two snapshots have the same edges, the same revision and nodes of the same ids, which are
the same where their attributes are JSON values. -/
structure GraphSnapshot.Reread (snapshot reread : GraphSnapshot) : Prop where
  revision : reread.revision = snapshot.revision
  edges : reread.edges = snapshot.edges
  nodes : List.Forall₂ (fun node node' => node'.id = node.id ∧ (node.JsonValued → node' = node))
    snapshot.nodes reread.nodes

theorem nodes_eq_of_json {nodes nodes' : List GraphNode}
    (h : List.Forall₂ (fun node node' => node'.id = node.id ∧ (node.JsonValued → node' = node))
      nodes nodes')
    (json : ∀ node ∈ nodes, node.JsonValued) : nodes' = nodes := by
  induction h with
  | nil => rfl
  | cons head _ ih =>
    rw [head.2 (json _ List.mem_cons_self), ih fun node hm => json node (List.mem_cons_of_mem _ hm)]

theorem dumpNode_distinct (lawful : lib.Lawful) {node : GraphNode} {value : Value}
    (h : dumpNode lib node = some value) : value.distinct := by
  obtain ⟨attributes, hattributes, h⟩ := Option.bind_eq_some_iff.mp h
  obtain rfl := Option.some.inj h
  have distinct := (dumped_attributes lawful hattributes).1
  refine Value.distinct_dict.mpr ⟨named_nodup (by simp), ?_⟩
  simpa [named] using ⟨rfl, rfl, distinct, rfl⟩

theorem dumpSnapshot_distinct (lawful : lib.Lawful) {snapshot : GraphSnapshot} {value : Value}
    (h : dumpSnapshot lib snapshot = some value) : value.distinct := by
  obtain ⟨nodes, hnodes, h⟩ := Option.bind_eq_some_iff.mp h
  obtain rfl := Option.some.inj h
  have each := mapM_eq_some hnodes
  have hnodes : (Value.list nodes).distinct := by
    refine Value.distinct_list.mpr fun item hm => ?_
    obtain ⟨i, hi, rfl⟩ := List.mem_iff_getElem.mp hm
    exact dumpNode_distinct lawful (each.get (i := i) (each.length_eq ▸ hi) hi)
  have hedges : (Value.list (snapshot.edges.map dumpEdge)).distinct := by
    refine Value.distinct_list.mpr fun item hm => ?_
    obtain ⟨edge, -, rfl⟩ := List.mem_map.mp hm
    refine Value.distinct_dict.mpr ⟨named_nodup (by simp), ?_⟩
    simpa [named] using ⟨rfl, rfl, rfl⟩
  refine Value.distinct_dict.mpr ⟨named_nodup (by simp), ?_⟩
  simpa [named] using ⟨rfl, rfl, rfl, hnodes, hedges⟩

theorem validateNodes_dump (lawful : lib.Lawful) (now : Datetime) {nodes : List GraphNode}
    {values : List Value} (h : List.Forall₂ (fun node value => dumpNode lib node = some value)
      nodes values) :
    ∃ nodes', (values.map Value.sortKeys).mapM (validateNode lib now) = some nodes' ∧
      List.Forall₂ (fun node node' => node'.id = node.id ∧ (node.JsonValued → node' = node))
        nodes nodes' := by
  induction h with
  | nil => exact ⟨[], rfl, .nil⟩
  | cons head _ ih =>
    obtain ⟨node', hnode, hid⟩ := validateNode_dump lawful now head
    obtain ⟨nodes', hnodes, hids⟩ := ih
    refine ⟨node' :: nodes', ?_, .cons hid hids⟩
    rw [List.map_cons, List.mapM_cons, hnode, hnodes]
    rfl

theorem validateSnapshot_dump (lawful : lib.Lawful) (now : Datetime) {snapshot : GraphSnapshot}
    {value : Value} (h : dumpSnapshot lib snapshot = some value) :
    ∃ reread, validateSnapshot lib now value.sortKeys = some reread ∧ snapshot.Reread reread := by
  obtain ⟨values, hvalues, h⟩ := Option.bind_eq_some_iff.mp h
  obtain rfl := Option.some.inj h
  obtain ⟨nodes, hnodes, hids⟩ := validateNodes_dump lawful now (mapM_eq_some hvalues)
  have hedges : ((snapshot.edges.map dumpEdge).map Value.sortKeys).mapM validateEdge =
      some snapshot.edges := by
    rw [List.map_map]
    refine mapM_of_forall₂ (List.forall₂_map_left_iff.mpr (List.forall₂_same.mpr ?_))
    exact fun edge _ => validateEdge_dump edge
  refine ⟨⟨snapshot.schemaVersion, snapshot.revision, snapshot.updatedAt, nodes, snapshot.edges⟩,
    ?_, rfl, rfl, hids⟩
  rw [record, Value.sortKeys_dict, validateSnapshot, keysAmong_sorted]
  simp [member_sorted, lookup_cons_eq_ite, Value.sortKeys_str, Value.sortKeys_int,
    Value.sortKeys_list, asList, lawful.int_int, lawful.datetime_isoformat, hnodes, -List.map_map,
    hedges]

theorem prepare_encode (lawful : lib.Lawful) (now : Datetime) {snapshot : GraphSnapshot}
    {encoded : Bytes} (h : encode lib snapshot = some encoded)
    (hsize : encoded.length ≤ maxGraphBytes) :
    ∃ reread, prepare lib now (.file encoded) = .ok (.load reread) ∧ snapshot.Reread reread := by
  obtain ⟨value, hvalue, h⟩ := Option.bind_eq_some_iff.mp h
  split at h
  · next plain =>
    obtain ⟨bytes, hbytes, h⟩ := Option.bind_eq_some_iff.mp h
    obtain rfl := Option.some.inj h
    have distinct := dumpSnapshot_distinct lawful hvalue
    have hloads := lawful.loads_text ((Value.distinct_sortKeys value).trans distinct)
      ((Value.serialisable_sortKeys false value).trans plain) hbytes
    obtain ⟨reread, hreread, same⟩ := validateSnapshot_dump lawful now hvalue
    refine ⟨reread, ?_, same⟩
    simp only [prepare, if_neg (Nat.not_lt.mpr hsize), hloads, Option.bind_some, hreread]
  · cases h

/-! ### The graph of a snapshot -/

namespace KnowledgeGraph

theorem foldl_addEdge (edges : List GraphEdge) (g : KnowledgeGraph) :
    (edges.foldl addEdge g).nodes = g.nodes ∧
      ∀ edge, edge ∈ (edges.foldl addEdge g).edges ↔ edge ∈ g.edges ∨ edge ∈ edges := by
  induction edges generalizing g with
  | nil => simp
  | cons first edges ih =>
    obtain ⟨hnodes, hedges⟩ := ih (g.addEdge first)
    refine ⟨hnodes, fun edge => ?_⟩
    rw [List.foldl_cons, hedges, addEdge, List.mem_insert_iff, List.mem_cons]
    tauto

theorem load_get? (snapshot : GraphSnapshot) (id : Text) :
    (load snapshot).nodes.get? id = snapshot.nodes.reverse.find? (·.id = id) := by
  have h := (foldl_addEdge snapshot.edges (empty.addNodes snapshot.nodes)).1
  change (snapshot.edges.foldl addEdge (empty.addNodes snapshot.nodes)).nodes.get? id = _
  rw [h, addNodes_get?]
  exact Option.or_none

theorem mem_load_edges (snapshot : GraphSnapshot) (edge : GraphEdge) :
    edge ∈ (load snapshot).edges ↔ edge ∈ snapshot.edges := by
  have h := (foldl_addEdge snapshot.edges (empty.addNodes snapshot.nodes)).2 edge
  rw [addNodes_edges] at h
  exact h.trans (or_iff_right (List.not_mem_nil))

theorem find?_sortedNodes (g : KnowledgeGraph) (id : Text) :
    g.sortedNodes.reverse.find? (·.id = id) = g.nodes.get? id := by
  apply Option.ext
  intro node
  constructor
  · intro h
    have hm := List.mem_reverse.mp (List.mem_of_find?_eq_some h)
    have hid : node.id = id := by simpa using List.find?_some h
    exact hid ▸ mem_sortedNodes.mp hm
  · intro h
    have hid := g.keyed id node h
    have hm : node ∈ g.sortedNodes.reverse :=
      List.mem_reverse.mpr (mem_sortedNodes.mpr (hid.symm ▸ h))
    cases hfind : g.sortedNodes.reverse.find? (·.id = id) with
    | none => simpa [hid] using List.find?_eq_none.mp hfind node hm
    | some other =>
      have hother := mem_sortedNodes.mp (List.mem_reverse.mp (List.mem_of_find?_eq_some hfind))
      have hid' : other.id = id := by simpa using List.find?_some hfind
      rw [hid', h] at hother
      exact hother.symm

theorem same_load {g : KnowledgeGraph} {now : Datetime} {reread : GraphSnapshot}
    (h : (g.snapshot now).Reread reread) (json : ∀ node ∈ g.sortedNodes, node.JsonValued) :
    Same (load reread) g := by
  have nodes : reread.nodes = g.sortedNodes := nodes_eq_of_json h.nodes json
  refine ⟨fun id => ?_, fun edge => ?_, h.revision⟩
  · rw [load_get?, nodes, find?_sortedNodes]
  · rw [mem_load_edges, h.edges]
    exact mem_sortedEdges

end KnowledgeGraph

end Ares.Knowledge
