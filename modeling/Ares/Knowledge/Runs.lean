import Ares.Knowledge.Codec
import Mathlib.Data.List.TakeWhile

/-! Runs of the knowledge graph: calls of `apply` one after the other under the lock, the threads
that write, cancelled calls whose threads go on, and restarts that read the file. -/

namespace Ares.Knowledge

open Data

variable {lib : GraphLibrary} {g : KnowledgeGraph}

/-! ### Steps -/

/-- A thread that runs `_write`. -/
structure Writer where
  snapshot : GraphSnapshot
  replaced : Bool

structure World where
  graph : KnowledgeGraph
  file : Entry
  holder : Option Writer
  orphans : List Writer
  /-- What the last call to succeed returned, until another call that has the lock replaces the
  file. -/
  returned : Option GraphSnapshot

def World.initial : World := ⟨.empty, .absent, none, [], none⟩

inductive Event
  | apply (nodes : List GraphNode) (edges : List GraphEdge) (now : Datetime)
  | replace
  | done
  | fail
  | cancel
  | orphanReplace (i : Nat)
  | orphanEnd (i : Nat)
  | restart (now : Datetime)

def writtenFile (lib : GraphLibrary) (snapshot : GraphSnapshot) : Option Entry :=
  match encode lib snapshot with
  | none => none
  | some encoded => if maxGraphBytes < encoded.length then none else some (.file encoded)

def step (lib : GraphLibrary) (w : World) : Event → Option World
  | .apply nodes edges now =>
    match w.holder with
    | some _ => none
    | none =>
      match w.graph.update nodes edges now with
      | (g, none) => some { w with graph := g }
      | (g, some snapshot) => some { w with graph := g, holder := some ⟨snapshot, false⟩ }
  | .replace =>
    match w.holder with
    | some ⟨snapshot, false⟩ =>
      (writtenFile lib snapshot).map fun file =>
        { w with file, holder := some ⟨snapshot, true⟩, returned := none }
    | _ => none
  | .done =>
    match w.holder with
    | some ⟨snapshot, true⟩ => some { w with holder := none, returned := some snapshot }
    | _ => none
  | .fail => w.holder.map fun _ => { w with holder := none }
  | .cancel => w.holder.map fun writer => { w with holder := none, orphans := writer :: w.orphans }
  | .orphanReplace i =>
    match w.orphans[i]? with
    | some ⟨snapshot, false⟩ =>
      (writtenFile lib snapshot).map fun file =>
        { w with file, orphans := w.orphans.set i ⟨snapshot, true⟩ }
    | _ => none
  | .orphanEnd i => w.orphans[i]?.map fun _ => { w with orphans := w.orphans.eraseIdx i }
  | .restart now =>
    match prepare lib now w.file with
    | .error _ => none
    | .ok graph => some { w with graph, holder := none, orphans := [] }

def run (lib : GraphLibrary) (w : World) (events : List Event) : Option World :=
  events.foldlM (step lib) w

theorem run_cons {w w' : World} {event : Event} {events : List Event}
    (h : run lib w (event :: events) = some w') :
    ∃ next, step lib w event = some next ∧ run lib next events = some w' := by
  rw [run, List.foldlM_cons] at h
  exact Option.bind_eq_some_iff.mp h

theorem run_keeps {P : World → Prop} {allowed : Event → Prop}
    (keeps : ∀ w w' event, allowed event → P w → step lib w event = some w' → P w') :
    ∀ {events : List Event} {w w' : World}, (∀ event ∈ events, allowed event) → P w →
      run lib w events = some w' → P w'
  | [], w, w', _, hw, h => by
      obtain rfl := Option.some.inj h
      exact hw
  | event :: events, w, w', hevents, hw, h => by
      obtain ⟨next, hstep, hrun⟩ := run_cons h
      have hnext := keeps w next event (hevents event List.mem_cons_self) hw hstep
      exact run_keeps keeps (fun e he => hevents e (List.mem_cons_of_mem _ he)) hnext hrun

/-! ### A call is a run -/

theorem writtenFile_eq {snapshot : GraphSnapshot} {file : Entry} :
    writtenFile lib snapshot = some file ↔
      ∃ encoded, encode lib snapshot = some encoded ∧ encoded.length ≤ maxGraphBytes ∧
        file = .file encoded := by
  unfold writtenFile
  cases encode lib snapshot with
  | none => simp
  | some encoded =>
    by_cases hsize : maxGraphBytes < encoded.length
    · simp [hsize]
    · simp [hsize, Nat.not_lt.mp hsize, eq_comm]

theorem run_write (w : World) {snapshot : GraphSnapshot} (hw : w.holder = some ⟨snapshot, false⟩)
    (raises : Option WriteCall) :
    ∃ events w', run lib w events = some w' ∧ w'.graph = w.graph ∧ w'.holder = none ∧
      w'.file = (write lib snapshot raises w.file).2 ∧
      ((write lib snapshot raises w.file).1 = .ok () → w'.returned = some snapshot) := by
  have failed : run lib w [.fail] = some { w with holder := none } := by
    simp [run, step, hw]
  cases hencode : encode lib snapshot with
  | none => exact ⟨_, _, failed, rfl, rfl, by simp [write, hencode], by simp [write, hencode]⟩
  | some encoded =>
    by_cases hsize : maxGraphBytes < encoded.length
    · exact ⟨_, _, failed, rfl, rfl, by simp [write, hencode, hsize],
        by simp [write, hencode, hsize]⟩
    · have hfile : writtenFile lib snapshot = some (.file encoded) := by
        simp [writtenFile, hencode, hsize]
      cases raises with
      | none =>
        refine ⟨[.replace, .done],
          ⟨w.graph, .file encoded, none, w.orphans, some snapshot⟩, ?_, rfl, rfl,
          by simp [write, hencode, hsize], fun _ => rfl⟩
        simp [run, step, hw, hfile]
      | some call =>
        cases hlate : call.late with
        | false =>
          exact ⟨_, _, failed, rfl, rfl, by simp [write, hencode, hsize, hlate],
            by simp [write, hencode, hsize]⟩
        | true =>
          refine ⟨[.replace, .fail], ⟨w.graph, .file encoded, none, w.orphans, none⟩, ?_, rfl, rfl,
            by simp [write, hencode, hsize, hlate], by simp [write, hencode, hsize]⟩
          simp [run, step, hw, hfile]

/-- A call of `apply` that runs to its end is a run: it leaves the same memory and the same file,
and what it returns is what the run returned last. -/
theorem run_apply (w : World) (hw : w.holder = none) (nodes : List GraphNode)
    (edges : List GraphEdge) (now : Datetime) (raises : Option WriteCall) :
    ∃ events w', run lib w events = some w' ∧
      w'.graph = (apply lib w.graph w.file nodes edges now (.ran raises)).2.1 ∧
      w'.file = (apply lib w.graph w.file nodes edges now (.ran raises)).2.2 ∧ w'.holder = none ∧
      ∀ snapshot, (apply lib w.graph w.file nodes edges now (.ran raises)).1 = .ok snapshot →
        w'.returned = some snapshot := by
  rcases hupdate : w.graph.update nodes edges now with ⟨g, _ | snapshot⟩
  · refine ⟨[.apply nodes edges now], { w with graph := g }, ?_, ?_, ?_, hw, ?_⟩
    · simp [run, step, hw, hupdate]
    · simp [apply, hupdate]
    · simp [apply, hupdate]
    · simp [apply, hupdate]
  · obtain ⟨events, w', hrun, hgraph, hholder, hfile, hreturned⟩ :
        ∃ events w', run lib { w with graph := g, holder := some ⟨snapshot, false⟩ } events =
          some w' ∧ _ :=
      run_write { w with graph := g, holder := some ⟨snapshot, false⟩ } rfl raises
    refine ⟨.apply nodes edges now :: events, w', ?_, ?_, ?_, hholder, ?_⟩
    · rw [run, List.foldlM_cons]
      simp only [step, hw, hupdate]
      exact hrun
    all_goals
      rcases hwrite : write lib snapshot raises w.file with ⟨_ | _, file⟩ <;>
        simp_all [apply]

/-! ### Integrity in every run -/

namespace KnowledgeGraph

/-- Both ends of every edge are ids of nodes. -/
def Integral (g : KnowledgeGraph) : Prop :=
  ∀ edge ∈ g.edges, (g.nodes.get? edge.source).isSome ∧ (g.nodes.get? edge.target).isSome

theorem isSome_addNodes (nodes : List GraphNode) (id : Text) :
    ((g.addNodes nodes).nodes.get? id).isSome = g.knownId nodes id := by
  rw [← contains_keys, Bool.eq_iff_iff, List.contains_iff_mem, Dict.mem_keys_iff]

theorem Integral.partlyUpdated (h : g.Integral) (nodes : List GraphNode)
    (edges : List GraphEdge) : (g.partlyUpdated nodes edges).Integral := by
  obtain ⟨-, hnodes, -, hedges⟩ :=
    addEdges_spec (g := g.addNodes nodes) (g.addNodes nodes).nodes.keys edges
  intro edge hm
  rw [KnowledgeGraph.partlyUpdated, hedges, addNodes_edges, knows_keys] at hm
  rw [KnowledgeGraph.partlyUpdated, hnodes, isSome_addNodes, isSome_addNodes]
  rcases hm with hm | hm
  · obtain ⟨hsource, htarget⟩ := h edge hm
    simp [knownId, hsource, htarget]
  · have hknown : g.knownEdge nodes edge = true := List.mem_takeWhile_imp hm
    exact Bool.and_eq_true_iff.mp hknown

theorem Integral.update (h : g.Integral) (nodes : List GraphNode) (edges : List GraphEdge)
    (now : Datetime) : (g.update nodes edges now).1.Integral := by
  rw [update_eq]
  have hpart := h.partlyUpdated nodes edges
  split
  · exact hpart
  · exact hpart

theorem update_snapshot {nodes : List GraphNode} {edges : List GraphEdge} {now : Datetime}
    {g' : KnowledgeGraph} {snapshot : GraphSnapshot}
    (h : g.update nodes edges now = (g', some snapshot)) : snapshot = g'.snapshot now := by
  rw [update_eq] at h
  split at h
  · obtain ⟨rfl, hs⟩ := Prod.mk.inj h
    exact (Option.some.inj hs).symm
  · cases (Prod.mk.inj h).2

theorem update_revision (nodes : List GraphNode) (edges : List GraphEdge) (now : Datetime) :
    g.revision ≤ (g.update nodes edges now).1.revision := by
  rw [update_eq]
  split
  · change g.revision ≤ g.revision + 1
    omega
  · rw [partlyUpdated, (addEdges_spec _ _).2.2.1, addNodes_revision]

theorem sortedNodes_nodup (g : KnowledgeGraph) : (g.sortedNodes.map (·.id)).Nodup := by
  have keys : g.nodes.values.map (·.id) = g.nodes.keys := by
    rw [Dict.values, Dict.keys, List.map_map]
    refine List.map_congr_left fun entry hm => ?_
    exact g.keyed entry.1 entry.2 (Dict.get?_eq_some_iff.mpr hm)
  have perm := (List.perm_insertionSort nodeLe g.nodes.values).map (·.id)
  rw [sortedNodes, perm.nodup_iff, keys]
  exact g.nodes.nodup

theorem integral_load {now : Datetime} {reread : GraphSnapshot} (h : g.Integral)
    (hreread : (g.snapshot now).Reread reread) : (load reread).Integral := by
  have known (id : Text) (hid : (g.nodes.get? id).isSome) :
      ((load reread).nodes.get? id).isSome := by
    obtain ⟨node, hnode⟩ := Option.isSome_iff_exists.mp hid
    have hkey := g.keyed id node hnode
    have hm : node ∈ g.sortedNodes := mem_sortedNodes.mpr (hkey.symm ▸ hnode)
    obtain ⟨i, hi, hget⟩ := List.mem_iff_getElem.mp hm
    have hlength := hreread.nodes.length_eq
    have hnodes := hreread.nodes.get hi (hlength ▸ hi)
    rw [load_get?, List.find?_isSome]
    refine ⟨_, List.mem_reverse.mpr (List.getElem_mem (hlength ▸ hi)), ?_⟩
    have hid' := hnodes.1
    simp only [List.get_eq_getElem] at hid'
    rw [decide_eq_true_eq, hid', ← hkey]
    exact congrArg GraphNode.id hget
  intro edge hm
  rw [mem_load_edges, hreread.edges] at hm
  obtain ⟨hsource, htarget⟩ := h edge (mem_sortedEdges.mp hm)
  exact ⟨known _ hsource, known _ htarget⟩

end KnowledgeGraph

def Projected (snapshot : GraphSnapshot) : Prop :=
  ∃ (g : KnowledgeGraph) (now : Datetime), g.Integral ∧ snapshot = g.snapshot now

/-- The file holds the snapshot. -/
def Stored (lib : GraphLibrary) (file : Entry) (snapshot : GraphSnapshot) : Prop :=
  Projected snapshot ∧ writtenFile lib snapshot = some file

/-- The graph, the snapshots under way and the one in the file are those of graphs whose edges are
between their nodes. -/
structure Whole (lib : GraphLibrary) (w : World) : Prop where
  graph : w.graph.Integral
  holder : ∀ writer, w.holder = some writer → Projected writer.snapshot
  orphans : ∀ writer ∈ w.orphans, Projected writer.snapshot
  file : w.file = .absent ∨ ∃ snapshot, Stored lib w.file snapshot

theorem Stored.prepare (lawful : lib.Lawful) {file : Entry} {snapshot : GraphSnapshot}
    (h : Stored lib file snapshot) (now : Datetime) :
    ∃ reread, prepare lib now file = .ok (.load reread) ∧ snapshot.Reread reread := by
  obtain ⟨encoded, hencode, hsize, rfl⟩ := writtenFile_eq.mp h.2
  exact prepare_encode lawful now hencode hsize

theorem Whole.step (lawful : lib.Lawful) {w w' : World} {event : Event} (hw : Whole lib w)
    (h : step lib w event = some w') : Whole lib w' := by
  cases event with
  | apply nodes edges now =>
    simp only [Knowledge.step] at h
    cases hholder : w.holder with
    | some writer => simp [hholder] at h
    | none =>
      have hgraph := hw.graph.update nodes edges now
      rcases hupdate : w.graph.update nodes edges now with ⟨g, _ | snapshot⟩
      · simp only [hholder, hupdate, Option.some.injEq] at h hgraph
        subst h
        exact ⟨hgraph, by simp, hw.orphans, hw.file⟩
      · simp only [hholder, hupdate, Option.some.injEq] at h hgraph
        subst h
        refine ⟨hgraph, fun writer hwriter => ?_, hw.orphans, hw.file⟩
        obtain rfl := Option.some.inj hwriter
        exact ⟨g, now, hgraph, KnowledgeGraph.update_snapshot hupdate⟩
  | replace =>
    simp only [Knowledge.step] at h
    split at h
    · next snapshot hholder =>
      obtain ⟨file, hfile, rfl⟩ := Option.map_eq_some_iff.mp h
      have hsnapshot := hw.holder _ hholder
      refine ⟨hw.graph, fun writer hwriter => ?_, hw.orphans, .inr ⟨snapshot, hsnapshot, hfile⟩⟩
      obtain rfl := Option.some.inj hwriter
      exact hsnapshot
    · cases h
  | done =>
    simp only [Knowledge.step] at h
    split at h
    · obtain rfl := Option.some.inj h
      exact ⟨hw.graph, by simp, hw.orphans, hw.file⟩
    · cases h
  | fail =>
    obtain ⟨_, _, rfl⟩ := Option.map_eq_some_iff.mp h
    exact ⟨hw.graph, by simp, hw.orphans, hw.file⟩
  | cancel =>
    obtain ⟨writer, hholder, rfl⟩ := Option.map_eq_some_iff.mp h
    refine ⟨hw.graph, by simp, fun other hm => ?_, hw.file⟩
    rcases List.mem_cons.mp hm with rfl | hm
    · exact hw.holder _ hholder
    · exact hw.orphans other hm
  | orphanReplace i =>
    simp only [Knowledge.step] at h
    split at h
    · next snapshot horphan =>
      obtain ⟨file, hfile, rfl⟩ := Option.map_eq_some_iff.mp h
      have hsnapshot := hw.orphans _ (List.mem_of_getElem? horphan)
      refine ⟨hw.graph, hw.holder, fun other hm => ?_, .inr ⟨snapshot, hsnapshot, hfile⟩⟩
      rcases List.mem_or_eq_of_mem_set hm with hm | rfl
      · exact hw.orphans other hm
      · exact hsnapshot
    · cases h
  | orphanEnd i =>
    obtain ⟨_, _, rfl⟩ := Option.map_eq_some_iff.mp h
    exact ⟨hw.graph, hw.holder, fun other hm => hw.orphans other (List.mem_of_mem_eraseIdx hm),
      hw.file⟩
  | restart now =>
    simp only [Knowledge.step] at h
    split at h
    · cases h
    · next graph hprepare =>
      obtain rfl := Option.some.inj h
      refine ⟨?_, by simp, by simp, hw.file⟩
      rcases hw.file with habsent | ⟨snapshot, hstored⟩
      · rw [habsent, prepare] at hprepare
        obtain rfl := Except.ok.inj hprepare
        intro edge hedge
        cases hedge
      · obtain ⟨reread, hread, hreread⟩ := hstored.prepare lawful now
        rw [hread] at hprepare
        obtain rfl := Except.ok.inj hprepare
        obtain ⟨⟨g, time, hg, rfl⟩, -⟩ := hstored
        exact KnowledgeGraph.integral_load hg hreread

theorem Whole.initial : Whole lib .initial :=
  ⟨nofun, by simp [World.initial], by simp [World.initial], .inl rfl⟩

theorem step_revision {w w' : World} {event : Event} (hevent : ∀ now, event ≠ .restart now)
    (h : step lib w event = some w') : w.graph.revision ≤ w'.graph.revision := by
  cases event with
  | apply nodes edges now =>
    have hrevision := KnowledgeGraph.update_revision (g := w.graph) nodes edges now
    simp only [step] at h
    rcases hupdate : w.graph.update nodes edges now with ⟨g, _ | snapshot⟩ <;>
      rw [hupdate] at hrevision <;> cases hholder : w.holder <;>
      simp only [hholder, hupdate, Option.some.injEq, reduceCtorEq] at h <;> subst h <;>
      exact hrevision
  | replace =>
    simp only [step] at h
    split at h
    · obtain ⟨_, _, rfl⟩ := Option.map_eq_some_iff.mp h
      exact le_refl _
    · cases h
  | done =>
    simp only [step] at h
    split at h
    · obtain rfl := Option.some.inj h
      exact le_refl _
    · cases h
  | fail | cancel | orphanEnd =>
    obtain ⟨_, _, rfl⟩ := Option.map_eq_some_iff.mp h
    exact le_refl _
  | orphanReplace i =>
    simp only [step] at h
    split at h
    · obtain ⟨_, _, rfl⟩ := Option.map_eq_some_iff.mp h
      exact le_refl _
    · cases h
  | restart now => exact absurd rfl (hevent now)

/-! ### The file after a call -/

/-- Without cancelled calls: the file holds the snapshot that was returned last, and the one that
the call under way has written. -/
structure Settled (lib : GraphLibrary) (w : World) : Prop where
  whole : Whole lib w
  orphans : w.orphans = []
  returned : ∀ snapshot, w.returned = some snapshot → Stored lib w.file snapshot ∧
    ∀ writer, w.holder = some writer → writer.replaced = false
  replaced : ∀ writer, w.holder = some writer → writer.replaced = true →
    Stored lib w.file writer.snapshot

theorem Settled.step (lawful : lib.Lawful) {w w' : World} {event : Event} (hw : Settled lib w)
    (hevent : event ≠ .cancel) (h : step lib w event = some w') : Settled lib w' := by
  have hwhole := hw.whole.step lawful h
  cases event with
  | apply nodes edges now =>
    simp only [Knowledge.step] at h
    cases hholder : w.holder with
    | some writer => simp [hholder] at h
    | none =>
      rcases hupdate : w.graph.update nodes edges now with ⟨g, _ | snapshot⟩
      · simp only [hholder, hupdate, Option.some.injEq] at h
        subst h
        exact ⟨hwhole, hw.orphans, fun s hs => ⟨(hw.returned s hs).1, by simp⟩, by simp⟩
      · simp only [hholder, hupdate, Option.some.injEq] at h
        subst h
        exact ⟨hwhole, hw.orphans, fun s hs => ⟨(hw.returned s hs).1, by simp⟩, by simp⟩
  | replace =>
    simp only [Knowledge.step] at h
    split at h
    · next snapshot hholder =>
      obtain ⟨file, hfile, rfl⟩ := Option.map_eq_some_iff.mp h
      refine ⟨hwhole, hw.orphans, by simp, fun writer hwriter _ => ?_⟩
      obtain rfl := Option.some.inj hwriter
      exact ⟨hw.whole.holder ⟨snapshot, false⟩ hholder, hfile⟩
    · cases h
  | done =>
    simp only [Knowledge.step] at h
    split at h
    · next snapshot hholder =>
      obtain rfl := Option.some.inj h
      refine ⟨hwhole, hw.orphans, fun s hs => ?_, by simp⟩
      obtain rfl := Option.some.inj hs
      exact ⟨hw.replaced _ hholder rfl, by simp⟩
    · cases h
  | fail =>
    obtain ⟨_, _, rfl⟩ := Option.map_eq_some_iff.mp h
    exact ⟨hwhole, hw.orphans, fun s hs => ⟨(hw.returned s hs).1, by simp⟩, by simp⟩
  | cancel => exact absurd rfl hevent
  | orphanReplace i => simp [Knowledge.step, hw.orphans] at h
  | orphanEnd i => simp [Knowledge.step, hw.orphans] at h
  | restart now =>
    simp only [Knowledge.step] at h
    split at h
    · cases h
    · obtain rfl := Option.some.inj h
      exact ⟨hwhole, rfl, fun s hs => ⟨(hw.returned s hs).1, by simp⟩, by simp⟩

theorem Settled.initial : Settled lib .initial :=
  ⟨.initial, rfl, by simp [World.initial], by simp [World.initial]⟩

/-- A graph prepared from the file now has the nodes, the edges and the revision of the snapshot
that the last call to succeed returned. -/
def Durable (lib : GraphLibrary) (w : World) : Prop :=
  ∀ snapshot, w.returned = some snapshot → (∀ node ∈ snapshot.nodes, node.JsonValued) →
    ∀ now, ∃ g, prepare lib now w.file = .ok g ∧ g.sortedNodes = snapshot.nodes ∧
      g.sortedEdges = snapshot.edges ∧ g.revision = snapshot.revision

theorem Settled.durable (lawful : lib.Lawful) {w : World} (hw : Settled lib w) :
    Durable lib w := by
  intro snapshot hreturned json now
  have hstored := (hw.returned snapshot hreturned).1
  obtain ⟨reread, hprepare, hreread⟩ := hstored.prepare lawful now
  obtain ⟨⟨g, time, -, rfl⟩, -⟩ := hstored
  have same := KnowledgeGraph.same_load hreread json
  exact ⟨_, hprepare, KnowledgeGraph.sortedNodes_eq_iff.mpr same.nodes,
    KnowledgeGraph.sortedEdges_eq_iff.mpr same.edges, same.revision⟩

/-- In every run the edges are between nodes, ids are unique and only restarts take the revision
back; and in a run without a cancelled call the file holds what the last call returned. -/
theorem graph_runs_sound (lib : GraphLibrary) (lawful : lib.Lawful) (events : List Event)
    (w : World) (h : run lib .initial events = some w) :
    w.graph.Integral ∧ (w.graph.sortedNodes.map (·.id)).Nodup ∧
      (∀ more w', (∀ event ∈ more, ∀ now, event ≠ .restart now) → run lib w more = some w' →
        w.graph.revision ≤ w'.graph.revision) ∧
      ((∀ event ∈ events, event ≠ .cancel) → Durable lib w) := by
  have wholes : ∀ w w' event, True → Whole lib w → step lib w event = some w' → Whole lib w' :=
    fun _ _ _ _ hw hstep => hw.step lawful hstep
  have whole : Whole lib w := run_keeps wholes (fun _ _ => trivial) .initial h
  refine ⟨whole.graph, w.graph.sortedNodes_nodup, fun more w' hmore hrun => ?_, fun calm => ?_⟩
  · exact run_keeps (P := fun other => w.graph.revision ≤ other.graph.revision)
      (fun _ _ _ hevent hle hstep => hle.trans (step_revision hevent hstep)) hmore (le_refl _) hrun
  · have settled : Settled lib w :=
      run_keeps (fun _ _ _ hevent hw hstep => hw.step lawful hevent hstep) calm .initial h
    exact settled.durable lawful

/-! ### A cancelled call whose thread goes on -/

def systemNode : GraphNode := sampleNode "system:local" (by decide +kernel)

def containsDisk : GraphEdge :=
  sampleEdge "system:local" "disk:new" (by decide +kernel) newDisk_end

def calmEvents : List Event :=
  [.apply [systemNode, newDisk] [containsDisk] noon, .replace, .done, .restart noon]

theorem graph_runs_sound_sample :
    ∃ w, run plainLibrary .initial calmEvents = some w ∧ w.graph.revision = 1 ∧
      w.graph.Integral ∧ Durable plainLibrary w := by
  have hrevision : (run plainLibrary .initial calmEvents).map (·.graph.revision) = some 1 := by
    decide +kernel
  obtain ⟨w, hrun, hw⟩ := Option.map_eq_some_iff.mp hrevision
  obtain ⟨integral, -, -, durable⟩ :=
    graph_runs_sound plainLibrary plainLibrary_lawful calmEvents w hrun
  exact ⟨w, hrun, hw, integral, durable (by simp [calmEvents])⟩

/-- The first call is cancelled while its thread runs.  The second gets the lock, writes and
returns, and then the first thread replaces the file. -/
def overtakenEvents : List Event :=
  [.apply [systemNode] [] noon, .cancel, .apply [newDisk] [containsDisk] noon, .replace, .done,
    .orphanReplace 0]

/-- The second call has returned revision 2, and the file holds revision 1. -/
theorem cancelled_write_overtakes :
    ∃ w, run plainLibrary .initial overtakenEvents = some w ∧ ¬ Durable plainLibrary w := by
  have hend : (run plainLibrary .initial overtakenEvents).map (fun w =>
      (w.returned.map fun s => (s.revision, s.nodes.all fun node =>
        (Value.dict node.attributes.fields).serialisable false),
      (prepare plainLibrary noon w.file).toOption.map (·.revision))) =
        some (some (2, true), some 1) := by
    decide +kernel
  obtain ⟨w, hrun, hw⟩ := Option.map_eq_some_iff.mp hend
  obtain ⟨hreturned, hfile⟩ := Prod.mk.inj hw
  obtain ⟨snapshot, hsnapshot, hrevision⟩ := Option.map_eq_some_iff.mp hreturned
  obtain ⟨htwo, hjson⟩ := Prod.mk.inj hrevision
  refine ⟨w, hrun, fun durable => ?_⟩
  obtain ⟨g, hprepare, -, -, hg⟩ := durable snapshot hsnapshot (List.all_eq_true.mp hjson) noon
  rw [hprepare] at hfile
  have hone : g.revision = 1 := Option.some.inj hfile
  rw [hone, htwo] at hg
  cases hg

end Ares.Knowledge
