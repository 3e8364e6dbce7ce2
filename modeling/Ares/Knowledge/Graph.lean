import Ares.Data.Dict
import Ares.Data.Value
import Mathlib.Data.Prod.Lex

/-! The knowledge graph: its nodes by id and its set of edges, the update that `apply` makes in
memory and in the file, and the file that `prepare` reads.  The text codec of JSON and the scalar
conversions of pydantic are parameters. -/

namespace Ares.Knowledge

open Data

variable (lib : GraphLibrary) (g : KnowledgeGraph)

abbrev Bytes := List UInt8

def maxGraphBytes : Nat := 8000000

def newline : UInt8 := 10

inductive GraphKind
  | system | hardware | cpu | ram | gpu | disk | partition | partitionTable | volume
  | bootDependency | filesystem | filesystemStatus | mountPoint | smartStatus | operatingSystem
  | backupSource | backup | backupDestination | backupEntry | backupVerification
  | protectionCheckpoint | repairExecution | repairVerification | storageTransaction
  | storageVerification | kernel | driver | service | process | user | network | firewall | package
  | log | error | event
deriving DecidableEq

def GraphKind.value : GraphKind → String
  | system => "system"
  | hardware => "hardware"
  | cpu => "cpu"
  | ram => "ram"
  | gpu => "gpu"
  | disk => "disk"
  | partition => "partition"
  | partitionTable => "partition_table"
  | volume => "volume"
  | bootDependency => "boot_dependency"
  | filesystem => "filesystem"
  | filesystemStatus => "filesystem_status"
  | mountPoint => "mount_point"
  | smartStatus => "smart_status"
  | operatingSystem => "operating_system"
  | backupSource => "backup_source"
  | backup => "backup"
  | backupDestination => "backup_destination"
  | backupEntry => "backup_entry"
  | backupVerification => "backup_verification"
  | protectionCheckpoint => "protection_checkpoint"
  | repairExecution => "repair_execution"
  | repairVerification => "repair_verification"
  | storageTransaction => "storage_transaction"
  | storageVerification => "storage_verification"
  | kernel => "kernel"
  | driver => "driver"
  | service => "service"
  | process => "process"
  | user => "user"
  | network => "network"
  | firewall => "firewall"
  | package => "package"
  | log => "log"
  | error => "error"
  | event => "event"

def GraphKind.all : List GraphKind :=
  [system, hardware, cpu, ram, gpu, disk, partition, partitionTable, volume, bootDependency,
    filesystem, filesystemStatus, mountPoint, smartStatus, operatingSystem, backupSource, backup,
    backupDestination, backupEntry, backupVerification, protectionCheckpoint, repairExecution,
    repairVerification, storageTransaction, storageVerification, kernel, driver, service, process,
    user, network, firewall, package, log, error, event]

/-- A time, by the text that it is printed as. -/
structure Datetime where
  isoformat : Text
deriving DecidableEq

/-- A dictionary of attributes.  A dictionary has no order, so the keys are kept in theirs. -/
structure Attributes where
  fields : List (Text × Value)
  distinct : (Value.dict fields).distinct
  sorted : (Value.dict fields).sortKeys = .dict fields

def Attributes.ofFields (fields : List (Text × Value)) (h : (Value.dict fields).distinct) :
    Attributes where
  fields := (Value.sortFields fields).insertionSort Value.keyLe
  distinct := (Value.distinct_sortKeys (.dict fields)).trans h
  sorted := Value.sortKeys_sortKeys (.dict fields)

def lowercase (c : CodePoint) : Bool := 97 ≤ c.val && c.val ≤ 122

def decimal (c : CodePoint) : Bool := 48 ≤ c.val && c.val ≤ 57

/-- `^[a-z][a-z0-9…]{low,high}$`, with some more characters in the class. -/
def matchesPattern (others : String) (low high : Nat) : Text → Bool
  | [] => false
  | first :: rest =>
      lowercase first && low ≤ rest.length && rest.length ≤ high &&
        rest.all fun c => lowercase c || decimal c || (Text.ofString others).contains c

def nodeId (id : Text) : Bool := matchesPattern "_.:/-" 2 191 id

def relationName (relation : Text) : Bool := matchesPattern "_.-" 1 63 relation

def edgeEnd (id : Text) : Bool := 3 ≤ id.length && id.length ≤ 192

structure GraphNode where
  id : Text
  kind : GraphKind
  attributes : Attributes
  observedAt : Datetime
  id_pattern : nodeId id = true

structure GraphEdge where
  source : Text
  relation : Text
  target : Text
  source_length : edgeEnd source = true
  relation_pattern : relationName relation = true
  target_length : edgeEnd target = true
deriving DecidableEq

structure GraphSnapshot where
  schemaVersion : Int
  revision : Int
  updatedAt : Datetime
  nodes : List GraphNode
  edges : List GraphEdge

/-! ### Memory -/

/-- `KnowledgeGraph`: `_nodes`, `_edges` (a set, whose triples are edges) and `_revision`. -/
structure KnowledgeGraph where
  nodes : Dict Text GraphNode
  keyed : ∀ id node, nodes.get? id = some node → node.id = id
  edges : List GraphEdge
  edges_nodup : edges.Nodup
  revision : Int

namespace KnowledgeGraph

def empty : KnowledgeGraph where
  nodes := .empty
  keyed := nofun
  edges := []
  edges_nodup := List.nodup_nil
  revision := 0

/-- `self._nodes[node.id] = node`. -/
def addNode (node : GraphNode) : KnowledgeGraph :=
  { g with
    nodes := g.nodes.set node.id node
    keyed := fun id other h => by
      rw [Dict.get?_set] at h
      split at h
      · next hid => rw [eq_of_beq hid, Option.some.inj h]
      · exact g.keyed id other h }

def addNodes (nodes : List GraphNode) : KnowledgeGraph :=
  nodes.foldl addNode g

/-- `self._edges.add(edge)`. -/
def addEdge (edge : GraphEdge) : KnowledgeGraph :=
  { g with
    edges := g.edges.insert edge
    edges_nodup := g.edges_nodup.insert }

def knows (known : List Text) (edge : GraphEdge) : Bool :=
  known.contains edge.source && known.contains edge.target

/-- Adds edges up to the first that names an unknown node; true when there is none. -/
def addEdges (known : List Text) : KnowledgeGraph → List GraphEdge → KnowledgeGraph × Bool
  | g, [] => (g, true)
  | g, edge :: edges =>
      if knows known edge then addEdges known (g.addEdge edge) edges else (g, false)

def nodeLe (a b : GraphNode) : Prop := a.id ≤ b.id

instance : DecidableRel nodeLe := fun a b => inferInstanceAs (Decidable (a.id ≤ b.id))

def edgeKey (edge : GraphEdge) : Text ×ₗ Text ×ₗ Text :=
  toLex (edge.source, toLex (edge.relation, edge.target))

def edgeLe (a b : GraphEdge) : Prop := edgeKey a ≤ edgeKey b

instance : DecidableRel edgeLe := fun a b => inferInstanceAs (Decidable (edgeKey a ≤ edgeKey b))

def sortedNodes : List GraphNode := g.nodes.values.insertionSort nodeLe

def sortedEdges : List GraphEdge := g.edges.insertionSort edgeLe

/-- `_snapshot`. -/
def snapshot (now : Datetime) : GraphSnapshot where
  schemaVersion := 1
  revision := g.revision
  updatedAt := now
  nodes := g.sortedNodes
  edges := g.sortedEdges

/-- What `apply` does before it writes: the new memory, and the snapshot unless an edge names an
unknown node. -/
def update (nodes : List GraphNode) (edges : List GraphEdge) (now : Datetime) :
    KnowledgeGraph × Option GraphSnapshot :=
  let g := g.addNodes nodes
  match addEdges g.nodes.keys g edges with
  | (g, false) => (g, none)
  | (g, true) =>
    let g := { g with revision := g.revision + 1 }
    (g, some (g.snapshot now))

end KnowledgeGraph

/-! ### The file -/

/-- The codec of JSON texts and the scalar conversions of the models. -/
structure GraphLibrary where
  /-- What `model_dump(mode="json")` makes of a value of type `Any`; `none` where it raises. -/
  jsonable : Value → Option Value
  /-- The UTF-8 bytes of `json.dumps` with the keys in the order they have; `none` where the
  encoding raises. -/
  text : Value → Option Bytes
  /-- The JSON value of a file; `none` where it is no UTF-8 or no JSON. -/
  loads : Bytes → Option Value
  /-- A field of type `datetime`. -/
  datetime : Value → Option Datetime
  /-- A field of type `int`. -/
  int : Value → Option Int

/-- JSON values are dumped as they are, and what was dumped or printed is read back. -/
structure GraphLibrary.Lawful (lib : GraphLibrary) : Prop where
  jsonable_json : ∀ {value}, value.distinct → value.serialisable false →
    lib.jsonable value = some value
  jsonable_distinct : ∀ {value json}, lib.jsonable value = some json → json.distinct
  loads_text : ∀ {value bytes}, value.distinct → value.serialisable false →
    lib.text value = some bytes → lib.loads (bytes ++ [newline]) = some value
  datetime_isoformat : ∀ time, lib.datetime (.str time.isoformat) = some time
  int_int : ∀ i, lib.int (.int i) = some i

def named (fields : List (String × Value)) : List (Text × Value) :=
  fields.map fun field => (Text.ofString field.1, field.2)

/-- A dictionary of the source, by its keys. -/
def record (fields : List (String × Value)) : Value := .dict (named fields)

def dumpNode (node : GraphNode) : Option Value := do
  let attributes ← node.attributes.fields.mapM fun field =>
    (lib.jsonable field.2).map fun json => (field.1, json)
  some (record [("id", .str node.id), ("kind", .lit node.kind.value),
    ("attributes", .dict attributes), ("observed_at", .str node.observedAt.isoformat)])

def dumpEdge (edge : GraphEdge) : Value :=
  record [("source", .str edge.source), ("relation", .str edge.relation),
    ("target", .str edge.target)]

/-- `snapshot.model_dump(mode="json")`. -/
def dumpSnapshot (snapshot : GraphSnapshot) : Option Value := do
  let nodes ← snapshot.nodes.mapM (dumpNode lib)
  some (record [("schema_version", .int snapshot.schemaVersion),
    ("revision", .int snapshot.revision),
    ("updated_at", .str snapshot.updatedAt.isoformat),
    ("nodes", .list nodes), ("edges", .list (snapshot.edges.map dumpEdge))])

/-- The bytes that `_write` encodes; `none` where that raises. -/
def encode (snapshot : GraphSnapshot) : Option Bytes := do
  let value ← dumpSnapshot lib snapshot
  if value.serialisable false then
    let bytes ← lib.text value.sortKeys
    some (bytes ++ [newline])
  else none

inductive Entry
  | absent
  | special
  | file (content : Bytes)

/-- The calls of `_write` to the operating system. -/
inductive WriteCall
  | mkstemp | write | flush | fsync | chmod | replace | openDirectory | fsyncDirectory
  | closeDirectory | unlink
deriving DecidableEq

def WriteCall.late : WriteCall → Bool
  | mkstemp | write | flush | fsync | chmod | replace => false
  | openDirectory | fsyncDirectory | closeDirectory | unlink => true

inductive ApplyError
  | unknownNode
  | unserialisable
  | tooLarge
  | osError (call : WriteCall)
  | cancelled
deriving DecidableEq

/-- `_write`; `raises` is the first call that raises, if one does. -/
def write (snapshot : GraphSnapshot) (raises : Option WriteCall)
    (file : Entry) : Except ApplyError Unit × Entry :=
  match encode lib snapshot with
  | none => (.error .unserialisable, file)
  | some encoded =>
    if maxGraphBytes < encoded.length then (.error .tooLarge, file)
    else
      match raises with
      | none => (.ok (), .file encoded)
      | some call => (.error (.osError call), if call.late then .file encoded else file)

/-- What befalls a call of `apply` from outside. -/
inductive Fate
  /-- It runs to its end; `raises` is the call of `_write` that raises, if one does. -/
  | ran (raises : Option WriteCall)
  | waiting
  /-- It is cancelled while the thread writes, and the thread comes to its own end. -/
  | cancelled (raises : Option WriteCall)
deriving DecidableEq

/-- `apply`, with the memory and the file that it leaves. -/
def apply (file : Entry) (nodes : List GraphNode)
    (edges : List GraphEdge) (now : Datetime) (fate : Fate) :
    Except ApplyError GraphSnapshot × KnowledgeGraph × Entry :=
  match fate with
  | .waiting => (.error .cancelled, g, file)
  | .ran raises =>
    match g.update nodes edges now with
    | (g, none) => (.error .unknownNode, g, file)
    | (g, some snapshot) =>
      match write lib snapshot raises file with
      | (.error e, file) => (.error e, g, file)
      | (.ok (), file) => (.ok snapshot, g, file)
  | .cancelled raises =>
    match g.update nodes edges now with
    | (g, none) => (.error .unknownNode, g, file)
    | (g, some snapshot) => (.error .cancelled, g, (write lib snapshot raises file).2)

/-! ### Reading the file -/

def keysAmong (keys : List String) (fields : List (Text × Value)) : Bool :=
  fields.all fun field => keys.any fun key => field.1 = Text.ofString key

def member (fields : List (Text × Value)) (key : String) : Option Value :=
  fields.lookup (Text.ofString key)

def kindOf (value : Value) : Option GraphKind := do
  let s ← asText value
  GraphKind.all.find? fun kind => s = Text.ofString kind.value

def attributesOf : Value → Option Attributes
  | .dict fields => if h : (Value.dict fields).distinct then some (.ofFields fields h) else none
  | _ => none

/-- `GraphNode.model_validate`; `now` is the default of `observed_at`. -/
def validateNode (now : Datetime) : Value → Option GraphNode
  | .dict fields =>
    if keysAmong ["id", "kind", "attributes", "observed_at"] fields then do
      let id ← (member fields "id").bind asText
      let kind ← (member fields "kind").bind kindOf
      let attributes ← attributesOf ((member fields "attributes").getD (.dict []))
      let observedAt ← ((member fields "observed_at").map lib.datetime).getD (some now)
      if h : nodeId id then some ⟨id, kind, attributes, observedAt, h⟩ else none
    else none
  | _ => none

def validateEdge : Value → Option GraphEdge
  | .dict fields =>
    if keysAmong ["source", "relation", "target"] fields then do
      let source ← (member fields "source").bind asText
      let relation ← (member fields "relation").bind asText
      let target ← (member fields "target").bind asText
      if h : edgeEnd source ∧ relationName relation ∧ edgeEnd target then
        some ⟨source, relation, target, h.1, h.2.1, h.2.2⟩
      else none
    else none
  | _ => none

/-- `GraphSnapshot.model_validate`. -/
def validateSnapshot (now : Datetime) : Value → Option GraphSnapshot
  | .dict fields =>
    if keysAmong ["schema_version", "revision", "updated_at", "nodes", "edges"] fields then do
      let schemaVersion ← ((member fields "schema_version").map lib.int).getD (some 1)
      let revision ← ((member fields "revision").map lib.int).getD (some 0)
      let updatedAt ← ((member fields "updated_at").map lib.datetime).getD (some now)
      let nodes ← asList ((member fields "nodes").getD (.list []))
      let nodes ← nodes.mapM (validateNode lib now)
      let edges ← asList ((member fields "edges").getD (.list []))
      let edges ← edges.mapM validateEdge
      some ⟨schemaVersion, revision, updatedAt, nodes, edges⟩
    else none
  | _ => none

inductive PrepareError
  | notRegular
  | tooLarge
  | invalid
deriving DecidableEq

/-- The memory of a snapshot: `_nodes` by id, the last node of an id, and `_edges` as a set. -/
def KnowledgeGraph.load (snapshot : GraphSnapshot) : KnowledgeGraph :=
  let g := KnowledgeGraph.empty.addNodes snapshot.nodes
  let g := snapshot.edges.foldl KnowledgeGraph.addEdge g
  { g with revision := snapshot.revision }

/-- `KnowledgeGraph(path).prepare()`. -/
def prepare (now : Datetime) : Entry → Except PrepareError KnowledgeGraph
  | .absent => .ok .empty
  | .special => .error .notRegular
  | .file content =>
    if maxGraphBytes < content.length then .error .tooLarge
    else
      match (lib.loads content).bind (validateSnapshot lib now) with
      | none => .error .invalid
      | some snapshot => .ok (.load snapshot)

end Ares.Knowledge
