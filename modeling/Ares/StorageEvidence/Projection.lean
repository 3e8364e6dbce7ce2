import Ares.Knowledge.Codec
import Ares.StorageEvidence.Listing
import Ares.StorageEvidence.Snapshot

/-! The ids of a snapshot refer to entities of the snapshot, and its projection into the knowledge
graph makes no edge to a node that it does not make. -/

namespace Ares.StorageEvidence

open Data
open Knowledge (Attributes Datetime Entry Fate GraphEdge GraphKind GraphLibrary GraphNode
  KnowledgeGraph attributesOf edgeEnd mapM_eq_some mapM_of_forall₂ mem_of_mapM_eq_some
  named named_nodup nodeId record
  relationName)

/-! ### The projection -/

/-- The arguments of a `GraphNode(…)`. -/
structure NodeFields where
  id : Text
  kind : GraphKind
  attributes : List (String × Value)

/-- The arguments of a `GraphEdge(…)`. -/
structure EdgeFields where
  source : Text
  relation : String
  target : Text

def optionalText : Option Text → Value
  | some text => .str text
  | none => .none

def optionalBool : Option Bool → Value
  | some b => .bool b
  | none => .none

def optionalFloat : Option Float64 → Value
  | some bits => .float bits
  | none => .none

def systemId : Text := Text.ofString "system:local"

def systemNode (snapshot : SystemStorageSnapshot) : NodeFields :=
  ⟨systemId, .system,
    [("hostname", .str snapshot.stamp.hostname), ("snapshot_id", .str snapshot.stamp.id)]⟩

def diskNode (disk : DiskSnapshot) : NodeFields :=
  ⟨disk.id, .disk,
    [("name", .str disk.name), ("path", .str disk.path), ("size_bytes", .int disk.sizeBytes),
      ("model", optionalText disk.model), ("vendor", optionalText disk.vendor),
      ("transport", optionalText disk.transport), ("read_only", .bool disk.readOnly),
      ("removable", .bool disk.removable),
      ("hardware_identity", optionalText disk.hardwareIdentity)]⟩

def partitionNode (partition : PartitionSnapshot) : NodeFields :=
  ⟨partition.id, .partition,
    [("name", .str partition.name), ("path", .str partition.path),
      ("size_bytes", .int partition.sizeBytes), ("read_only", .bool partition.readOnly)]⟩

def filesystemNode (filesystem : FilesystemSnapshot) : NodeFields :=
  ⟨filesystem.id, .filesystem,
    [("type", optionalText filesystem.filesystemType), ("version", optionalText filesystem.version),
      ("uuid", optionalText filesystem.uuid), ("label", optionalText filesystem.label)]⟩

def mountNode (mount : MountPointSnapshot) : NodeFields :=
  ⟨mount.id, .mountPoint,
    [("path", .str mount.path), ("source", .str mount.source),
      ("used_percent", optionalFloat mount.usedPercent)]⟩

def operatingSystemNode (os : OperatingSystemSnapshot) : NodeFields :=
  ⟨os.id, .operatingSystem,
    [("name", .str os.name), ("version", optionalText os.version),
      ("os_id", optionalText os.osId), ("mountpoint", .str os.mountpoint)]⟩

def smartNode (smart : SmartSnapshot) : NodeFields :=
  ⟨smart.id, .smartStatus,
    [("status", .lit smart.status.value), ("passed", optionalBool smart.passed),
      ("temperature_celsius", optionalFloat smart.temperatureCelsius),
      ("reason", optionalText smart.reason)]⟩

def projectedNodes (snapshot : SystemStorageSnapshot) : List NodeFields :=
  systemNode snapshot ::
    (snapshot.disks.map diskNode ++ snapshot.partitions.map partitionNode ++
      snapshot.filesystems.map filesystemNode ++ snapshot.mounts.map mountNode ++
      snapshot.operatingSystems.map operatingSystemNode ++ snapshot.smart.map smartNode)

/-- `next((item for item in snapshot.partitions if item.path == path), None)`. -/
def partitionAt (snapshot : SystemStorageSnapshot) (path : Text) : Option PartitionSnapshot :=
  snapshot.partitions.find? (·.path = path)

/-- The edges in the order in which the action makes them. -/
def projectedEdges (snapshot : SystemStorageSnapshot) : List EdgeFields :=
  snapshot.disks.map (fun disk => ⟨systemId, "contains", disk.id⟩) ++
    snapshot.partitions.filterMap (fun partition =>
      partition.diskId.map fun diskId => ⟨diskId, "contains", partition.id⟩) ++
    snapshot.filesystems.filterMap (fun filesystem =>
      (partitionAt snapshot filesystem.devicePath).map fun partition =>
        ⟨partition.id, "formatted_as", filesystem.id⟩) ++
    snapshot.mounts.filterMap (fun mount =>
      (partitionAt snapshot mount.source).map fun partition =>
        ⟨partition.id, "mounted_at", mount.id⟩) ++
    snapshot.operatingSystems.filterMap (fun os =>
      os.diskId.map fun diskId => ⟨diskId, "contains", os.id⟩) ++
    snapshot.smart.map fun smart => ⟨smart.diskId, "has_health_status", smart.id⟩

/-- `GraphNode(…)`; `none` is a validation error. -/
def NodeFields.build (fields : NodeFields) (observedAt : Datetime) : Option GraphNode := do
  let attributes ← attributesOf (record fields.attributes)
  if h : nodeId fields.id then some ⟨fields.id, fields.kind, attributes, observedAt, h⟩ else none

/-- `GraphEdge(…)`; `none` is a validation error. -/
def EdgeFields.build (fields : EdgeFields) : Option GraphEdge :=
  if h : edgeEnd fields.source ∧ relationName (Text.ofString fields.relation) ∧
      edgeEnd fields.target then
    some ⟨fields.source, Text.ofString fields.relation, fields.target, h.1, h.2.1, h.2.2⟩
  else none

/-- The nodes and edges that `ProjectStorageSnapshotAction.run` hands to the graph; `clock` tells
when each node is made. -/
def projectStorageSnapshot (snapshot : SystemStorageSnapshot) (clock : Nat → Datetime) :
    Option (List GraphNode × List GraphEdge) := do
  let nodes ← (projectedNodes snapshot).zipIdx.mapM fun item => item.1.build (clock item.2)
  let edges ← (projectedEdges snapshot).mapM EdgeFields.build
  some (nodes, edges)

/-! ### References inside the snapshot -/

/-- Every id that an entity refers to is the id of an entity of the right kind. -/
structure SystemStorageSnapshot.Closed (snapshot : SystemStorageSnapshot) : Prop where
  partitionDisk : ∀ partition ∈ snapshot.partitions, ∀ id ∈ partition.diskId,
    id ∈ snapshot.disks.map (·.id)
  partitionFilesystem : ∀ partition ∈ snapshot.partitions, ∀ id ∈ partition.filesystemId,
    id ∈ snapshot.filesystems.map (·.id)
  partitionMounts : ∀ partition ∈ snapshot.partitions, ∀ id ∈ partition.mountPointIds,
    id ∈ snapshot.mounts.map (·.id)
  diskPartitions : ∀ disk ∈ snapshot.disks, ∀ id ∈ disk.partitionIds,
    id ∈ snapshot.partitions.map (·.id)
  diskSmart : ∀ disk ∈ snapshot.disks, ∀ id ∈ disk.smartId, id ∈ snapshot.smart.map (·.id)
  operatingSystemDisk : ∀ os ∈ snapshot.operatingSystems, ∀ id ∈ os.diskId,
    id ∈ snapshot.disks.map (·.id)
  smartDisk : ∀ smart ∈ snapshot.smart, smart.diskId ∈ snapshot.disks.map (·.id)

/-- What the loop over the devices keeps: its two tables name its partitions and the disks. -/
structure Volumes.Closed (disks : Dict Text DiskSnapshot) (v : Volumes) : Prop where
  partitionIds : ∀ diskId ids, v.partitionIdsByDisk.get? diskId = some ids →
    ∀ id ∈ ids, id ∈ v.partitions.map (·.id)
  sourceToDisk : ∀ path id, v.sourceToDisk.get? path = some id →
    id = [] ∨ id ∈ disks.values.map (·.id)

variable {lib : SnapshotLibrary} {disks : Dict Text DiskSnapshot}
  {mounts : Dict Text MountPointSnapshot} {v : Volumes} {device : BlockDeviceProbe}

theorem id_mem_of_get? {κ α : Type} [BEq κ] [LawfulBEq κ] {d : Dict κ α} {key : κ} {id : α → Text}
    {x : Text} (h : x ∈ (d.get? key).map id) : x ∈ d.values.map id := by
  obtain ⟨value, hvalue, rfl⟩ := Option.map_eq_some_iff.mp h
  exact List.mem_map_of_mem (Dict.mem_values.mpr ⟨key, hvalue⟩)

theorem closed_empty : Volumes.empty.Closed disks where
  partitionIds := nofun
  sourceToDisk := nofun

theorem closed_set {path owner : Text} (h : v.Closed disks)
    (howner : owner = [] ∨ owner ∈ disks.values.map (·.id)) :
    ∀ key id, (v.sourceToDisk.set path owner).get? key = some id →
      id = [] ∨ id ∈ disks.values.map (·.id) := by
  intro key id hid
  rw [Dict.get?_set] at hid
  split at hid
  · exact Option.some.inj hid ▸ howner
  · exact h.sourceToDisk key id hid

theorem closed_append (h : v.Closed disks) (owner : Text) (partition : PartitionSnapshot) :
    ∀ diskId ids, (v.partitionIdsByDisk.append owner partition.id).get? diskId = some ids →
      ∀ id ∈ ids, id ∈ (v.partitions ++ [partition]).map (·.id) := by
  intro diskId ids hids id hid
  rw [List.map_append, List.mem_append]
  rw [Dict.append, Dict.get?_set] at hids
  split at hids
  · obtain rfl := Option.some.inj hids
    rcases List.mem_append.mp hid with hid | hid
    · cases hold : v.partitionIdsByDisk.get? owner with
      | none =>
        rw [hold] at hid
        exact absurd hid List.not_mem_nil
      | some oldIds =>
        rw [hold] at hid
        exact .inl (h.partitionIds owner oldIds hold id hid)
    · exact .inr hid
  · exact .inl (h.partitionIds diskId ids hids id hid)

theorem closed_addDevice (h : v.Closed disks) :
    (addDevice lib disks mounts v device).Closed disks := by
  by_cases hvolume : isVolume device
  · rw [addDevice_volume hvolume]
    have hpartition : (partitionOf lib disks mounts device).id =
        resourceId lib "partition" device.path := rfl
    cases hdisk : diskIdOf disks device with
    | none =>
      refine ⟨fun diskId ids hids id hid => ?_, closed_set h (.inl rfl)⟩
      rw [List.map_append, List.mem_append]
      exact .inl (h.partitionIds diskId ids hids id hid)
    | some diskId =>
      exact ⟨hpartition ▸ closed_append h diskId _, closed_set h (.inr (id_mem_of_get? hdisk))⟩
  · rw [addDevice_other (Bool.not_eq_true _ ▸ hvolume)]
    split
    · split
      · next disk hdisk =>
        exact { h with
          sourceToDisk := closed_set h
            (.inr (List.mem_map_of_mem (Dict.mem_values.mpr ⟨_, hdisk⟩))) }
      · exact h
    · exact h

theorem closed_foldl (devices : List BlockDeviceProbe) (h : v.Closed disks) :
    (devices.foldl (addDevice lib disks mounts) v).Closed disks := by
  induction devices generalizing v with
  | nil => exact h
  | cons device devices ih => exact ih (closed_addDevice h)

theorem closed_volumesOf (evidence : StorageEvidence) :
    (volumesOf lib evidence).Closed (disksByPath lib evidence.devices) :=
  closed_foldl evidence.devices closed_empty

theorem ids_normalizedDisks (evidence : StorageEvidence) :
    (normalizedDisks lib evidence).map (·.id) =
      (disksByPath lib evidence.devices).values.map (·.id) := by
  rw [normalizedDisks, List.map_map]
  rfl

variable {evidence : StorageEvidence} {snapshot : SystemStorageSnapshot}

theorem mem_smartEntries {smart : SmartSnapshot}
    (h : smart ∈ smartEntries lib evidence) :
    smart.diskId ∈ (disksByPath lib evidence.devices).values.map (·.id) := by
  obtain ⟨item, -, hitem⟩ := List.mem_filterMap.mp h
  obtain ⟨disk, hdisk, rfl⟩ := Option.map_eq_some_iff.mp hitem
  exact List.mem_map_of_mem (Dict.mem_values.mpr ⟨item.device, hdisk⟩)

theorem smartIdByDisk_mem {diskId id : Text}
    (h : (smartIdByDisk lib evidence).get? diskId = some id) :
    id ∈ (smartEntries lib evidence).map (·.id) := by
  obtain ⟨smart, hm, -, rfl⟩ := (Dict.get?_foldl_set h).resolve_right (by simp)
  exact List.mem_map_of_mem hm

/-- What a snapshot is made of. -/
structure Built (lib : SnapshotLibrary) (evidence : StorageEvidence)
    (snapshot : SystemStorageSnapshot) : Prop where
  encodable : (identities evidence).all encodable
  disks : snapshot.disks = normalizedDisks lib evidence
  partitions : snapshot.partitions = (volumesOf lib evidence).partitions
  filesystems : snapshot.filesystems = (volumesOf lib evidence).filesystems
  mounts : snapshot.mounts = (mountByPath lib evidence).values
  operatingSystems : snapshot.operatingSystems =
    evidence.operatingSystems.map (operatingSystemOf lib (volumesOf lib evidence).sourceToDisk)
  smart : snapshot.smart = smartEntries lib evidence

theorem built {evidence : StorageEvidence} {sessionId : Text} {stamp : Stamp}
    {snapshot : SystemStorageSnapshot}
    (h : buildStorageSnapshot lib evidence sessionId stamp = some snapshot) :
    Built lib evidence snapshot := by
  unfold buildStorageSnapshot at h
  split at h
  · next hencodable =>
    obtain rfl := Option.some.inj h
    exact ⟨hencodable, rfl, rfl, rfl, rfl, rfl, rfl⟩
  · cases h

theorem Built.closed {evidence : StorageEvidence} {snapshot : SystemStorageSnapshot}
    (h : Built lib evidence snapshot) : snapshot.Closed := by
  have volumes : (volumesOf lib evidence).Closed _ := closed_volumesOf evidence
  have ids : snapshot.disks.map (·.id) =
      (disksByPath lib evidence.devices).values.map (·.id) := by
    rw [h.disks, ids_normalizedDisks]
  refine ⟨?_, ?_, ?_, fun disk hdisk id hid => ?_, fun disk hdisk id hid => ?_,
    fun os hos id hid => ?_, fun smart hsmart => ?_⟩
  · rw [h.partitions, partitions_volumesOf, ids]
    intro partition hpartition id hid
    obtain ⟨device, -, rfl⟩ := List.mem_map.mp hpartition
    exact id_mem_of_get? hid
  · rw [h.partitions, h.filesystems, partitions_volumesOf, filesystems_volumesOf]
    intro partition hpartition id hid
    obtain ⟨device, hdevice, rfl⟩ := List.mem_map.mp hpartition
    obtain ⟨filesystem, hfilesystem, rfl⟩ := Option.map_eq_some_iff.mp hid
    exact List.mem_map_of_mem (List.mem_filterMap.mpr ⟨device, hdevice, hfilesystem⟩)
  · rw [h.partitions, h.mounts, partitions_volumesOf]
    intro partition hpartition id hid
    obtain ⟨device, -, rfl⟩ := List.mem_map.mp hpartition
    obtain ⟨path, -, hpath⟩ := List.mem_filterMap.mp hid
    exact id_mem_of_get? hpath
  · rw [h.disks] at hdisk
    obtain ⟨found, -, rfl⟩ := List.mem_map.mp hdisk
    rw [h.partitions]
    cases hids : (volumesOf lib evidence).partitionIdsByDisk.get? found.id with
    | none => simp [hids] at hid
    | some ids => exact volumes.partitionIds found.id ids hids id (by simpa [hids] using hid)
  · rw [h.disks] at hdisk
    obtain ⟨found, -, rfl⟩ := List.mem_map.mp hdisk
    rw [h.smart]
    exact smartIdByDisk_mem hid
  · rw [h.operatingSystems] at hos
    obtain ⟨item, -, rfl⟩ := List.mem_map.mp hos
    obtain ⟨text, htext, hnonempty⟩ := Option.bind_eq_some_iff.mp hid
    rw [ids]
    rcases volumes.sourceToDisk _ _ htext with rfl | hm
    · exact absurd rfl (nonempty_eq_some.mp hnonempty).1
    · exact (nonempty_eq_some.mp hnonempty).2 ▸ hm
  · rw [h.smart] at hsmart
    rw [ids]
    exact mem_smartEntries hsmart

/-! ### The nodes and edges -/

/-- The ids of the nodes that the action makes. -/
def nodeIds (snapshot : SystemStorageSnapshot) : List Text :=
  (projectedNodes snapshot).map (·.id)

theorem mem_nodeIds {snapshot : SystemStorageSnapshot} {id : Text} :
    id ∈ nodeIds snapshot ↔ id = systemId ∨ id ∈ snapshot.disks.map (·.id) ∨
      id ∈ snapshot.partitions.map (·.id) ∨ id ∈ snapshot.filesystems.map (·.id) ∨
      id ∈ snapshot.mounts.map (·.id) ∨ id ∈ snapshot.operatingSystems.map (·.id) ∨
      id ∈ snapshot.smart.map (·.id) := by
  simp only [nodeIds, projectedNodes, systemNode, diskNode, partitionNode, filesystemNode,
    mountNode, operatingSystemNode, smartNode, List.map_cons, List.map_append, List.map_map,
    List.mem_cons, List.mem_append, Function.comp_def, or_assoc]

theorem partitionAt_mem {snapshot : SystemStorageSnapshot} {path : Text}
    {partition : PartitionSnapshot} (h : partitionAt snapshot path = some partition) :
    partition.id ∈ nodeIds snapshot :=
  mem_nodeIds.mpr (.inr (.inr (.inl (List.mem_map_of_mem (List.mem_of_find?_eq_some h)))))

theorem SystemStorageSnapshot.Closed.ends {snapshot : SystemStorageSnapshot}
    (h : snapshot.Closed) {edge : EdgeFields} (hm : edge ∈ projectedEdges snapshot) :
    edge.source ∈ nodeIds snapshot ∧ edge.target ∈ nodeIds snapshot := by
  have ofDisk {id : Text} (hid : id ∈ snapshot.disks.map (·.id)) : id ∈ nodeIds snapshot :=
    mem_nodeIds.mpr (.inr (.inl hid))
  simp only [projectedEdges, List.mem_append, or_assoc] at hm
  rcases hm with hm | hm | hm | hm | hm | hm
  · obtain ⟨disk, hdisk, rfl⟩ := List.mem_map.mp hm
    exact ⟨mem_nodeIds.mpr (.inl rfl), ofDisk (List.mem_map_of_mem hdisk)⟩
  · obtain ⟨partition, hpartition, hedge⟩ := List.mem_filterMap.mp hm
    obtain ⟨diskId, hdisk, rfl⟩ := Option.map_eq_some_iff.mp hedge
    exact ⟨ofDisk (h.partitionDisk partition hpartition diskId hdisk),
      mem_nodeIds.mpr (.inr (.inr (.inl (List.mem_map_of_mem hpartition))))⟩
  · obtain ⟨filesystem, hfilesystem, hedge⟩ := List.mem_filterMap.mp hm
    obtain ⟨partition, hpartition, rfl⟩ := Option.map_eq_some_iff.mp hedge
    exact ⟨partitionAt_mem hpartition,
      mem_nodeIds.mpr (.inr (.inr (.inr (.inl (List.mem_map_of_mem hfilesystem)))))⟩
  · obtain ⟨mount, hmount, hedge⟩ := List.mem_filterMap.mp hm
    obtain ⟨partition, hpartition, rfl⟩ := Option.map_eq_some_iff.mp hedge
    exact ⟨partitionAt_mem hpartition,
      mem_nodeIds.mpr (.inr (.inr (.inr (.inr (.inl (List.mem_map_of_mem hmount))))))⟩
  · obtain ⟨os, hos, hedge⟩ := List.mem_filterMap.mp hm
    obtain ⟨diskId, hdisk, rfl⟩ := Option.map_eq_some_iff.mp hedge
    exact ⟨ofDisk (h.operatingSystemDisk os hos diskId hdisk),
      mem_nodeIds.mpr (.inr (.inr (.inr (.inr (.inr (.inl (List.mem_map_of_mem hos)))))))⟩
  · obtain ⟨smart, hsmart, rfl⟩ := List.mem_map.mp hm
    exact ⟨ofDisk (h.smartDisk smart hsmart),
      mem_nodeIds.mpr (.inr (.inr (.inr (.inr (.inr (.inr (List.mem_map_of_mem hsmart)))))))⟩

theorem build_id {fields : NodeFields} {observedAt : Datetime} {node : GraphNode}
    (h : fields.build observedAt = some node) : node.id = fields.id := by
  obtain ⟨attributes, -, h⟩ := Option.bind_eq_some_iff.mp h
  split at h
  · obtain rfl := Option.some.inj h
    rfl
  · cases h

theorem build_ends {fields : EdgeFields} {edge : GraphEdge} (h : fields.build = some edge) :
    edge.source = fields.source ∧ edge.target = fields.target := by
  unfold EdgeFields.build at h
  split at h
  · obtain rfl := Option.some.inj h
    exact ⟨rfl, rfl⟩
  · cases h

theorem project_spec {snapshot : SystemStorageSnapshot} {clock : Nat → Datetime}
    {nodes : List GraphNode} {edges : List GraphEdge}
    (h : projectStorageSnapshot snapshot clock = some (nodes, edges)) :
    nodes.map (·.id) = nodeIds snapshot ∧
      ∀ edge ∈ edges, ∃ fields ∈ projectedEdges snapshot, fields.build = some edge := by
  obtain ⟨nodes', hnodes, h⟩ := Option.bind_eq_some_iff.mp h
  obtain ⟨edges', hedges, h⟩ := Option.bind_eq_some_iff.mp h
  obtain ⟨rfl, rfl⟩ := Prod.mk.inj (Option.some.inj h)
  constructor
  · have matched := mapM_eq_some hnodes
    have ids : List.Forall₂ (fun a b => a = b) (((projectedNodes snapshot).zipIdx.map (·.1)).map
        (·.id)) (nodes'.map (·.id)) := by
      rw [List.map_map, List.forall₂_map_left_iff, List.forall₂_map_right_iff]
      exact matched.imp fun _ _ hbuild => (build_id hbuild).symm
    rw [List.forall₂_eq_eq_eq] at ids
    rw [← ids, nodeIds, List.zipIdx_map_fst]
  · intro edge hm
    exact mem_of_mapM_eq_some hedges hm

/-! ### Valid nodes and edges -/

/-- What `hexdigest` returns. -/
def hexDigit (c : CodePoint) : Bool := Knowledge.decimal c || (97 ≤ c.val && c.val ≤ 102)

/-- SHA-256 digests are 64 hexadecimal digits. -/
def SnapshotLibrary.HexDigest (lib : SnapshotLibrary) : Prop :=
  ∀ text, (lib.sha256 text).length = 64 ∧ (lib.sha256 text).all hexDigit

def resourceKinds : List String := ["disk", "partition", "filesystem", "mount", "os", "smart"]

def Resource (lib : SnapshotLibrary) (id : Text) : Prop :=
  ∃ kind ∈ resourceKinds, ∃ identity, id = resourceId lib kind identity

def idChar (c : CodePoint) : Bool :=
  Knowledge.lowercase c || Knowledge.decimal c || (Text.ofString "_.:/-").contains c

def idFront : Text → Bool
  | [] => false
  | first :: rest => Knowledge.lowercase first && rest.length ≤ 10 && rest.all idChar

theorem nodeId_front {front rest : Text} (hfront : idFront front) (length : rest.length = 24)
    (hrest : rest.all idChar) : nodeId (front ++ rest) = true := by
  cases front with
  | nil => cases hfront
  | cons first others =>
    rw [idFront, Bool.and_eq_true, Bool.and_eq_true, decide_eq_true_eq] at hfront
    obtain ⟨⟨hfirst, hlength⟩, hothers⟩ := hfront
    have hall : (others ++ rest).all idChar := by rw [List.all_append, hothers, hrest]; rfl
    rw [List.cons_append, nodeId, Knowledge.matchesPattern, hfirst, List.length_append, length]
    refine Bool.and_eq_true_iff.mpr ⟨?_, hall⟩
    rw [Bool.true_and, Bool.and_eq_true, decide_eq_true_eq, decide_eq_true_eq]
    omega

theorem idFront_resourceKinds :
    resourceKinds.all (fun kind => idFront (Text.ofString kind ++ Text.ofString ":")) = true := by
  decide +kernel

theorem nodeId_resource (digest : lib.HexDigest) {id : Text} (h : Resource lib id) :
    nodeId id = true := by
  obtain ⟨kind, hkind, identity, rfl⟩ := h
  obtain ⟨length, digits⟩ := digest identity
  refine nodeId_front (List.all_eq_true.mp idFront_resourceKinds kind hkind) ?_ ?_
  · rw [List.length_take, length]
    rfl
  · rw [List.all_eq_true] at digits ⊢
    intro c hc
    have hdigit := digits c (List.mem_of_mem_take hc)
    rw [hexDigit, Bool.or_eq_true] at hdigit
    rcases hdigit with hdigit | hdigit
    · simp [idChar, hdigit]
    · have lower : Knowledge.lowercase c = true := by
        simp only [Knowledge.lowercase, Bool.and_eq_true, decide_eq_true_eq] at hdigit ⊢
        omega
      simp [idChar, lower]

theorem edgeEnd_of_nodeId {id : Text} (h : nodeId id = true) : edgeEnd id = true := by
  cases id with
  | nil => cases h
  | cons first rest =>
    simp only [nodeId, Knowledge.matchesPattern, Bool.and_eq_true, decide_eq_true_eq] at h
    simp only [edgeEnd, List.length_cons, Bool.and_eq_true, decide_eq_true_eq]
    omega

theorem resource_mem {kind : String} (hkind : kind ∈ resourceKinds) (identity : Text) :
    Resource lib (resourceId lib kind identity) := ⟨kind, hkind, identity, rfl⟩

theorem Built.resources {evidence : StorageEvidence} {snapshot : SystemStorageSnapshot}
    (h : Built lib evidence snapshot) {id : Text} (hid : id ∈ nodeIds snapshot) :
    id = systemId ∨ Resource lib id := by
  rw [mem_nodeIds, h.disks, ids_normalizedDisks, h.partitions, partitions_volumesOf, h.filesystems,
    filesystems_volumesOf, h.mounts, h.operatingSystems, h.smart] at hid
  rcases hid with rfl | hid | hid | hid | hid | hid | hid
  · exact .inl rfl
  all_goals
    obtain ⟨entity, hentity, rfl⟩ := List.mem_map.mp hid
    refine .inr ?_
  · obtain ⟨path, hpath⟩ := Dict.mem_values.mp hentity
    obtain ⟨device, -, -, -, rfl⟩ := get?_disksByPath hpath
    exact resource_mem (by simp [resourceKinds]) _
  · obtain ⟨device, -, rfl⟩ := List.mem_map.mp hentity
    exact resource_mem (by simp [resourceKinds]) _
  · obtain ⟨device, -, hdevice⟩ := List.mem_filterMap.mp hentity
    unfold filesystemOf at hdevice
    split at hdevice
    · obtain rfl := Option.some.inj hdevice
      exact resource_mem (by simp [resourceKinds]) _
    · cases hdevice
  · obtain ⟨path, hpath⟩ := Dict.mem_values.mp hentity
    obtain ⟨item, -, rfl⟩ := List.mem_map.mp (Dict.get?_index hpath).1
    exact resource_mem (by simp [resourceKinds]) _
  · obtain ⟨item, -, rfl⟩ := List.mem_map.mp hentity
    exact resource_mem (by simp [resourceKinds]) _
  · obtain ⟨item, -, hitem⟩ := List.mem_filterMap.mp hentity
    obtain ⟨disk, -, rfl⟩ := Option.map_eq_some_iff.mp hitem
    exact resource_mem (by simp [resourceKinds]) _

theorem Built.nodeId (h : Built lib evidence snapshot) (digest : lib.HexDigest) {id : Text}
    (hid : id ∈ nodeIds snapshot) : Knowledge.nodeId id = true := by
  rcases h.resources hid with rfl | hid
  · decide +kernel
  · exact nodeId_resource digest hid

/-! ### The projection succeeds -/

theorem distinct_record {fields : List (String × Value)} (keys : (fields.map Prod.fst).Nodup)
    (values : ∀ value ∈ fields.map Prod.snd, value.distinct) : (record fields).distinct := by
  rw [record, Value.distinct_dict]
  refine ⟨named_nodup keys, fun field hm => ?_⟩
  obtain ⟨original, horiginal, rfl⟩ := List.mem_map.mp hm
  exact values _ (List.mem_map_of_mem horiginal)

theorem distinct_str (s : Text) : (Value.str s).distinct := rfl

theorem distinct_lit (s : String) : (Value.lit s).distinct := rfl

theorem distinct_int (i : Int) : (Value.int i).distinct := rfl

theorem distinct_bool (b : Bool) : (Value.bool b).distinct := rfl

theorem distinct_optionalText (text : Option Text) : (optionalText text).distinct := by
  cases text <;> rfl

theorem distinct_optionalBool (b : Option Bool) : (optionalBool b).distinct := by
  cases b <;> rfl

theorem distinct_optionalFloat (bits : Option Float64) : (optionalFloat bits).distinct := by
  cases bits <;> rfl

theorem distinct_attributes {fields : NodeFields} (h : fields ∈ projectedNodes snapshot) :
    (record fields.attributes).distinct := by
  simp only [projectedNodes, List.mem_cons, List.mem_append, List.mem_map, or_assoc] at h
  rcases h with rfl | ⟨disk, -, rfl⟩ | ⟨partition, -, rfl⟩ | ⟨filesystem, -, rfl⟩ |
    ⟨mount, -, rfl⟩ | ⟨os, -, rfl⟩ | ⟨smart, -, rfl⟩
  · exact distinct_record (by simp [systemNode]) (by simp [systemNode, distinct_str])
  · exact distinct_record (by simp [diskNode])
      (by simp [diskNode, distinct_str, distinct_int, distinct_bool, distinct_optionalText])
  · exact distinct_record (by simp [partitionNode])
      (by simp [partitionNode, distinct_str, distinct_int, distinct_bool])
  · exact distinct_record (by simp [filesystemNode])
      (by simp [filesystemNode, distinct_optionalText])
  · exact distinct_record (by simp [mountNode])
      (by simp [mountNode, distinct_str, distinct_optionalFloat])
  · exact distinct_record (by simp [operatingSystemNode])
      (by simp [operatingSystemNode, distinct_str, distinct_optionalText])
  · exact distinct_record (by simp [smartNode])
      (by simp [smartNode, distinct_lit, distinct_optionalBool, distinct_optionalFloat,
        distinct_optionalText])

theorem mapM_isSome {α β : Type} {f : α → Option β} {items : List α}
    (h : ∀ a ∈ items, (f a).isSome) : (items.mapM f).isSome := by
  induction items with
  | nil => rfl
  | cons a rest ih =>
    obtain ⟨b, hb⟩ := Option.isSome_iff_exists.mp (h a List.mem_cons_self)
    obtain ⟨bs, hbs⟩ := Option.isSome_iff_exists.mp
      (ih fun a ha => h a (List.mem_cons_of_mem _ ha))
    rw [List.mapM_cons, hb, hbs]
    rfl

theorem build_isSome {fields : NodeFields} (observedAt : Datetime)
    (hid : Knowledge.nodeId fields.id) (hattributes : (record fields.attributes).distinct) :
    (fields.build observedAt).isSome := by
  have attributes : (attributesOf (record fields.attributes)).isSome := by
    rw [record] at hattributes ⊢
    simp [attributesOf, hattributes]
  obtain ⟨attributes, hattributes⟩ := Option.isSome_iff_exists.mp attributes
  simp [NodeFields.build, hattributes, hid]

theorem relation_valid {edge : EdgeFields} (h : edge ∈ projectedEdges snapshot) :
    relationName (Text.ofString edge.relation) := by
  have valid : ["contains", "formatted_as", "mounted_at", "has_health_status"].all
      (fun relation => relationName (Text.ofString relation)) = true := by decide +kernel
  refine List.all_eq_true.mp valid edge.relation ?_
  simp only [projectedEdges, List.mem_append, List.mem_map, List.mem_filterMap,
    Option.map_eq_some_iff, or_assoc] at h
  rcases h with ⟨_, -, rfl⟩ | ⟨_, -, _, -, rfl⟩ | ⟨_, -, _, -, rfl⟩ | ⟨_, -, _, -, rfl⟩ |
    ⟨_, -, _, -, rfl⟩ | ⟨_, -, rfl⟩ <;> simp

theorem Built.projects (h : Built lib evidence snapshot) (digest : lib.HexDigest)
    (clock : Nat → Datetime) : (projectStorageSnapshot snapshot clock).isSome := by
  have nodes : ((projectedNodes snapshot).zipIdx.mapM fun item : NodeFields × Nat =>
      item.1.build (clock item.2)).isSome := by
    refine mapM_isSome fun item hm => ?_
    have hfields : item.1 ∈ projectedNodes snapshot := List.fst_mem_of_mem_zipIdx hm
    exact build_isSome (clock item.2) (h.nodeId digest (List.mem_map_of_mem hfields))
      (distinct_attributes hfields)
  have edges : ((projectedEdges snapshot).mapM EdgeFields.build).isSome := by
    refine mapM_isSome fun fields hm => ?_
    obtain ⟨source, target⟩ := h.closed.ends hm
    have ends := And.intro (edgeEnd_of_nodeId (h.nodeId digest source))
      (And.intro (relation_valid hm) (edgeEnd_of_nodeId (h.nodeId digest target)))
    rw [EdgeFields.build, dif_pos ends]
    rfl
  obtain ⟨nodes, hnodes⟩ := Option.isSome_iff_exists.mp nodes
  obtain ⟨edges, hedges⟩ := Option.isSome_iff_exists.mp edges
  rw [projectStorageSnapshot, hnodes, hedges]
  rfl

/-! ### The graph accepts the projection -/

theorem write_known {graphs : GraphLibrary} {snapshot : Knowledge.GraphSnapshot}
    {raises : Option Knowledge.WriteCall} {file : Entry} :
    (Knowledge.write graphs snapshot raises file).1 ≠ .error .unknownNode := by
  unfold Knowledge.write
  split
  · exact nofun
  · split
    · exact nofun
    · split <;> exact nofun

theorem apply_known {graphs : GraphLibrary} {g : KnowledgeGraph} {file : Entry}
    {nodes : List GraphNode} {edges : List GraphEdge} {now : Datetime} {fate : Fate}
    (h : ∀ edge ∈ edges, edge.source ∈ nodes.map (·.id) ∧ edge.target ∈ nodes.map (·.id)) :
    (Knowledge.apply graphs g file nodes edges now fate).1 ≠ .error .unknownNode := by
  have hknown : edges.all (g.knownEdge nodes) = true := by
    rw [List.all_eq_true]
    intro edge hedge
    obtain ⟨hsource, htarget⟩ := h edge hedge
    obtain ⟨source, hm, hsource⟩ := List.mem_map.mp hsource
    obtain ⟨target, hm', htarget⟩ := List.mem_map.mp htarget
    rw [KnowledgeGraph.knownEdge, KnowledgeGraph.knownId, KnowledgeGraph.knownId,
      List.any_eq_true.mpr ⟨source, hm, decide_eq_true hsource⟩,
      List.any_eq_true.mpr ⟨target, hm', decide_eq_true htarget⟩]
    rfl
  have hupdate := KnowledgeGraph.update_eq (g := g) nodes edges now
  rw [if_pos hknown] at hupdate
  unfold Knowledge.apply
  cases fate with
  | waiting => simp
  | cancelled raises => simp [hupdate]
  | ran raises =>
    have hwrite : (Knowledge.write graphs ((g.updated nodes edges).snapshot now) raises file).1 ≠
        .error .unknownNode := write_known
    simp only [hupdate]
    split
    · next e _ hresult =>
      rw [hresult] at hwrite
      simpa using hwrite
    · simp

/-- The references inside a snapshot are closed, the nodes and edges of its projection are valid,
and no graph refuses them for an unknown node. -/
theorem snapshot_closed (lib : SnapshotLibrary) (digest : lib.HexDigest)
    (evidence : StorageEvidence) (sessionId : Text) (stamp : Stamp)
    (snapshot : SystemStorageSnapshot)
    (h : buildStorageSnapshot lib evidence sessionId stamp = some snapshot) :
    snapshot.Closed ∧ ∀ clock, ∃ nodes edges,
      projectStorageSnapshot snapshot clock = some (nodes, edges) ∧
      (∀ edge ∈ edges, edge.source ∈ nodes.map (·.id) ∧ edge.target ∈ nodes.map (·.id)) ∧
      ∀ (graphs : GraphLibrary) (g : KnowledgeGraph) (file : Entry) (now : Datetime) (fate : Fate),
        (Knowledge.apply graphs g file nodes edges now fate).1 ≠ .error .unknownNode := by
  have hbuilt := built h
  refine ⟨hbuilt.closed, fun clock => ?_⟩
  obtain ⟨⟨nodes, edges⟩, hproject⟩ := Option.isSome_iff_exists.mp (hbuilt.projects digest clock)
  obtain ⟨hnodes, hedges⟩ := project_spec hproject
  have ends : ∀ edge ∈ edges, edge.source ∈ nodes.map (·.id) ∧ edge.target ∈ nodes.map (·.id) := by
    intro edge hm
    obtain ⟨fields, hfields, hbuild⟩ := hedges edge hm
    obtain ⟨hsource, htarget⟩ := build_ends hbuild
    rw [hnodes, hsource, htarget]
    exact hbuilt.closed.ends hfields
  exact ⟨nodes, edges, hproject, ends, fun _ _ _ _ _ => apply_known ends⟩

/-! ### A disk with one partition -/

def hexText (n : Nat) : Text :=
  (List.range 64).map fun i =>
    let digit := n / 16 ^ (63 - i) % 16
    Fin.ofNat 0x110000 (if digit < 10 then 48 + digit else 87 + digit)

theorem hexText_digits (n : Nat) : (hexText n).all hexDigit := by
  rw [hexText, List.all_map, List.all_eq_true]
  intro i _
  have hdigit : n / 16 ^ (63 - i) % 16 < 16 := Nat.mod_lt _ (by decide)
  generalize n / 16 ^ (63 - i) % 16 = digit at hdigit
  simp only [Function.comp_apply, hexDigit, Knowledge.decimal, Fin.ofNat, Bool.or_eq_true,
    Bool.and_eq_true, decide_eq_true_eq]
  split <;> omega

/-- The text functions of `sampleLibrary`, with tables for the documents and the digests. -/
def snapshotLibrary (documents : List (Text × Value)) (digests : List (Text × Nat))
    (evidenceSha256 : Nat) : SnapshotLibrary where
  toProbeLibrary := { sampleLibrary documents [] with
    sha256 := fun text => hexText ((digests.lookup text).getD 0) }
  evidenceSha256 := fun _ => hexText evidenceSha256

theorem hexDigest_snapshotLibrary (documents : List (Text × Value)) (digests : List (Text × Nat))
    (evidenceSha256 : Nat) : (snapshotLibrary documents digests evidenceSha256).HexDigest :=
  fun text => ⟨by simp [snapshotLibrary, hexText], hexText_digits _⟩

def plainDevice (name path type : String) (sizeBytes : Nat) : BlockDeviceProbe where
  name := Text.ofString name
  path := Text.ofString path
  deviceType := Text.ofString type
  sizeBytes := sizeBytes
  readOnly := false
  removable := false
  model := none
  vendor := none
  transport := none
  parentPath := none
  filesystemType := none
  filesystemVersion := none
  filesystemUuid := none
  filesystemLabel := none
  mountpoints := []
  hardwareIdentity := none

def diskEvidence : StorageEvidence where
  devices := [plainDevice "sda" "/dev/sda" "disk" 512,
    { plainDevice "sda1" "/dev/sda1" "part" 256 with
      parentPath := some (Text.ofString "/dev/sda")
      filesystemType := some (Text.ofString "ext4")
      mountpoints := [Text.ofString "/"] }]
  mounts := [⟨Text.ofString "/dev/sda1", Text.ofString "/", some (Text.ofString "ext4"), []⟩]
  usage := []
  smart := [⟨Text.ofString "/dev/sda", Text.ofString "passed", some true, none, none⟩]
  operatingSystems :=
    [⟨Text.ofString "/dev/sda1", Text.ofString "/", Text.ofString "Debian", none, none⟩]
  toolAvailability := []
  warnings := []
  errors := []

def diskLibrary : SnapshotLibrary :=
  snapshotLibrary []
    [(Text.ofString "/dev/sda",
        0x36b8377a5b0cc272a5b4e50929623191c027543c4facb1c6f3c35bacaa7455ef),
      (Text.ofString "/dev/sda1",
        0xd8d8d2c47b672edb91407c0014286b472673b2ff9d6636fd567d11650986ba3c),
      (Text.ofString "/", 0x8a5edab282632443219e051e4ade2d1d5bbc671c781051bf1437897cbdfea0f1),
      (Text.ofString "disk:36b8377a5b0cc272a5b4e509",
        0x03224542f58089748121e9373786871177391c95641cdd86ee0e9e519f8f996d),
      (Text.ofString "/dev/sda1:Debian",
        0x5b4477a3faabf9ae4c16873da6a78de90757121197640698ad5132f414cfbd4f)]
    0x32245bb7baf54e4bf672cd0fcb410a4a3fd8a1ca039c13894e43bc9c686aae4f

def sampleStamp : Stamp :=
  ⟨Text.ofString "snapshot", Text.ofString "2026-01-01T12:00:00Z", Text.ofString "host"⟩

/-- A disk, its partition, file system, mount, health and operating system make seven nodes and six
edges. -/
theorem snapshot_closed_sample :
    ∃ snapshot, buildStorageSnapshot diskLibrary diskEvidence (Text.ofString "session") sampleStamp =
        some snapshot ∧
      (nodeIds snapshot).length = 7 ∧ (projectedEdges snapshot).length = 6 ∧ snapshot.Closed := by
  obtain ⟨snapshot, h⟩ := Option.isSome_iff_exists.mp
    (show (buildStorageSnapshot diskLibrary diskEvidence (Text.ofString "session")
      sampleStamp).isSome by decide +kernel)
  have lengths : ((buildStorageSnapshot diskLibrary diskEvidence (Text.ofString "session")
      sampleStamp).map fun snapshot =>
        ((nodeIds snapshot).length, (projectedEdges snapshot).length)) = some (7, 6) := by
    decide +kernel
  rw [h] at lengths
  obtain ⟨hnodes, hedges⟩ := Prod.mk.inj (Option.some.inj lengths)
  exact ⟨snapshot, h, hnodes, hedges, (snapshot_closed diskLibrary
    (hexDigest_snapshotLibrary _ _ _) diskEvidence _ _ snapshot h).1⟩

end Ares.StorageEvidence
