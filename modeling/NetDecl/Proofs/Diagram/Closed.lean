import NetDecl.Diagram.Projection
import NetDecl.Proofs.Net.WellFormed

/-!
# References within a diagram

A diagram refers to its records by key, so a key that no record has, or that two records have, makes
it show something else than the net.  The diagram of any net is closed: its keys are all those of
records.  If the net is well-formed then the keys are also unique, no edge is left out, and the
records that stand in a group are those of its members.
-/

namespace NetDecl

/-- The keys that a diagram refers to are keys of its records. -/
structure Diagram.Closed (diagram : Diagram) : Prop where
  sources : ∀ link ∈ diagram.links, ∃ record ∈ diagram.nodes, record.key = link.source
  targets : ∀ link ∈ diagram.links, ∃ record ∈ diagram.nodes, record.key = link.target
  groups : ∀ record ∈ diagram.nodes, ∀ key ∈ record.group,
    ∃ group ∈ diagram.groups, group.key = key

namespace Net

/-- The record of a group. -/
def groupRecord (group : Group) : Diagram.GroupRecord :=
  .marked group.id (Diagram.textOf group.label)

/-- The link leads from the source of the edge to its target. -/
def Joins (net : Net) (edge : Edge) (link : Diagram.Link) : Prop :=
  ∃ source target, net.nodeAt? edge.source = some source ∧
    net.nodeAt? edge.target = some target ∧ link = ⟨source.id, target.id⟩

/-! ## Records and links -/

theorem nodes_project (net : Net) : net.project.nodes = net.nodes.map net.nodeRecord := by
  simp [Diagram.nodes, project, List.filterMap_append, List.filterMap_map, Function.comp_def,
    Diagram.Record.node?]

theorem groups_project (net : Net) : net.project.groups = net.groups.map groupRecord := by
  simp [Diagram.groups, project, List.filterMap_append, List.filterMap_map, Function.comp_def,
    Diagram.Record.group?, groupRecord]

theorem map_key_records_project (net : Net) :
    net.project.records.map Diagram.Record.key =
      net.nodes.map Node.id ++ net.groups.map Group.id := by
  simp [project, Function.comp_def, Diagram.Record.key, nodeRecord, Diagram.GroupRecord.marked]

/-- A map that leaves none of the parts out takes them one by one. -/
theorem forall₂_filterMap {α β : Type} {relation : α → β → Prop} {image? : α → Option β}
    {parts : List α}
    (related : ∀ part ∈ parts, ∃ image, image? part = some image ∧ relation part image) :
    List.Forall₂ relation parts (parts.filterMap image?) := by
  induction parts with
  | nil => exact .nil
  | cons part parts ih =>
    obtain ⟨⟨image, found, here⟩, others⟩ := List.forall_mem_cons.1 related
    rw [List.filterMap_cons_some found]
    exact .cons here (ih others)

theorem link?_eq_some_iff {net : Net} {edge : Edge} {link : Diagram.Link} :
    net.link? edge = some link ↔ net.Joins edge link := by
  constructor
  · intro linked
    obtain ⟨⟨source, target⟩, ends, rfl⟩ := Option.map_eq_some_iff.1 linked
    obtain ⟨_, sourceFound, rest⟩ := Option.bind_eq_some_iff.1 ends
    obtain ⟨_, targetFound, same⟩ := Option.bind_eq_some_iff.1 rest
    cases same
    exact ⟨source, target, sourceFound, targetFound, rfl⟩
  · rintro ⟨source, target, sourceFound, targetFound, rfl⟩
    simp [link?, endpoints?, sourceFound, targetFound]

/-- Edges that have both ends in range are linked one by one. -/
theorem forall₂_filterMap_link? {net : Net} {edges : List Edge}
    (joined : ∀ edge ∈ edges, ∃ link, net.Joins edge link) :
    List.Forall₂ net.Joins edges (edges.filterMap net.link?) := by
  apply forall₂_filterMap
  intro edge mem
  obtain ⟨link, joins⟩ := joined edge mem
  exact ⟨link, link?_eq_some_iff.2 joins, joins⟩

theorem exists_node_of_nodeAt? {net : Net} {index : Nat} {node : Node}
    (found : net.nodeAt? index = some node) :
    ∃ record ∈ net.project.nodes, record.key = node.id := by
  rw [nodes_project]
  exact ⟨net.nodeRecord node, List.mem_map_of_mem (List.mem_of_getElem? found), rfl⟩

theorem closed_project (net : Net) : net.project.Closed where
  sources := by
    intro link mem
    obtain ⟨edge, -, linked⟩ := List.mem_filterMap.1 mem
    obtain ⟨source, target, found, -, rfl⟩ := link?_eq_some_iff.1 linked
    exact exists_node_of_nodeAt? found
  targets := by
    intro link mem
    obtain ⟨edge, -, linked⟩ := List.mem_filterMap.1 mem
    obtain ⟨source, target, -, found, rfl⟩ := link?_eq_some_iff.1 linked
    exact exists_node_of_nodeAt? found
  groups := by
    intro record mem key keyed
    rw [nodes_project] at mem
    obtain ⟨node, -, rfl⟩ := List.mem_map.1 mem
    obtain ⟨group, found, rfl⟩ := Option.map_eq_some_iff.1 keyed
    obtain ⟨owner, -, groupFound⟩ := Option.bind_eq_some_iff.1 found
    rw [groups_project]
    exact ⟨groupRecord group, List.mem_map_of_mem (List.mem_of_getElem? groupFound), rfl⟩

/-! ## Diagrams of well-formed nets -/

namespace WellFormed

variable {net : Net}

theorem nodup_map_key_records (wellFormed : net.WellFormed) :
    (net.project.records.map Diagram.Record.key).Nodup := by
  rw [map_key_records_project]
  apply wellFormed.nodeIds.append wellFormed.groupIds
  intro id nodeMem groupMem
  obtain ⟨group, mem, rfl⟩ := List.mem_map.1 groupMem
  exact wellFormed.apart group mem nodeMem

theorem exists_joins (wellFormed : net.WellFormed) {edge : Edge} (mem : edge ∈ net.edges) :
    ∃ link, net.Joins edge link := by
  obtain ⟨source, target⟩ := wellFormed.ends edge mem
  exact ⟨_, _, _, List.getElem?_eq_getElem source, List.getElem?_eq_getElem target, rfl⟩

/-- A node stands in a group exactly if the group lists it. -/
theorem mem_members_iff (wellFormed : net.WellFormed) {group : Group}
    (groupMem : group ∈ net.groups) {node : Node} :
    node ∈ net.members group ↔ node ∈ net.nodes ∧ net.groupOf? node = some group := by
  constructor
  · intro mem
    obtain ⟨index, listed, found⟩ := List.mem_filterMap.1 mem
    obtain ⟨owner, groupFound⟩ := List.mem_iff_getElem?.1 groupMem
    have owned := (wellFormed.mem_indices_iff groupFound).1 listed
    rw [ownerAt?, found] at owned
    exact ⟨List.mem_of_getElem? found, Option.bind_eq_some_iff.2 ⟨owner, owned, groupFound⟩⟩
  · rintro ⟨nodeMem, stands⟩
    obtain ⟨owner, points, groupFound⟩ := Option.bind_eq_some_iff.1 stands
    obtain ⟨index, found⟩ := List.mem_iff_getElem?.1 nodeMem
    have owned : net.ownerAt? index = some owner := Option.bind_eq_some_iff.2 ⟨node, found, points⟩
    exact List.mem_filterMap.2 ⟨index, (wellFormed.mem_indices_iff groupFound).2 owned, found⟩

theorem nodup_members (wellFormed : net.WellFormed) {group : Group} (mem : group ∈ net.groups) :
    (net.members group).Nodup := by
  apply (wellFormed.nodup_indices mem).filterMap
  intro first second node firstFound secondFound
  have lt := lt_of_nodeAt? firstFound
  have nodup := List.Nodup.of_map _ wellFormed.nodeIds
  exact (List.getElem?_inj lt nodup).1 (firstFound.trans secondFound.symm)

/-- The key of a group tells it from other groups. -/
theorem eq_of_id_eq (wellFormed : net.WellFormed) {first second : Group}
    (firstMem : first ∈ net.groups) (secondMem : second ∈ net.groups)
    (same : first.id = second.id) : first = second :=
  List.inj_on_of_nodup_map wellFormed.groupIds firstMem secondMem same

/-- The records that stand in a group are those of its members. -/
theorem perm_filter_nodes (wellFormed : net.WellFormed) {group : Group}
    (mem : group ∈ net.groups) :
    (net.project.nodes.filter fun record => record.group == some group.id).Perm
      ((net.members group).map net.nodeRecord) := by
  rw [nodes_project, List.filter_map]
  apply List.Perm.map
  have nodup := List.Nodup.of_map _ wellFormed.nodeIds
  rw [List.perm_ext_iff_of_nodup (nodup.filter _) (wellFormed.nodup_members mem)]
  intro node
  rw [wellFormed.mem_members_iff mem, List.mem_filter, Function.comp_apply, beq_iff_eq]
  apply and_congr_right
  intro _
  constructor
  · intro keyed
    obtain ⟨other, stands, same⟩ := Option.map_eq_some_iff.1 keyed
    obtain ⟨owner, -, found⟩ := Option.bind_eq_some_iff.1 stands
    rw [stands, wellFormed.eq_of_id_eq (List.mem_of_getElem? found) mem same]
  · intro stands
    simp [nodeRecord, stands]

end WellFormed

/-- The records of a diagram are those of the nodes and then those of the groups, and it refers to
no others.  For a net without faults its keys are also unique, its links are those of the edges, one
by one, and the records that stand in a group are those of the members. -/
theorem project_faithful (net : Net) :
    net.project.records =
      (net.nodes.map fun node => .node (net.nodeRecord node)) ++
        (net.groups.map fun group => .group (groupRecord group)) ∧
    net.project.Closed ∧
    (net.faults = [] →
      (net.project.records.map Diagram.Record.key).Nodup ∧
      List.Forall₂ net.Joins net.edges net.project.links ∧
      ∀ group ∈ net.groups,
        (net.project.nodes.filter fun record => record.group == some group.id).Perm
          ((net.members group).map net.nodeRecord)) := by
  refine ⟨rfl, net.closed_project, ?_⟩
  intro faultless
  have wellFormed := faults_eq_nil_iff_wellFormed.1 faultless
  constructor
  · exact wellFormed.nodup_map_key_records
  · constructor
    · exact forall₂_filterMap_link? fun _ mem => wellFormed.exists_joins mem
    · intro group mem
      exact wellFormed.perm_filter_nodes mem

/-- Two nodes, one of them in a group, and an edge between them. -/
theorem project_faithful_pair :
    let net : Net :=
      ⟨[⟨"a", "", some 0⟩, ⟨"b", "B", none⟩], [⟨"e", 0, 1, ""⟩], [⟨"g", "G", [0]⟩]⟩
    net.faults = [] ∧ (net.project.records.map Diagram.Record.key).Nodup ∧
      List.Forall₂ net.Joins net.edges net.project.links ∧
      ∀ group ∈ net.groups,
        (net.project.nodes.filter fun record => record.group == some group.id).Perm
          ((net.members group).map net.nodeRecord) := by
  intro net
  have faultless : net.faults = [] := by decide
  exact ⟨faultless, (project_faithful net).2.2 faultless⟩

end Net

end NetDecl
