import Mathlib.Data.List.Nodup
import NetDecl.Net.Integrity

/-!
# Well-formed nets

A net is well-formed if names are unique, indices are in range, and nodes and groups agree about
who belongs to whom.  The list of faults is empty exactly for such nets, and declaring a part with
a free name keeps a net well-formed.  A group is declared together with the links from its
members.
-/

namespace NetDecl

/-- A list with one more entry holds its old entries at their positions, and the new one last. -/
theorem getElem?_append_singleton_eq_some_iff {α : Type} {parts : List α} {part other : α}
    {position : Nat} :
    (parts ++ [part])[position]? = some other ↔
      parts[position]? = some other ∨ (position = parts.length ∧ part = other) := by
  rw [List.getElem?_append]
  split
  · rename_i lt
    simp [Nat.ne_of_lt lt]
  · rename_i beyond
    rw [List.getElem?_eq_none (Nat.le_of_not_lt beyond), List.getElem?_singleton]
    split
    · have last : position = parts.length := by omega
      simp [last]
    · have further : position ≠ parts.length := by omega
      simp [further]

namespace Net

/-- The index of the group that the node with the given index points at. -/
def ownerAt? (net : Net) (index : Nat) : Option Nat :=
  (net.nodeAt? index).bind Node.group

/-- Names are unique, indices are in range, and nodes and groups agree. -/
structure WellFormed (net : Net) : Prop where
  nodeIds : (net.nodes.map Node.id).Nodup
  edgeIds : (net.edges.map Edge.id).Nodup
  groupIds : (net.groups.map Group.id).Nodup
  apart : ∀ group ∈ net.groups, group.id ∉ net.nodes.map Node.id
  ends : ∀ edge ∈ net.edges, edge.source < net.nodes.length ∧ edge.target < net.nodes.length
  owners : ∀ index owner, net.ownerAt? index = some owner →
    ∃ group, net.groupAt? owner = some group ∧ group.members.count index = 1
  members : ∀ owner group, net.groupAt? owner = some group →
    ∀ index ∈ group.members, net.ownerAt? index = some owner

theorem lt_of_nodeAt? {net : Net} {index : Nat} {node : Node}
    (found : net.nodeAt? index = some node) : index < net.nodes.length :=
  (List.getElem?_eq_some_iff.1 found).1

theorem bind_groupOf?_eq (net : Net) (index : Nat) :
    (net.nodeAt? index).bind net.groupOf? = (net.ownerAt? index).bind net.groupAt? := by
  unfold ownerAt?
  cases net.nodeAt? index <;> rfl

/-- A node of a well-formed net has a group exactly if it points at one. -/
theorem WellFormed.bind_groupOf?_eq_none_iff {net : Net} (wellFormed : net.WellFormed)
    {index : Nat} : (net.nodeAt? index).bind net.groupOf? = none ↔ net.ownerAt? index = none := by
  rw [bind_groupOf?_eq]
  cases owned : net.ownerAt? index with
  | none => simp
  | some owner =>
    obtain ⟨group, found, -⟩ := wellFormed.owners index owner owned
    simp [found]

/-- A group of a well-formed net lists the nodes that point at it. -/
theorem WellFormed.mem_indices_iff {net : Net} (wellFormed : net.WellFormed) {owner : Nat}
    {group : Group} (found : net.groupAt? owner = some group) {index : Nat} :
    index ∈ group.members ↔ net.ownerAt? index = some owner := by
  constructor
  · exact wellFormed.members owner group found index
  · intro owned
    obtain ⟨other, otherFound, once⟩ := wellFormed.owners index owner owned
    cases found.symm.trans otherFound
    exact List.count_pos_iff.1 (once ▸ Nat.one_pos)

/-- A group of a well-formed net lists no node twice. -/
theorem WellFormed.nodup_indices {net : Net} (wellFormed : net.WellFormed) {group : Group}
    (mem : group ∈ net.groups) : group.members.Nodup := by
  obtain ⟨owner, found⟩ := List.mem_iff_getElem?.1 mem
  rw [List.nodup_iff_count_le_one]
  intro index
  by_cases listed : index ∈ group.members
  · have owned := (wellFormed.mem_indices_iff found).1 listed
    obtain ⟨other, otherFound, once⟩ := wellFormed.owners index owner owned
    cases found.symm.trans otherFound
    exact Nat.le_of_eq once
  · rw [List.count_eq_zero_of_not_mem listed]
    exact Nat.zero_le 1

theorem map_id_members (net : Net) (group : Group) :
    (net.members group).map Node.id =
      group.members.filterMap fun index => (net.nodes.map Node.id)[index]? := by
  rw [members, List.map_filterMap]
  apply List.filterMap_congr
  intro index _
  rw [List.getElem?_map]
  rfl

theorem mem_ids_members {net : Net} {group : Group} {index : Nat} {id : String}
    (listed : index ∈ group.members) (named : (net.nodes.map Node.id)[index]? = some id) :
    id ∈ (net.members group).map Node.id := by
  rw [map_id_members]
  exact List.mem_filterMap.2 ⟨index, listed, named⟩

/-- No two members of a group have the same name. -/
theorem WellFormed.nodup_ids_members {net : Net} (wellFormed : net.WellFormed) {group : Group}
    (mem : group ∈ net.groups) : ((net.members group).map Node.id).Nodup := by
  rw [map_id_members]
  apply (wellFormed.nodup_indices mem).filterMap
  intro index other id named otherNamed
  have inRange := (List.getElem?_eq_some_iff.1 named).1
  exact (List.getElem?_inj inRange wellFormed.nodeIds).1 (named.trans otherNamed.symm)

/-! ## Faults -/

theorem repeats_eq_nil_iff {seen ids : List String} :
    repeats seen ids = [] ↔ ids.Nodup ∧ ∀ id ∈ ids, id ∉ seen := by
  induction ids generalizing seen with
  | nil => simp [repeats]
  | cons id ids ih =>
    rw [repeats]
    by_cases known : id ∈ seen
    · simp [known]
    · rw [if_neg known, ih, List.nodup_cons]
      constructor
      · rintro ⟨nodup, fresh⟩
        constructor
        · exact ⟨fun mem => fresh id mem List.mem_cons_self, nodup⟩
        · intro other mem
          rcases List.mem_cons.1 mem with rfl | mem
          · exact known
          · exact fun seenMem => fresh other mem (List.mem_cons_of_mem _ seenMem)
      · rintro ⟨⟨absent, nodup⟩, fresh⟩
        constructor
        · exact nodup
        · intro other mem seenMem
          rcases List.mem_cons.1 seenMem with rfl | seenMem
          · exact absent mem
          · exact fresh other (List.mem_cons_of_mem _ mem) seenMem

theorem nameFaults_eq_nil_iff {part : Part} {ids : List String} :
    nameFaults part ids = [] ↔ ids.Nodup := by
  simp [nameFaults, repeats_eq_nil_iff]

theorem isSome_node?_iff {net : Net} {id : String} :
    (net.node? id).isSome = true ↔ id ∈ net.nodes.map Node.id := by
  simp [node?, List.find?_isSome, List.mem_map]

theorem isSome_edge?_iff {net : Net} {id : String} :
    (net.edge? id).isSome = true ↔ id ∈ net.edges.map Edge.id := by
  simp [edge?, List.find?_isSome, List.mem_map]

theorem isSome_group?_iff {net : Net} {id : String} :
    (net.group? id).isSome = true ↔ id ∈ net.groups.map Group.id := by
  simp [group?, List.find?_isSome, List.mem_map]

theorem sharedNameFaults_eq_nil_iff {net : Net} {group : Group} :
    net.sharedNameFaults group = [] ↔ group.id ∉ net.nodes.map Node.id := by
  rw [← isSome_node?_iff, sharedNameFaults]
  split <;> simp_all

theorem endpointFaults_eq_nil_iff {net : Net} {edge : Edge} :
    net.endpointFaults edge = [] ↔
      edge.source < net.nodes.length ∧ edge.target < net.nodes.length := by
  simp [endpointFaults, nodeAt?]

theorem ownerFaults_eq_nil_iff {net : Net} {node : Node} {index : Nat} :
    net.ownerFaults node index = [] ↔ ∀ owner, node.group = some owner →
      ∃ group, net.groupAt? owner = some group ∧ group.members.count index = 1 := by
  unfold ownerFaults
  cases node.group with
  | none => simp
  | some owner =>
    dsimp only
    cases found : net.groupAt? owner with
    | none => simp [found]
    | some group => simp [found]

theorem memberFaults_eq_nil_iff {net : Net} {group : Group} {index : Nat} :
    net.memberFaults group index = [] ↔
      ∀ member ∈ group.members, net.ownerAt? member = some index := by
  simp [memberFaults, ownerAt?]

/-- A net has no faults exactly if it is well-formed. -/
theorem faults_eq_nil_iff_wellFormed {net : Net} : net.faults = [] ↔ net.WellFormed := by
  simp only [faults, List.append_eq_nil_iff, nameFaults_eq_nil_iff, List.flatMap_eq_nil_iff,
    sharedNameFaults_eq_nil_iff, endpointFaults_eq_nil_iff, ownerFaults_eq_nil_iff,
    memberFaults_eq_nil_iff, List.mem_zipIdx_iff_getElem?, Prod.forall]
  constructor
  · rintro ⟨⟨⟨⟨⟨⟨nodeIds, edgeIds⟩, groupIds⟩, apart⟩, ends⟩, owners⟩, members⟩
    constructor
    · exact nodeIds
    · exact edgeIds
    · exact groupIds
    · exact apart
    · exact ends
    · intro index owner owned
      rcases Option.bind_eq_some_iff.1 owned with ⟨node, found, points⟩
      exact owners node index found owner points
    · intro owner group found
      exact members group owner found
  · intro wellFormed
    refine ⟨⟨⟨⟨⟨⟨wellFormed.nodeIds, wellFormed.edgeIds⟩, wellFormed.groupIds⟩, wellFormed.apart⟩,
      wellFormed.ends⟩, fun node index found owner points => ?_⟩,
      fun group owner found => wellFormed.members owner group found⟩
    exact wellFormed.owners index owner (Option.bind_eq_some_iff.2 ⟨node, found, points⟩)

theorem ownerAt?_eq_some_iff {net : Net} {index owner : Nat} :
    net.ownerAt? index = some owner ↔
      ∃ node, net.nodes[index]? = some node ∧ node.group = some owner :=
  Option.bind_eq_some_iff

/-- A net has no faults exactly if the names of its nodes, of its edges and of its groups are each
different, no group has the name of a node, all indices are in range, and each group lists the nodes
that point at it, each of them once, and nothing else. -/
theorem faults_eq_nil_iff (net : Net) :
    net.faults = [] ↔
      (net.nodes.map Node.id).Nodup ∧ (net.edges.map Edge.id).Nodup ∧
        (net.groups.map Group.id).Nodup ∧
        (∀ group ∈ net.groups, ∀ node ∈ net.nodes, group.id ≠ node.id) ∧
        (∀ edge ∈ net.edges, edge.source < net.nodes.length ∧ edge.target < net.nodes.length) ∧
        (∀ node ∈ net.nodes, ∀ owner, node.group = some owner → owner < net.groups.length) ∧
        ∀ (owner : Nat) (group : Group), net.groups[owner]? = some group →
          group.members.Nodup ∧
            ∀ index, index ∈ group.members ↔
              ∃ node, net.nodes[index]? = some node ∧ node.group = some owner := by
  rw [faults_eq_nil_iff_wellFormed]
  constructor
  · intro wellFormed
    refine ⟨wellFormed.nodeIds, wellFormed.edgeIds, wellFormed.groupIds, ?_, wellFormed.ends, ?_,
      ?_⟩
    · intro group groupMem node nodeMem same
      exact wellFormed.apart group groupMem (same ▸ List.mem_map_of_mem nodeMem)
    · intro node mem owner points
      rcases List.mem_iff_getElem?.1 mem with ⟨index, found⟩
      rcases wellFormed.owners index owner (ownerAt?_eq_some_iff.2 ⟨node, found, points⟩) with
        ⟨group, there, -⟩
      exact (List.getElem?_eq_some_iff.1 there).1
    · intro owner group found
      constructor
      · exact wellFormed.nodup_indices (List.mem_of_getElem? found)
      · intro index
        rw [← ownerAt?_eq_some_iff]
        exact wellFormed.mem_indices_iff found
  · rintro ⟨nodeIds, edgeIds, groupIds, apart, ends, inRange, listed⟩
    constructor
    · exact nodeIds
    · exact edgeIds
    · exact groupIds
    · intro group groupMem shared
      rcases List.mem_map.1 shared with ⟨node, nodeMem, same⟩
      exact apart group groupMem node nodeMem same.symm
    · exact ends
    · intro index owner owned
      rcases ownerAt?_eq_some_iff.1 owned with ⟨node, found, points⟩
      have lt := inRange node (List.mem_of_getElem? found) owner points
      have there : net.groups[owner]? = some net.groups[owner] := List.getElem?_eq_getElem lt
      rcases listed owner _ there with ⟨nodup, members⟩
      exact ⟨_, there, List.count_eq_one_of_mem nodup ((members index).2 ⟨node, found, points⟩)⟩
    · intro owner group found index mem
      exact ownerAt?_eq_some_iff.2 (((listed owner group found).2 index).1 mem)

/-! ## Declaring parts -/

/-- Make nodes point at a group, or at none. -/
def link (net : Net) (members : List Nat) (owner : Option Nat) : Net :=
  { net with
    nodes := net.nodes.mapIdx fun index node =>
      if index ∈ members then { node with group := owner } else node }

/-- Declare a node. -/
def addNode (net : Net) (node : Node) : Net :=
  { net with nodes := net.nodes ++ [node] }

/-- Declare an edge. -/
def addEdge (net : Net) (edge : Edge) : Net :=
  { net with edges := net.edges ++ [edge] }

/-- Declare a group, and make its members point at it. -/
def addGroup (net : Net) (group : Group) : Net :=
  { net.link group.members (some net.groups.length) with groups := net.groups ++ [group] }

@[simp]
theorem edges_link (net : Net) (members : List Nat) (owner : Option Nat) :
    (net.link members owner).edges = net.edges :=
  rfl

@[simp]
theorem groups_link (net : Net) (members : List Nat) (owner : Option Nat) :
    (net.link members owner).groups = net.groups :=
  rfl

@[simp]
theorem length_nodes_link (net : Net) (members : List Nat) (owner : Option Nat) :
    (net.link members owner).nodes.length = net.nodes.length :=
  List.length_mapIdx

theorem nodeAt?_link (net : Net) (members : List Nat) (owner : Option Nat) (index : Nat) :
    (net.link members owner).nodeAt? index =
      (net.nodeAt? index).map fun node =>
        if index ∈ members then { node with group := owner } else node := by
  simp [nodeAt?, link, List.getElem?_mapIdx]

/-- Nets with the same edges and groups are equal if their nodes are equal index by index. -/
theorem ext_nodeAt? {left right : Net} (nodes : ∀ index, left.nodeAt? index = right.nodeAt? index)
    (edges : left.edges = right.edges) (groups : left.groups = right.groups) : left = right := by
  obtain ⟨leftNodes, leftEdges, leftGroups⟩ := left
  obtain ⟨rightNodes, rightEdges, rightGroups⟩ := right
  have same : leftNodes = rightNodes := List.ext_getElem? nodes
  dsimp only at edges groups
  rw [same, edges, groups]

@[simp]
theorem link_nil (net : Net) (owner : Option Nat) : net.link [] owner = net :=
  ext_nodeAt? (fun index => by simp [nodeAt?_link]) rfl rfl

theorem link_link (net : Net) (first second : List Nat) (owner : Option Nat) :
    (net.link first owner).link second owner = net.link (first ++ second) owner := by
  apply ext_nodeAt?
  · intro index
    rw [nodeAt?_link, nodeAt?_link, nodeAt?_link, Option.map_map]
    congr 1
    funext node
    by_cases left : index ∈ first <;> by_cases right : index ∈ second <;> simp [left, right]
  · rfl
  · rfl

/-- Nodes that pointed at no group do so again once their links are undone. -/
theorem link_none_link {net : Net} {members : List Nat} (owner : Option Nat)
    (free : ∀ index ∈ members, net.ownerAt? index = none) :
    (net.link members owner).link members none = net := by
  apply ext_nodeAt?
  · intro index
    rw [nodeAt?_link, nodeAt?_link, Option.map_map]
    cases found : net.nodeAt? index with
    | none => rfl
    | some node =>
      by_cases mem : index ∈ members
      · have unowned := free index mem
        rw [ownerAt?, found] at unowned
        have same : node.group = none := unowned
        simp [mem, ← same]
      · simp [mem]
  · rfl
  · rfl

/-- Linking nodes to a group shows in nothing but their groups. -/
theorem map_nodes_link {α : Type} (view : Node → α)
    (blind : ∀ node owner, view { node with group := owner } = view node) (net : Net)
    (members : List Nat) (owner : Option Nat) :
    (net.link members owner).nodes.map view = net.nodes.map view := by
  apply List.ext_getElem?
  intro index
  have found : (net.link members owner).nodes[index]? = _ := net.nodeAt?_link members owner index
  rw [List.getElem?_map, List.getElem?_map, found, Option.map_map]
  congr 1
  funext node
  dsimp only [Function.comp_apply]
  split
  · exact blind node owner
  · rfl

@[simp]
theorem map_id_nodes_link (net : Net) (members : List Nat) (owner : Option Nat) :
    (net.link members owner).nodes.map Node.id = net.nodes.map Node.id :=
  map_nodes_link Node.id (fun _ _ => rfl) net members owner

theorem ownerAt?_link_of_mem {net : Net} {members : List Nat} {owner index : Nat}
    (mem : index ∈ members) (lt : index < net.nodes.length) :
    (net.link members (some owner)).ownerAt? index = some owner := by
  have found : net.nodeAt? index = some net.nodes[index] := List.getElem?_eq_getElem lt
  simp [ownerAt?, nodeAt?_link, found, mem]

theorem ownerAt?_link_of_not_mem {net : Net} {members : List Nat} {owner : Option Nat}
    {index : Nat} (notMem : index ∉ members) :
    (net.link members owner).ownerAt? index = net.ownerAt? index := by
  simp [ownerAt?, nodeAt?_link, notMem]

theorem WellFormed.empty : Net.empty.WellFormed where
  nodeIds := List.nodup_nil
  edgeIds := List.nodup_nil
  groupIds := List.nodup_nil
  apart := fun _ mem => nomatch mem
  ends := fun _ mem => nomatch mem
  owners := fun _ _ owned => nomatch owned
  members := fun _ _ found => nomatch found

theorem nodup_map_append_singleton {α : Type} {name : α → String} {parts : List α} {part : α}
    (nodup : (parts.map name).Nodup) (fresh : name part ∉ parts.map name) :
    ((parts ++ [part]).map name).Nodup := by
  rw [List.map_append]
  exact nodup.append (List.nodup_singleton _) (List.disjoint_singleton.2 fresh)

theorem WellFormed.addNode {net : Net} (wellFormed : net.WellFormed) {node : Node}
    (fresh : node.id ∉ net.nodes.map Node.id) (apart : node.id ∉ net.groups.map Group.id)
    (free : node.group = none) : (net.addNode node).WellFormed := by
  have ownerAt? (index : Nat) : (net.addNode node).ownerAt? index = net.ownerAt? index := by
    unfold Net.ownerAt? Net.nodeAt? Net.addNode
    rw [List.getElem?_append]
    split
    · rfl
    · rename_i beyond
      rw [List.getElem?_eq_none (Nat.le_of_not_lt beyond)]
      cases index - net.nodes.length with
      | zero => exact free
      | succ => rfl
  exact {
    nodeIds := nodup_map_append_singleton wellFormed.nodeIds fresh
    edgeIds := wellFormed.edgeIds
    groupIds := wellFormed.groupIds
    apart := fun group mem shared => by
      simp only [Net.addNode, List.map_append, List.map_cons, List.map_nil, List.mem_append,
        List.mem_singleton] at shared
      rcases shared with old | same
      · exact wellFormed.apart group mem old
      · exact apart (same ▸ List.mem_map_of_mem mem)
    ends := fun edge mem => by
      obtain ⟨source, target⟩ := wellFormed.ends edge mem
      simp only [Net.addNode, List.length_append, List.length_singleton]
      exact ⟨Nat.lt_succ_of_lt source, Nat.lt_succ_of_lt target⟩
    owners := fun index owner owned => wellFormed.owners index owner (ownerAt? index ▸ owned)
    members := fun owner group found index mem =>
      (ownerAt? index).trans (wellFormed.members owner group found index mem) }

theorem WellFormed.addEdge {net : Net} (wellFormed : net.WellFormed) {edge : Edge}
    (fresh : edge.id ∉ net.edges.map Edge.id) (source : edge.source < net.nodes.length)
    (target : edge.target < net.nodes.length) : (net.addEdge edge).WellFormed where
  nodeIds := wellFormed.nodeIds
  edgeIds := nodup_map_append_singleton wellFormed.edgeIds fresh
  groupIds := wellFormed.groupIds
  apart := wellFormed.apart
  ends := fun other mem => by
    rcases List.mem_append.1 mem with old | new
    · exact wellFormed.ends other old
    · cases List.mem_singleton.1 new
      exact ⟨source, target⟩
  owners := wellFormed.owners
  members := wellFormed.members

theorem WellFormed.addGroup {net : Net} (wellFormed : net.WellFormed) {group : Group}
    (fresh : group.id ∉ net.groups.map Group.id) (apart : group.id ∉ net.nodes.map Node.id)
    (nodup : group.members.Nodup)
    (free : ∀ index ∈ group.members, index < net.nodes.length ∧ net.ownerAt? index = none) :
    (net.addGroup group).WellFormed where
  nodeIds := by simpa [Net.addGroup] using wellFormed.nodeIds
  edgeIds := wellFormed.edgeIds
  groupIds := nodup_map_append_singleton wellFormed.groupIds fresh
  apart := fun other mem => by
    simp only [Net.addGroup, map_id_nodes_link]
    rcases List.mem_append.1 mem with old | new
    · exact wellFormed.apart other old
    · cases List.mem_singleton.1 new
      exact apart
  ends := fun edge mem => by simpa [Net.addGroup] using wellFormed.ends edge mem
  owners := fun index owner owned => by
    have linked : (net.link group.members (some net.groups.length)).ownerAt? index = some owner :=
      owned
    by_cases mem : index ∈ group.members
    · rw [ownerAt?_link_of_mem mem (free index mem).1] at linked
      cases linked
      exact ⟨group, by simp [Net.addGroup, groupAt?], List.count_eq_one_of_mem nodup mem⟩
    · rw [ownerAt?_link_of_not_mem mem] at linked
      obtain ⟨other, found, once⟩ := wellFormed.owners index owner linked
      exact ⟨other, getElem?_append_singleton_eq_some_iff.2 (.inl found), once⟩
  members := fun owner other found index mem => by
    change (net.link group.members (some net.groups.length)).ownerAt? index = some owner
    have appended : (net.groups ++ [group])[owner]? = some other := found
    rcases getElem?_append_singleton_eq_some_iff.1 appended with old | ⟨rfl, rfl⟩
    · have owned := wellFormed.members owner other old index mem
      have notMem : index ∉ group.members := fun listed => by
        rw [(free index listed).2] at owned
        cases owned
      rw [ownerAt?_link_of_not_mem notMem, owned]
    · exact ownerAt?_link_of_mem mem (free index mem).1

end Net

end NetDecl
