import NetDecl.Proofs.Diagram.Closed

/-!
# What a diagram keeps of a net

A diagram refers to groups and to ends of edges by name where the net has their indices.  It has no
place for the names and the labels of edges, nor for the order in which a group lists its members.
Of a net without faults nothing else is lost: two such nets have the same diagram exactly if they
differ in nothing else.
-/

namespace NetDecl

open List (Forall₂)

/-- The edges lead from the same node to the same node. -/
structure Edge.SameEnds (first second : Edge) : Prop where
  source : first.source = second.source
  target : first.target = second.target

/-- The groups have the same name, the same label and the same members, in whatever order. -/
structure Group.SameMembers (first second : Group) : Prop where
  id : first.id = second.id
  label : first.label = second.label
  members : ∀ index, index ∈ first.members ↔ index ∈ second.members

/-- The text to show tells what the label is: only the empty label has none. -/
theorem Diagram.textOf_inj {label other : String} :
    textOf label = textOf other ↔ label = other := by
  constructor
  · intro same
    unfold textOf at same
    split at same <;> split at same
    · rename_i empty otherEmpty
      rw [String.isEmpty_iff.1 empty, String.isEmpty_iff.1 otherEmpty]
    · cases same
    · cases same
    · exact Option.some.inj same
  · exact congrArg textOf

/-- Lists have the same images exactly if their entries have, one by one. -/
theorem map_eq_map_iff_forall₂ {α β γ : Type} {f : α → γ} {g : β → γ} {first : List α}
    {second : List β} :
    first.map f = second.map g ↔ Forall₂ (fun left right => f left = g right) first second := by
  rw [← List.forall₂_eq_eq_eq, List.forall₂_map_left_iff, List.forall₂_map_right_iff]

/-- Names at indices tell the indices, if no name stands at two of them. -/
theorem eq_of_bind_getElem?_eq {names : List String} (nodup : names.Nodup)
    {first second : Option Nat} (firstLt : ∀ index ∈ first, index < names.length)
    (secondLt : ∀ index ∈ second, index < names.length)
    (same : (first.bind fun index => names[index]?) = second.bind fun index => names[index]?) :
    first = second := by
  cases first with
  | none =>
    cases second with
    | none => rfl
    | some other =>
      rw [Option.bind_none, Option.bind_some, List.getElem?_eq_getElem (secondLt other rfl)] at same
      cases same
  | some index =>
    have lt := firstLt index rfl
    cases second with
    | none =>
      rw [Option.bind_none, Option.bind_some, List.getElem?_eq_getElem lt] at same
      cases same
    | some other =>
      rw [Option.bind_some, Option.bind_some, List.getElem?_inj lt nodup] at same
      rw [same]

namespace Net

variable {left right : Net}

/-! ## Records and links -/

theorem groupRecord_eq_iff {first second : Group} :
    groupRecord first = groupRecord second ↔ first.id = second.id ∧ first.label = second.label := by
  simp [groupRecord, Diagram.GroupRecord.marked, Diagram.textOf_inj]

/-- The record of a node has the name that stands at the index of its group. -/
theorem map_id_groupOf? (net : Net) (node : Node) :
    (net.groupOf? node).map Group.id =
      node.group.bind fun owner => (net.groups.map Group.id)[owner]? := by
  rw [groupOf?, Option.map_bind]
  congr 1
  funext owner
  exact List.getElem?_map.symm

/-- The records of nodes depend on no more of a net than the names of its groups. -/
theorem nodeRecord_congr (names : left.groups.map Group.id = right.groups.map Group.id) :
    left.nodeRecord = right.nodeRecord := by
  funext node
  rw [nodeRecord, nodeRecord, map_id_groupOf?, map_id_groupOf?, names]

/-- The links of edges depend on no more than their ends and the nodes. -/
theorem link?_congr (nodes : left.nodes = right.nodes) {first second : Edge}
    (same : first.SameEnds second) : left.link? first = right.link? second := by
  rw [link?, link?, endpoints?, endpoints?, same.source, same.target]
  unfold nodeAt?
  rw [nodes]

theorem filterMap_link?_congr (nodes : left.nodes = right.nodes) {first second : List Edge}
    (same : Forall₂ Edge.SameEnds first second) :
    first.filterMap left.link? = second.filterMap right.link? := by
  induction same with
  | nil => rfl
  | cons sameEnds _ ih =>
    rw [List.filterMap_cons, List.filterMap_cons, link?_congr nodes sameEnds, ih]

theorem records_project (net : Net) :
    net.project.records =
      (net.nodes.map net.nodeRecord).map .node ++ (net.groups.map groupRecord).map .group := by
  rw [List.map_map, List.map_map]
  rfl

/-- A diagram is made of the records of the nodes, those of the groups, and the links. -/
theorem project_eq_iff :
    left.project = right.project ↔
      left.nodes.map left.nodeRecord = right.nodes.map right.nodeRecord ∧
        left.groups.map groupRecord = right.groups.map groupRecord ∧
        left.project.links = right.project.links := by
  constructor
  · intro same
    rw [← nodes_project, ← nodes_project, ← groups_project, ← groups_project]
    exact ⟨congrArg Diagram.nodes same, congrArg Diagram.groups same, congrArg Diagram.links same⟩
  · rintro ⟨nodes, groups, links⟩
    have records : left.project.records = right.project.records := by
      rw [records_project, records_project, nodes, groups]
    exact congrArg₂ Diagram.mk records links

/-! ## Back from names to indices -/

namespace WellFormed

theorem lt_of_group_eq_some (wellFormed : left.WellFormed) {node : Node} (mem : node ∈ left.nodes)
    {owner : Nat} (points : node.group = some owner) : owner < left.groups.length := by
  rcases List.mem_iff_getElem?.1 mem with ⟨index, found⟩
  rcases wellFormed.owners index owner (ownerAt?_eq_some_iff.2 ⟨node, found, points⟩) with
    ⟨group, there, -⟩
  exact (List.getElem?_eq_some_iff.1 there).1

/-- Nodes with the same record are the same, if the groups of their nets have the same names. -/
theorem eq_of_nodeRecord_eq (wellFormed : left.WellFormed) (otherWellFormed : right.WellFormed)
    (names : left.groups.map Group.id = right.groups.map Group.id) {first second : Node}
    (firstMem : first ∈ left.nodes) (secondMem : second ∈ right.nodes)
    (same : left.nodeRecord first = right.nodeRecord second) : first = second := by
  have count : left.groups.length = right.groups.length := by
    rw [← List.length_map Group.id, names, List.length_map]
  have id : first.id = second.id := congrArg Diagram.NodeRecord.key same
  have label : first.label = second.label :=
    Diagram.textOf_inj.1 (congrArg Diagram.NodeRecord.text same)
  have group : first.group = second.group := by
    have keys : (left.groupOf? first).map Group.id = (right.groupOf? second).map Group.id :=
      congrArg Diagram.NodeRecord.group same
    rw [map_id_groupOf?, map_id_groupOf?, ← names] at keys
    apply eq_of_bind_getElem?_eq wellFormed.groupIds _ _ keys
    · intro owner points
      rw [List.length_map]
      exact wellFormed.lt_of_group_eq_some firstMem points
    · intro owner points
      rw [List.length_map, count]
      exact otherWellFormed.lt_of_group_eq_some secondMem points
  rcases first with ⟨_, _, _⟩
  rcases second with ⟨_, _, _⟩
  exact congr (congr (congrArg Node.mk id) label) group

theorem nodes_eq (wellFormed : left.WellFormed) (otherWellFormed : right.WellFormed)
    (names : left.groups.map Group.id = right.groups.map Group.id)
    (same : left.nodes.map left.nodeRecord = right.nodes.map right.nodeRecord) :
    left.nodes = right.nodes := by
  apply List.ext_getElem?
  intro index
  have records := congrArg (fun records => records[index]?) same
  simp only [List.getElem?_map] at records
  cases found : left.nodes[index]? with
  | none =>
    rw [found, Option.map_none, eq_comm, Option.map_eq_none_iff] at records
    rw [records]
  | some node =>
    rw [found, Option.map_some, eq_comm, Option.map_eq_some_iff] at records
    rcases records with ⟨other, otherFound, record⟩
    rw [otherFound, wellFormed.eq_of_nodeRecord_eq otherWellFormed names
      (List.mem_of_getElem? found) (List.mem_of_getElem? otherFound) record.symm]

theorem index_eq_of_id_eq (wellFormed : left.WellFormed) {index position : Nat} {node other : Node}
    (found : left.nodeAt? index = some node) (otherFound : left.nodeAt? position = some other)
    (same : node.id = other.id) : index = position := by
  have lt : index < (left.nodes.map Node.id).length := by
    rw [List.length_map]
    exact lt_of_nodeAt? found
  apply (List.getElem?_inj lt wellFormed.nodeIds).1
  rw [List.getElem?_map, List.getElem?_map, ← nodeAt?, ← nodeAt?, found, otherFound,
    Option.map_some, Option.map_some, same]

/-- Edges with the same link have the same ends. -/
theorem sameEnds_of_joins (wellFormed : left.WellFormed) {first second : Edge}
    {link : Diagram.Link} (joins : left.Joins first link) (otherJoins : left.Joins second link) :
    first.SameEnds second := by
  rcases joins with ⟨source, target, sourceFound, targetFound, rfl⟩
  rcases otherJoins with ⟨otherSource, otherTarget, otherSourceFound, otherTargetFound, same⟩
  rcases Diagram.Link.mk.inj same with ⟨sources, targets⟩
  exact ⟨wellFormed.index_eq_of_id_eq sourceFound otherSourceFound sources,
    wellFormed.index_eq_of_id_eq targetFound otherTargetFound targets⟩

theorem forall₂_sameEnds (wellFormed : left.WellFormed) {first second : List Edge}
    {links : List Diagram.Link} (joined : Forall₂ left.Joins first links)
    (otherJoined : Forall₂ left.Joins second links) : Forall₂ Edge.SameEnds first second := by
  induction joined generalizing second with
  | nil =>
    cases otherJoined
    exact .nil
  | cons joins _ ih =>
    cases otherJoined with
    | cons otherJoins others =>
      exact .cons (wellFormed.sameEnds_of_joins joins otherJoins) (ih others)

theorem forall₂_joins (wellFormed : left.WellFormed) :
    Forall₂ left.Joins left.edges left.project.links :=
  forall₂_filterMap_link? fun _ mem => wellFormed.exists_joins mem

/-- The nodes tell which members a group has. -/
theorem forall₂_sameMembers (wellFormed : left.WellFormed) (otherWellFormed : right.WellFormed)
    (nodes : left.nodes = right.nodes)
    (records : left.groups.map groupRecord = right.groups.map groupRecord) :
    Forall₂ Group.SameMembers left.groups right.groups := by
  have owners (index : Nat) : left.ownerAt? index = right.ownerAt? index := by
    rw [ownerAt?, ownerAt?, nodeAt?, nodeAt?, nodes]
  rw [map_eq_map_iff_forall₂, List.forall₂_iff_get] at records
  rw [List.forall₂_iff_get]
  constructor
  · exact records.1
  · intro owner lt otherLt
    rcases groupRecord_eq_iff.1 (records.2 owner lt otherLt) with ⟨id, label⟩
    refine ⟨id, label, fun index => ?_⟩
    have listed : index ∈ (left.groups.get ⟨owner, lt⟩).members ↔ _ :=
      wellFormed.mem_indices_iff (List.getElem?_eq_getElem lt)
    have otherListed : index ∈ (right.groups.get ⟨owner, otherLt⟩).members ↔ _ :=
      otherWellFormed.mem_indices_iff (List.getElem?_eq_getElem otherLt)
    rw [listed, otherListed, owners]

end WellFormed

/-- Two nets without faults have the same diagram exactly if they have the same nodes, groups with
the same names, labels and members, and edges with the same ends, each in the same order. -/
theorem project_eq_project_iff (leftFaultless : left.faults = [])
    (rightFaultless : right.faults = []) :
    left.project = right.project ↔
      left.nodes = right.nodes ∧ Forall₂ Group.SameMembers left.groups right.groups ∧
        Forall₂ Edge.SameEnds left.edges right.edges := by
  have leftWellFormed := faults_eq_nil_iff_wellFormed.1 leftFaultless
  have rightWellFormed := faults_eq_nil_iff_wellFormed.1 rightFaultless
  rw [project_eq_iff]
  constructor
  · rintro ⟨nodeRecords, groupRecords, links⟩
    have names : left.groups.map Group.id = right.groups.map Group.id := by
      have keys := congrArg (List.map Diagram.GroupRecord.key) groupRecords
      rwa [List.map_map, List.map_map] at keys
    have nodes := leftWellFormed.nodes_eq rightWellFormed names nodeRecords
    have joins : left.Joins = right.Joins := by
      unfold Joins nodeAt?
      rw [nodes]
    have otherJoined := rightWellFormed.forall₂_joins
    rw [← joins, ← links] at otherJoined
    refine ⟨nodes, ?_, ?_⟩
    · exact leftWellFormed.forall₂_sameMembers rightWellFormed nodes groupRecords
    · exact leftWellFormed.forall₂_sameEnds leftWellFormed.forall₂_joins otherJoined
  · rintro ⟨nodes, groups, edges⟩
    have groupRecords : left.groups.map groupRecord = right.groups.map groupRecord := by
      apply map_eq_map_iff_forall₂.2
      exact groups.imp fun _ _ same => groupRecord_eq_iff.2 ⟨same.id, same.label⟩
    have names : left.groups.map Group.id = right.groups.map Group.id :=
      map_eq_map_iff_forall₂.2 (groups.imp fun _ _ same => same.id)
    refine ⟨?_, groupRecords, filterMap_link?_congr nodes edges⟩
    rw [nodes, nodeRecord_congr names]

/-- Two nets that name and label their edge differently and list the members of their group in
different orders. -/
theorem project_eq_project_of_reordered :
    let nodes : List Node := [⟨"a", "", some 0⟩, ⟨"b", "B", some 0⟩]
    let left : Net := ⟨nodes, [⟨"e", 0, 1, ""⟩], [⟨"g", "G", [0, 1]⟩]⟩
    let right : Net := ⟨nodes, [⟨"f", 0, 1, "F"⟩], [⟨"g", "G", [1, 0]⟩]⟩
    left.faults = [] ∧ right.faults = [] ∧ left ≠ right ∧ left.project = right.project := by
  intro nodes left right
  have leftFaultless : left.faults = [] := by decide
  have rightFaultless : right.faults = [] := by decide
  refine ⟨leftFaultless, rightFaultless, by decide, ?_⟩
  apply (project_eq_project_iff leftFaultless rightFaultless).2
  refine ⟨rfl, .cons ⟨rfl, rfl, ?_⟩ .nil, .cons ⟨rfl, rfl⟩ .nil⟩
  intro index
  exact (List.Perm.swap 1 0 []).mem_iff

-- Where two groups have one name, a diagram does not tell which of them a node belongs to.
example :
    let left : Net := ⟨[⟨"a", "", some 0⟩], [], [⟨"g", "", [0]⟩, ⟨"g", "", []⟩]⟩
    let right : Net := ⟨[⟨"a", "", some 1⟩], [], [⟨"g", "", []⟩, ⟨"g", "", [0]⟩]⟩
    left.project = right.project ∧ left.nodes ≠ right.nodes := by
  decide

end Net
end NetDecl
