import Mathlib.Logic.Equiv.Basic
import NetDecl.Proofs.LineMachine.Sound

/-!
# Nets that number their nodes differently

A net can list its nodes in another order, if its edges and groups follow.  Names mean the same in
both nets, and declaring the same parts in both leads to nets of this kind again.  The order that
concerns us is the one in which two neighbours have changed places.
-/

namespace NetDecl

/-- The edge with the numbers of its ends changed. -/
def Edge.renumber (place : Equiv.Perm Nat) (edge : Edge) : Edge :=
  { edge with source := place edge.source, target := place edge.target }

/-- The group with the numbers of its members changed. -/
def Group.renumber (place : Equiv.Perm Nat) (group : Group) : Group :=
  { group with members := group.members.map place }

/-- The list with the entries at an index and at the next one exchanged. -/
def exchangeAt {α : Type} : Nat → List α → List α
  | 0, first :: second :: rest => second :: first :: rest
  | index + 1, first :: rest => first :: exchangeAt index rest
  | _, list => list

theorem swap_succ_succ (index position : Nat) :
    Equiv.swap (index + 1) (index + 2) (position + 1) =
      Equiv.swap index (index + 1) position + 1 := by
  rw [Equiv.swap_apply_def, Equiv.swap_apply_def]
  split_ifs <;> omega

/-- Exchanging entries moves each entry to its new place. -/
theorem getElem?_exchangeAt {α : Type} {index : Nat} {list : List α}
    (inRange : index + 1 < list.length) (position : Nat) :
    (exchangeAt index list)[Equiv.swap index (index + 1) position]? = list[position]? := by
  induction index generalizing list position with
  | zero =>
    match list with
    | [] => cases inRange
    | [_] => simp at inRange
    | first :: second :: rest =>
      match position with
      | 0 => rfl
      | 1 => rfl
      | position + 2 =>
        rw [Equiv.swap_apply_of_ne_of_ne (by omega) (by omega)]
        rfl
  | succ index ih =>
    match list with
    | [] => cases inRange
    | first :: rest =>
      have behind : index + 1 < rest.length := Nat.lt_of_succ_lt_succ inRange
      cases position with
      | zero =>
        rw [Equiv.swap_apply_of_ne_of_ne (by omega) (by omega)]
        rfl
      | succ position =>
        rw [swap_succ_succ]
        exact ih behind position

namespace Net

/-- In a well-formed net a name stands for the node that has it. -/
theorem WellFormed.indexOf?_eq_some_iff {net : Net} (wellFormed : net.WellFormed) {id : String}
    {index : Nat} :
    net.indexOf? id = some index ↔ ∃ node, net.nodeAt? index = some node ∧ node.id = id := by
  constructor
  · exact exists_nodeAt?_of_indexOf?
  · rintro ⟨node, found, rfl⟩
    cases search : net.indexOf? node.id with
    | none =>
      have absent := List.findIdx?_eq_none_iff.1 search node (List.mem_of_getElem? found)
      simp at absent
    | some position =>
      rcases exists_nodeAt?_of_indexOf? search with ⟨other, otherFound, same⟩
      have lt : index < (net.nodes.map Node.id).length := by
        rw [List.length_map]
        exact lt_of_nodeAt? found
      have ids : (net.nodes.map Node.id)[index]? = (net.nodes.map Node.id)[position]? := by
        have here : net.nodes[index]? = some node := found
        have there : net.nodes[position]? = some other := otherFound
        rw [List.getElem?_map, List.getElem?_map, here, there, Option.map_some, Option.map_some,
          same]
      rw [(List.getElem?_inj lt wellFormed.nodeIds).1 ids]

theorem nodeAt?_addNode (net : Net) (node : Node) (index : Nat) :
    (net.addNode node).nodeAt? index =
      if index = net.nodes.length then some node else net.nodeAt? index := by
  apply Option.ext
  intro found
  have appended : (net.addNode node).nodeAt? index = some found ↔ _ :=
    getElem?_append_singleton_eq_some_iff
  rw [appended]
  by_cases last : index = net.nodes.length
  · simp [last]
  · simp [last, nodeAt?]

/-- The net with the nodes at an index and at the next one exchanged, and with all that refers to
them. -/
def exchange (net : Net) (index : Nat) : Net where
  nodes := exchangeAt index net.nodes
  edges := net.edges.map (Edge.renumber (Equiv.swap index (index + 1)))
  groups := net.groups.map (Group.renumber (Equiv.swap index (index + 1)))

/-- The nets have the same parts.  The node at an index of the one is at the place of that index in
the other, and edges and groups refer to it there. -/
structure Renumbered (place : Equiv.Perm Nat) (net other : Net) : Prop where
  nodes : ∀ index, other.nodeAt? (place index) = net.nodeAt? index
  beyond : ∀ index, net.nodes.length ≤ index → place index = index
  edges : other.edges = net.edges.map (Edge.renumber place)
  groups : other.groups = net.groups.map (Group.renumber place)

theorem Renumbered.refl (net : Net) : net.Renumbered (Equiv.refl Nat) net where
  nodes _ := rfl
  beyond _ _ := rfl
  edges := (List.map_id net.edges).symm
  groups := by
    have same : Group.renumber (Equiv.refl Nat) = id := by
      funext group
      simp [Group.renumber]
    rw [same, List.map_id]

/-- Exchanging two nodes numbers them differently. -/
theorem renumbered_exchange {net : Net} {index : Nat} (inRange : index + 1 < net.nodes.length) :
    net.Renumbered (Equiv.swap index (index + 1)) (net.exchange index) where
  nodes := getElem?_exchangeAt inRange
  beyond position beyond := Equiv.swap_apply_of_ne_of_ne (by omega) (by omega)
  edges := rfl
  groups := rfl

namespace Renumbered

variable {place : Equiv.Perm Nat} {net other : Net}

/-- There is one net with the given numbers. -/
theorem unique {another : Net} (renumbered : net.Renumbered place other)
    (otherwise : net.Renumbered place another) : other = another := by
  apply ext_nodeAt?
  · intro index
    have found := renumbered.nodes (place.symm index)
    have otherFound := otherwise.nodes (place.symm index)
    rw [Equiv.apply_symm_apply] at found otherFound
    exact found.trans otherFound.symm
  · exact renumbered.edges.trans otherwise.edges.symm
  · exact renumbered.groups.trans otherwise.groups.symm

theorem nodeAt?_eq (renumbered : net.Renumbered place other) (index : Nat) :
    other.nodeAt? index = net.nodeAt? (place.symm index) := by
  rw [← renumbered.nodes, Equiv.apply_symm_apply]

/-- Both nets have equally many nodes. -/
theorem length_nodes_eq (renumbered : net.Renumbered place other) :
    other.nodes.length = net.nodes.length := by
  apply Nat.le_antisymm
  · have none : other.nodes[net.nodes.length]? = none := by
      have found := renumbered.nodes net.nodes.length
      rw [renumbered.beyond _ (Nat.le_refl _)] at found
      exact found.trans (List.getElem?_eq_none (Nat.le_refl _))
    exact List.getElem?_eq_none_iff.1 none
  · -- The place in front of the end of the other net is beyond the first net, and so stays put.
    have none : net.nodes[place.symm other.nodes.length]? = none := by
      have found := renumbered.nodeAt?_eq other.nodes.length
      exact found.symm.trans (List.getElem?_eq_none (Nat.le_refl _))
    have beyond := List.getElem?_eq_none_iff.1 none
    have stays := renumbered.beyond _ beyond
    rw [Equiv.apply_symm_apply] at stays
    rw [stays]
    exact beyond

/-! ## Names -/

theorem mem_nodes_iff (renumbered : net.Renumbered place other) {node : Node} :
    node ∈ other.nodes ↔ node ∈ net.nodes := by
  rw [List.mem_iff_getElem?, List.mem_iff_getElem?]
  constructor
  · rintro ⟨index, found⟩
    exact ⟨place.symm index, (renumbered.nodeAt?_eq index).symm.trans found⟩
  · rintro ⟨index, found⟩
    exact ⟨place index, (renumbered.nodes index).trans found⟩

theorem mem_nodeIds_iff (renumbered : net.Renumbered place other) {id : String} :
    id ∈ other.nodes.map Node.id ↔ id ∈ net.nodes.map Node.id := by
  simp only [List.mem_map, renumbered.mem_nodes_iff]

theorem edgeIds_eq (renumbered : net.Renumbered place other) :
    other.edges.map Edge.id = net.edges.map Edge.id := by
  rw [renumbered.edges, List.map_map]
  rfl

theorem groupIds_eq (renumbered : net.Renumbered place other) :
    other.groups.map Group.id = net.groups.map Group.id := by
  rw [renumbered.groups, List.map_map]
  rfl

/-- The same names are taken. -/
theorem nameIssues_eq (renumbered : net.Renumbered place other) (part : Part) (id : String) :
    other.nameIssues part id = net.nameIssues part id := by
  have nodes : (other.node? id).isSome = (net.node? id).isSome := by
    rw [Bool.eq_iff_iff, isSome_node?_iff, isSome_node?_iff, renumbered.mem_nodeIds_iff]
  have edges : (other.edge? id).isSome = (net.edge? id).isSome := by
    rw [Bool.eq_iff_iff, isSome_edge?_iff, isSome_edge?_iff, renumbered.edgeIds_eq]
  have groups : (other.group? id).isSome = (net.group? id).isSome := by
    rw [Bool.eq_iff_iff, isSome_group?_iff, isSome_group?_iff, renumbered.groupIds_eq]
  cases part with
  | node => rw [nameIssues, nameIssues, nodes, groups]
  | edge => rw [nameIssues, nameIssues, edges]
  | group => rw [nameIssues, nameIssues, nodes, groups]

/-- A name stands for the same node, where each of the nets has it. -/
theorem indexOf?_eq (renumbered : net.Renumbered place other) (wellFormed : net.WellFormed)
    (otherWellFormed : other.WellFormed) (id : String) :
    other.indexOf? id = (net.indexOf? id).map place := by
  apply Option.ext
  intro index
  rw [otherWellFormed.indexOf?_eq_some_iff, renumbered.nodeAt?_eq, Option.map_eq_some_iff,
    ← wellFormed.indexOf?_eq_some_iff]
  constructor
  · intro found
    exact ⟨_, found, place.apply_symm_apply index⟩
  · rintro ⟨position, found, rfl⟩
    rwa [place.symm_apply_apply]

theorem endIssues_eq (renumbered : net.Renumbered place other) (wellFormed : net.WellFormed)
    (otherWellFormed : other.WellFormed) (role : Role) (id : String) :
    other.endIssues role id = net.endIssues role id := by
  rw [endIssues, endIssues, renumbered.indexOf?_eq wellFormed otherWellFormed]
  cases net.indexOf? id <;> rfl

/-- A node belongs to the same group in both nets. -/
theorem bind_groupOf?_eq (renumbered : net.Renumbered place other) (index : Nat) :
    (other.nodeAt? (place index)).bind other.groupOf? =
      ((net.nodeAt? index).bind net.groupOf?).map (Group.renumber place) := by
  rw [renumbered.nodes]
  cases net.nodeAt? index with
  | none => rfl
  | some node =>
    rw [Option.bind_some, Option.bind_some, groupOf?, groupOf?]
    cases node.group with
    | none => rfl
    | some owner => simp [groupAt?, renumbered.groups]

/-! ## Declarations -/

theorem addNode (renumbered : net.Renumbered place other) (node : Node) :
    (net.addNode node).Renumbered place (other.addNode node) where
  nodes index := by
    have last : place index = net.nodes.length ↔ index = net.nodes.length := by
      have stays := renumbered.beyond _ (Nat.le_refl net.nodes.length)
      rw [← place.injective.eq_iff (a := index), stays]
    rw [nodeAt?_addNode, nodeAt?_addNode, renumbered.length_nodes_eq, renumbered.nodes]
    simp only [last]
  beyond index beyond := by
    rw [Net.addNode, List.length_append, List.length_singleton] at beyond
    exact renumbered.beyond index (Nat.le_of_succ_le beyond)
  edges := renumbered.edges
  groups := renumbered.groups

theorem addEdge (renumbered : net.Renumbered place other) (edge : Edge) :
    (net.addEdge edge).Renumbered place (other.addEdge (edge.renumber place)) where
  nodes := renumbered.nodes
  beyond := renumbered.beyond
  edges := by simp [Net.addEdge, renumbered.edges]
  groups := renumbered.groups

theorem addGroup (renumbered : net.Renumbered place other) (group : Group) :
    (net.addGroup group).Renumbered place (other.addGroup (group.renumber place)) where
  nodes index := by
    have groups : other.groups.length = net.groups.length := by
      rw [renumbered.groups, List.length_map]
    have listed : place index ∈ group.members.map place ↔ index ∈ group.members :=
      List.mem_map_of_injective place.injective
    change (other.link (group.members.map place) (some other.groups.length)).nodeAt? (place index) =
      (net.link group.members (some net.groups.length)).nodeAt? index
    rw [nodeAt?_link, nodeAt?_link, renumbered.nodes, groups]
    simp only [listed]
  beyond index beyond := by
    have length : (net.addGroup group).nodes.length = net.nodes.length := length_nodes_link _ _ _
    rw [length] at beyond
    exact renumbered.beyond index beyond
  edges := renumbered.edges
  groups := by simp [Net.addGroup, renumbered.groups]

end Renumbered

end Net

end NetDecl
