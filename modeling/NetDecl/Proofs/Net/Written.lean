import NetDecl.Net.Description
import NetDecl.Proofs.LineMachine.Sound
import NetDecl.Proofs.LineMachine.Spelled
import NetDecl.Proofs.Text.Written

/-!
# The text of a net

The text of a net declares its nodes, then its edges and then its groups, one declaration behind the
other.  A machine that reads it goes through the stages `Net.upTo`, in which all nodes and edges
have been declared and some of the groups.
-/

namespace NetDecl

/-! ## Lines -/

/-- The label as the last word of a line; an empty one is not written. -/
def labelWords (label : String) : List String :=
  if label.isEmpty then [] else [label]

/-- The line that declares a node. -/
def Node.words (node : Node) : List String :=
  Part.node.word :: node.id :: labelWords node.label

namespace Net

/-- The line that declares an edge. -/
def edgeWords (net : Net) (edge : Edge) : List String :=
  Part.edge.word :: edge.id :: net.nameAt edge.source :: net.nameAt edge.target ::
    labelWords edge.label

/-- The lines that declare a group. -/
def groupWords (net : Net) (group : Group) : List (List String) :=
  (Part.group.word :: group.id :: labelWords group.label) ::
    (group.members.map fun index => [net.nameAt index]) ++ [[groupEnd]]

/-- The lines that declare a net. -/
def lines (net : Net) : List (List String) :=
  net.nodes.map Node.words ++ net.edges.map net.edgeWords ++ net.groups.flatMap net.groupWords

/-- The text that declares a net. -/
def text (net : Net) : String :=
  Text.write net.lines

end Net

theorem Part.isWord_word (part : Part) : Text.IsWord part.word := by
  cases part <;> decide

theorem Part.ofKeyword?_word (part : Part) : ofKeyword? part.word = some part := by
  cases part <;> decide

theorem isWord_groupEnd : Text.IsWord groupEnd := by
  decide

theorem isWord_of_mem_labelWords {label : String} (blankless : Text.Blankless label) :
    ∀ word ∈ labelWords label, Text.IsWord word := by
  intro word mem
  unfold labelWords at mem
  split at mem
  · cases mem
  · rename_i nonempty
    rw [List.mem_singleton.1 mem]
    exact ⟨by simpa using nonempty, blankless⟩

namespace Net

variable {net : Net}

theorem nameAt_eq_of_nodeAt? {index : Nat} {node : Node} (found : net.nodeAt? index = some node) :
    net.nameAt index = node.id := by
  simp [nameAt, found]

theorem Spelled.isWord_nameAt (spelled : net.Spelled) {index : Nat}
    (lt : index < net.nodes.length) : Text.IsWord (net.nameAt index) := by
  have found : net.nodeAt? index = some net.nodes[index] := List.getElem?_eq_getElem lt
  rw [nameAt_eq_of_nodeAt? found]
  exact (spelled.nodes _ (List.getElem_mem lt)).1

theorem WellFormed.lt_of_mem_members (wellFormed : net.WellFormed) {group : Group}
    (mem : group ∈ net.groups) {index : Nat} (listed : index ∈ group.members) :
    index < net.nodes.length := by
  obtain ⟨node, found⟩ := wellFormed.exists_nodeAt? mem listed
  exact lt_of_nodeAt? found

theorem Spelled.isWord_of_mem_edgeWords (spelled : net.Spelled) (wellFormed : net.WellFormed)
    {edge : Edge} (mem : edge ∈ net.edges) : ∀ word ∈ net.edgeWords edge, Text.IsWord word := by
  obtain ⟨id, label⟩ := spelled.edges edge mem
  obtain ⟨source, target⟩ := wellFormed.ends edge mem
  simp only [edgeWords, List.forall_mem_cons]
  exact ⟨Part.isWord_word .edge, id, spelled.isWord_nameAt source, spelled.isWord_nameAt target,
    isWord_of_mem_labelWords label⟩

theorem Spelled.isWord_of_mem_groupWords (spelled : net.Spelled) (wellFormed : net.WellFormed)
    {group : Group} (mem : group ∈ net.groups) :
    ∀ words ∈ net.groupWords group, ∀ word ∈ words, Text.IsWord word := by
  obtain ⟨id, label⟩ := spelled.groups group mem
  rw [groupWords, List.forall_mem_append, List.forall_mem_cons, List.forall_mem_map,
    List.forall_mem_singleton, List.forall_mem_singleton]
  constructor
  · constructor
    · rw [List.forall_mem_cons, List.forall_mem_cons]
      exact ⟨Part.isWord_word .group, id, isWord_of_mem_labelWords label⟩
    · intro index listed
      rw [List.forall_mem_singleton]
      exact spelled.isWord_nameAt (wellFormed.lt_of_mem_members mem listed)
  · exact isWord_groupEnd

/-- The lines of a net consist of words. -/
theorem Spelled.isWord_of_mem_lines (spelled : net.Spelled) (wellFormed : net.WellFormed) :
    ∀ words ∈ net.lines, ∀ word ∈ words, Text.IsWord word := by
  intro words mem
  rw [lines, List.mem_append, List.mem_append, List.mem_map, List.mem_map, List.mem_flatMap] at mem
  rcases mem with (⟨node, nodeMem, rfl⟩ | ⟨edge, edgeMem, rfl⟩) | ⟨group, groupMem, mem⟩
  · obtain ⟨id, label⟩ := spelled.nodes node nodeMem
    rw [Node.words, List.forall_mem_cons, List.forall_mem_cons]
    exact ⟨Part.isWord_word .node, id, isWord_of_mem_labelWords label⟩
  · exact spelled.isWord_of_mem_edgeWords wellFormed edgeMem
  · exact spelled.isWord_of_mem_groupWords wellFormed groupMem words mem

/-- Names of nodes are found in every net whose nodes have the same names. -/
theorem indexOf?_nameAt {other : Net} (same : other.nodes.map Node.id = net.nodes.map Node.id)
    (nodup : (net.nodes.map Node.id).Nodup) {index : Nat} (lt : index < net.nodes.length) :
    other.indexOf? (net.nameAt index) = some index := by
  have idLt : index < (net.nodes.map Node.id).length := by rwa [List.length_map]
  have found : net.nodeAt? index = some net.nodes[index] := List.getElem?_eq_getElem lt
  have search : other.indexOf? (net.nameAt index) =
      (net.nodes.map Node.id).findIdx? fun id => id == net.nameAt index := by
    rw [← same, List.findIdx?_map]
    rfl
  rw [search, List.findIdx?_eq_some_iff_getElem, nameAt_eq_of_nodeAt? found]
  refine ⟨idLt, by simp, ?_⟩
  intro before beforeLt equal
  have beforeIdLt := Nat.lt_trans beforeLt idLt
  have sameId : (net.nodes.map Node.id)[before] = (net.nodes.map Node.id)[index] := by
    rw [eq_of_beq equal, List.getElem_map]
  exact Nat.ne_of_lt beforeLt ((List.Nodup.getElem_inj_iff nodup).1 sameId)

end Net

/-! ## Stages -/

/-- The node while only the given number of groups have been declared. -/
def Node.upTo (groups : Nat) (node : Node) : Node :=
  { node with group := node.group.filter fun owner => owner < groups }

theorem Node.upTo_zero (node : Node) : node.upTo 0 = ⟨node.id, node.label, none⟩ := by
  obtain ⟨id, label, owner?⟩ := node
  cases owner? <;> rfl

theorem Node.upTo_eq_self {groups : Nat} {node : Node}
    (inRange : ∀ owner ∈ node.group, owner < groups) : node.upTo groups = node := by
  obtain ⟨id, label, owner?⟩ := node
  cases owner? with
  | none => rfl
  | some owner => simp [upTo, Option.filter, inRange owner rfl]

/-- The next group takes in the nodes that point at it. -/
theorem Node.upTo_succ (groups : Nat) (node : Node) :
    node.upTo (groups + 1) =
      if node.group = some groups then { node.upTo groups with group := some groups }
      else node.upTo groups := by
  obtain ⟨id, label, owner?⟩ := node
  cases owner? with
  | none => rfl
  | some owner =>
    by_cases next : owner = groups
    · subst owner
      simp [upTo, Option.filter]
    · have same : owner < groups + 1 ↔ owner < groups := by omega
      simp [upTo, Option.filter, same, next]

namespace Net

/-- The net while only the given number of groups have been declared. -/
def upTo (net : Net) (groups : Nat) : Net :=
  { net with
    nodes := net.nodes.map (Node.upTo groups)
    groups := net.groups.take groups }

variable {net : Net}

theorem map_id_upTo (nodes : List Node) (groups : Nat) :
    (nodes.map (Node.upTo groups)).map Node.id = nodes.map Node.id := by
  simp [Function.comp_def, Node.upTo]

theorem nodeAt?_upTo (net : Net) (groups index : Nat) :
    (net.upTo groups).nodeAt? index = (net.nodeAt? index).map (Node.upTo groups) := by
  simp [upTo, nodeAt?]

/-- In the end all groups have been declared. -/
theorem WellFormed.upTo_length (wellFormed : net.WellFormed) :
    net.upTo net.groups.length = net := by
  apply ext_nodeAt?
  · intro index
    rw [nodeAt?_upTo]
    cases found : net.nodeAt? index with
    | none => rfl
    | some node =>
      apply congrArg some
      apply Node.upTo_eq_self
      intro owner points
      have owned : net.ownerAt? index = some owner :=
        Option.bind_eq_some_iff.2 ⟨node, found, points⟩
      obtain ⟨group, groupFound, -⟩ := wellFormed.owners index owner owned
      exact (List.getElem?_eq_some_iff.1 groupFound).1
  · rfl
  · exact List.take_length

/-- Declaring the next group leads to the next stage. -/
theorem WellFormed.addGroup_upTo (wellFormed : net.WellFormed) {count : Nat} {group : Group}
    (next : net.groupAt? count = some group) :
    (net.upTo count).addGroup group = net.upTo (count + 1) := by
  obtain ⟨lt, -⟩ := List.getElem?_eq_some_iff.1 next
  have declared : (net.upTo count).groups.length = count := by
    simp [upTo, Nat.le_of_lt lt]
  apply ext_nodeAt?
  · intro index
    change ((net.upTo count).link group.members (some (net.upTo count).groups.length)).nodeAt?
      index = _
    rw [nodeAt?_link, nodeAt?_upTo, nodeAt?_upTo, declared, Option.map_map]
    cases found : net.nodeAt? index with
    | none => rfl
    | some node =>
      have owned : net.ownerAt? index = node.group := by
        rw [ownerAt?, found]
        rfl
      have listed_iff : index ∈ group.members ↔ node.group = some count :=
        owned ▸ wellFormed.mem_indices_iff next
      rw [Option.map_some, Option.map_some, Function.comp_apply, Node.upTo_succ]
      by_cases listed : index ∈ group.members
      · rw [if_pos listed, if_pos (listed_iff.1 listed)]
      · rw [if_neg listed, if_neg (listed_iff.not.1 listed)]
  · rfl
  · change net.groups.take count ++ [group] = net.groups.take (count + 1)
    rw [List.take_add_one]
    have found : net.groups[count]? = some group := next
    rw [found]
    rfl

/-- The name of the next group is free. -/
theorem WellFormed.nameIssues_group_upTo (wellFormed : net.WellFormed) {count : Nat}
    {group : Group} (next : net.groupAt? count = some group) :
    (net.upTo count).nameIssues .group group.id = [] := by
  rw [nameIssues_group_eq_nil_iff]
  constructor
  · have nodup := wellFormed.groupIds
    rw [← List.take_append_drop count (net.groups.map Group.id)] at nodup
    have groupFound : net.groups[count]? = some group := next
    have found : ((net.groups.map Group.id).drop count)[0]? = some group.id := by
      rw [List.getElem?_drop, Nat.add_zero, List.getElem?_map, groupFound, Option.map_some]
    intro taken
    change group.id ∈ (net.groups.take count).map Group.id at taken
    rw [List.map_take] at taken
    exact List.disjoint_of_nodup_append nodup taken (List.mem_of_getElem? found)
  · change group.id ∉ (net.nodes.map (Node.upTo count)).map Node.id
    rw [map_id_upTo]
    exact wellFormed.apart group (List.mem_of_getElem? next)

/-- The members of a group that has not been declared stand in no group. -/
theorem WellFormed.bind_groupOf?_upTo (wellFormed : net.WellFormed) {count : Nat} {group : Group}
    (next : net.groupAt? count = some group) {index : Nat} (listed : index ∈ group.members) :
    ((net.upTo count).nodeAt? index).bind (net.upTo count).groupOf? = none := by
  have owned := wellFormed.members count group next index listed
  obtain ⟨node, found, points⟩ := Option.bind_eq_some_iff.1 owned
  rw [nodeAt?_upTo, found]
  simp [Node.upTo, groupOf?, points]

end Net

end NetDecl
