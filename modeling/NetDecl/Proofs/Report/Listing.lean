import NetDecl.Proofs.Compile.Messages
import NetDecl.Proofs.Diagram.Kept
import NetDecl.Proofs.Net.Written
import NetDecl.Report.Listing

/-!
# The lines of listings

A listing is read line by line.  Nothing that a line shows has a line break in it, so each line that
is printed arrives as one; and since the net of a text is well-formed, each line shows all that it
stands for: the ends of edges are nodes, and so is every entry of a list of members.
-/

namespace NetDecl

/-! ## What lines show -/

/-- No name, label or message has a line break in it. -/
structure Outcome.Unbroken (outcome : Outcome) : Prop where
  messages : ∀ diagnostic ∈ outcome.diagnostics, Text.Unbroken diagnostic.message
  nodes : ∀ node ∈ outcome.net.nodes, Text.Unbroken node.id ∧ Text.Unbroken node.label
  edges : ∀ edge ∈ outcome.net.edges, Text.Unbroken edge.id ∧ Text.Unbroken edge.label
  groups : ∀ group ∈ outcome.net.groups, Text.Unbroken group.id ∧ Text.Unbroken group.label

namespace Net

/-- The line shows a node, together with the group that the node points at, if it points at one. -/
inductive ShowsNode (net : Net) (node : Node) : String → Prop where
  | alone : node.group = none →
      net.ShowsNode node ("Node Id: " ++ node.id ++ ", Label: " ++ node.label)
  | member {owner : Nat} {group : Group} :
      node.group = some owner → net.groupAt? owner = some group →
      net.ShowsNode node
        ("Node Id: " ++ node.id ++ ", Label: " ++ node.label ++ (", " ++ group.describe))

/-- The line shows an edge with the names of the nodes that are its ends. -/
def ShowsEdge (net : Net) (edge : Edge) (line : String) : Prop :=
  ∃ source target, net.nodeAt? edge.source = some source ∧ net.nodeAt? edge.target = some target ∧
    line = "Edge Id: " ++ edge.id ++ ", Source: " ++ source.id ++ ", Target: " ++ target.id ++
      ", Label: " ++ edge.label

/-- The lines show a group: its header, then the name of each entry of its list of members, and the
keyword that ends groups. -/
def ShowsGroup (net : Net) (group : Group) (lines : List String) : Prop :=
  ∃ names, List.Forall₂ (fun index name => (net.nodeAt? index).map Node.id = some name)
      group.members names ∧
    lines = ["Group Id: " ++ group.id ++ ", Label: " ++ group.label] ++ names ++ ["endgroup"]

variable {net : Net}

theorem WellFormed.showsNode (wellFormed : net.WellFormed) {node : Node} (mem : node ∈ net.nodes) :
    net.ShowsNode node (net.describeNode node) := by
  cases points : node.group with
  | none =>
    unfold describeNode
    rw [groupOf?, points, Option.bind_none, String.append_empty]
    exact .alone points
  | some owner =>
    have found : net.groupAt? owner = some _ :=
      List.getElem?_eq_getElem (wellFormed.lt_of_group_eq_some mem points)
    unfold describeNode
    rw [groupOf?, points, Option.bind_some, found]
    exact .member points found

theorem WellFormed.showsEdge (wellFormed : net.WellFormed) {edge : Edge} (mem : edge ∈ net.edges) :
    net.ShowsEdge edge (net.describeEdge edge) := by
  rcases wellFormed.exists_joins mem with ⟨_, source, target, sourceFound, targetFound, -⟩
  refine ⟨source, target, sourceFound, targetFound, ?_⟩
  unfold describeEdge
  rw [nameAt_eq_of_nodeAt? sourceFound, nameAt_eq_of_nodeAt? targetFound]

/-- No entry of a list of nodes is left out where all of them are in range. -/
theorem forall₂_filterMap_nodeAt? {indices : List Nat}
    (inRange : ∀ index ∈ indices, index < net.nodes.length) :
    List.Forall₂ (fun index name => (net.nodeAt? index).map Node.id = some name) indices
      ((indices.filterMap net.nodeAt?).map Node.id) := by
  rw [List.forall₂_map_right_iff]
  apply forall₂_filterMap
  intro index mem
  have found : net.nodeAt? index = some _ := List.getElem?_eq_getElem (inRange index mem)
  exact ⟨_, found, congrArg (Option.map Node.id) found⟩

theorem WellFormed.showsGroup (wellFormed : net.WellFormed) {group : Group}
    (mem : group ∈ net.groups) : net.ShowsGroup group (net.groupLines group) :=
  ⟨_, forall₂_filterMap_nodeAt? fun _ listed => wellFormed.lt_of_mem_members mem listed, rfl⟩

end Net

/-! ## Unbroken lines -/

theorem Severity.unbroken_name (severity : Severity) : Text.Unbroken severity.name := by
  cases severity <;> decide

theorem Diagnostic.unbroken_display {diagnostic : Diagnostic}
    (message : Text.Unbroken diagnostic.message) : Text.Unbroken diagnostic.display := by
  unfold display
  split
  · decide
  · exact diagnostic.severity.unbroken_name
      |>.append (by decide) |>.append (Text.unbroken_decimal _)
      |>.append (by decide) |>.append (Text.unbroken_decimal _)
      |>.append (by decide) |>.append (Text.unbroken_decimal _)
      |>.append (by decide) |>.append message

theorem Group.unbroken_describe {group : Group} (id : Text.Unbroken group.id)
    (label : Text.Unbroken group.label) : Text.Unbroken group.describe := by
  have front : Text.Unbroken "Group Id: " := by decide
  exact front.append id |>.append (by decide) |>.append label

namespace Net

variable {net : Net}

theorem unbroken_describeNode {node : Node} (id : Text.Unbroken node.id)
    (label : Text.Unbroken node.label)
    (groups : ∀ group ∈ net.groups, Text.Unbroken group.describe) :
    Text.Unbroken (net.describeNode node) := by
  have front : Text.Unbroken "Node Id: " := by decide
  refine front.append id |>.append (by decide) |>.append label |>.append ?_
  split
  · rename_i group joined
    rcases Option.bind_eq_some_iff.1 joined with ⟨owner, -, found⟩
    exact .append (by decide) (groups group (List.mem_of_getElem? found))
  · decide

theorem unbroken_nameAt (nodes : ∀ node ∈ net.nodes, Text.Unbroken node.id) (index : Nat) :
    Text.Unbroken (net.nameAt index) := by
  unfold nameAt
  split
  · rename_i node found
    exact nodes node (List.mem_of_getElem? found)
  · decide

theorem unbroken_describeEdge (nodes : ∀ node ∈ net.nodes, Text.Unbroken node.id) {edge : Edge}
    (id : Text.Unbroken edge.id) (label : Text.Unbroken edge.label) :
    Text.Unbroken (net.describeEdge edge) := by
  have front : Text.Unbroken "Edge Id: " := by decide
  exact front.append id
    |>.append (by decide) |>.append (net.unbroken_nameAt nodes _)
    |>.append (by decide) |>.append (net.unbroken_nameAt nodes _)
    |>.append (by decide) |>.append label

theorem unbroken_of_mem_groupLines (nodes : ∀ node ∈ net.nodes, Text.Unbroken node.id)
    {group : Group} (header : Text.Unbroken group.describe) :
    ∀ line ∈ net.groupLines group, Text.Unbroken line := by
  rw [groupLines, List.forall_mem_append, List.forall_mem_append, List.forall_mem_singleton,
    List.forall_mem_singleton, List.forall_mem_map]
  refine ⟨⟨header, fun member mem => ?_⟩, by decide⟩
  rcases List.mem_filterMap.1 mem with ⟨index, -, found⟩
  exact nodes member (List.mem_of_getElem? found)

end Net

namespace Outcome

/-- All lines of a listing in front of the diagram arrive as they were printed. -/
theorem Unbroken.listingLines {outcome : Outcome} (unbroken : outcome.Unbroken) :
    ∀ line ∈ outcome.listingLines, Text.Unbroken line := by
  have nodes : ∀ node ∈ outcome.net.nodes, Text.Unbroken node.id :=
    fun node mem => (unbroken.nodes node mem).1
  have headers : ∀ group ∈ outcome.net.groups, Text.Unbroken group.describe := by
    intro group mem
    rcases unbroken.groups group mem with ⟨id, label⟩
    exact group.unbroken_describe id label
  have blank : Text.Unbroken "" := by decide
  simp only [Outcome.listingLines, Outcome.display, List.forall_mem_append,
    List.forall_mem_singleton, List.forall_mem_map, List.forall_mem_flatMap]
  refine ⟨⟨⟨⟨⟨?_, blank⟩, ?_⟩, ?_⟩, ?_⟩, blank⟩
  · exact fun diagnostic mem => diagnostic.unbroken_display (unbroken.messages diagnostic mem)
  · intro node mem
    rcases unbroken.nodes node mem with ⟨id, label⟩
    exact Net.unbroken_describeNode id label headers
  · intro edge mem
    rcases unbroken.edges edge mem with ⟨id, label⟩
    exact Net.unbroken_describeEdge nodes id label
  · exact fun group mem => Net.unbroken_of_mem_groupLines nodes (headers group mem)

end Outcome

/-- Whatever the text, no name, label or message of what it declares has a line break in it. -/
theorem unbroken_compile (options : Options) (text : String) : (compile options text).Unbroken := by
  have spelled := spelled_net_compile options text
  constructor
  · exact fun _ mem => unbroken_message_of_mem_compile mem
  · intro node mem
    rcases spelled.nodes node mem with ⟨id, label⟩
    exact ⟨id.2.unbroken, label.unbroken⟩
  · intro edge mem
    rcases spelled.edges edge mem with ⟨id, label⟩
    exact ⟨id.2.unbroken, label.unbroken⟩
  · intro group mem
    rcases spelled.groups group mem with ⟨id, label⟩
    exact ⟨id.2.unbroken, label.unbroken⟩

/-! ## Listings -/

/-- A listing consists of a line for each diagnostic, an empty line, a line for each node and then
for each edge, the lines of the groups, another empty line, and the lines of the two arrays of the
diagram; nothing stands behind the last line feed.  None of what the lines show has a line break in
it, each end of an edge is shown by the name of a node, and each entry of a list of members by a
line with its name. -/
theorem printedLines_listing_compile (options : Options) (text : String) :
    let outcome := compile options text
    outcome.Unbroken ∧
      ∃ nodeLines edgeLines groupLines,
        List.Forall₂ outcome.net.ShowsNode outcome.net.nodes nodeLines ∧
        List.Forall₂ outcome.net.ShowsEdge outcome.net.edges edgeLines ∧
        List.Forall₂ outcome.net.ShowsGroup outcome.net.groups groupLines ∧
        Text.printedLines outcome.listing =
          outcome.diagnostics.map Diagnostic.display ++ [""] ++ nodeLines ++ edgeLines ++
            groupLines.flatten ++ [""] ++
            Text.printedLines outcome.net.project.recordsToJson.pretty ++
            Text.printedLines outcome.net.project.linksToJson.pretty ++ [""] := by
  intro outcome
  have unbroken : outcome.Unbroken := unbroken_compile options text
  have wellFormed : outcome.net.WellFormed := (sound_net_compile options text).wellFormed
  refine ⟨unbroken, outcome.net.nodes.map outcome.net.describeNode,
    outcome.net.edges.map outcome.net.describeEdge,
    outcome.net.groups.map outcome.net.groupLines, ?_, ?_, ?_, ?_⟩
  · rw [List.forall₂_map_right_iff, List.forall₂_same]
    exact fun _ mem => wellFormed.showsNode mem
  · rw [List.forall₂_map_right_iff, List.forall₂_same]
    exact fun _ mem => wellFormed.showsEdge mem
  · rw [List.forall₂_map_right_iff, List.forall₂_same]
    exact fun _ mem => wellFormed.showsGroup mem
  · rw [Outcome.listing, Text.printedLines_join, List.flatMap_append,
      Text.flatMap_printedLines unbroken.listingLines, Outcome.listingLines, List.flatMap_def]
    simp only [List.flatMap_cons, List.flatMap_nil, List.append_nil, List.append_assoc]
    rfl

end NetDecl
