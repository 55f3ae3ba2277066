/-!
# Nets

A net is made of nodes, of edges between them and of groups of them, each in the order of
declaration.  Edges and groups refer to nodes by index, and a node refers to its group by index; the
indices of a net need not be in range.
-/

namespace NetDecl

/-- The parts of a net that have names. -/
inductive Part where
  /-- A node. -/
  | node
  /-- An edge. -/
  | edge
  /-- A group. -/
  | group
deriving DecidableEq, Repr

/-- The word for a part of a net. -/
def Part.word : Part → String
  | node => "node"
  | edge => "edge"
  | group => "group"

/-- A node. -/
structure Node where
  /-- The name that declarations use. -/
  id : String
  /-- The text to show; empty where none is given. -/
  label : String
  /-- The index of the group that the node belongs to. -/
  group : Option Nat
deriving DecidableEq, Repr, Inhabited

/-- A directed edge. -/
structure Edge where
  /-- The name of the edge. -/
  id : String
  /-- The index of the node that the edge leaves. -/
  source : Nat
  /-- The index of the node that the edge enters. -/
  target : Nat
  /-- The text to show; empty where none is given. -/
  label : String
deriving DecidableEq, Repr, Inhabited

/-- A group of nodes. -/
structure Group where
  /-- The name of the group. -/
  id : String
  /-- The text to show; empty where none is given. -/
  label : String
  /-- The indices of the nodes in the group, in the order of listing. -/
  members : List Nat
deriving DecidableEq, Repr, Inhabited

/-- Nodes, edges and groups. -/
structure Net where
  /-- The nodes in the order of declaration. -/
  nodes : List Node
  /-- The edges in the order of declaration. -/
  edges : List Edge
  /-- The groups in the order of declaration. -/
  groups : List Group
deriving DecidableEq, Repr, Inhabited

namespace Net

/-- The net without nodes, edges and groups. -/
def empty : Net :=
  ⟨[], [], []⟩

/-- Whether there are no nodes, edges and groups. -/
def isEmpty (net : Net) : Bool :=
  net.nodes.isEmpty && net.edges.isEmpty && net.groups.isEmpty

/-- The first node with the given name. -/
def node? (net : Net) (id : String) : Option Node :=
  net.nodes.find? fun node => node.id == id

/-- The first edge with the given name. -/
def edge? (net : Net) (id : String) : Option Edge :=
  net.edges.find? fun edge => edge.id == id

/-- The first group with the given name. -/
def group? (net : Net) (id : String) : Option Group :=
  net.groups.find? fun group => group.id == id

/-- The node with the given index. -/
def nodeAt? (net : Net) (index : Nat) : Option Node :=
  net.nodes[index]?

/-- The edge with the given index. -/
def edgeAt? (net : Net) (index : Nat) : Option Edge :=
  net.edges[index]?

/-- The group with the given index. -/
def groupAt? (net : Net) (index : Nat) : Option Group :=
  net.groups[index]?

/-- The group that a node belongs to. -/
def groupOf? (net : Net) (node : Node) : Option Group :=
  node.group.bind net.groupAt?

/-- The nodes of a group in the order of listing, without indices that are out of range. -/
def members (net : Net) (group : Group) : List Node :=
  group.members.filterMap net.nodeAt?

/-- The two ends of an edge, if both indices are in range. -/
def endpoints? (net : Net) (edge : Edge) : Option (Node × Node) := do
  let source ← net.nodeAt? edge.source
  let target ← net.nodeAt? edge.target
  pure (source, target)

end Net

end NetDecl
