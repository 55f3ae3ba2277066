import NetDecl.Net

/-!
# Describing a net

The parts of a net are described by one line each.  A node is described together with its group; an
end of an edge that is no node is a question mark.
-/

namespace NetDecl

/-- The line for a group. -/
def Group.describe (group : Group) : String :=
  "Group Id: " ++ group.id ++ ", Label: " ++ group.label

namespace Net

/-- The line for a node, which ends with its group if it has one. -/
def describeNode (net : Net) (node : Node) : String :=
  "Node Id: " ++ node.id ++ ", Label: " ++ node.label ++
    match net.groupOf? node with
    | some group => ", " ++ group.describe
    | none => ""

/-- The name of the node with the given index. -/
def nameAt (net : Net) (index : Nat) : String :=
  match net.nodeAt? index with
  | some node => node.id
  | none => "?"

/-- The line for an edge. -/
def describeEdge (net : Net) (edge : Edge) : String :=
  "Edge Id: " ++ edge.id ++ ", Source: " ++ net.nameAt edge.source ++ ", Target: " ++
    net.nameAt edge.target ++ ", Label: " ++ edge.label

end Net

end NetDecl
