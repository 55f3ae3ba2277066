import NetDecl.Diagram
import NetDecl.Net

/-!
# The diagram of a net

The records of the nodes come first, then those of the groups, then the links.  An empty label gives
no text, a reference out of range gives no group, and an edge with an end out of range no link.
-/

namespace NetDecl

/-- The text to show for a label. -/
def Diagram.textOf (label : String) : Option String :=
  if label.isEmpty then none else some label

namespace Net

/-- The record of a node. -/
def nodeRecord (net : Net) (node : Node) : Diagram.NodeRecord where
  key := node.id
  group := (net.groupOf? node).map Group.id
  text := Diagram.textOf node.label

/-- The link of an edge. -/
def link? (net : Net) (edge : Edge) : Option Diagram.Link :=
  (net.endpoints? edge).map fun (source, target) => ⟨source.id, target.id⟩

/-- The diagram of a net. -/
def project (net : Net) : Diagram where
  records :=
    (net.nodes.map fun node => .node (net.nodeRecord node)) ++
      net.groups.map fun group =>
        .group (Diagram.GroupRecord.marked group.id (Diagram.textOf group.label))
  links := net.edges.filterMap net.link?

end Net

end NetDecl
