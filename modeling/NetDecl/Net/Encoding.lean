import NetDecl.Json.Record
import NetDecl.Net

/-!
# Nets as JSON
-/

namespace NetDecl

/-- A node as JSON. -/
def Node.toJson (node : Node) : Json :=
  .object [("id", .string node.id), ("label", .string node.label),
    ("group", .naturalOrNull node.group)]

/-- An edge as JSON. -/
def Edge.toJson (edge : Edge) : Json :=
  .object [("id", .string edge.id), ("source", .natural edge.source),
    ("target", .natural edge.target), ("label", .string edge.label)]

/-- A group as JSON. -/
def Group.toJson (group : Group) : Json :=
  .object [("id", .string group.id), ("label", .string group.label),
    ("members", .array (group.members.map .natural))]

/-- A net as JSON. -/
def Net.toJson (net : Net) : Json :=
  .object [("nodes", .array (net.nodes.map Node.toJson)),
    ("edges", .array (net.edges.map Edge.toJson)),
    ("groups", .array (net.groups.map Group.toJson))]

/-- The node that a value says.  An object may leave out the group. -/
def Node.ofJson? (value : Json) : Option Node := do
  match ← value.fields? ["id", "label", "group"] with
  | [some id, some label, group] =>
      pure ⟨← id.string?, ← label.string?, ← Json.optionalField? Json.word? group⟩
  | _ => none

/-- The edge that a value says. -/
def Edge.ofJson? (value : Json) : Option Edge := do
  match ← value.fields? ["id", "source", "target", "label"] with
  | [some id, some source, some target, some label] =>
      pure ⟨← id.string?, ← source.word?, ← target.word?, ← label.string?⟩
  | _ => none

/-- The group that a value says. -/
def Group.ofJson? (value : Json) : Option Group := do
  match ← value.fields? ["id", "label", "members"] with
  | [some id, some label, some members] =>
      pure ⟨← id.string?, ← label.string?, ← members.list? Json.word?⟩
  | _ => none

/-- The net that a value says. -/
def Net.ofJson? (value : Json) : Option Net := do
  match ← value.fields? ["nodes", "edges", "groups"] with
  | [some nodes, some edges, some groups] =>
      pure ⟨← nodes.list? Node.ofJson?, ← edges.list? Edge.ofJson?, ← groups.list? Group.ofJson?⟩
  | _ => none

end NetDecl
