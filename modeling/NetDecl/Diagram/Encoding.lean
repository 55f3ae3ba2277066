import NetDecl.Diagram
import NetDecl.Json.Record
import NetDecl.Json.Writer

/-!
# Diagrams as JSON

A record without a text, or a node without a group, is written without that member.  A record is
read as that of a group if it has the members of one, and as that of a node otherwise.
-/

namespace NetDecl.Diagram

/-- A member with a text, if there is one. -/
def member (name : String) : Option String → List (String × Json)
  | some text => [(name, .string text)]
  | none => []

/-- The record of a node as JSON. -/
def NodeRecord.toJson (record : NodeRecord) : Json :=
  .object ([("key", .string record.key)] ++ member "group" record.group ++
    member "text" record.text)

/-- The record of a group as JSON. -/
def GroupRecord.toJson (record : GroupRecord) : Json :=
  .object ([("key", .string record.key)] ++ member "text" record.text ++
    [("isGroup", .bool record.isGroup)])

/-- A record as JSON. -/
def Record.toJson : Record → Json
  | node record => record.toJson
  | group record => record.toJson

/-- A link as JSON. -/
def Link.toJson (link : Link) : Json :=
  .object [("from", .string link.source), ("to", .string link.target)]

/-- The records of a diagram as JSON. -/
def recordsToJson (diagram : Diagram) : Json :=
  .array (diagram.records.map Record.toJson)

/-- The links of a diagram as JSON. -/
def linksToJson (diagram : Diagram) : Json :=
  .array (diagram.links.map Link.toJson)

/-- A diagram as JSON. -/
def toJson (diagram : Diagram) : Json :=
  .object [("nodeDataArray", diagram.recordsToJson), ("linkDataArray", diagram.linksToJson)]

/-- The record of a group that a value says. -/
def GroupRecord.ofJson? (value : Json) : Option GroupRecord := do
  match ← value.fields? ["key", "text", "isGroup"] with
  | [some key, text, some isGroup] =>
      pure ⟨← key.string?, ← Json.optionalField? Json.string? text, ← isGroup.bool?⟩
  | _ => none

/-- The record of a node that a value says.  An array may leave out the text, or the group and the
text. -/
def NodeRecord.ofJson? (value : Json) : Option NodeRecord := do
  match ← value.leadingFields? ["key", "group", "text"] with
  | [some key, group, text] =>
      pure ⟨← key.string?, ← Json.optionalField? Json.string? group,
        ← Json.optionalField? Json.string? text⟩
  | _ => none

/-- The record that a value says. -/
def Record.ofJson? (value : Json) : Option Record :=
  match GroupRecord.ofJson? value with
  | some record => some (.group record)
  | none => (NodeRecord.ofJson? value).map .node

/-- The link that a value says. -/
def Link.ofJson? (value : Json) : Option Link := do
  match ← value.fields? ["from", "to"] with
  | [some source, some target] => pure ⟨← source.string?, ← target.string?⟩
  | _ => none

/-- The diagram that a value says. -/
def ofJson? (value : Json) : Option Diagram := do
  match ← value.fields? ["nodeDataArray", "linkDataArray"] with
  | [some records, some links] =>
      pure ⟨← records.list? Record.ofJson?, ← links.list? Link.ofJson?⟩
  | _ => none

end NetDecl.Diagram
