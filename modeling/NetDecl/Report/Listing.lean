import NetDecl.Diagnostic.Encoding
import NetDecl.Diagram.Encoding
import NetDecl.Diagram.Projection
import NetDecl.Declaration.Keyword
import NetDecl.Net.Description
import NetDecl.Net.Encoding
import NetDecl.Outcome

/-!
# Listings

A listing gives the diagnostics of a text, the net that it declares and the diagram of the net, as
lines of text or as JSON.
-/

namespace NetDecl

/-- The lines for a group: its own, those of its members, and the closing keyword. -/
def Net.groupLines (net : Net) (group : Group) : List String :=
  [group.describe] ++ (net.members group).map Node.id ++ [groupEnd]

namespace Outcome

/-- The lines of a listing before the diagram. -/
def listingLines (outcome : Outcome) : List String :=
  outcome.display ++ [""] ++ outcome.net.nodes.map outcome.net.describeNode ++
    outcome.net.edges.map outcome.net.describeEdge ++
    outcome.net.groups.flatMap outcome.net.groupLines ++ [""]

/-- The listing as text: the lines, then the records and the links of the diagram as JSON. -/
def listing (outcome : Outcome) : String :=
  let diagram := outcome.net.project
  String.join ((outcome.listingLines ++
    [diagram.recordsToJson.pretty, diagram.linksToJson.pretty]).map fun line => line ++ "\n")

/-- The listing as JSON. -/
def listingJson (outcome : Outcome) : Json :=
  .object [("net", outcome.net.toJson),
    ("diagnostics", Diagnostic.Entry.listToJson outcome.entries),
    ("model", outcome.net.project.toJson)]

end Outcome

end NetDecl
