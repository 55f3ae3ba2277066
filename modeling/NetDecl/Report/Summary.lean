import NetDecl.Json.Writer
import NetDecl.Outcome

/-!
# The summary of an outcome

A summary counts the parts of the net and the diagnostics, and shows the diagnostics.
-/

namespace NetDecl.Outcome

/-- The summary of an outcome as JSON, with its members in alphabetical order. -/
def summary (outcome : Outcome) : Json :=
  .object [("diagnostics", .strings outcome.display),
    ("edge_count", .natural outcome.net.edges.length),
    ("error_count", .natural outcome.tally.errors),
    ("group_count", .natural outcome.net.groups.length),
    ("node_count", .natural outcome.net.nodes.length),
    ("success", .bool outcome.isSuccess),
    ("warning_count", .natural outcome.tally.warnings)]

end NetDecl.Outcome
