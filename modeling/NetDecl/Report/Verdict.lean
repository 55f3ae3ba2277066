import NetDecl.Diagnostic.Encoding
import NetDecl.Json.Writer
import NetDecl.Outcome

/-!
# Verdicts

A verdict says whether a text is valid, that is, without errors and, where warnings count too,
without warnings.  It is given with counts and diagnostics, as lines of text or as JSON.
-/

namespace NetDecl

/-- Whether a text is valid, and what there is to say about it. -/
structure Verdict where
  /-- Whether the text is valid. -/
  valid : Bool
  /-- How many nodes the net has. -/
  nodeCount : Nat
  /-- How many edges the net has. -/
  edgeCount : Nat
  /-- How many groups the net has. -/
  groupCount : Nat
  /-- How many diagnostics there are of each severity. -/
  tally : Tally
  /-- The diagnostics, spelled out. -/
  diagnostics : List Diagnostic.Entry
deriving DecidableEq, Repr

/-- The verdict on an outcome; warnings count only if it is strict. -/
def Outcome.verdict (outcome : Outcome) (strict : Bool) : Verdict where
  valid := outcome.tally.errors == 0 && (!strict || outcome.tally.warnings == 0)
  nodeCount := outcome.net.nodes.length
  edgeCount := outcome.net.edges.length
  groupCount := outcome.net.groups.length
  tally := outcome.tally
  diagnostics := outcome.entries

/-- The line for a diagnostic below the title of its section. -/
def Diagnostic.Entry.describe (entry : Diagnostic.Entry) : String :=
  "  [" ++ entry.symbol ++ "] " ++ entry.message ++ " (line " ++ Text.decimal entry.line ++
    ", col " ++ Text.decimal entry.column ++ ")"

namespace Verdict

/-- A verdict as JSON. -/
def toJson (verdict : Verdict) : Json :=
  .object [("valid", .bool verdict.valid),
    ("node_count", .natural verdict.nodeCount),
    ("edge_count", .natural verdict.edgeCount),
    ("group_count", .natural verdict.groupCount),
    ("error_count", .natural verdict.tally.errors),
    ("warning_count", .natural verdict.tally.warnings),
    ("diagnostic_count", .natural verdict.tally.total),
    ("diagnostics", Diagnostic.Entry.listToJson verdict.diagnostics)]

/-- The line that says whether the text is valid. -/
def headline (verdict : Verdict) : String :=
  if verdict.valid then "✓ Valid NetDSL input" else "✗ Invalid NetDSL input"

/-- The lines for the diagnostics of a severity, after an empty line and a title; none where there
is no such diagnostic. -/
def sectionLines (verdict : Verdict) (title : String) (severity : Severity) : List String :=
  match verdict.diagnostics.filter fun entry => entry.severity == severity.name with
  | [] => []
  | entries => ["", title ++ ":"] ++ entries.map Diagnostic.Entry.describe

/-- The lines of a verdict. -/
def lines (verdict : Verdict) : List String :=
  [verdict.headline, "  Nodes: " ++ Text.decimal verdict.nodeCount,
    "  Edges: " ++ Text.decimal verdict.edgeCount,
    "  Groups: " ++ Text.decimal verdict.groupCount] ++
    verdict.sectionLines "Errors" .error ++ verdict.sectionLines "Warnings" .warning

/-- A verdict as text. -/
def text (verdict : Verdict) : String :=
  String.join (verdict.lines.map fun line => line ++ "\n")

end Verdict

end NetDecl
