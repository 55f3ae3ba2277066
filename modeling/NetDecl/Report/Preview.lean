import NetDecl.Diagnostic.Encoding
import NetDecl.Diagram.Encoding
import NetDecl.Diagram.Projection
import NetDecl.Outcome

/-!
# The preview of an outcome

A preview holds what is needed to draw a net and to say what is wrong with its text.
-/

namespace NetDecl

/-- A diagram and the diagnostics that go with it. -/
structure Preview where
  /-- Whether nothing was ignored or refused. -/
  success : Bool
  /-- The diagnostics, spelled out. -/
  diagnostics : List Diagnostic.Entry
  /-- The diagram of the net. -/
  diagram : Diagram
deriving DecidableEq, Repr

/-- The preview of an outcome. -/
def Outcome.preview (outcome : Outcome) : Preview where
  success := outcome.isSuccess
  diagnostics := outcome.entries
  diagram := outcome.net.project

/-- A preview as JSON. -/
def Preview.toJson (preview : Preview) : Json :=
  .object [("success", .bool preview.success),
    ("diagnostics", Diagnostic.Entry.listToJson preview.diagnostics),
    ("model", preview.diagram.toJson)]

end NetDecl
