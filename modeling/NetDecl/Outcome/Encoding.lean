import NetDecl.Diagnostic.Encoding
import NetDecl.Net.Encoding
import NetDecl.Outcome

/-!
# Outcomes as JSON
-/

namespace NetDecl

/-- An outcome as JSON. -/
def Outcome.toJson (outcome : Outcome) : Json :=
  .object [("net", outcome.net.toJson),
    ("diagnostics", .array (outcome.diagnostics.map Diagnostic.toJson))]

/-- The outcome that a value says. -/
def Outcome.ofJson? (value : Json) : Option Outcome := do
  match ← value.fields? ["net", "diagnostics"] with
  | [some net, some diagnostics] =>
      pure ⟨← Net.ofJson? net, ← diagnostics.list? Diagnostic.ofJson?⟩
  | _ => none

end NetDecl
