import NetDecl.Diagnostic.Entry
import NetDecl.Net

/-!
# What compiling a text yields
-/

namespace NetDecl

/-- The net that a text declares, and what there is to say about the text. -/
structure Outcome where
  /-- The net. -/
  net : Net
  /-- The diagnostics, in the order in which they were recorded. -/
  diagnostics : List Diagnostic
deriving DecidableEq, Repr

namespace Outcome

/-- Whether nothing was ignored or refused. -/
def isSuccess (outcome : Outcome) : Bool :=
  outcome.diagnostics.all Diagnostic.isSuccess

/-- Whether something was refused. -/
def hasErrors (outcome : Outcome) : Bool :=
  outcome.diagnostics.any Diagnostic.isError

/-- Whether something was ignored. -/
def hasWarnings (outcome : Outcome) : Bool :=
  outcome.diagnostics.any Diagnostic.isWarning

/-- How many diagnostics there are of each severity. -/
def tally (outcome : Outcome) : Tally :=
  Tally.ofList outcome.diagnostics

/-- The lines that show the diagnostics. -/
def display (outcome : Outcome) : List String :=
  outcome.diagnostics.map Diagnostic.display

/-- The diagnostics, spelled out. -/
def entries (outcome : Outcome) : List Diagnostic.Entry :=
  outcome.diagnostics.map Diagnostic.entry

end Outcome

end NetDecl
