import NetDecl.Diagnostic

/-!
# Diagnostics for other programs

An entry spells out everything about a diagnostic: its symbol and number, its place counted from
one, and the line that shows it.
-/

namespace NetDecl

/-- A diagnostic, spelled out. -/
structure Diagnostic.Entry where
  /-- The symbol of its code. -/
  symbol : String
  /-- The number of its code. -/
  number : Nat
  /-- The name of its severity. -/
  severity : String
  /-- What is wrong. -/
  message : String
  /-- The line, counted from one. -/
  line : Nat
  /-- The column, counted from one. -/
  column : Nat
  /-- How many characters the place has. -/
  length : Nat
  /-- The line that shows it. -/
  display : String
deriving DecidableEq, Repr

/-- Spell out a diagnostic. -/
def Diagnostic.entry (diagnostic : Diagnostic) : Diagnostic.Entry where
  symbol := diagnostic.code.symbol
  number := diagnostic.code.number
  severity := diagnostic.severity.name
  message := diagnostic.message
  line := diagnostic.position.shown.1
  column := diagnostic.position.shown.2
  length := diagnostic.length
  display := diagnostic.display

end NetDecl
