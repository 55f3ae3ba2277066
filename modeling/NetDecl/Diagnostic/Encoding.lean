import NetDecl.Diagnostic.Entry
import NetDecl.Json.Record

/-!
# Diagnostics as JSON
-/

namespace NetDecl

/-- A position as JSON. -/
def Position.toJson (position : Position) : Json :=
  .object [("line", .natural position.line), ("col", .natural position.column)]

/-- A diagnostic as JSON. -/
def Diagnostic.toJson (diagnostic : Diagnostic) : Json :=
  .object [("severity", .string diagnostic.severity.name), ("code", .string diagnostic.code.name),
    ("position", diagnostic.position.toJson), ("length", .natural diagnostic.length),
    ("message", .string diagnostic.message)]

/-- A diagnostic, spelled out, as JSON. -/
def Diagnostic.Entry.toJson (entry : Diagnostic.Entry) : Json :=
  .object [("error_code", .string entry.symbol), ("code", .natural entry.number),
    ("severity", .string entry.severity), ("message", .string entry.message),
    ("line", .natural entry.line), ("column", .natural entry.column),
    ("length", .natural entry.length), ("display", .string entry.display)]

/-- Spelled-out diagnostics as JSON. -/
def Diagnostic.Entry.listToJson (entries : List Diagnostic.Entry) : Json :=
  .array (entries.map Diagnostic.Entry.toJson)

/-- The position that a value says. -/
def Position.ofJson? (value : Json) : Option Position := do
  match ← value.fields? ["line", "col"] with
  | [some line, some column] => pure ⟨← line.word?, ← column.word?⟩
  | _ => none

/-- The severity that a value says. -/
def Severity.ofJson? (value : Json) : Option Severity := do
  Severity.ofName? (← value.choice?)

/-- The code that a value says. -/
def Code.ofJson? (value : Json) : Option Code := do
  Code.ofName? (← value.choice?)

/-- The diagnostic that a value says. -/
def Diagnostic.ofJson? (value : Json) : Option Diagnostic := do
  match ← value.fields? ["severity", "code", "position", "length", "message"] with
  | [some severity, some code, some position, some length, some message] =>
      pure ⟨← Severity.ofJson? severity, ← Code.ofJson? code, ← Position.ofJson? position,
        ← length.word?, ← message.string?⟩
  | _ => none

end NetDecl
