import NetDecl.Position
import NetDecl.Text.Decimal

/-!
# Diagnostics

A diagnostic says what is wrong at a place of the text.  Its code tells the kind of problem; every
code has a number, a symbol and a severity.  A diagnostic also carries a severity of its own, which
is that of its code wherever the compiler made it.
-/

namespace NetDecl

/-- How bad a diagnostic is. -/
inductive Severity where
  /-- Nothing is wrong. -/
  | success
  /-- Something was ignored. -/
  | warning
  /-- Something was refused. -/
  | error
deriving DecidableEq, Repr

namespace Severity

/-- The name of a severity. -/
def name : Severity → String
  | success => "Success"
  | warning => "Warning"
  | error => "Error"

/-- All severities, from best to worst. -/
def all : List Severity :=
  [success, warning, error]

/-- The severity with the given name. -/
def ofName? (text : String) : Option Severity :=
  all.find? fun severity => severity.name == text

/-- The worse of two severities. -/
def worse : Severity → Severity → Severity
  | error, _ => error
  | _, error => error
  | warning, _ => warning
  | _, warning => warning
  | success, success => success

end Severity

/-- The kinds of problems. -/
inductive Code where
  /-- There is no problem. -/
  | success
  /-- A line starts with a word that declares nothing. -/
  | invalidLineStart
  /-- A node and a group would have the same name. -/
  | idConflict
  /-- A name stands for no node. -/
  | nodeNotFound
  /-- A declaration is too short. -/
  | insufficientParameter
  /-- A name is taken. -/
  | duplicatedId
  /-- A node belongs to another group. -/
  | anotherGroup
  /-- A word is ignored. -/
  | tokenDiscarded
  /-- A group has no nodes and is ignored. -/
  | groupDiscarded
  /-- An edge runs beside another. -/
  | duplicateSourceTarget
  /-- A node is listed again by its group. -/
  | duplicateGroupAssignment
deriving DecidableEq, Repr

namespace Code

/-- All codes, in the order of their numbers. -/
def all : List Code :=
  [success, invalidLineStart, idConflict, nodeNotFound, insufficientParameter, duplicatedId,
    anotherGroup, tokenDiscarded, groupDiscarded, duplicateSourceTarget, duplicateGroupAssignment]

/-- The number of a code. -/
def number : Code → Nat
  | success => 0
  | invalidLineStart => 1
  | idConflict => 2
  | nodeNotFound => 3
  | insufficientParameter => 4
  | duplicatedId => 5
  | anotherGroup => 6
  | tokenDiscarded => 7
  | groupDiscarded => 8
  | duplicateSourceTarget => 9
  | duplicateGroupAssignment => 10

/-- The symbol of a code. -/
def symbol : Code → String
  | success => "netdsl/success"
  | invalidLineStart => "netdsl/error/invalid-line-start"
  | idConflict => "netdsl/error/id-conflict"
  | nodeNotFound => "netdsl/error/node-not-found"
  | insufficientParameter => "netdsl/error/insufficient-parameter"
  | duplicatedId => "netdsl/error/duplicated-id"
  | anotherGroup => "netdsl/error/another-group"
  | tokenDiscarded => "netdsl/warn/token-discarded"
  | groupDiscarded => "netdsl/warn/group-discarded"
  | duplicateSourceTarget => "netdsl/warn/duplicate-source-target"
  | duplicateGroupAssignment => "netdsl/warn/duplicate-group-assignment"

/-- The severity that goes with a code. -/
def severity : Code → Severity
  | success => .success
  | invalidLineStart | idConflict | nodeNotFound | insufficientParameter | duplicatedId
  | anotherGroup => .error
  | tokenDiscarded | groupDiscarded | duplicateSourceTarget | duplicateGroupAssignment => .warning

/-- The name of a code. -/
def name : Code → String
  | success => "Success"
  | invalidLineStart => "InvalidLineStart"
  | idConflict => "IdConflict"
  | nodeNotFound => "NodeNotFound"
  | insufficientParameter => "InsufficientParameter"
  | duplicatedId => "DuplicatedId"
  | anotherGroup => "AnotherGroup"
  | tokenDiscarded => "TokenDiscarded"
  | groupDiscarded => "GroupDiscarded"
  | duplicateSourceTarget => "DuplicateSourceTarget"
  | duplicateGroupAssignment => "DuplicateGroupAssignment"

/-- The code with the given name. -/
def ofName? (text : String) : Option Code :=
  all.find? fun code => code.name == text

end Code

/-- A message about a place of the text. -/
structure Diagnostic where
  /-- How bad it is. -/
  severity : Severity
  /-- The kind of problem. -/
  code : Code
  /-- Where the place begins. -/
  position : Position
  /-- How many characters the place has. -/
  length : Nat
  /-- What is wrong. -/
  message : String
deriving DecidableEq, Repr

namespace Diagnostic

/-- A diagnostic with the severity of its code. -/
def ofCode (code : Code) (position : Position) (length : Nat) (message : String) : Diagnostic where
  severity := code.severity
  code
  position
  length
  message

/-- The diagnostic of a text without problems. -/
def success (position : Position) : Diagnostic :=
  ofCode .success position 0 "Success"

/-- Whether nothing is wrong. -/
def isSuccess (diagnostic : Diagnostic) : Bool :=
  diagnostic.severity == .success

/-- Whether something was ignored. -/
def isWarning (diagnostic : Diagnostic) : Bool :=
  diagnostic.severity == .warning

/-- Whether something was refused. -/
def isError (diagnostic : Diagnostic) : Bool :=
  diagnostic.severity == .error

/-- The line that shows a diagnostic. -/
def display (diagnostic : Diagnostic) : String :=
  if diagnostic.isSuccess then "Success"
  else
    diagnostic.severity.name ++ " | " ++ Text.decimal diagnostic.code.number ++ " | (" ++
      Text.decimal diagnostic.position.shown.1 ++ "," ++
      Text.decimal diagnostic.position.shown.2 ++ ") : " ++ diagnostic.message

/-- The worst severity among diagnostics. -/
def worst? : List Diagnostic → Option Severity
  | [] => none
  | diagnostic :: rest =>
      some (rest.foldl (fun worst other => worst.worse other.severity) diagnostic.severity)

end Diagnostic

/-- How many diagnostics there are of each severity. -/
structure Tally where
  /-- Diagnostics that find nothing wrong. -/
  successes : Nat
  /-- Diagnostics about what was ignored. -/
  warnings : Nat
  /-- Diagnostics about what was refused. -/
  errors : Nat
deriving DecidableEq, Repr

namespace Tally

/-- Count diagnostics by severity. -/
def ofList (diagnostics : List Diagnostic) : Tally where
  successes := diagnostics.countP Diagnostic.isSuccess
  warnings := diagnostics.countP Diagnostic.isWarning
  errors := diagnostics.countP Diagnostic.isError

/-- How many diagnostics there are. -/
def total (tally : Tally) : Nat :=
  tally.successes + tally.warnings + tally.errors

end Tally

end NetDecl
