import NetDecl.Json
import NetDecl.Json.Text

/-!
# Writing JSON

A layout says what stands before each item and after each colon.  The compact layout puts nothing
there, the indented one starts a line per item, two spaces deeper than the line of the bracket.
Empty arrays and objects are written without anything between their brackets.
-/

namespace NetDecl.Json

/-- What is written between the parts of a value. -/
structure Layout where
  /-- What stands before an item, and before the bracket that ends the items, at a nesting depth. -/
  lineStart : Nat → List Char
  /-- What separates a name from its value. -/
  colon : List Char

namespace Layout

/-- Nothing between the parts. -/
def compact : Layout where
  lineStart _ := []
  colon := [':']

/-- A line for each item, indented by two spaces per depth. -/
def indented : Layout where
  lineStart depth := '\n' :: List.replicate (2 * depth) ' '
  colon := [':', ' ']

end Layout

mutual

/-- The text of a value that stands at a nesting depth. -/
def writeAt (layout : Layout) (depth : Nat) : Json → List Char
  | .null => ['n', 'u', 'l', 'l']
  | .bool true => ['t', 'r', 'u', 'e']
  | .bool false => ['f', 'a', 'l', 's', 'e']
  | .natural value => Nat.toDigits 10 value
  | .number written => written.toList
  | .string text => literal text
  | .array [] => ['[', ']']
  | .array (item :: items) =>
      '[' :: layout.lineStart (depth + 1) ++ writeAt layout (depth + 1) item
        ++ writeItems layout (depth + 1) items ++ layout.lineStart depth ++ [']']
  | .object [] => ['\x7b', '\x7d']
  | .object ((name, value) :: members) =>
      '\x7b' :: layout.lineStart (depth + 1) ++ literal name ++ layout.colon
        ++ writeAt layout (depth + 1) value ++ writeMembers layout (depth + 1) members
        ++ layout.lineStart depth ++ ['\x7d']

/-- The text of further items of an array. -/
def writeItems (layout : Layout) (depth : Nat) : List Json → List Char
  | [] => []
  | item :: items =>
      ',' :: layout.lineStart depth ++ writeAt layout depth item ++ writeItems layout depth items

/-- The text of further members of an object. -/
def writeMembers (layout : Layout) (depth : Nat) : List (String × Json) → List Char
  | [] => []
  | (name, value) :: members =>
      ',' :: layout.lineStart depth ++ literal name ++ layout.colon ++ writeAt layout depth value
        ++ writeMembers layout depth members

end

/-- The text of a value. -/
def write (layout : Layout) (value : Json) : String :=
  String.ofList (writeAt layout 0 value)

/-- The text of a value on one line, without spaces. -/
def compact (value : Json) : String :=
  value.write .compact

/-- The text of a value over several lines. -/
def pretty (value : Json) : String :=
  value.write .indented

end NetDecl.Json
