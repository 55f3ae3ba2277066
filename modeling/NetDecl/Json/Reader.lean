import NetDecl.Json.Number
import NetDecl.Json.Text

/-!
# Reading JSON

The reader follows the grammar of JSON texts.  It refuses trailing commas, raw control characters,
half a surrogate pair, and values nested more than 127 deep.
-/

namespace NetDecl.Json

/-- Whether a character may stand between the parts of a JSON text. -/
def isSpace (char : Char) : Bool :=
  char == ' ' || char == '\t' || char == '\n' || char == '\r'

/-- The text without the space at its front. -/
def skipSpace (text : List Char) : List Char :=
  text.dropWhile isSpace

/-- Read a comma or the bracket that closes a list.  The answer says whether the list goes on. -/
def readSeparator? (closing : Char) (text : List Char) : Option (Bool × List Char) :=
  match skipSpace text with
  | [] => none
  | char :: rest =>
      if char = ',' then some (true, rest)
      else if char = closing then some (false, rest)
      else none

/-- Read the name of a member and the colon after it. -/
def readName? (text : List Char) : Option (String × List Char) :=
  match skipSpace text with
  | '"' :: rest => do
      let (name, rest) ← readLiteral? rest
      match skipSpace rest with
      | ':' :: rest => some (String.ofList name, rest)
      | _ => none
  | _ => none

/-- Whether the bracket that closes a list comes next, and what follows it. -/
def closes? (closing : Char) (text : List Char) : Option (List Char) :=
  match skipSpace text with
  | [] => none
  | char :: rest => if char = closing then some rest else none

mutual

/-- Read a value; `fuel` bounds the number of its parts. -/
def readValue? : Nat → List Char → Option (Json × List Char)
  | 0, _ => none
  | fuel + 1, text =>
      match skipSpace text with
      | 'n' :: 'u' :: 'l' :: 'l' :: rest => some (.null, rest)
      | 't' :: 'r' :: 'u' :: 'e' :: rest => some (.bool true, rest)
      | 'f' :: 'a' :: 'l' :: 's' :: 'e' :: rest => some (.bool false, rest)
      | '"' :: rest =>
          (readLiteral? rest).map fun (text, rest) => (.string (String.ofList text), rest)
      | '[' :: rest =>
          match closes? ']' rest with
          | some rest => some (.array [], rest)
          | none => (readItems? fuel rest).map fun (items, rest) => (.array items, rest)
      | '\x7b' :: rest =>
          match closes? '\x7d' rest with
          | some rest => some (.object [], rest)
          | none => (readMembers? fuel rest).map fun (members, rest) => (.object members, rest)
      | text => readNumber? text

/-- Read the items of an array, of which there is one at least, up to the closing bracket. -/
def readItems? : Nat → List Char → Option (List Json × List Char)
  | 0, _ => none
  | fuel + 1, text => do
      let (item, rest) ← readValue? fuel text
      let (goesOn, rest) ← readSeparator? ']' rest
      if goesOn then
        (readItems? fuel rest).map fun (items, rest) => (item :: items, rest)
      else some ([item], rest)

/-- Read the members of an object, of which there is one at least, up to the closing bracket. -/
def readMembers? : Nat → List Char → Option (List (String × Json) × List Char)
  | 0, _ => none
  | fuel + 1, text => do
      let (name, rest) ← readName? text
      let (value, rest) ← readValue? fuel rest
      let (goesOn, rest) ← readSeparator? '\x7d' rest
      if goesOn then
        (readMembers? fuel rest).map fun (members, rest) => ((name, value) :: members, rest)
      else some ([(name, value)], rest)

end

/-- How deeply a text may nest values. -/
def maximumDepth : Nat :=
  127

/-- The value that a text says. -/
def read? (text : String) : Option Json :=
  match readValue? (text.toList.length + 1) text.toList with
  | some (value, rest) =>
      if (skipSpace rest).isEmpty ∧ value.depth ≤ maximumDepth then some value else none
  | none => none

end NetDecl.Json
