import NetDecl.Toml.Scalar

/-!
# Reading TOML

A document is read statement by statement.  A carriage return counts only as a part of a line end.
A key has fewer than 80 parts, and brackets and braces are nested less than 80 deep.
-/

namespace NetDecl.Toml

/-- The number of parts that a key stays below, and of brackets around a value. -/
def depthLimit : Nat :=
  80

/-- The text with every line end as a line feed. -/
def normalLines : List Char → List Char
  | [] => []
  | '\r' :: '\n' :: rest => '\n' :: normalLines rest
  | char :: rest => char :: normalLines rest

/-- The text without the mark of its byte order. -/
def dropMark : List Char → List Char
  | '\ufeff' :: text => text
  | text => text

/-- The text without the spaces and tabs at its front. -/
def skipSpace (text : List Char) : List Char :=
  text.dropWhile isSpace

/-- The text without a comment at its front. -/
def skipComment : List Char → List Char
  | '#' :: comment => comment.dropWhile isPlain
  | text => text

/-- The text after the line end that it begins with; the end of the document is one. -/
def afterLineEnd? : List Char → Option (List Char)
  | [] => some []
  | '\n' :: rest => some rest
  | _ => none

/-- The text after the rest of a line that says nothing more. -/
def afterLine? (text : List Char) : Option (List Char) :=
  afterLineEnd? (skipComment (skipSpace text))

/-- The text without the spaces, comments and line ends at its front; `fuel` bounds the number of
lines. -/
def skipLines : Nat → List Char → List Char
  | 0, text => text
  | fuel + 1, text =>
      match skipComment (skipSpace text) with
      | '\n' :: rest => skipLines fuel rest
      | rest => rest

/-- Whether a character may stand in a key without quotes. -/
def isKeyChar (char : Char) : Bool :=
  char.isAlphanum || char == '_' || char == '-'

/-- Read a part of a key. -/
def readPart? (text : List Char) : Option (String × List Char) :=
  match text.takeWhile isKeyChar with
  | [] => readString? text
  | part => some (String.ofList part, text.dropWhile isKeyChar)

/-- Read the parts of a key and the spaces around them; `fuel` bounds the number of parts. -/
def readParts? : Nat → List Char → Option (List String × List Char)
  | 0, _ => none
  | fuel + 1, text => do
      let (part, rest) ← readPart? (skipSpace text)
      match skipSpace rest with
      | '.' :: rest => (readParts? fuel rest).map fun (parts, rest) => (part :: parts, rest)
      | rest => some ([part], rest)

/-- Read a key and the spaces around it. -/
def readKey? (text : List Char) : Option (Key × List Char) := do
  let (parts, rest) ← readParts? (depthLimit - 1) text
  let name ← parts.getLast?
  some (⟨parts.dropLast, name⟩, rest)

mutual

/-- Read a value that may have brackets nested `depth` deep; `fuel` bounds the number of steps. -/
def readValue? : Nat → Nat → List Char → Option (Value × List Char)
  | 0, _, _ => none
  | fuel + 1, depth, text =>
      match text, depth with
      | '[' :: _, 0 | '\x7b' :: _, 0 => none
      | '[' :: rest, depth + 1 =>
          (readItems? fuel depth rest).map fun (items, rest) => (.array items, rest)
      | '\x7b' :: rest, depth + 1 =>
          match skipSpace rest with
          | '\x7d' :: rest => some (.table .inline [], rest)
          | rest => do
              let (settings, rest) ← readSettings? fuel depth rest
              let entries ← collect? settings
              some (.table .inline entries, rest)
      | '"' :: _, _ | '\x27' :: _, _ =>
          (readText? text).map fun (text, rest) => (.string text, rest)
      | _, _ => readScalar? text

/-- Read the values between brackets, after the opening bracket or a comma, and the closing one. -/
def readItems? : Nat → Nat → List Char → Option (List Value × List Char)
  | 0, _, _ => none
  | fuel + 1, depth, text =>
      match skipLines text.length text with
      | ']' :: rest => some ([], rest)
      | text => do
          let (item, rest) ← readValue? fuel depth text
          match skipLines rest.length rest with
          | ']' :: rest => some ([item], rest)
          | ',' :: rest =>
              (readItems? fuel depth rest).map fun (items, rest) => (item :: items, rest)
          | _ => none

/-- Read a key with its value. -/
def readSetting? : Nat → Nat → List Char → Option (Setting × List Char)
  | 0, _, _ => none
  | fuel + 1, depth, text => do
      let (key, rest) ← readKey? text
      let rest ← readMark? '=' rest
      let (value, rest) ← readValue? fuel depth (skipSpace rest)
      some (⟨key, value⟩, rest)

/-- Read the settings between braces, of which there is one at least, and the closing brace. -/
def readSettings? : Nat → Nat → List Char → Option (List Setting × List Char)
  | 0, _, _ => none
  | fuel + 1, depth, text => do
      let (setting, rest) ← readSetting? fuel depth text
      match skipSpace rest with
      | '\x7d' :: rest => some ([setting], rest)
      | ',' :: rest =>
          (readSettings? fuel depth rest).map fun (settings, rest) => (setting :: settings, rest)
      | _ => none

end

/-- Read a statement. -/
def readStatement? (text : List Char) : Option (Statement × List Char) :=
  match text with
  | '[' :: '[' :: rest => do
      let (key, rest) ← readKey? rest
      let rest ← readMark? ']' (← readMark? ']' rest)
      some (.element key, rest)
  | '[' :: rest => do
      let (key, rest) ← readKey? rest
      some (.header key, ← readMark? ']' rest)
  | _ =>
      (readSetting? (2 * text.length + 2) (depthLimit - 1) text).map fun (setting, rest) =>
        (.setting setting, rest)

/-- Read statements, each of which ends its line; `fuel` bounds their number. -/
def readStatements? : Nat → List Char → Option (List Statement)
  | 0, _ => none
  | fuel + 1, text =>
      match skipLines text.length text with
      | [] => some []
      | text => do
          let (statement, rest) ← readStatement? text
          let statements ← readStatements? fuel (← afterLine? rest)
          some (statement :: statements)

/-- The entries of the document that a text says. -/
def read? (text : String) : Option Entries := do
  let text := normalLines (dropMark text.toList)
  let statements ← readStatements? (text.length + 1) text
  let document ← statements.foldlM Document.add? Document.empty
  some document.entries

end NetDecl.Toml
