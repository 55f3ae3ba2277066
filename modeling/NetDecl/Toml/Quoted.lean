import NetDecl.Text.Hexadecimal

/-!
# Strings in TOML

A string stands between double quotes, where a backslash begins an escape, or between single quotes,
where every character stands for itself.  Between three quotes on either side it may run over
several lines; one or two more quotes are then part of it, also right before the closing three.  A
line ends with a line feed here.
-/

namespace NetDecl.Toml

/-- Whether a character is a space or a tab. -/
def isSpace (char : Char) : Bool :=
  char == ' ' || char == '\t'

/-- Whether a character may stand in a string or a comment as itself. -/
def isPlain (char : Char) : Bool :=
  char == '\t' || (' ' ≤ char && char != '\x7f')

/-- The character that a letter after a backslash stands for. -/
def escaped? (letter : Char) : Option Char :=
  match letter with
  | 'b' => some '\x08'
  | 't' => some '\t'
  | 'n' => some '\n'
  | 'f' => some '\x0c'
  | 'r' => some '\r'
  | '"' => some '"'
  | '\\' => some '\\'
  | _ => none

/-- The character with the given number. -/
def unicode? (number : Nat) : Option Char :=
  if number.isValidChar then some (Char.ofNat number) else none

/-- Where a string between single or double quotes may run to. -/
inductive Extent where
  /-- To a quote on the same line. -/
  | line
  /-- To three quotes on any line. -/
  | lines
deriving DecidableEq, Repr

/-- The end of a string that a text begins with: the quotes that are still part of the string, two
at most, and the text after the closing ones. -/
def closing? (quote : Char) (extent : Extent) (text : List Char) :
    Option (List Char × List Char) :=
  let quotes := text.takeWhile (· == quote)
  match extent with
  | .line => if quotes = [] then none else some ([], text.drop 1)
  | .lines =>
      if quotes.length < 3 then none
      else
        let kept := (quotes.drop 3).take 2
        some (kept, text.drop (kept.length + 3))

/-- Whether a character other than a backslash may stand for itself. -/
def mayStand (quote : Char) (extent : Extent) (char : Char) : Bool :=
  match extent with
  | .line => isPlain char && char != quote
  | .lines => isPlain char || char == '\n'

/-- What has been read of an escape. -/
inductive Escape where
  /-- No escape has begun. -/
  | none
  /-- The backslash. -/
  | begun
  /-- The letter for a number and some digits: how many are still to come, and the number so far. -/
  | numbered (left value : Nat)
  /-- The backslash and spaces, after which the line has to end. -/
  | ending
  /-- A backslash at the end of a line: the blanks and the empty lines after it do not count. -/
  | leading
deriving DecidableEq, Repr

/-- Put a character in front of a string that has been read. -/
def push (char : Char) (found : Option (List Char × List Char)) : Option (List Char × List Char) :=
  found.map fun (text, rest) => (char :: text, rest)

/-- Read a string between double quotes, after the opening ones. -/
def readBasic? (extent : Extent) : Escape → List Char → Option (List Char × List Char)
  | _, [] => none
  | .begun, char :: rest =>
      if char = 'u' then readBasic? extent (.numbered 4 0) rest
      else if char = 'U' then readBasic? extent (.numbered 8 0) rest
      else
        match escaped? char with
        | some char => push char (readBasic? extent .none rest)
        | none =>
            if extent = .line then none
            else if char = '\n' then readBasic? extent .leading rest
            else if isSpace char then readBasic? extent .ending rest
            else none
  | .numbered left value, char :: rest => do
      let digit ← Text.hexDigit? char
      let value := value * 16 + digit
      if left ≤ 1 then push (← unicode? value) (readBasic? extent .none rest)
      else readBasic? extent (.numbered (left - 1) value) rest
  | .ending, char :: rest =>
      if char = '\n' then readBasic? extent .leading rest
      else if isSpace char then readBasic? extent .ending rest
      else none
  | state, char :: rest =>
      if state = .leading ∧ (char = '\n' ∨ isSpace char) then readBasic? extent .leading rest
      else if char = '\\' then readBasic? extent .begun rest
      else
        match closing? '"' extent (char :: rest) with
        | some found => some found
        | none =>
            if mayStand '"' extent char then push char (readBasic? extent .none rest) else none

/-- Read a string between single quotes, after the opening ones. -/
def readLiteral? (extent : Extent) : List Char → Option (List Char × List Char)
  | [] => none
  | char :: rest =>
      match closing? '\x27' extent (char :: rest) with
      | some found => some found
      | none => if mayStand '\x27' extent char then push char (readLiteral? extent rest) else none

/-- Read a string that stays on its line. -/
def readString? : List Char → Option (String × List Char)
  | '"' :: rest =>
      (readBasic? .line .none rest).map fun (text, rest) => (String.ofList text, rest)
  | '\x27' :: rest =>
      (readLiteral? .line rest).map fun (text, rest) => (String.ofList text, rest)
  | _ => none

/-- The text without a line end at its front. -/
def dropLineEnd : List Char → List Char
  | '\n' :: text => text
  | text => text

/-- Read a string.  A line end right after three opening quotes is not part of it. -/
def readText? : List Char → Option (String × List Char)
  | '"' :: '"' :: '"' :: rest =>
      (readBasic? .lines .none (dropLineEnd rest)).map fun (text, rest) =>
        (String.ofList text, rest)
  | '\x27' :: '\x27' :: '\x27' :: rest =>
      (readLiteral? .lines (dropLineEnd rest)).map fun (text, rest) => (String.ofList text, rest)
  | text => readString? text

end NetDecl.Toml
