import NetDecl.Text.Hidden

/-!
# Quoting text in messages

A message shows a text between double quotes, such that every character of it can be told.
Quotes, backslashes and the commonest controls are escaped by a letter, other characters that
cannot be shown by their number.
-/

namespace NetDecl.Text

/-- How a character is shown between quotes. -/
def quote (char : Char) : List Char :=
  if char = '\x00' then ['\\', '0']
  else if char = '\t' then ['\\', 't']
  else if char = '\n' then ['\\', 'n']
  else if char = '\r' then ['\\', 'r']
  else if char = '"' then ['\\', '"']
  else if char = '\\' then ['\\', '\\']
  else if isHidden char then
    ['\\', 'u', '\x7b'] ++ Nat.toDigits 16 char.toNat ++ ['\x7d']
  else [char]

/-- A text between quotes. -/
def quoted (text : String) : String :=
  String.ofList ('"' :: text.toList.flatMap quote ++ ['"'])

end NetDecl.Text
