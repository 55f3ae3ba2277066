/-!
# Blank characters and line breaks

Eight characters are blank: the space, the controls from tab to carriage return, next line and
no-break space.  Line feed and carriage return also break the line, and a carriage return directly
followed by a line feed is one break.
-/

namespace NetDecl.Text

/-- The characters that separate words. -/
def blanks : List Char :=
  [' ', '\t', '\n', '\x0b', '\x0c', '\r', '\u0085', '\u00a0']

/-- Whether a character separates words. -/
def isBlank (char : Char) : Bool :=
  blanks.contains char

/-- Whether a character ends its line. -/
def isBreak (char : Char) : Bool :=
  char == '\n' || char == '\r'

/-- Whether a character separates words within a line. -/
def isInlineBlank (char : Char) : Bool :=
  isBlank char && !isBreak char

/-- The line break at the front of a text, with the text after it. -/
def splitBreak? : List Char → Option (List Char × List Char)
  | '\r' :: '\n' :: rest => some (['\r', '\n'], rest)
  | '\r' :: rest => some (['\r'], rest)
  | '\n' :: rest => some (['\n'], rest)
  | _ => none

/-- A break that is split off and the remainder make up the text. -/
theorem append_of_splitBreak? {text lineBreak rest : List Char}
    (split : splitBreak? text = some (lineBreak, rest)) : text = lineBreak ++ rest := by
  unfold splitBreak? at split
  split at split <;> simp_all <;> simp [← split.1, ← split.2]

/-- A break is never empty. -/
theorem ne_nil_of_splitBreak? {text lineBreak rest : List Char}
    (split : splitBreak? text = some (lineBreak, rest)) : lineBreak ≠ [] := by
  unfold splitBreak? at split
  split at split <;> simp_all <;> simp [← split.1]

/-- Splitting a break off leaves a shorter text. -/
theorem length_lt_of_splitBreak? {text lineBreak rest : List Char}
    (split : splitBreak? text = some (lineBreak, rest)) : rest.length < text.length := by
  have nonempty := List.length_pos_iff.2 (ne_nil_of_splitBreak? split)
  rw [append_of_splitBreak? split, List.length_append]
  omega

end NetDecl.Text
