import NetDecl.Proofs.Text.Lines

/-!
# Texts with other line breaks

A line feed, a carriage return and the two together break lines alike.  Where the line feeds of a
text are replaced by other breaks, the lines have the contents that they had, as long as no carriage
return comes to stand in front of a line feed that has been left as it was.
-/

namespace NetDecl.Text

/-- The second text is the first with each line feed left as it is, replaced by a carriage return
and a line feed, or replaced by a carriage return that no line feed follows. -/
inductive Rebroken : List Char → List Char → Prop where
  | nil : Rebroken [] []
  | keep {char : Char} {rest other : List Char} :
      char ≠ '\n' → Rebroken rest other → Rebroken (char :: rest) (char :: other)
  | lineFeed {rest other : List Char} :
      Rebroken rest other → Rebroken ('\n' :: rest) ('\n' :: other)
  | both {rest other : List Char} :
      Rebroken rest other → Rebroken ('\n' :: rest) ('\r' :: '\n' :: other)
  | carriageReturn {rest other : List Char} :
      other.head? ≠ some '\n' → Rebroken rest other → Rebroken ('\n' :: rest) ('\r' :: other)

/-- A carriage return that no line feed follows is a break. -/
theorem splitBreak?_carriageReturn {rest : List Char} (alone : rest.head? ≠ some '\n') :
    splitBreak? ('\r' :: rest) = some (['\r'], rest) := by
  cases rest with
  | nil => rfl
  | cons next rest =>
    rw [splitBreak?]
    intro others equal
    rw [(List.cons.inj equal).1] at alone
    exact alone rfl

/-- A break at the front of a text ends a line without characters. -/
theorem map_content_of_splitBreak? {chars lineBreak rest : List Char}
    (split : splitBreak? chars = some (lineBreak, rest)) :
    (splitLines chars).map RawLine.content = [] :: (splitLines rest).map RawLine.content := by
  rw [splitLines_of_splitBreak? split]
  rfl

theorem map_content_lineFeed (rest : List Char) :
    (splitLines ('\n' :: rest)).map RawLine.content =
      [] :: (splitLines rest).map RawLine.content :=
  map_content_of_splitBreak? rfl

theorem map_content_cons {char : Char} (notBreak : isBreak char = false) (rest : List Char) :
    (splitLines (char :: rest)).map RawLine.content =
      ((splitLines rest).map RawLine.content).modifyHead (List.cons char) := by
  rw [splitLines_cons notBreak]
  cases splitLines rest <;> rfl

/-- The lines of a text have the same contents with other breaks. -/
theorem Rebroken.map_content_splitLines {chars others : List Char}
    (rebroken : Rebroken chars others) (plain : '\r' ∉ chars) :
    (splitLines others).map RawLine.content = (splitLines chars).map RawLine.content := by
  induction rebroken with
  | nil => rfl
  | @keep char rest other notLineFeed _ ih =>
    rw [List.mem_cons, not_or] at plain
    have notBreak : isBreak char = false := by
      simp [isBreak, notLineFeed, Ne.symm plain.1]
    rw [map_content_cons notBreak, map_content_cons notBreak, ih plain.2]
  | lineFeed _ ih =>
    rw [List.mem_cons, not_or] at plain
    rw [map_content_lineFeed, map_content_lineFeed, ih plain.2]
  | @both rest other _ ih =>
    rw [List.mem_cons, not_or] at plain
    have split : splitBreak? ('\r' :: '\n' :: other) = some (['\r', '\n'], other) := rfl
    rw [map_content_of_splitBreak? split, map_content_lineFeed, ih plain.2]
  | carriageReturn alone _ ih =>
    rw [List.mem_cons, not_or] at plain
    rw [map_content_of_splitBreak? (splitBreak?_carriageReturn alone), map_content_lineFeed,
      ih plain.2]

end NetDecl.Text
