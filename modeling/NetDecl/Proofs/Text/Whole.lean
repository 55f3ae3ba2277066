import NetDecl.Proofs.Text.Extent

/-!
# Texts of whole lines

A text of whole lines is empty or ends in a line feed.  Its lines do not depend on the text behind
it, and that text is cut into lines as if it stood alone; its rows are only numbered from a later
line on.
-/

namespace NetDecl

open List (Forall₂)

namespace Text

/-- The text is empty or ends in a line feed. -/
def IsWhole (text : String) : Prop :=
  text = "" ∨ ∃ front : String, text = front ++ "\n"

/-- A break stays a break whatever follows, unless it is a carriage return at the end. -/
theorem splitBreak?_append {chars lineBreak rest : List Char}
    (split : splitBreak? chars = some (lineBreak, rest)) (closed : lineBreak = ['\r'] → rest ≠ [])
    (tail : List Char) : splitBreak? (chars ++ tail) = some (lineBreak, rest ++ tail) := by
  unfold splitBreak? at split
  split at split
  · cases split
    rfl
  · rename_i notLineFeed
    cases split
    rcases List.exists_cons_of_ne_nil (closed rfl) with ⟨next, others, rfl⟩
    rw [List.cons_append, List.cons_append, splitBreak?]
    intro after equal
    rw [(List.cons.inj equal).1] at notLineFeed
    exact notLineFeed others rfl
  · cases split
    rfl
  · cases split

/-- The lines up to a line feed do not depend on the text behind it. -/
theorem exists_splitLines_append_lineFeed (chars : List Char) :
    ∃ first front, front.length + 1 = breakCount (chars ++ ['\n']) ∧
      ∀ rest, splitLines (chars ++ '\n' :: rest) = first :: front ++ splitLines rest := by
  induction chars using break_induction with
  | nil =>
    refine ⟨⟨[], ['\n']⟩, [], rfl, fun rest => ?_⟩
    exact splitLines_of_splitBreak? rfl
  | lineBreak chars lineBreak rest split ih =>
    by_cases cut : lineBreak = ['\r'] ∧ rest = []
    · -- The carriage return at the end and the line feed are one break.
      rcases cut with ⟨rfl, rfl⟩
      have alone : chars = ['\r'] := append_of_splitBreak? split
      subst chars
      exact ⟨⟨[], ['\r', '\n']⟩, [], rfl, fun rest => splitLines_of_splitBreak? rfl⟩
    · have longer := splitBreak?_append split fun returned empty => cut ⟨returned, empty⟩
      rcases ih with ⟨first, front, count, lines⟩
      refine ⟨⟨[], lineBreak⟩, first :: front, ?_, fun tail => ?_⟩
      · rw [breakCount_of_splitBreak? (longer ['\n']), ← count, List.length_cons]
      · rw [splitLines_of_splitBreak? (longer ('\n' :: tail)), lines]
        rfl
  | cons char rest notBreak ih =>
    rcases ih with ⟨first, front, count, lines⟩
    refine ⟨first.push char, front, ?_, fun tail => ?_⟩
    · rw [List.cons_append, breakCount_cons notBreak, count]
    · rw [List.cons_append, splitLines_cons notBreak, lines]
      rfl

/-- A text of whole lines has as many lines as breaks, whatever follows. -/
theorem IsWhole.exists_splitLines_append {text : String} (whole : IsWhole text) :
    ∃ front, front.length = breakCount text.toList ∧
      ∀ rest, splitLines (text.toList ++ rest) = front ++ splitLines rest := by
  rcases whole with rfl | ⟨front, rfl⟩
  · exact ⟨[], rfl, fun _ => rfl⟩
  · rcases exists_splitLines_append_lineFeed front.toList with ⟨first, others, count, lines⟩
    refine ⟨first :: others, ?_, fun rest => ?_⟩
    · rw [String.toList_append]
      exact count
    · rw [String.toList_append, List.append_assoc]
      exact lines rest

end Text

namespace Row

/-! ## Rows of texts put together -/

/-- Rows are numbered one by one. -/
theorem exists_number_append (index start : Nat) (front : List RawLine) :
    ∃ middle, ∀ back, number index start (front ++ back) =
      number index start front ++ number (index + front.length) middle back := by
  induction front generalizing index start with
  | nil => exact ⟨start, fun _ => rfl⟩
  | cons raw front ih =>
    rcases ih (index + 1) (start + raw.content.length + raw.lineBreak.length) with ⟨middle, same⟩
    rw [Nat.add_right_comm index] at same
    exact ⟨middle, fun back => congrArg (List.cons _) (same back)⟩

theorem index_lt_of_mem_number {row : Row} {index start : Nat} {lines : List RawLine}
    (mem : row ∈ number index start lines) :
    index ≤ row.line.index ∧ row.line.index < index + lines.length := by
  induction lines generalizing index start with
  | nil => cases mem
  | cons raw lines ih =>
    rw [List.length_cons]
    rcases List.mem_cons.1 mem with rfl | behind
    · exact ⟨Nat.le_refl _, by dsimp only; omega⟩
    · have bounds := ih behind
      omega

/-- The rows of a text of whole lines come first, whatever follows. -/
theorem exists_ofText_append {front : String} (whole : Text.IsWhole front) :
    ∃ rows middle, (∀ row ∈ rows, row.line.index < Text.breakCount front.toList) ∧
      ∀ back : String, ofText (front ++ back) =
        rows ++ number (Text.breakCount front.toList) middle (Text.splitLines back.toList) := by
  rcases whole.exists_splitLines_append with ⟨lines, count, split⟩
  rcases exists_number_append 0 0 lines with ⟨middle, numbered⟩
  refine ⟨number 0 0 lines, middle, fun row mem => ?_, fun back => ?_⟩
  · have bounds := index_lt_of_mem_number mem
    omega
  · rw [ofText, String.toList_append, split, numbered, count, Nat.zero_add]

/-- The row of a line without breaks. -/
def ofLine (index start : Nat) (line : String) : Row :=
  ⟨⟨index, start, line.length⟩, Text.words 0 line.toList⟩

theorem words_ofLine (index start : Nat) (line : String) :
    (ofLine index start line).words = Text.words 0 line.toList :=
  rfl

/-- A line without breaks that a line feed ends is one row. -/
theorem number_line {line : String} (unbroken : ∀ char ∈ line.toList, Text.isBreak char = false)
    (index start : Nat) (back : String) :
    number index start (Text.splitLines (line ++ ("\n" ++ back)).toList) =
      ofLine index start line ::
        number (index + 1) (start + line.length + 1) (Text.splitLines back.toList) := by
  have chars : (line ++ ("\n" ++ back)).toList = line.toList ++ '\n' :: back.toList := by simp
  rw [chars, Text.splitLines_append_lineFeed unbroken, number]
  rfl

/-! ## Rows on other lines -/

/-- The second row has the words and the length of the first, and stands `count` lines further
down. -/
structure Moved (count : Nat) (row moved : Row) : Prop where
  index : moved.line.index = row.line.index + count
  length : moved.line.length = row.line.length
  words : moved.words = row.words

/-- Lines with the same contents, numbered from different lines on and ended by any breaks. -/
theorem forall₂_moved_number {lines others : List RawLine}
    (same : lines.map RawLine.content = others.map RawLine.content)
    (index count start otherStart : Nat) :
    Forall₂ (Moved count) (number index start lines) (number (index + count) otherStart others) := by
  induction lines generalizing others index start otherStart with
  | nil =>
    rw [List.map_nil, eq_comm, List.map_eq_nil_iff] at same
    rw [same]
    exact .nil
  | cons raw lines ih =>
    rw [List.map_cons, eq_comm, List.map_eq_cons_iff] at same
    rcases same with ⟨other, others, rfl, content, behind⟩
    rw [number, number, Nat.add_right_comm index count]
    refine .cons ⟨rfl, ?_, ?_⟩ (ih behind.symm _ _ _)
    · exact congrArg List.length content
    · exact congrArg (Text.words 0) content

end Row

end NetDecl
