import NetDecl.Proofs.Token.Rows

/-!
# Texts written line by line

A text is written from lines of words, with a space between words and a line feed behind each line.
Its rows are those lines and an empty row at the end.
-/

namespace NetDecl

/-- The words of a line that is written from `column` on. -/
def Word.place (column : Nat) : List String → List Word
  | [] => []
  | text :: texts => ⟨column, text⟩ :: place (column + text.length + 1) texts

namespace Text

/-- The words with a space between them. -/
def line (words : List String) : String :=
  " ".intercalate words

/-- The lines with a line feed behind each. -/
def write (lines : List (List String)) : String :=
  String.join (lines.map fun words => line words ++ "\n")

theorem toList_line_cons {word : String} {words : List String} (more : words ≠ []) :
    (line (word :: words)).toList = word.toList ++ ' ' :: (line words).toList := by
  obtain ⟨next, rest, rfl⟩ := List.exists_cons_of_ne_nil more
  simp [line]

theorem isBreak_of_mem_line {words : List String} (areWords : ∀ word ∈ words, IsWord word) :
    ∀ char ∈ (line words).toList, isBreak char = false := by
  induction words with
  | nil =>
    intro char mem
    cases mem
  | cons word words ih =>
    obtain ⟨isWord, others⟩ := List.forall_mem_cons.1 areWords
    have first : ∀ char ∈ word.toList, isBreak char = false :=
      fun char mem => isBreak_eq_false_of_isBlank_eq_false (isWord.2 char mem)
    by_cases last : words = []
    · subst words
      simpa [line] using first
    · intro char mem
      rw [toList_line_cons last, List.mem_append, List.mem_cons] at mem
      rcases mem with front | rfl | behind
      · exact first char front
      · rfl
      · exact ih others char behind

/-- The words of a line stand where they have been written. -/
theorem words_line {words : List String} (areWords : ∀ word ∈ words, IsWord word) (column : Nat) :
    Text.words column (line words).toList = Word.place column words := by
  induction words generalizing column with
  | nil => exact words_nil column
  | cons word words ih =>
    obtain ⟨isWord, others⟩ := List.forall_mem_cons.1 areWords
    by_cases last : words = []
    · subst words
      have stopped : ∀ char ∈ ([] : List Char).head?, isBlank char = true := by simp
      have alone := words_append_of_not_isBlank isWord.1 isWord.2 column stopped
      simpa [line, Word.place] using alone
    · have stopped : ∀ char ∈ (' ' :: (line words).toList).head?, isBlank char = true := by
        intro char mem
        cases mem
        rfl
      rw [toList_line_cons last, words_append_of_not_isBlank isWord.1 isWord.2 column stopped,
        words_cons_of_isBlank rfl, ih others, String.ofList_toList, String.length_toList]
      rfl

theorem toList_write_cons (words : List String) (lines : List (List String)) :
    (write (words :: lines)).toList = (line words).toList ++ '\n' :: (write lines).toList := by
  simp [write]

/-- A text is cut into the lines that it has been written from. -/
theorem splitLines_write {lines : List (List String)}
    (areWords : ∀ words ∈ lines, ∀ word ∈ words, IsWord word) :
    splitLines (write lines).toList =
      (lines.map fun words => ⟨(line words).toList, ['\n']⟩) ++ [⟨[], []⟩] := by
  induction lines with
  | nil => rfl
  | cons words lines ih =>
    obtain ⟨first, others⟩ := List.forall_mem_cons.1 areWords
    rw [toList_write_cons, splitLines_append_lineFeed (isBreak_of_mem_line first), ih others]
    rfl

end Text

namespace Row

/-- The rows of lines that are written from a place on. -/
def written (index start : Nat) : List (List String) → List Row
  | [] => []
  | words :: lines =>
      ⟨⟨index, start, (Text.line words).length⟩, Word.place 0 words⟩ ::
        written (index + 1) (start + (Text.line words).length + 1) lines

theorem exists_written_append (index start : Nat) (front back : List (List String)) :
    ∃ middle, written index start (front ++ back) =
      written index start front ++ written (index + front.length) middle back := by
  induction front generalizing index start with
  | nil => exact ⟨start, rfl⟩
  | cons words front ih =>
    obtain ⟨middle, same⟩ := ih (index + 1) (start + (Text.line words).length + 1)
    rw [Nat.add_right_comm index] at same
    exact ⟨middle, congrArg (List.cons _) same⟩

theorem exists_number_eq_written {lines : List (List String)}
    (areWords : ∀ words ∈ lines, ∀ word ∈ words, Text.IsWord word) (index start : Nat) :
    ∃ stop, number index start
        ((lines.map fun words => ⟨(Text.line words).toList, ['\n']⟩) ++ [⟨[], []⟩]) =
      written index start lines ++ [⟨⟨index + lines.length, stop, 0⟩, []⟩] := by
  induction lines generalizing index start with
  | nil => exact ⟨start, by simp [number, written]⟩
  | cons words lines ih =>
    obtain ⟨first, others⟩ := List.forall_mem_cons.1 areWords
    obtain ⟨stop, same⟩ := ih others (index + 1) (start + (Text.line words).length + 1)
    rw [Nat.add_right_comm index] at same
    apply Exists.intro stop
    rw [List.map_cons, List.cons_append, number, Text.words_line first]
    exact congrArg (List.cons _) same

/-- The rows of a text are the lines that it has been written from, and an empty one. -/
theorem exists_ofText_write {lines : List (List String)}
    (areWords : ∀ words ∈ lines, ∀ word ∈ words, Text.IsWord word) :
    ∃ stop, ofText (Text.write lines) =
      written 0 0 lines ++ [⟨⟨lines.length, stop, 0⟩, []⟩] := by
  have rows := exists_number_eq_written areWords 0 0
  rwa [← Text.splitLines_write areWords, Nat.zero_add] at rows

end Row

end NetDecl
