import Mathlib.Data.List.TakeWhile
import NetDecl.Text.Blank

/-!
# Lines and words of a text

A text is cut into lines at its breaks, and a line into words: the maximal runs of characters that
are not blank.  Nothing is read lazily here.  The equations below say how the first characters of a
text bear on its lines, and those of a line on its words.
-/

namespace NetDecl

/-- A line of a text and the break at its end; the last line has none. -/
structure RawLine where
  /-- The characters before the break. -/
  content : List Char
  /-- The break. -/
  lineBreak : List Char
deriving DecidableEq, Repr

/-- A word of a line. -/
structure Word where
  /-- Characters before the word on its line. -/
  column : Nat
  /-- The characters of the word. -/
  text : String
deriving DecidableEq, Repr

namespace RawLine

/-- The line with one more character in front. -/
def push (char : Char) (line : RawLine) : RawLine :=
  { line with content := char :: line.content }

/-- The line with more characters in front. -/
def prepend (chars : List Char) (line : RawLine) : RawLine :=
  { line with content := chars ++ line.content }

end RawLine

namespace Text

/-- Cut a text into its lines. -/
def splitLines : List Char → List RawLine
  | [] => [⟨[], []⟩]
  | '\r' :: '\n' :: rest => ⟨[], ['\r', '\n']⟩ :: splitLines rest
  | '\r' :: rest => ⟨[], ['\r']⟩ :: splitLines rest
  | '\n' :: rest => ⟨[], ['\n']⟩ :: splitLines rest
  | char :: rest => (splitLines rest).modifyHead (RawLine.push char)

/-- The words among the characters of a line that follow `column` others. -/
def words (column : Nat) (chars : List Char) : List Word :=
  match chars with
  | [] => []
  | char :: rest =>
      if isBlank char then words (column + 1) rest
      else
        let run := char :: rest.takeWhile fun char => !isBlank char
        ⟨column, String.ofList run⟩ ::
          words (column + run.length) (rest.dropWhile fun char => !isBlank char)
termination_by chars.length
decreasing_by
  · exact Nat.lt_succ_self _
  · exact Nat.lt_succ_of_le (List.IsSuffix.length_le (List.dropWhile_suffix _))

/-- The text holds no blanks. -/
def Blankless (text : String) : Prop :=
  ∀ char ∈ text.toList, isBlank char = false

/-- The text can stand as a word: it holds no blanks and is not empty. -/
def IsWord (text : String) : Prop :=
  text.toList ≠ [] ∧ Blankless text

theorem all_not_isBlank_iff {text : String} :
    (text.toList.all fun char => !isBlank char) = true ↔ Blankless text := by
  simp [Blankless]

-- The instance goes through the characters of the text, not through all characters.
instance (text : String) : Decidable (Blankless text) :=
  decidable_of_iff _ all_not_isBlank_iff

instance (text : String) : Decidable (IsWord text) :=
  inferInstanceAs (Decidable (text.toList ≠ [] ∧ Blankless text))

/-! ## Lines -/

theorem splitLines_ne_nil (chars : List Char) : splitLines chars ≠ [] := by
  fun_induction splitLines chars with
  | case1 => simp
  | case2 => simp
  | case3 => simp
  | case4 => simp
  | case5 char rest _ _ _ ih =>
    intro empty
    exact ih (by simpa using empty)

theorem isBreak_of_splitBreak? {chars lineBreak rest : List Char} {char : Char}
    (split : splitBreak? chars = some (lineBreak, rest)) (head : chars.head? = some char) :
    isBreak char = true := by
  unfold splitBreak? at split
  split at split
  · cases head
    rfl
  · cases head
    rfl
  · cases head
    rfl
  · cases split

theorem isBreak_of_mem_splitBreak? {chars lineBreak rest : List Char}
    (split : splitBreak? chars = some (lineBreak, rest)) :
    ∀ char ∈ lineBreak, isBreak char = true := by
  unfold splitBreak? at split
  split at split <;> cases split <;> simp [isBreak]

theorem exists_splitBreak?_of_isBreak {char : Char} (broken : isBreak char = true)
    (rest : List Char) :
    ∃ lineBreak after, splitBreak? (char :: rest) = some (lineBreak, after) := by
  simp only [isBreak, Bool.or_eq_true, beq_iff_eq] at broken
  rcases broken with rfl | rfl
  · exact ⟨_, _, rfl⟩
  · unfold splitBreak?
    split <;> simp_all

/-- A break at the front of a text ends an empty line. -/
theorem splitLines_of_splitBreak? {chars lineBreak rest : List Char}
    (split : splitBreak? chars = some (lineBreak, rest)) :
    splitLines chars = ⟨[], lineBreak⟩ :: splitLines rest := by
  unfold splitBreak? at split
  split at split
  · cases split
    rfl
  · rename_i notLineFeed
    cases split
    rw [splitLines]
    exact notLineFeed
  · cases split
    rfl
  · cases split

/-- Any other character at the front of a text belongs to its first line. -/
theorem splitLines_cons {char : Char} (notBreak : isBreak char = false) (rest : List Char) :
    splitLines (char :: rest) = (splitLines rest).modifyHead (RawLine.push char) := by
  simp only [isBreak, Bool.or_eq_false_iff, beq_eq_false_iff_ne, ne_eq] at notBreak
  rw [splitLines]
  · exact fun _ equal => absurd equal notBreak.2
  · exact notBreak.2
  · exact notBreak.1

/-- Induction over a text, by a break at its front or by any other character there. -/
@[elab_as_elim]
theorem break_induction {motive : List Char → Prop} (chars : List Char) (nil : motive [])
    (lineBreak : ∀ chars lineBreak rest, splitBreak? chars = some (lineBreak, rest) →
      motive rest → motive chars)
    (cons : ∀ char rest, isBreak char = false → motive rest → motive (char :: rest)) :
    motive chars := by
  fun_induction splitLines chars with
  | case1 => exact nil
  | case2 rest ih => exact lineBreak _ _ rest rfl ih
  | case3 rest notLineFeed ih =>
    refine lineBreak _ ['\r'] rest ?_ ih
    rw [splitBreak?]
    exact notLineFeed
  | case4 rest ih => exact lineBreak _ _ rest rfl ih
  | case5 char rest _ notReturn notLineFeed ih =>
    have notBreak : isBreak char = false := by
      rw [isBreak, Bool.or_eq_false_iff, beq_eq_false_iff_ne, beq_eq_false_iff_ne]
      exact ⟨notLineFeed, notReturn⟩
    exact cons char rest notBreak ih

theorem splitLines_append {front : List Char} (notBreak : ∀ char ∈ front, isBreak char = false)
    (rest : List Char) :
    splitLines (front ++ rest) = (splitLines rest).modifyHead (RawLine.prepend front) := by
  induction front with
  | nil =>
    rw [List.nil_append]
    cases splitLines rest with
    | nil => rfl
    | cons line lines => rfl
  | cons char front ih =>
    rw [List.cons_append, splitLines_cons (notBreak char List.mem_cons_self),
      ih fun other mem => notBreak other (List.mem_cons_of_mem _ mem), List.modifyHead_modifyHead]
    rfl

/-- The characters up to a line feed are a line. -/
theorem splitLines_append_lineFeed {front : List Char}
    (notBreak : ∀ char ∈ front, isBreak char = false) (rest : List Char) :
    splitLines (front ++ '\n' :: rest) = ⟨front, ['\n']⟩ :: splitLines rest := by
  have behind : splitLines ('\n' :: rest) = ⟨[], ['\n']⟩ :: splitLines rest :=
    splitLines_of_splitBreak? rfl
  rw [splitLines_append notBreak, behind]
  simp [RawLine.prepend]

/-- What the first line begins with is what the text begins with. -/
theorem head?_of_head?_content {chars : List Char} {line : RawLine} {lines : List RawLine}
    (split : splitLines chars = line :: lines) {char : Char}
    (head : line.content.head? = some char) : chars.head? = some char := by
  cases chars with
  | nil =>
    cases split
    cases head
  | cons first rest =>
    cases broken : isBreak first with
    | true =>
      obtain ⟨lineBreak, after, found⟩ := exists_splitBreak?_of_isBreak broken rest
      rw [splitLines_of_splitBreak? found] at split
      cases split
      cases head
    | false =>
      rw [splitLines_cons broken] at split
      cases lower : splitLines rest with
      | nil => exact absurd lower (splitLines_ne_nil rest)
      | cons next others =>
        rw [lower] at split
        cases split
        exact head

/-! ## Words -/

theorem isBreak_eq_false_of_isBlank_eq_false {char : Char} (notBlank : isBlank char = false) :
    isBreak char = false := by
  cases broken : isBreak char with
  | false => rfl
  | true =>
    simp only [isBreak, Bool.or_eq_true, beq_iff_eq] at broken
    rcases broken with rfl | rfl
    · exact absurd notBlank (by decide)
    · exact absurd notBlank (by decide)

/-- There is no break among the characters of a word. -/
theorem isBreak_eq_false_of_mem_word {char : Char} {chars : List Char}
    (mem : char ∈ chars.takeWhile fun char => !isBlank char) : isBreak char = false := by
  apply isBreak_eq_false_of_isBlank_eq_false
  simpa using List.mem_takeWhile_imp mem

/-- There is no break among blanks within a line. -/
theorem isBreak_eq_false_of_mem_blanks {char : Char} {chars : List Char}
    (mem : char ∈ chars.takeWhile isInlineBlank) : isBreak char = false := by
  have inlineBlank : isInlineBlank char = true := List.mem_takeWhile_imp mem
  rw [isInlineBlank, Bool.and_eq_true] at inlineBlank
  simpa using inlineBlank.2

@[simp]
theorem words_nil (column : Nat) : words column [] = [] := by
  rw [words]

theorem words_cons_of_isBlank {char : Char} (blank : isBlank char = true) (column : Nat)
    (rest : List Char) : words column (char :: rest) = words (column + 1) rest := by
  rw [words, if_pos blank]

/-- Blanks in front of a line only move its words. -/
theorem words_append_of_isBlank {blanks : List Char} (blank : ∀ char ∈ blanks, isBlank char = true)
    (column : Nat) (rest : List Char) :
    words column (blanks ++ rest) = words (column + blanks.length) rest := by
  induction blanks generalizing column with
  | nil => rfl
  | cons char blanks ih =>
    rw [List.cons_append, words_cons_of_isBlank (blank char List.mem_cons_self),
      ih fun other mem => blank other (List.mem_cons_of_mem _ mem), List.length_cons]
    congr 1
    omega

/-- A run of characters that are not blank ends at the first blank behind it. -/
theorem takeWhile_not_isBlank {run rest : List Char}
    (notBlank : ∀ char ∈ run, isBlank char = false)
    (stopped : ∀ char ∈ rest.head?, isBlank char = true) :
    (run ++ rest).takeWhile (fun char => !isBlank char) = run ∧
      (run ++ rest).dropWhile (fun char => !isBlank char) = rest := by
  have all : ∀ char ∈ run, (!isBlank char) = true := fun char mem => by simp [notBlank char mem]
  rw [List.takeWhile_append_of_pos all, List.dropWhile_append_of_pos all]
  cases rest with
  | nil => simp
  | cons next rest => simp [stopped next rfl]

/-- A character that is not blank begins a run up to the first blank. -/
theorem exists_eq_append_of_not_isBlank {char : Char} (notBlank : isBlank char = false)
    (rest : List Char) :
    ∃ run after, char :: rest = run ++ after ∧ run ≠ [] ∧
      (∀ other ∈ run, isBlank other = false) ∧ ∀ other ∈ after.head?, isBlank other = true := by
  refine ⟨(char :: rest).takeWhile fun char => !isBlank char,
    (char :: rest).dropWhile fun char => !isBlank char, List.takeWhile_append_dropWhile.symm,
    ?_, ?_, ?_⟩
  · rw [List.takeWhile_cons_of_pos (by simp [notBlank])]
    exact List.cons_ne_nil _ _
  · intro other mem
    simpa using List.mem_takeWhile_imp mem
  · intro other mem
    have head := List.head?_dropWhile_not (fun char => !isBlank char) (char :: rest)
    rw [Option.mem_def.1 mem] at head
    simpa using head

/-- A run of characters that are not blank, up to a blank or the end of the line, is a word. -/
theorem words_append_of_not_isBlank {run : List Char} (nonempty : run ≠ [])
    (notBlank : ∀ char ∈ run, isBlank char = false) (column : Nat) {rest : List Char}
    (stopped : ∀ char ∈ rest.head?, isBlank char = true) :
    words column (run ++ rest) =
      ⟨column, String.ofList run⟩ :: words (column + run.length) rest := by
  obtain ⟨char, tail, rfl⟩ := List.exists_cons_of_ne_nil nonempty
  obtain ⟨taken, dropped⟩ := takeWhile_not_isBlank
    (fun other mem => notBlank other (List.mem_cons_of_mem _ mem)) stopped
  rw [List.cons_append, words, if_neg (by simp [notBlank char List.mem_cons_self])]
  simp only [taken, dropped]

/-- Words are not empty and hold no blanks. -/
theorem of_mem_words {word : Word} {column : Nat} {chars : List Char}
    (mem : word ∈ words column chars) :
    word.text.toList ≠ [] ∧ ∀ char ∈ word.text.toList, isBlank char = false := by
  fun_induction words column chars with
  | case1 => cases mem
  | case2 column char rest blank ih => exact ih mem
  | case3 column char rest notBlank run ih =>
    rcases List.mem_cons.1 mem with rfl | mem
    · constructor
      · simp [run]
      · intro other found
        rcases List.mem_cons.1 (by simpa using found : other ∈ run) with rfl | found
        · simpa using notBlank
        · simpa using List.mem_takeWhile_imp found
    · exact ih mem

end Text

end NetDecl
