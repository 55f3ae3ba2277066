import Mathlib.Data.List.Forall2
import NetDecl.Proofs.Token.Ready

/-!
# The rows of a text

A row is a line of a text together with its words.  The tokens that a lexer hands out spell the rows
of the text in order: for each row its words and one boundary, after which the lexer knows the line.
Proofs about the reading of declarations use `Lexer.Reads` and never look into the lexer.
-/

namespace NetDecl

/-- A line of a text with its words. -/
structure Row where
  /-- The line. -/
  line : Line
  /-- The words of the line. -/
  words : List Word
deriving DecidableEq, Repr

namespace Row

/-- The rows of consecutive lines, the first of which has the given index and start. -/
def number (index start : Nat) : List RawLine → List Row
  | [] => []
  | raw :: rest =>
      ⟨⟨index, start, raw.content.length⟩, Text.words 0 raw.content⟩ ::
        number (index + 1) (start + raw.content.length + raw.lineBreak.length) rest

/-- The rows of a text. -/
def ofText (text : String) : List Row :=
  number 0 0 (Text.splitLines text.toList)

/-- The place where the line of a row ends. -/
def stop (row : Row) : Position :=
  ⟨row.line.index, row.line.length⟩

theorem ofText_ne_nil (text : String) : ofText text ≠ [] := by
  unfold ofText
  cases lines : Text.splitLines text.toList with
  | nil => exact absurd lines (Text.splitLines_ne_nil _)
  | cons raw rest => simp [number]

/-- Rows are numbered from the first on. -/
theorem drop_number {index start : Nat} {lines : List RawLine} {row : Row} {rest : List Row}
    (suffix : row :: rest <:+ number index start lines) :
    index ≤ row.line.index ∧
      (number index start lines).drop (row.line.index - index) = row :: rest := by
  induction lines generalizing index start with
  | nil => cases List.suffix_nil.1 suffix
  | cons raw lines ih =>
    rcases List.suffix_cons_iff.1 suffix with whole | behind
    · have same : row.line.index = index := by rw [(List.cons.inj whole).1]
      rw [same, Nat.sub_self]
      exact ⟨Nat.le_refl index, whole.symm⟩
    · obtain ⟨le, dropped⟩ := ih behind
      refine ⟨Nat.le_of_succ_le le, ?_⟩
      rw [show row.line.index - index = row.line.index - (index + 1) + 1 by omega, number,
        List.drop_succ_cons, dropped]

/-- The number of a row tells how many rows of the text are before it. -/
theorem drop_ofText {text : String} {row : Row} {rest : List Row}
    (suffix : row :: rest <:+ ofText text) : (ofText text).drop row.line.index = row :: rest :=
  (drop_number suffix).2

/-- Two rows of a text with the same number are one row, at one place among the rows. -/
theorem eq_of_index_eq {text : String} {row other : Row} {passed otherPassed rest otherRest : List Row}
    (split : ofText text = passed ++ row :: rest)
    (otherSplit : ofText text = otherPassed ++ other :: otherRest)
    (index : row.line.index = other.line.index) : passed = otherPassed ∧ row = other := by
  have dropped := drop_ofText ⟨passed, split.symm⟩
  rw [index, drop_ofText ⟨otherPassed, otherSplit.symm⟩] at dropped
  obtain ⟨rfl, rfl⟩ := List.cons.inj dropped
  exact ⟨List.append_cancel_right (split.symm.trans otherSplit), rfl⟩

theorem exists_mem_words_of_mem_number {row : Row} {index start : Nat} {lines : List RawLine}
    (mem : row ∈ number index start lines) : ∃ chars, row.words = Text.words 0 chars := by
  induction lines generalizing index start with
  | nil => cases mem
  | cons raw rest ih =>
    rcases List.mem_cons.1 mem with rfl | mem
    · exact ⟨raw.content, rfl⟩
    · exact ih mem

/-- The words of a text are not empty and hold no blanks. -/
theorem of_mem_words {text : String} {row : Row} {word : Word} (rowMem : row ∈ ofText text)
    (wordMem : word ∈ row.words) :
    word.text.toList ≠ [] ∧ ∀ char ∈ word.text.toList, Text.isBlank char = false := by
  obtain ⟨chars, equal⟩ := exists_mem_words_of_mem_number rowMem
  rw [equal] at wordMem
  exact Text.of_mem_words wordMem

end Row

/-- The token is the word, on the line with the given index. -/
structure Word.IsToken (index : Nat) (word : Word) (token : Token) : Prop where
  kind : token.kind = .word
  text : token.text = word.text
  position : token.position = ⟨index, word.column⟩
  length : token.length = word.text.length

/-- The token is the boundary at the end of the row; the text ends there if the row is the last. -/
structure Row.EndsWith (row : Row) (last : Bool) (token : Token) : Prop where
  kind : token.kind = if last then .textEnd else .lineEnd
  position : token.position = row.stop

namespace Lexer

/-- The tokens that the lexer is going to hand out spell the rows. -/
inductive Reads : Lexer → List Row → Prop where
  | nil {lexer : Lexer} : lexer.next? = none → Reads lexer []
  | cons {lexer next : Lexer} {tokens : List Token} {boundary : Token} {row : Row}
      {rows : List Row} :
      lexer.Pulls (tokens ++ [boundary]) next →
      List.Forall₂ (Word.IsToken row.line.index) row.words tokens →
      row.EndsWith rows.isEmpty boundary → next.Knows row.line → Reads next rows →
      Reads lexer (row :: rows)

/-- What is read depends on the next token alone. -/
theorem Reads.congr {lexer other : Lexer} {rows : List Row} (reads : other.Reads rows)
    (same : lexer.next? = other.next?) : lexer.Reads rows := by
  cases reads with
  | nil exhausted => exact .nil (same.trans exhausted)
  | @cons _ _ tokens _ _ _ pulls spelled ended knows rest =>
    refine .cons ?_ spelled ended knows rest
    cases tokens with
    | nil =>
      cases pulls with
      | cons found after => exact .cons (same.trans found) after
    | cons token tokens =>
      cases pulls with
      | cons found after => exact .cons (same.trans found) after

/-- A word in front of the first row. -/
theorem Reads.cons_word {lexer middle : Lexer} {token : Token} {word : Word} {row : Row}
    {rows : List Row} (found : lexer.next? = some (token, middle))
    (isToken : word.IsToken row.line.index token) (reads : middle.Reads (row :: rows)) :
    lexer.Reads ({ row with words := word :: row.words } :: rows) := by
  cases reads with
  | cons pulls spelled ended knows rest =>
    exact .cons (.cons found pulls) (.cons isToken spelled) ⟨ended.kind, ended.position⟩ knows rest

/-! ## From characters to rows -/

/-- The rows of the characters not yet read, the first of which may have been read in part. -/
def ahead (lexer : Lexer) : List Row :=
  match Text.splitLines lexer.rest with
  | [] => []
  | raw :: rest =>
      let column := lexer.offset - lexer.line.start
      ⟨⟨lexer.line.index, lexer.line.start, column + raw.content.length⟩,
        Text.words column raw.content⟩ ::
        Row.number (lexer.line.index + 1)
          (lexer.offset + raw.content.length + raw.lineBreak.length) rest

theorem ahead_start (text : String) : (start text).ahead = Row.ofText text := by
  unfold ahead Row.ofText
  cases lines : Text.splitLines (start text).rest with
  | nil => exact absurd lines (Text.splitLines_ne_nil _)
  | cons raw rest =>
    have same : Text.splitLines text.toList = raw :: rest := lines
    rw [same]
    simp [Row.number, start, Line.first]

/-- Passing characters within the line takes them from the first row. -/
theorem Ready.ahead_pass {lexer : Lexer} (ready : lexer.Ready) {taken rest : List Char}
    (split : lexer.rest = taken ++ rest)
    (notBreak : ∀ char ∈ taken, Text.isBreak char = false) :
    ∃ raw lines row rows, Text.splitLines rest = raw :: lines ∧
      (lexer.pass taken rest).ahead = row :: rows ∧ row.line.index = lexer.line.index ∧
      row.words = Text.words (lexer.offset - lexer.line.start + taken.length) raw.content ∧
      lexer.ahead =
        { row with
          words := Text.words (lexer.offset - lexer.line.start) (taken ++ raw.content) } ::
          rows := by
  have start_le := ready.start_le
  have passed : (lexer.pass taken rest).rest = rest := rfl
  have column : lexer.offset + taken.length - lexer.line.start =
      lexer.offset - lexer.line.start + taken.length := by omega
  unfold ahead
  rw [split, Text.splitLines_append notBreak, passed]
  cases found : Text.splitLines rest with
  | nil => exact absurd found (Text.splitLines_ne_nil _)
  | cons raw lines =>
    refine ⟨raw, lines, _, _, rfl, rfl, rfl, by simp only [Lexer.pass, column], ?_⟩
    simp only [List.modifyHead_cons, RawLine.prepend, List.length_append, Lexer.pass, column,
      Nat.add_assoc]

theorem Ready.ahead_skipBlanks {lexer : Lexer} (ready : lexer.Ready) :
    lexer.ahead = lexer.skipBlanks.ahead := by
  have taken : ∀ char ∈ lexer.rest.takeWhile Text.isInlineBlank,
      Text.isBlank char = true ∧ Text.isBreak char = false := fun char mem => by
    simpa [Text.isInlineBlank] using List.mem_takeWhile_imp mem
  obtain ⟨raw, lines, row, rows, -, passed, -, words, equal⟩ :=
    ready.ahead_pass List.takeWhile_append_dropWhile.symm fun char mem => (taken char mem).2
  rw [Text.words_append_of_isBlank fun char mem => (taken char mem).1, ← words] at equal
  exact equal.trans passed.symm

theorem isToken_word (lexer : Lexer) (run : List Char) :
    Word.IsToken lexer.line.index ⟨lexer.offset - lexer.line.start, String.ofList run⟩
      (lexer.token .word run) where
  kind := rfl
  text := rfl
  position := rfl
  length := by simp [Token.length, token]

/-- A lexer before a word reads the word, and then what it would read behind it. -/
theorem Ready.reads_word {lexer : Lexer} (ready : lexer.Ready) {run rest : List Char}
    (split : lexer.rest = run ++ rest) (nonempty : run ≠ [])
    (notBlank : ∀ char ∈ run, Text.isBlank char = false)
    (stopped : ∀ char ∈ rest.head?, Text.isBlank char = true)
    (behind : (lexer.pass run rest).Reads (lexer.pass run rest).ahead) :
    lexer.Reads lexer.ahead := by
  obtain ⟨next, found, same⟩ :=
    ready.exists_next?_of_eq_append split nonempty notBlank stopped
  obtain ⟨raw, lines, row, rows, lower, passed, index, words, equal⟩ :=
    ready.ahead_pass split fun other mem =>
      Text.isBreak_eq_false_of_isBlank_eq_false (notBlank other mem)
  have rowStopped : ∀ other ∈ raw.content.head?, Text.isBlank other = true := fun other mem =>
    stopped other (Text.head?_of_head?_content lower mem)
  have reads := behind.congr same
  rw [passed] at reads
  rw [equal, Text.words_append_of_not_isBlank nonempty notBlank _ rowStopped, ← words]
  apply reads.cons_word found
  rw [index]
  exact lexer.isToken_word run

theorem ahead_of_rest_eq_nil {lexer : Lexer} (empty : lexer.rest = []) :
    lexer.ahead = [⟨lexer.closedLine, []⟩] := by
  unfold ahead
  rw [empty]
  simp [Text.splitLines, Row.number, closedLine]

/-- A lexer at the end of the text reads the last row. -/
theorem Ready.reads_textEnd {lexer : Lexer} (ready : lexer.Ready) (empty : lexer.rest = []) :
    lexer.Reads lexer.ahead := by
  have pulls : lexer.Pulls ([] ++ [lexer.token .textEnd []])
      { lexer with line := lexer.closedLine, finished := true } :=
    .cons (ready.next?_of_rest_eq_nil empty) (.nil _)
  rw [ahead_of_rest_eq_nil empty]
  apply Reads.cons pulls .nil ⟨rfl, rfl⟩
  · exact .inr ⟨rfl, Nat.le_of_eq ready.closed, rfl⟩
  · apply Reads.nil
    simp [next?, ready.queued]

theorem ahead_of_splitBreak? {lexer : Lexer} {lineBreak rest : List Char}
    (split : Text.splitBreak? lexer.rest = some (lineBreak, rest)) :
    lexer.ahead = ⟨lexer.closedLine, []⟩ :: (lexer.nextLine lineBreak rest).ahead := by
  have passed : (lexer.nextLine lineBreak rest).rest = rest := rfl
  unfold ahead
  rw [Text.splitLines_of_splitBreak? split, passed]
  cases lower : Text.splitLines rest with
  | nil => exact absurd lower (Text.splitLines_ne_nil rest)
  | cons raw lines => simp [Row.number, closedLine, nextLine, pass]

theorem ahead_ne_nil (lexer : Lexer) : lexer.ahead ≠ [] := by
  unfold ahead
  cases lower : Text.splitLines lexer.rest with
  | nil => exact absurd lower (Text.splitLines_ne_nil _)
  | cons raw lines => exact List.cons_ne_nil _ _

/-- A lexer before a break reads the end of a row, and then the rows behind it. -/
theorem Ready.reads_lineEnd {lexer : Lexer} (ready : lexer.Ready)
    {lineBreak rest : List Char} (split : Text.splitBreak? lexer.rest = some (lineBreak, rest))
    (behind : (lexer.nextLine lineBreak rest).Reads (lexer.nextLine lineBreak rest).ahead) :
    lexer.Reads lexer.ahead := by
  rw [ahead_of_splitBreak? split]
  have pulls : lexer.Pulls ([] ++ [lexer.token .lineEnd lineBreak])
      (lexer.nextLine lineBreak rest) := .cons (ready.next?_of_splitBreak? split) (.nil _)
  have more := (lexer.nextLine lineBreak rest).ahead_ne_nil
  have last : (lexer.closed.push lexer.closedLine)[lexer.closed.size]? = some lexer.closedLine :=
    Array.getElem?_push_size
  apply Reads.cons pulls .nil
  · constructor
    · rw [List.isEmpty_eq_false_iff.2 more]
      rfl
    · rfl
  · left
    rwa [ready.closed] at last
  · exact behind

/-- A lexer reads the rows of the characters that it has not yet read. -/
theorem Ready.reads_ahead {lexer : Lexer} (ready : lexer.Ready) : lexer.Reads lexer.ahead := by
  refine ready.induction (motive := fun lexer => lexer.Reads lexer.ahead) ?textEnd ?lineEnd ?word
    ?blanks
  case textEnd => exact fun lexer ready empty => ready.reads_textEnd empty
  case lineEnd => exact fun lexer lineBreak rest ready split => ready.reads_lineEnd split
  case word =>
    intro lexer run rest ready split nonempty notBlank stopped
    exact ready.reads_word split nonempty notBlank stopped
  case blanks =>
    intro lexer ready behind
    rw [ready.ahead_skipBlanks]
    exact behind.congr ready.next?_skipBlanks

/-- The tokens of a text spell its rows. -/
theorem reads_start (text : String) : (start text).Reads (Row.ofText text) := by
  rw [← ahead_start]
  exact (ready_start text).reads_ahead

end Lexer

end NetDecl
