import NetDecl.Text.Blank
import NetDecl.Text.Bytes
import NetDecl.Token

/-!
# Reading tokens

The lexer hands out one token at a time and reads no further than it must.  A word is read together
with the line end that directly follows it, which then waits in a queue; so that line is closed, and
its length known, as soon as the word is handed out.

Each token handed out lowers `Lexer.pending`, so reading ends.
-/

namespace NetDecl

/-- What has been read of a text, and what is left of it. -/
structure Lexer where
  /-- The characters not yet read. -/
  rest : List Char
  /-- How many characters have been read. -/
  offset : Nat
  /-- How many bytes have been read. -/
  byteOffset : Nat
  /-- The line being read. -/
  line : Line
  /-- The lines before it, in order. -/
  closed : Array Line
  /-- The line end that has been read but not handed out. -/
  queued : Option Token
  /-- Whether the end of the text has been read. -/
  finished : Bool
deriving DecidableEq, Repr

namespace Lexer

/-- A lexer at the start of a text. -/
def start (text : String) : Lexer where
  rest := text.toList
  offset := 0
  byteOffset := 0
  line := Line.first
  closed := #[]
  queued := none
  finished := false

/-- The line with the given index; an index beyond the closed lines names the line being read. -/
def lineAt (lexer : Lexer) (index : Nat) : Line :=
  lexer.closed[index]?.getD lexer.line

/-- Move on past `taken`, leaving `rest`. -/
def pass (lexer : Lexer) (taken rest : List Char) : Lexer :=
  { lexer with
    rest
    offset := lexer.offset + taken.length
    byteOffset := lexer.byteOffset + Text.byteLength taken }

/-- The token of the next characters `taken`. -/
def token (lexer : Lexer) (kind : Token.Kind) (taken : List Char) : Token where
  kind
  text := String.ofList taken
  line := lexer.line.index
  lineStart := lexer.line.start
  start := lexer.offset
  stop := lexer.offset + taken.length
  byteStart := lexer.byteOffset
  byteStop := lexer.byteOffset + Text.byteLength taken

/-- The line being read, ending here. -/
def closedLine (lexer : Lexer) : Line :=
  { lexer.line with length := lexer.offset - lexer.line.start }

/-- Move on past the blanks within the line. -/
def skipBlanks (lexer : Lexer) : Lexer :=
  lexer.pass (lexer.rest.takeWhile Text.isInlineBlank) (lexer.rest.dropWhile Text.isInlineBlank)

/-- Read the end of the line, if it comes next. -/
def lineEnd? (lexer : Lexer) : Option (Token × Lexer) :=
  match lexer.rest with
  | [] => some (lexer.token .textEnd [], { lexer with line := lexer.closedLine, finished := true })
  | text =>
      (Text.splitBreak? text).map fun (lineBreak, rest) =>
        let next := lexer.pass lineBreak rest
        (lexer.token .lineEnd lineBreak,
          { next with
            line := ⟨lexer.line.index + 1, next.offset, 0⟩
            closed := lexer.closed.push lexer.closedLine })

/-- Read the next characters up to a blank as a word, and a line end that directly follows. -/
def word (lexer : Lexer) : Token × Lexer :=
  let characters := lexer.rest.takeWhile fun char => !Text.isBlank char
  let next := lexer.pass characters (lexer.rest.dropWhile fun char => !Text.isBlank char)
  let token := lexer.token .word characters
  match next.lineEnd? with
  | some (lineEnd, next) => (token, { next with queued := some lineEnd })
  | none => (token, next)

/-- Read the next token, skipping blanks within the line. -/
def scan (lexer : Lexer) : Token × Lexer :=
  let lexer := lexer.skipBlanks
  match lexer.lineEnd? with
  | some found => found
  | none => lexer.word

/-- The next token, unless the end of the text has been handed out. -/
def next? (lexer : Lexer) : Option (Token × Lexer) :=
  match lexer.queued with
  | some token => some (token, { lexer with queued := none })
  | none => if lexer.finished then none else some lexer.scan

/-- A bound on the number of tokens still to come. -/
def pending (lexer : Lexer) : Nat :=
  (if lexer.finished then 0 else 2 * lexer.rest.length + 2) + lexer.queued.toList.length

theorem length_skipBlanks_le (lexer : Lexer) :
    lexer.skipBlanks.rest.length ≤ lexer.rest.length :=
  List.IsSuffix.length_le (List.dropWhile_suffix _)

/-- Reading a line end shortens what is left, or finishes the text. -/
theorem finished_or_length_lt_of_lineEnd? {lexer next : Lexer} {token : Token}
    (found : lexer.lineEnd? = some (token, next)) :
    next.queued = lexer.queued ∧ (next.finished = true ∨ next.rest.length < lexer.rest.length) := by
  unfold lineEnd? at found
  split at found
  · cases found
    simp
  · obtain ⟨⟨lineBreak, rest⟩, split, equal⟩ := Option.map_eq_some_iff.1 found
    cases equal
    exact ⟨rfl, .inr (Text.length_lt_of_splitBreak? split)⟩

/-- Where blanks have been skipped and no line end comes next, a character that is not blank does.
-/
theorem exists_rest_of_lineEnd?_eq_none {lexer : Lexer}
    (noEnd : lexer.skipBlanks.lineEnd? = none) :
    ∃ char rest, lexer.skipBlanks.rest = char :: rest ∧ Text.isBlank char = false := by
  have head := List.head?_dropWhile_not Text.isInlineBlank lexer.rest
  have skipped : lexer.rest.dropWhile Text.isInlineBlank = lexer.skipBlanks.rest := rfl
  rw [skipped] at head
  unfold lineEnd? at noEnd
  split at noEnd
  · cases noEnd
  · rename_i text nonempty
    cases equal : lexer.skipBlanks.rest with
    | nil => exact absurd equal nonempty
    | cons char rest =>
      refine ⟨char, rest, rfl, ?_⟩
      have unbroken := Option.map_eq_none_iff.1 noEnd
      rw [equal] at unbroken head
      simp only [List.head?_cons, Text.isInlineBlank] at head
      have notBreak : Text.isBreak char = false := by
        unfold Text.splitBreak? at unbroken
        split at unbroken <;> simp_all [Text.isBreak]
      simpa [notBreak] using head

theorem pending_word_lt {lexer : Lexer} {char : Char} {rest : List Char}
    (equal : lexer.rest = char :: rest) (notBlank : Text.isBlank char = false)
    (unqueued : lexer.queued = none) (unfinished : lexer.finished = false) :
    lexer.word.2.pending < lexer.pending := by
  have shorter :
      (lexer.rest.dropWhile fun char => !Text.isBlank char).length < lexer.rest.length := by
    rw [equal, List.dropWhile_cons_of_pos (by simp [notBlank]), List.length_cons]
    exact Nat.lt_succ_of_le (List.IsSuffix.length_le (List.dropWhile_suffix _))
  unfold word
  dsimp only
  split
  · rename_i lineEnd next found
    obtain ⟨-, finished | shorterNext⟩ := finished_or_length_lt_of_lineEnd? found
    · simp only [pending, finished, unfinished]
      simp
      omega
    · simp only [pass] at shorterNext
      simp only [pending, unfinished, Option.toList_some, List.length_singleton]
      split <;> simp <;> omega
  · simp only [pending, pass, unfinished, unqueued]
    simp
    omega

theorem pending_scan_lt {lexer : Lexer} (unqueued : lexer.queued = none)
    (unfinished : lexer.finished = false) : lexer.scan.2.pending < lexer.pending := by
  have skipped := length_skipBlanks_le lexer
  have le : lexer.skipBlanks.pending ≤ lexer.pending := by
    simp only [pending, skipBlanks, pass, unfinished] at skipped ⊢
    simp
    omega
  refine Nat.lt_of_lt_of_le ?_ le
  unfold scan
  dsimp only
  split
  · rename_i found lineEnd
    obtain ⟨token, next⟩ := found
    obtain ⟨queued, finished | shorter⟩ := finished_or_length_lt_of_lineEnd? lineEnd
    · simp [pending, finished, queued, unfinished, skipBlanks, pass]
    · simp only [pending, queued, unfinished, skipBlanks, pass] at shorter ⊢
      split
      · simp
      · simp
        omega
  · rename_i noEnd
    obtain ⟨char, rest, equal, notBlank⟩ := exists_rest_of_lineEnd?_eq_none noEnd
    exact pending_word_lt equal notBlank unqueued unfinished

/-- Every token handed out leaves fewer to come. -/
theorem pending_lt_of_next? {lexer next : Lexer} {token : Token}
    (found : lexer.next? = some (token, next)) : next.pending < lexer.pending := by
  unfold next? at found
  split at found
  · rename_i queued
    cases found
    simp [pending, queued]
  · rename_i unqueued
    split at found
    · cases found
    · rename_i unfinished
      have equal : lexer.scan = (token, next) := Option.some.inj found
      simpa [equal] using pending_scan_lt unqueued (by simpa using unfinished)

/-- All tokens still to come. -/
def tokens (lexer : Lexer) : List Token :=
  match _found : lexer.next? with
  | some (token, next) => token :: next.tokens
  | none => []
termination_by lexer.pending
decreasing_by exact pending_lt_of_next? _found

end Lexer

/-- The tokens of a text. -/
def tokenize (text : String) : List Token :=
  (Lexer.start text).tokens

end NetDecl
