import Mathlib.Algebra.Group.Nat.Defs
import NetDecl.Proofs.Compile.Anchored
import NetDecl.Proofs.Token.Placed

/-!
# Coordinates

The coordinates of a token are those of its characters: counted in characters and in bytes from the
start of the text, and in characters from the start of a line whose number is that of the breaks
before it.  None of them is beyond the end of the text.  So for texts of fewer than 2 ^ 63 bytes no
difference of coordinates is taken the wrong way around, and the words of a machine hold all sums,
those of the places that people are shown among them.
-/

namespace NetDecl

namespace Text

theorem breakCount_le_length (chars : List Char) : breakCount chars ≤ chars.length := by
  induction chars using break_induction with
  | nil => exact Nat.le_refl 0
  | lineBreak chars lineBreak rest split ih =>
    rw [breakCount_of_splitBreak? split]
    exact Nat.le_trans (Nat.succ_le_succ ih) (length_lt_of_splitBreak? split)
  | cons char rest notBreak ih =>
    rw [breakCount_cons notBreak]
    exact Nat.le_succ_of_le ih

/-- A line is no longer than the text. -/
theorem length_content_le {chars : List Char} {raw : RawLine} (mem : raw ∈ splitLines chars) :
    raw.content.length ≤ chars.length := by
  induction chars using break_induction generalizing raw with
  | nil =>
    rw [List.mem_singleton.1 mem]
  | lineBreak chars lineBreak rest split ih =>
    rw [splitLines_of_splitBreak? split] at mem
    rcases List.mem_cons.1 mem with rfl | mem
    · exact Nat.zero_le _
    · exact Nat.le_trans (ih mem) (Nat.le_of_lt (length_lt_of_splitBreak? split))
  | cons char rest notBreak ih =>
    rw [splitLines_cons notBreak] at mem
    cases lines : splitLines rest with
    | nil => exact absurd lines (splitLines_ne_nil rest)
    | cons first others =>
      rw [lines] at mem ih
      rcases List.mem_cons.1 mem with rfl | mem
      · exact Nat.succ_le_succ (ih List.mem_cons_self)
      · exact Nat.le_succ_of_le (ih (List.mem_cons_of_mem _ mem))

end Text

/-! ## Tokens -/

/-- The coordinates of a token are those of its characters in the text, and those of the line that
it begins on. -/
structure Token.Located (token : Token) (text : String) : Prop where
  lineStart_le : token.lineStart ≤ token.start
  start_le : token.start ≤ token.stop
  stop_le : token.stop ≤ text.length
  byteStart_le : token.byteStart ≤ token.byteStop
  byteStop_le : token.byteStop ≤ text.utf8ByteSize
  byteStart : token.byteStart = Text.byteLength (text.toList.take token.start)
  byteStop : token.byteStop = Text.byteLength (text.toList.take token.stop)
  slice : Text.slice? text token.byteStart token.byteStop = some token.text
  characters : token.text.toList = (text.toList.take token.stop).drop token.start
  empty : token.text = "" ↔ token.kind = .textEnd
  line : token.line = (Text.breaksUpTo text.toList token.start).length
  lineStart : token.lineStart = (Text.breaksUpTo text.toList token.start).getLastD 0
  word : token.kind = .word → 1 ≤ token.length
  textEnd : token.kind = .textEnd → token.start = text.length ∧ token.stop = text.length

namespace Token

/-- Only the end of the text is a piece without characters. -/
theorem Kind.Fits.eq_nil_iff {kind : Kind} {front taken back : List Char}
    (fits : kind.Fits front taken back) : taken = [] ↔ kind = .textEnd := by
  cases kind with
  | word =>
    constructor
    · exact fun empty => absurd empty fits.nonempty
    · exact fun isEnd => nomatch isEnd
  | lineEnd =>
    constructor
    · rintro rfl
      cases fits
    · exact fun isEnd => nomatch isEnd
  | textEnd => exact ⟨fun _ => rfl, fun _ => fits.1⟩

theorem placed_of_mem {text : String} {token : Token} (mem : token ∈ tokenize text) :
    token.Placed text.toList := by
  rcases List.mem_iff_getElem?.1 mem with ⟨calls, found⟩
  have pulled : (Lexer.advance^[calls] (Lexer.start text)).next?.map Prod.fst = some token :=
    ((Lexer.start text).next?_iterate_advance calls).trans found
  rcases Option.map_eq_some_iff.1 pulled with ⟨⟨first, next⟩, next?, rfl⟩
  exact (((Lexer.tracks_start text).iterate_advance calls).next? next?).1

theorem located_of_mem {text : String} {token : Token} (mem : token ∈ tokenize text) :
    token.Located text := by
  rcases (tiles_tokenize text).fits_of_mem token mem with ⟨front, taken, back, whole, spans, fits⟩
  rw [List.nil_append] at spans fits
  rcases placed_of_mem mem with ⟨line, lineStart⟩
  have stop : token.stop = front.length + taken.length := by
    rw [spans.stop, List.length_append]
  have takenStart : text.toList.take token.start = front := by
    rw [whole, spans.start, List.take_left]
  have takenStop : text.toList.take token.stop = front ++ taken := by
    rw [whole, spans.stop, ← List.append_assoc, List.take_left]
  have length : text.length = front.length + taken.length + back.length := by
    rw [← String.length_toList, whole, List.length_append, List.length_append, Nat.add_assoc]
  have empty : token.text = "" ↔ taken = [] := by
    rw [spans.text, ← String.toList_inj, String.toList_ofList]
    rfl
  constructor
  case lineStart_le =>
    rw [lineStart]
    exact Text.getLastD_breaksUpTo_le _ _
  case start_le =>
    rw [stop, spans.start]
    exact Nat.le_add_right _ _
  case stop_le =>
    rw [stop, length]
    exact Nat.le_add_right _ _
  case byteStart_le =>
    rw [spans.byteStart, spans.byteStop, Text.byteLength_append]
    exact Nat.le_add_right _ _
  case byteStop_le =>
    rw [spans.byteStop, ← Text.byteLength_toList, whole, ← List.append_assoc,
      Text.byteLength_append (front ++ taken)]
    exact Nat.le_add_right _ _
  case byteStart => rw [takenStart, spans.byteStart]
  case byteStop => rw [takenStop, spans.byteStop]
  case slice => exact spans.slice?_eq whole
  case characters =>
    rw [takenStop, spans.start, List.drop_left, spans.text, String.toList_ofList]
  case empty => exact empty.trans fits.eq_nil_iff
  case line => exact line
  case lineStart => exact lineStart
  case word =>
    intro isWord
    have nonempty : taken ≠ [] := by
      intro none
      rw [fits.eq_nil_iff.1 none] at isWord
      cases isWord
    rw [Token.length, stop, spans.start, Nat.add_sub_cancel_left]
    exact List.length_pos_iff.2 nonempty
  case textEnd =>
    intro isEnd
    rw [isEnd] at fits
    rcases fits with ⟨rfl, rfl⟩
    rw [length, stop, spans.start]
    exact ⟨rfl, rfl⟩

end Token

/-! ## Diagnostics -/

/-- No diagnostic points beyond the end of the text. -/
theorem position_le_length {options : Options} {text : String} {diagnostic : Diagnostic}
    (mem : diagnostic ∈ (compile options text).diagnostics) :
    diagnostic.position.line ≤ text.length ∧ diagnostic.position.column ≤ text.length := by
  rw [← String.length_toList]
  have lines : ∀ {row : Row}, row ∈ Row.ofText text → row.line.index ≤ text.toList.length := by
    intro row rowMem
    rcases Row.exists_line_of_mem_ofText rowMem with ⟨raw, found, -, -⟩
    rcases Text.exists_splitLines_eq_append text.toList with ⟨front, last, split, count, -, -⟩
    rcases List.getElem?_eq_some_iff.1 found with ⟨lt, -⟩
    rw [split, List.length_append, List.length_singleton, count] at lt
    exact Nat.le_trans (Nat.le_of_lt_succ lt) (Text.breakCount_le_length _)
  rcases isSuccess_or_isAbout_compile mem with rfl | about
  · exact ⟨Text.breakCount_le_length _, Text.length_lastLine_le _⟩
  cases about with
  | @word row word issue rowMem wordMem _ equal =>
    subst equal
    refine ⟨lines rowMem, ?_⟩
    rcases Row.exists_line_of_mem_ofText rowMem with ⟨raw, found, -, words⟩
    rw [words] at wordMem
    rcases Text.exists_isRun_of_mem_words wordMem with ⟨front, back, split, place, -⟩
    have column : word.column ≤ raw.content.length := by
      rw [place, split, List.length_append, Nat.zero_add]
      exact Nat.le_add_right _ _
    exact Nat.le_trans column (Text.length_content_le (List.mem_of_getElem? found))
  | line rowMem _ equal =>
    subst equal
    exact ⟨lines rowMem, Nat.zero_le _⟩

/-! ## Machine words -/

/-- The tokens of a text have the coordinates of their characters, and all that is counted while the
text is read fits into machine words. -/
structure CoordinatesFit (text : String) : Prop where
  /-- Call after call the lexer hands out the tokens of the text. -/
  calls : ∀ calls, (Lexer.advance^[calls] (Lexer.start text)).next?.map Prod.fst =
    (tokenize text)[calls]?
  tokens : ∀ token ∈ tokenize text, token.Located text ∧
    token.stop < UInt64.size ∧ token.byteStop < UInt64.size
  /-- The breaks that the tokens count are the line breaks of the text, in order. -/
  breaks : ∀ place, (Text.breaksUpTo text.toList place).Pairwise (· < ·) ∧
    (place ≤ text.length → ∀ stop, stop ∈ Text.breaksUpTo text.toList place ↔
      stop ≤ place ∧ ∃ front lineBreak back, text.toList = front ++ (lineBreak ++ back) ∧
        stop = (front ++ lineBreak).length ∧ Text.IsLineBreak front lineBreak back)
  apart : (tokenize text).Pairwise fun first second => first.stop ≤ second.start
  /-- Wherever the lexer looks for the end of its line, the line starts no later than the place. -/
  places : ∀ calls, ∀ lexer ∈ (Lexer.advance^[calls] (Lexer.start text)).stages,
    lexer.line.start ≤ lexer.offset ∧ lexer.line.index + 1 < UInt64.size ∧
      lexer.offset < UInt64.size ∧ lexer.byteOffset < UInt64.size
  /-- Whatever the options, one more than a line or a column of a diagnostic is shown as it is. -/
  diagnostics : ∀ options, ∀ diagnostic ∈ (compile options text).diagnostics,
    diagnostic.position.line + 1 < UInt64.size ∧ diagnostic.position.column + 1 < UInt64.size ∧
      diagnostic.position.shown = (diagnostic.position.line + 1, diagnostic.position.column + 1)

/-- For a text of fewer than 2 ^ 63 bytes, tokens have the coordinates of their characters, and
nothing that is counted is too large for a machine word. -/
theorem coordinatesFit_of_lt (text : String) (small : text.utf8ByteSize < 2 ^ 63) :
    CoordinatesFit text := by
  have bytes := Text.length_le_byteLength text.toList
  rw [Text.byteLength_toList, String.length_toList] at bytes
  have fits : ∀ {coordinate}, coordinate ≤ text.utf8ByteSize → coordinate + 1 < UInt64.size := by
    intro coordinate le
    have lt := Nat.lt_of_le_of_lt le small
    exact Nat.lt_of_le_of_lt lt (by decide)
  constructor
  case calls => exact (Lexer.start text).next?_iterate_advance
  case tokens =>
    intro token mem
    have located := Token.located_of_mem mem
    have stop := fits (Nat.le_trans located.stop_le bytes)
    have byteStop := fits located.byteStop_le
    exact ⟨located, Nat.lt_of_succ_lt stop, Nat.lt_of_succ_lt byteStop⟩
  case breaks =>
    intro place
    refine ⟨Text.pairwise_breaksUpTo _ _, fun within stop => ?_⟩
    rw [← String.length_toList] at within
    exact Text.mem_breaksUpTo_iff within
  case apart => exact (tiles_tokenize text).pairwise
  case places =>
    intro calls lexer visited
    have tracks := (Lexer.tracks_start text).iterate_advance calls
    rcases tracks.exists_at_of_mem_stages visited with ⟨front, here⟩
    rcases here.bounds with ⟨start, index, offset, byteOffset⟩
    rw [String.length_toList] at index offset
    rw [Text.byteLength_toList] at byteOffset
    have offsetFits := fits (Nat.le_trans offset bytes)
    exact ⟨start, fits (Nat.le_trans index bytes), Nat.lt_of_succ_lt offsetFits,
      Nat.lt_of_succ_lt (fits byteOffset)⟩
  case diagnostics =>
    intro options diagnostic mem
    rcases position_le_length mem with ⟨line, column⟩
    have lineFits := fits (Nat.le_trans line bytes)
    have columnFits := fits (Nat.le_trans column bytes)
    refine ⟨lineFits, columnFits, ?_⟩
    rw [Position.shown, Position.next, Position.next, Nat.mod_eq_of_lt lineFits,
      Nat.mod_eq_of_lt columnFits]

/-- A text with both kinds of characters of two bytes, blank and not, and with three breaks in four
characters. -/
theorem coordinatesFit_mixed :
    "é\r\n\n\r\u00a0ß".utf8ByteSize < 2 ^ 63 ∧ CoordinatesFit "é\r\n\n\r\u00a0ß" :=
  have small : "é\r\n\n\r\u00a0ß".utf8ByteSize < 2 ^ 63 := by decide
  ⟨small, coordinatesFit_of_lt _ small⟩

end NetDecl
