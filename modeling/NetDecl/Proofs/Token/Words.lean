import Mathlib.Data.List.Pairwise
import NetDecl.Proofs.Token.Exact
import NetDecl.Proofs.Token.Rows

/-!
# The tokens of words

Every word of a row is a token of the text, and the token begins in the text where the word begins
on its line.  Tokens do not overlap: the characters of a word belong to its token alone.
-/

namespace NetDecl

theorem Word.IsToken.unique {index otherIndex : Nat} {word other : Word} {token : Token}
    (isToken : word.IsToken index token) (otherIsToken : other.IsToken otherIndex token) :
    word = other ∧ index = otherIndex := by
  have position := isToken.position.symm.trans otherIsToken.position
  have text := isToken.text.symm.trans otherIsToken.text
  cases word
  cases other
  cases position
  cases text
  exact ⟨rfl, rfl⟩

/-- The token is the word of a line, and begins where the word begins there. -/
structure Word.IsTokenOn (line : Line) (word : Word) (token : Token) : Prop where
  isToken : word.IsToken line.index token
  start : token.start = line.start + word.column

namespace Lexer

/-- The words ahead of the lexer are among the tokens that it is going to hand out. -/
def HandsOutWords (lexer : Lexer) : Prop :=
  ∀ row ∈ lexer.ahead, ∀ word ∈ row.words, ∃ token ∈ lexer.tokens, word.IsTokenOn row.line token

theorem line_of_ahead {lexer : Lexer} {row : Row} {rows : List Row}
    (ahead : lexer.ahead = row :: rows) :
    row.line.index = lexer.line.index ∧ row.line.start = lexer.line.start := by
  unfold Lexer.ahead at ahead
  split at ahead
  · cases ahead
  · cases ahead
    exact ⟨rfl, rfl⟩

theorem Ready.handsOutWords_word {lexer : Lexer} (ready : lexer.Ready) {run rest : List Char}
    (split : lexer.rest = run ++ rest) (nonempty : run ≠ [])
    (notBlank : ∀ char ∈ run, Text.isBlank char = false)
    (stopped : ∀ char ∈ rest.head?, Text.isBlank char = true)
    (behind : (lexer.pass run rest).HandsOutWords) : lexer.HandsOutWords := by
  rcases ready.exists_next?_of_eq_append split nonempty notBlank stopped with ⟨next, found, same⟩
  rcases ready.ahead_pass split fun char mem =>
    Text.isBreak_eq_false_of_isBlank_eq_false (notBlank char mem) with
    ⟨raw, lines, row, rows, lower, passed, index, words, equal⟩
  have rowStopped : ∀ char ∈ raw.content.head?, Text.isBlank char = true := fun char mem =>
    stopped char (Text.head?_of_head?_content lower mem)
  rw [Text.words_append_of_not_isBlank nonempty notBlank _ rowStopped, ← words] at equal
  have later : ∀ row ∈ (lexer.pass run rest).ahead, ∀ word ∈ row.words,
      ∃ token ∈ lexer.tokens, word.IsTokenOn row.line token := by
    intro row rowMem word wordMem
    rcases behind row rowMem word wordMem with ⟨token, mem, isToken⟩
    rw [tokens_of_next? found, tokens_congr same]
    exact ⟨token, List.mem_cons_of_mem _ mem, isToken⟩
  rw [passed] at later
  rw [HandsOutWords, equal]
  intro other otherMem word wordMem
  rcases List.mem_cons.1 otherMem with rfl | behindRow
  · rcases List.mem_cons.1 wordMem with rfl | behindWord
    · refine ⟨lexer.token .word run, ?_, ?_⟩
      · rw [tokens_of_next? found]
        exact List.mem_cons_self
      · refine ⟨index ▸ lexer.isToken_word run, ?_⟩
        change lexer.offset = row.line.start + (lexer.offset - lexer.line.start)
        rw [(line_of_ahead passed).2]
        exact (Nat.add_sub_cancel' ready.start_le).symm
    · exact later row List.mem_cons_self word behindWord
  · exact later other (List.mem_cons_of_mem _ behindRow) word wordMem

/-- A lexer hands out the words that are ahead. -/
theorem Ready.handsOutWords {lexer : Lexer} (ready : lexer.Ready) : lexer.HandsOutWords := by
  refine ready.induction (motive := HandsOutWords) ?textEnd ?lineEnd ?word ?blanks
  case textEnd =>
    intro lexer _ empty row rowMem word wordMem
    rw [ahead_of_rest_eq_nil empty] at rowMem
    rw [List.mem_singleton.1 rowMem] at wordMem
    cases wordMem
  case lineEnd =>
    intro lexer lineBreak rest ready split behind row rowMem word wordMem
    rw [ahead_of_splitBreak? split] at rowMem
    rcases List.mem_cons.1 rowMem with rfl | behindRow
    · cases wordMem
    · rcases behind row behindRow word wordMem with ⟨token, mem, isToken⟩
      rw [tokens_of_next? (ready.next?_of_splitBreak? split)]
      exact ⟨token, List.mem_cons_of_mem _ mem, isToken⟩
  case word =>
    intro lexer run rest ready split nonempty notBlank stopped
    exact ready.handsOutWords_word split nonempty notBlank stopped
  case blanks =>
    intro lexer ready behind
    rwa [HandsOutWords, ready.ahead_skipBlanks, tokens_congr ready.next?_skipBlanks]

end Lexer

/-- Every word of a row is a token of the text. -/
theorem Row.exists_isTokenOn {text : String} {row : Row} (rowMem : row ∈ ofText text) {word : Word}
    (wordMem : word ∈ row.words) : ∃ token ∈ tokenize text, word.IsTokenOn row.line token := by
  rw [← Lexer.ahead_start] at rowMem
  exact (Lexer.ready_start text).handsOutWords row rowMem word wordMem

/-- The place is that of a character of the token. -/
def Token.Covers (token : Token) (place : Nat) : Prop :=
  token.start ≤ place ∧ place < token.stop

instance (token : Token) (place : Nat) : Decidable (token.Covers place) :=
  inferInstanceAs (Decidable (_ ∧ _))

/-- Tokens of a text do not overlap. -/
theorem Token.Covers.unique {text : String} {token other : Token} {place : Nat}
    (covers : token.Covers place) (otherCovers : other.Covers place) (mem : token ∈ tokenize text)
    (otherMem : other ∈ tokenize text) : token = other := by
  let Apart (first second : Token) : Prop :=
    first.Covers place → second.Covers place → first = second
  have : Std.Symm Apart := ⟨fun _ _ apart first second => (apart second first).symm⟩
  have apart : (tokenize text).Pairwise Apart :=
    (tiles_tokenize text).pairwise.imp fun inOrder first second =>
      absurd (Nat.lt_of_lt_of_le first.2 inOrder) (Nat.not_lt.2 second.1)
  exact apart.forall_of_forall (fun _ _ _ _ => rfl) mem otherMem covers otherCovers

theorem Word.IsTokenOn.covers_iff {line : Line} {word : Word} {token : Token}
    (isToken : word.IsTokenOn line token) {place : Nat} :
    token.Covers place ↔ line.start + word.column ≤ place ∧
      place < line.start + word.column + word.text.length := by
  have length := isToken.isToken.length
  rw [Token.length] at length
  rw [Token.Covers, ← isToken.start]
  omega

end NetDecl
