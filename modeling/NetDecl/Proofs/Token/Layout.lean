import NetDecl.Proofs.Token.Exact
import NetDecl.Proofs.Token.Rows

/-!
# Texts with the same words on each line

The words of a text and the ends of its lines, in their order, tell which words are on which line: a
line is spelled by its words and an end, and no spelling begins with another.  Texts whose tokens
agree in this have rows with the same words.
-/

namespace NetDecl

open List (Forall₂)

namespace Token

/-- The tokens are of the same kind, and if they are words, they have the same characters.  Their
places and the characters of breaks may differ. -/
structure Agrees (token other : Token) : Prop where
  kind : token.kind = other.kind
  text : token.kind = .word → token.text = other.text

instance (token other : Token) : Decidable (token.Agrees other) :=
  decidable_of_iff (token.kind = other.kind ∧ (token.kind = .word → token.text = other.text))
    ⟨fun ⟨kind, text⟩ => ⟨kind, text⟩, fun ⟨kind, text⟩ => ⟨kind, text⟩⟩

/-- The characters of a word; the end of a line has none. -/
def word? (token : Token) : Option String :=
  if token.isWord then some token.text else none

theorem Agrees.word?_eq {token other : Token} (agrees : token.Agrees other) :
    token.word? = other.word? := by
  rw [word?, word?, isWord, isWord, ← agrees.kind]
  cases kind : token.kind with
  | word => simp [agrees.text kind]
  | lineEnd => rfl
  | textEnd => rfl

end Token

namespace Row

/-- The characters of the words. -/
def texts (row : Row) : List String :=
  row.words.map Word.text

/-- The words of lines, with an end behind each line. -/
def spelling (lines : List (List String)) : List (Option String) :=
  lines.flatMap fun texts => texts.map some ++ [none]

@[simp]
theorem spelling_nil : spelling [] = [] :=
  rfl

@[simp]
theorem spelling_cons (texts : List String) (lines : List (List String)) :
    spelling (texts :: lines) = texts.map some ++ none :: spelling lines := by
  simp [spelling]

/-- A line ends at the first end of a line. -/
theorem map_some_append_none_inj {texts others : List String} {rest otherRest : List (Option String)} :
    texts.map some ++ none :: rest = others.map some ++ none :: otherRest ↔
      texts = others ∧ rest = otherRest := by
  induction texts generalizing others with
  | nil => cases others <;> simp
  | cons text texts ih =>
    cases others with
    | nil => simp
    | cons other others => simp [ih, and_assoc]

/-- Different lines are spelled differently. -/
theorem spelling_inj {lines others : List (List String)} :
    spelling lines = spelling others ↔ lines = others := by
  induction lines generalizing others with
  | nil => cases others <;> simp
  | cons texts lines ih =>
    cases others with
    | nil => simp
    | cons otherTexts others =>
      rw [spelling_cons, spelling_cons, map_some_append_none_inj, ih, List.cons.injEq]

end Row

namespace Lexer

theorem map_word?_of_isToken {index : Nat} {words : List Word} {tokens : List Token}
    (spelled : Forall₂ (Word.IsToken index) words tokens) :
    tokens.map Token.word? = (words.map Word.text).map some := by
  induction spelled with
  | nil => rfl
  | cons isToken _ ih =>
    rw [List.map_cons, List.map_cons, List.map_cons, ih, Token.word?, Token.isWord, isToken.kind,
      isToken.text]
    rfl

/-- A lexer hands out the spelling of the rows that it reads. -/
theorem Reads.map_word?_tokens {lexer : Lexer} {rows : List Row} (reads : lexer.Reads rows) :
    lexer.tokens.map Token.word? = Row.spelling (rows.map Row.texts) := by
  induction reads with
  | nil exhausted => rw [tokens_of_next?_eq_none exhausted]; rfl
  | @cons lexer next tokens boundary row rows pulls spelled ended _ _ ih =>
    have noWord : boundary.word? = none := by
      rw [Token.word?, Token.isWord, ended.kind]
      cases rows.isEmpty <;> rfl
    rw [pulls.tokens_eq, List.map_append, List.map_append, List.map_singleton, noWord,
      map_word?_of_isToken spelled, ih, List.map_cons, Row.spelling_cons, List.append_assoc]
    rfl

end Lexer

namespace Row

/-- Texts whose tokens agree have the same words line by line. -/
theorem map_texts_ofText {text other : String}
    (agree : Forall₂ Token.Agrees (tokenize text) (tokenize other)) :
    (ofText text).map texts = (ofText other).map texts := by
  have same : (tokenize text).map Token.word? = (tokenize other).map Token.word? := by
    rw [← List.forall₂_eq_eq_eq, List.forall₂_map_left_iff, List.forall₂_map_right_iff]
    exact agree.imp fun _ _ agrees => agrees.word?_eq
  rw [tokenize, tokenize, (Lexer.reads_start text).map_word?_tokens,
    (Lexer.reads_start other).map_word?_tokens] at same
  exact spelling_inj.1 same

/-- The rows have the same number, and words with the same characters. -/
structure SameWords (row other : Row) : Prop where
  index : row.line.index = other.line.index
  texts : row.texts = other.texts

theorem forall₂_sameWords_number {lines others : List RawLine} {index start otherStart : Nat}
    (same : (number index start lines).map texts = (number index otherStart others).map texts) :
    Forall₂ SameWords (number index start lines) (number index otherStart others) := by
  induction lines generalizing index start otherStart others with
  | nil =>
    cases others with
    | nil => exact .nil
    | cons other others => cases same
  | cons raw lines ih =>
    cases others with
    | nil => cases same
    | cons other others =>
      rw [number, number, List.map_cons, List.map_cons, List.cons.injEq] at same
      exact .cons ⟨rfl, same.1⟩ (ih same.2)

/-- Texts whose tokens agree have the same words on the same lines. -/
theorem forall₂_sameWords_ofText {text other : String}
    (agree : Forall₂ Token.Agrees (tokenize text) (tokenize other)) :
    Forall₂ SameWords (ofText text) (ofText other) :=
  forall₂_sameWords_number (map_texts_ofText agree)

end Row

end NetDecl
