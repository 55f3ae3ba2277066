import Mathlib.Logic.Function.Iterate
import NetDecl.Proofs.Token.Pieces
import NetDecl.Proofs.Token.Ready

/-!
# The tokens of a text

The tokens of a text are exactly its pieces.  A lexer between two tokens knows how much of the text
is behind it, and if no piece lies across that border then the tokens still to come tile what is
left.  So do the tokens of the whole text, in front of which there is nothing.
-/

namespace NetDecl

namespace Text

/-! ## Pieces at the front of a text -/

/-- Blanks within a line can be passed over without passing into a piece. -/
theorem Apart.pass_blanks {front blanks rest : List Char} (apart : Apart front (blanks ++ rest))
    (inlineBlank : ∀ char ∈ blanks, isInlineBlank char = true) : Apart (front ++ blanks) rest := by
  rcases List.eq_nil_or_concat blanks with rfl | ⟨others, last, rfl⟩
  · rwa [List.append_nil]
  · have lastBlank := inlineBlank last (by simp)
    rw [List.concat_eq_append, ← List.append_assoc]
    exact apart_append_singleton lastBlank _ rest

theorem IsRun.of_apart {front run rest : List Char} (apart : Apart front (run ++ rest))
    (nonempty : run ≠ []) (notBlank : ∀ char ∈ run, isBlank char = false)
    (stopped : ∀ char ∈ rest.head?, isBlank char = true) : IsRun front run rest := by
  refine ⟨nonempty, notBlank, ?_, stopped⟩
  obtain ⟨first, others, rfl⟩ := List.exists_cons_of_ne_nil nonempty
  intro char mem
  rw [← Bool.not_eq_false]
  intro charNotBlank
  exact apart char mem first rfl (.inl ⟨charNotBlank, notBlank first List.mem_cons_self⟩)

theorem IsLineBreak.of_splitBreak? {front chars lineBreak rest : List Char}
    (apart : Apart front chars) (split : splitBreak? chars = some (lineBreak, rest)) :
    IsLineBreak front lineBreak rest := by
  unfold splitBreak? at split
  split at split
  · cases split
    exact .pair _
  · rename_i notLineFeed
    cases split
    apply IsLineBreak.carriageReturn
    intro head
    obtain ⟨others, rfl⟩ := List.head?_eq_some_iff.1 head
    exact notLineFeed others rfl
  · cases split
    apply IsLineBreak.lineFeed
    intro returned
    exact apart '\r' returned '\n' rfl (.inr ⟨rfl, rfl⟩)
  · cases split

end Text

theorem Token.Tiles.pass_blanks {front blanks rest : List Char} {tokens : List Token}
    (inlineBlank : ∀ char ∈ blanks, Text.isInlineBlank char = true)
    (tiles : Tiles (front ++ blanks) rest tokens) : Tiles front (blanks ++ rest) tokens := by
  induction blanks generalizing front with
  | nil => rwa [List.append_nil] at tiles
  | cons char blanks ih =>
    obtain ⟨charBlank, others⟩ := List.forall_mem_cons.1 inlineBlank
    rw [List.append_cons] at tiles
    exact .blank charBlank (ih others tiles)

namespace Lexer

/-! ## All tokens of a lexer -/

theorem tokens_of_next? {lexer next : Lexer} {token : Token}
    (found : lexer.next? = some (token, next)) : lexer.tokens = token :: next.tokens := by
  rw [tokens]
  split
  · rename_i equal
    rw [found] at equal
    cases equal
    rfl
  · rename_i equal
    rw [found] at equal
    cases equal

theorem tokens_of_next?_eq_none {lexer : Lexer} (exhausted : lexer.next? = none) :
    lexer.tokens = [] := by
  rw [tokens]
  split
  · rename_i equal
    rw [exhausted] at equal
    cases equal
  · rfl

theorem tokens_congr {lexer other : Lexer} (same : lexer.next? = other.next?) :
    lexer.tokens = other.tokens := by
  cases found : lexer.next? with
  | none =>
    rw [tokens_of_next?_eq_none found, tokens_of_next?_eq_none (same.symm.trans found)]
  | some pulled => rw [tokens_of_next? found, tokens_of_next? (same.symm.trans found)]

theorem Pulls.tokens_eq {lexer last : Lexer} {tokens : List Token}
    (pulls : lexer.Pulls tokens last) : lexer.tokens = tokens ++ last.tokens := by
  induction pulls with
  | nil => rfl
  | cons found _ ih => rw [tokens_of_next? found, ih, List.cons_append]

/-- The lexer after the next token; it stays where it is when there is none. -/
def advance (lexer : Lexer) : Lexer :=
  match lexer.next? with
  | some (_, next) => next
  | none => lexer

/-- Call after call the tokens are handed out, and nothing after the last. -/
theorem next?_iterate_advance (lexer : Lexer) (calls : Nat) :
    (advance^[calls] lexer).next?.map Prod.fst = lexer.tokens[calls]? := by
  induction calls generalizing lexer with
  | zero =>
    cases found : lexer.next? with
    | none => simp [tokens_of_next?_eq_none found, found]
    | some pulled => simp [tokens_of_next? found, found]
  | succ calls ih =>
    rw [Function.iterate_succ_apply, ih]
    cases found : lexer.next? with
    | none =>
      have stays : lexer.advance = lexer := by simp only [advance, found]
      simp [stays, tokens_of_next?_eq_none found]
    | some pulled =>
      have moves : lexer.advance = pulled.2 := by simp only [advance, found]
      rw [moves, tokens_of_next? found, List.getElem?_cons_succ]

/-! ## Tiling the rest of a text -/

/-- The characters `front` have been read. -/
structure Behind (lexer : Lexer) (front : List Char) : Prop where
  offset : lexer.offset = front.length
  byteOffset : lexer.byteOffset = Text.byteLength front

theorem behind_start (text : String) : (start text).Behind [] :=
  ⟨rfl, rfl⟩

theorem Behind.pass {lexer : Lexer} {front : List Char} (behind : lexer.Behind front)
    (taken rest : List Char) : (lexer.pass taken rest).Behind (front ++ taken) := by
  constructor
  · simp [Lexer.pass, behind.offset]
  · simp [Lexer.pass, behind.byteOffset]

theorem Behind.nextLine {lexer : Lexer} {front : List Char} (behind : lexer.Behind front)
    (lineBreak rest : List Char) : (lexer.nextLine lineBreak rest).Behind (front ++ lineBreak) :=
  ⟨(behind.pass lineBreak rest).offset, (behind.pass lineBreak rest).byteOffset⟩

theorem Behind.spans_token {lexer : Lexer} {front : List Char} (behind : lexer.Behind front)
    (kind : Token.Kind) (taken : List Char) : (lexer.token kind taken).Spans front taken := by
  constructor
  · rfl
  · exact behind.offset
  · simp [token, behind.offset]
  · exact behind.byteOffset
  · simp [token, behind.byteOffset]

theorem Ready.tiles {lexer : Lexer} (ready : lexer.Ready) :
    ∀ front, lexer.Behind front → Text.Apart front lexer.rest →
      Token.Tiles front lexer.rest lexer.tokens := by
  refine ready.induction (motive := fun lexer => ∀ front, lexer.Behind front →
    Text.Apart front lexer.rest → Token.Tiles front lexer.rest lexer.tokens)
    ?textEnd ?lineEnd ?word ?blanks
  case textEnd =>
    intro lexer ready empty front behind _
    have exhausted : ({ lexer with line := lexer.closedLine, finished := true } : Lexer).next? =
        none := by
      simp [next?, ready.queued]
    rw [tokens_of_next? (ready.next?_of_rest_eq_nil empty), tokens_of_next?_eq_none exhausted,
      empty]
    exact .textEnd rfl (behind.spans_token .textEnd [])
  case lineEnd =>
    intro lexer lineBreak rest ready split ih front behind apart
    have fits : Token.Kind.lineEnd.Fits front lineBreak rest := .of_splitBreak? apart split
    rw [tokens_of_next? (ready.next?_of_splitBreak? split), Text.append_of_splitBreak? split]
    have notEnd : Token.Kind.lineEnd ≠ .textEnd := by decide
    apply Token.Tiles.cons notEnd fits (behind.spans_token .lineEnd lineBreak)
    exact ih _ (behind.nextLine lineBreak rest) (fits.apart_behind notEnd)
  case word =>
    intro lexer run rest ready split nonempty notBlank stopped ih front behind apart
    rw [split] at apart
    have fits : Token.Kind.word.Fits front run rest := .of_apart apart nonempty notBlank stopped
    obtain ⟨next, found, same⟩ := ready.exists_next?_of_eq_append split nonempty notBlank stopped
    rw [tokens_of_next? found, tokens_congr same, split]
    have notEnd : Token.Kind.word ≠ .textEnd := by decide
    apply Token.Tiles.cons notEnd fits (behind.spans_token .word run)
    exact ih _ (behind.pass run rest) (fits.apart_behind notEnd)
  case blanks =>
    intro lexer ready ih front behind apart
    have inlineBlank : ∀ char ∈ lexer.rest.takeWhile Text.isInlineBlank,
        Text.isInlineBlank char = true := fun _ mem => List.mem_takeWhile_imp mem
    rw [← List.takeWhile_append_dropWhile (p := Text.isInlineBlank) (l := lexer.rest)] at apart ⊢
    rw [tokens_congr ready.next?_skipBlanks]
    apply Token.Tiles.pass_blanks inlineBlank
    exact ih _ (behind.pass _ _) (apart.pass_blanks inlineBlank)

end Lexer

theorem tiles_tokenize (text : String) : Token.Tiles [] text.toList (tokenize text) :=
  (Lexer.ready_start text).tiles [] (Lexer.behind_start text) (Text.apart_nil _)

/-- Call after call the tokens of a text are handed out, and nothing after the last.  They are its
pieces in order, none left out and none twice.  The end of the text comes last, only blanks within
a line are left between the tokens, and gaps and tokens together make up the text. -/
theorem tokenize_exact (text : String) :
    (∀ calls, (Lexer.advance^[calls] (Lexer.start text)).next?.map Prod.fst =
      (tokenize text)[calls]?) ∧
    (∀ token ∈ tokenize text,
      Text.slice? text token.byteStart token.byteStop = some token.text ∧
      ∃ front taken back, text.toList = front ++ (taken ++ back) ∧ token.Spans front taken) ∧
    (∀ kind front taken back, text.toList = front ++ (taken ++ back) →
      ((∃ token ∈ tokenize text, token.kind = kind ∧ token.Spans front taken) ↔
        Token.Kind.Fits kind front taken back)) ∧
    (tokenize text).Pairwise (fun first second => first.stop ≤ second.start) ∧
    (∃ init last, tokenize text = init ++ [last] ∧ last.kind = .textEnd ∧
      ∀ token ∈ init, token.kind ≠ .textEnd) ∧
    (∀ gap ∈ Text.gaps text.toList 0 (tokenize text),
      ∀ char ∈ gap, Text.isInlineBlank char = true) ∧
    (List.zipWith (fun gap token => gap ++ token.text.toList)
      (Text.gaps text.toList 0 (tokenize text)) (tokenize text)).flatten = text.toList := by
  have tiles := tiles_tokenize text
  refine ⟨(Lexer.start text).next?_iterate_advance, ?_, ?_, tiles.pairwise,
    tiles.exists_eq_append_textEnd, ?_, ?_⟩
  · intro token mem
    obtain ⟨front, taken, back, whole, spans, -⟩ := tiles.fits_of_mem token mem
    exact ⟨spans.slice?_eq whole, front, taken, back, whole, spans⟩
  · intro kind front taken back whole
    constructor
    · rintro ⟨token, mem, rfl, spans⟩
      obtain ⟨otherFront, otherTaken, otherBack, otherWhole, otherSpans, fits⟩ :=
        tiles.fits_of_mem token mem
      obtain ⟨rfl, rfl, rfl⟩ := spans.unique otherSpans (whole.symm.trans otherWhole)
      exact fits
    · exact tiles.exists_mem_of_fits whole
  · have noBlanks : ∀ char ∈ ([] : List Char), Text.isInlineBlank char = true := by simp
    exact tiles.isInlineBlank_of_mem_gaps [] [] noBlanks
  · exact tiles.flatten_gaps [] []

-- Three characters break two lines here, and the no-break space belongs to no token.
example : (tokenize "a\r\r\n\u00a0b").map (fun token => (token.kind, token.text)) =
    [(.word, "a"), (.lineEnd, "\r"), (.lineEnd, "\r\n"), (.word, "b"), (.textEnd, "")] := by
  cbv

end NetDecl
