import NetDecl.Proofs.Text.Lines
import NetDecl.Proofs.Text.Mark
import NetDecl.Token

/-!
# The pieces of a text

The pieces of a text are its words, which are the maximal runs of characters that are not blank, its
line breaks, and its end.  What makes a piece is said here by the characters around it.  Tokens tile
a text if each is a piece and nothing but blanks within a line is left between them; tokens that
tile a text are all its pieces, in order and each once.
-/

namespace NetDecl

namespace Text

/-- Between `front` and `back`, the characters `taken` are a maximal run of characters that are not
blank. -/
structure IsRun (front taken back : List Char) : Prop where
  nonempty : taken ≠ []
  inside : ∀ char ∈ taken, isBlank char = false
  before : ∀ char ∈ front.getLast?, isBlank char = true
  behind : ∀ char ∈ back.head?, isBlank char = true

/-- Between `front` and `back`, the characters `taken` are a line break: a carriage return with the
line feed behind it, or one of the two on its own. -/
inductive IsLineBreak (front : List Char) : (taken back : List Char) → Prop where
  | pair (back : List Char) : IsLineBreak front ['\r', '\n'] back
  | carriageReturn {back : List Char} : back.head? ≠ some '\n' → IsLineBreak front ['\r'] back
  | lineFeed (back : List Char) : front.getLast? ≠ some '\r' → IsLineBreak front ['\n'] back

/-- The second character continues the piece that the first belongs to. -/
def Joined (first second : Char) : Prop :=
  (isBlank first = false ∧ isBlank second = false) ∨ (first = '\r' ∧ second = '\n')

/-- No piece lies across the border between `front` and `back`. -/
def Apart (front back : List Char) : Prop :=
  ∀ first ∈ front.getLast?, ∀ second ∈ back.head?, ¬Joined first second

/-- The characters before each of the given tokens, behind the token before it; the first token
follows the offset. -/
def gaps (chars : List Char) : Nat → List Token → List (List Char)
  | _, [] => []
  | offset, token :: tokens =>
      (chars.drop offset).take (token.start - offset) :: gaps chars token.stop tokens

end Text

namespace Token

/-- The token has the characters `taken`, and its place is behind `front`. -/
structure Spans (token : Token) (front taken : List Char) : Prop where
  text : token.text = String.ofList taken
  start : token.start = front.length
  stop : token.stop = (front ++ taken).length
  byteStart : token.byteStart = Text.byteLength front
  byteStop : token.byteStop = Text.byteLength (front ++ taken)

/-- Between `front` and `back`, the characters `taken` are a piece of the given kind. -/
def Kind.Fits (kind : Kind) (front taken back : List Char) : Prop :=
  match kind with
  | word => Text.IsRun front taken back
  | lineEnd => Text.IsLineBreak front taken back
  | textEnd => taken = [] ∧ back = []

/-- The tokens are the pieces of the text `rest` that follows `front`, and there are only blanks
within a line between them. -/
inductive Tiles : (front rest : List Char) → List Token → Prop where
  | textEnd {front : List Char} {token : Token} :
      token.kind = .textEnd → token.Spans front [] → Tiles front [] [token]
  | blank {front rest : List Char} {char : Char} {tokens : List Token} :
      Text.isInlineBlank char = true → Tiles (front ++ [char]) rest tokens →
      Tiles front (char :: rest) tokens
  | cons {front taken rest : List Char} {token : Token} {tokens : List Token} :
      token.kind ≠ .textEnd → token.kind.Fits front taken rest → token.Spans front taken →
      Tiles (front ++ taken) rest tokens → Tiles front (taken ++ rest) (token :: tokens)

end Token

/-! ## Borders between pieces -/

namespace Text

theorem not_joined_of_isBlank {first second : Char}
    (blank : isBlank first = true ∨ isBlank second = true)
    (unpaired : first ≠ '\r' ∨ second ≠ '\n') : ¬Joined first second := by
  rintro (⟨firstNotBlank, secondNotBlank⟩ | ⟨firstEq, secondEq⟩)
  · rcases blank with firstBlank | secondBlank
    · exact Bool.noConfusion (firstNotBlank.symm.trans firstBlank)
    · exact Bool.noConfusion (secondNotBlank.symm.trans secondBlank)
  · rcases unpaired with firstNe | secondNe
    · exact firstNe firstEq
    · exact secondNe secondEq

theorem apart_nil (back : List Char) : Apart [] back :=
  fun _ mem => nomatch mem

/-- A blank within a line is not part of any piece. -/
theorem apart_append_singleton {char : Char} (blank : isInlineBlank char = true)
    (front back : List Char) : Apart (front ++ [char]) back := by
  intro first mem second _
  rw [List.getLast?_concat, Option.mem_some_iff] at mem
  subst first
  rw [isInlineBlank, Bool.and_eq_true] at blank
  apply not_joined_of_isBlank (.inl blank.1)
  left
  rintro rfl
  exact absurd blank.2 (by decide)

theorem Apart.inner {front inner outer back : List Char}
    (apart : Apart (front ++ inner) (outer ++ back)) (innerNonempty : inner ≠ [])
    (outerNonempty : outer ≠ []) : Apart inner outer := by
  obtain ⟨run, last, rfl⟩ := (List.eq_nil_or_concat inner).resolve_left innerNonempty
  obtain ⟨head, rest, rfl⟩ := List.exists_cons_of_ne_nil outerNonempty
  intro first firstMem second secondMem
  apply apart first _ second secondMem
  simpa using firstMem

end Text

namespace Token.Kind.Fits

variable {kind other : Kind} {front taken back : List Char}

theorem head?_isInlineBlank_eq_false (fits : kind.Fits front taken back) :
    ∀ char ∈ (taken ++ back).head?, Text.isInlineBlank char = false := by
  intro char mem
  cases kind with
  | word =>
    obtain ⟨first, run, rfl⟩ := List.exists_cons_of_ne_nil fits.nonempty
    cases mem
    simp [Text.isInlineBlank, fits.inside char List.mem_cons_self]
  | lineEnd => cases fits <;> cases mem <;> decide
  | textEnd =>
    rw [fits.1, fits.2] at mem
    cases mem

/-- A piece is not joined to what is in front of it. -/
theorem apart_before (fits : kind.Fits front taken back) : Text.Apart front (taken ++ back) := by
  intro first firstMem second secondMem
  cases kind with
  | word =>
    obtain ⟨char, run, rfl⟩ := List.exists_cons_of_ne_nil fits.nonempty
    cases secondMem
    apply Text.not_joined_of_isBlank (.inl (fits.before first firstMem))
    right
    rintro rfl
    exact absurd (fits.inside '\n' List.mem_cons_self) (by decide)
  | lineEnd =>
    cases fits with
    | pair =>
      cases secondMem
      exact Text.not_joined_of_isBlank (.inr (by decide)) (.inr (by decide))
    | carriageReturn =>
      cases secondMem
      exact Text.not_joined_of_isBlank (.inr (by decide)) (.inr (by decide))
    | lineFeed _ alone =>
      cases secondMem
      apply Text.not_joined_of_isBlank (.inr (by decide))
      left
      rintro rfl
      exact alone firstMem
  | textEnd =>
    rw [fits.1, fits.2] at secondMem
    cases secondMem

/-- A piece is not joined to what is behind it. -/
theorem apart_behind (fits : kind.Fits front taken back) (notEnd : kind ≠ .textEnd) :
    Text.Apart (front ++ taken) back := by
  intro first firstMem second secondMem
  cases kind with
  | word =>
    obtain ⟨run, char, rfl⟩ := (List.eq_nil_or_concat taken).resolve_left fits.nonempty
    rw [List.concat_eq_append, ← List.append_assoc, List.getLast?_concat,
      Option.mem_some_iff] at firstMem
    subst first
    apply Text.not_joined_of_isBlank (.inr (fits.behind second secondMem))
    left
    rintro rfl
    exact absurd (fits.inside '\r' (by simp)) (by decide)
  | lineEnd =>
    cases fits with
    | pair =>
      have last : first = '\n' := by simpa [eq_comm] using firstMem
      subst first
      exact Text.not_joined_of_isBlank (.inl (by decide)) (.inl (by decide))
    | carriageReturn alone =>
      have last : first = '\r' := by simpa [eq_comm] using firstMem
      subst first
      apply Text.not_joined_of_isBlank (.inl (by decide))
      right
      rintro rfl
      exact alone secondMem
    | lineFeed =>
      have last : first = '\n' := by simpa [eq_comm] using firstMem
      subst first
      exact Text.not_joined_of_isBlank (.inl (by decide)) (.inl (by decide))
  | textEnd => exact absurd rfl notEnd

/-- The characters of a piece are joined. -/
theorem not_apart_inside {inner outer : List Char} {back : List Char}
    (fits : kind.Fits front (inner ++ outer) back) (innerNonempty : inner ≠ [])
    (outerNonempty : outer ≠ []) : ¬Text.Apart inner outer := by
  obtain ⟨run, first, rfl⟩ := (List.eq_nil_or_concat inner).resolve_left innerNonempty
  obtain ⟨second, rest, rfl⟩ := List.exists_cons_of_ne_nil outerNonempty
  intro apart
  apply apart first (by simp) second rfl
  cases kind with
  | word => exact .inl ⟨fits.inside first (by simp), fits.inside second (by simp)⟩
  | lineEnd =>
    right
    generalize whole : run.concat first ++ second :: rest = taken at fits
    cases fits with
    | pair =>
      cases run with
      | nil =>
        cases whole
        exact ⟨rfl, rfl⟩
      | cons char run => cases run <;> simp at whole
    | carriageReturn => cases run <;> simp at whole
    | lineFeed => cases run <;> simp at whole
  | textEnd =>
    have empty := fits.1
    simp at empty

/-- What comes next tells the kind of the next piece. -/
theorem kind_eq (fits : kind.Fits front taken back) :
    kind = match (taken ++ back).head? with
      | none => .textEnd
      | some char => if Text.isBlank char then .lineEnd else .word := by
  cases kind with
  | word =>
    obtain ⟨first, run, rfl⟩ := List.exists_cons_of_ne_nil fits.nonempty
    simp [fits.inside first List.mem_cons_self]
  | lineEnd => cases fits <;> rfl
  | textEnd =>
    rw [fits.1, fits.2]
    rfl

/-- There is one piece at a place. -/
theorem unique {otherTaken otherBack : List Char} (fits : kind.Fits front taken back)
    (otherFits : other.Fits front otherTaken otherBack)
    (same : taken ++ back = otherTaken ++ otherBack) :
    kind = other ∧ taken = otherTaken ∧ back = otherBack := by
  have kinds : kind = other := by
    rw [fits.kind_eq, otherFits.kind_eq, same]
  subst other
  suffices takens : taken = otherTaken by
    rw [takens] at same
    exact ⟨rfl, takens, List.append_cancel_left same⟩
  cases kind with
  | word =>
    have run := (Text.takeWhile_not_isBlank fits.inside fits.behind).1
    rw [same, (Text.takeWhile_not_isBlank otherFits.inside otherFits.behind).1] at run
    exact run.symm
  | lineEnd =>
    cases fits with
    | pair =>
      cases otherFits with
      | pair => rfl
      | carriageReturn alone =>
        cases same
        exact absurd rfl alone
      | lineFeed => cases same
    | carriageReturn alone =>
      cases otherFits with
      | pair =>
        cases same
        exact absurd rfl alone
      | carriageReturn => rfl
      | lineFeed => cases same
    | lineFeed =>
      cases otherFits with
      | pair => cases same
      | carriageReturn => cases same
      | lineFeed => rfl
  | textEnd => rw [fits.1, otherFits.1]

end Token.Kind.Fits

namespace Token

/-! ## Places of tokens -/

/-- The text of a token is the slice of the whole text between its byte offsets. -/
theorem Spans.slice?_eq {token : Token} {text : String} {front taken back : List Char}
    (spans : token.Spans front taken) (whole : text.toList = front ++ (taken ++ back)) :
    Text.slice? text token.byteStart token.byteStop = some token.text := by
  have stop : Text.splitBytes? text.toList token.byteStop = some (front ++ taken, back) := by
    rw [Text.splitBytes?_eq_some_iff, List.append_assoc]
    exact ⟨whole, spans.byteStop.symm⟩
  have start : Text.splitBytes? (front ++ taken) token.byteStart = some (front, taken) :=
    Text.splitBytes?_eq_some_iff.2 ⟨rfl, spans.byteStart.symm⟩
  simp [Text.slice?, stop, start, spans.text]

/-- A token has one place and one text. -/
theorem Spans.unique {token : Token} {front taken back otherFront otherTaken otherBack : List Char}
    (spans : token.Spans front taken) (otherSpans : token.Spans otherFront otherTaken)
    (same : front ++ (taken ++ back) = otherFront ++ (otherTaken ++ otherBack)) :
    front = otherFront ∧ taken = otherTaken ∧ back = otherBack := by
  have texts : taken = otherTaken := by
    have equal := congrArg String.toList (spans.text.symm.trans otherSpans.text)
    simpa using equal
  obtain ⟨fronts, rests⟩ := List.append_inj same (spans.start.symm.trans otherSpans.start)
  rw [texts] at rests
  exact ⟨fronts, texts, List.append_cancel_left rests⟩

/-- The first gap holds the blanks in front of the first token. -/
theorem Spans.gaps_cons {token : Token} {before blanks taken : List Char}
    (spans : token.Spans (before ++ blanks) taken) (rest : List Char) (tokens : List Token) :
    Text.gaps ((before ++ blanks) ++ (taken ++ rest)) before.length (token :: tokens) =
      blanks :: Text.gaps (((before ++ blanks) ++ taken) ++ rest)
        ((before ++ blanks) ++ taken).length tokens := by
  have gap : (((before ++ blanks) ++ (taken ++ rest)).drop before.length).take
      (token.start - before.length) = blanks := by
    rw [spans.start, List.append_assoc, List.drop_left, List.length_append, Nat.add_sub_cancel_left,
      List.take_left]
  rw [Text.gaps, gap, spans.stop, List.append_assoc (before ++ blanks)]

/-! ## Tokens that tile a text -/

namespace Tiles

variable {front rest : List Char} {tokens : List Token}

theorem le_start (tiles : Tiles front rest tokens) :
    ∀ token ∈ tokens, front.length ≤ token.start := by
  induction tiles with
  | textEnd _ spans =>
    intro token mem
    rw [List.mem_singleton.1 mem, spans.start]
  | blank _ _ ih =>
    intro token mem
    exact Nat.le_trans (by simp) (ih token mem)
  | cons _ _ spans _ ih =>
    intro token mem
    rcases List.mem_cons.1 mem with rfl | mem
    · rw [spans.start]
    · exact Nat.le_trans (by simp) (ih token mem)

/-- The tokens stand in the order of the text and do not overlap. -/
theorem pairwise (tiles : Tiles front rest tokens) :
    tokens.Pairwise fun first second => first.stop ≤ second.start := by
  induction tiles with
  | textEnd => exact List.pairwise_singleton _ _
  | blank _ _ ih => exact ih
  | cons _ _ spans tiles ih =>
    apply List.Pairwise.cons _ ih
    intro second mem
    rw [spans.stop]
    exact tiles.le_start second mem

/-- The end of the text comes last and only there. -/
theorem exists_eq_append_textEnd (tiles : Tiles front rest tokens) :
    ∃ init last, tokens = init ++ [last] ∧ last.kind = .textEnd ∧
      ∀ token ∈ init, token.kind ≠ .textEnd := by
  induction tiles with
  | @textEnd _ token kind _ => exact ⟨[], token, rfl, kind, fun _ mem => nomatch mem⟩
  | blank _ _ ih => exact ih
  | @cons _ _ _ token _ notEnd _ _ _ ih =>
    obtain ⟨init, last, rfl, kind, others⟩ := ih
    refine ⟨token :: init, last, rfl, kind, ?_⟩
    intro other mem
    rcases List.mem_cons.1 mem with rfl | mem
    · exact notEnd
    · exact others other mem

/-- Every token is a piece. -/
theorem fits_of_mem (tiles : Tiles front rest tokens) :
    ∀ token ∈ tokens, ∃ before taken back, rest = before ++ (taken ++ back) ∧
      token.Spans (front ++ before) taken ∧ token.kind.Fits (front ++ before) taken back := by
  induction tiles with
  | @textEnd front _ kind spans =>
    intro token mem
    rw [List.mem_singleton.1 mem]
    refine ⟨[], [], [], rfl, ?_, ?_⟩
    · rwa [List.append_nil]
    · rw [kind]
      exact ⟨rfl, rfl⟩
  | @blank front _ char _ _ _ ih =>
    intro token mem
    obtain ⟨before, taken, back, rfl, spans, fits⟩ := ih token mem
    rw [List.append_assoc] at spans fits
    exact ⟨char :: before, taken, back, rfl, spans, fits⟩
  | @cons front first rest _ _ _ firstFits firstSpans _ ih =>
    intro token mem
    rcases List.mem_cons.1 mem with rfl | mem
    · rw [← List.append_nil front] at firstSpans firstFits
      exact ⟨[], first, rest, rfl, firstSpans, firstFits⟩
    · obtain ⟨before, taken, back, rfl, spans, fits⟩ := ih token mem
      rw [List.append_assoc] at spans fits
      exact ⟨first ++ before, taken, back, by rw [List.append_assoc], spans, fits⟩

/-- Every piece is a token. -/
theorem exists_mem_of_fits {kind : Kind} {before taken back : List Char}
    (tiles : Tiles front rest tokens) (split : rest = before ++ (taken ++ back))
    (fits : kind.Fits (front ++ before) taken back) :
    ∃ token ∈ tokens, token.kind = kind ∧ token.Spans (front ++ before) taken := by
  induction tiles generalizing before with
  | @textEnd front token tokenKind spans =>
    obtain ⟨rfl, empty⟩ := List.append_eq_nil_iff.1 split.symm
    obtain ⟨rfl, rfl⟩ := List.append_eq_nil_iff.1 empty
    refine ⟨token, List.mem_singleton_self _, ?_, ?_⟩
    · rw [tokenKind, fits.kind_eq]
      rfl
    · rwa [List.append_nil]
  | @blank front rest char _ inlineBlank _ ih =>
    cases before with
    | nil =>
      rw [List.nil_append] at split
      have notInline := fits.head?_isInlineBlank_eq_false char (by rw [← split]; rfl)
      rw [inlineBlank] at notInline
      cases notInline
    | cons first before =>
      cases split
      rw [List.append_cons] at fits ⊢
      exact ih rfl fits
  | @cons front first rest token _ _ firstFits firstSpans _ ih =>
    -- A piece that does not begin with the first token begins behind it, as no piece begins inside
    -- another.
    rcases List.append_eq_append_iff.1 split with
      ⟨between, rfl, behind⟩ | ⟨outer, rfl, same⟩
    · rw [← List.append_assoc] at fits ⊢
      obtain ⟨other, mem, found⟩ := ih behind fits
      exact ⟨other, List.mem_cons_of_mem _ mem, found⟩
    · by_cases atFirst : before = []
      · subst before
        rw [List.append_nil] at fits ⊢
        obtain ⟨kinds, rfl, -⟩ := firstFits.unique fits same.symm
        exact ⟨token, List.mem_cons_self, kinds, firstSpans⟩
      · by_cases behindFirst : outer = []
        · subst outer
          rw [List.append_nil] at ih
          rw [← List.append_nil (front ++ before)] at fits ⊢
          rw [List.nil_append] at same
          obtain ⟨other, mem, found⟩ := ih same.symm fits
          exact ⟨other, List.mem_cons_of_mem _ mem, found⟩
        · have apart := fits.apart_before
          rw [same] at apart
          exact absurd (apart.inner atFirst behindFirst)
            (firstFits.not_apart_inside atFirst behindFirst)

/-- There are only blanks within a line between the tokens. -/
theorem isInlineBlank_of_mem_gaps (before blanks : List Char)
    (tiles : Tiles (before ++ blanks) rest tokens)
    (inlineBlank : ∀ char ∈ blanks, Text.isInlineBlank char = true) :
    ∀ gap ∈ Text.gaps ((before ++ blanks) ++ rest) before.length tokens,
      ∀ char ∈ gap, Text.isInlineBlank char = true := by
  generalize place : before ++ blanks = front at tiles
  induction tiles generalizing before blanks with
  | textEnd _ spans =>
    subst place
    have gaps := spans.gaps_cons [] []
    rw [List.append_nil] at gaps
    rw [gaps]
    intro gap mem
    rw [List.mem_singleton.1 mem]
    exact inlineBlank
  | @blank _ rest char _ charBlank _ ih =>
    subst place
    have more : ∀ other ∈ blanks ++ [char], Text.isInlineBlank other = true := by
      intro other mem
      rcases List.mem_append.1 mem with mem | mem
      · exact inlineBlank other mem
      · rwa [List.mem_singleton.1 mem]
    have gaps := ih before (blanks ++ [char]) more (List.append_assoc before blanks [char]).symm
    rwa [List.append_assoc _ [char]] at gaps
  | @cons _ taken rest _ _ _ _ spans _ ih =>
    subst place
    rw [spans.gaps_cons]
    intro gap mem
    rcases List.mem_cons.1 mem with rfl | mem
    · exact inlineBlank
    · have noBlanks : ∀ char ∈ ([] : List Char), Text.isInlineBlank char = true := by simp
      exact ih (before ++ blanks ++ taken) [] noBlanks (List.append_nil _) gap mem

/-- The gaps and the tokens make up the text. -/
theorem flatten_gaps (before blanks : List Char) (tiles : Tiles (before ++ blanks) rest tokens) :
    (List.zipWith (fun gap token => gap ++ token.text.toList)
      (Text.gaps ((before ++ blanks) ++ rest) before.length tokens) tokens).flatten =
        blanks ++ rest := by
  generalize place : before ++ blanks = front at tiles
  induction tiles generalizing before blanks with
  | textEnd _ spans =>
    subst place
    have gaps := spans.gaps_cons [] []
    rw [List.append_nil] at gaps
    rw [gaps]
    simp [spans.text]
  | @blank _ rest char _ charBlank _ ih =>
    subst place
    have whole := ih before (blanks ++ [char]) (List.append_assoc before blanks [char]).symm
    simpa [List.append_assoc] using whole
  | @cons _ taken rest _ _ _ _ spans _ ih =>
    subst place
    have whole := ih (before ++ blanks ++ taken) [] (List.append_nil _)
    rw [spans.gaps_cons, List.zipWith_cons_cons, List.flatten_cons, whole, spans.text,
      String.toList_ofList, List.append_assoc, List.nil_append]

end Tiles
end Token
end NetDecl
