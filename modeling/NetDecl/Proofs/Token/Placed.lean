import NetDecl.Proofs.Token.Exact

/-!
# The lines of tokens

A lexer counts lines while it reads: it passes over breaks one at a time, so the number of its line
is the number of breaks that end in the part that has been read, and its line starts where the last
of them ends.  The tokens that it hands out say the same of the places where they begin.
-/

namespace NetDecl

namespace Text

/-! ## Breaks -/

/-- Whether a line break ends between `front` and `back`. -/
def breakEnds (front back : List Char) : Bool :=
  front.getLast? == some '\n' || (front.getLast? == some '\r' && back.head? != some '\n')

/-- The places where the line breaks of a text end, as far as the given place. -/
def breaksUpTo (chars : List Char) (place : Nat) : List Nat :=
  (List.range (place + 1)).filter fun stop => breakEnds (chars.take stop) (chars.drop stop)

theorem breakEnds_iff {front back : List Char} :
    breakEnds front back = true ↔
      ∃ before lineBreak, front = before ++ lineBreak ∧ IsLineBreak before lineBreak back := by
  constructor
  · intro ends
    rcases List.eq_nil_or_concat front with rfl | ⟨before, last, rfl⟩
    · cases ends
    · simp only [breakEnds, List.concat_eq_append, List.getLast?_concat, Bool.or_eq_true,
        Bool.and_eq_true, beq_iff_eq, bne_iff_ne, Option.some.injEq] at ends ⊢
      rcases ends with rfl | ⟨rfl, alone⟩
      · by_cases returned : before.getLast? = some '\r'
        · rcases List.getLast?_eq_some_iff.1 returned with ⟨start, rfl⟩
          exact ⟨start, ['\r', '\n'], List.append_assoc _ _ _, .pair back⟩
        · exact ⟨before, ['\n'], rfl, .lineFeed back returned⟩
      · exact ⟨before, ['\r'], rfl, .carriageReturn alone⟩
  · rintro ⟨before, lineBreak, rfl, isLineBreak⟩
    cases isLineBreak with
    | pair =>
      rw [breakEnds, List.append_cons, List.getLast?_concat]
      rfl
    | carriageReturn alone =>
      rw [breakEnds, List.getLast?_concat]
      simp [alone]
    | lineFeed =>
      rw [breakEnds, List.getLast?_concat]
      rfl

theorem le_of_mem_breaksUpTo {chars : List Char} {place stop : Nat}
    (mem : stop ∈ breaksUpTo chars place) : stop ≤ place :=
  Nat.le_of_lt_succ (List.mem_range.1 (List.mem_filter.1 mem).1)

theorem pairwise_breaksUpTo (chars : List Char) (place : Nat) :
    (breaksUpTo chars place).Pairwise (· < ·) :=
  List.pairwise_lt_range.filter _

/-- Within the text, the places listed are those behind its line breaks. -/
theorem mem_breaksUpTo_iff {chars : List Char} {place stop : Nat} (within : place ≤ chars.length) :
    stop ∈ breaksUpTo chars place ↔
      stop ≤ place ∧ ∃ front lineBreak back, chars = front ++ (lineBreak ++ back) ∧
        stop = (front ++ lineBreak).length ∧ IsLineBreak front lineBreak back := by
  rw [breaksUpTo, List.mem_filter, List.mem_range, Nat.lt_succ_iff]
  constructor
  · rintro ⟨le, ends⟩
    rcases breakEnds_iff.1 ends with ⟨front, lineBreak, taken, isLineBreak⟩
    refine ⟨le, front, lineBreak, chars.drop stop, ?_, ?_, isLineBreak⟩
    · rw [← List.append_assoc, ← taken, List.take_append_drop]
    · rw [← taken, List.length_take, Nat.min_eq_left (Nat.le_trans le within)]
  · rintro ⟨le, front, lineBreak, back, rfl, rfl, isLineBreak⟩
    refine ⟨le, ?_⟩
    rw [← List.append_assoc, List.take_left, List.drop_left]
    exact breakEnds_iff.2 ⟨front, lineBreak, rfl, isLineBreak⟩

/-- The start of a text is not the end of a break, so there are no more breaks than characters. -/
theorem length_breaksUpTo_le (chars : List Char) (place : Nat) :
    (breaksUpTo chars place).length ≤ place := by
  rw [breaksUpTo, List.range_succ_eq_map, List.filter_cons_of_neg (by simp [breakEnds])]
  refine Nat.le_trans (List.length_filter_le _ _) ?_
  rw [List.length_map, List.length_range]

theorem getLastD_breaksUpTo_le (chars : List Char) (place : Nat) :
    (breaksUpTo chars place).getLastD 0 ≤ place := by
  rcases List.eq_nil_or_concat (breaksUpTo chars place) with none | ⟨others, last, some⟩
  · rw [none]
    exact Nat.zero_le place
  · have mem : last ∈ breaksUpTo chars place := by
      rw [some]
      simp
    rw [some, List.concat_eq_append, List.getLastD_concat]
    exact le_of_mem_breaksUpTo mem

theorem breaksUpTo_cons (front : List Char) (char : Char) (rest : List Char) :
    breaksUpTo (front ++ char :: rest) (front ++ [char]).length =
      breaksUpTo (front ++ char :: rest) front.length ++
        if breakEnds (front ++ [char]) rest then [(front ++ [char]).length] else [] := by
  have length : (front ++ [char]).length = front.length + 1 := by
    rw [List.length_append, List.length_singleton]
  have taken : (front ++ char :: rest).take (front.length + 1) = front ++ [char] := by
    rw [List.append_cons, List.take_left' length]
  have left : (front ++ char :: rest).drop (front.length + 1) = rest := by
    rw [List.append_cons, List.drop_left' length]
  rw [length, breaksUpTo, List.range_succ, List.filter_append]
  congr 1
  simp only [List.filter_cons, List.filter_nil, taken, left]

/-- No line ends within characters that are not breaks. -/
theorem breaksUpTo_append {taken : List Char} (notBreak : ∀ char ∈ taken, isBreak char = false)
    (front rest : List Char) :
    breaksUpTo (front ++ (taken ++ rest)) (front ++ taken).length =
      breaksUpTo (front ++ (taken ++ rest)) front.length := by
  induction taken generalizing front with
  | nil => rw [List.append_nil]
  | cons char taken ih =>
    rcases List.forall_mem_cons.1 notBreak with ⟨charNotBreak, others⟩
    have inside : breakEnds (front ++ [char]) (taken ++ rest) = false := by
      simp only [isBreak, Bool.or_eq_false_iff, beq_eq_false_iff_ne] at charNotBreak
      simp [breakEnds, charNotBreak]
    have first := breaksUpTo_cons front char (taken ++ rest)
    have passed := ih others (front ++ [char])
    simp only [List.append_assoc, List.cons_append, List.nil_append] at passed ⊢
    rw [passed, first, inside]
    exact List.append_nil _

/-- A line break ends behind its last character and not before. -/
theorem breaksUpTo_of_splitBreak? {chars lineBreak rest : List Char}
    (split : splitBreak? chars = some (lineBreak, rest)) (front : List Char) :
    breaksUpTo (front ++ chars) (front ++ lineBreak).length =
      breaksUpTo (front ++ chars) front.length ++ [(front ++ lineBreak).length] := by
  unfold splitBreak? at split
  split at split
  · cases split
    have inside : breakEnds (front ++ ['\r']) ('\n' :: rest) = false := by
      simp [breakEnds]
    have behind : breakEnds (front ++ ['\r'] ++ ['\n']) rest = true := by
      simp [breakEnds]
    have first := breaksUpTo_cons front '\r' ('\n' :: rest)
    have second := breaksUpTo_cons (front ++ ['\r']) '\n' rest
    rw [inside, if_neg Bool.false_ne_true, List.append_nil] at first
    rw [behind, if_pos rfl, ← List.append_cons, first] at second
    simpa using second
  · rename_i notLineFeed
    cases split
    have behind : breakEnds (front ++ ['\r']) rest = true := by
      have alone : rest.head? ≠ some '\n' := by
        intro head
        rcases List.head?_eq_some_iff.1 head with ⟨others, rfl⟩
        exact notLineFeed others rfl
      simp [breakEnds, alone]
    rw [breaksUpTo_cons, behind, if_pos rfl]
  · cases split
    have behind : breakEnds (front ++ ['\n']) rest = true := by
      simp [breakEnds]
    rw [breaksUpTo_cons, behind, if_pos rfl]
  · cases split

end Text

/-- The token says which line it begins on, and where that line begins. -/
structure Token.Placed (token : Token) (chars : List Char) : Prop where
  line : token.line = (Text.breaksUpTo chars token.start).length
  lineStart : token.lineStart = (Text.breaksUpTo chars token.start).getLastD 0

namespace Lexer

/-! ## Lexers within a text -/

/-- The lexer has read the characters `front` of the text, and it knows the line that it has come
to. -/
structure At (lexer : Lexer) (chars front : List Char) : Prop where
  whole : chars = front ++ lexer.rest
  behind : lexer.Behind front
  index : lexer.line.index = (Text.breaksUpTo chars front.length).length
  start : lexer.line.start = (Text.breaksUpTo chars front.length).getLastD 0

/-- The lexer behind the word that comes next. -/
def behindWord (lexer : Lexer) : Lexer :=
  lexer.pass (lexer.rest.takeWhile fun char => !Text.isBlank char)
    (lexer.rest.dropWhile fun char => !Text.isBlank char)

/-- The places that a lexer goes through while it reads the next token: blanks are passed over, and
a word if there is one.  At the last two places it looks for the end of the line. -/
def stages (lexer : Lexer) : List Lexer :=
  [lexer, lexer.skipBlanks, lexer.skipBlanks.behindWord]

section At

variable {lexer : Lexer} {chars front : List Char}

theorem at_start (text : String) : (start text).At text.toList [] :=
  ⟨rfl, behind_start text, rfl, rfl⟩

theorem At.pass (here : lexer.At chars front) {taken rest : List Char}
    (split : lexer.rest = taken ++ rest) (notBreak : ∀ char ∈ taken, Text.isBreak char = false) :
    (lexer.pass taken rest).At chars (front ++ taken) := by
  have whole : chars = front ++ (taken ++ rest) := by
    rw [← split]
    exact here.whole
  have same : Text.breaksUpTo chars (front ++ taken).length =
      Text.breaksUpTo chars front.length := by
    rw [whole]
    exact Text.breaksUpTo_append notBreak front rest
  refine ⟨?_, here.behind.pass taken rest, ?_, ?_⟩
  · rw [List.append_assoc]
    exact whole
  · rw [same]
    exact here.index
  · rw [same]
    exact here.start

theorem At.skipBlanks (here : lexer.At chars front) :
    ∃ front, lexer.skipBlanks.At chars front := by
  refine ⟨_, here.pass List.takeWhile_append_dropWhile.symm ?_⟩
  exact fun _ mem => Text.isBreak_eq_false_of_mem_blanks mem

theorem At.behindWord (here : lexer.At chars front) :
    ∃ front, lexer.behindWord.At chars front := by
  refine ⟨_, here.pass List.takeWhile_append_dropWhile.symm ?_⟩
  exact fun _ mem => Text.isBreak_eq_false_of_mem_word mem

theorem At.nextLine (here : lexer.At chars front) {lineBreak rest : List Char}
    (split : Text.splitBreak? lexer.rest = some (lineBreak, rest)) :
    (lexer.nextLine lineBreak rest).At chars (front ++ lineBreak) := by
  have breaks : Text.breaksUpTo chars (front ++ lineBreak).length =
      Text.breaksUpTo chars front.length ++ [(front ++ lineBreak).length] := by
    rw [here.whole]
    exact Text.breaksUpTo_of_splitBreak? split front
  refine ⟨?_, here.behind.nextLine lineBreak rest, ?_, ?_⟩
  · rw [List.append_assoc, here.whole, Text.append_of_splitBreak? split]
    rfl
  · rw [breaks, List.length_append, ← here.index]
    rfl
  · rw [breaks, List.getLastD_concat, List.length_append, ← here.behind.offset]
    rfl

theorem At.placed_token (here : lexer.At chars front) (kind : Token.Kind) (taken : List Char) :
    (lexer.token kind taken).Placed chars := by
  have place : (lexer.token kind taken).start = front.length := here.behind.offset
  constructor
  · rw [place]
    exact here.index
  · rw [place]
    exact here.start

/-- What a lexer holds back is no part of its place. -/
theorem At.hold (here : lexer.At chars front) (queued : Option Token) :
    ({ lexer with queued } : Lexer).At chars front :=
  ⟨here.whole, ⟨here.behind.offset, here.behind.byteOffset⟩, here.index, here.start⟩

/-- All that a lexer counts stays within the text. -/
theorem At.bounds (here : lexer.At chars front) :
    lexer.line.start ≤ lexer.offset ∧ lexer.line.index ≤ chars.length ∧
      lexer.offset ≤ chars.length ∧ lexer.byteOffset ≤ Text.byteLength chars := by
  have le : front.length ≤ chars.length := by
    rw [here.whole, List.length_append]
    exact Nat.le_add_right _ _
  rw [here.start, here.index, here.behind.offset, here.behind.byteOffset]
  refine ⟨Text.getLastD_breaksUpTo_le chars _, ?_, le, ?_⟩
  · exact Nat.le_trans (Text.length_breaksUpTo_le chars _) le
  · rw [here.whole, Text.byteLength_append]
    exact Nat.le_add_right _ _

end At

/-! ## Steps of a lexer -/

/-- The lexer knows its place in the text, and so does the token that it holds back. -/
structure Tracks (lexer : Lexer) (chars : List Char) : Prop where
  place : ∃ front, lexer.At chars front
  queued : ∀ token, lexer.queued = some token → token.Placed chars

section Tracks

variable {lexer next : Lexer} {chars : List Char} {token : Token}

theorem tracks_start (text : String) : (start text).Tracks text.toList :=
  ⟨⟨[], at_start text⟩, fun _ held => nomatch held⟩

theorem Tracks.skipBlanks (tracks : lexer.Tracks chars) : lexer.skipBlanks.Tracks chars := by
  rcases tracks.place with ⟨front, here⟩
  exact ⟨here.skipBlanks, tracks.queued⟩

theorem Tracks.behindWord (tracks : lexer.Tracks chars) : lexer.behindWord.Tracks chars := by
  rcases tracks.place with ⟨front, here⟩
  exact ⟨here.behindWord, tracks.queued⟩

theorem Tracks.exists_at_of_mem_stages (tracks : lexer.Tracks chars) {stage : Lexer}
    (visited : stage ∈ lexer.stages) : ∃ front, stage.At chars front := by
  simp only [stages, List.mem_cons, List.not_mem_nil, or_false] at visited
  rcases visited with rfl | rfl | rfl
  · exact tracks.place
  · exact tracks.skipBlanks.place
  · exact tracks.skipBlanks.behindWord.place

theorem Tracks.placed_token (tracks : lexer.Tracks chars) (kind : Token.Kind)
    (taken : List Char) : (lexer.token kind taken).Placed chars := by
  rcases tracks.place with ⟨front, here⟩
  exact here.placed_token kind taken

theorem Tracks.lineEnd? (tracks : lexer.Tracks chars)
    (found : lexer.lineEnd? = some (token, next)) : token.Placed chars ∧ next.Tracks chars := by
  rcases tracks.place with ⟨front, here⟩
  unfold Lexer.lineEnd? at found
  split at found
  · rename_i empty
    cases found
    refine ⟨here.placed_token .textEnd [], ⟨front, ?_⟩, tracks.queued⟩
    exact ⟨here.whole, ⟨here.behind.offset, here.behind.byteOffset⟩, here.index, here.start⟩
  · rcases Option.map_eq_some_iff.1 found with ⟨⟨lineBreak, rest⟩, split, equal⟩
    cases equal
    exact ⟨here.placed_token .lineEnd lineBreak, ⟨_, here.nextLine split⟩, tracks.queued⟩

theorem Tracks.word (tracks : lexer.Tracks chars) :
    lexer.word.1.Placed chars ∧ lexer.word.2.Tracks chars := by
  have placed := tracks.placed_token .word (lexer.rest.takeWhile fun char => !Text.isBlank char)
  have behind := tracks.behindWord
  unfold Lexer.word
  dsimp only
  split
  · rename_i lineEnd next found
    rcases behind.lineEnd? found with ⟨ended, ⟨front, here⟩, -⟩
    refine ⟨placed, ⟨front, here.hold _⟩, ?_⟩
    intro held same
    cases same
    exact ended
  · exact ⟨placed, behind⟩

theorem Tracks.scan (tracks : lexer.Tracks chars) :
    lexer.scan.1.Placed chars ∧ lexer.scan.2.Tracks chars := by
  unfold Lexer.scan
  dsimp only
  split
  · rename_i found lineEnd
    exact tracks.skipBlanks.lineEnd? lineEnd
  · exact tracks.skipBlanks.word

/-- Handing out a token keeps track of the place. -/
theorem Tracks.next? (tracks : lexer.Tracks chars) (found : lexer.next? = some (token, next)) :
    token.Placed chars ∧ next.Tracks chars := by
  unfold Lexer.next? at found
  split at found
  · rename_i held queued
    cases found
    rcases tracks.place with ⟨front, here⟩
    refine ⟨tracks.queued token queued, ⟨front, here.hold _⟩, ?_⟩
    exact fun _ none => nomatch none
  · split at found
    · cases found
    · have equal : lexer.scan = (token, next) := Option.some.inj found
      have scanned := tracks.scan
      rwa [equal] at scanned

theorem Tracks.advance (tracks : lexer.Tracks chars) : lexer.advance.Tracks chars := by
  unfold Lexer.advance
  split
  · rename_i token next found
    exact (tracks.next? found).2
  · exact tracks

/-- Call after call the lexer keeps track of the place. -/
theorem Tracks.iterate_advance (tracks : lexer.Tracks chars) (calls : Nat) :
    (Lexer.advance^[calls] lexer).Tracks chars := by
  induction calls generalizing lexer with
  | zero => exact tracks
  | succ calls ih =>
    rw [Function.iterate_succ_apply]
    exact ih tracks.advance

end Tracks

end Lexer

end NetDecl
