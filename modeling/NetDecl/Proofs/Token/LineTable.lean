import NetDecl.Proofs.Token.Placed
import NetDecl.Proofs.Token.Rows

/-!
# The lines that a lexer knows

A lexer closes a line when it reads the break at its end, which can be one call before that break is
handed out.  Between two calls the closed lines are the first lines of the text, and every other
index names the line that is still open, whose length is known once the end of the text has been
read.  Reading characters within a line, the end of a line and a word each keep this, and so does
every call.
-/

namespace NetDecl

namespace Text

/-- The line of a text with the given index.  It starts behind the lines before it and their breaks,
and its length leaves out the break at its end. -/
def line? (text : String) (index : Nat) : Option Line :=
  let lines := splitLines text.toList
  lines[index]?.map fun raw =>
    { index
      start := ((lines.take index).flatMap fun raw => raw.content ++ raw.lineBreak).length
      length := raw.content.length }

end Text

namespace Row

theorem getElem?_map_line_number (index start : Nat) (lines : List RawLine) (position : Nat) :
    ((number index start lines).map line)[position]? = lines[position]?.map fun raw =>
      { index := index + position
        start := start +
          ((lines.take position).flatMap fun raw => raw.content ++ raw.lineBreak).length
        length := raw.content.length } := by
  induction lines generalizing index start position with
  | nil => rfl
  | cons raw lines ih =>
    cases position with
    | zero => rfl
    | succ position =>
      rw [number, List.map_cons, List.getElem?_cons_succ, List.getElem?_cons_succ, ih,
        List.take_succ_cons, List.flatMap_cons, List.length_append, List.length_append]
      congr 1
      funext raw
      rw [Line.mk.injEq]
      omega

/-- The rows of a text are on its lines. -/
theorem getElem?_map_line_ofText (text : String) (index : Nat) :
    ((ofText text).map line)[index]? = Text.line? text index := by
  rw [ofText, getElem?_map_line_number, Text.line?]
  simp only [Nat.zero_add]

end Row

/-- The token ends its line, or the end of the line directly follows it. -/
def Token.closesLine (token : Token) (text : String) : Bool :=
  token.isBoundary || (text.toList.drop token.stop).head?.all Text.isBreak

namespace Lexer

/-- The line with the index has been read to its end. -/
def HasRead (lexer : Lexer) (index : Nat) : Prop :=
  index < lexer.line.index ∨ lexer.finished = true

/-- The token is the end of a line that has been read. -/
structure HasEnded (lexer : Lexer) (token : Token) : Prop where
  isBoundary : token.isBoundary = true
  line_le : token.line ≤ lexer.line.index
  isTextEnd : token.isTextEnd = lexer.finished
  read : lexer.HasRead token.line

/-- The closed lines and those ahead are the lines of the text, and the open line has its length if
the end of the text has been read. -/
structure Tabulates (lexer : Lexer) (text : String) : Prop where
  tracks : lexer.Tracks text.toList
  lines : lexer.closed.toList ++ lexer.ahead.map Row.line = (Row.ofText text).map Row.line
  closed : lexer.closed.size = lexer.line.index
  start_le : lexer.line.start ≤ lexer.offset
  length : lexer.line.length = if lexer.finished then lexer.offset - lexer.line.start else 0
  rest : lexer.finished = true → lexer.rest = []
  queued : ∀ token, lexer.queued = some token → lexer.HasEnded token

theorem tabulates_start (text : String) : (start text).Tabulates text where
  tracks := tracks_start text
  lines := by
    rw [ahead_start]
    rfl
  closed := rfl
  start_le := Nat.le_refl 0
  length := rfl
  rest := nofun
  queued := nofun

section Lines

variable {lexer : Lexer} {text : String} {index : Nat}

/-- Lines before the one being read have been closed. -/
theorem Tabulates.line?_of_lt (tabulates : lexer.Tabulates text) (lt : index < lexer.line.index) :
    Text.line? text index = some (lexer.lineAt index) := by
  have inside : index < lexer.closed.size := by rwa [tabulates.closed]
  have within : index < lexer.closed.toList.length := inside
  rw [← Row.getElem?_map_line_ofText, ← tabulates.lines, List.getElem?_append_left within, lineAt,
    Array.getElem?_toList, Array.getElem?_eq_getElem inside]
  rfl

/-- Every other index names the line being read. -/
theorem Tabulates.lineAt_of_le (tabulates : lexer.Tabulates text)
    (le : lexer.line.index ≤ index) : lexer.lineAt index = lexer.line := by
  rw [← tabulates.closed] at le
  rw [lineAt, Array.getElem?_eq_none le]
  rfl

/-- The line being read is a line of the text, but for its length before the end of the text. -/
theorem Tabulates.exists_line? (tabulates : lexer.Tabulates text) :
    ∃ line, Text.line? text lexer.line.index = some line ∧
      lexer.line = if lexer.finished then line else { line with length := 0 } := by
  cases found : Text.splitLines lexer.rest with
  | nil => exact absurd found (Text.splitLines_ne_nil _)
  | cons raw lines =>
    let line : Line :=
      { lexer.line with length := lexer.offset - lexer.line.start + raw.content.length }
    have first : (lexer.ahead.map Row.line)[0]? = some line := by
      simp only [ahead, found, List.map_cons, List.getElem?_cons_zero, line]
    have place : lexer.closed.toList.length = lexer.line.index := tabulates.closed
    refine ⟨line, ?_, ?_⟩
    · rw [← Row.getElem?_map_line_ofText, ← tabulates.lines, ← place,
        List.getElem?_append_right (Nat.le_refl _), Nat.sub_self, first]
    · have length := tabulates.length
      cases finished : lexer.finished with
      | false =>
        rw [finished, if_neg Bool.false_ne_true] at length
        rw [if_neg Bool.false_ne_true, ← length]
      | true =>
        rw [finished, if_pos rfl] at length
        rw [tabulates.rest finished] at found
        cases found
        rw [if_pos rfl]
        simp only [line, List.length_nil, Nat.add_zero, ← length]

end Lines

/-! ## Reading -/

section Steps

variable {lexer next : Lexer} {text : String} {token : Token}

theorem Tabulates.ready (tabulates : lexer.Tabulates text) (unqueued : lexer.queued = none)
    (unfinished : lexer.finished = false) : lexer.Ready :=
  ⟨unqueued, unfinished, tabulates.closed, tabulates.start_le⟩

/-- Reading characters within the line leaves the lines as they are. -/
theorem Tabulates.pass (tabulates : lexer.Tabulates text) (ready : lexer.Ready)
    {taken rest : List Char} (split : lexer.rest = taken ++ rest)
    (notBreak : ∀ char ∈ taken, Text.isBreak char = false) :
    (lexer.pass taken rest).Tabulates text := by
  have passed := ready.pass taken rest
  rcases tabulates.tracks.place with ⟨front, here⟩
  rcases ready.ahead_pass split notBreak with ⟨raw, raws, row, rows, -, ahead, -, -, before⟩
  constructor
  · exact ⟨⟨_, here.pass split notBreak⟩, tabulates.tracks.queued⟩
  · rw [← tabulates.lines, ahead, before]
    rfl
  · exact passed.closed
  · exact passed.start_le
  · have length := tabulates.length
    rw [ready.finished] at length
    rw [passed.finished]
    exact length
  · intro finished
    rw [passed.finished] at finished
    cases finished
  · intro token queued
    rw [passed.queued] at queued
    cases queued

/-- Behind the end of a line, that line has been read. -/
theorem Tabulates.lineEnd? (tabulates : lexer.Tabulates text) (ready : lexer.Ready)
    (found : lexer.lineEnd? = some (token, next)) :
    next.Tabulates text ∧ next.HasEnded token ∧ token.line = lexer.line.index := by
  have tracks := (tabulates.tracks.lineEnd? found).2
  unfold Lexer.lineEnd? at found
  split at found
  · rename_i empty
    let ended : Lexer := { lexer with line := lexer.closedLine, finished := true }
    have behind : ended.ahead = [⟨lexer.closedLine, []⟩] := ahead_of_rest_eq_nil empty
    cases found
    change ended.Tabulates text ∧ _
    refine ⟨⟨tracks, ?_, tabulates.closed, tabulates.start_le, rfl, fun _ => empty, ?_⟩,
      ⟨rfl, Nat.le_refl _, rfl, .inr rfl⟩, rfl⟩
    · rw [← tabulates.lines, behind, ahead_of_rest_eq_nil empty]
    · intro token queued
      rw [ready.queued] at queued
      cases queued
  · rcases Option.map_eq_some_iff.1 found with ⟨⟨lineBreak, rest⟩, split, equal⟩
    have behind := ready.nextLine lineBreak rest
    have ahead := ahead_of_splitBreak? split
    cases equal
    change (lexer.nextLine lineBreak rest).Tabulates text ∧ _
    refine ⟨⟨tracks, ?_, behind.closed, behind.start_le, ?_, ?_, ?_⟩,
      ⟨rfl, Nat.le_succ _, ready.finished.symm, .inl (Nat.lt_succ_self _)⟩, rfl⟩
    · rw [← tabulates.lines, ahead, Lexer.nextLine, Array.toList_push, List.append_assoc]
      rfl
    · rw [behind.finished]
      rfl
    · intro finished
      rw [behind.finished] at finished
      cases finished
    · intro token queued
      rw [behind.queued] at queued
      cases queued

theorem HasEnded.closesLine (ended : lexer.HasEnded token) : token.closesLine text = true := by
  rw [Token.closesLine, ended.isBoundary, Bool.true_or]

/-- The end of a line that has been read can be held back. -/
theorem Tabulates.hold (tabulates : lexer.Tabulates text) (placed : token.Placed text.toList)
    (ended : lexer.HasEnded token) :
    ({ lexer with queued := some token } : Lexer).Tabulates text := by
  rcases tabulates.tracks.place with ⟨front, here⟩
  refine ⟨⟨⟨front, here.hold _⟩, ?_⟩, tabulates.lines, tabulates.closed, tabulates.start_le,
    tabulates.length, tabulates.rest, ?_⟩
  · intro held same
    cases same
    exact placed
  · intro held same
    cases same
    exact ⟨ended.isBoundary, ended.line_le, ended.isTextEnd, ended.read⟩

/-- What is held back can be handed out. -/
theorem Tabulates.unhold (tabulates : lexer.Tabulates text) :
    ({ lexer with queued := none } : Lexer).Tabulates text := by
  rcases tabulates.tracks.place with ⟨front, here⟩
  exact ⟨⟨⟨front, here.hold _⟩, nofun⟩, tabulates.lines, tabulates.closed, tabulates.start_le,
    tabulates.length, tabulates.rest, nofun⟩

/-- The end of a line comes next where nothing is left, or a break. -/
theorem isSome_lineEnd? (lexer : Lexer) :
    lexer.lineEnd?.isSome = lexer.rest.head?.all Text.isBreak := by
  cases front : lexer.rest with
  | nil =>
    simp only [Lexer.lineEnd?, front]
    rfl
  | cons char chars =>
    rw [List.head?_cons, Option.all_some]
    cases broken : Text.isBreak char with
    | true =>
      rcases Text.exists_splitBreak?_of_isBreak broken chars with ⟨lineBreak, rest, split⟩
      rw [← front] at split
      rw [lineEnd?_of_splitBreak? split]
      rfl
    | false =>
      have unbroken : Text.splitBreak? (char :: chars) = none := by
        rw [Option.eq_none_iff_forall_ne_some]
        rintro ⟨lineBreak, rest⟩ split
        rw [Text.isBreak_of_splitBreak? split rfl] at broken
        cases broken
      simp only [Lexer.lineEnd?, front, unbroken]
      rfl

theorem Tracks.drop_eq {chars : List Char} (tracks : lexer.Tracks chars) :
    chars.drop lexer.offset = lexer.rest := by
  rcases tracks.place with ⟨front, here⟩
  rw [here.whole, here.behind.offset, List.drop_left]

/-- The word that comes next. -/
def nextWord (lexer : Lexer) : Token :=
  lexer.token .word (lexer.rest.takeWhile fun char => !Text.isBlank char)

theorem word_of_lineEnd? (found : lexer.behindWord.lineEnd? = some (token, next)) :
    lexer.word = (lexer.nextWord, { next with queued := some token }) := by
  unfold Lexer.word
  dsimp only
  split
  · rename_i lineEnd behind same
    cases same.symm.trans found
    rfl
  · rename_i inside
    cases inside.symm.trans found

theorem word_of_lineEnd?_eq_none (inside : lexer.behindWord.lineEnd? = none) :
    lexer.word = (lexer.nextWord, lexer.behindWord) := by
  unfold Lexer.word
  dsimp only
  split
  · rename_i lineEnd behind found
    cases found.symm.trans inside
  · rfl

/-- A word with the end of its line behind it is the last on the line. -/
theorem Tabulates.closesLine_nextWord (behind : lexer.behindWord.Tabulates text) :
    lexer.nextWord.closesLine text = lexer.behindWord.lineEnd?.isSome := by
  rw [isSome_lineEnd?, ← behind.tracks.drop_eq]
  rfl

/-- Behind a word, its line has been read if the end of the line directly follows it. -/
theorem Tabulates.word (tabulates : lexer.Tabulates text) (ready : lexer.Ready) :
    lexer.word.2.Tabulates text ∧ lexer.word.1.line ≤ lexer.word.2.line.index ∧
      (lexer.word.2.HasRead lexer.word.1.line ↔ lexer.word.1.closesLine text = true) := by
  have behindReady : lexer.behindWord.Ready := ready.pass _ _
  have behind : lexer.behindWord.Tabulates text := by
    apply tabulates.pass ready List.takeWhile_append_dropWhile.symm
    exact fun _ mem => Text.isBreak_eq_false_of_mem_word mem
  cases found : lexer.behindWord.lineEnd? with
  | none =>
    rw [word_of_lineEnd?_eq_none found, behind.closesLine_nextWord, found]
    refine ⟨behind, Nat.le_refl _, iff_of_false ?_ Bool.false_ne_true⟩
    rintro (before | finished)
    · exact Nat.lt_irrefl _ before
    · rw [behindReady.finished] at finished
      cases finished
  | some ended =>
    rcases ended with ⟨lineEnd, next⟩
    rcases behind.lineEnd? behindReady found with ⟨after, closed, line⟩
    have placed := (behind.tracks.lineEnd? found).1
    rw [word_of_lineEnd? found, behind.closesLine_nextWord, found]
    have word : lexer.nextWord.line = lineEnd.line := line.symm
    rw [word]
    exact ⟨after.hold placed closed, closed.line_le, iff_of_true closed.read rfl⟩

/-- A token that is read leaves its line read if it is the last on the line. -/
theorem Tabulates.scan (tabulates : lexer.Tabulates text) (ready : lexer.Ready) :
    lexer.scan.2.Tabulates text ∧ lexer.scan.1.line ≤ lexer.scan.2.line.index ∧
      (lexer.scan.2.HasRead lexer.scan.1.line ↔ lexer.scan.1.closesLine text = true) := by
  have skippedReady := ready.skipBlanks
  have skipped : lexer.skipBlanks.Tabulates text := by
    apply tabulates.pass ready List.takeWhile_append_dropWhile.symm
    exact fun _ mem => Text.isBreak_eq_false_of_mem_blanks mem
  unfold Lexer.scan
  dsimp only
  split
  · rename_i found ended
    rcases skipped.lineEnd? skippedReady ended with ⟨after, closed, -⟩
    exact ⟨after, closed.line_le, iff_of_true closed.read closed.closesLine⟩
  · exact skipped.word skippedReady

/-- Handing out a token keeps the table of lines, and its line has been read if the token is the
last on it. -/
theorem Tabulates.next? (tabulates : lexer.Tabulates text)
    (found : lexer.next? = some (token, next)) :
    next.Tabulates text ∧ token.line ≤ next.line.index ∧
      (next.HasRead token.line ↔ token.closesLine text = true) := by
  unfold Lexer.next? at found
  split at found
  · rename_i held queued
    cases found
    have closed := tabulates.queued token queued
    refine ⟨tabulates.unhold, closed.line_le, iff_of_true closed.read closed.closesLine⟩
  · rename_i unqueued
    split at found
    · cases found
    · rename_i unfinished
      have equal : lexer.scan = (token, next) := Option.some.inj found
      have scanned := tabulates.scan (tabulates.ready unqueued (eq_false_of_ne_true unfinished))
      rwa [equal] at scanned

theorem Tabulates.advance (tabulates : lexer.Tabulates text) : lexer.advance.Tabulates text := by
  unfold Lexer.advance
  split
  · rename_i token next found
    exact (tabulates.next? found).1
  · exact tabulates

/-- Call after call the lexer keeps its table of lines. -/
theorem Tabulates.iterate_advance (tabulates : lexer.Tabulates text) (calls : Nat) :
    (Lexer.advance^[calls] lexer).Tabulates text := by
  induction calls generalizing lexer with
  | zero => exact tabulates
  | succ calls ih =>
    rw [Function.iterate_succ_apply]
    exact ih tabulates.advance

end Steps

/-! ## All calls -/

section Calls

variable {lexer : Lexer} {text : String} {index : Nat}

theorem Knows.iterate_advance {line : Line} (knows : lexer.Knows line) (calls : Nat) :
    (Lexer.advance^[calls] lexer).Knows line := by
  induction calls generalizing lexer with
  | zero => exact knows
  | succ calls ih =>
    rw [Function.iterate_succ_apply]
    apply ih
    unfold Lexer.advance
    split
    · rename_i token next found
      exact knows.next found
    · exact knows

/-- A closed line stays as it is. -/
theorem Tabulates.lineAt_iterate_of_lt (tabulates : lexer.Tabulates text)
    (lt : index < lexer.line.index) (calls : Nat) :
    (Lexer.advance^[calls] lexer).lineAt index = lexer.lineAt index := by
  have place : (lexer.lineAt index).index = index := by
    rcases Option.map_eq_some_iff.1 (tabulates.line?_of_lt lt) with ⟨raw, -, line⟩
    exact (congrArg Line.index line).symm
  have knows : lexer.Knows (lexer.lineAt index) := by
    have inside : index < lexer.closed.size := by rwa [tabulates.closed]
    left
    rw [place, lineAt, Array.getElem?_eq_getElem inside]
    rfl
  have known := (knows.iterate_advance calls).lineAt_eq
  rwa [place] at known

theorem advance_of_finished (finished : lexer.finished = true) :
    lexer.advance = { lexer with queued := none } := by
  rw [Lexer.advance, Lexer.next?]
  cases queued : lexer.queued with
  | some token => rfl
  | none =>
    simp only [finished, if_true]
    rw [← queued, ← finished]

/-- Once the end of the text has been read, all lines stay as they are. -/
theorem iterate_advance_of_finished (finished : lexer.finished = true) (calls : Nat) :
    (Lexer.advance^[calls] lexer).finished = true ∧
      ∀ index, (Lexer.advance^[calls] lexer).lineAt index = lexer.lineAt index := by
  induction calls with
  | zero => exact ⟨finished, fun _ => rfl⟩
  | succ calls ih =>
    rw [Function.iterate_succ_apply', advance_of_finished ih.1]
    exact ih

/-- The end of the text has been read if it has been handed out or is held back. -/
theorem Tabulates.finished_iff (tabulates : lexer.Tabulates text) :
    lexer.finished = true ↔
      lexer.next? = none ∨ ∃ token, lexer.queued = some token ∧ token.isTextEnd = true := by
  rw [Lexer.next?]
  cases queued : lexer.queued with
  | none => simp
  | some token => simp [(tabulates.queued token queued).isTextEnd]

/-- Between two calls on the lexer of a text, each line whose break has been read is known and never
changes.  All further indices name the line that is still open, which has its start, and its length
from the time on when the end of the text has been read.  A token that is handed out leaves its line
with its length if it is the last on the line but for its end, and with length zero otherwise. -/
theorem lineAt_iterate (text : String) (calls : Nat) :
    let lexer := Lexer.advance^[calls] (start text)
    let broken := (Text.breaksUpTo text.toList lexer.offset).length
    (∀ index, index < broken → Text.line? text index = some (lexer.lineAt index) ∧
      ∀ more, (Lexer.advance^[more] lexer).lineAt index = lexer.lineAt index) ∧
    (∃ line, Text.line? text broken = some line ∧ ∀ index, broken ≤ index →
      lexer.lineAt index = if lexer.finished then line else { line with length := 0 }) ∧
    (lexer.finished = true ↔
      lexer.next? = none ∨ ∃ token, lexer.queued = some token ∧ token.isTextEnd = true) ∧
    (lexer.finished = true → ∀ more, (Lexer.advance^[more] lexer).finished = true ∧
      ∀ index, (Lexer.advance^[more] lexer).lineAt index = lexer.lineAt index) ∧
    ∀ token next, lexer.next? = some (token, next) →
      ∃ line, Text.line? text token.line = some line ∧
        next.lineAt token.line =
          if token.closesLine text then line else { line with length := 0 } := by
  intro lexer broken
  have tabulates : lexer.Tabulates text := (tabulates_start text).iterate_advance calls
  have index : lexer.line.index = broken := by
    rcases tabulates.tracks.place with ⟨front, here⟩
    rw [here.index, ← here.behind.offset]
  rw [← index]
  refine ⟨?_, ?_, tabulates.finished_iff, iterate_advance_of_finished, ?_⟩
  · exact fun index lt => ⟨tabulates.line?_of_lt lt, tabulates.lineAt_iterate_of_lt lt⟩
  · rcases tabulates.exists_line? with ⟨line, found, here⟩
    refine ⟨line, found, fun index le => ?_⟩
    rw [tabulates.lineAt_of_le le, here]
  · intro token next found
    rcases tabulates.next? found with ⟨behind, le, read⟩
    rcases behind.exists_line? with ⟨last, lastFound, here⟩
    rcases Nat.lt_or_eq_of_le le with lt | same
    · have ended : token.closesLine text = true := read.1 (.inl lt)
      simp only [ended, if_true]
      exact ⟨_, behind.line?_of_lt lt, rfl⟩
    · refine ⟨last, same ▸ lastFound, ?_⟩
      rw [behind.lineAt_of_le (Nat.le_of_eq same.symm), here]
      have ended : next.finished = true ↔ token.closesLine text = true := by
        rw [← read, HasRead, same]
        simp
      simp only [ended]

-- The break behind `b` has been read before `b` is handed out, and that behind `c` has not.
example : (tokenize "a b\r\nc \n").zipIdx.map (fun (token, place) =>
    ((Lexer.advance^[place + 1] (start "a b\r\nc \n")).lineAt token.line).length) =
      [0, 3, 3, 0, 2, 0] := by
  decide +kernel

end Calls

end Lexer

end NetDecl
