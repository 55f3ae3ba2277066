import NetDecl.Proofs.Token.Stretch

/-!
# Calls on a cursor

Whatever calls are made on a cursor, and in whatever order, it follows the tokens of its text: it is
at the token pulled last, a line is left at its end, and the end of the text is remembered once it
has been pulled.  A single pull keeps the cursor on the tokens, and so do loops and calls.
-/

namespace NetDecl

namespace Cursor

/-- A call on a cursor.  It is answered with the token that the cursor is at behind the call. -/
inductive Call where
  /-- Pull the next token. -/
  | advance
  /-- Pull the tokens of the line, up to its end. -/
  | skipLine
deriving DecidableEq, Repr

namespace Call

/-- The cursor behind a call. -/
def behind : Call → Cursor → Cursor
  | advance, cursor => cursor.advance
  | skipLine, cursor => cursor.skipLine

/-- The tokens that a call pulls. -/
def pulled : Call → Cursor → List Token
  | advance, cursor => cursor.advance.current.toList
  | skipLine, cursor =>
      if cursor.current.any Token.isBoundary then []
      else (cursor.stretch Token.isBoundary).pulled

end Call

/-- A cursor with all that calls on it have pulled and answered. -/
structure History where
  /-- The cursor behind the calls. -/
  cursor : Cursor
  /-- The tokens pulled, in order. -/
  pulled : List Token
  /-- The answers, in order. -/
  answers : List (Option Token)

namespace History

/-- A cursor on which no call has been made. -/
def start (text : String) : History :=
  ⟨Cursor.start text, [], []⟩

/-- Make one more call. -/
def step (history : History) (call : Call) : History where
  cursor := call.behind history.cursor
  pulled := history.pulled ++ call.pulled history.cursor
  answers := history.answers ++ [(call.behind history.cursor).current]

/-- Make calls on a cursor at the start of a text. -/
def after (text : String) (calls : List Call) : History :=
  calls.foldl step (start text)

end History

/-! ## Following the tokens of a text -/

/-- Where the text ends, if that has been pulled with the tokens; the start of the text before. -/
def endAmong (pulled : List Token) : Position :=
  ((pulled.find? Token.isTextEnd).map Token.position).getD Position.origin

/-- The cursor has pulled the tokens from the start of the text, and `past` tells whether it has
also been asked for a token behind the last. -/
structure Follows (cursor : Cursor) (text : String) (pulled : List Token) (past : Bool) : Prop where
  pulls : (Lexer.start text).Pulls pulled cursor.lexer
  current : cursor.current = if past then none else pulled.getLast?
  exhausted : past = true → cursor.lexer.next? = none
  textEnd : cursor.textEnd = endAmong pulled

theorem follows_start (text : String) : (start text).Follows text [] false where
  pulls := .nil _
  current := rfl
  exhausted := nofun
  textEnd := rfl

section Follows

variable {cursor : Cursor} {text : String} {pulled : List Token} {past : Bool}

/-- The tokens pulled and those still to come are the tokens of the text. -/
theorem Follows.tokenize_eq (follows : cursor.Follows text pulled past) :
    tokenize text = pulled ++ cursor.lexer.tokens :=
  follows.pulls.tokens_eq

/-- The end of a text is pulled last. -/
theorem Follows.isTextEnd_eq_false (follows : cursor.Follows text pulled past) {next : Token}
    (found : cursor.advance.current = some next) :
    ∀ token ∈ pulled, token.isTextEnd = false := by
  rcases (tiles_tokenize text).exists_eq_append_textEnd with ⟨init, last, split, -, inside⟩
  rw [follows.tokenize_eq, Lexer.tokens_of_next? (next?_of_current found)] at split
  -- The last token of the text is `next` or behind it.
  have within : pulled <+: init := by
    rcases List.eq_nil_or_concat cursor.advance.lexer.tokens with empty | ⟨others, token, more⟩
    · rw [empty] at split
      exact ⟨[], by rw [List.append_nil, (List.append_singleton_inj.1 split).1]⟩
    · rw [more, List.concat_eq_append, ← List.cons_append, ← List.append_assoc] at split
      exact ⟨_, (List.append_singleton_inj.1 split).1⟩
  intro token mem
  simpa [Token.isTextEnd] using inside token (within.subset mem)

theorem endAmong_of_forall (inside : ∀ token ∈ pulled, token.isTextEnd = false) :
    endAmong pulled = Position.origin := by
  have none : pulled.find? Token.isTextEnd = none := by
    rw [List.find?_eq_none]
    intro token mem
    simp [inside token mem]
  rw [endAmong, none]
  rfl

theorem endAmong_concat {next : Token} (inside : ∀ token ∈ pulled, token.isTextEnd = false) :
    endAmong (pulled ++ [next]) = if next.isTextEnd then next.position else endAmong pulled := by
  have none : pulled.find? Token.isTextEnd = none := by
    rw [List.find?_eq_none]
    intro token mem
    simp [inside token mem]
  rw [endAmong_of_forall inside, endAmong, List.find?_append, none, Option.none_or]
  by_cases ends : next.isTextEnd = true
  · rw [List.find?_cons_of_pos ends, if_pos ends]
    rfl
  · rw [List.find?_cons_of_neg ends, if_neg ends]
    rfl

/-- A text has one end. -/
theorem Follows.endAmong_eq (follows : cursor.Follows text pulled past) {ending : Token}
    (mem : ending ∈ pulled) (ends : ending.isTextEnd = true) :
    endAmong pulled = ending.position := by
  rcases (tiles_tokenize text).exists_eq_append_textEnd with ⟨init, last, split, -, inside⟩
  have whole : pulled ⊆ tokenize text := by
    rw [follows.tokenize_eq]
    exact List.subset_append_left _ _
  have isLast : ∀ token ∈ pulled, token.isTextEnd = true → token = last := by
    intro token pulledMem tokenEnds
    have within := whole pulledMem
    rw [split] at within
    rcases List.mem_append.1 within with before | here
    · exact absurd (by simpa [Token.isTextEnd] using tokenEnds) (inside token before)
    · exact List.mem_singleton.1 here
  cases found : pulled.find? Token.isTextEnd with
  | none => exact absurd ends (List.find?_eq_none.1 found ending mem)
  | some token =>
    have same := isLast token (List.mem_of_find?_eq_some found) (List.find?_some found)
    rw [endAmong, found, same, isLast ending mem ends]
    rfl

/-- A pull keeps a cursor on the tokens of its text. -/
theorem Follows.advance (follows : cursor.Follows text pulled past) :
    cursor.advance.Follows text (pulled ++ cursor.advance.current.toList)
      (past || cursor.advance.current.isNone) := by
  have pulls := follows.pulls.append cursor.pulls_advance
  cases found : cursor.advance.current with
  | none =>
    rw [found] at pulls
    constructor
    · exact pulls
    · simpa using found
    · exact fun _ => next?_of_current_advance_eq_none found
    · rw [current_advance, Option.map_eq_none_iff] at found
      rw [Option.toList_none, List.append_nil, advance_of_next?_eq_none found]
      exact follows.textEnd
  | some next =>
    rw [found] at pulls
    have here := next?_of_current found
    have unasked : past = false := by
      rw [← Bool.not_eq_true]
      intro asked
      rw [follows.exhausted asked] at here
      cases here
    constructor
    · exact pulls
    · rw [found, unasked, Option.toList_some, List.getLast?_concat]
      rfl
    · rw [unasked]
      exact nofun
    · rw [Option.toList_some, endAmong_concat (follows.isTextEnd_eq_false found),
        ← follows.textEnd, advance_of_next? here]

/-- So does a loop. -/
theorem Follows.stretch (follows : cursor.Follows text pulled past) (stops : Token → Bool) :
    (cursor.stretch stops).behind.Follows text (pulled ++ (cursor.stretch stops).pulled)
      (past || (cursor.stretch stops).behind.current.isNone) := by
  revert pulled past
  apply stretch_induction stops (motive := fun cursor behind passed => ∀ {pulled past},
    cursor.Follows text pulled past → behind.Follows text
      (pulled ++ (passed ++ behind.current.toList)) (past || behind.current.isNone))
  case ends => exact fun _ _ _ _ follows => follows.advance
  case passes =>
    intro cursor token found _ ih pulled past follows
    have next := follows.advance
    rw [found, Option.isNone_some, Bool.or_false] at next
    simpa using ih next

theorem skipLine_of_isBoundary (inside : cursor.current.any Token.isBoundary = true) :
    cursor.skipLine = cursor := by
  rw [skipLine, if_pos inside]

theorem skipLine_eq_behind (outside : ¬cursor.current.any Token.isBoundary = true) :
    cursor.skipLine = (cursor.stretch Token.isBoundary).behind := by
  rw [skipLine, if_neg outside, foldUntil_eq]

/-- So does a call. -/
theorem Follows.call (follows : cursor.Follows text pulled past) (call : Call) :
    (call.behind cursor).Follows text (pulled ++ call.pulled cursor)
      (past || (call.behind cursor).current.isNone) := by
  cases call with
  | advance => exact follows.advance
  | skipLine =>
    rw [Call.behind, Call.pulled]
    by_cases ended : cursor.current.any Token.isBoundary = true
    · have known : cursor.current.isNone = false := by
        cases current : cursor.current with
        | none =>
          rw [current] at ended
          cases ended
        | some token => rfl
      rw [if_pos ended, skipLine_of_isBoundary ended, List.append_nil, known, Bool.or_false]
      exact follows
    · rw [if_neg ended, skipLine_eq_behind ended]
      exact follows.stretch Token.isBoundary

/-! ## Calls in any order -/

/-- At a token or before the first, the cursor has that token and those still to come before it. -/
theorem Follows.drop_tokenize (follows : cursor.Follows text pulled past) :
    (tokenize text).drop (pulled.length - 1) =
      pulled.getLast?.toList ++ cursor.lexer.tokens := by
  rw [follows.tokenize_eq]
  rcases List.eq_nil_or_concat pulled with rfl | ⟨others, last, rfl⟩
  · rfl
  · have length : (others ++ [last]).length - 1 = others.length := by simp
    rw [List.concat_eq_append, length, List.append_assoc, List.drop_left, List.getLast?_concat]
    rfl

theorem Follows.current_advance (follows : cursor.Follows text pulled past) :
    cursor.advance.current = (tokenize text)[pulled.length]? := by
  rw [follows.tokenize_eq, List.getElem?_append_right (Nat.le_refl _), Nat.sub_self,
    ← cursor.lexer.next?_iterate_advance 0, Cursor.current_advance]
  rfl

/-- A line is left at the first boundary from the cursor on. -/
theorem Follows.current_skipLine (follows : cursor.Follows text pulled past) :
    cursor.skipLine.current =
      if past then none
      else ((tokenize text).drop (pulled.length - 1)).find? Token.isBoundary := by
  have current := follows.current
  rw [follows.drop_tokenize, List.find?_append]
  by_cases ended : cursor.current.any Token.isBoundary = true
  · rw [skipLine_of_isBoundary ended]
    cases past with
    | true => exact current
    | false =>
      rw [if_neg Bool.false_ne_true] at current ⊢
      rw [current] at ended ⊢
      cases last : pulled.getLast? with
      | none =>
        rw [last] at ended
        cases ended
      | some token =>
        rw [last, Option.any_some] at ended
        rw [Option.toList_some, List.find?_cons_of_pos ended]
        rfl
  · rw [skipLine_eq_behind ended, Stretch.current_behind]
    cases past with
    | true => rw [if_pos rfl, Lexer.tokens_of_next?_eq_none (follows.exhausted rfl), List.find?_nil]
    | false =>
      rw [if_neg Bool.false_ne_true] at current ⊢
      rw [current] at ended
      have passed : pulled.getLast?.toList.find? Token.isBoundary = none := by
        rw [List.find?_eq_none]
        intro token mem
        rw [Option.mem_toList.1 mem] at ended
        exact ended
      rw [passed, Option.none_or]

theorem Follows.current_skipLine_eq_none_iff (follows : cursor.Follows text pulled past) :
    cursor.skipLine.current = none ↔ past = true := by
  rw [follows.current_skipLine]
  cases past with
  | true => exact iff_of_true rfl rfl
  | false =>
    -- The text ends with a boundary, and that is not yet behind the cursor.
    rcases (tiles_tokenize text).exists_eq_append_textEnd with ⟨init, last, split, kind, -⟩
    have boundary : last.isBoundary = true := by simp [Token.isBoundary, kind]
    have le : pulled.length ≤ (tokenize text).length := by
      rw [follows.tokenize_eq, List.length_append]
      exact Nat.le_add_right _ _
    have there : last ∈ (tokenize text).drop (pulled.length - 1) := by
      rw [split, List.length_append, List.length_singleton] at le
      rw [split, List.drop_append_of_le_length (by omega)]
      exact List.mem_append_right _ (List.mem_singleton_self last)
    apply iff_of_false _ Bool.false_ne_true
    rw [if_neg Bool.false_ne_true, List.find?_eq_none]
    exact fun without => without last there boundary

theorem skipLine_skipLine (cursor : Cursor) : cursor.skipLine.skipLine = cursor.skipLine := by
  by_cases ended : cursor.current.any Token.isBoundary = true
  · rw [skipLine_of_isBoundary ended, skipLine_of_isBoundary ended]
  · have ends := Stretch.ends_stretch cursor Token.isBoundary
    rw [skipLine_eq_behind ended]
    rcases ends.stopped with ⟨token, current, stopped⟩ | ⟨current, exhausted⟩
    · apply skipLine_of_isBoundary
      rw [current]
      exact stopped
    · rw [skipLine, if_neg (by simp [current]), foldUntil_of_next?_eq_none exhausted, ← current]

end Follows

namespace History

/-- What a history says of its text: the cursor behind the calls, and what it does next. -/
structure Lawful (text : String) (history : History) : Prop where
  /-- The tokens recorded have led the lexer of the cursor to its place. -/
  pulls : (Lexer.start text).Pulls history.pulled history.cursor.lexer
  /-- They are the first tokens of the text. -/
  pulled : history.pulled <+: tokenize text
  /-- The cursor is at the token pulled last, and at none before the first token and from the first
  answer on that is none. -/
  current : history.cursor.current =
    if none ∈ history.answers then none else history.pulled.getLast?
  /-- That answer comes when all tokens have been pulled. -/
  exhausted : none ∈ history.answers → history.pulled = tokenize text
  /-- A pull gives the next token of the text. -/
  advance : history.cursor.advance.current = (tokenize text)[history.pulled.length]?
  /-- A line is left at the first boundary from the cursor on, which before the first token is the
  first boundary of the text. -/
  skipLine : history.cursor.skipLine.current =
    if none ∈ history.answers then none
    else ((tokenize text).drop (history.pulled.length - 1)).find? Token.isBoundary
  /-- There is one unless a token has been asked for behind the last. -/
  skipLine_eq_none_iff : history.cursor.skipLine.current = none ↔ none ∈ history.answers
  /-- Nothing is pulled at a boundary. -/
  skipLine_of_isBoundary : history.cursor.current.any Token.isBoundary = true →
    history.cursor.skipLine = history.cursor
  /-- Elsewhere no token is pulled behind the boundary, and none is left out before it. -/
  pulled_skipLine : history.cursor.current.any Token.isBoundary = false →
    (history.step .skipLine).pulled = history.pulled ++
      (((tokenize text).drop history.pulled.length).takeWhile (fun token => !token.isBoundary) ++
        (((tokenize text).drop history.pulled.length).find? Token.isBoundary).toList)
  /-- A line that has been left is not left again. -/
  skipLine_skipLine : history.cursor.skipLine.skipLine = history.cursor.skipLine
  /-- The end of the text is not known before it has been pulled. -/
  textEnd_of_forall : (∀ token ∈ history.pulled, token.isTextEnd = false) →
    history.cursor.textEnd = ⟨0, 0⟩
  /-- It is remembered from then on. -/
  textEnd : ∀ token ∈ history.pulled, token.isTextEnd = true →
    history.cursor.textEnd = token.position

/-- The cursor of a history follows the text. -/
def Follows (history : History) (text : String) : Prop :=
  history.cursor.Follows text history.pulled (history.answers.contains none)

theorem follows_start (text : String) : (start text).Follows text :=
  Cursor.follows_start text

theorem follows_step {history : History} {text : String} (follows : history.Follows text)
    (call : Call) : (history.step call).Follows text := by
  have next := Cursor.Follows.call follows call
  have answers : (history.step call).answers.contains none =
      (history.answers.contains none || (call.behind history.cursor).current.isNone) := by
    rw [step, List.contains_append]
    cases (call.behind history.cursor).current <;> simp
  rw [Follows, answers]
  exact next

theorem follows_foldl {history : History} {text : String} (follows : history.Follows text)
    (calls : List Call) : (calls.foldl step history).Follows text := by
  induction calls generalizing history with
  | nil => exact follows
  | cons call calls ih => exact ih (follows_step follows call)

theorem Follows.lawful {history : History} {text : String} (follows : history.Follows text) :
    history.Lawful text := by
  have asked : history.answers.contains none = true ↔ none ∈ history.answers :=
    List.contains_iff_mem
  constructor
  · exact follows.pulls
  · exact ⟨_, follows.tokenize_eq.symm⟩
  · rw [follows.current]
    simp only [asked]
  · intro past
    have empty := Lexer.tokens_of_next?_eq_none (follows.exhausted (asked.2 past))
    rw [follows.tokenize_eq, empty, List.append_nil]
  · exact follows.current_advance
  · rw [follows.current_skipLine]
    simp only [asked]
  · exact follows.current_skipLine_eq_none_iff.trans asked
  · exact skipLine_of_isBoundary
  · intro outside
    have call : Call.skipLine.pulled history.cursor =
        (history.cursor.stretch Token.isBoundary).pulled := by
      rw [Call.pulled, outside]
      rfl
    rw [step, call, Stretch.pulled, Stretch.passed_eq, Stretch.current_behind,
      follows.tokenize_eq, List.drop_left]
  · exact history.cursor.skipLine_skipLine
  · intro inside
    exact follows.textEnd.trans (endAmong_of_forall inside)
  · intro ending mem ends
    exact follows.textEnd.trans (Cursor.Follows.endAmong_eq follows mem ends)

/-- What calls have pulled is still there when more calls follow. -/
theorem prefix_foldl (history : History) (calls : List Call) :
    history.pulled <+: (calls.foldl step history).pulled := by
  induction calls generalizing history with
  | nil => exact List.prefix_rfl
  | cons call calls ih => exact (List.prefix_append _ _).trans (ih (history.step call))

/-- Whatever calls are made on a cursor at the start of a text, in whatever order, the cursor keeps
to the tokens of the text: it is at the one pulled last, a line is left at its first boundary from
there on, and once the end of the text has been pulled no call changes its place. -/
theorem lawful_after (text : String) (calls : List Call) :
    (after text calls).Lawful text ∧
      ∀ more, (∃ token ∈ (after text calls).pulled, token.isTextEnd = true) →
        (after text (calls ++ more)).cursor.textEnd = (after text calls).cursor.textEnd := by
  have lawful (made : List Call) : (after text made).Lawful text :=
    (follows_foldl (follows_start text) made).lawful
  constructor
  · exact lawful calls
  · rintro more ⟨token, mem, ends⟩
    have grown : (after text calls).pulled <+: (after text (calls ++ more)).pulled := by
      rw [after, after, List.foldl_append]
      exact prefix_foldl _ more
    rw [(lawful calls).textEnd token mem ends,
      (lawful (calls ++ more)).textEnd token (grown.subset mem) ends]

-- The line is left at its break, twice over, and then at the end of the text.
example : (after "a b\nc" [.advance, .skipLine, .skipLine, .advance, .skipLine, .advance,
    .skipLine]).answers.map (fun answer => answer.map Token.text) =
      [some "a", some "\n", some "\n", some "c", some "", none, none] := by
  decide +kernel

end History

end Cursor

end NetDecl
