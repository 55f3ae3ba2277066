import NetDecl.Token.Lexer

/-!
# A place among the tokens of a text

A cursor pulls tokens from a lexer and remembers the last one pulled, and where the text ended.
Everything that reads a stretch of tokens does so with `Cursor.foldUntil`, which pulls tokens up to
and including the first one that stops the stretch.
-/

namespace NetDecl

/-- A reader of the tokens of a text. -/
structure Cursor where
  /-- Where the tokens come from. -/
  lexer : Lexer
  /-- The token pulled last; none before the first and beyond the last. -/
  current : Option Token
  /-- Where the text ends, once its end has been pulled; the start of the text before that. -/
  textEnd : Position
deriving DecidableEq, Repr

namespace Cursor

/-- A cursor before the first token of a text. -/
def start (text : String) : Cursor where
  lexer := Lexer.start text
  current := none
  textEnd := Position.origin

/-- Pull the next token. -/
def advance (cursor : Cursor) : Cursor :=
  match cursor.lexer.next? with
  | some (token, lexer) =>
      { lexer
        current := some token
        textEnd := if token.isTextEnd then token.position else cursor.textEnd }
  | none => { cursor with current := none }

/-- The line with the given index, as far as it has been read. -/
def lineAt (cursor : Cursor) (index : Nat) : Line :=
  cursor.lexer.lineAt index

/-- A bound on the number of tokens still to come. -/
def pending (cursor : Cursor) : Nat :=
  cursor.lexer.pending

theorem pending_advance_lt {cursor : Cursor} {token : Token}
    (pulled : cursor.advance.current = some token) : cursor.advance.pending < cursor.pending := by
  unfold advance at pulled ⊢
  split at pulled
  · rename_i found
    simpa [pending] using Lexer.pending_lt_of_next? found
  · cases pulled

theorem pending_advance_le (cursor : Cursor) : cursor.advance.pending ≤ cursor.pending := by
  cases pulled : cursor.advance.current with
  | some token => exact Nat.le_of_lt (pending_advance_lt pulled)
  | none =>
    unfold advance at pulled ⊢
    split at pulled
    · cases pulled
    · exact Nat.le_refl _

/-- Pull tokens up to and including the first that stops the stretch, and combine the others. -/
def foldUntil {State : Type} (stops : Token → Bool) (step : State → Token → State)
    (cursor : Cursor) (state : State) : Cursor × State :=
  match _pulled : cursor.advance.current with
  | some token =>
      if stops token then (cursor.advance, state)
      else foldUntil stops step cursor.advance (step state token)
  | none => (cursor.advance, state)
termination_by cursor.pending
decreasing_by exact pending_advance_lt _pulled

theorem pending_foldUntil_le {State : Type} (stops : Token → Bool) (step : State → Token → State)
    (cursor : Cursor) (state : State) :
    (cursor.foldUntil stops step state).1.pending ≤ cursor.pending := by
  fun_induction foldUntil stops step cursor state with
  | case1 => exact pending_advance_le _
  | case2 cursor state token _ _ ih => exact Nat.le_trans ih (pending_advance_le cursor)
  | case3 => exact pending_advance_le _

/-- Pull the tokens of the line, up to its end; none where the line has ended already. -/
def skipLine (cursor : Cursor) : Cursor :=
  if cursor.current.any Token.isBoundary then cursor
  else (cursor.foldUntil Token.isBoundary (fun _ _ => ()) ()).1

theorem pending_skipLine_le (cursor : Cursor) : cursor.skipLine.pending ≤ cursor.pending := by
  unfold skipLine
  split
  · exact Nat.le_refl _
  · exact pending_foldUntil_le _ _ _ _

end Cursor

end NetDecl
