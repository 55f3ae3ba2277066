import NetDecl.Token.Cursor

/-!
# Stretches of tokens

`Lexer.Pulls` relates two places of a text by the tokens between them.  `Cursor.Iterates` tells
where a fold over tokens has come to after some of its iterations, and what each of these keeps holds
in the end.  A line that is known at one place stays known at all later places.
-/

namespace NetDecl

namespace Lexer

/-- Pulling `tokens` leads from the first lexer to the second. -/
inductive Pulls : Lexer → List Token → Lexer → Prop where
  | nil (lexer : Lexer) : Pulls lexer [] lexer
  | cons {lexer middle last : Lexer} {token : Token} {tokens : List Token} :
      lexer.next? = some (token, middle) → Pulls middle tokens last →
      Pulls lexer (token :: tokens) last

theorem pulls_singleton_iff {first last : Lexer} {token : Token} :
    Pulls first [token] last ↔ first.next? = some (token, last) := by
  constructor
  · intro pulls
    cases pulls with
    | cons found rest =>
      cases rest
      exact found
  · exact fun found => .cons found (.nil last)

theorem Pulls.append {first middle last : Lexer} {front back : List Token}
    (before : Pulls first front middle) (behind : Pulls middle back last) :
    Pulls first (front ++ back) last := by
  induction before with
  | nil => exact behind
  | cons found _ ih => exact .cons found (ih behind)

theorem Pulls.exists_of_append {first last : Lexer} {front back : List Token}
    (pulls : Pulls first (front ++ back) last) :
    ∃ middle, Pulls first front middle ∧ Pulls middle back last := by
  induction front generalizing first with
  | nil => exact ⟨first, .nil first, pulls⟩
  | cons token front ih =>
    cases pulls with
    | cons found rest =>
      rcases ih rest with ⟨middle, before, behind⟩
      exact ⟨middle, .cons found before, behind⟩

/-! ## Known lines -/

/-- The lexer has read the line to its end. -/
def Knows (lexer : Lexer) (line : Line) : Prop :=
  lexer.closed[line.index]? = some line ∨
    (lexer.finished = true ∧ lexer.closed.size ≤ line.index ∧ lexer.line = line)

theorem Knows.lineAt_eq {lexer : Lexer} {line : Line} (knows : lexer.Knows line) :
    lexer.lineAt line.index = line := by
  unfold lineAt
  rcases knows with closed | ⟨-, beyond, equal⟩
  · rw [closed, Option.getD_some]
  · rw [Array.getElem?_eq_none beyond, Option.getD_none, equal]

/-- Reading the end of a line leaves the closed lines as they are. -/
theorem getElem?_closed_of_lineEnd? {lexer next : Lexer} {token : Token} {index : Nat} {line : Line}
    (found : lexer.lineEnd? = some (token, next)) (closed : lexer.closed[index]? = some line) :
    next.closed[index]? = some line := by
  unfold lineEnd? at found
  split at found
  · cases found
    exact closed
  · obtain ⟨_, -, equal⟩ := Option.map_eq_some_iff.1 found
    cases equal
    obtain ⟨lt, -⟩ := Array.getElem?_eq_some_iff.1 closed
    rw [Array.getElem?_push_lt lt, ← Array.getElem?_eq_getElem lt]
    exact closed

theorem getElem?_closed_scan {lexer : Lexer} {index : Nat} {line : Line}
    (closed : lexer.closed[index]? = some line) : lexer.scan.2.closed[index]? = some line := by
  unfold scan
  dsimp only
  split
  · rename_i found lineEnd
    exact getElem?_closed_of_lineEnd? lineEnd closed
  · unfold word
    dsimp only
    split
    · rename_i lineEnd
      have kept := getElem?_closed_of_lineEnd? lineEnd closed
      exact kept
    · exact closed

theorem Knows.next {lexer next : Lexer} {token : Token} {line : Line} (knows : lexer.Knows line)
    (found : lexer.next? = some (token, next)) : next.Knows line := by
  unfold next? at found
  split at found
  · cases found
    exact knows
  · split at found
    · cases found
    · rename_i unfinished
      have equal : lexer.scan = (token, next) := Option.some.inj found
      rcases knows with closed | ⟨finished, -⟩
      · left
        simpa [equal] using getElem?_closed_scan closed
      · exact absurd finished unfinished

theorem Pulls.knows {lexer last : Lexer} {tokens : List Token} {line : Line}
    (pulls : Pulls lexer tokens last) (knows : lexer.Knows line) : last.Knows line := by
  induction pulls with
  | nil => exact knows
  | cons found _ ih => exact ih (knows.next found)

end Lexer

namespace Cursor

theorem advance_of_next? {cursor : Cursor} {token : Token} {next : Lexer}
    (found : cursor.lexer.next? = some (token, next)) :
    cursor.advance =
      { lexer := next
        current := some token
        textEnd := if token.isTextEnd then token.position else cursor.textEnd } := by
  simp only [advance, found]

theorem advance_of_next?_eq_none {cursor : Cursor} (exhausted : cursor.lexer.next? = none) :
    cursor.advance = { cursor with current := none } := by
  simp only [advance, exhausted]

theorem next?_of_current {cursor : Cursor} {token : Token}
    (pulled : cursor.advance.current = some token) :
    cursor.lexer.next? = some (token, cursor.advance.lexer) := by
  cases found : cursor.lexer.next? with
  | none =>
    rw [advance_of_next?_eq_none found] at pulled
    cases pulled
  | some read =>
    rcases read with ⟨other, next⟩
    rw [advance_of_next? found] at pulled ⊢
    cases pulled
    rfl

section Folds

variable {State : Type} {stops : Token → Bool} {step : State → Token → State}

theorem foldUntil_of_next?_eq_none {cursor : Cursor} (exhausted : cursor.lexer.next? = none)
    (state : State) :
    cursor.foldUntil stops step state = ({ cursor with current := none }, state) := by
  have pulled := advance_of_next?_eq_none exhausted
  rw [foldUntil]
  split
  · rename_i found
    rw [pulled] at found
    cases found
  · rw [pulled]

/-- A fold stops at the next token or combines it. -/
theorem foldUntil_of_current {cursor : Cursor} {token : Token}
    (pulled : cursor.advance.current = some token) (state : State) :
    cursor.foldUntil stops step state =
      if stops token then (cursor.advance, state)
      else cursor.advance.foldUntil stops step (step state token) := by
  rw [foldUntil]
  split
  · rename_i found
    rw [pulled] at found
    cases found
    rfl
  · rename_i found
    rw [pulled] at found
    cases found

/-- A fold that begins at a cursor with a state comes to another cursor and another state after some
iterations, and pulls the next token there. -/
inductive Iterates (stops : Token → Bool) (step : State → Token → State) :
    Cursor → State → Cursor → State → Prop where
  | start (cursor : Cursor) (state : State) : Iterates stops step cursor state cursor state
  | pass {cursor next : Cursor} {state reached : State} {token : Token} :
      cursor.advance.current = some token → stops token = false →
      Iterates stops step cursor.advance (step state token) next reached →
      Iterates stops step cursor state next reached

/-- What one iteration keeps holds at each of them. -/
theorem Iterates.keeps {holds : State → Prop} {cursor next : Cursor} {state reached : State}
    (iterates : Iterates stops step cursor state next reached) (start : holds state)
    (kept : ∀ state token, holds state → holds (step state token)) : holds reached := by
  induction iterates with
  | start => exact start
  | pass _ _ _ ih => exact ih (kept _ _ start)

/-- What a fold comes to is what it has come to at its last iteration. -/
theorem exists_iterates (stops : Token → Bool) (step : State → Token → State) (cursor : Cursor)
    (state : State) :
    ∃ last, Iterates stops step cursor state last (cursor.foldUntil stops step state).2 ∧
      last.advance = (cursor.foldUntil stops step state).1 := by
  fun_induction foldUntil stops step cursor state with
  | case1 cursor state => exact ⟨cursor, .start cursor state, rfl⟩
  | case2 cursor state token pulled passes ih =>
    rcases ih with ⟨last, iterates, behind⟩
    exact ⟨last, .pass pulled (eq_false_of_ne_true passes) iterates, behind⟩
  | case3 cursor state => exact ⟨cursor, .start cursor state, rfl⟩

/-- What each token keeps is kept by the fold. -/
theorem foldUntil_induction (holds : State → Prop) (cursor : Cursor) {state : State}
    (start : holds state) (kept : ∀ state token, holds state → holds (step state token)) :
    holds (cursor.foldUntil stops step state).2 := by
  rcases exists_iterates stops step cursor state with ⟨last, iterates, -⟩
  exact iterates.keeps start kept

/-- Behind tokens that do not stop it a fold goes on. -/
theorem exists_foldUntil_of_pulls {cursor : Cursor} {tokens : List Token} {last : Lexer}
    (pulls : cursor.lexer.Pulls tokens last) (pass : ∀ token ∈ tokens, stops token = false)
    (step : State → Token → State) (state : State) :
    ∃ middle : Cursor, middle.lexer = last ∧
      cursor.foldUntil stops step state =
        middle.foldUntil stops step (tokens.foldl step state) := by
  induction tokens generalizing cursor state with
  | nil =>
    cases pulls
    exact ⟨cursor, rfl, rfl⟩
  | cons token tokens ih =>
    cases pulls with
    | cons found pulls =>
      have advanced := advance_of_next? found
      have pulled : cursor.advance.current = some token := by rw [advanced]
      have passed : ¬stops token = true := by simp [pass token List.mem_cons_self]
      rw [foldUntil_of_current pulled, if_neg passed, List.foldl_cons]
      apply ih
      · rw [advanced]
        exact pulls
      · exact fun other mem => pass other (List.mem_cons_of_mem _ mem)

end Folds

end Cursor

end NetDecl
