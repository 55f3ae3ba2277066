import NetDecl.Proofs.Token.Exact

/-!
# Loops over tokens

Whatever is combined on the way, a loop over tokens pulls the same tokens.  `Stretch` is the loop
without what it combines: it tells which tokens are pulled, which of them are combined and where the
cursor is in the end.  A loop combines the tokens still to come up to the first that stops it, and
it ends at that token, or beyond the last token where none stops it.  `Cursor.stretch_induction`
follows a loop from token to token.
-/

namespace NetDecl

/-- A loop that pulls tokens from a cursor up to and including the first that stops it. -/
structure Stretch where
  /-- Where the loop begins. -/
  start : Cursor
  /-- The tokens that stop the loop. -/
  stops : Token → Bool

/-- The loop that begins at the cursor. -/
def Cursor.stretch (cursor : Cursor) (stops : Token → Bool) : Stretch :=
  ⟨cursor, stops⟩

@[simp]
theorem Cursor.stops_stretch (cursor : Cursor) (stops : Token → Bool) :
    (cursor.stretch stops).stops = stops :=
  rfl

namespace Stretch

/-- Where the loop ends, and the tokens that it combines. -/
def result (stretch : Stretch) : Cursor × List Token :=
  stretch.start.foldUntil stretch.stops (fun passed token => passed ++ [token]) []

/-- Where the loop ends. -/
def behind (stretch : Stretch) : Cursor :=
  stretch.result.1

/-- The tokens that the loop combines. -/
def passed (stretch : Stretch) : List Token :=
  stretch.result.2

/-- The tokens that the loop pulls: those that it combines, and the one that stops it. -/
def pulled (stretch : Stretch) : List Token :=
  stretch.passed ++ stretch.behind.current.toList

/-- The loop ends: no token that it combines stops it, and it is left with one that does, or with
none where no more tokens are to come. -/
structure Ends (stretch : Stretch) : Prop where
  passes : ∀ token ∈ stretch.passed, stretch.stops token = false
  stopped : (∃ token, stretch.behind.current = some token ∧ stretch.stops token = true) ∨
    (stretch.behind.current = none ∧ stretch.behind.lexer.next? = none)

/-- The loops follow each other from one cursor to another: each begins where the one before it has
ended. -/
inductive Chain : Cursor → List Stretch → Cursor → Prop where
  | nil (cursor : Cursor) : Chain cursor [] cursor
  | cons {stretch : Stretch} {stretches : List Stretch} {after : Cursor} :
      Chain stretch.behind stretches after → Chain stretch.start (stretch :: stretches) after

end Stretch

namespace Cursor

/-- What `advance` pulls. -/
theorem pulls_advance (cursor : Cursor) :
    cursor.lexer.Pulls cursor.advance.current.toList cursor.advance.lexer := by
  cases found : cursor.lexer.next? with
  | none =>
    rw [advance_of_next?_eq_none found]
    exact .nil cursor.lexer
  | some read =>
    rw [advance_of_next? found]
    exact .cons found (.nil read.2)

theorem current_advance (cursor : Cursor) :
    cursor.advance.current = cursor.lexer.next?.map Prod.fst := by
  cases found : cursor.lexer.next? with
  | none =>
    rw [advance_of_next?_eq_none found]
    rfl
  | some read =>
    rw [advance_of_next? found]
    rfl

theorem next?_of_current_advance_eq_none {cursor : Cursor}
    (exhausted : cursor.advance.current = none) : cursor.advance.lexer.next? = none := by
  rw [current_advance, Option.map_eq_none_iff] at exhausted
  rw [advance_of_next?_eq_none exhausted]
  exact exhausted

section Stretches

variable {State : Type} {stops : Token → Bool} {step : State → Token → State}

/-- A loop that has combined the tokens `front` goes on as one that has only listed them. -/
theorem foldUntil_foldl (cursor : Cursor) (front : List Token) (state : State) :
    cursor.foldUntil stops step (front.foldl step state) =
      ((cursor.foldUntil stops (fun passed token => passed ++ [token]) front).1,
        (cursor.foldUntil stops (fun passed token => passed ++ [token]) front).2.foldl step
          state) := by
  fun_induction foldUntil stops (fun passed token => passed ++ [token]) cursor front with
  | case1 cursor front token pulled stopped =>
    rw [foldUntil_of_current pulled, if_pos stopped]
  | case2 cursor front token pulled passes ih =>
    rw [foldUntil_of_current pulled, if_neg passes, ← ih, List.foldl_append]
    rfl
  | case3 cursor front exhausted =>
    rw [foldUntil]
    split
    · rename_i token pulled
      rw [exhausted] at pulled
      cases pulled
    · rfl

/-- Whatever a loop combines, it ends where its stretch does, and it combines what this passes. -/
theorem foldUntil_eq (stops : Token → Bool) (step : State → Token → State) (cursor : Cursor)
    (state : State) :
    cursor.foldUntil stops step state =
      ((cursor.stretch stops).behind, (cursor.stretch stops).passed.foldl step state) :=
  cursor.foldUntil_foldl [] state

/-! ## One step of a loop -/

/-- A loop ends at once if it pulls a token that stops it, or none. -/
theorem stretch_of_all {cursor : Cursor} (ended : cursor.advance.current.all stops = true) :
    (cursor.stretch stops).result = (cursor.advance, []) := by
  rw [Stretch.result, stretch]
  cases pulled : cursor.advance.current with
  | none =>
    rw [current_advance, Option.map_eq_none_iff] at pulled
    rw [foldUntil_of_next?_eq_none pulled, advance_of_next?_eq_none pulled]
  | some token =>
    rw [pulled, Option.all_some] at ended
    rw [foldUntil_of_current pulled, if_pos ended]

/-- A loop goes on behind a token that does not stop it. -/
theorem stretch_of_passes {cursor : Cursor} {token : Token}
    (pulled : cursor.advance.current = some token) (passes : stops token = false) :
    (cursor.stretch stops).result =
      ((cursor.advance.stretch stops).behind, token :: (cursor.advance.stretch stops).passed) := by
  have goes : ¬stops token = true := by simp [passes]
  rw [Stretch.result, stretch, foldUntil_of_current pulled, if_neg goes]
  dsimp only
  rw [foldUntil_eq, List.foldl_append_eq_append, ← List.flatMap_def, List.flatMap_singleton']
  rfl

/-- What holds of a loop that ends at once and is kept by one more token in front of a loop holds of
every loop, its end and the tokens that it combines. -/
theorem stretch_induction (stops : Token → Bool)
    {motive : Cursor → Cursor → List Token → Prop}
    (ends : ∀ cursor : Cursor, cursor.advance.current.all stops = true →
      motive cursor cursor.advance [])
    (passes : ∀ (cursor : Cursor) (token : Token), cursor.advance.current = some token →
      stops token = false →
      motive cursor.advance (cursor.advance.stretch stops).behind
        (cursor.advance.stretch stops).passed →
      motive cursor (cursor.advance.stretch stops).behind
        (token :: (cursor.advance.stretch stops).passed))
    (cursor : Cursor) :
    motive cursor (cursor.stretch stops).behind (cursor.stretch stops).passed := by
  fun_induction foldUntil stops (fun _ _ => ()) cursor () with
  | case1 cursor _ token pulled stopped =>
    have all : cursor.advance.current.all stops = true := by rw [pulled, Option.all_some, stopped]
    rw [Stretch.behind, Stretch.passed, stretch_of_all all]
    exact ends cursor all
  | case2 cursor _ token pulled goes ih =>
    have passed := eq_false_of_ne_true goes
    rw [Stretch.behind, Stretch.passed, stretch_of_passes pulled passed]
    exact passes cursor token pulled passed ih
  | case3 cursor _ exhausted =>
    have all : cursor.advance.current.all stops = true := by rw [exhausted, Option.all_none]
    rw [Stretch.behind, Stretch.passed, stretch_of_all all]
    exact ends cursor all

end Stretches

end Cursor

namespace Stretch

variable {cursor : Cursor} {stops : Token → Bool}

/-- A loop ends. -/
theorem ends_stretch (cursor : Cursor) (stops : Token → Bool) : (cursor.stretch stops).Ends := by
  constructor
  · apply Cursor.stretch_induction stops
      (motive := fun _ _ passed => ∀ token ∈ passed, stops token = false)
    case ends => exact fun _ _ => List.forall_mem_nil _
    case passes => exact fun _ _ _ passes inside => List.forall_mem_cons.2 ⟨passes, inside⟩
  · apply Cursor.stretch_induction stops
      (motive := fun _ behind _ => (∃ token, behind.current = some token ∧ stops token = true) ∨
        (behind.current = none ∧ behind.lexer.next? = none))
    case ends =>
      intro cursor all
      cases pulled : cursor.advance.current with
      | none => exact .inr ⟨rfl, Cursor.next?_of_current_advance_eq_none pulled⟩
      | some token =>
        rw [pulled, Option.all_some] at all
        exact .inl ⟨token, rfl, all⟩
    case passes => exact fun _ _ _ _ stopped => stopped

/-- A loop leads from its first cursor to its last by the tokens that it pulls. -/
theorem pulls_stretch (cursor : Cursor) (stops : Token → Bool) :
    cursor.lexer.Pulls (cursor.stretch stops).pulled (cursor.stretch stops).behind.lexer := by
  apply Cursor.stretch_induction stops (motive := fun cursor behind passed =>
    cursor.lexer.Pulls (passed ++ behind.current.toList) behind.lexer)
  case ends => exact fun cursor _ => cursor.pulls_advance
  case passes => exact fun cursor token pulled _ pulls => .cons (Cursor.next?_of_current pulled) pulls

/-- The tokens still to come are those that a loop pulls, and those behind it. -/
theorem tokens_eq (cursor : Cursor) (stops : Token → Bool) :
    cursor.lexer.tokens = (cursor.stretch stops).passed ++
      ((cursor.stretch stops).behind.current.toList ++
        (cursor.stretch stops).behind.lexer.tokens) := by
  rw [(pulls_stretch cursor stops).tokens_eq, Stretch.pulled, List.append_assoc]

/-- A loop ends at the first token still to come that stops it. -/
theorem current_behind (cursor : Cursor) (stops : Token → Bool) :
    (cursor.stretch stops).behind.current = cursor.lexer.tokens.find? stops := by
  have ends := ends_stretch cursor stops
  have none : (cursor.stretch stops).passed.find? stops = none := by
    rw [List.find?_eq_none]
    intro token mem
    simpa using ends.passes token mem
  rw [tokens_eq cursor stops, List.find?_append, none, Option.none_or]
  rcases ends.stopped with ⟨token, current, stopped⟩ | ⟨current, exhausted⟩
  · rw [current]
    exact (List.find?_cons_of_pos stopped).symm
  · rw [current, Lexer.tokens_of_next?_eq_none exhausted]
    rfl

/-- A loop combines the tokens still to come up to the first that stops it. -/
theorem passed_eq (cursor : Cursor) (stops : Token → Bool) :
    (cursor.stretch stops).passed = cursor.lexer.tokens.takeWhile fun token => !stops token := by
  have ends := ends_stretch cursor stops
  have passes : ∀ token ∈ (cursor.stretch stops).passed, (!stops token) = true := by
    intro token mem
    simpa using ends.passes token mem
  rw [tokens_eq cursor stops, List.takeWhile_append_of_pos passes]
  rcases ends.stopped with ⟨token, current, stopped⟩ | ⟨current, exhausted⟩
  · rw [Cursor.stops_stretch] at stopped
    rw [current, Option.toList_some, List.singleton_append,
      List.takeWhile_cons_of_neg (by simp [stopped]), List.append_nil]
  · rw [current, Lexer.tokens_of_next?_eq_none exhausted, Option.toList_none, List.append_nil,
      List.takeWhile_nil, List.append_nil]

theorem Chain.append {first middle last : Cursor} {front back : List Stretch}
    (before : Chain first front middle) (behind : Chain middle back last) :
    Chain first (front ++ back) last := by
  induction before with
  | nil => exact behind
  | cons _ ih => exact .cons (ih behind)

theorem Chain.singleton (cursor : Cursor) (stops : Token → Bool) :
    Chain cursor [cursor.stretch stops] (cursor.stretch stops).behind :=
  .cons (.nil (cursor.stretch stops).behind)

/-- Loops that follow each other pull their tokens one after the other. -/
theorem Chain.pulls {cursor after : Cursor} {stretches : List Stretch}
    (chain : Chain cursor stretches after) :
    cursor.lexer.Pulls (stretches.flatMap pulled) after.lexer := by
  induction chain with
  | nil cursor => exact .nil cursor.lexer
  | @cons stretch _ _ _ ih =>
    rw [List.flatMap_cons]
    exact (pulls_stretch stretch.start stretch.stops).append ih

end Stretch

end NetDecl
