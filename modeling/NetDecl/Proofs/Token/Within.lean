import NetDecl.Diagnostic.Issue
import NetDecl.Proofs.Token.Rows

/-!
# A cursor within a row

A cursor that has pulled some words of a row has the other words and the boundary before it.
Whatever reads the row to its end takes those words and comes to the place behind the boundary,
where the line is known and the next row begins.
-/

namespace NetDecl

namespace Word.IsToken

variable {index : Nat} {word : Word} {token : Token}

theorem line_eq (isToken : word.IsToken index token) : token.line = index :=
  congrArg Position.line isToken.position

theorem isBoundary_eq (isToken : word.IsToken index token) : token.isBoundary = false := by
  simp [Token.isBoundary, isToken.kind]

theorem isWord_eq (isToken : word.IsToken index token) : token.isWord = true := by
  simp [Token.isWord, isToken.kind]

theorem isTextEnd_eq (isToken : word.IsToken index token) : token.isTextEnd = false := by
  simp [Token.isTextEnd, isToken.kind]

theorem isKeyword_eq (isToken : word.IsToken index token) (keyword : String) :
    token.isKeyword keyword = Text.sameWord word.text keyword := by
  simp [Token.isKeyword, isToken.isWord_eq, isToken.text]

theorem exists_of_mem {words : List Word} {tokens : List Token}
    (spelled : List.Forall₂ (Word.IsToken index) words tokens) (mem : token ∈ tokens) :
    ∃ word ∈ words, word.IsToken index token := by
  induction spelled with
  | nil => cases mem
  | cons isToken _ ih =>
    rcases List.mem_cons.1 mem with rfl | mem
    · exact ⟨_, List.mem_cons_self, isToken⟩
    · obtain ⟨word, wordMem, isToken⟩ := ih mem
      exact ⟨word, List.mem_cons_of_mem _ wordMem, isToken⟩

end Word.IsToken

namespace Row.EndsWith

variable {row : Row} {last : Bool} {token : Token}

theorem isBoundary_eq (ended : row.EndsWith last token) : token.isBoundary = true := by
  simp only [Token.isBoundary, ended.kind]
  cases last <;> rfl

theorem isWord_eq (ended : row.EndsWith last token) : token.isWord = false := by
  simp only [Token.isWord, ended.kind]
  cases last <;> rfl

theorem isTextEnd_eq (ended : row.EndsWith last token) : token.isTextEnd = last := by
  simp only [Token.isTextEnd, ended.kind]
  cases last <;> rfl

theorem isKeyword_eq (ended : row.EndsWith last token) (keyword : String) :
    token.isKeyword keyword = false := by
  simp [Token.isKeyword, ended.isWord_eq]

end Row.EndsWith

namespace Cursor

/-- The words are left of the row that the cursor is in, and `after` is the cursor behind the row.
-/
structure Within (cursor : Cursor) (row : Row) (words : List Word) (rows : List Row)
    (after : Cursor) : Prop where
  tokens : ∃ tokens boundary, cursor.lexer.Pulls (tokens ++ [boundary]) after.lexer ∧
    List.Forall₂ (Word.IsToken row.line.index) words tokens ∧
    row.EndsWith rows.isEmpty boundary ∧ after.current = some boundary
  textEnd : after.textEnd = if rows.isEmpty then row.stop else cursor.textEnd
  knows : after.lexer.Knows row.line
  reads : after.lexer.Reads rows

/-- A cursor before a row has all its words before it. -/
theorem exists_within {cursor : Cursor} {row : Row} {rows : List Row}
    (reads : cursor.lexer.Reads (row :: rows)) :
    ∃ after, cursor.Within row row.words rows after := by
  cases reads with
  | @cons _ next tokens boundary _ _ pulls spelled ended knows rest =>
    let after : Cursor :=
      { lexer := next
        current := some boundary
        textEnd := if rows.isEmpty then row.stop else cursor.textEnd }
    exact ⟨after, ⟨tokens, boundary, pulls, spelled, ended, rfl⟩, rfl, knows, rest⟩

/-- Where the text ends, seen from a place before the rows. -/
def stop (cursor : Cursor) (rows : List Row) : Position :=
  (rows.getLast?.map Row.stop).getD cursor.textEnd

/-- Before some row it is the last row that tells where the text ends. -/
theorem stop_cons (cursor other : Cursor) (row : Row) (rows : List Row) :
    cursor.stop (row :: rows) = other.stop (row :: rows) := by
  simp [stop, List.getLast?_cons]

/-- From the cursor before `rows` the text has been read to the cursor `after`, before `rest`. -/
structure Leads (cursor : Cursor) (rows : List Row) (after : Cursor) (rest : List Row) : Prop where
  reads : after.lexer.Reads rest
  stop : after.stop rest = cursor.stop rows
  pulls : ∃ tokens, cursor.lexer.Pulls tokens after.lexer

theorem Leads.trans {first middle last : Cursor} {rows between rest : List Row}
    (front : first.Leads rows middle between) (back : middle.Leads between last rest) :
    first.Leads rows last rest := by
  obtain ⟨_, before⟩ := front.pulls
  obtain ⟨_, behind⟩ := back.pulls
  exact ⟨back.reads, back.stop.trans front.stop, _, before.append behind⟩

/-- Whatever leads on from the first token leads there from before it. -/
theorem Leads.of_advance {cursor after : Cursor} {token : Token} {row : Row} {rows rest : List Row}
    (pulled : cursor.advance.current = some token)
    (leads : cursor.advance.Leads (row :: rows) after rest) :
    cursor.Leads (row :: rows) after rest := by
  obtain ⟨_, pulls⟩ := leads.pulls
  exact ⟨leads.reads, leads.stop.trans (cursor.advance.stop_cons cursor row rows), _,
    .cons (next?_of_current pulled) pulls⟩

theorem Leads.knows {cursor after : Cursor} {rows rest : List Row} {line : Line}
    (leads : cursor.Leads rows after rest) (known : cursor.lexer.Knows line) :
    after.lexer.Knows line := by
  obtain ⟨_, pulls⟩ := leads.pulls
  exact pulls.knows known

namespace Within

variable {cursor after : Cursor} {row : Row} {words : List Word} {rows : List Row}

theorem lineAt_eq (within : cursor.Within row words rows after) :
    after.lineAt row.line.index = row.line :=
  within.knows.lineAt_eq

/-- The row leads to the rows behind it. -/
theorem leads (within : cursor.Within row words rows after) :
    cursor.Leads (row :: rows) after rows := by
  obtain ⟨tokens, boundary, pulls, -⟩ := within.tokens
  refine ⟨within.reads, ?_, _, pulls⟩
  rw [stop, within.textEnd, stop]
  cases rows with
  | nil => rfl
  | cons next rows => rw [List.getLast?_cons_cons, List.getLast?_cons]; rfl

theorem exists_current (within : cursor.Within row words rows after) :
    ∃ boundary, row.EndsWith rows.isEmpty boundary ∧ after.current = some boundary := by
  obtain ⟨tokens, boundary, -, -, ended, current⟩ := within.tokens
  exact ⟨boundary, ended, current⟩

/-- The next token is the first word that is left. -/
theorem advance_cons {word : Word} (within : cursor.Within row (word :: words) rows after) :
    ∃ token, word.IsToken row.line.index token ∧ cursor.advance.current = some token ∧
      cursor.advance.Within row words rows after := by
  obtain ⟨tokens, boundary, pulls, spelled, ended, current⟩ := within.tokens
  cases spelled with
  | @cons _ token _ tokens isToken spelled =>
    cases pulls with
    | cons found pulls =>
      have advanced := advance_of_next? found
      rw [isToken.isTextEnd_eq, if_neg Bool.false_ne_true] at advanced
      refine ⟨token, isToken, ?_, ⟨tokens, boundary, ?_, spelled, ended, current⟩, ?_,
        within.knows, within.reads⟩
      · rw [advanced]
      · rw [advanced]
        exact pulls
      · rw [advanced]
        exact within.textEnd

/-- Where no words are left, the next token is the boundary. -/
theorem advance_nil (within : cursor.Within row [] rows after) : cursor.advance = after := by
  obtain ⟨tokens, boundary, pulls, spelled, ended, current⟩ := within.tokens
  cases spelled
  have found := Lexer.pulls_singleton_iff.1 pulls
  have textEnd := within.textEnd
  rw [advance_of_next? found, ended.isTextEnd_eq, ended.position, ← textEnd, ← current]

/-- There is a next token within a row. -/
theorem exists_current_advance (within : cursor.Within row words rows after) :
    ∃ token, cursor.advance.current = some token := by
  cases words with
  | nil =>
    obtain ⟨boundary, -, current⟩ := within.exists_current
    rw [within.advance_nil]
    exact ⟨boundary, current⟩
  | cons word words =>
    obtain ⟨token, -, pulled, -⟩ := within.advance_cons
    exact ⟨token, pulled⟩

/-- A fold combines words that do not stop it. -/
theorem exists_foldUntil_append {front back : List Word}
    (within : cursor.Within row (front ++ back) rows after) :
    ∃ (middle : Cursor) (tokens : List Token),
      List.Forall₂ (Word.IsToken row.line.index) front tokens ∧
      middle.Within row back rows after ∧
      ∀ {State : Type} (stops : Token → Bool) (step : State → Token → State) (state : State),
        (∀ token ∈ tokens, stops token = false) →
        cursor.foldUntil stops step state =
          middle.foldUntil stops step (tokens.foldl step state) := by
  induction front generalizing cursor with
  | nil => exact ⟨cursor, [], .nil, within, fun _ _ _ _ => rfl⟩
  | cons word front ih =>
    obtain ⟨token, isToken, pulled, advanced⟩ := within.advance_cons
    obtain ⟨middle, tokens, spelled, left, folded⟩ := ih advanced
    refine ⟨middle, token :: tokens, .cons isToken spelled, left, ?_⟩
    intro State stops step state passes
    have passed : ¬stops token = true := by
      simp [passes token List.mem_cons_self]
    rw [foldUntil_of_current pulled, if_neg passed, List.foldl_cons]
    exact folded stops step _ fun other mem => passes other (List.mem_cons_of_mem _ mem)

/-- A fold up to the boundary combines the words that are left. -/
theorem exists_foldUntil_eq (within : cursor.Within row words rows after) :
    ∃ tokens, List.Forall₂ (Word.IsToken row.line.index) words tokens ∧
      ∀ {State : Type} (step : State → Token → State) (state : State),
        cursor.foldUntil Token.isBoundary step state = (after, tokens.foldl step state) := by
  rw [← List.append_nil words] at within
  obtain ⟨middle, tokens, spelled, left, folded⟩ := within.exists_foldUntil_append
  obtain ⟨boundary, ended, current⟩ := left.exists_current
  refine ⟨tokens, spelled, fun step state => ?_⟩
  have pulled : middle.advance.current = some boundary := by
    rw [left.advance_nil, current]
  rw [folded, foldUntil_of_current pulled, if_pos ended.isBoundary_eq, left.advance_nil]
  intro token mem
  obtain ⟨word, -, isToken⟩ := Word.IsToken.exists_of_mem spelled mem
  exact isToken.isBoundary_eq

theorem skipLine_eq (within : cursor.Within row words rows after)
    (current : cursor.current.any Token.isBoundary = false) : cursor.skipLine = after := by
  obtain ⟨tokens, -, folded⟩ := within.exists_foldUntil_eq
  rw [skipLine, if_neg (by simp [current]), folded]

end Within

end Cursor

end NetDecl
