import NetDecl.Proofs.Compile.Visits
import NetDecl.Proofs.LineMachine.Respelled
import NetDecl.Proofs.Token.Stretch

/-!
# The keywords of a text

A turn of a session takes the first word of its row for a keyword if it declares something, and a
group that has a header also takes the word that ends its body.  These are the words that the line
machine takes for keywords when it comes to their rows.
-/

namespace NetDecl

open LineMachine (State OpenGroup)

/-! ## Keywords of a session -/

namespace Session

/-- The keyword that ends the body of a group with the given name, unless the text ends before. -/
def groupEnd? (session : Session) (id : String) : Option Token :=
  let (cursor, _) := session.cursor.foldUntil Token.endsGroup
    (Group.Draft.step id session.registry.nextGroup) ⟨session.registry, [], session.diagnostics⟩
  if cursor.atGroupEnd then cursor.current else none

/-- The keyword that ends the group that is begun by another.  A group whose header is refused has
no body. -/
def closing? (session : Session) (keyword : Token) : Option Token :=
  match session.readHeader .group keyword with
  | (some header, body) => body.groupEnd? header.id
  | (none, _) => none

/-- The tokens that the next turn takes for keywords. -/
def keywords (session : Session) : List Token :=
  match session.dispatch? with
  | some (.group, keyword) => keyword :: (session.advance.closing? keyword).toList
  | some (_, keyword) => [keyword]
  | none => []

end Session

/-- The tokens of a text that are taken for keywords while it is compiled. -/
def keywords (options : Options) (text : String) : List Token :=
  ((Session.start text).turns options.effectiveMark).flatMap Session.keywords

/-! ## Keywords of the line machine -/

namespace LineMachine

/-- The token is a word that the machine takes for a keyword when it goes over the rows. -/
def TakesKeyword (mark : String) (state : State) (rows : List Row) (token : Token) : Prop :=
  ∃ passed row rest word, rows = passed ++ row :: rest ∧
    (passed.foldl (State.step mark) state).mode.keyword? row.words = some word ∧
    word.IsToken row.line.index token

variable {mark : String} {state : State} {rows : List Row} {token : Token}

theorem TakesKeyword.of_passed (passed : List Row)
    (takes : TakesKeyword mark (passed.foldl (State.step mark) state) rows token) :
    TakesKeyword mark state (passed ++ rows) token := by
  rcases takes with ⟨front, row, rest, word, rfl, isKeyword, isToken⟩
  refine ⟨passed ++ front, row, rest, word, (List.append_assoc _ _ _).symm, ?_, isToken⟩
  rwa [List.foldl_append]

end LineMachine

/-! ## Bodies -/

namespace Cursor

variable {cursor : Cursor} {token : Token}

/-- The token that a fold stops at is one of those that were to come. -/
theorem mem_tokens_of_foldUntil {Draft : Type} {stops : Token → Bool}
    {step : Draft → Token → Draft} {draft : Draft}
    (stopped : (cursor.foldUntil stops step draft).1.current = some token) :
    token ∈ cursor.lexer.tokens := by
  rw [foldUntil_eq, Stretch.current_behind] at stopped
  exact List.mem_of_find?_eq_some stopped

/-- The keyword that a body is read up to is the one that the machine takes for a keyword in the
rows of the body. -/
theorem takesKeyword_of_foldUntil {mark : String} {step : Group.Draft → Token → Group.Draft}
    {rows : List Row} (reads : cursor.lexer.Reads rows) {state : State} {group : OpenGroup}
    (mode : state.mode = .inGroup group) {draft : Group.Draft}
    (stopped : (cursor.foldUntil Token.endsGroup step draft).1.current = some token)
    (isEnd : token.isKeyword groupEnd = true) :
    LineMachine.TakesKeyword mark state rows token := by
  -- Over the rows of the body, where the machine stays in the group up to the keyword.
  induction rows generalizing cursor state group draft with
  | nil =>
    cases reads with
    | nil exhausted =>
      rw [foldUntil_of_next?_eq_none exhausted] at stopped
      cases stopped
  | cons row rows ih =>
    rcases cursor.exists_within reads with ⟨after, within⟩
    rcases LineMachine.isMember_or_exists_eq_append row.words with areMembers | ⟨front, last, rest,
      split, areMembers, notMember⟩
    · rcases within.exists_foldUntil_of_isMember areMembers with
        ⟨tokens, boundary, -, ended, current, folded⟩
      rw [folded] at stopped
      cases rows with
      | nil =>
        rw [List.isEmpty_nil, if_pos rfl, current] at stopped
        cases stopped
        rw [ended.isKeyword_eq] at isEnd
        cases isEnd
      | cons next rows =>
        rw [List.isEmpty_cons, if_neg Bool.false_ne_true] at stopped
        have entered : (state.step mark row).mode =
            .inGroup (LineMachine.readMembers state.net row group row.words).1 := by
          rw [LineMachine.step_of_isMember mark mode areMembers]
          rfl
        exact .of_passed [row] (ih within.reads entered stopped)
    · rw [split] at within
      rcases within.exists_foldUntil_of_eq_append areMembers notMember with
        ⟨tokens, found, middle, -, isToken, current, -, folded⟩
      rw [folded, current] at stopped
      cases stopped
      refine ⟨[], row, rows, last, rfl, ?_, isToken⟩
      rw [List.foldl_nil, mode, LineMachine.Mode.keyword?, split,
        LineMachine.dropWhile_isMember areMembers notMember]
      rfl

end Cursor

/-! ## Turns -/

namespace Session

variable {session : Session} {row : Row} {rows : List Row} {mark : String} {token : Token}

theorem of_mem_keywords (mem : token ∈ session.keywords) :
    ∃ part keyword, session.dispatch? = some (part, keyword) ∧
      (token = keyword ∨ part = .group ∧ session.advance.closing? keyword = some token) := by
  unfold keywords at mem
  split at mem
  · rename_i keyword dispatched
    rcases List.mem_cons.1 mem with rfl | closes
    · exact ⟨_, _, dispatched, .inl rfl⟩
    · exact ⟨_, keyword, dispatched, .inr ⟨rfl, Option.mem_toList.1 closes⟩⟩
  · rename_i dispatched
    exact ⟨_, _, dispatched, .inl (List.mem_singleton.1 mem)⟩
  · cases mem

/-- The keyword that ends a group is taken for one in the rows of its body. -/
theorem takesKeyword_of_closing? {words : List Word} {after : Cursor} {opening : Token}
    (within : session.cursor.Within row words rows after) (indexed : session.registry.Indexed)
    (line : opening.line = row.line.index)
    (scanned : session.scanning.scan mark row = session.scanning.openGroup row words)
    (closes : session.closing? opening = some token) :
    LineMachine.TakesKeyword mark session.scanning (row :: rows) token ∧
      token ∈ session.cursor.lexer.tokens := by
  rw [closing?, readHeader_eq within indexed line] at closes
  rcases read : LineMachine.readHeader session.registry.net .group row words with
    ⟨_ | header, front⟩
  · rw [read] at closes
    cases closes
  · rw [read] at closes
    have mode : (session.scanning.step mark row).mode =
        .inGroup (LineMachine.openFrom row header) := by
      have headerRead : LineMachine.readHeader session.scanning.net .group row words =
          (some header, front) := read
      change (session.scanning.scan mark row).mode = _
      rw [scanned, State.openGroup, headerRead]
      rfl
    unfold groupEnd? at closes
    dsimp only at closes
    split at closes
    · rename_i atEnd
      rw [Cursor.atGroupEnd, closes, Option.any_some] at atEnd
      rcases within.leads.pulls with ⟨tokens, pulls⟩
      refine ⟨.of_passed [row] (Cursor.takesKeyword_of_foldUntil within.reads mode closes atEnd), ?_⟩
      rw [pulls.tokens_eq]
      exact List.mem_append_right _ (Cursor.mem_tokens_of_foldUntil closes)
    · cases closes

/-- What a turn takes for a keyword is what the machine takes for one where it comes to the row. -/
theorem Before.takesKeyword (before : session.Before (row :: rows)) (mark : String)
    (mem : token ∈ session.keywords) :
    LineMachine.TakesKeyword mark session.scanning (row :: rows) token ∧
      token ∈ session.cursor.lexer.tokens := by
  rcases of_mem_keywords mem with ⟨part, opening, dispatched, read⟩
  rcases of_dispatch?_eq_some dispatched with ⟨pulled, inside, found⟩
  rcases session.cursor.exists_within before.reads with ⟨after, within⟩
  have tokens := Lexer.tokens_of_next? (Cursor.next?_of_current pulled)
  cases split : row.words with
  | nil =>
    rw [split] at within
    rcases within.exists_current with ⟨boundary, ended, current⟩
    rw [advance, within.advance_nil, current] at pulled
    cases pulled
    rw [ended.isBoundary_eq] at inside
    cases inside
  | cons first words =>
    rw [split] at within
    rcases within.advance_cons with ⟨_, isToken, first?, advanced⟩
    obtain rfl := Option.some.inj (first?.symm.trans pulled)
    rw [isToken.text] at found
    rcases read with rfl | ⟨rfl, closes⟩
    · refine ⟨⟨[], row, rows, first, rfl, ?_, isToken⟩, ?_⟩
      · rw [List.foldl_nil, split]
        simp [scanning, LineMachine.Mode.keyword?, found]
      · rw [tokens]
        exact List.mem_cons_self
    · have scanned : session.advance.scanning.scan mark row =
          session.advance.scanning.openGroup row words := by
        simp only [State.scan, split, found]
      change session.advance.cursor.Within row words rows after at advanced
      have indexed : session.advance.registry.Indexed := before.indexed
      rcases takesKeyword_of_closing? advanced indexed isToken.line_eq scanned closes with
        ⟨takes, later⟩
      refine ⟨takes, ?_⟩
      rw [tokens]
      exact List.mem_cons_of_mem _ later

end Session

/-- What is taken for a keyword while a text is compiled is a token of the text, and the machine
takes it for a keyword. -/
theorem takesKeyword_of_mem_keywords {options : Options} {text : String} {token : Token}
    (mem : token ∈ keywords options text) :
    LineMachine.TakesKeyword options.effectiveMark State.start (Row.ofText text) token ∧
      token ∈ tokenize text := by
  rcases List.mem_flatMap.1 mem with ⟨session, visited, isKeyword⟩
  rcases (Session.before_start text).exists_foldl_of_mem_turns visited with
    ⟨passed, row, rest, split, before, folded, tokens, pulls⟩
  rcases before.takesKeyword options.effectiveMark isKeyword with ⟨takes, tokenMem⟩
  have whole : tokenize text = tokens ++ session.cursor.lexer.tokens := pulls.tokens_eq
  rw [← folded] at takes
  rw [split, whole]
  exact ⟨.of_passed passed takes, List.mem_append_right tokens tokenMem⟩

end NetDecl
