import NetDecl.Proofs.Compile.Visits
import NetDecl.Proofs.Text.Runs
import NetDecl.Proofs.Token.Stretch

/-!
# The tokens that a session pulls

A session pulls tokens at the start of each turn and in the loops of what it reads there.  These
loops follow each other from one cursor to the next, and so do the turns, so that no token is left
out and none is pulled twice: taken together they are the tokens of the text.  Between two turns
nothing is left of a line, since a word that starts a turn is the first on its line.
-/

namespace NetDecl

/-- The token is the first word of the line that it stands on. -/
def Token.IsFirstWord (token : Token) (text : String) : Prop :=
  ∃ raw, (Text.splitLines text.toList)[token.line]? = some raw ∧
    (Text.words 0 raw.content).head? = some ⟨token.position.column, token.text⟩

namespace Session

/-! ## The loops of a turn -/

/-- The loops that skipping a line goes through. -/
def skippedStretches (session : Session) : List Stretch :=
  if session.cursor.current.any Token.isBoundary then []
  else [session.cursor.stretch Token.isBoundary]

/-- The loops that reading a group goes through: over its header, over its members, and over the
rest of the line that closes it. -/
def groupStretches (session : Session) (keyword : Token) : List Stretch :=
  let header := session.cursor.stretch Token.isBoundary
  let body := header.behind.stretch Token.endsGroup
  if (session.readHeader .group keyword).1.isNone then [header]
  else if body.behind.atGroupEnd then [header, body, body.behind.stretch Token.isBoundary]
  else [header, body]

/-- The loops that dealing with a token goes through. -/
def stretches (session : Session) (token : Token) : List Stretch :=
  if token.isBoundary then []
  else
    match Part.ofKeyword? token.text with
    | some .node => [session.cursor.stretch Token.isBoundary]
    | some .edge => [session.cursor.stretch Token.isBoundary]
    | some .group => session.groupStretches token
    | none => session.skippedStretches

/-- The tokens that a turn pulls: the one that it starts with, and those that its loops pull. -/
def pulled (session : Session) : List Token :=
  match session.advance.cursor.current with
  | some token => token :: (session.advance.stretches token).flatMap Stretch.pulled
  | none => []

section Chains

variable (session : Session) (keyword : Token)

theorem cursor_readHeader (part : Part) :
    (session.readHeader part keyword).2.cursor =
      (session.cursor.stretch Token.isBoundary).behind := by
  unfold readHeader
  rw [Cursor.foldUntil_eq]
  dsimp only
  split <;> rfl

theorem cursor_readEdge :
    (session.readEdge keyword).2.cursor = (session.cursor.stretch Token.isBoundary).behind := by
  unfold readEdge
  rw [Cursor.foldUntil_eq]
  dsimp only
  split <;> rfl

theorem cursor_discardLine :
    session.discardLine.cursor = (session.cursor.stretch Token.isBoundary).behind := by
  unfold discardLine
  rw [Cursor.foldUntil_eq]

theorem cursor_readMembers (id : String) :
    (session.readMembers id).2.2.cursor =
      if (session.cursor.stretch Token.endsGroup).behind.atGroupEnd then
        ((session.cursor.stretch Token.endsGroup).behind.stretch Token.isBoundary).behind
      else (session.cursor.stretch Token.endsGroup).behind := by
  unfold readMembers
  rw [Cursor.foldUntil_eq]
  dsimp only
  split
  · rw [cursor_discardLine]
  · rfl

theorem chain_skipLine :
    Stretch.Chain session.cursor session.skippedStretches session.skipLine.cursor := by
  rw [skipLine, Cursor.skipLine, skippedStretches]
  split
  · exact .nil session.cursor
  · rw [Cursor.foldUntil_eq]
    exact .singleton session.cursor Token.isBoundary

variable {session keyword} in
/-- Closing a group, or giving it up, pulls nothing. -/
theorem cursor_readGroup {header : Header} {opened : Session}
    (read : session.readHeader .group keyword = (some header, opened)) :
    (session.readGroup keyword).2.cursor = (opened.readMembers header.id).2.2.cursor := by
  unfold readGroup
  rw [read]
  rcases body : opened.readMembers header.id with ⟨members, closed, last⟩
  simp only [body]
  cases closed <;> cases members <;> rfl

theorem chain_readGroup :
    Stretch.Chain session.cursor (session.groupStretches keyword)
      (session.readGroup keyword).2.cursor := by
  have first := Stretch.Chain.singleton session.cursor Token.isBoundary
  have behind := session.cursor_readHeader keyword .group
  rcases read : session.readHeader .group keyword with ⟨_ | header, opened⟩
  · rw [read] at behind
    have refused : (session.readGroup keyword).2 = opened := by
      unfold readGroup
      rw [read]
    rw [groupStretches, read, refused, behind]
    exact first
  · rw [read] at behind
    change opened.cursor = _ at behind
    rw [groupStretches, read, cursor_readGroup read, cursor_readMembers, behind]
    dsimp only
    rw [if_neg (by simp)]
    have second := first.append (.singleton _ Token.endsGroup)
    split
    · exact second.append (.singleton _ Token.isBoundary)
    · exact second

/-- Adding a part to the registry pulls nothing. -/
theorem cursor_declare (part : Part) :
    (session.declare part keyword).cursor =
      match part with
      | .node => (session.readNode keyword).2.cursor
      | .edge => (session.readEdge keyword).2.cursor
      | .group => (session.readGroup keyword).2.cursor := by
  cases part with
  | node =>
    unfold declare declareNode
    rcases session.readNode keyword with ⟨_ | node, after⟩
    · rfl
    · rfl
  | edge =>
    unfold declare declareEdge
    rcases session.readEdge keyword with ⟨_ | edge, after⟩
    · rfl
    · dsimp only
      split
      · rfl
      · rfl
  | group =>
    unfold declare declareGroup
    rcases session.readGroup keyword with ⟨_ | group, after⟩
    · rfl
    · rfl

/-- Dealing with a token goes through its loops and pulls nothing else. -/
theorem chain_handle (mark : String) :
    Stretch.Chain session.cursor (session.stretches keyword)
      (session.handle mark keyword).cursor := by
  unfold handle stretches
  split
  · exact .nil session.cursor
  · cases Part.ofKeyword? keyword.text with
    | some part =>
      dsimp only
      rw [cursor_declare]
      cases part with
      | node =>
        have read : (session.readNode keyword).2.cursor = _ :=
          session.cursor_readHeader keyword .node
        dsimp only
        rw [read]
        exact .singleton session.cursor Token.isBoundary
      | edge =>
        dsimp only
        rw [cursor_readEdge]
        exact .singleton session.cursor Token.isBoundary
      | group => exact session.chain_readGroup keyword
    | none =>
      dsimp only
      split
      · exact session.chain_skipLine
      · exact session.chain_skipLine

end Chains

/-! ## Turns -/

section Turns

variable {session : Session} {mark text : String} {row : Row} {rows : List Row} {token : Token}

theorem pulled_of_current (current : session.advance.cursor.current = some token) :
    session.pulled = token :: (session.advance.stretches token).flatMap Stretch.pulled := by
  rw [pulled, current]

/-- A turn pulls its first token and those of its loops, and no others. -/
theorem pulls_turn (mark : String) (current : session.advance.cursor.current = some token) :
    session.cursor.lexer.Pulls session.pulled (session.turn mark).cursor.lexer := by
  rw [pulled_of_current current, turn_of_current mark current]
  exact .cons (Cursor.next?_of_current current) (session.advance.chain_handle token mark).pulls

/-- The turns up to the end of the text pull their tokens one after the other, and then none are
left. -/
theorem pulls_run (mark : String) (session : Session) :
    session.cursor.lexer.Pulls ((session.turns mark).flatMap pulled)
        (session.run mark).cursor.lexer ∧
      (session.run mark).cursor.current = none ∧
      (session.run mark).cursor.lexer.next? = none := by
  fun_induction Session.run mark session with
  | case1 session token current ih =>
    rw [turns_of_current current, List.flatMap_cons]
    have first := pulls_turn mark current
    rw [turn_of_current mark current] at first ⊢
    exact ⟨first.append ih.1, ih.2⟩
  | case2 session exhausted =>
    rw [turns_of_exhausted exhausted]
    have pulls := session.cursor.pulls_advance
    change session.advance.cursor.current = none at exhausted
    rw [show session.cursor.advance.current = none from exhausted] at pulls
    exact ⟨pulls, exhausted, Cursor.next?_of_current_advance_eq_none exhausted⟩

/-- A word that is pulled at the start of a turn is the first word of its line. -/
theorem Before.isFirstWord (before : session.Before (row :: rows))
    (suffix : row :: rows <:+ Row.ofText text)
    (current : session.advance.cursor.current = some token) (isWord : token.isWord = true) :
    token.IsFirstWord text := by
  rcases session.cursor.exists_within before.reads with ⟨after, within⟩
  rcases Row.exists_line_of_mem_ofText (suffix.subset List.mem_cons_self) with
    ⟨raw, found, -, spelled⟩
  cases split : row.words with
  | nil =>
    rw [split] at within
    rcases within.exists_current with ⟨boundary, ended, last⟩
    rw [← within.advance_nil] at last
    cases last.symm.trans current
    rw [ended.isWord_eq] at isWord
    cases isWord
  | cons first words =>
    rcases before.current_advance split with ⟨pulled, isToken, same⟩
    cases same.symm.trans current
    refine ⟨raw, ?_, ?_⟩
    · rw [isToken.line_eq]
      exact found
    · rw [← spelled, split, isToken.position, isToken.text]
      rfl

end Turns

end Session

/-- Reading a text to its end takes finitely many turns and pulls each of its tokens once, in order.
What is pulled in a turn is pulled at its start or by one of its loops, which follow each other and
each of which ends.  A word at the start of a turn is the first of its line. -/
theorem pulls_each_token_once (options : Options) (text : String) :
    let mark := options.effectiveMark
    let start := Session.start text
    let turns := start.turns mark
    let last := start.run mark
    turns = List.iterate (Session.turn mark) start turns.length ∧
      last = ((Session.turn mark)^[turns.length] start).advance ∧
      last.cursor.current = none ∧ last.cursor.lexer.next? = none ∧
      turns.flatMap Session.pulled = tokenize text ∧
      ∀ session ∈ turns, ∃ token, session.advance.cursor.current = some token ∧
        Stretch.Chain session.advance.cursor (session.advance.stretches token)
          (session.turn mark).cursor ∧
        (∀ stretch ∈ session.advance.stretches token, stretch.Ends) ∧
        session.pulled = token :: (session.advance.stretches token).flatMap Stretch.pulled ∧
        session.cursor.lexer.Pulls session.pulled (session.turn mark).cursor.lexer ∧
        (token.isWord = true → token.IsFirstWord text) := by
  intro mark start turns last
  rcases start.pulls_run mark with ⟨pulls, current, exhausted⟩
  rcases start.turns_eq_iterate mark with ⟨iterated, ended⟩
  refine ⟨iterated, ended, current, exhausted, ?_, ?_⟩
  · have whole := pulls.tokens_eq
    rw [Lexer.tokens_of_next?_eq_none exhausted, List.append_nil] at whole
    exact whole.symm
  · intro session mem
    rcases (Session.before_start text).exists_row_of_mem_turns mem with ⟨row, rest, before, suffix⟩
    rcases (Session.run_turn_of_mem_turns mem).1 with ⟨token, pulled⟩
    refine ⟨token, pulled, ?_, ?_, Session.pulled_of_current pulled,
      Session.pulls_turn mark pulled, before.isFirstWord suffix pulled⟩
    · rw [Session.turn_of_current mark pulled]
      exact session.advance.chain_handle token mark
    · intro stretch _
      exact Stretch.ends_stretch stretch.start stretch.stops

end NetDecl
