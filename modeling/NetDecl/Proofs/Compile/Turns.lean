import Mathlib.Logic.Function.Iterate
import NetDecl.Compile
import NetDecl.Proofs.Declaration.Groups
import NetDecl.Proofs.Text.Mark

/-!
# Turns of a session

A session reads a text in turns: it pulls a token and deals with it.  One turn covers one row of the
text, or the rows of a group, and takes the session where the line machine goes over these rows.
-/

namespace NetDecl

open LineMachine (State OpenGroup Tail readRows openFrom)

namespace Session

/-- The line machine where the session is between two turns. -/
def scanning (session : Session) : State where
  net := session.registry.net
  diagnostics := session.diagnostics
  mode := .scanning

/-! ## Declarations -/

section Declarations

variable {session : Session} {row : Row} {words : List Word} {rows : List Row} {after : Cursor}
  {keyword : Token}

/-- A node is declared as the line machine declares it. -/
theorem declareNode_eq (within : session.cursor.Within row words rows after)
    (indexed : session.registry.Indexed) (line : keyword.line = row.line.index) :
    (session.declareNode keyword).cursor = after ∧
      (session.declareNode keyword).registry.Indexed ∧
      (session.declareNode keyword).scanning = session.scanning.declareNode row words := by
  unfold declareNode readNode State.declareNode
  rw [readHeader_eq within indexed line]
  dsimp only [scanning]
  cases read : LineMachine.readHeader session.registry.net .node row words with
  | mk header diagnostics =>
    cases header with
    | none => exact ⟨rfl, indexed, rfl⟩
    | some header =>
      obtain ⟨free, -⟩ := LineMachine.of_readHeader_eq_some read
      refine ⟨rfl, indexed.addNode ?_, rfl⟩
      exact (Net.nameIssues_node_eq_nil_iff.1 free).1

/-- An edge is declared as the line machine declares it. -/
theorem declareEdge_eq (within : session.cursor.Within row words rows after)
    (indexed : session.registry.Indexed) (line : keyword.line = row.line.index) :
    (session.declareEdge keyword).cursor = after ∧
      (session.declareEdge keyword).registry.Indexed ∧
      (session.declareEdge keyword).scanning = session.scanning.declareEdge row words := by
  unfold declareEdge State.declareEdge
  rw [readEdge_eq within indexed line]
  dsimp only [scanning]
  cases read : LineMachine.readEdge session.registry.net row words with
  | mk edge diagnostics =>
    cases edge with
    | none => exact ⟨rfl, indexed, rfl⟩
    | some edge =>
      obtain ⟨free, -⟩ := LineMachine.of_readEdge_eq_some read
      have fresh := Net.nameIssues_edge_eq_nil_iff.1 free
      have beside : session.registry.connects edge.source edge.target =
          session.registry.net.edges.any fun other =>
            other.source == edge.source && other.target == edge.target := by
        rw [Bool.eq_iff_iff, indexed.connections]
        simp only [List.any_eq_true, Bool.and_eq_true, beq_iff_eq]
      have connects : (session.moved after diagnostics).registry.connects edge.source edge.target =
          session.registry.connects edge.source edge.target := rfl
      have reported :=
        session.reportLine_moved within line diagnostics (.parallel edge.id)
      dsimp only [State.parallels]
      rw [reported, connects, beside]
      split
      · exact ⟨rfl, indexed.addEdge fresh, rfl⟩
      · refine ⟨rfl, indexed.addEdge fresh, ?_⟩
        rw [List.append_nil]
        rfl

/-- A group that the text ends in is forgotten, as the line machine forgets it. -/
theorem declareGroup_of_cut (mark : String)
    (within : session.cursor.Within row words rows after) (indexed : session.registry.Indexed)
    (sound : session.registry.net.Sound) (line : keyword.line = row.line.index)
    {header : Header} {front body : List Diagnostic} {last : OpenGroup}
    (read : LineMachine.readHeader session.registry.net .group row words = (some header, front))
    (cut : readRows session.registry.net (openFrom row header) rows = (last, body, none)) :
    session.cursor.Leads (row :: rows) (session.declareGroup keyword).cursor [] ∧
      (session.declareGroup keyword).registry = session.registry ∧
      LineMachine.runFrom mark ((session.scanning.report front).enter (openFrom row header)) rows =
        (session.declareGroup keyword).scanning := by
  obtain ⟨behind, leads, result⟩ :=
    exists_readGroup_of_cut within indexed sound line read cut
  unfold declareGroup
  rw [result]
  refine ⟨leads, rfl, ?_⟩
  refine (LineMachine.runFrom_of_cut mark rfl cut).trans ?_
  simp only [scanning, moved, State.report, State.enter, List.append_assoc]

/-- A group that is closed is declared as the line machine declares it. -/
theorem declareGroup_of_closed (mark : String)
    (within : session.cursor.Within row words rows after) (indexed : session.registry.Indexed)
    (sound : session.registry.net.Sound) (line : keyword.line = row.line.index)
    {header : Header} {front body : List Diagnostic} {last : OpenGroup} {tail : Tail}
    (read : LineMachine.readHeader session.registry.net .group row words = (some header, front))
    (closed : readRows session.registry.net (openFrom row header) rows =
      (last, body, some tail)) :
    session.cursor.Leads (row :: rows) (session.declareGroup keyword).cursor tail.rows ∧
      (session.declareGroup keyword).registry.Indexed ∧
      (session.declareGroup keyword).registry.net.Sound ∧
      ∃ passed, rows = passed ++ tail.rows ∧
        passed.foldl (State.step mark)
            ((session.scanning.report front).enter (openFrom row header)) =
          (session.declareGroup keyword).scanning := by
  obtain ⟨behind, leads, result⟩ :=
    exists_readGroup_of_closed within indexed sound line read closed
  have fits := (LineMachine.fits_openFrom read).readRows sound rows
  rw [closed] at fits
  obtain ⟨passed, split, folded⟩ : ∃ passed, rows = passed ++ tail.rows ∧
      passed.foldl (State.step mark)
        ((session.scanning.report front).enter (openFrom row header)) = _ :=
    LineMachine.exists_foldl_of_closed mark rfl closed
  unfold declareGroup
  rw [result]
  by_cases empty : last.members.isEmpty = true
  · rw [if_pos empty, List.isEmpty_iff.1 empty, linked_nil]
    refine ⟨leads, indexed, sound, passed, split, folded.trans ?_⟩
    simp only [State.closeGroup, OpenGroup.memberless, if_pos empty, scanning, moved, State.report,
      State.enter, List.append_assoc]
  · have filled : last.members ≠ [] := fun equal => empty (List.isEmpty_iff.2 equal)
    have fresh : last.toGroup.id ∉ (session.registry.link last.members).net.ids .group := by
      rw [show (session.registry.link last.members).net.ids .group = session.registry.net.ids .group
        from Net.ids_link _ _ _ _]
      exact (Net.nameIssues_group_eq_nil_iff.1 fits.free).1
    rw [if_neg empty]
    refine ⟨leads, (indexed.link last.members).addGroup fresh, fits.addGroup sound filled, passed,
      split, folded.trans ?_⟩
    simp only [State.closeGroup, OpenGroup.memberless, if_neg empty, scanning, moved, State.report,
      State.enter, List.append_assoc, List.append_nil]
    rfl

end Declarations

/-! ## Turns -/

/-- Pull a token and deal with it. -/
def turn (mark : String) (session : Session) : Session :=
  match session.advance.cursor.current with
  | some token => session.advance.handle mark token
  | none => session.advance

/-- The session is between two turns, and the rows are left of the text. -/
structure Before (session : Session) (rows : List Row) : Prop where
  reads : session.cursor.lexer.Reads rows
  indexed : session.registry.Indexed
  sound : session.registry.net.Sound

theorem before_start (text : String) : (start text).Before (Row.ofText text) :=
  ⟨Lexer.reads_start text, .empty, .empty⟩

section Turns

variable {session : Session} {row : Row} {rows : List Row} {first : Word} {words : List Word}
  {after : Cursor} {token : Token}

theorem turn_of_current (mark : String) (pulled : session.advance.cursor.current = some token) :
    session.turn mark = session.advance.handle mark token := by
  simp only [turn, pulled]

/-- A turn on a row without words leaves what has been declared. -/
theorem turn_of_words_eq_nil (mark : String) (within : session.cursor.Within row [] rows after) :
    session.turn mark = { session with cursor := after } := by
  obtain ⟨boundary, ended, current⟩ := within.exists_current
  have advanced : session.advance = { session with cursor := after } := by
    rw [advance, within.advance_nil]
  have pulled : session.advance.cursor.current = some boundary := by
    rw [advanced, current]
  rw [turn_of_current mark pulled, handle, if_pos ended.isBoundary_eq, advanced]

/-- The first word of a row is dealt with while the other words are left. -/
theorem handle_of_isToken (mark : String) (isToken : first.IsToken row.line.index token)
    (within : session.cursor.Within row words rows after)
    (current : session.cursor.current = some token) :
    session.handle mark token =
      match Part.ofKeyword? first.text with
      | some part => session.declare part token
      | none =>
          if Text.sameLetters (first.text.toList.take mark.toList.length) mark.toList then
            session.moved after []
          else session.moved after [(Issue.unexpected first.text).atLine row.line] := by
  have inside : session.cursor.current.any Token.isBoundary = false := by
    rw [current, Option.any_some, isToken.isBoundary_eq]
  have skipped : session.skipLine = session.moved after [] := by
    rw [skipLine, within.skipLine_eq inside, moved_nil]
  have marked : token.beginsWith mark =
      Text.sameLetters (first.text.toList.take mark.toList.length) mark.toList := by
    rw [Token.beginsWith, isToken.isWord_eq, Bool.true_and, isToken.text, Text.beginsWith_eq]
  rw [handle, if_neg (by simp [isToken.isBoundary_eq]), isToken.text, marked, skipped,
    session.reportLine_moved within isToken.line_eq]
  rfl

/-- The session `next` stands before the rows `rest`, and the line machine comes there from where
`session` is, over the rows before these. -/
structure Advances (mark : String) (session : Session) (rows : List Row) (next : Session)
    (rest : List Row) : Prop where
  before : next.Before rest
  passed : ∃ passed, rows = passed ++ rest ∧
    (rest ≠ [] → passed.foldl (State.step mark) session.scanning = next.scanning)
  leads : session.cursor.Leads rows next.cursor rest
  run : LineMachine.runFrom mark session.scanning rows =
    LineMachine.runFrom mark next.scanning rest

theorem Advances.suffix {mark : String} {next : Session} {rest : List Row}
    (advances : session.Advances mark rows next rest) : rest <:+ rows := by
  obtain ⟨passed, split, -⟩ := advances.passed
  exact ⟨passed, split.symm⟩

/-- A session that comes to the rows `rest` as the line machine does. -/
theorem advances_of_foldl {mark : String} {next : Session} {passed rest : List Row}
    (before : next.Before rest) (split : rows = passed ++ rest)
    (leads : session.cursor.Leads rows next.cursor rest)
    (folded : passed.foldl (State.step mark) session.scanning = next.scanning) :
    session.Advances mark rows next rest := by
  refine ⟨before, ⟨passed, split, fun _ => folded⟩, leads, ?_⟩
  rw [split, LineMachine.runFrom, List.foldl_append, folded]
  rfl

/-- A session that comes to the next row as the line machine does. -/
theorem advances_of_scanning (session : Session) {mark : String} {next : Session}
    (within : session.cursor.Within row words rows after) (cursor : next.cursor = after)
    (indexed : next.registry.Indexed) (sound : session.registry.net.Sound)
    (same : next.scanning = session.scanning.scan mark row) :
    session.Advances mark (row :: rows) next rows := by
  have start : session.scanning.Holds Net.Sound fun net group => group.Fits net :=
    LineMachine.State.holds_of_scanning sound rfl
  have scanned : (session.scanning.scan mark row).Holds Net.Sound _ :=
    LineMachine.invariant_sound.scan start trivial rfl mark
  rw [← same] at scanned
  apply advances_of_foldl ⟨cursor ▸ within.reads, indexed, scanned.net⟩
    (List.singleton_append (l := rows)).symm
  · rw [cursor]
    exact within.leads
  · exact same.symm

theorem exists_advances_declareGroup (session : Session) (mark : String)
    (within : session.cursor.Within row words rows after) (indexed : session.registry.Indexed)
    (sound : session.registry.net.Sound) (line : token.line = row.line.index)
    (scanned : session.scanning.scan mark row = session.scanning.openGroup row words) :
    ∃ rest, session.Advances mark (row :: rows) (session.declareGroup token) rest := by
  cases read : LineMachine.readHeader session.registry.net .group row words with
  | mk header front =>
    have headerRead : LineMachine.readHeader session.scanning.net .group row words =
        (header, front) := read
    cases header with
    | none =>
      have declared : session.declareGroup token = session.moved after front := by
        rw [declareGroup, readGroup_of_header_eq_none within indexed line read]
      rw [declared]
      refine ⟨rows, session.advances_of_scanning within rfl indexed sound ?_⟩
      rw [scanned, State.openGroup, headerRead]
      rfl
    | some header =>
      have opened : session.scanning.step mark row =
          (session.scanning.report front).enter (openFrom row header) := by
        refine scanned.trans ?_
        rw [State.openGroup, headerRead]
        rfl
      cases body : readRows session.registry.net (openFrom row header) rows with
      | mk last bodyTail =>
        obtain ⟨diagnostics, tail⟩ := bodyTail
        cases tail with
        | none =>
          obtain ⟨leads, registry, run⟩ :=
            declareGroup_of_cut mark within indexed sound line read body
          refine ⟨[], ⟨leads.reads, registry ▸ indexed, registry ▸ sound⟩,
            ⟨row :: rows, (List.append_nil _).symm, fun more => absurd rfl more⟩, leads, ?_⟩
          rw [LineMachine.runFrom_cons, opened, run, LineMachine.runFrom_of_scanning rfl]
        | some tail =>
          obtain ⟨leads, nextIndexed, nextSound, passed, split, folded⟩ :=
            declareGroup_of_closed mark within indexed sound line read body
          have whole : row :: rows = (row :: passed) ++ tail.rows := by
            rw [split, List.cons_append]
          refine ⟨tail.rows, advances_of_foldl ⟨leads.reads, nextIndexed, nextSound⟩ whole
            leads ?_⟩
          rw [List.foldl_cons, opened, folded]

/-- A declaration goes over the rows that the line machine goes over. -/
theorem exists_advances_declare (session : Session) (mark : String)
    (within : session.cursor.Within row words rows after) (indexed : session.registry.Indexed)
    (sound : session.registry.net.Sound) (line : token.line = row.line.index)
    (split : row.words = first :: words) {part : Part}
    (found : Part.ofKeyword? first.text = some part) :
    ∃ rest, session.Advances mark (row :: rows) (session.declare part token) rest := by
  cases part with
  | node =>
    obtain ⟨cursor, nextIndexed, same⟩ := declareNode_eq within indexed line
    refine ⟨rows, session.advances_of_scanning within cursor nextIndexed sound ?_⟩
    simp only [State.scan, split, found]
    exact same
  | edge =>
    obtain ⟨cursor, nextIndexed, same⟩ := declareEdge_eq within indexed line
    refine ⟨rows, session.advances_of_scanning within cursor nextIndexed sound ?_⟩
    simp only [State.scan, split, found]
    exact same
  | group =>
    apply session.exists_advances_declareGroup mark within indexed sound line
    simp only [State.scan, split, found]

/-- A turn goes over some rows, as the line machine does. -/
theorem exists_advances_turn (mark : String) (before : session.Before (row :: rows)) :
    ∃ rest, session.Advances mark (row :: rows) (session.turn mark) rest := by
  obtain ⟨after, within⟩ := session.cursor.exists_within before.reads
  cases split : row.words with
  | nil =>
    have inside := within
    rw [split] at inside
    rw [turn_of_words_eq_nil mark inside]
    refine ⟨rows, session.advances_of_scanning within rfl before.indexed before.sound ?_⟩
    simp only [State.scan, split]
    rfl
  | cons first words =>
    rw [split] at within
    obtain ⟨token, isToken, pulled, advanced⟩ := within.advance_cons
    suffices behind : ∃ rest,
        session.advance.Advances mark (row :: rows) (session.advance.handle mark token) rest by
      obtain ⟨rest, advances⟩ := behind
      rw [turn_of_current mark pulled]
      exact ⟨rest, advances.before, advances.passed, advances.leads.of_advance pulled,
        advances.run⟩
    rw [handle_of_isToken mark isToken advanced pulled]
    cases found : Part.ofKeyword? first.text with
    | some part =>
      exact session.advance.exists_advances_declare mark advanced before.indexed before.sound
        isToken.line_eq split found
    | none =>
      dsimp only
      refine ⟨rows, ?_⟩
      split
      · rename_i marked
        refine session.advance.advances_of_scanning advanced rfl before.indexed before.sound ?_
        simp only [State.scan, split, found, if_pos marked, moved_nil]
        rfl
      · rename_i notMarked
        refine session.advance.advances_of_scanning advanced rfl before.indexed before.sound ?_
        simp only [State.scan, split, found, if_neg notMarked]
        rfl

/-- At the end of the text a turn does nothing but pull. -/
theorem turn_of_exhausted (mark : String) (exhausted : session.cursor.lexer.next? = none) :
    session.turn mark = session.moved { session.cursor with current := none } [] := by
  have advanced : session.advance = session.moved { session.cursor with current := none } [] := by
    rw [advance, Cursor.advance_of_next?_eq_none exhausted, moved_nil]
  have none : session.advance.cursor.current = none := by
    rw [advanced]
    rfl
  rw [turn, none, advanced]

/-- After each turn the session is between two turns. -/
theorem Before.exists_turn (mark : String) (before : session.Before rows) :
    ∃ rest, (session.turn mark).Before rest ∧ rest <:+ rows := by
  cases rows with
  | nil =>
    have reads := before.reads
    cases reads with
    | nil exhausted =>
      rw [turn_of_exhausted mark exhausted]
      exact ⟨[], ⟨before.reads, before.indexed, before.sound⟩, List.suffix_rfl⟩
  | cons row rows =>
    obtain ⟨rest, advances⟩ := exists_advances_turn mark before
    exact ⟨rest, advances.before, advances.suffix⟩

/-- After any number of turns the session is between two turns. -/
theorem exists_before_iterate (mark text : String) (turns : Nat) :
    ∃ rows, ((turn mark)^[turns] (start text)).Before rows := by
  induction turns with
  | zero => exact ⟨_, before_start text⟩
  | succ turns ih =>
    obtain ⟨rows, before⟩ := ih
    obtain ⟨rest, behind, -⟩ := before.exists_turn mark
    rw [Function.iterate_succ_apply']
    exact ⟨rest, behind⟩

/-- Reading a text to its end takes some number of turns. -/
theorem exists_iterate_eq_run (mark : String) (session : Session) :
    ∃ turns, (turn mark)^[turns] session = session.run mark := by
  fun_induction Session.run mark session with
  | case1 session token pulled ih =>
    obtain ⟨turns, equal⟩ := ih
    refine ⟨turns + 1, ?_⟩
    rw [Function.iterate_succ_apply, turn_of_current mark pulled, equal]
  | case2 session exhausted =>
    refine ⟨1, ?_⟩
    rw [Function.iterate_one, turn, exhausted]

end Turns

end Session

end NetDecl
