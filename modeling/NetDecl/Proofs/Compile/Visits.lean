import Mathlib.Data.List.Iterate
import NetDecl.Proofs.Compile.Loss
import NetDecl.Proofs.LineMachine.Extends
import NetDecl.Proofs.LineMachine.Sources

/-!
# The turns of a session

Each turn of a session is one of the line machine, on the row that comes next.  What holds of the
net and the diagnostics before a text, and is kept by all that a turn can come to, holds at its end;
and whatever is recorded in the end has been recorded by one of the turns.
-/

namespace NetDecl

open LineMachine (OpenGroup Source Tail Turn openFrom readRows)

theorem Registry.Indexed.connects_iff {registry : Registry} (indexed : registry.Indexed)
    (edge : Edge) :
    registry.connects edge.source edge.target = true ↔
      edge.ends ∈ registry.net.edges.map Edge.ends := by
  rw [indexed.connections, List.mem_map]
  simp only [Edge.ends, Prod.mk.injEq]

namespace Session

/-! ## One turn -/

section Declarations

variable {session : Session} {row : Row} {words : List Word} {rows : List Row} {after : Cursor}
  {keyword : Token} {first : Word}

/-- What the session has become is what a turn on the row comes to. -/
def Turned (mark : String) (session : Session) (row : Row) (rows : List Row) (after : Session) :
    Prop :=
  ∃ fresh, Turn mark session.registry.net row rows fresh after.registry.net ∧
    after.diagnostics = session.diagnostics ++ fresh

theorem turned_declareNode (mark : String) (within : session.cursor.Within row words rows after)
    (indexed : session.registry.Indexed) (line : keyword.line = row.line.index)
    (split : row.words = first :: words) (found : Part.ofKeyword? first.text = some .node) :
    session.Turned mark row rows (session.declareNode keyword) := by
  unfold declareNode readNode
  rw [readHeader_eq within indexed line]
  rcases read : LineMachine.readHeader session.registry.net .node row words with ⟨_ | header, fresh⟩
  · exact ⟨fresh, .noHeader split found Part.noConfusion read, rfl⟩
  · exact ⟨fresh, .node split found read, rfl⟩

theorem turned_declareEdge (mark : String) (within : session.cursor.Within row words rows after)
    (indexed : session.registry.Indexed) (line : keyword.line = row.line.index)
    (split : row.words = first :: words) (found : Part.ofKeyword? first.text = some .edge) :
    session.Turned mark row rows (session.declareEdge keyword) := by
  unfold declareEdge
  rw [readEdge_eq within indexed line]
  rcases read : LineMachine.readEdge session.registry.net row words with ⟨_ | edge, fresh⟩
  · exact ⟨fresh, .noEdge split found read, rfl⟩
  · dsimp only
    rw [session.reportLine_moved within line fresh (.parallel edge.id)]
    split
    · rename_i connects
      exact ⟨_, .parallel split found read ((indexed.connects_iff edge).1 connects), rfl⟩
    · rename_i apart
      exact ⟨fresh, .edge split found read (mt (indexed.connects_iff edge).2 apart), rfl⟩

theorem turned_declareGroup (mark : String) (within : session.cursor.Within row words rows after)
    (indexed : session.registry.Indexed) (sound : session.registry.net.Sound)
    (line : keyword.line = row.line.index) (split : row.words = first :: words)
    (found : Part.ofKeyword? first.text = some .group) :
    session.Turned mark row rows (session.declareGroup keyword) := by
  unfold declareGroup
  rcases read : LineMachine.readHeader session.registry.net .group row words with
    ⟨_ | header, front⟩
  · rw [readGroup_of_header_eq_none within indexed line read]
    exact ⟨front, .noHeader split found Part.noConfusion read, rfl⟩
  rcases body : readRows session.registry.net (openFrom row header) rows with
    ⟨last, fresh, _ | tail⟩
  · rcases exists_readGroup_of_cut within indexed sound line read body with ⟨behind, -, result⟩
    rw [result]
    exact ⟨_, .cutOff split found read body, rfl⟩
  · rcases exists_readGroup_of_closed within indexed sound line read body with ⟨behind, -, result⟩
    rw [result]
    by_cases empty : last.members = []
    · rw [if_pos (List.isEmpty_iff.2 empty), empty, linked_nil]
      exact ⟨_, .memberless split found read body empty, rfl⟩
    · have filled : ¬last.members.isEmpty = true := fun none => empty (List.isEmpty_iff.1 none)
      rw [if_neg filled, OpenGroup.memberless, if_neg filled, List.append_nil]
      exact ⟨_, .group split found read body empty, rfl⟩

end Declarations

section Turns

variable {session : Session} {row : Row} {rows : List Row} {mark : String}

/-- A turn of the session is one of the line machine. -/
theorem Before.turned_turn (before : session.Before (row :: rows)) (mark : String) :
    session.Turned mark row rows (session.turn mark) := by
  rcases session.cursor.exists_within before.reads with ⟨after, within⟩
  cases split : row.words with
  | nil =>
    rw [split] at within
    rw [turn_of_words_eq_nil mark within]
    exact ⟨[], .blank split, (List.append_nil _).symm⟩
  | cons first words =>
    rw [split] at within
    rcases within.advance_cons with ⟨token, isToken, pulled, advanced⟩
    rw [turn_of_current mark pulled]
    -- Pulling the first word leaves the registry and the diagnostics.
    change session.advance.Turned mark row rows (session.advance.handle mark token)
    rw [handle_of_isToken mark isToken advanced pulled]
    cases found : Part.ofKeyword? first.text with
    | some part =>
      cases part with
      | node =>
        exact turned_declareNode mark advanced before.indexed isToken.line_eq split found
      | edge =>
        exact turned_declareEdge mark advanced before.indexed isToken.line_eq split found
      | group =>
        exact turned_declareGroup mark advanced before.indexed before.sound isToken.line_eq split
          found
    | none =>
      dsimp only
      rw [← Text.beginsWith_eq]
      split
      · rename_i marked
        exact ⟨[], .comment split found marked, rfl⟩
      · rename_i unmarked
        exact ⟨_, .unexpected split found (Bool.eq_false_iff.2 unmarked), rfl⟩

/-- The word that a turn pulls first is the first word of its row. -/
theorem Before.current_advance {first : Word} {words : List Word}
    (before : session.Before (row :: rows)) (split : row.words = first :: words) :
    ∃ token, first.IsToken row.line.index token ∧ session.advance.cursor.current = some token := by
  rcases session.cursor.exists_within before.reads with ⟨after, within⟩
  rw [split] at within
  rcases within.advance_cons with ⟨token, isToken, pulled, -⟩
  exact ⟨token, isToken, pulled⟩

end Turns

/-! ## All turns -/

/-- The next turn records the diagnostic. -/
def Records (mark : String) (session : Session) (diagnostic : Diagnostic) : Prop :=
  ∃ fresh, (session.turn mark).diagnostics = session.diagnostics ++ fresh ∧ diagnostic ∈ fresh

section Runs

variable {session visited : Session} {rows : List Row} {mark : String}

theorem run_of_current {token : Token} (pulled : session.advance.cursor.current = some token) :
    session.run mark = (session.turn mark).run mark := by
  rw [turn_of_current mark pulled, run]
  split
  · rename_i other same
    rw [pulled] at same
    cases same
    rfl
  · rename_i none
    rw [pulled] at none
    cases none

/-- A token is pulled in each turn, and the turns behind it lead to the end of the run. -/
theorem run_turn_of_mem_turns (mem : visited ∈ session.turns mark) :
    (∃ token, visited.advance.cursor.current = some token) ∧
      (visited.turn mark).run mark = session.run mark := by
  fun_induction Session.run mark session with
  | case1 session token pulled ih =>
    rw [turns_of_current pulled] at mem
    rcases List.mem_cons.1 mem with rfl | later
    · rw [turn_of_current mark pulled]
      exact ⟨⟨token, pulled⟩, rfl⟩
    · rw [turn_of_current mark pulled] at later
      exact ih later
  | case2 session exhausted =>
    rw [turns_of_exhausted exhausted] at mem
    cases mem

/-- The run of a session takes its turns one after the other, and then pulls in vain. -/
theorem turns_eq_iterate (mark : String) (session : Session) :
    session.turns mark = List.iterate (turn mark) session (session.turns mark).length ∧
      session.run mark = ((turn mark)^[(session.turns mark).length] session).advance := by
  fun_induction Session.run mark session with
  | case1 session token current ih =>
    have turned := turn_of_current mark current
    rw [← turned] at ih
    rw [turns_of_current current, List.length_cons, List.iterate, Function.iterate_succ_apply,
      ← turned]
    exact ⟨congrArg (List.cons session) ih.1, ih.2⟩
  | case2 session exhausted =>
    rw [turns_of_exhausted exhausted]
    exact ⟨rfl, rfl⟩

/-- Each turn is on one of the rows. -/
theorem Before.exists_row_of_mem_turns (before : session.Before rows)
    (mem : visited ∈ session.turns mark) :
    ∃ row rest, visited.Before (row :: rest) ∧ row :: rest <:+ rows := by
  rcases before.exists_foldl_of_mem_turns mem with ⟨passed, row, rest, split, there, -⟩
  exact ⟨row, rest, there, passed, split.symm⟩

/-- What is recorded in the end has been recorded by one of the turns. -/
theorem Before.exists_records (before : session.Before rows) {diagnostic : Diagnostic}
    (mem : diagnostic ∈ (session.run mark).diagnostics) :
    diagnostic ∈ session.diagnostics ∨
      ∃ visited ∈ session.turns mark, visited.Records mark diagnostic := by
  fun_induction Session.run mark session generalizing rows with
  | case1 session token pulled ih =>
    rcases before.exists_eq_cons pulled with ⟨row, rest, rfl⟩
    rcases before.turned_turn mark with ⟨fresh, -, added⟩
    rcases before.exists_turn mark with ⟨_, next, -⟩
    rw [turns_of_current pulled]
    have turned := turn_of_current mark pulled
    rw [turned] at next
    rcases ih next mem with recorded | ⟨visited, later, records⟩
    · rw [← turned, added] at recorded
      rcases List.mem_append.1 recorded with old | new
      · exact .inl old
      · exact .inr ⟨session, List.mem_cons_self, fresh, added, new⟩
    · rw [← turned] at later
      exact .inr ⟨visited, List.mem_cons_of_mem _ later, records⟩
  | case2 session exhausted => exact .inl mem

/-- What holds of the net and the diagnostics and is kept by all turns holds in the end. -/
theorem Before.run_induction {holds : Net → List Diagnostic → Prop} (before : session.Before rows)
    (start : holds session.registry.net session.diagnostics)
    (kept : ∀ {net diagnostics row rows fresh after}, net.Sound → holds net diagnostics →
      Turn mark net row rows fresh after → holds after (diagnostics ++ fresh)) :
    holds (session.run mark).registry.net (session.run mark).diagnostics := by
  fun_induction Session.run mark session generalizing rows with
  | case1 session token pulled ih =>
    rcases before.exists_eq_cons pulled with ⟨row, rest, rfl⟩
    rcases before.turned_turn mark with ⟨fresh, turn, added⟩
    rcases before.exists_turn mark with ⟨_, next, -⟩
    have behind := kept before.sound start turn
    rw [← added, turn_of_current mark pulled] at behind
    rw [turn_of_current mark pulled] at next
    exact ih next behind
  | case2 session exhausted => exact start

/-- The net in the end has all that has been declared before a turn. -/
theorem Before.extends_run (before : session.Before rows) (mark : String) :
    session.registry.net.Extends (session.run mark).registry.net := by
  have holds : session.scanning.Holds Net.Sound fun net group => group.Fits net :=
    LineMachine.State.holds_of_scanning before.sound rfl
  have last := congrArg LineMachine.State.net (before.run mark).1
  rw [LineMachine.runFrom, LineMachine.State.net_finish] at last
  change (session.run mark).registry.net = _ at last
  rw [last]
  exact LineMachine.extends_foldl holds mark rows

end Runs

end Session

/-! ## Whole texts -/

/-- Diagnostics of a text are recorded while it is read, but for its success. -/
theorem isSuccess_or_mem_run {options : Options} {text : String} {diagnostic : Diagnostic}
    (mem : diagnostic ∈ (compile options text).diagnostics) :
    diagnostic.code = .success ∨
      diagnostic ∈ ((Session.start text).run options.effectiveMark).diagnostics := by
  rw [compile, Session.outcome] at mem
  dsimp only at mem
  split at mem
  · rw [List.mem_singleton.1 mem]
    exact .inl rfl
  · exact .inr mem

/-- What a text is reported for, other than its success, is recorded by the turn on one of its rows,
and comes from one of the sources there. -/
theorem exists_source_of_mem_compile {options : Options} {text : String} {diagnostic : Diagnostic}
    (mem : diagnostic ∈ (compile options text).diagnostics) (problem : diagnostic.code ≠ .success) :
    ∃ session ∈ (Session.start text).turns options.effectiveMark,
      session.Records options.effectiveMark diagnostic ∧
        ∃ row rows, session.Before (row :: rows) ∧ row :: rows <:+ Row.ofText text ∧
          Source options.effectiveMark session.registry.net row rows diagnostic := by
  have start := Session.before_start text
  have recorded : ∃ session ∈ (Session.start text).turns options.effectiveMark,
      session.Records options.effectiveMark diagnostic := by
    rcases isSuccess_or_mem_run mem with success | recorded
    · exact absurd success problem
    · rcases start.exists_records recorded with old | found
      · cases old
      · exact found
  rcases recorded with ⟨session, visited, records⟩
  rcases start.exists_row_of_mem_turns visited with ⟨row, rows, before, suffix⟩
  refine ⟨session, visited, records, row, rows, before, suffix, ?_⟩
  rcases records with ⟨fresh, added, recorded⟩
  rcases before.turned_turn options.effectiveMark with ⟨same, turn, turned⟩
  rw [turned, List.append_cancel_left_eq] at added
  exact turn.source diagnostic (added ▸ recorded)

end NetDecl
