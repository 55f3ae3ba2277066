import NetDecl.Proofs.Compile.Turns
import NetDecl.Proofs.Declaration.Atomic
import NetDecl.Proofs.LineMachine.Cut
import NetDecl.Proofs.LineMachine.Problems

/-!
# What becomes of a declaration

A turn that begins a declaration declares one part or records a problem.  There is one way around
this: a group without problems that the text ends in is lost.
-/

namespace NetDecl

open LineMachine (OpenGroup Problems readRows openFrom)

namespace Session

/-- The declaration that the next turn begins, with its keyword. -/
def dispatch? (session : Session) : Option (Part × Token) :=
  session.advance.cursor.current.bind fun token =>
    if token.isBoundary then none
    else (Part.ofKeyword? token.text).map fun part => (part, token)

/-- One part of the given kind has been declared; for a group its members have been linked first. -/
def Declares (session : Session) (part : Part) (after : Session) : Prop :=
  match part with
  | .node => ∃ node, after.registry = session.registry.addNode node
  | .edge => ∃ edge, after.registry = session.registry.addEdge edge
  | .group => ∃ group, after.registry = (session.registry.link group.members).addGroup group

/-- At least one warning or error has been recorded, and nothing else. -/
def Reports (session after : Session) : Prop :=
  ∃ problems, problems ≠ [] ∧ Problems problems ∧
    after.diagnostics = session.diagnostics ++ problems

/-- What becomes of a declaration on a row that is followed by the given rows. -/
inductive Fate (session : Session) (part : Part) (row : Row) (rows : List Row) (after : Session) :
    Prop where
  /-- One part is declared. -/
  | declared {problems : List Diagnostic} :
      session.Declares part after → Problems problems →
      after.diagnostics = session.diagnostics ++ problems →
      (part = .group → ¬row.CutOff session.registry.net rows) → Fate session part row rows after
  /-- Nothing is declared, and problems say why. -/
  | refused :
      after.registry = session.registry → session.Reports after →
      (part = .group → ¬row.CutOff session.registry.net rows) → Fate session part row rows after
  /-- Nothing is declared, and nothing says why. -/
  | lost :
      part = .group → row.CutOff session.registry.net rows →
      after.registry = session.registry → after.diagnostics = session.diagnostics →
      Fate session part row rows after

/-! ## Declarations -/

section Declarations

variable {session : Session} {row : Row} {words : List Word} {rows : List Row} {after : Cursor}
  {keyword : Token}

theorem fate_declareNode (within : session.cursor.Within row words rows after)
    (indexed : session.registry.Indexed) (line : keyword.line = row.line.index) :
    session.Fate .node row rows (session.declareNode keyword) := by
  have raised := LineMachine.raised_readHeader session.registry.net row .node words
  unfold declareNode readNode
  rw [readHeader_eq within indexed line]
  cases read : LineMachine.readHeader session.registry.net .node row words with
  | mk header diagnostics =>
    rw [read] at raised
    cases header with
    | none =>
      apply Fate.refused
      · rfl
      · have filled := LineMachine.readHeader_ne_nil session.registry.net row
          (congrArg Prod.fst read)
        rw [read] at filled
        exact ⟨diagnostics, filled, raised.problems, rfl⟩
      · intro isGroup
        cases isGroup
    | some header =>
      apply Fate.declared
      · exact ⟨⟨header.id, header.label, none⟩, rfl⟩
      · exact raised.problems
      · rfl
      · intro isGroup
        cases isGroup

theorem fate_declareEdge (within : session.cursor.Within row words rows after)
    (indexed : session.registry.Indexed) (line : keyword.line = row.line.index) :
    session.Fate .edge row rows (session.declareEdge keyword) := by
  have raised := LineMachine.raised_readEdge session.registry.net row words
  unfold declareEdge
  rw [readEdge_eq within indexed line]
  cases read : LineMachine.readEdge session.registry.net row words with
  | mk edge diagnostics =>
    rw [read] at raised
    cases edge with
    | none =>
      apply Fate.refused
      · rfl
      · have filled := LineMachine.readEdge_ne_nil session.registry.net row
          (congrArg Prod.fst read)
        rw [read] at filled
        exact ⟨diagnostics, filled, raised.problems, rfl⟩
      · intro isGroup
        cases isGroup
    | some edge =>
      dsimp only
      rw [session.reportLine_moved within line diagnostics (.parallel edge.id)]
      split
      · apply Fate.declared
        · exact ⟨edge, rfl⟩
        · exact (raised.append (LineMachine.raised_atLine (.parallel edge.id) row.line)).problems
        · rfl
        · intro isGroup
          cases isGroup
      · apply Fate.declared
        · exact ⟨edge, rfl⟩
        · exact raised.problems
        · rfl
        · intro isGroup
          cases isGroup

/-- A group that the text ends in is refused, or lost if it has no problems. -/
theorem fate_declareGroup_of_cut (within : session.cursor.Within row words rows after)
    (indexed : session.registry.Indexed) (sound : session.registry.net.Sound)
    (line : keyword.line = row.line.index) {first : Word} (split : row.words = first :: words)
    {header : Header} {front body : List Diagnostic} {last : OpenGroup}
    (read : LineMachine.readHeader session.registry.net .group row words = (some header, front))
    (cut : readRows session.registry.net (openFrom row header) rows = (last, body, none)) :
    session.Fate .group row rows (session.declareGroup keyword) := by
  have headerRaised := LineMachine.raised_readHeader session.registry.net row .group words
  have bodyRaised := LineMachine.raised_readRows session.registry.net (openFrom row header) rows
  rw [read] at headerRaised
  rw [cut] at bodyRaised
  rcases exists_readGroup_of_cut within indexed sound line read cut with ⟨behind, -, result⟩
  unfold declareGroup
  rw [result]
  by_cases silent : front ++ (body ++ last.memberless) = []
  · rcases List.append_eq_nil_iff.1 silent with ⟨rfl, rest⟩
    rcases List.append_eq_nil_iff.1 rest with ⟨rfl, filled⟩
    apply Fate.lost
    · rfl
    · rw [LineMachine.cutOff_iff sound.wellFormed split]
      exact ⟨header, last, read, cut, OpenGroup.memberless_eq_nil_iff.1 filled⟩
    · rfl
    · rw [silent]
      exact List.append_nil session.diagnostics
  · apply Fate.refused
    · rfl
    · have raised := headerRaised.append
        (bodyRaised.append (LineMachine.raised_memberless last))
      exact ⟨_, silent, raised.problems, rfl⟩
    · rintro - cutOff
      rcases (LineMachine.cutOff_iff sound.wellFormed split).1 cutOff with
        ⟨_, _, silentRead, silentCut, filled⟩
      rw [read] at silentRead
      cases silentRead
      rw [cut] at silentCut
      cases silentCut
      exact silent (OpenGroup.memberless_eq_nil_iff.2 filled)

/-- A group that is closed is declared, or refused if it has no members. -/
theorem fate_declareGroup_of_closed (within : session.cursor.Within row words rows after)
    (indexed : session.registry.Indexed) (sound : session.registry.net.Sound)
    (line : keyword.line = row.line.index) {first : Word} (split : row.words = first :: words)
    {header : Header} {front body : List Diagnostic} {last : OpenGroup} {tail : LineMachine.Tail}
    (read : LineMachine.readHeader session.registry.net .group row words = (some header, front))
    (closed : readRows session.registry.net (openFrom row header) rows = (last, body, some tail)) :
    session.Fate .group row rows (session.declareGroup keyword) := by
  have headerRaised := LineMachine.raised_readHeader session.registry.net row .group words
  have bodyRaised := LineMachine.raised_readRows session.registry.net (openFrom row header) rows
  rw [read] at headerRaised
  rw [closed] at bodyRaised
  have raised := headerRaised.append ((bodyRaised.append
    (LineMachine.raised_discards tail.row tail.words)).append
      (LineMachine.raised_memberless last))
  have notCut : ¬row.CutOff session.registry.net rows := by
    intro cutOff
    rcases (LineMachine.cutOff_iff sound.wellFormed split).1 cutOff with ⟨_, _, otherRead, cut, -⟩
    rw [read] at otherRead
    cases otherRead
    rw [closed] at cut
    cases cut
  rcases exists_readGroup_of_closed within indexed sound line read closed with ⟨behind, -, result⟩
  unfold declareGroup
  rw [result]
  by_cases empty : last.members.isEmpty = true
  · have none := List.isEmpty_iff.1 empty
    rw [if_pos empty, none, linked_nil]
    apply Fate.refused
    · rfl
    · have filled : front ++ (body ++ tail.row.discards tail.words ++ last.memberless) ≠ [] := by
        intro silent
        have memberless := (List.append_eq_nil_iff.1 (List.append_eq_nil_iff.1 silent).2).2
        exact OpenGroup.memberless_eq_nil_iff.1 memberless none
      exact ⟨_, filled, raised.problems, rfl⟩
    · exact fun _ => notCut
  · rw [if_neg empty]
    apply Fate.declared
    · exact ⟨last.toGroup, rfl⟩
    · exact raised.problems
    · rfl
    · exact fun _ => notCut

theorem fate_declareGroup (within : session.cursor.Within row words rows after)
    (indexed : session.registry.Indexed) (sound : session.registry.net.Sound)
    (line : keyword.line = row.line.index) {first : Word} (split : row.words = first :: words) :
    session.Fate .group row rows (session.declareGroup keyword) := by
  cases read : LineMachine.readHeader session.registry.net .group row words with
  | mk header diagnostics =>
    cases header with
    | some header =>
      cases body : readRows session.registry.net (openFrom row header) rows with
      | mk last bodyTail =>
        rcases bodyTail with ⟨bodyDiagnostics, tail⟩
        cases tail with
        | none => exact fate_declareGroup_of_cut within indexed sound line split read body
        | some tail => exact fate_declareGroup_of_closed within indexed sound line split read body
    | none =>
      have raised := LineMachine.raised_readHeader session.registry.net row .group words
      have filled := LineMachine.readHeader_ne_nil session.registry.net row
        (congrArg Prod.fst read)
      rw [read] at raised filled
      unfold declareGroup
      rw [readGroup_of_header_eq_none within indexed line read]
      apply Fate.refused
      · rfl
      · exact ⟨diagnostics, filled, raised.problems, rfl⟩
      · rintro - cutOff
        rcases (LineMachine.cutOff_iff sound.wellFormed split).1 cutOff with ⟨header, _, used, -⟩
        rw [read] at used
        cases used

end Declarations

/-! ## Turns -/

section Turns

variable {session : Session} {rows : List Row} {part : Part} {keyword : Token}

theorem of_dispatch?_eq_some (dispatched : session.dispatch? = some (part, keyword)) :
    session.advance.cursor.current = some keyword ∧ keyword.isBoundary = false ∧
      Part.ofKeyword? keyword.text = some part := by
  rcases Option.bind_eq_some_iff.1 dispatched with ⟨token, pulled, inside⟩
  split at inside
  · cases inside
  · rename_i notBoundary
    rcases Option.map_eq_some_iff.1 inside with ⟨found, read, equal⟩
    cases equal
    exact ⟨pulled, eq_false_of_ne_true notBoundary, read⟩

/-- A turn that begins a declaration goes through with it. -/
theorem turn_of_dispatch? (mark : String) (dispatched : session.dispatch? = some (part, keyword)) :
    session.turn mark = session.advance.declare part keyword := by
  rcases of_dispatch?_eq_some dispatched with ⟨pulled, inside, found⟩
  rw [turn_of_current mark pulled, handle, if_neg (by simp [inside]), found]

/-- A turn that begins no declaration leaves what has been declared. -/
theorem kept_turn_of_dispatch?_eq_none (mark : String) (dispatched : session.dispatch? = none) :
    session.Kept (session.turn mark) := by
  unfold turn
  cases pulled : session.advance.cursor.current with
  | none => exact ⟨rfl, List.prefix_rfl⟩
  | some token =>
    rw [dispatch?, pulled, Option.bind_some] at dispatched
    dsimp only [handle]
    split
    · exact ⟨rfl, List.prefix_rfl⟩
    · rename_i notBoundary
      rw [if_neg notBoundary, Option.map_eq_none_iff] at dispatched
      rw [dispatched]
      dsimp only
      split
      · exact ⟨rfl, List.prefix_rfl⟩
      · exact ⟨rfl, List.prefix_append _ _⟩

/-- A declaration begins on the first of the rows that are left. -/
theorem Before.exists_fate_turn (before : session.Before rows) (mark : String)
    (dispatched : session.dispatch? = some (part, keyword)) :
    ∃ row rest, rows = row :: rest ∧ keyword.line = row.line.index ∧
      session.Fate part row rest (session.turn mark) := by
  rcases of_dispatch?_eq_some dispatched with ⟨pulled, inside, found⟩
  rw [turn_of_dispatch? mark dispatched]
  cases rows with
  | nil =>
    cases before.reads with
    | nil exhausted =>
      rw [advance, Cursor.advance_of_next?_eq_none exhausted] at pulled
      cases pulled
  | cons row rows =>
    rcases session.cursor.exists_within before.reads with ⟨after, within⟩
    cases split : row.words with
    | nil =>
      rw [split] at within
      rcases within.exists_current with ⟨boundary, ended, current⟩
      rw [show session.advance.cursor = after from within.advance_nil, current] at pulled
      cases pulled
      rw [ended.isBoundary_eq] at inside
      cases inside
    | cons first words =>
      rw [split] at within
      rcases within.advance_cons with ⟨token, isToken, current, advanced⟩
      rw [show session.advance.cursor.current = some token from current] at pulled
      cases pulled
      have line := isToken.line_eq
      have fate : session.advance.Fate part row rows (session.advance.declare part keyword) := by
        cases part with
        | node => exact fate_declareNode advanced before.indexed line
        | edge => exact fate_declareEdge advanced before.indexed line
        | group => exact fate_declareGroup advanced before.indexed before.sound line split
      -- Pulling the keyword leaves the registry and the diagnostics.
      have same : session.Fate part row rows (session.advance.declare part keyword) := by
        cases fate with
        | declared declares problems diagnostics notCut =>
          exact .declared declares problems diagnostics notCut
        | refused registry reports notCut => exact .refused registry reports notCut
        | lost isGroup cutOff registry diagnostics =>
          exact .lost isGroup cutOff registry diagnostics
      exact ⟨row, rows, rfl, line, same⟩

end Turns

end Session

end NetDecl
