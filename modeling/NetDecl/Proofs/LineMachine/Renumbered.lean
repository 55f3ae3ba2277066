import NetDecl.Proofs.LineMachine.Body
import NetDecl.Proofs.Net.Renumbered

/-!
# Machines that number nodes differently

Two line machines whose nets number their nodes differently read the same rows in the same way: what
they declare is the same up to the numbers, and what they record is the same altogether, as no
diagnostic tells a number.
-/

namespace NetDecl

/-- What a diagnostic says, apart from where. -/
def Diagnostic.notice (diagnostic : Diagnostic) : Code × String :=
  (diagnostic.code, diagnostic.message)

namespace LineMachine

/-- The group with the numbers of its members changed. -/
def OpenGroup.renumber (place : Equiv.Perm Nat) (group : OpenGroup) : OpenGroup :=
  { group with members := group.members.map place }

/-- The mode with the numbers of members changed. -/
def Mode.renumber (place : Equiv.Perm Nat) : Mode → Mode
  | scanning => scanning
  | inGroup group => inGroup (group.renumber place)

/-- The machines have declared the same parts and read the same group, up to the numbers of nodes,
and have recorded the same, up to order and places. -/
structure State.Renumbered (place : Equiv.Perm Nat) (state other : State) : Prop where
  net : state.net.Renumbered place other.net
  mode : other.mode = state.mode.renumber place
  notices : (other.diagnostics.map Diagnostic.notice).Perm
    (state.diagnostics.map Diagnostic.notice)

variable {place : Equiv.Perm Nat}

/-! ## Single lines -/

section Lines

variable {net other : Net} (renumbered : net.Renumbered place other)
include renumbered

theorem readHeader_renumbered (part : Part) (row : Row) (words : List Word) :
    readHeader other part row words = readHeader net part row words := by
  cases words with
  | nil => rfl
  | cons id rest => rw [readHeader, readHeader, renumbered.nameIssues_eq]

variable (wellFormed : net.WellFormed) (otherWellFormed : other.WellFormed)
include wellFormed otherWellFormed

theorem readEdge_renumbered (row : Row) (words : List Word) :
    readEdge other row words =
      ((readEdge net row words).1.map (Edge.renumber place), (readEdge net row words).2) := by
  have names := renumbered.nameIssues_eq .edge
  have ends := renumbered.endIssues_eq wellFormed otherWellFormed
  have found := renumbered.indexOf?_eq wellFormed otherWellFormed
  match words with
  | [] => rfl
  | [id] => simp [readEdge, names]
  | [id, source] => simp [readEdge, names, ends]
  | id :: source :: target :: rest =>
    simp only [readEdge, names, ends, found, Prod.mk.injEq, and_true]
    cases net.nameIssues .edge id.text with
    | cons issue issues => rfl
    | nil =>
      cases net.indexOf? source.text with
      | none => rfl
      | some _ => cases net.indexOf? target.text <;> rfl

theorem readMember_renumbered (row : Row) (group : OpenGroup) (word : Word) :
    readMember other row (group.renumber place) word =
      ((readMember net row group word).1.renumber place, (readMember net row group word).2) := by
  unfold readMember
  rw [renumbered.indexOf?_eq wellFormed otherWellFormed]
  cases net.indexOf? word.text with
  | none => rfl
  | some node =>
    have listed_iff : place node ∈ (group.renumber place).members ↔ node ∈ group.members :=
      List.mem_map_of_injective place.injective
    dsimp only [Option.map_some]
    simp only [listed_iff, renumbered.bind_groupOf?_eq]
    by_cases listed : node ∈ group.members
    · rw [if_pos listed, if_pos listed]
      rfl
    · rw [if_neg listed, if_neg listed]
      cases (net.nodeAt? node).bind net.groupOf? with
      | some owner => rfl
      | none => simp [OpenGroup.renumber]

theorem readMembers_renumbered (row : Row) (group : OpenGroup) (words : List Word) :
    readMembers other row (group.renumber place) words =
      ((readMembers net row group words).1.renumber place,
        (readMembers net row group words).2) := by
  induction words generalizing group with
  | nil => rfl
  | cons word words ih =>
    rw [readMembers, readMember_renumbered renumbered wellFormed otherWellFormed]
    dsimp only
    rw [ih]
    rfl

end Lines

/-! ## Steps -/

namespace State.Renumbered

variable {state other : State}

/-- Both machines can record the same. -/
theorem report (renumbered : state.Renumbered place other) (diagnostics : List Diagnostic) :
    (state.report diagnostics).Renumbered place (other.report diagnostics) where
  net := renumbered.net
  mode := renumbered.mode
  notices := by
    rw [State.report, State.report, List.map_append, List.map_append]
    exact renumbered.notices.append_right _

theorem declareNode (renumbered : state.Renumbered place other) (row : Row) (words : List Word) :
    (state.declareNode row words).Renumbered place (other.declareNode row words) := by
  unfold State.declareNode
  rw [readHeader_renumbered renumbered.net]
  rcases readHeader state.net .node row words with ⟨_ | header, diagnostics⟩
  · exact renumbered.report diagnostics
  · have reported := renumbered.report diagnostics
    exact ⟨renumbered.net.addNode _, reported.mode, reported.notices⟩

theorem openGroup (renumbered : state.Renumbered place other) (row : Row) (words : List Word) :
    (state.openGroup row words).Renumbered place (other.openGroup row words) := by
  unfold State.openGroup
  rw [readHeader_renumbered renumbered.net]
  rcases readHeader state.net .group row words with ⟨_ | header, diagnostics⟩
  · exact renumbered.report diagnostics
  · have reported := renumbered.report diagnostics
    exact ⟨reported.net, rfl, reported.notices⟩

/-- The same edges run beside others. -/
theorem parallels_eq (renumbered : state.Renumbered place other) (row : Row) (edge : Edge) :
    other.parallels row (edge.renumber place) = state.parallels row edge := by
  have same : ∀ before : Edge, (((before.renumber place).source == (edge.renumber place).source) &&
      ((before.renumber place).target == (edge.renumber place).target)) =
        ((before.source == edge.source) && (before.target == edge.target)) := by
    intro before
    rw [Bool.eq_iff_iff]
    simp [Edge.renumber]
  unfold State.parallels
  rw [renumbered.net.edges, List.any_map]
  simp only [Function.comp_def, same]
  rfl

theorem closeGroup (renumbered : state.Renumbered place other) (group : OpenGroup) :
    (state.closeGroup group).Renumbered place (other.closeGroup (group.renumber place)) := by
  have empty : (group.renumber place).members.isEmpty = group.members.isEmpty :=
    List.isEmpty_map
  unfold State.closeGroup
  rw [empty]
  split
  · have reported := renumbered.report [(Issue.memberless group.id).atLine group.header]
    exact ⟨reported.net, rfl, reported.notices⟩
  · exact ⟨renumbered.net.addGroup ⟨group.id, group.label, group.members⟩, rfl,
      renumbered.notices⟩

theorem finish (renumbered : state.Renumbered place other) :
    state.finish.Renumbered place other.finish := by
  unfold State.finish
  rw [renumbered.mode]
  cases state.mode with
  | scanning => exact renumbered
  | inGroup group =>
    have empty : (group.renumber place).members.isEmpty = group.members.isEmpty :=
      List.isEmpty_map
    dsimp only [Mode.renumber]
    rw [empty]
    split
    · have reported := renumbered.report [(Issue.memberless group.id).atLine group.header]
      exact ⟨reported.net, rfl, reported.notices⟩
    · exact ⟨renumbered.net, rfl, renumbered.notices⟩

section WellFormed

variable (wellFormed : state.net.WellFormed) (otherWellFormed : other.net.WellFormed)
include wellFormed otherWellFormed

theorem declareEdge (renumbered : state.Renumbered place other) (row : Row) (words : List Word) :
    (state.declareEdge row words).Renumbered place (other.declareEdge row words) := by
  unfold State.declareEdge
  rw [readEdge_renumbered renumbered.net wellFormed otherWellFormed]
  rcases readEdge state.net row words with ⟨_ | edge, diagnostics⟩
  · exact renumbered.report diagnostics
  · dsimp only [Option.map_some]
    rw [renumbered.parallels_eq]
    have reported := renumbered.report (diagnostics ++ state.parallels row edge)
    exact ⟨renumbered.net.addEdge edge, reported.mode, reported.notices⟩

theorem scan (renumbered : state.Renumbered place other) (mark : String) (row : Row) :
    (state.scan mark row).Renumbered place (other.scan mark row) := by
  unfold State.scan
  split
  · exact renumbered
  · split
    · exact renumbered.declareNode row _
    · exact renumbered.declareEdge wellFormed otherWellFormed row _
    · exact renumbered.openGroup row _
    · split
      · exact renumbered
      · exact renumbered.report _

theorem readBody (renumbered : state.Renumbered place other) (group : OpenGroup) (row : Row) :
    (state.readBody group row).Renumbered place (other.readBody (group.renumber place) row) := by
  unfold State.readBody
  rw [readMembers_renumbered renumbered.net wellFormed otherWellFormed]
  dsimp only
  have reported := renumbered.report
    (readMembers state.net row group (row.words.takeWhile Word.isMember)).2
  split
  · exact ⟨reported.net, rfl, reported.notices⟩
  · exact (reported.report _).closeGroup _

/-- Machines that differ in numbers do so after reading the same row. -/
theorem step (renumbered : state.Renumbered place other) (mark : String) (row : Row) :
    (state.step mark row).Renumbered place (other.step mark row) := by
  unfold State.step
  rw [renumbered.mode]
  cases mode : state.mode with
  | scanning => exact renumbered.scan wellFormed otherWellFormed mark row
  | inGroup group => exact renumbered.readBody wellFormed otherWellFormed group row

end WellFormed

/-- Machines that differ in numbers do so at the end of the same rows. -/
theorem runFrom (renumbered : state.Renumbered place other)
    (holds : state.Holds Net.Sound fun net group => group.Fits net)
    (otherHolds : other.Holds Net.Sound fun net group => group.Fits net) (mark : String)
    (rows : List Row) :
    (LineMachine.runFrom mark state rows).Renumbered place
      (LineMachine.runFrom mark other rows) := by
  induction rows generalizing state other with
  | nil => exact renumbered.finish
  | cons row rows ih =>
    exact ih (renumbered.step holds.net.wellFormed otherHolds.net.wellFormed mark row)
      (invariant_sound.step holds trivial mark) (invariant_sound.step otherHolds trivial mark)

end State.Renumbered

end LineMachine

end NetDecl
