import NetDecl.Proofs.LineMachine.Recorded

/-!
# Turns of the line machine

A turn goes over one row and, where the row opens a group, over the body of the group.  `Turn`
lists all that a turn can come to: which diagnostics it records and which net it leaves.  Whatever
is known about diagnostics of one kind is read off the few cases that record them.
-/

namespace NetDecl

/-- The ends of an edge. -/
def Edge.ends (edge : Edge) : Nat × Nat :=
  (edge.source, edge.target)

namespace Code

/-- The codes of issues with words of a declaration. -/
def ofDeclarations : List Code :=
  [duplicatedId, idConflict, nodeNotFound, tokenDiscarded]

/-- The codes of issues with names of members. -/
def ofMembers : List Code :=
  [nodeNotFound, anotherGroup, duplicateGroupAssignment]

theorem isAtLine_eq_false_of_mem_ofDeclarations {code : Code} (mem : code ∈ ofDeclarations) :
    code.isAtLine = false := by
  revert code
  decide

theorem isAtLine_eq_false_of_mem_ofMembers {code : Code} (mem : code ∈ ofMembers) :
    code.isAtLine = false := by
  revert code
  decide

end Code

@[simp]
theorem Row.code_flag (row : Row) (word : Word) (issue : Issue) :
    (row.flag word issue).code = issue.code :=
  rfl

namespace LineMachine

/-! ## Single lines -/

section Lines

variable {net : Net} {part : Part} {row : Row} {words : List Word} {group : OpenGroup}
  {diagnostic : Diagnostic} {fresh : List Diagnostic}

theorem code_of_mem_nameIssues {id : Word}
    (mem : diagnostic ∈ (net.nameIssues part id.text).map (row.flag id)) :
    diagnostic.code ∈ Code.ofDeclarations := by
  rcases List.mem_map.1 mem with ⟨issue, issueMem, rfl⟩
  rcases Net.eq_of_mem_nameIssues issueMem with rfl | rfl <;>
    simp [Issue.code, Code.ofDeclarations]

theorem code_of_mem_endIssues {role : Role} {id : Word}
    (mem : diagnostic ∈ (net.endIssues role id.text).map (row.flag id)) :
    diagnostic.code ∈ Code.ofDeclarations := by
  rcases List.mem_map.1 mem with ⟨issue, issueMem, rfl⟩
  rw [Net.eq_of_mem_endIssues issueMem]
  simp [Issue.code, Code.ofDeclarations]

theorem code_of_mem_discards (mem : diagnostic ∈ row.discards words) :
    diagnostic.code ∈ Code.ofDeclarations := by
  rcases List.mem_map.1 mem with ⟨word, -, rfl⟩
  simp [Issue.code, Code.ofDeclarations]

/-- A header is too short if it has no words. -/
theorem of_mem_readHeader {header : Option Header}
    (read : readHeader net part row words = (header, fresh)) (mem : diagnostic ∈ fresh) :
    diagnostic.code ∈ Code.ofDeclarations ∨
      words = [] ∧ diagnostic = (Issue.insufficient part).atLine row.line := by
  have same : fresh = (readHeader net part row words).2 := by rw [read]
  rw [same] at mem
  cases words with
  | nil => exact .inr ⟨rfl, List.mem_singleton.1 mem⟩
  | cons id rest =>
    left
    rcases List.mem_append.1 mem with flagged | discarded
    · exact code_of_mem_nameIssues flagged
    · exact code_of_mem_discards discarded

/-- An edge is too short if it has no more than two words. -/
theorem of_mem_readEdge {edge : Option Edge} (read : readEdge net row words = (edge, fresh))
    (mem : diagnostic ∈ fresh) :
    diagnostic.code ∈ Code.ofDeclarations ∨
      words.length < 3 ∧ diagnostic = (Issue.insufficient .edge).atLine row.line := by
  have same : fresh = (readEdge net row words).2 := by rw [read]
  rw [same] at mem
  match words with
  | [] => exact .inr ⟨Nat.zero_lt_succ 2, List.mem_singleton.1 mem⟩
  | [id] =>
    rcases List.mem_append.1 mem with name | short
    · exact .inl (code_of_mem_nameIssues name)
    · exact .inr ⟨Nat.succ_lt_succ (Nat.zero_lt_succ 1), List.mem_singleton.1 short⟩
  | [id, source] =>
    rcases List.mem_append.1 mem with front | short
    · rcases List.mem_append.1 front with name | leaving
      · exact .inl (code_of_mem_nameIssues name)
      · exact .inl (code_of_mem_endIssues leaving)
    · exact .inr ⟨Nat.lt_succ_self 2, List.mem_singleton.1 short⟩
  | id :: source :: target :: rest =>
    left
    rcases List.mem_append.1 mem with front | discarded
    · rcases List.mem_append.1 front with before | entering
      · rcases List.mem_append.1 before with name | leaving
        · exact code_of_mem_nameIssues name
        · exact code_of_mem_endIssues leaving
      · exact code_of_mem_endIssues entering
    · exact code_of_mem_discards discarded

theorem code_of_mem_readMember {word : Word}
    (mem : diagnostic ∈ (readMember net row group word).2) : diagnostic.code ∈ Code.ofMembers := by
  unfold readMember at mem
  split at mem
  · rw [List.mem_singleton.1 mem]
    simp [Issue.code, Code.ofMembers]
  · split at mem
    · rw [List.mem_singleton.1 mem]
      simp [Issue.code, Code.ofMembers]
    · split at mem
      · rw [List.mem_singleton.1 mem]
        simp [Issue.code, Code.ofMembers]
      · cases mem

/-- A body has issues with names of members only. -/
theorem code_of_mem_readRows {rows : List Row} {last : OpenGroup} {tail : Option Tail}
    (read : readRows net group rows = (last, fresh, tail)) (mem : diagnostic ∈ fresh) :
    diagnostic.code ∈ Code.ofMembers := by
  have same : fresh = (readRows net group rows).2.1 := by rw [read]
  rw [same] at mem
  exact forall_mem_readRows (fun _ _ _ _ _ _ mem => code_of_mem_readMember mem) diagnostic mem

end Lines

/-! ## Turns -/

/-- What a turn on a row records, and the net that it leaves.  The row is followed by the given
rows. -/
inductive Turn (mark : String) (net : Net) (row : Row) (rows : List Row) :
    List Diagnostic → Net → Prop where
  /-- The row has no words. -/
  | blank : row.words = [] → Turn mark net row rows [] net
  /-- The row is a comment. -/
  | comment {first : Word} {rest : List Word} :
      row.words = first :: rest → Part.ofKeyword? first.text = none →
      Text.beginsWith first.text mark = true → Turn mark net row rows [] net
  /-- The row starts with a word that declares nothing. -/
  | unexpected {first : Word} {rest : List Word} :
      row.words = first :: rest → Part.ofKeyword? first.text = none →
      Text.beginsWith first.text mark = false →
      Turn mark net row rows [(Issue.unexpected first.text).atLine row.line] net
  /-- The header of a node or of a group cannot be used. -/
  | noHeader {first : Word} {rest : List Word} {part : Part} {fresh : List Diagnostic} :
      row.words = first :: rest → Part.ofKeyword? first.text = some part → part ≠ .edge →
      readHeader net part row rest = (none, fresh) → Turn mark net row rows fresh net
  /-- The row declares a node. -/
  | node {first : Word} {rest : List Word} {header : Header} {fresh : List Diagnostic} :
      row.words = first :: rest → Part.ofKeyword? first.text = some .node →
      readHeader net .node row rest = (some header, fresh) →
      Turn mark net row rows fresh (net.addNode ⟨header.id, header.label, none⟩)
  /-- An edge cannot be used. -/
  | noEdge {first : Word} {rest : List Word} {fresh : List Diagnostic} :
      row.words = first :: rest → Part.ofKeyword? first.text = some .edge →
      readEdge net row rest = (none, fresh) → Turn mark net row rows fresh net
  /-- The row declares an edge with ends that no other edge has. -/
  | edge {first : Word} {rest : List Word} {edge : Edge} {fresh : List Diagnostic} :
      row.words = first :: rest → Part.ofKeyword? first.text = some .edge →
      readEdge net row rest = (some edge, fresh) → edge.ends ∉ net.edges.map Edge.ends →
      Turn mark net row rows fresh (net.addEdge edge)
  /-- The row declares an edge that runs beside another. -/
  | parallel {first : Word} {rest : List Word} {edge : Edge} {front : List Diagnostic} :
      row.words = first :: rest → Part.ofKeyword? first.text = some .edge →
      readEdge net row rest = (some edge, front) → edge.ends ∈ net.edges.map Edge.ends →
      Turn mark net row rows (front ++ [(Issue.parallel edge.id).atLine row.line])
        (net.addEdge edge)
  /-- The row opens a group that the text ends in. -/
  | cutOff {first : Word} {rest : List Word} {header : Header} {last : OpenGroup}
      {front body : List Diagnostic} :
      row.words = first :: rest → Part.ofKeyword? first.text = some .group →
      readHeader net .group row rest = (some header, front) →
      readRows net (openFrom row header) rows = (last, body, none) →
      Turn mark net row rows (front ++ (body ++ last.memberless)) net
  /-- The row opens a group that is closed without members. -/
  | memberless {first : Word} {rest : List Word} {header : Header} {last : OpenGroup}
      {front body : List Diagnostic} {tail : Tail} :
      row.words = first :: rest → Part.ofKeyword? first.text = some .group →
      readHeader net .group row rest = (some header, front) →
      readRows net (openFrom row header) rows = (last, body, some tail) → last.members = [] →
      Turn mark net row rows
        (front ++ (body ++ tail.row.discards tail.words ++ last.memberless)) net
  /-- The row opens a group that is closed with members. -/
  | group {first : Word} {rest : List Word} {header : Header} {last : OpenGroup}
      {front body : List Diagnostic} {tail : Tail} :
      row.words = first :: rest → Part.ofKeyword? first.text = some .group →
      readHeader net .group row rest = (some header, front) →
      readRows net (openFrom row header) rows = (last, body, some tail) → last.members ≠ [] →
      Turn mark net row rows (front ++ (body ++ tail.row.discards tail.words))
        (net.addGroup last.toGroup)

end LineMachine

end NetDecl
