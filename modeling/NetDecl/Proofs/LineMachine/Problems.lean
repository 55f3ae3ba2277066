import NetDecl.Proofs.LineMachine.Body

/-!
# Problems

All diagnostics that the line machine records are those of issues, and so they are warnings and
errors with the severities of their codes.  A line that declares nothing records at least one.
-/

namespace NetDecl

/-- The diagnostic is a warning or an error. -/
def Diagnostic.IsProblem (diagnostic : Diagnostic) : Prop :=
  diagnostic.isWarning = true ∨ diagnostic.isError = true

/-- The diagnostic is that of an issue: its code and its message are those of the issue, and its
severity is that of the code. -/
def Diagnostic.IsRaised (diagnostic : Diagnostic) : Prop :=
  ∃ (issue : Issue) (position : Position) (length : Nat),
    diagnostic = .ofCode issue.code position length issue.message

/-- Issues are never successes. -/
theorem Diagnostic.IsRaised.isProblem {diagnostic : Diagnostic} (raised : diagnostic.IsRaised) :
    diagnostic.IsProblem := by
  rcases raised with ⟨issue, position, length, rfl⟩
  cases issue <;> simp [Diagnostic.IsProblem, Diagnostic.isWarning, Diagnostic.isError,
    Diagnostic.ofCode, Issue.code, Code.severity]

theorem Diagnostic.IsRaised.severity_eq {diagnostic : Diagnostic} (raised : diagnostic.IsRaised) :
    diagnostic.severity = diagnostic.code.severity := by
  rcases raised with ⟨issue, position, length, rfl⟩
  rfl

theorem Diagnostic.IsProblem.isSuccess_eq_false {diagnostic : Diagnostic}
    (problem : diagnostic.IsProblem) : diagnostic.isSuccess = false := by
  unfold isSuccess
  rcases problem with warning | error
  · rw [eq_of_beq warning]
    rfl
  · rw [eq_of_beq error]
    rfl

theorem Net.endIssues_eq_nil_iff {net : Net} {role : Role} {id : String} :
    net.endIssues role id = [] ↔ ∃ index, net.indexOf? id = some index := by
  unfold endIssues
  cases net.indexOf? id <;> simp

namespace LineMachine

/-- All diagnostics of the list are warnings and errors. -/
def Problems (diagnostics : List Diagnostic) : Prop :=
  ∀ diagnostic ∈ diagnostics, diagnostic.IsProblem

/-- All diagnostics of the list are those of issues. -/
def Raised (diagnostics : List Diagnostic) : Prop :=
  ∀ diagnostic ∈ diagnostics, diagnostic.IsRaised

theorem Raised.problems {diagnostics : List Diagnostic} (raised : Raised diagnostics) :
    Problems diagnostics :=
  fun diagnostic mem => (raised diagnostic mem).isProblem

theorem raised_nil : Raised [] :=
  fun _ mem => (nomatch mem)

theorem Raised.append {front back : List Diagnostic} (frontRaised : Raised front)
    (backRaised : Raised back) : Raised (front ++ back) := by
  intro diagnostic mem
  rcases List.mem_append.1 mem with left | right
  · exact frontRaised diagnostic left
  · exact backRaised diagnostic right

theorem raised_flags (row : Row) (word : Word) (issues : List Issue) :
    Raised (issues.map (row.flag word)) := by
  intro diagnostic mem
  obtain ⟨issue, -, rfl⟩ := List.mem_map.1 mem
  exact ⟨issue, _, _, rfl⟩

theorem raised_discards (row : Row) (words : List Word) : Raised (row.discards words) := by
  intro diagnostic mem
  obtain ⟨word, -, rfl⟩ := List.mem_map.1 mem
  exact ⟨_, _, _, rfl⟩

theorem raised_atLine (issue : Issue) (line : Line) : Raised [issue.atLine line] := by
  intro diagnostic mem
  cases List.mem_singleton.1 mem
  exact ⟨issue, _, _, rfl⟩

section Lines

variable (net : Net) (row : Row)

theorem raised_readHeader (part : Part) (words : List Word) :
    Raised (readHeader net part row words).2 := by
  cases words with
  | nil => exact raised_atLine _ _
  | cons id rest => exact (raised_flags row id _).append (raised_discards row _)

theorem raised_readEdge (words : List Word) : Raised (readEdge net row words).2 := by
  match words with
  | [] => exact raised_atLine _ _
  | [id] => exact (raised_flags row id _).append (raised_atLine _ _)
  | [id, source] =>
    exact ((raised_flags row id _).append (raised_flags row source _)).append
      (raised_atLine _ _)
  | id :: source :: target :: rest =>
    exact (((raised_flags row id _).append (raised_flags row source _)).append
      (raised_flags row target _)).append (raised_discards row _)

theorem raised_readMember (group : OpenGroup) (word : Word) :
    Raised (readMember net row group word).2 := by
  unfold readMember
  split
  · exact raised_flags row word [_]
  · split
    · exact raised_flags row word [_]
    · split
      · exact raised_flags row word [_]
      · exact raised_nil

theorem raised_readMembers (group : OpenGroup) (words : List Word) :
    Raised (readMembers net row group words).2 :=
  forall_mem_readMembers fun word _ _ => raised_readMember net row _ word

theorem raised_readRows (group : OpenGroup) (rows : List Row) :
    Raised (readRows net group rows).2.1 :=
  forall_mem_readRows fun row _ word _ _ => raised_readMember net row _ word

theorem raised_memberless (group : OpenGroup) : Raised group.memberless := by
  unfold OpenGroup.memberless
  split
  · exact raised_atLine _ _
  · exact raised_nil

theorem OpenGroup.memberless_eq_nil_iff {group : OpenGroup} :
    group.memberless = [] ↔ group.members ≠ [] := by
  unfold memberless
  cases group.members <;> simp

/-- A header that cannot be used has a problem. -/
theorem readHeader_ne_nil {part : Part} {words : List Word}
    (refused : (readHeader net part row words).1 = none) :
    (readHeader net part row words).2 ≠ [] := by
  cases words with
  | nil => exact List.cons_ne_nil _ _
  | cons id rest =>
    intro silent
    obtain ⟨flags, -⟩ := List.append_eq_nil_iff.1 silent
    have free := List.map_eq_nil_iff.1 flags
    simp [readHeader, free] at refused

/-- An edge that cannot be used has a problem. -/
theorem readEdge_ne_nil {words : List Word} (refused : (readEdge net row words).1 = none) :
    (readEdge net row words).2 ≠ [] := by
  match words with
  | [] => exact List.cons_ne_nil _ _
  | [_] => exact List.append_ne_nil_of_right_ne_nil _ (List.cons_ne_nil _ _)
  | [_, _] => exact List.append_ne_nil_of_right_ne_nil _ (List.cons_ne_nil _ _)
  | id :: source :: target :: rest =>
    intro silent
    obtain ⟨front, -⟩ := List.append_eq_nil_iff.1 silent
    obtain ⟨before, targetFlags⟩ := List.append_eq_nil_iff.1 front
    obtain ⟨idFlags, sourceFlags⟩ := List.append_eq_nil_iff.1 before
    have free := List.map_eq_nil_iff.1 idFlags
    obtain ⟨_, sourceFound⟩ := Net.endIssues_eq_nil_iff.1 (List.map_eq_nil_iff.1 sourceFlags)
    obtain ⟨_, targetFound⟩ := Net.endIssues_eq_nil_iff.1 (List.map_eq_nil_iff.1 targetFlags)
    simp [readEdge, free, sourceFound, targetFound] at refused

end Lines

/-! ## Steps -/

section Steps

variable {state : State}

theorem raised_declareNode (raised : Raised state.diagnostics) (row : Row)
    (words : List Word) : Raised (state.declareNode row words).diagnostics := by
  have read := raised_readHeader state.net row .node words
  unfold State.declareNode
  split <;> rename_i equal <;> rw [equal] at read <;> exact raised.append read

theorem raised_declareEdge (raised : Raised state.diagnostics) (row : Row)
    (words : List Word) : Raised (state.declareEdge row words).diagnostics := by
  have read := raised_readEdge state.net row words
  unfold State.declareEdge
  split
  · rename_i edge diagnostics equal
    rw [equal] at read
    apply raised.append (read.append _)
    unfold State.parallels
    split
    · exact raised_atLine _ _
    · exact raised_nil
  · rename_i diagnostics equal
    rw [equal] at read
    exact raised.append read

theorem raised_openGroup (raised : Raised state.diagnostics) (row : Row)
    (words : List Word) : Raised (state.openGroup row words).diagnostics := by
  have read := raised_readHeader state.net row .group words
  unfold State.openGroup
  split <;> rename_i equal <;> rw [equal] at read <;> exact raised.append read

theorem raised_closeGroup (raised : Raised state.diagnostics) (group : OpenGroup) :
    Raised (state.closeGroup group).diagnostics := by
  unfold State.closeGroup
  split
  · exact raised.append (raised_atLine _ _)
  · exact raised

/-- Reading a row records nothing but warnings and errors. -/
theorem raised_step (raised : Raised state.diagnostics) (mark : String) (row : Row) :
    Raised (state.step mark row).diagnostics := by
  unfold State.step
  split
  · unfold State.scan
    split
    · exact raised
    · split
      · exact raised_declareNode raised row _
      · exact raised_declareEdge raised row _
      · exact raised_openGroup raised row _
      · split
        · exact raised
        · exact raised.append (raised_atLine _ _)
  · rename_i group _
    have read := raised.append (raised_readMembers state.net row group
      (row.words.takeWhile Word.isMember))
    unfold State.readBody
    dsimp only
    split
    · exact read
    · exact raised_closeGroup (read.append (raised_discards row _)) _

theorem raised_foldl (raised : Raised state.diagnostics) (mark : String) (rows : List Row) :
    Raised (rows.foldl (State.step mark) state).diagnostics := by
  induction rows generalizing state with
  | nil => exact raised
  | cons row rows ih => exact ih (raised_step raised mark row)

/-- All that the machine records are warnings and errors. -/
theorem raised_run (mark : String) (rows : List Row) : Raised (run mark rows).diagnostics := by
  have read : Raised (rows.foldl (State.step mark) State.start).diagnostics :=
    raised_foldl raised_nil mark rows
  unfold run State.finish
  split
  · exact read
  · split
    · exact read.append (raised_atLine _ _)
    · exact read

end Steps

end LineMachine

end NetDecl
