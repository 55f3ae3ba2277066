import Mathlib.Data.List.Forall2
import NetDecl.Proofs.LineMachine.Body

/-!
# Rows that are alike

Two rows are alike if their words have the same texts and if whatever is reported about the one is
related to what is reported about the other.  The line machine that reads rows alike to others
declares the same net, and the diagnostics of the two runs are related one by one.

The relation between diagnostics is left open.  Equality, agreement up to columns and a shift of
line numbers are the relations that texts are compared with.
-/

namespace NetDecl

open List (Forall₂)

/-- Whatever the issue, its diagnostics on the two lines are related. -/
def Line.Alike (relation : Diagnostic → Diagnostic → Prop) (line other : Line) : Prop :=
  ∀ issue : Issue, relation (issue.atLine line) (issue.atLine other)

namespace Row

/-- The words, one of each row, have the same text, and whatever the issue, its diagnostics on the
two words are related. -/
structure AlikeWords (relation : Diagnostic → Diagnostic → Prop) (row other : Row)
    (word otherWord : Word) : Prop where
  text : word.text = otherWord.text
  flag : ∀ issue, relation (row.flag word issue) (other.flag otherWord issue)

/-- The rows have the same words, and all diagnostics that they can give rise to are related. -/
structure Alike (relation : Diagnostic → Diagnostic → Prop) (row other : Row) : Prop where
  line : row.line.Alike relation other.line
  words : Forall₂ (row.AlikeWords relation other) row.words other.words
  stop : relation (.success row.stop) (.success other.stop)

end Row

namespace LineMachine

/-- The groups have the same name, label and members, and lines that are alike have opened them. -/
structure OpenGroup.Alike (relation : Diagnostic → Diagnostic → Prop) (group other : OpenGroup) :
    Prop where
  id : group.id = other.id
  label : group.label = other.label
  members : group.members = other.members
  header : group.header.Alike relation other.header

/-- The machines are both scanning, or in groups that are alike. -/
inductive Mode.Alike (relation : Diagnostic → Diagnostic → Prop) : Mode → Mode → Prop where
  | scanning : Alike relation .scanning .scanning
  | inGroup {group other : OpenGroup} :
      group.Alike relation other → Alike relation (.inGroup group) (.inGroup other)

/-- The machines have declared the same net and are in modes that are alike.  What they have
recorded behind `front` and behind `otherFront` is related one by one. -/
structure State.Alike (relation : Diagnostic → Diagnostic → Prop)
    (front otherFront : List Diagnostic) (state other : State) : Prop where
  net : state.net = other.net
  mode : state.mode.Alike relation other.mode
  diagnostics : ∃ recorded otherRecorded, state.diagnostics = front ++ recorded ∧
    other.diagnostics = otherFront ++ otherRecorded ∧ Forall₂ relation recorded otherRecorded

variable {relation : Diagnostic → Diagnostic → Prop} {row otherRow : Row}

/-! ## Single lines -/

section Lines

variable {words otherWords : List Word} {word otherWord : Word}

theorem forall₂_flags (alike : row.AlikeWords relation otherRow word otherWord)
    (issues : List Issue) :
    Forall₂ relation (issues.map (row.flag word)) (issues.map (otherRow.flag otherWord)) := by
  rw [List.forall₂_map_left_iff, List.forall₂_map_right_iff, List.forall₂_same]
  exact fun issue _ => alike.flag issue

theorem forall₂_discards (alike : Forall₂ (row.AlikeWords relation otherRow) words otherWords) :
    Forall₂ relation (row.discards words) (otherRow.discards otherWords) := by
  rw [Row.discards, Row.discards, List.forall₂_map_left_iff, List.forall₂_map_right_iff]
  apply alike.imp
  intro word otherWord same
  rw [← same.text]
  exact same.flag _

theorem forall₂_atLine {line otherLine : Line} (alike : line.Alike relation otherLine)
    (issue : Issue) : Forall₂ relation [issue.atLine line] [issue.atLine otherLine] :=
  .cons (alike issue) .nil

theorem labelOf_eq (alike : Forall₂ (row.AlikeWords relation otherRow) words otherWords) :
    labelOf words = labelOf otherWords := by
  cases alike with
  | nil => rfl
  | cons same _ => exact same.text

theorem isMember_eq (alike : row.AlikeWords relation otherRow word otherWord) :
    word.isMember = otherWord.isMember := by
  rw [Word.isMember, Word.isMember, alike.text]

/-- The words up to the keyword that ends a group are alike, and so are the words from there on. -/
theorem forall₂_isMember (alike : Forall₂ (row.AlikeWords relation otherRow) words otherWords) :
    Forall₂ (row.AlikeWords relation otherRow) (words.takeWhile Word.isMember)
        (otherWords.takeWhile Word.isMember) ∧
      Forall₂ (row.AlikeWords relation otherRow) (words.dropWhile Word.isMember)
        (otherWords.dropWhile Word.isMember) := by
  induction alike with
  | nil => exact ⟨.nil, .nil⟩
  | @cons word otherWord words otherWords same rest ih =>
    rcases ih with ⟨taken, dropped⟩
    have isMember := isMember_eq same
    cases member : word.isMember with
    | true =>
      rw [member] at isMember
      rw [List.takeWhile_cons_of_pos member, List.takeWhile_cons_of_pos isMember.symm,
        List.dropWhile_cons_of_pos member, List.dropWhile_cons_of_pos isMember.symm]
      exact ⟨.cons same taken, dropped⟩
    | false =>
      rw [member] at isMember
      have stops : ¬word.isMember = true := by simp [member]
      have otherStops : ¬otherWord.isMember = true := by simp [← isMember]
      rw [List.takeWhile_cons_of_neg stops, List.takeWhile_cons_of_neg otherStops,
        List.dropWhile_cons_of_neg stops, List.dropWhile_cons_of_neg otherStops]
      exact ⟨.nil, .cons same rest⟩

/-- Alike headers are read alike. -/
theorem exists_readHeader_eq (rows : row.Alike relation otherRow)
    (alike : Forall₂ (row.AlikeWords relation otherRow) words otherWords) (net : Net)
    (part : Part) :
    ∃ header recorded otherRecorded, readHeader net part row words = (header, recorded) ∧
      readHeader net part otherRow otherWords = (header, otherRecorded) ∧
      Forall₂ relation recorded otherRecorded := by
  cases alike with
  | nil => exact ⟨none, _, _, rfl, rfl, forall₂_atLine rows.line _⟩
  | cons id rest =>
    have discards := forall₂_discards (List.forall₂_drop 1 rest)
    dsimp only [readHeader]
    rw [← id.text, labelOf_eq rest]
    exact ⟨_, _, _, rfl, rfl, List.rel_append (forall₂_flags id _) discards⟩

/-- Alike edges are read alike. -/
theorem exists_readEdge_eq (rows : row.Alike relation otherRow)
    (alike : Forall₂ (row.AlikeWords relation otherRow) words otherWords) (net : Net) :
    ∃ edge recorded otherRecorded, readEdge net row words = (edge, recorded) ∧
      readEdge net otherRow otherWords = (edge, otherRecorded) ∧
      Forall₂ relation recorded otherRecorded := by
  have short := forall₂_atLine rows.line (.insufficient .edge)
  cases alike with
  | nil => exact ⟨none, _, _, rfl, rfl, short⟩
  | cons id alike =>
    have idFlags (issues : List Issue) := forall₂_flags id issues
    cases alike with
    | nil =>
      dsimp only [readEdge]
      rw [← id.text]
      exact ⟨none, _, _, rfl, rfl, List.rel_append (idFlags _) short⟩
    | cons source alike =>
      have flags (issues sourceIssues : List Issue) :=
        List.rel_append (idFlags issues) (forall₂_flags source sourceIssues)
      cases alike with
      | nil =>
        dsimp only [readEdge]
        rw [← id.text, ← source.text]
        exact ⟨none, _, _, rfl, rfl, List.rel_append (flags _ _) short⟩
      | cons target rest =>
        have discards := forall₂_discards (List.forall₂_drop 1 rest)
        dsimp only [readEdge]
        rw [← id.text, ← source.text, ← target.text, labelOf_eq rest]
        exact ⟨_, _, _, rfl, rfl,
          List.rel_append (List.rel_append (flags _ _) (forall₂_flags target _)) discards⟩

variable {group otherGroup : OpenGroup}

theorem readMember_alike (groups : group.Alike relation otherGroup)
    (alike : row.AlikeWords relation otherRow word otherWord) (net : Net) :
    (readMember net row group word).1.Alike relation
        (readMember net otherRow otherGroup otherWord).1 ∧
      Forall₂ relation (readMember net row group word).2
        (readMember net otherRow otherGroup otherWord).2 := by
  unfold readMember
  rw [← alike.text, ← groups.id, ← groups.members]
  cases net.indexOf? word.text with
  | none => exact ⟨groups, forall₂_flags alike [_]⟩
  | some node =>
    dsimp only
    by_cases listed : node ∈ group.members
    · rw [if_pos listed, if_pos listed]
      exact ⟨groups, forall₂_flags alike [_]⟩
    · rw [if_neg listed, if_neg listed]
      cases (net.nodeAt? node).bind net.groupOf? with
      | some owner => exact ⟨groups, forall₂_flags alike [_]⟩
      | none => exact ⟨⟨rfl, groups.label, rfl, groups.header⟩, .nil⟩

theorem readMembers_alike (groups : group.Alike relation otherGroup)
    (alike : Forall₂ (row.AlikeWords relation otherRow) words otherWords) (net : Net) :
    (readMembers net row group words).1.Alike relation
        (readMembers net otherRow otherGroup otherWords).1 ∧
      Forall₂ relation (readMembers net row group words).2
        (readMembers net otherRow otherGroup otherWords).2 := by
  induction alike generalizing group otherGroup with
  | nil => exact ⟨groups, .nil⟩
  | cons same _ ih =>
    rcases readMember_alike groups same net with ⟨first, front⟩
    rcases ih first with ⟨last, back⟩
    exact ⟨last, List.rel_append front back⟩

end Lines

/-! ## Steps -/

section Steps

variable {front otherFront : List Diagnostic} {state other : State}

namespace State.Alike

/-- A machine is like itself, whatever it has recorded before, as long as the line of the group that
it is in is like itself. -/
theorem refl (state : State)
    (header : ∀ group, state.mode = .inGroup group → group.header.Alike relation group.header) :
    state.Alike relation state.diagnostics state.diagnostics state := by
  refine ⟨rfl, ?_, [], [], (List.append_nil _).symm, (List.append_nil _).symm, .nil⟩
  cases mode : state.mode with
  | scanning => exact .scanning
  | inGroup group => exact .inGroup ⟨rfl, rfl, rfl, header group mode⟩

theorem start (relation : Diagnostic → Diagnostic → Prop) :
    State.start.Alike relation [] [] State.start :=
  refl State.start fun _ mode => nomatch mode

theorem report (alike : state.Alike relation front otherFront other)
    {diagnostics otherDiagnostics : List Diagnostic}
    (related : Forall₂ relation diagnostics otherDiagnostics) :
    (state.report diagnostics).Alike relation front otherFront
      (other.report otherDiagnostics) := by
  rcases alike.diagnostics with ⟨recorded, otherRecorded, same, otherSame, before⟩
  refine ⟨alike.net, alike.mode, recorded ++ diagnostics, otherRecorded ++ otherDiagnostics,
    ?_, ?_, List.rel_append before related⟩
  · rw [State.report, same, List.append_assoc]
  · rw [State.report, otherSame, List.append_assoc]

theorem declareNode (alike : state.Alike relation front otherFront other)
    (rows : row.Alike relation otherRow) {words otherWords : List Word}
    (same : Forall₂ (row.AlikeWords relation otherRow) words otherWords) :
    (state.declareNode row words).Alike relation front otherFront
      (other.declareNode otherRow otherWords) := by
  rcases exists_readHeader_eq rows same state.net .node with
    ⟨header, recorded, otherRecorded, read, otherRead, related⟩
  unfold State.declareNode
  rw [← alike.net, read, otherRead]
  have reported := alike.report related
  cases header with
  | none => exact reported
  | some header => exact ⟨rfl, reported.mode, reported.diagnostics⟩

theorem forall₂_parallels (alike : state.Alike relation front otherFront other)
    (rows : row.Alike relation otherRow) (edge : Edge) :
    Forall₂ relation (state.parallels row edge) (other.parallels otherRow edge) := by
  unfold State.parallels
  rw [← alike.net]
  split
  · exact forall₂_atLine rows.line _
  · exact .nil

theorem declareEdge (alike : state.Alike relation front otherFront other)
    (rows : row.Alike relation otherRow) {words otherWords : List Word}
    (same : Forall₂ (row.AlikeWords relation otherRow) words otherWords) :
    (state.declareEdge row words).Alike relation front otherFront
      (other.declareEdge otherRow otherWords) := by
  rcases exists_readEdge_eq rows same state.net with
    ⟨edge, recorded, otherRecorded, read, otherRead, related⟩
  unfold State.declareEdge
  rw [← alike.net, read, otherRead]
  cases edge with
  | none => exact alike.report related
  | some edge =>
    have reported := alike.report (List.rel_append related (alike.forall₂_parallels rows edge))
    exact ⟨rfl, reported.mode, reported.diagnostics⟩

theorem openGroup (alike : state.Alike relation front otherFront other)
    (rows : row.Alike relation otherRow) {words otherWords : List Word}
    (same : Forall₂ (row.AlikeWords relation otherRow) words otherWords) :
    (state.openGroup row words).Alike relation front otherFront
      (other.openGroup otherRow otherWords) := by
  rcases exists_readHeader_eq rows same state.net .group with
    ⟨header, recorded, otherRecorded, read, otherRead, related⟩
  unfold State.openGroup
  rw [← alike.net, read, otherRead]
  have reported := alike.report related
  cases header with
  | none => exact reported
  | some header =>
    exact ⟨reported.net, .inGroup ⟨rfl, rfl, rfl, rows.line⟩, reported.diagnostics⟩

theorem scan (alike : state.Alike relation front otherFront other)
    (rows : row.Alike relation otherRow) (mark : String) :
    (state.scan mark row).Alike relation front otherFront (other.scan mark otherRow) := by
  have words := rows.words
  unfold State.scan
  cases split : row.words with
  | nil =>
    rw [split, List.forall₂_nil_left_iff] at words
    rw [words]
    exact alike
  | cons first rest =>
    rw [split, List.forall₂_cons_left_iff] at words
    rcases words with ⟨otherFirst, otherRest, same, restSame, otherSplit⟩
    rw [otherSplit]
    dsimp only
    rw [← same.text]
    cases Part.ofKeyword? first.text with
    | some part =>
      cases part with
      | node => exact alike.declareNode rows restSame
      | edge => exact alike.declareEdge rows restSame
      | group => exact alike.openGroup rows restSame
    | none =>
      dsimp only
      split
      · exact alike
      · exact alike.report (forall₂_atLine rows.line _)

theorem closeGroup (alike : state.Alike relation front otherFront other)
    {group otherGroup : OpenGroup} (groups : group.Alike relation otherGroup) :
    (state.closeGroup group).Alike relation front otherFront (other.closeGroup otherGroup) := by
  unfold State.closeGroup
  rw [← groups.id, ← groups.label, ← groups.members]
  split
  · have reported := alike.report (forall₂_atLine groups.header (.memberless group.id))
    exact ⟨reported.net, .scanning, reported.diagnostics⟩
  · exact ⟨by rw [alike.net], .scanning, alike.diagnostics⟩

theorem readBody (alike : state.Alike relation front otherFront other)
    {group otherGroup : OpenGroup} (groups : group.Alike relation otherGroup)
    (rows : row.Alike relation otherRow) :
    (state.readBody group row).Alike relation front otherFront
      (other.readBody otherGroup otherRow) := by
  rcases forall₂_isMember rows.words with ⟨taken, dropped⟩
  rcases readMembers_alike groups taken state.net with ⟨read, diagnostics⟩
  have reported := alike.report diagnostics
  unfold State.readBody
  rw [← alike.net]
  dsimp only
  cases split : row.words.dropWhile Word.isMember with
  | nil =>
    rw [split, List.forall₂_nil_left_iff] at dropped
    rw [dropped]
    exact ⟨reported.net, .inGroup read, reported.diagnostics⟩
  | cons last rest =>
    rw [split, List.forall₂_cons_left_iff] at dropped
    rcases dropped with ⟨otherLast, otherRest, -, restSame, otherSplit⟩
    rw [otherSplit]
    exact (reported.report (forall₂_discards restSame)).closeGroup read

/-- Machines that are alike are both scanning or both in a group. -/
theorem scanning_or_inGroup (alike : state.Alike relation front otherFront other) :
    state.mode = .scanning ∧ other.mode = .scanning ∨
      ∃ group otherGroup, state.mode = .inGroup group ∧ other.mode = .inGroup otherGroup ∧
        group.Alike relation otherGroup := by
  have modes := alike.mode
  generalize state.mode = mode at modes
  generalize other.mode = otherMode at modes
  cases modes with
  | scanning => exact .inl ⟨rfl, rfl⟩
  | inGroup groups => exact .inr ⟨_, _, rfl, rfl, groups⟩

/-- Machines that are alike are so after reading rows that are alike. -/
theorem step (alike : state.Alike relation front otherFront other)
    (rows : row.Alike relation otherRow) (mark : String) :
    (state.step mark row).Alike relation front otherFront (other.step mark otherRow) := by
  rcases alike.scanning_or_inGroup with ⟨mode, otherMode⟩ | ⟨group, otherGroup, mode, otherMode,
    groups⟩
  · rw [State.step, State.step, mode, otherMode]
    exact alike.scan rows mark
  · rw [State.step, State.step, mode, otherMode]
    exact alike.readBody groups rows

/-- Machines that are alike are so after reading one row after another. -/
theorem foldl (alike : state.Alike relation front otherFront other) {rows otherRows : List Row}
    (same : Forall₂ (Row.Alike relation) rows otherRows) (mark : String) :
    (rows.foldl (State.step mark) state).Alike relation front otherFront
      (otherRows.foldl (State.step mark) other) := by
  induction same generalizing state other with
  | nil => exact alike
  | cons row _ ih => exact ih (alike.step row mark)

theorem finish (alike : state.Alike relation front otherFront other) :
    state.finish.Alike relation front otherFront other.finish := by
  rcases alike.scanning_or_inGroup with ⟨mode, otherMode⟩ | ⟨group, otherGroup, mode, otherMode,
    groups⟩
  · rw [State.finish, State.finish, mode, otherMode]
    exact alike
  · rw [State.finish, State.finish, mode, otherMode]
    dsimp only
    rw [← groups.id, ← groups.members]
    split
    · have reported := alike.report (forall₂_atLine groups.header (.memberless group.id))
      exact ⟨reported.net, .scanning, reported.diagnostics⟩
    · exact ⟨alike.net, .scanning, alike.diagnostics⟩

/-- Machines that are alike end alike on rows that are alike. -/
theorem runFrom (alike : state.Alike relation front otherFront other) {rows otherRows : List Row}
    (same : Forall₂ (Row.Alike relation) rows otherRows) (mark : String) :
    (LineMachine.runFrom mark state rows).Alike relation front otherFront
      (LineMachine.runFrom mark other otherRows) :=
  (alike.foldl same mark).finish

end State.Alike

/-- What has been recorded stays recorded. -/
theorem diagnostics_prefix_runFrom (mark : String) (state : State) (rows : List Row) :
    state.diagnostics <+: (runFrom mark state rows).diagnostics := by
  -- Any two diagnostics are related here.
  have machine : state.Alike (fun _ _ => True) state.diagnostics state.diagnostics state :=
    .refl state fun _ _ _ => trivial
  have same : Forall₂ (Row.Alike fun _ _ => True) rows rows := by
    rw [List.forall₂_same]
    exact fun row _ => ⟨fun _ => trivial, List.forall₂_same.2 fun _ _ => ⟨rfl, fun _ => trivial⟩,
      trivial⟩
  rcases (machine.runFrom same mark).diagnostics with ⟨recorded, _, behind, _, _⟩
  exact ⟨recorded, behind.symm⟩

end Steps

end LineMachine

end NetDecl
