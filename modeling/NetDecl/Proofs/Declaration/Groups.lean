import NetDecl.Proofs.Declaration.Members

/-!
# Reading groups

A group is read from its header and its body.  A body that the text ends in leaves the registry as
it was; one that is closed leaves the links from the members of the group.
-/

namespace NetDecl

open LineMachine (OpenGroup Tail readRows openFrom)

namespace LineMachine

variable {net : Net} {row : Row} {words : List Word} {header : Header}
  {diagnostics : List Diagnostic}

/-- A group that has just been opened has a free name and no members. -/
theorem fits_openFrom (read : readHeader net .group row words = (some header, diagnostics)) :
    (openFrom row header).Fits net :=
  ⟨(of_readHeader_eq_some read).1, List.nodup_nil, fun _ mem => (nomatch mem),
    fun _ mem => (nomatch mem)⟩

end LineMachine

namespace Session

/-- The session while the members point at the group being read. -/
def linked (session : Session) (members : List Nat) : Session :=
  { session with registry := session.registry.link members }

@[simp]
theorem linked_nil (session : Session) : session.linked [] = session := by
  simp [linked]

variable {session : Session} {row : Row} {words : List Word} {rows : List Row} {after : Cursor}
  {keyword : Token}

theorem discardLine_eq (within : session.cursor.Within row words rows after) :
    session.discardLine = session.moved after (row.discards words) := by
  obtain ⟨tokens, spelled, folded⟩ := within.exists_foldUntil_eq
  unfold discardLine
  rw [folded, List.foldl_append_eq_append, ← List.flatMap_def, ← List.map_eq_flatMap,
    discards_eq spelled]
  rfl

theorem readGroup_of_header_eq_none (within : session.cursor.Within row words rows after)
    (indexed : session.registry.Indexed) (line : keyword.line = row.line.index)
    {diagnostics : List Diagnostic}
    (read : LineMachine.readHeader session.registry.net .group row words = (none, diagnostics)) :
    session.readGroup keyword = (none, session.moved after diagnostics) := by
  rw [readGroup, readHeader_eq within indexed line, read]

section Bodies

variable {group : OpenGroup} {diagnostics : List Diagnostic}

/-- Members are read from a cursor before the rows of a body. -/
theorem exists_foldUntil_body (session : Session)
    (reads : session.cursor.lexer.Reads rows) (indexed : session.registry.Indexed)
    (sound : session.registry.net.Sound)
    (fits : group.Fits session.registry.net) (empty : group.members = []) :
    ∃ last, session.cursor.EndsBody rows last (readRows session.registry.net group rows).2.2 ∧
      session.cursor.foldUntil Token.endsGroup
          (Group.Draft.step group.id session.registry.nextGroup)
          ⟨session.registry, [], session.diagnostics⟩ =
        (last, Group.Draft.onTop session.registry (readRows session.registry.net group rows).1
          (session.diagnostics ++ (readRows session.registry.net group rows).2.1)) := by
  have start : (⟨session.registry, [], session.diagnostics⟩ : Group.Draft) =
      Group.Draft.onTop session.registry group session.diagnostics := by
    rw [Group.Draft.onTop, empty, Registry.link_nil]
  rw [start]
  exact session.cursor.exists_foldUntil_endsGroup reads indexed sound fits session.diagnostics

/-- The members of a group that the text ends in. -/
theorem exists_readMembers_of_cut (session : Session)
    (reads : session.cursor.lexer.Reads rows) (indexed : session.registry.Indexed)
    (sound : session.registry.net.Sound)
    (fits : group.Fits session.registry.net) (empty : group.members = []) {last : OpenGroup}
    (cut : readRows session.registry.net group rows = (last, diagnostics, none)) :
    ∃ behind, session.cursor.Leads rows behind [] ∧
      session.readMembers group.id =
        (last.members, false, (session.moved behind diagnostics).linked last.members) := by
  obtain ⟨behind, ends, folded⟩ := session.exists_foldUntil_body reads indexed sound fits empty
  rw [cut] at ends folded
  refine ⟨behind, ends.2, ?_⟩
  unfold readMembers
  rw [folded]
  dsimp only
  rw [if_neg (by simp [ends.1])]
  rfl

/-- The members of a group that is closed. -/
theorem exists_readMembers_of_closed (session : Session)
    (reads : session.cursor.lexer.Reads rows) (indexed : session.registry.Indexed)
    (sound : session.registry.net.Sound)
    (fits : group.Fits session.registry.net) (empty : group.members = []) {last : OpenGroup}
    {tail : Tail}
    (closed : readRows session.registry.net group rows = (last, diagnostics, some tail)) :
    ∃ behind, session.cursor.Leads rows behind tail.rows ∧
      session.readMembers group.id =
        (last.members, true,
          (session.moved behind (diagnostics ++ tail.row.discards tail.words)).linked
            last.members) := by
  obtain ⟨cursor, ends, folded⟩ := session.exists_foldUntil_body reads indexed sound fits empty
  rw [closed] at ends folded
  obtain ⟨atEnd, behind, within, leads⟩ := ends
  refine ⟨behind, leads, ?_⟩
  unfold readMembers
  rw [folded]
  dsimp only
  rw [if_pos atEnd, discardLine_eq within]
  simp only [moved, linked, Group.Draft.onTop, List.append_assoc]

theorem report_memberless (session : Session) (known : session.cursor.lexer.Knows group.header)
    (line : keyword.line = group.header.index) :
    (if group.members.isEmpty then session.reportLine keyword (.memberless group.id) else session) =
      session.moved session.cursor group.memberless := by
  unfold OpenGroup.memberless
  split
  · rw [reportLine, line, Cursor.lineAt, known.lineAt_eq]
    rfl
  · rw [moved_nil]

end Bodies

section Groups

variable {header : Header} {last : OpenGroup} {front body : List Diagnostic}

/-- A group that the text ends in leaves the registry as it was. -/
theorem exists_readGroup_of_cut (within : session.cursor.Within row words rows after)
    (indexed : session.registry.Indexed) (sound : session.registry.net.Sound)
    (line : keyword.line = row.line.index)
    (read : LineMachine.readHeader session.registry.net .group row words = (some header, front))
    (cut : readRows session.registry.net (openFrom row header) rows = (last, body, none)) :
    ∃ behind, session.cursor.Leads (row :: rows) behind [] ∧
      session.readGroup keyword =
        (none, session.moved behind (front ++ (body ++ last.memberless))) := by
  have fits := LineMachine.fits_openFrom read
  have lastFits := fits.readRows sound rows
  rw [cut] at lastFits
  obtain ⟨id, -, headerLine⟩ := LineMachine.opened_of_readRows cut
  obtain ⟨behind, leads, members⟩ :=
    (session.moved after front).exists_readMembers_of_cut within.reads indexed sound fits rfl
      cut
  have known : behind.lexer.Knows last.header := by
    rw [headerLine]
    exact leads.knows within.knows
  refine ⟨behind, within.leads.trans leads, ?_⟩
  have reported :=
    (((session.moved after front).moved behind body).linked last.members).report_memberless known
      (line.trans (congrArg Line.index headerLine.symm))
  have released : last.members.foldl Registry.release (session.registry.link last.members) =
      session.registry :=
    Registry.foldl_release_link lastFits.unowned
  rw [id] at reported
  unfold readGroup
  rw [readHeader_eq within indexed line, read]
  dsimp only
  rw [show header.id = (openFrom row header).id from rfl, members]
  dsimp only [openFrom]
  rw [reported]
  simp only [Bool.not_false, if_true, releaseAll, moved, linked, released, List.append_assoc]

/-- A group that is closed is declared if it has members. -/
theorem exists_readGroup_of_closed (within : session.cursor.Within row words rows after)
    (indexed : session.registry.Indexed) (sound : session.registry.net.Sound)
    (line : keyword.line = row.line.index)
    (read : LineMachine.readHeader session.registry.net .group row words = (some header, front))
    {tail : Tail}
    (closed : readRows session.registry.net (openFrom row header) rows =
      (last, body, some tail)) :
    ∃ behind, session.cursor.Leads (row :: rows) behind tail.rows ∧
      session.readGroup keyword =
        (if last.members.isEmpty then none else some last.toGroup,
          (session.moved behind
            (front ++ (body ++ tail.row.discards tail.words ++ last.memberless))).linked
              last.members) := by
  have fits := LineMachine.fits_openFrom read
  obtain ⟨id, label, headerLine⟩ := LineMachine.opened_of_readRows closed
  obtain ⟨behind, leads, members⟩ :=
    (session.moved after front).exists_readMembers_of_closed within.reads indexed sound fits
      rfl closed
  have known : behind.lexer.Knows last.header := by
    rw [headerLine]
    exact leads.knows within.knows
  have reported :=
    (((session.moved after front).moved behind (body ++ tail.row.discards tail.words)).linked
      last.members).report_memberless known (line.trans (congrArg Line.index headerLine.symm))
  refine ⟨behind, within.leads.trans leads, ?_⟩
  rw [id] at reported
  unfold readGroup
  rw [readHeader_eq within indexed line, read]
  dsimp only
  rw [show header.id = (openFrom row header).id from rfl, members]
  dsimp only [openFrom]
  rw [reported]
  rw [if_neg (by simp)]
  simp only [OpenGroup.toGroup, id, label, moved, linked, List.append_assoc]
  split <;> rfl

end Groups

end Session

end NetDecl
