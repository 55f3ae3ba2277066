import NetDecl.Declaration.Edge
import NetDecl.Proofs.LineMachine
import NetDecl.Proofs.Registry.Indexed
import NetDecl.Proofs.Token.Within

/-!
# Declarations on one line

Headers and edges are read from the words that are left of a row.  What a session makes of them is
what the line machine makes of the words, and the session comes to the place behind the row.
-/

namespace NetDecl

/-! ## Words and names -/

section Words

variable {row : Row} {words : List Word} {tokens : List Token}

theorem Word.IsToken.atToken_eq {word : Word} {token : Token}
    (isToken : word.IsToken row.line.index token) (issue : Issue) :
    issue.atToken token = row.flag word issue := by
  rw [Issue.atToken, Row.flag, isToken.position, isToken.length]

theorem Word.IsToken.map_atToken_eq {word : Word} {token : Token}
    (isToken : word.IsToken row.line.index token) (issues : List Issue) :
    (issues.map fun issue => issue.atToken token) = issues.map (row.flag word) :=
  List.map_congr_left fun issue _ => isToken.atToken_eq issue

/-- The diagnostics of tokens that are one too many are those of the words. -/
theorem discards_eq (spelled : List.Forall₂ (Word.IsToken row.line.index) words tokens) :
    (tokens.map fun token => (Issue.discarded token.text).atToken token) = row.discards words := by
  induction spelled with
  | nil => rfl
  | cons isToken _ ih =>
    rw [List.map_cons, ih, isToken.atToken_eq, isToken.text]
    rfl

end Words

namespace Registry.Indexed

variable {registry : Registry}

theorem node?_eq (indexed : registry.Indexed) (id : String) :
    registry.node? id = registry.net.indexOf? id := by
  have found := (indexed.index .node).getElem?_eq id
  rw [Net.ids, List.findIdx?_map] at found
  exact found

theorem nameIssues_eq (indexed : registry.Indexed) (part : Part) (id : String) :
    registry.nameIssues part id = registry.net.nameIssues part id := by
  have node : registry.has .node id = (registry.net.node? id).isSome := by
    rw [Bool.eq_iff_iff, indexed.has_iff, Net.isSome_node?_iff]
    rfl
  have edge : registry.has .edge id = (registry.net.edge? id).isSome := by
    rw [Bool.eq_iff_iff, indexed.has_iff, Net.isSome_edge?_iff]
    rfl
  have group : registry.has .group id = (registry.net.group? id).isSome := by
    rw [Bool.eq_iff_iff, indexed.has_iff, Net.isSome_group?_iff]
    rfl
  cases part <;>
    simp [Registry.nameIssues, Net.nameIssues, Part.rival?, node, edge, group]

end Registry.Indexed

/-! ## Sessions behind a row -/

namespace Session

/-- The session at another place of the text, with more diagnostics. -/
def moved (session : Session) (cursor : Cursor) (diagnostics : List Diagnostic) : Session :=
  { session with cursor, diagnostics := session.diagnostics ++ diagnostics }

@[simp]
theorem moved_nil (session : Session) (cursor : Cursor) :
    session.moved cursor [] = { session with cursor } := by
  simp [moved]

theorem reportLine_moved (session : Session) {cursor after : Cursor} {row : Row}
    {words : List Word} {rows : List Row} {keyword : Token}
    (within : cursor.Within row words rows after) (line : keyword.line = row.line.index)
    (diagnostics : List Diagnostic) (issue : Issue) :
    (session.moved after diagnostics).reportLine keyword issue =
      session.moved after (diagnostics ++ [issue.atLine row.line]) := by
  rw [reportLine, moved, line, within.lineAt_eq, moved, List.append_assoc]

end Session

/-! ## Headers -/

namespace Header.Draft

variable {registry : Registry} {part : Part}

/-- Words behind the label are discarded. -/
theorem foldl_step_of_label {draft : Draft} {id label : String} (named : draft.id = some id)
    (labelled : draft.label = some label) (tokens : List Token) :
    tokens.foldl (step registry part) draft =
      { draft with
        diagnostics := draft.diagnostics ++
          tokens.map fun token => (Issue.discarded token.text).atToken token } := by
  induction tokens generalizing draft with
  | nil => simp
  | cons token tokens ih =>
    have stepped : step registry part draft token =
        { draft with
          diagnostics := draft.diagnostics ++ [(Issue.discarded token.text).atToken token] } := by
      simp only [step, named, labelled]
    rw [List.foldl_cons, stepped, ih]
    · rw [List.map_cons, List.append_assoc]
      rfl
    · exact named
    · exact labelled

/-- The draft of a header with at least one word. -/
theorem foldl_step_start (registry : Registry) (part : Part) (diagnostics : List Diagnostic)
    (first : Token) (rest : List Token) :
    (first :: rest).foldl (step registry part) (start diagnostics) =
      { id := some first.text
        label := rest.head?.map Token.text
        valid := (registry.nameIssues part first.text).isEmpty
        diagnostics := diagnostics ++
          ((registry.nameIssues part first.text).map (fun issue => issue.atToken first) ++
            (rest.drop 1).map fun token => (Issue.discarded token.text).atToken token) } := by
  cases rest with
  | nil =>
    rw [List.drop_nil, List.map_nil, List.append_nil]
    rfl
  | cons second rest =>
    rw [List.foldl_cons, List.foldl_cons, ← List.append_assoc]
    exact foldl_step_of_label rfl rfl rest

end Header.Draft

/-! ## Edges -/

namespace Edge.Draft

variable {registry : Registry} {row : Row} {word : Word} {token : Token} {draft : Draft}

theorem reportMissing_eq (isToken : word.IsToken row.line.index token) (role : Role) :
    draft.reportMissing token role (registry.net.indexOf? word.text) =
      { draft with
        diagnostics := draft.diagnostics ++
          (registry.net.endIssues role word.text).map (row.flag word) } := by
  unfold reportMissing Net.endIssues
  cases registry.net.indexOf? word.text with
  | some node => simp
  | none =>
    rw [isToken.text]
    simp [report, isToken.atToken_eq]

theorem step_name (indexed : registry.Indexed) (isToken : word.IsToken row.line.index token)
    (count : draft.count = 0) :
    draft.step registry token =
      { draft with
        count := 1
        id := word.text
        valid := (registry.net.nameIssues .edge word.text).isEmpty
        diagnostics := draft.diagnostics ++
          (registry.net.nameIssues .edge word.text).map (row.flag word) } := by
  simp only [step, place, count, isToken.map_atToken_eq, isToken.text, indexed.nameIssues_eq]

theorem step_source (indexed : registry.Indexed) (isToken : word.IsToken row.line.index token)
    (count : draft.count = 1) :
    step registry draft token =
      { draft with
        count := 2
        source := registry.net.indexOf? word.text
        diagnostics := draft.diagnostics ++
          (registry.net.endIssues .source word.text).map (row.flag word) } := by
  simp only [step, place, count, isToken.text, indexed.node?_eq, reportMissing_eq isToken]

theorem step_target (indexed : registry.Indexed) (isToken : word.IsToken row.line.index token)
    (count : draft.count = 2) :
    step registry draft token =
      { draft with
        count := 3
        target := registry.net.indexOf? word.text
        diagnostics := draft.diagnostics ++
          (registry.net.endIssues .target word.text).map (row.flag word) } := by
  simp only [step, place, count, isToken.text, indexed.node?_eq, reportMissing_eq isToken]

theorem step_label (isToken : word.IsToken row.line.index token) (count : draft.count = 3) :
    step registry draft token = { draft with count := 4, label := word.text } := by
  simp only [step, place, count, isToken.text]

/-- Words behind the label are discarded. -/
theorem foldl_step_of_count (tokens : List Token) (count : 4 ≤ draft.count) :
    tokens.foldl (step registry) draft =
      { draft with
        count := draft.count + tokens.length
        diagnostics := draft.diagnostics ++
          tokens.map fun token => (Issue.discarded token.text).atToken token } := by
  induction tokens generalizing draft with
  | nil => simp
  | cons token tokens ih =>
    have stepped : step registry draft token =
        { draft with
          count := draft.count + 1
          diagnostics := draft.diagnostics ++ [(Issue.discarded token.text).atToken token] } := by
      obtain ⟨more, equal⟩ := Nat.exists_eq_add_of_le' count
      simp only [step, place, equal, report]
    rw [List.foldl_cons, stepped, ih]
    · rw [List.map_cons, List.append_assoc, List.length_cons, Nat.add_right_comm, Nat.add_assoc]
      rfl
    · exact Nat.le_succ_of_le count

theorem edge?_eq {issues : List Issue} : draft.valid = issues.isEmpty →
    draft.edge? =
      match issues, draft.source, draft.target with
      | [], some source, some target => some ⟨draft.id, source, target, draft.label⟩
      | _, _, _ => none := by
  intro valid
  unfold edge?
  rw [valid]
  cases issues <;> cases draft.source <;> cases draft.target <;> rfl

end Edge.Draft

/-! ## Within a row -/

section Within

variable {session : Session} {row : Row} {words : List Word} {rows : List Row} {after : Cursor}
  {keyword : Token}

/-- A header is read as the line machine reads it. -/
theorem Session.readHeader_eq (within : session.cursor.Within row words rows after)
    (indexed : session.registry.Indexed) (line : keyword.line = row.line.index) (part : Part) :
    session.readHeader part keyword =
      ((LineMachine.readHeader session.registry.net part row words).1,
        session.moved after (LineMachine.readHeader session.registry.net part row words).2) := by
  obtain ⟨tokens, spelled, folded⟩ := within.exists_foldUntil_eq
  unfold readHeader
  rw [folded]
  cases spelled with
  | nil =>
    have reported := session.reportLine_moved within line [] (.insufficient part)
    rw [moved_nil] at reported
    exact Prod.ext rfl reported
  | @cons id first others rest isToken spelled =>
    rw [Header.Draft.foldl_step_start, isToken.text, isToken.map_atToken_eq,
      indexed.nameIssues_eq, discards_eq (List.forall₂_drop 1 spelled)]
    have label : (rest.head?.map Token.text).getD "" = LineMachine.labelOf others := by
      cases spelled with
      | nil => rfl
      | cons isLabel _ => exact isLabel.text
    simp only [Header.Draft.header?, label, LineMachine.readHeader, moved]

/-- An edge is read as the line machine reads it. -/
theorem Session.readEdge_eq (within : session.cursor.Within row words rows after)
    (indexed : session.registry.Indexed) (line : keyword.line = row.line.index) :
    session.readEdge keyword =
      ((LineMachine.readEdge session.registry.net row words).1,
        session.moved after (LineMachine.readEdge session.registry.net row words).2) := by
  obtain ⟨tokens, spelled, folded⟩ := within.exists_foldUntil_eq
  unfold readEdge
  rw [folded]
  cases spelled with
  | nil =>
    have reported := session.reportLine_moved within line [] (.insufficient .edge)
    rw [moved_nil] at reported
    exact Prod.ext rfl reported
  | @cons id first others rest isId spelled =>
    rw [List.foldl_cons, Edge.Draft.step_name indexed isId]
    cases spelled with
    | nil => exact Prod.ext rfl (session.reportLine_moved within line _ _)
    | @cons source second others rest isSource spelled =>
      rw [List.foldl_cons, Edge.Draft.step_source indexed isSource]
      dsimp only [Edge.Draft.start]
      rw [List.append_assoc]
      cases spelled with
      | nil => exact Prod.ext rfl (session.reportLine_moved within line _ _)
      | @cons target third others rest isTarget spelled =>
        rw [List.foldl_cons, Edge.Draft.step_target indexed isTarget]
        dsimp only
        rw [List.append_assoc]
        cases spelled with
        | nil =>
          have enough : ¬3 < 3 := Nat.lt_irrefl 3
          rw [List.foldl_nil]
          dsimp only
          rw [if_neg enough, ← List.append_nil (session.diagnostics ++ _), List.append_assoc]
          exact Prod.ext (Edge.Draft.edge?_eq rfl) rfl
        | @cons label fourth others rest isLabel spelled =>
          have enough : ¬4 + rest.length < 3 := by omega
          rw [List.foldl_cons, Edge.Draft.step_label isLabel, Edge.Draft.foldl_step_of_count]
          · dsimp only
            rw [if_neg enough, discards_eq spelled, List.append_assoc]
            exact Prod.ext (Edge.Draft.edge?_eq rfl) rfl
          · exact Nat.le_refl 4
          · rfl
        · rfl
      · rfl
    · rfl

end Within

end NetDecl
