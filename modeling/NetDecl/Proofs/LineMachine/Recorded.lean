import NetDecl.Proofs.LineMachine.Body

/-!
# What the line machine records

An issue is about a word of the text or about a line of it.  A row that is read flags some of its
words, each once and in the order in which they stand there; behind the flags there may be one issue
about a line, which is the line of the row itself or, where a group ends that has no members, the
line that opened the group.  `Records` says so for each kind of step, and what is known about the
list of diagnostics is derived from it.
-/

namespace NetDecl

/-- The word of the text that an issue is about.  The other issues are about a line. -/
def Issue.word? : Issue → Option String
  | duplicated _ id | conflicting id | notFound _ id => some id
  | discarded word => some word
  | foreign node _ | listedAgain node _ => some node
  | unexpected _ | insufficient _ | memberless _ | parallel _ => none

namespace Code

/-- Whether the issues with this code are about words. -/
def isAtWord : Code → Bool
  | duplicatedId | idConflict | nodeNotFound | anotherGroup | tokenDiscarded
  | duplicateGroupAssignment => true
  | success | invalidLineStart | insufficientParameter | groupDiscarded
  | duplicateSourceTarget => false

/-- Whether the issues with this code are about lines. -/
def isAtLine : Code → Bool
  | invalidLineStart | insufficientParameter | groupDiscarded | duplicateSourceTarget => true
  | success | duplicatedId | idConflict | nodeNotFound | anotherGroup | tokenDiscarded
  | duplicateGroupAssignment => false

end Code

@[simp]
theorem Issue.isAtWord_code (issue : Issue) : issue.code.isAtWord = issue.word?.isSome := by
  cases issue <;> rfl

@[simp]
theorem Issue.isAtLine_code (issue : Issue) : issue.code.isAtLine = issue.word?.isNone := by
  cases issue <;> rfl

/-! ## Issues with names -/

namespace Net

variable {net : Net} {id : String}

theorem eq_of_mem_nameIssues {part : Part} {issue : Issue} (mem : issue ∈ net.nameIssues part id) :
    issue = .duplicated part id ∨ issue = .conflicting id := by
  cases part <;> simp only [nameIssues] at mem <;> grind

theorem word?_of_mem_nameIssues {part : Part} {issue : Issue}
    (mem : issue ∈ net.nameIssues part id) : issue.word? = some id := by
  rcases eq_of_mem_nameIssues mem with rfl | rfl <;> rfl

theorem eq_of_mem_endIssues {role : Role} {issue : Issue} (mem : issue ∈ net.endIssues role id) :
    issue = .notFound role id := by
  unfold endIssues at mem
  split at mem
  · cases mem
  · exact List.mem_singleton.1 mem

theorem word?_of_mem_endIssues {role : Role} {issue : Issue}
    (mem : issue ∈ net.endIssues role id) : issue.word? = some id := by
  rw [eq_of_mem_endIssues mem]
  rfl

theorem length_endIssues_le (net : Net) (role : Role) (id : String) :
    (net.endIssues role id).length ≤ 1 := by
  unfold endIssues
  split <;> simp

/-- No name is that of a node and of a group. -/
theorem WellFormed.not_isSome_both (wellFormed : net.WellFormed) (id : String) :
    ¬((net.node? id).isSome = true ∧ (net.group? id).isSome = true) := by
  rintro ⟨isNode, isGroup⟩
  rcases List.mem_map.1 (isSome_group?_iff.1 isGroup) with ⟨group, mem, rfl⟩
  exact wellFormed.apart group mem (isSome_node?_iff.1 isNode)

/-- A name is not both taken and in conflict, since nodes and groups have no name in common. -/
theorem WellFormed.length_nameIssues_le (wellFormed : net.WellFormed) (part : Part) (id : String) :
    (net.nameIssues part id).length ≤ 1 := by
  have apart := wellFormed.not_isSome_both id
  cases isNode : (net.node? id).isSome with
  | true =>
    have notGroup : (net.group? id).isSome = false :=
      Bool.eq_false_iff.2 fun isGroup => apart ⟨isNode, isGroup⟩
    cases part <;> simp only [nameIssues, isNode, notGroup] <;> grind
  | false => cases part <;> simp only [nameIssues, isNode] <;> grind

end Net

/-! ## Flagged words -/

/-- Some of the words are flagged, each once and in their order, with issues about them. -/
inductive Row.Flags (row : Row) : List Word → List Diagnostic → Prop where
  | nil : row.Flags [] []
  | skip {word : Word} {words : List Word} {diagnostics : List Diagnostic} :
      row.Flags words diagnostics → row.Flags (word :: words) diagnostics
  | flag {word : Word} {issue : Issue} {words : List Word} {diagnostics : List Diagnostic} :
      issue.word? = some word.text → row.Flags words diagnostics →
      row.Flags (word :: words) (row.flag word issue :: diagnostics)

namespace Row

variable {row : Row}

theorem isAtLine_flag {issue : Issue} {id : String} (about : issue.word? = some id) (row : Row)
    (word : Word) : (row.flag word issue).code.isAtLine = false := by
  have code : (row.flag word issue).code = issue.code := rfl
  rw [code, Issue.isAtLine_code, about]
  rfl

theorem isAtWord_atLine {issue : Issue} (about : issue.word? = none) (row : Row) :
    (issue.atLine row.line).code.isAtWord = false := by
  have code : (issue.atLine row.line).code = issue.code := rfl
  rw [code, Issue.isAtWord_code, about]
  rfl

theorem flags_nil (words : List Word) : row.Flags words [] := by
  induction words with
  | nil => exact .nil
  | cons word words ih => exact .skip ih

theorem Flags.append {front back : List Word} {left right : List Diagnostic}
    (before : row.Flags front left) (behind : row.Flags back right) :
    row.Flags (front ++ back) (left ++ right) := by
  induction before with
  | nil => exact behind
  | skip _ ih => exact .skip ih
  | flag about _ ih => exact .flag about ih

/-- A word with at most one issue. -/
theorem flags_singleton {word : Word} {issues : List Issue} (single : issues.length ≤ 1)
    (about : ∀ issue ∈ issues, issue.word? = some word.text) :
    row.Flags [word] (issues.map (row.flag word)) := by
  cases issues with
  | nil => exact flags_nil _
  | cons issue others =>
    have alone : others = [] := List.eq_nil_of_length_eq_zero (by simpa using single)
    subst others
    exact .flag (about issue List.mem_cons_self) .nil

theorem flags_discards (words : List Word) : row.Flags words (row.discards words) := by
  induction words with
  | nil => exact .nil
  | cons word words ih => exact .flag rfl ih

theorem flags_discards_drop (count : Nat) (words : List Word) :
    row.Flags words (row.discards (words.drop count)) := by
  have kept : row.Flags (words.take count) [] := flags_nil _
  have flags := kept.append (flags_discards (words.drop count))
  rwa [List.take_append_drop, List.nil_append] at flags

theorem Flags.length_le {words : List Word} {diagnostics : List Diagnostic}
    (flags : row.Flags words diagnostics) : diagnostics.length ≤ words.length := by
  induction flags with
  | nil => exact Nat.le_refl _
  | skip _ ih => exact Nat.le_succ_of_le ih
  | flag _ _ ih => exact Nat.succ_le_succ ih

/-- A flag belongs to one of the words. -/
theorem Flags.exists_of_mem {words : List Word} {diagnostics : List Diagnostic}
    (flags : row.Flags words diagnostics) {diagnostic : Diagnostic}
    (mem : diagnostic ∈ diagnostics) :
    ∃ word ∈ words, ∃ issue : Issue, issue.word? = some word.text ∧
      diagnostic = row.flag word issue := by
  induction flags with
  | nil => cases mem
  | skip _ ih =>
    rcases ih mem with ⟨word, wordMem, found⟩
    exact ⟨word, List.mem_cons_of_mem _ wordMem, found⟩
  | @flag word issue _ _ about _ ih =>
    rcases List.mem_cons.1 mem with rfl | mem
    · exact ⟨word, List.mem_cons_self, issue, about, rfl⟩
    · rcases ih mem with ⟨other, otherMem, found⟩
      exact ⟨other, List.mem_cons_of_mem _ otherMem, found⟩

/-- Some of the words are flagged, and behind the flags there may be an issue about the line of the
row.  It is not one with a group that has no members. -/
inductive Remarks (row : Row) (words : List Word) : List Diagnostic → Prop where
  | flags {diagnostics : List Diagnostic} :
      row.Flags words diagnostics → row.Remarks words diagnostics
  | line {diagnostics : List Diagnostic} {issue : Issue} :
      row.Flags words diagnostics → issue.word? = none → issue.code ≠ .groupDiscarded →
      row.Remarks words (diagnostics ++ [issue.atLine row.line])

end Row

namespace LineMachine

/-! ## Single lines -/

section Lines

variable {net : Net} (row : Row)

theorem flags_nameIssues (wellFormed : net.WellFormed) (part : Part) (id : Word) :
    row.Flags [id] ((net.nameIssues part id.text).map (row.flag id)) :=
  Row.flags_singleton (wellFormed.length_nameIssues_le part id.text) fun _ mem =>
    Net.word?_of_mem_nameIssues mem

theorem flags_endIssues (net : Net) (role : Role) (id : Word) :
    row.Flags [id] ((net.endIssues role id.text).map (row.flag id)) :=
  Row.flags_singleton (net.length_endIssues_le role id.text) fun _ mem =>
    Net.word?_of_mem_endIssues mem

/-- The name of a header and the words behind its label are flagged. -/
theorem flags_readHeader_cons (wellFormed : net.WellFormed) (part : Part) (id : Word)
    (rest : List Word) : row.Flags (id :: rest) (readHeader net part row (id :: rest)).2 := by
  have name := flags_nameIssues row wellFormed part id
  exact name.append (Row.flags_discards_drop 1 rest)

theorem remarks_readHeader (wellFormed : net.WellFormed) (part : Part) (words : List Word) :
    row.Remarks words (readHeader net part row words).2 := by
  cases words with
  | nil => exact .line .nil rfl Code.noConfusion
  | cons id rest => exact .flags (flags_readHeader_cons row wellFormed part id rest)

/-- The name and the ends of an edge are flagged, and the words behind its label. -/
theorem flags_readEdge_cons (wellFormed : net.WellFormed) (id source target : Word)
    (rest : List Word) :
    row.Flags (id :: source :: target :: rest)
      (readEdge net row (id :: source :: target :: rest)).2 := by
  have name := flags_nameIssues row wellFormed .edge id
  have leaving := name.append (flags_endIssues row net .source source)
  have entering := leaving.append (flags_endIssues row net .target target)
  exact entering.append (Row.flags_discards_drop 1 rest)

theorem remarks_readEdge (wellFormed : net.WellFormed) (words : List Word) :
    row.Remarks words (readEdge net row words).2 := by
  match words with
  | [] => exact .line .nil rfl Code.noConfusion
  | [id] => exact .line (flags_nameIssues row wellFormed .edge id) rfl Code.noConfusion
  | [id, source] =>
    have name := flags_nameIssues row wellFormed .edge id
    exact .line (name.append (flags_endIssues row net .source source)) rfl Code.noConfusion
  | id :: source :: target :: rest =>
    exact .flags (flags_readEdge_cons row wellFormed id source target rest)

theorem flags_readMember (net : Net) (group : OpenGroup) (word : Word) :
    row.Flags [word] (readMember net row group word).2 := by
  unfold readMember
  split
  · exact .flag rfl .nil
  · split
    · exact .flag rfl .nil
    · split
      · exact .flag rfl .nil
      · exact .skip .nil

theorem flags_readMembers (net : Net) (group : OpenGroup) (words : List Word) :
    row.Flags words (readMembers net row group words).2 := by
  induction words generalizing group with
  | nil => exact .nil
  | cons word words ih => exact (flags_readMember row net group word).append (ih _)

end Lines

/-! ## Steps -/

/-- What reading a row records, and how it changes the mode. -/
inductive Records (row : Row) : Mode → List Diagnostic → Mode → Prop where
  /-- There is no word in the row, or the row is a comment. -/
  | skips : Records row .scanning [] .scanning
  /-- The row declares a node or an edge, or it tries to declare something. -/
  | declares {first : Word} {rest : List Word} {diagnostics : List Diagnostic} :
      row.words = first :: rest → row.Remarks rest diagnostics →
      Records row .scanning diagnostics .scanning
  /-- The row opens a group. -/
  | opens {first : Word} {rest : List Word} {diagnostics : List Diagnostic} {group : OpenGroup} :
      row.words = first :: rest → row.Flags rest diagnostics → group.header = row.line →
      Records row .scanning diagnostics (.inGroup group)
  /-- The row lists members of the open group. -/
  | lists {diagnostics : List Diagnostic} {group : OpenGroup} {members : List Nat} :
      row.Flags row.words diagnostics →
      Records row (.inGroup group) diagnostics (.inGroup { group with members })
  /-- The row lists members and closes the group. -/
  | closes {front rest : List Word} {last : Word} {diagnostics : List Diagnostic}
      {group : OpenGroup} {members : List Nat} :
      row.words = front ++ last :: rest → row.Flags (front ++ rest) diagnostics →
      Records row (.inGroup group)
        (diagnostics ++ OpenGroup.memberless { group with members }) .scanning

section Steps

variable {state : State} {row : Row} {first : Word} {rest : List Word}

theorem records_declareNode (wellFormed : state.net.WellFormed)
    (scanning : state.mode = .scanning) (words : row.words = first :: rest) :
    ∃ fresh, (state.declareNode row rest).diagnostics = state.diagnostics ++ fresh ∧
      Records row .scanning fresh (state.declareNode row rest).mode := by
  have remarks := remarks_readHeader row wellFormed .node rest
  unfold State.declareNode
  split <;> rename_i read <;> rw [read] at remarks <;> refine ⟨_, rfl, ?_⟩
  · exact scanning ▸ .declares words remarks
  · exact scanning ▸ .declares words remarks

/-- The line of an edge that is declared is not reported as too short, so it is free for the issue
with an edge that runs beside another. -/
theorem remarks_parallels (wellFormed : state.net.WellFormed) {edge : Edge}
    {diagnostics : List Diagnostic}
    (read : readEdge state.net row rest = (some edge, diagnostics)) :
    row.Remarks rest (diagnostics ++ state.parallels row edge) := by
  rcases of_readEdge_eq_some read with ⟨-, id, source, target, others, rfl, -⟩
  have flags := flags_readEdge_cons row wellFormed id source target others
  rw [read] at flags
  unfold State.parallels
  split
  · exact .line flags rfl Code.noConfusion
  · rw [List.append_nil]
    exact .flags flags

theorem records_declareEdge (wellFormed : state.net.WellFormed)
    (scanning : state.mode = .scanning) (words : row.words = first :: rest) :
    ∃ fresh, (state.declareEdge row rest).diagnostics = state.diagnostics ++ fresh ∧
      Records row .scanning fresh (state.declareEdge row rest).mode := by
  have remarks := remarks_readEdge row wellFormed rest
  unfold State.declareEdge
  split <;> rename_i read <;> refine ⟨_, rfl, ?_⟩
  · exact scanning ▸ .declares words (remarks_parallels wellFormed read)
  · rw [read] at remarks
    exact scanning ▸ .declares words remarks

theorem records_openGroup (wellFormed : state.net.WellFormed)
    (scanning : state.mode = .scanning) (words : row.words = first :: rest) :
    ∃ fresh, (state.openGroup row rest).diagnostics = state.diagnostics ++ fresh ∧
      Records row .scanning fresh (state.openGroup row rest).mode := by
  unfold State.openGroup
  split <;> rename_i read <;> refine ⟨_, rfl, ?_⟩
  · rcases of_readHeader_eq_some read with ⟨-, id, others, rfl, -⟩
    have flags := flags_readHeader_cons row wellFormed .group id others
    rw [read] at flags
    exact .opens words flags rfl
  · have remarks := remarks_readHeader row wellFormed .group rest
    rw [read] at remarks
    exact scanning ▸ .declares words remarks

theorem records_scan (wellFormed : state.net.WellFormed) (scanning : state.mode = .scanning)
    (mark : String) (row : Row) :
    ∃ fresh, (state.scan mark row).diagnostics = state.diagnostics ++ fresh ∧
      Records row .scanning fresh (state.scan mark row).mode := by
  have silent : ∃ fresh, state.diagnostics = state.diagnostics ++ fresh ∧
      Records row .scanning fresh state.mode := by
    rw [scanning]
    exact ⟨[], (List.append_nil _).symm, .skips⟩
  unfold State.scan
  split
  · exact silent
  · rename_i first rest words
    split
    · exact records_declareNode wellFormed scanning words
    · exact records_declareEdge wellFormed scanning words
    · exact records_openGroup wellFormed scanning words
    · split
      · exact silent
      · have remarks : row.Remarks rest [(Issue.unexpected first.text).atLine row.line] :=
          .line (Row.flags_nil rest) rfl Code.noConfusion
        exact ⟨_, rfl, scanning ▸ .declares words remarks⟩

/-- Closing a group records that it has no members, if it has none. -/
theorem diagnostics_closeGroup (state : State) (group : OpenGroup) :
    (state.closeGroup group).diagnostics = state.diagnostics ++ group.memberless := by
  unfold State.closeGroup OpenGroup.memberless
  split
  · rfl
  · exact (List.append_nil _).symm

theorem mode_closeGroup (state : State) (group : OpenGroup) :
    (state.closeGroup group).mode = .scanning := by
  unfold State.closeGroup
  split <;> rfl

theorem records_readBody {group : OpenGroup} (mode : state.mode = .inGroup group) (mark : String)
    (row : Row) :
    ∃ fresh, (state.step mark row).diagnostics = state.diagnostics ++ fresh ∧
      Records row (.inGroup group) fresh (state.step mark row).mode := by
  rcases isMember_or_exists_eq_append row.words with areMembers | ⟨front, last, rest, words,
    areMembers, isEnd⟩
  · rcases exists_readMembers_eq state.net row group row.words with ⟨members, read⟩
    rw [step_of_isMember mark mode areMembers]
    refine ⟨_, rfl, ?_⟩
    rw [State.enter, read]
    exact .lists (flags_readMembers row state.net group row.words)
  · rcases exists_readMembers_eq state.net row group front with ⟨members, read⟩
    rw [step_of_eq_append mark mode words areMembers isEnd, diagnostics_closeGroup,
      mode_closeGroup, read, State.report, List.append_assoc]
    have flags := (flags_readMembers row state.net group front).append
      (Row.flags_discards rest)
    exact ⟨_, rfl, .closes words flags⟩

/-- Reading a row only adds to the list of diagnostics. -/
theorem exists_records (holds : state.Holds Net.Sound fun net group => group.Fits net)
    (mark : String) (row : Row) :
    ∃ fresh, (state.step mark row).diagnostics = state.diagnostics ++ fresh ∧
      Records row state.mode fresh (state.step mark row).mode := by
  cases mode : state.mode with
  | scanning =>
    have scans : state.step mark row = state.scan mark row := by
      simp only [State.step, mode]
    rw [scans]
    exact records_scan holds.net.wellFormed mode mark row
  | inGroup group => exact records_readBody mode mark row

/-- The end of the text closes a group without saying more than that it has no members. -/
theorem diagnostics_finish (state : State) :
    state.finish.diagnostics = state.diagnostics ++
      match state.mode with
      | .scanning => []
      | .inGroup group => group.memberless := by
  cases mode : state.mode with
  | scanning => simp only [State.finish, mode, List.append_nil]
  | inGroup group =>
    simp only [State.finish, mode, OpenGroup.memberless]
    split
    · rfl
    · exact (List.append_nil _).symm

end Steps

end LineMachine

end NetDecl
