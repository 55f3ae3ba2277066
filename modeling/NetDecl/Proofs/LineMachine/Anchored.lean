import NetDecl.Proofs.LineMachine.Recorded

/-!
# What diagnostics are about

Every diagnostic that the line machine records is about a word of one of the rows that it reads, or
about the line of one of them.
-/

namespace NetDecl

/-- The diagnostic is that of an issue with a word of one of the rows, or with the line of one. -/
inductive Diagnostic.IsAbout (rows : List Row) (diagnostic : Diagnostic) : Prop where
  | word {row : Row} {word : Word} {issue : Issue} :
      row ∈ rows → word ∈ row.words → issue.word? = some word.text →
      diagnostic = row.flag word issue → diagnostic.IsAbout rows
  | line {row : Row} {issue : Issue} :
      row ∈ rows → issue.word? = none → diagnostic = issue.atLine row.line →
      diagnostic.IsAbout rows

namespace LineMachine

/-- The diagnostics are about the rows, and one of them has opened the group that is being read. -/
structure Anchored (rows : List Row) (mode : Mode) (diagnostics : List Diagnostic) : Prop where
  about : ∀ diagnostic ∈ diagnostics, diagnostic.IsAbout rows
  header : ∀ group, mode = .inGroup group → ∃ row ∈ rows, group.header = row.line

section Rows

variable {rows : List Row} {row : Row} {words : List Word} {mode after : Mode}
  {diagnostics fresh : List Diagnostic} {diagnostic : Diagnostic}

theorem isAbout_of_flags (rowMem : row ∈ rows) (flags : row.Flags words fresh)
    (subset : words ⊆ row.words) (mem : diagnostic ∈ fresh) : diagnostic.IsAbout rows := by
  rcases flags.exists_of_mem mem with ⟨word, wordMem, issue, about, rfl⟩
  exact .word rowMem (subset wordMem) about rfl

theorem isAbout_of_remarks (rowMem : row ∈ rows) (remarks : row.Remarks words fresh)
    (subset : words ⊆ row.words) (mem : diagnostic ∈ fresh) : diagnostic.IsAbout rows := by
  cases remarks with
  | flags flags => exact isAbout_of_flags rowMem flags subset mem
  | line flags about _ =>
    rcases List.mem_append.1 mem with flagged | last
    · exact isAbout_of_flags rowMem flags subset flagged
    · exact .line rowMem about (List.mem_singleton.1 last)

theorem isAbout_of_memberless {group : OpenGroup} (rowMem : row ∈ rows)
    (header : group.header = row.line) (mem : diagnostic ∈ group.memberless) :
    diagnostic.IsAbout rows := by
  unfold OpenGroup.memberless at mem
  split at mem
  · rw [header] at mem
    exact .line rowMem rfl (List.mem_singleton.1 mem)
  · cases mem

/-- Reading a row records diagnostics about it, or about the line that opened the group. -/
theorem Anchored.records (anchored : Anchored rows mode diagnostics) (rowMem : row ∈ rows)
    (records : Records row mode fresh after) : Anchored rows after (diagnostics ++ fresh) := by
  have added : (∀ diagnostic ∈ fresh, diagnostic.IsAbout rows) →
      ∀ diagnostic ∈ diagnostics ++ fresh, diagnostic.IsAbout rows := by
    intro about diagnostic mem
    rcases List.mem_append.1 mem with old | new
    · exact anchored.about diagnostic old
    · exact about diagnostic new
  cases records with
  | skips => exact ⟨added fun _ mem => (nomatch mem), fun _ isOpen => nomatch isOpen⟩
  | declares split remarks =>
    refine ⟨added fun diagnostic mem => ?_, fun _ isOpen => nomatch isOpen⟩
    apply isAbout_of_remarks rowMem remarks _ mem
    rw [split]
    exact List.subset_cons_self _ _
  | opens split flags header =>
    constructor
    · refine added fun diagnostic mem => isAbout_of_flags rowMem flags ?_ mem
      rw [split]
      exact List.subset_cons_self _ _
    · intro group isOpen
      cases isOpen
      exact ⟨row, rowMem, header⟩
  | @lists _ group members flags =>
    constructor
    · exact added fun diagnostic mem => isAbout_of_flags rowMem flags (List.Subset.refl _) mem
    · intro other isOpen
      cases isOpen
      exact anchored.header group rfl
  | @closes front rest last _ group members split flags =>
    rcases anchored.header group rfl with ⟨opening, openingMem, header⟩
    refine ⟨added fun diagnostic mem => ?_, fun _ isOpen => nomatch isOpen⟩
    rcases List.mem_append.1 mem with flagged | memberless
    · apply isAbout_of_flags rowMem flags _ flagged
      rw [split]
      exact ((List.sublist_cons_self last rest).append_left front).subset
    · have sameHeader : (OpenGroup.mk group.id group.label group.header members).header =
          opening.line := header
      exact isAbout_of_memberless openingMem sameHeader memberless

end Rows

theorem anchored_foldl {state : State}
    (holds : state.Holds Net.Sound fun net group => group.Fits net) {rows : List Row}
    (anchored : Anchored rows state.mode state.diagnostics) (mark : String) {list : List Row}
    (subset : list ⊆ rows) :
    Anchored rows (list.foldl (State.step mark) state).mode
      (list.foldl (State.step mark) state).diagnostics := by
  induction list generalizing state with
  | nil => exact anchored
  | cons row list ih =>
    rcases List.cons_subset.1 subset with ⟨rowMem, others⟩
    rcases exists_records holds mark row with ⟨fresh, added, records⟩
    have read := anchored.records rowMem records
    rw [← added] at read
    exact ih (invariant_sound.step holds trivial mark) read others

/-- All that the machine records is about the rows that it has read. -/
theorem isAbout_of_mem_run {mark : String} {rows : List Row} {diagnostic : Diagnostic}
    (mem : diagnostic ∈ (run mark rows).diagnostics) : diagnostic.IsAbout rows := by
  have start : Anchored rows State.start.mode State.start.diagnostics :=
    ⟨fun _ mem => (nomatch mem), fun _ isOpen => nomatch isOpen⟩
  have sound : State.start.Holds Net.Sound fun net group => group.Fits net :=
    State.holds_of_scanning .empty rfl
  have anchored := anchored_foldl sound start mark (List.Subset.refl rows)
  rw [run, diagnostics_finish] at mem
  rcases List.mem_append.1 mem with recorded | last
  · exact anchored.about diagnostic recorded
  · split at last
    · cases last
    · rename_i group mode
      rcases anchored.header group mode with ⟨row, rowMem, header⟩
      exact isAbout_of_memberless rowMem header last

end LineMachine

end NetDecl
