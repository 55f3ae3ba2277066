import NetDecl.Proofs.LineMachine.Recorded
import NetDecl.Proofs.Text.Runs

/-!
# The order of diagnostics

Rows are read in the order of the text and a row flags its words from left to right, so diagnostics
about words stand in the order of the text and no word has two.  A line has at most one diagnostic
of its own.  The issue with a group that has no members is the one that comes late: it stands behind
those with the body of the group and names the line that opened it.  No other issue names that line,
because the line opened a group.
-/

namespace NetDecl

/-- The first place comes before the second in the order of reading. -/
def Position.Before (first second : Position) : Prop :=
  first.line < second.line ∨ first.line = second.line ∧ first.column < second.column

/-- What holds of two diagnostics the first of which has been recorded earlier. -/
structure Diagnostic.Precedes (first second : Diagnostic) : Prop where
  words : first.code.isAtWord = true → second.code.isAtWord = true →
    first.position.Before second.position
  lines : first.code ≠ .groupDiscarded → second.code ≠ .groupDiscarded →
    first.position.line ≤ second.position.line
  single : first.code.isAtLine = true → second.code.isAtLine = true →
    first.position.line ≠ second.position.line

theorem Diagnostic.precedes_of_line_lt {first second : Diagnostic}
    (lt : first.position.line < second.position.line) : first.Precedes second :=
  ⟨fun _ _ => .inl lt, fun _ _ => Nat.le_of_lt lt, fun _ _ => Nat.ne_of_lt lt⟩

namespace Row

variable {row : Row} {words : List Word} {diagnostics : List Diagnostic}

/-- A flag is about a word and on the line of its row. -/
theorem Flags.of_mem (flags : row.Flags words diagnostics) {diagnostic : Diagnostic}
    (mem : diagnostic ∈ diagnostics) :
    diagnostic.position.line = row.line.index ∧ diagnostic.code.isAtLine = false := by
  rcases flags.exists_of_mem mem with ⟨word, -, issue, about, rfl⟩
  exact ⟨rfl, isAtLine_flag about row word⟩

/-- Flags stand in the order of the words. -/
theorem Flags.pairwise (flags : row.Flags words diagnostics)
    (ordered : words.Pairwise fun first second => first.column < second.column) :
    diagnostics.Pairwise Diagnostic.Precedes := by
  induction flags with
  | nil => exact .nil
  | skip _ ih => exact ih (List.pairwise_cons.1 ordered).2
  | @flag word issue words diagnostics about flags ih =>
    rcases List.pairwise_cons.1 ordered with ⟨columns, others⟩
    apply List.Pairwise.cons _ (ih others)
    intro second mem
    rcases flags.exists_of_mem mem with ⟨other, otherMem, otherIssue, -, rfl⟩
    constructor
    · exact fun _ _ => .inr ⟨rfl, columns other otherMem⟩
    · exact fun _ _ => Nat.le_refl _
    · intro isAtLine
      rw [isAtLine_flag about] at isAtLine
      cases isAtLine

/-- The issue with the line of a row stands behind the flags of the row. -/
theorem Remarks.pairwise (remarks : row.Remarks words diagnostics)
    (ordered : words.Pairwise fun first second => first.column < second.column) :
    diagnostics.Pairwise Diagnostic.Precedes := by
  cases remarks with
  | flags flags => exact flags.pairwise ordered
  | @line diagnostics issue flags about _ =>
    rw [List.pairwise_append]
    refine ⟨flags.pairwise ordered, List.pairwise_singleton _ _, ?_⟩
    intro first mem second last
    rw [List.mem_singleton.1 last]
    rcases flags.of_mem mem with ⟨line, notAtLine⟩
    constructor
    · intro _ isAtWord
      rw [isAtWord_atLine about] at isAtWord
      cases isAtWord
    · exact fun _ _ => Nat.le_of_eq line
    · intro isAtLine
      rw [notAtLine] at isAtLine
      cases isAtLine

theorem Remarks.line_eq (remarks : row.Remarks words diagnostics) {diagnostic : Diagnostic}
    (mem : diagnostic ∈ diagnostics) : diagnostic.position.line = row.line.index := by
  cases remarks with
  | flags flags => exact (flags.of_mem mem).1
  | line flags _ _ =>
    rcases List.mem_append.1 mem with flagged | last
    · exact (flags.of_mem flagged).1
    · rw [List.mem_singleton.1 last]
      rfl

theorem Remarks.length_le (remarks : row.Remarks words diagnostics) :
    diagnostics.length ≤ words.length + 1 := by
  cases remarks with
  | flags flags => exact Nat.le_succ_of_le flags.length_le
  | line flags _ _ =>
    rw [List.length_append]
    exact Nat.succ_le_succ flags.length_le

end Row

namespace LineMachine

/-- The diagnostics are in order, they are about lines before the given one, and none is about the
line that has opened the group being read. -/
structure Ordered (bound : Nat) (mode : Mode) (diagnostics : List Diagnostic) : Prop where
  pairwise : diagnostics.Pairwise Diagnostic.Precedes
  below : ∀ diagnostic ∈ diagnostics, diagnostic.position.line < bound
  header : ∀ group, mode = .inGroup group → group.header.index < bound ∧
    ∀ diagnostic ∈ diagnostics, diagnostic.code.isAtLine = true →
      diagnostic.position.line ≠ group.header.index

theorem ordered_nil (bound : Nat) : Ordered bound .scanning [] :=
  ⟨.nil, fun _ mem => (nomatch mem), fun _ isOpen => nomatch isOpen⟩

section Rows

variable {bound : Nat} {mode after : Mode} {diagnostics fresh : List Diagnostic} {row : Row}

/-- Diagnostics about the next line are recorded behind the others. -/
theorem Ordered.append (ordered : Ordered bound mode diagnostics)
    (pairwise : fresh.Pairwise Diagnostic.Precedes)
    (onLine : ∀ diagnostic ∈ fresh, diagnostic.position.line = bound) :
    (diagnostics ++ fresh).Pairwise Diagnostic.Precedes ∧
      ∀ diagnostic ∈ diagnostics ++ fresh, diagnostic.position.line < bound + 1 := by
  constructor
  · rw [List.pairwise_append]
    refine ⟨ordered.pairwise, pairwise, ?_⟩
    intro first firstMem second secondMem
    apply Diagnostic.precedes_of_line_lt
    rw [onLine second secondMem]
    exact ordered.below first firstMem
  · intro diagnostic mem
    rcases List.mem_append.1 mem with old | new
    · exact Nat.lt_succ_of_lt (ordered.below diagnostic old)
    · rw [onLine diagnostic new]
      exact Nat.lt_succ_self bound

/-- Flags on the next line leave the line alone that has opened the group. -/
theorem Ordered.append_flags {group : OpenGroup} {words : List Word}
    (ordered : Ordered row.line.index (.inGroup group) diagnostics)
    (flags : row.Flags words fresh)
    (columns : words.Pairwise fun first second => first.column < second.column) :
    Ordered (row.line.index + 1) (.inGroup group) (diagnostics ++ fresh) := by
  rcases ordered.append (flags.pairwise columns) fun _ mem => (flags.of_mem mem).1 with
    ⟨pairwise, below⟩
  rcases ordered.header group rfl with ⟨opened, apart⟩
  refine ⟨pairwise, below, ?_⟩
  intro other isOpen
  cases isOpen
  refine ⟨Nat.lt_succ_of_lt opened, ?_⟩
  intro diagnostic mem isAtLine
  rcases List.mem_append.1 mem with old | new
  · exact apart diagnostic old isAtLine
  · rw [(flags.of_mem new).2] at isAtLine
    cases isAtLine

/-- Of the group being read it is the line that counts. -/
theorem Ordered.of_header_eq {group other : OpenGroup}
    (ordered : Ordered bound (.inGroup group) diagnostics) (same : other.header = group.header) :
    Ordered bound (.inGroup other) diagnostics := by
  refine ⟨ordered.pairwise, ordered.below, ?_⟩
  intro opened isOpen
  cases isOpen
  rw [same]
  exact ordered.header group rfl

/-- When a group ends, the line that has opened it is free for the issue that it has no members. -/
theorem Ordered.append_memberless {group : OpenGroup}
    (ordered : Ordered bound (.inGroup group) diagnostics) :
    Ordered bound .scanning (diagnostics ++ group.memberless) := by
  rcases ordered.header group rfl with ⟨opened, apart⟩
  have precedes : ∀ first ∈ diagnostics,
      first.Precedes ((Issue.memberless group.id).atLine group.header) := by
    intro first mem
    constructor
    · exact fun _ isAtWord => nomatch isAtWord
    · exact fun _ notDiscarded => absurd rfl notDiscarded
    · exact fun isAtLine _ => apart first mem isAtLine
  unfold OpenGroup.memberless
  split
  · refine ⟨?_, ?_, fun _ isOpen => nomatch isOpen⟩
    · rw [List.pairwise_append]
      refine ⟨ordered.pairwise, List.pairwise_singleton _ _, ?_⟩
      intro first mem second last
      rw [List.mem_singleton.1 last]
      exact precedes first mem
    · intro diagnostic mem
      rcases List.mem_append.1 mem with old | last
      · exact ordered.below diagnostic old
      · rw [List.mem_singleton.1 last]
        exact opened
  · rw [List.append_nil]
    exact ⟨ordered.pairwise, ordered.below, fun _ isOpen => nomatch isOpen⟩

/-- Reading the next row keeps the diagnostics in order. -/
theorem Ordered.records (ordered : Ordered row.line.index mode diagnostics)
    (columns : row.words.Pairwise fun first second => first.column < second.column)
    (records : Records row mode fresh after) :
    Ordered (row.line.index + 1) after (diagnostics ++ fresh) := by
  cases records with
  | skips =>
    rw [List.append_nil]
    exact ⟨ordered.pairwise, fun diagnostic mem => Nat.lt_succ_of_lt (ordered.below diagnostic mem),
      fun _ isOpen => nomatch isOpen⟩
  | declares split remarks =>
    rw [split] at columns
    have restColumns := (List.pairwise_cons.1 columns).2
    rcases ordered.append (remarks.pairwise restColumns) fun _ mem => remarks.line_eq mem with
      ⟨pairwise, below⟩
    exact ⟨pairwise, below, fun _ isOpen => nomatch isOpen⟩
  | @opens _ rest _ group split flags header =>
    rw [split] at columns
    have restColumns := (List.pairwise_cons.1 columns).2
    rcases ordered.append (flags.pairwise restColumns) fun _ mem => (flags.of_mem mem).1 with
      ⟨pairwise, below⟩
    refine ⟨pairwise, below, ?_⟩
    intro other isOpen
    cases isOpen
    rw [header]
    refine ⟨Nat.lt_succ_self _, ?_⟩
    intro diagnostic mem isAtLine
    rcases List.mem_append.1 mem with old | new
    · exact Nat.ne_of_lt (ordered.below diagnostic old)
    · rw [(flags.of_mem new).2] at isAtLine
      cases isAtLine
  | lists flags => exact (ordered.append_flags flags columns).of_header_eq rfl
  | @closes front rest last flagged group members split flags =>
    rw [split] at columns
    have others := columns.sublist ((List.sublist_cons_self last rest).append_left front)
    have filled : Ordered (row.line.index + 1) (.inGroup { group with members })
        (diagnostics ++ flagged) := (ordered.append_flags flags others).of_header_eq rfl
    rw [← List.append_assoc]
    exact filled.append_memberless

/-! ## Counting -/

/-- The words that have been read and are set aside for an issue still to come. -/
def Mode.reserve : Mode → Nat
  | .scanning => 0
  | .inGroup _ => 1

theorem length_memberless_le (group : OpenGroup) : group.memberless.length ≤ 1 := by
  unfold OpenGroup.memberless
  split
  · exact Nat.le_refl 1
  · exact Nat.zero_le 1

/-- A row records no more than it has words.  The keyword that opens a group is kept for the issue
that the group has no members. -/
theorem Records.length_le (records : Records row mode fresh after) :
    fresh.length + after.reserve ≤ row.words.length + mode.reserve := by
  cases records with
  | skips => exact Nat.zero_le _
  | declares split remarks =>
    rw [split]
    exact remarks.length_le
  | opens split flags _ =>
    rw [split]
    exact Nat.succ_le_succ flags.length_le
  | lists flags => exact Nat.succ_le_succ flags.length_le
  | @closes front rest last flagged group members split flags =>
    have spent := flags.length_le
    have memberless := length_memberless_le { group with members }
    rw [split]
    simp only [List.length_append, List.length_cons, Mode.reserve] at spent ⊢
    omega

end Rows

/-! ## Runs -/

theorem ordered_foldl {state : State}
    (holds : state.Holds Net.Sound fun net group => group.Fits net) (mark : String) {index : Nat}
    (start : Nat) (lines : List RawLine) (ordered : Ordered index state.mode state.diagnostics) :
    ∃ last, (Row.number index start lines).foldl (State.step mark) state = last ∧
      Ordered (index + lines.length) last.mode last.diagnostics ∧
      last.diagnostics.length + last.mode.reserve ≤ state.diagnostics.length + state.mode.reserve +
        ((Row.number index start lines).flatMap Row.words).length := by
  induction lines generalizing state index start with
  | nil => exact ⟨state, rfl, ordered, Nat.le_refl _⟩
  | cons raw lines ih =>
    let row : Row := ⟨⟨index, start, raw.content.length⟩, Text.words 0 raw.content⟩
    rcases exists_records holds mark row with ⟨fresh, added, records⟩
    have columns : row.words.Pairwise fun first second => first.column < second.column :=
      Text.pairwise_words 0 raw.content
    have read : Ordered (index + 1) (state.step mark row).mode (state.diagnostics ++ fresh) :=
      Ordered.records ordered columns records
    rw [← added] at read
    rcases ih (invariant_sound.step holds trivial mark)
      (start + raw.content.length + raw.lineBreak.length) read with ⟨last, reached, behind, length⟩
    refine ⟨last, reached, ?_, ?_⟩
    · rw [List.length_cons, Nat.add_comm lines.length, ← Nat.add_assoc]
      exact behind
    · have spent : fresh.length + (state.step mark row).mode.reserve ≤
          (Text.words 0 raw.content).length + state.mode.reserve := records.length_le
      rw [added, List.length_append] at length
      rw [Row.number, List.flatMap_cons, List.length_append]
      dsimp only
      omega

/-- Where the rows end, a group that is still open is the last to be reported. -/
theorem Ordered.finish {bound count : Nat} {state : State}
    (ordered : Ordered bound state.mode state.diagnostics)
    (length : state.diagnostics.length + state.mode.reserve ≤ count) :
    state.finish.diagnostics.Pairwise Diagnostic.Precedes ∧
      state.finish.diagnostics.length ≤ count := by
  rw [diagnostics_finish]
  cases mode : state.mode with
  | scanning =>
    dsimp only
    rw [List.append_nil]
    exact ⟨ordered.pairwise, Nat.le_of_add_right_le length⟩
  | inGroup group =>
    rw [mode] at ordered length
    dsimp only
    constructor
    · exact ordered.append_memberless.pairwise
    · rw [List.length_append]
      exact Nat.le_trans (Nat.add_le_add_left (length_memberless_le group) _) length

/-- The diagnostics of a text are in order, and there are no more of them than words. -/
theorem ordered_run (mark text : String) :
    (run mark (Row.ofText text)).diagnostics.Pairwise Diagnostic.Precedes ∧
      (run mark (Row.ofText text)).diagnostics.length ≤
        ((Row.ofText text).flatMap Row.words).length := by
  have sound : State.start.Holds Net.Sound fun net group => group.Fits net :=
    State.holds_of_scanning .empty rfl
  rcases ordered_foldl sound mark 0 (Text.splitLines text.toList) (ordered_nil 0) with
    ⟨last, reached, ordered, length⟩
  have fresh : State.start.diagnostics.length + State.start.mode.reserve = 0 := rfl
  rw [fresh, Nat.zero_add] at length
  have run : run mark (Row.ofText text) = last.finish := congrArg State.finish reached
  rw [run]
  exact ordered.finish length

end LineMachine

end NetDecl
