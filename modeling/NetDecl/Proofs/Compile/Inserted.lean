import NetDecl.Proofs.Compile.Alike
import NetDecl.Proofs.Compile.Continued

/-!
# Inserted lines

A line that declares nothing can be inserted between other lines without any bearing on these: what
is reported about them only moves to the next line.  If the line has words and is no comment, it is
reported itself, between what has been reported before and what comes behind.
-/

namespace NetDecl

open List (Forall₂)

namespace Diagnostic

/-- The diagnostic where a line has been inserted at `index`: from there on everything stands one
line further down. -/
def pushDown (index : Nat) (diagnostic : Diagnostic) : Diagnostic :=
  { diagnostic with
    position.line :=
      if index ≤ diagnostic.position.line then diagnostic.position.line + 1
      else diagnostic.position.line }

variable {index line : Nat}

theorem pushDown_ofCode_of_lt (above : line < index) (code : Code) (column length : Nat)
    (message : String) :
    (ofCode code ⟨line, column⟩ length message).pushDown index =
      ofCode code ⟨line, column⟩ length message := by
  simp [pushDown, ofCode, Nat.not_le.2 above]

theorem pushDown_ofCode_of_le (below : index ≤ line) (code : Code) (column length : Nat)
    (message : String) :
    (ofCode code ⟨line, column⟩ length message).pushDown index =
      ofCode code ⟨line + 1, column⟩ length message := by
  simp [pushDown, ofCode, below]

/-- The second diagnostic is the first where a line has been inserted. -/
def IsPushed (index : Nat) (diagnostic pushed : Diagnostic) : Prop :=
  diagnostic.pushDown index = pushed

theorem forall₂_isPushed_iff {diagnostics others : List Diagnostic} :
    Forall₂ (IsPushed index) diagnostics others ↔ others = diagnostics.map (pushDown index) := by
  rw [eq_comm, ← List.forall₂_eq_eq_eq, List.forall₂_map_left_iff]
  rfl

end Diagnostic

open Diagnostic (IsPushed pushDown forall₂_isPushed_iff)

/-! ## Rows -/

namespace Row

variable {index : Nat} {row : Row}

/-- Rows above the line stay where they are. -/
theorem forall₂_alike_of_lt {rows : List Row} (above : ∀ row ∈ rows, row.line.index < index) :
    Forall₂ (Row.Alike (IsPushed index)) rows rows := by
  rw [List.forall₂_same]
  intro row mem
  have same : Moved 0 row row := ⟨rfl, rfl, rfl⟩
  exact same.alike (Diagnostic.pushDown_ofCode_of_lt (above row mem))

/-- Rows from the line on move down by one. -/
theorem forall₂_alike_number (lines : List RawLine) {line : Nat} (below : index ≤ line)
    (start otherStart : Nat) :
    Forall₂ (Row.Alike (IsPushed index)) (number line start lines)
      (number (line + 1) otherStart lines) := by
  induction lines generalizing line start otherStart with
  | nil => exact .nil
  | cons raw lines ih =>
    rw [number, number]
    refine .cons ?_ (ih (Nat.le_succ_of_le below) _ _)
    have moved : Moved 1 ⟨⟨line, start, raw.content.length⟩, Text.words 0 raw.content⟩
        ⟨⟨line + 1, otherStart, raw.content.length⟩, Text.words 0 raw.content⟩ := ⟨rfl, rfl, rfl⟩
    exact moved.alike (Diagnostic.pushDown_ofCode_of_le below)

/-- The text `longer` has the rows of `text` and one more, behind those `above` and in front of those
`below`, which are `pushed` down by it. -/
structure Inserted (index : Nat) (row : Row) (text longer : String)
    (above below pushed : List Row) : Prop where
  split : ofText text = above ++ below
  splitLonger : ofText longer = above ++ row :: pushed
  kept : Forall₂ (Row.Alike (IsPushed index)) above above
  moved : Forall₂ (Row.Alike (IsPushed index)) below pushed
  more : below ≠ []

/-- A line without breaks that is inserted between lines is one row more. -/
theorem exists_inserted {front line : String} (whole : Text.IsWhole front)
    (unbroken : ∀ char ∈ line.toList, Text.isBreak char = false) (back mark : String) :
    ∃ start above below pushed,
      Inserted (Text.breakCount front.toList)
        ⟨⟨Text.breakCount front.toList, start, line.length⟩, Text.words 0 line.toList⟩
        (front ++ back) (front ++ line ++ "\n" ++ back) above below pushed ∧
      LineMachine.behind mark front =
        above.foldl (LineMachine.State.step mark) LineMachine.State.start := by
  rcases LineMachine.exists_ofText_append whole mark with ⟨above, start, early, behind, texts⟩
  have split : ofText (front ++ line ++ "\n" ++ back) = above ++
      ⟨⟨Text.breakCount front.toList, start, line.length⟩, Text.words 0 line.toList⟩ ::
        number (Text.breakCount front.toList + 1) (start + line.length + 1)
          (Text.splitLines back.toList) := by
    rw [String.append_assoc, String.append_assoc, texts, number_line unbroken]
    rfl
  refine ⟨start, above, _, _, ⟨texts back, split, forall₂_alike_of_lt early, ?_, ?_⟩, behind⟩
  · exact forall₂_alike_number _ (Nat.le_refl _) _ _
  · cases lines : Text.splitLines back.toList with
    | nil => exact absurd lines (Text.splitLines_ne_nil _)
    | cons raw rest => exact List.cons_ne_nil _ _

end Row

/-! ## Runs -/

namespace Row.Inserted

open LineMachine

variable {index : Nat} {row : Row} {text longer : String} {above below pushed : List Row}

/-- Both texts end in the same place, up to the line that has been inserted. -/
theorem isPushed_success (inserted : Inserted index row text longer above below pushed) :
    IsPushed index (.success (Text.stop text.toList)) (.success (Text.stop longer.toList)) := by
  have last := getLast?_ofText text
  have otherLast := getLast?_ofText longer
  have moved := inserted.moved
  rw [inserted.split, List.getLast?_append_of_ne_nil _ inserted.more] at last
  rw [inserted.splitLonger, List.getLast?_append_of_ne_nil _ (List.cons_ne_nil _ _)] at otherLast
  cases moved with
  | nil => exact absurd rfl inserted.more
  | cons first rest =>
    rw [List.getLast?_cons_cons] at otherLast
    exact relation_success (.cons first rest) last otherLast

variable {mark : String} {state other : State} {options : Options}

/-- Above the inserted row the machine is where it would be without it. -/
theorem alike_above (inserted : Inserted index row text longer above below pushed)
    (reached : above.foldl (State.step mark) State.start = state) :
    state.Alike (IsPushed index) [] [] state := by
  rw [← reached]
  exact (State.Alike.start _).foldl inserted.kept mark

/-- If the inserted row leads to a state like the one above it, the runs end alike. -/
theorem run_alike (inserted : Inserted index row text longer above below pushed)
    (reached : above.foldl (State.step mark) State.start = state)
    (stepped : state.step mark row = other) {front otherFront : List Diagnostic}
    (alike : state.Alike (IsPushed index) front otherFront other) :
    (run mark (ofText text)).Alike (IsPushed index) front otherFront
      (run mark (ofText longer)) := by
  have behind := alike.runFrom inserted.moved mark
  rw [← stepped, ← reached] at behind
  rw [run, run, inserted.split, inserted.splitLonger, List.foldl_append, List.foldl_append]
  exact behind

/-- A row that changes nothing only pushes down what is reported about the rows behind it. -/
theorem compile_of_silent (inserted : Inserted index row text longer above below pushed)
    (reached : above.foldl (State.step options.effectiveMark) State.start = state)
    (silent : state.step options.effectiveMark row = state) :
    (compile options longer).net = (compile options text).net ∧
      (compile options longer).diagnostics =
        (compile options text).diagnostics.map (pushDown index) := by
  have alike := inserted.run_alike reached silent (inserted.alike_above reached)
  rcases compile_alike alike inserted.isPushed_success with ⟨net, diagnostics⟩
  exact ⟨net.symm, forall₂_isPushed_iff.1 diagnostics⟩

/-- A row that is only reported is reported between what has been recorded above it and what is
recorded below it. -/
theorem compile_of_report (inserted : Inserted index row text longer above below pushed)
    (reached : above.foldl (State.step options.effectiveMark) State.start = state)
    {diagnostic : Diagnostic}
    (reports : state.step options.effectiveMark row = state.report [diagnostic]) :
    (compile options longer).net = (compile options text).net ∧
      ∃ rest, (compile options text).problems = state.diagnostics ++ rest ∧
        (compile options longer).diagnostics =
          state.diagnostics.map (pushDown index) ++ diagnostic :: rest.map (pushDown index) := by
  have unmoved := inserted.alike_above reached
  have kept : state.diagnostics = state.diagnostics.map (pushDown index) := by
    rcases unmoved.diagnostics with ⟨recorded, otherRecorded, same, otherSame, related⟩
    rw [List.nil_append] at same otherSame
    rw [← same, ← otherSame] at related
    exact forall₂_isPushed_iff.1 related
  have reported : state.Alike (IsPushed index) state.diagnostics
      (state.diagnostics ++ [diagnostic]) (state.report [diagnostic]) :=
    ⟨rfl, unmoved.mode, [], [], (List.append_nil _).symm, (List.append_nil _).symm, .nil⟩
  have alike := inserted.run_alike reached reports reported
  rcases alike.diagnostics with ⟨rest, otherRest, same, otherSame, related⟩
  have nonempty : (run options.effectiveMark (ofText longer)).diagnostics ≠ [] := by
    rw [otherSame]
    simp
  rw [net_compile, net_compile, problems_compile, diagnostics_compile, ← kept,
    if_neg (mt List.isEmpty_iff.1 nonempty)]
  refine ⟨alike.net.symm, rest, same, ?_⟩
  rw [otherSame, forall₂_isPushed_iff.1 related, List.append_assoc]
  rfl

end Row.Inserted

/-! ## Lines that declare nothing -/

namespace LineMachine

variable {mark : String} {state : State} {row : Row} {first : Word} {rest : List Word}

/-- A comment changes nothing. -/
theorem step_of_comment (scanning : state.mode = .scanning) (words : row.words = first :: rest)
    (idle : Part.ofKeyword? first.text = none) (comment : Text.beginsWith first.text mark = true) :
    state.step mark row = state := by
  rw [Text.beginsWith_eq] at comment
  simp only [State.step, State.scan, scanning, words, idle, comment, if_true]

/-- Any other line that declares nothing is reported. -/
theorem step_of_unexpected (scanning : state.mode = .scanning) (words : row.words = first :: rest)
    (idle : Part.ofKeyword? first.text = none) (strange : Text.beginsWith first.text mark = false) :
    state.step mark row = state.report [(Issue.unexpected first.text).atLine row.line] := by
  rw [Text.beginsWith_eq] at strange
  simp [State.step, State.scan, scanning, words, idle, strange]

end LineMachine

/-- A line that has no words, or that declares nothing and is inserted outside of groups, has no
bearing on the net, and all that is reported about the lines behind it is reported one line further
down.  Unless it is a comment, the line itself is reported behind what has been reported about the
lines in front of it. -/
theorem compile_insert_line (options : Options) {front line : String} (whole : Text.IsWhole front)
    (unbroken : ∀ char ∈ line.toList, Text.isBreak char = false) (back : String)
    (idle : Text.words 0 line.toList = [] ∨ ¬EndsInGroup options front ∧
      ∀ first ∈ (Text.words 0 line.toList).head?, Part.ofKeyword? first.text = none) :
    let index := Text.breakCount front.toList
    let before := compile options (front ++ back)
    let after := compile options (front ++ line ++ "\n" ++ back)
    after.net = before.net ∧
      ((∀ first ∈ (Text.words 0 line.toList).head?,
          Text.beginsWith first.text options.effectiveMark = true) →
        after.diagnostics = before.diagnostics.map (pushDown index)) ∧
      ∀ first ∈ (Text.words 0 line.toList).head?,
        Text.beginsWith first.text options.effectiveMark = false →
          ∃ rest, before.problems = (compile options front).problems ++ rest ∧
            after.diagnostics = (compile options front).problems.map (pushDown index) ++
              { severity := .error
                code := .invalidLineStart
                position := ⟨index, 0⟩
                length := line.length
                message := "unexpected " ++ first.text ++
                  ", expect node/edge/group..endgroup, discard whole line" } ::
              rest.map (pushDown index) := by
  dsimp only
  rcases Row.exists_inserted whole unbroken back options.effectiveMark with
    ⟨start, above, below, pushed, inserted, reached⟩
  cases words : Text.words 0 line.toList with
  | nil =>
    have silent := inserted.compile_of_silent reached.symm
      (LineMachine.step_of_words_eq_nil _ _ words)
    exact ⟨silent.1, fun _ => silent.2, fun first head => nomatch head⟩
  | cons first others =>
    rw [words] at idle
    rcases idle with empty | ⟨between, idle⟩
    · cases empty
    have scanning := not_not.1 between
    have declaresNothing := idle first rfl
    rw [problems_of_not_endsInGroup between]
    cases begins : Text.beginsWith first.text options.effectiveMark with
    | true =>
      have silent := inserted.compile_of_silent reached.symm
        (LineMachine.step_of_comment scanning words declaresNothing begins)
      refine ⟨silent.1, fun _ => silent.2, fun other head strange => ?_⟩
      cases head
      rw [begins] at strange
      cases strange
    | false =>
      have reported := inserted.compile_of_report reached.symm
        (LineMachine.step_of_unexpected scanning words declaresNothing begins)
      refine ⟨reported.1, fun comment => ?_, fun other head _ => ?_⟩
      · have both := comment first rfl
        rw [begins] at both
        cases both
      · cases head
        exact reported.2

/-- A line between a node and an edge has no bearing on the net. -/
theorem compile_insert_line_between :
    Text.IsWhole "node a\n" ∧ (∀ char ∈ "wat node".toList, Text.isBreak char = false) ∧
      (Text.words 0 "wat node".toList = [] ∨ ¬EndsInGroup .standard "node a\n" ∧
        ∀ first ∈ (Text.words 0 "wat node".toList).head?, Part.ofKeyword? first.text = none) ∧
      (compile .standard ("node a\n" ++ "wat node" ++ "\n" ++ "edge e a b")).net =
        (compile .standard ("node a\n" ++ "edge e a b")).net := by
  have whole : Text.IsWhole "node a\n" := .inr ⟨"node a", rfl⟩
  have unbroken : ∀ char ∈ "wat node".toList, Text.isBreak char = false := by
    simp [Text.isBreak]
  have idle : Text.words 0 "wat node".toList = [] ∨ ¬EndsInGroup .standard "node a\n" ∧
      ∀ first ∈ (Text.words 0 "wat node".toList).head?, Part.ofKeyword? first.text = none := by
    decide +kernel
  exact ⟨whole, unbroken, idle,
    (compile_insert_line .standard whole unbroken "edge e a b" idle).1⟩

-- In a group the words of a line are members.
example : (compile .standard ("node a\ngroup g\n" ++ "a" ++ "\n" ++ "endgroup")).net ≠
    (compile .standard ("node a\ngroup g\n" ++ "endgroup")).net := by
  decide +kernel

end NetDecl
