import NetDecl.Proofs.Compile.Diagnostics
import NetDecl.Proofs.LineMachine.Alike
import NetDecl.Proofs.LineMachine.Extends
import NetDecl.Proofs.Text.Whole

/-!
# Texts that go on

A text of whole lines is read in the same way whatever follows it.  What it declares stays declared,
and unless it ends in a group, what has been recorded stays recorded: a group that the text ends in
is forgotten, but text that follows may still close it.
-/

namespace NetDecl

/-- The diagnostics that have been recorded; the success of a text without problems is not. -/
def Outcome.problems (outcome : Outcome) : List Diagnostic :=
  outcome.diagnostics.filter fun diagnostic => !diagnostic.isSuccess

/-- The problems of a text are the diagnostics that the line machine records. -/
theorem problems_compile (options : Options) (text : String) :
    (compile options text).problems =
      (LineMachine.run options.effectiveMark (Row.ofText text)).diagnostics := by
  have raised := LineMachine.raised_run options.effectiveMark (Row.ofText text)
  rw [Outcome.problems, diagnostics_compile]
  split
  · rename_i silent
    rw [List.isEmpty_iff.1 silent]
    rfl
  · rw [List.filter_eq_self]
    intro diagnostic mem
    rw [(raised.problems diagnostic mem).isSuccess_eq_false]
    rfl

namespace LineMachine

/-- The machine behind the last row of a text, where it has not stopped yet. -/
def behind (mark text : String) : State :=
  (Row.ofText text).foldl (State.step mark) State.start

theorem run_eq_finish_behind (mark text : String) :
    run mark (Row.ofText text) = (behind mark text).finish :=
  rfl

/-- A row without words changes nothing. -/
theorem step_of_words_eq_nil (mark : String) (state : State) {row : Row} (none : row.words = []) :
    state.step mark row = state := by
  rcases state with ⟨net, diagnostics, mode⟩
  cases mode with
  | scanning => simp [State.step, State.scan, none]
  | inGroup group => simp [State.step, State.readBody, none, readMembers, State.report]

theorem holds_behind (mark text : String) :
    (behind mark text).Holds Net.Sound fun net group => group.Fits net :=
  invariant_sound.foldl (State.holds_of_scanning .empty rfl) (fun _ _ => trivial) mark

/-- The rows of a text of whole lines take the machine behind the text, whatever follows. -/
theorem exists_ofText_append {front : String} (whole : Text.IsWhole front) (mark : String) :
    ∃ rows middle, (∀ row ∈ rows, row.line.index < Text.breakCount front.toList) ∧
      behind mark front = rows.foldl (State.step mark) State.start ∧
      ∀ back : String, Row.ofText (front ++ back) =
        rows ++ Row.number (Text.breakCount front.toList) middle (Text.splitLines back.toList) := by
  rcases Row.exists_ofText_append whole with ⟨rows, middle, above, texts⟩
  refine ⟨rows, middle, above, ?_, texts⟩
  have alone := texts ""
  rw [String.append_empty] at alone
  -- Behind its last break the text has an empty row.
  rw [behind, alone, List.foldl_append]
  exact step_of_words_eq_nil mark _ (Text.words_nil 0)

end LineMachine

/-- The text ends in the body of a group: behind its last row the line machine is reading members.
-/
def EndsInGroup (options : Options) (text : String) : Prop :=
  (LineMachine.behind options.effectiveMark text).mode ≠ .scanning

instance (options : Options) (text : String) : Decidable (EndsInGroup options text) :=
  inferInstanceAs (Decidable (_ ≠ _))

theorem problems_of_not_endsInGroup {options : Options} {text : String}
    (between : ¬EndsInGroup options text) :
    (compile options text).problems =
      (LineMachine.behind options.effectiveMark text).diagnostics := by
  rw [problems_compile, LineMachine.run_eq_finish_behind, LineMachine.State.finish,
    not_not.1 between]

/-- Text that follows whole lines retracts nothing that these have declared: the net of the longer
text extends that of the shorter one.  Unless the shorter text ends in a group, its problems come
first among those of the longer one. -/
theorem compile_append (options : Options) {front : String} (whole : Text.IsWhole front)
    (back : String) :
    (compile options front).net.Extends (compile options (front ++ back)).net ∧
      (¬EndsInGroup options front →
        (compile options front).problems <+: (compile options (front ++ back)).problems) := by
  rcases LineMachine.exists_ofText_append whole options.effectiveMark with
    ⟨rows, middle, -, behind, texts⟩
  have longer : LineMachine.run options.effectiveMark (Row.ofText (front ++ back)) =
      LineMachine.runFrom options.effectiveMark (LineMachine.behind options.effectiveMark front)
        (Row.number (Text.breakCount front.toList) middle (Text.splitLines back.toList)) := by
    rw [LineMachine.run, texts, List.foldl_append, ← behind]
    rfl
  constructor
  · rw [net_compile, net_compile, longer, LineMachine.run_eq_finish_behind, LineMachine.runFrom,
      LineMachine.State.net_finish, LineMachine.State.net_finish]
    exact LineMachine.extends_foldl (LineMachine.holds_behind _ front) _ _
  · intro between
    rw [problems_of_not_endsInGroup between, problems_compile, longer]
    exact LineMachine.diagnostics_prefix_runFrom _ _ _

/-- A line without a declaration is still reported when a group follows. -/
theorem compile_append_group :
    Text.IsWhole "node a\nwat\n" ∧ ¬EndsInGroup .standard "node a\nwat\n" ∧
      (compile .standard "node a\nwat\n").problems <+:
        (compile .standard ("node a\nwat\n" ++ "group g\na\nendgroup")).problems := by
  have whole : Text.IsWhole "node a\nwat\n" := .inr ⟨"node a\nwat", rfl⟩
  have between : ¬EndsInGroup .standard "node a\nwat\n" := by decide +kernel
  exact ⟨whole, between, (compile_append .standard whole "group g\na\nendgroup").2 between⟩

-- A group that is reported to have no members has some once the text goes on.
example : ¬(compile .standard "node a\ngroup g\n").problems <+:
    (compile .standard ("node a\ngroup g\n" ++ "a\nendgroup\n")).problems := by
  decide +kernel

end NetDecl
