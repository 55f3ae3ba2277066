import NetDecl.Proofs.Compile.Refinement
import NetDecl.Proofs.LineMachine.Problems
import NetDecl.Proofs.Text.Extent

/-!
# The diagnostics of texts

A text is either reported as a success, at the place where it ends, or it has warnings and errors
only.  Every diagnostic has the severity of its code.
-/

namespace NetDecl

/-- There are three severities. -/
theorem Diagnostic.isSuccess_iff {diagnostic : Diagnostic} :
    diagnostic.isSuccess = true ↔ diagnostic.isError = false ∧ diagnostic.isWarning = false := by
  unfold isSuccess isError isWarning
  cases diagnostic.severity <;> simp

/-- An outcome is a success exactly if it has no errors and no warnings. -/
theorem Outcome.isSuccess_iff {outcome : Outcome} :
    outcome.isSuccess = true ↔ outcome.hasErrors = false ∧ outcome.hasWarnings = false := by
  simp only [isSuccess, hasErrors, hasWarnings, List.all_eq_true, List.any_eq_false,
    Diagnostic.isSuccess_iff, forall_and, Bool.not_eq_true]

/-- Whatever part of the compiler pulls the end of the text, the place is recorded where the text
ends. -/
theorem textEnd_run (mark text : String) :
    ((Session.start text).run mark).cursor.textEnd = Text.stop text.toList := by
  have last := textEnd_run_start mark text
  rw [Row.getLast?_ofText] at last
  exact (Option.some.inj last).symm

/-- The diagnostics of a text are those that the line machine records, or its success. -/
theorem diagnostics_compile (options : Options) (text : String) :
    (compile options text).diagnostics =
      if (LineMachine.run options.effectiveMark (Row.ofText text)).diagnostics.isEmpty then
        [.success (Text.stop text.toList)]
      else (LineMachine.run options.effectiveMark (Row.ofText text)).diagnostics := by
  rw [← textEnd_run options.effectiveMark, ← scanning_run_start]
  rfl

/-- The diagnostics of a text are its success alone or else warnings and errors alone; the success
stands where the text ends and has no characters.  Each diagnostic has the severity of its code, and
the text is a success exactly if there are no errors and no warnings. -/
theorem success_or_problems_compile (options : Options) (text : String) :
    let outcome := compile options text
    outcome.diagnostics ≠ [] ∧
      (∀ diagnostic ∈ outcome.diagnostics, diagnostic.severity = diagnostic.code.severity) ∧
      (outcome.diagnostics =
          [{ severity := .success
             code := .success
             position := ⟨Text.breakCount text.toList, (Text.lastLine text.toList).length⟩
             length := 0
             message := "Success" }] ∨
        ∀ diagnostic ∈ outcome.diagnostics,
          diagnostic.severity = .warning ∨ diagnostic.severity = .error) ∧
      (outcome.isSuccess = true ↔ ¬outcome.hasErrors = true ∧ ¬outcome.hasWarnings = true) := by
  intro outcome
  have raised := LineMachine.raised_run options.effectiveMark (Row.ofText text)
  have diagnostics : outcome.diagnostics = _ := diagnostics_compile options text
  have flags : outcome.isSuccess = true ↔
      ¬outcome.hasErrors = true ∧ ¬outcome.hasWarnings = true := by
    rw [Bool.not_eq_true, Bool.not_eq_true]
    exact Outcome.isSuccess_iff
  rw [diagnostics]
  by_cases silent : (LineMachine.run options.effectiveMark (Row.ofText text)).diagnostics.isEmpty
  · rw [if_pos silent]
    constructor
    · exact List.cons_ne_nil _ _
    constructor
    · intro diagnostic mem
      cases List.mem_singleton.1 mem
      rfl
    · exact ⟨.inl rfl, flags⟩
  · rw [if_neg silent]
    constructor
    · exact fun empty => silent (List.isEmpty_iff.2 empty)
    constructor
    · exact fun diagnostic mem => (raised diagnostic mem).severity_eq
    constructor
    · right
      intro diagnostic mem
      rcases raised.problems diagnostic mem with warning | error
      · exact .inl (eq_of_beq warning)
      · exact .inr (eq_of_beq error)
    · exact flags

end NetDecl
