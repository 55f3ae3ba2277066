import NetDecl.Proofs.Compile.Diagnostics
import NetDecl.Proofs.LineMachine.Ordered

/-!
# The order of the diagnostics of a text

The diagnostics of a text about words stand in the order of the text, and no word has two.  No line
has two diagnostics of its own.  There are no more diagnostics than words, unless the text has none.
-/

namespace NetDecl

theorem Position.Before.ne {first second : Position} (before : first.Before second) :
    first ≠ second := by
  rintro rfl
  rcases before with lt | ⟨-, lt⟩
  · exact Nat.lt_irrefl _ lt
  · exact Nat.lt_irrefl _ lt

/-- The diagnostics of a text are in order, and there are no more of them than words, unless the
one diagnostic is that of success. -/
theorem pairwise_diagnostics_compile (options : Options) (text : String) :
    (compile options text).diagnostics.Pairwise Diagnostic.Precedes ∧
      (compile options text).diagnostics.length ≤
        max 1 ((Row.ofText text).flatMap Row.words).length := by
  rcases LineMachine.ordered_run options.effectiveMark text with ⟨pairwise, length⟩
  rw [diagnostics_compile]
  split
  · exact ⟨List.pairwise_singleton _ _, Nat.le_max_left _ _⟩
  · exact ⟨pairwise, Nat.le_trans length (Nat.le_max_right _ _)⟩

/-- The words of a text, row by row, are the words of its lines. -/
theorem flatMap_words_ofText (text : String) :
    (Row.ofText text).flatMap Row.words =
      (Text.splitLines text.toList).flatMap fun raw => Text.words 0 raw.content := by
  have number : ∀ (lines : List RawLine) (index start : Nat),
      (Row.number index start lines).flatMap Row.words =
        lines.flatMap fun raw => Text.words 0 raw.content := by
    intro lines
    induction lines with
    | nil => exact fun _ _ => rfl
    | cons raw lines ih =>
      intro index start
      rw [Row.number, List.flatMap_cons, List.flatMap_cons, ih]
  exact number _ 0 0

/-- In the order in which diagnostics are recorded, those about words have places that come one
after another, so no word has two; in particular no name is both taken and in conflict.  Their lines
never go back, but for groups without members.  No line has two diagnostics about the line itself,
and there are at most as many diagnostics as words, or one. -/
theorem diagnostics_in_order (options : Options) (text : String) :
    let diagnostics := (compile options text).diagnostics
    (diagnostics.filter fun diagnostic => diagnostic.code.isAtWord).Pairwise
        (fun first second => first.position.Before second.position) ∧
      (∀ first ∈ diagnostics, ∀ second ∈ diagnostics, first.code = .duplicatedId →
        second.code = .idConflict → first.position ≠ second.position) ∧
      (diagnostics.filter fun diagnostic => diagnostic.code != .groupDiscarded).Pairwise
        (fun first second => first.position.line ≤ second.position.line) ∧
      ((diagnostics.filter fun diagnostic => diagnostic.code.isAtLine).map
        fun diagnostic => diagnostic.position.line).Nodup ∧
      diagnostics.length ≤ max 1
        ((Text.splitLines text.toList).flatMap fun raw => Text.words 0 raw.content).length := by
  intro diagnostics
  rcases pairwise_diagnostics_compile options text with ⟨pairwise, length⟩
  have words : (diagnostics.filter fun diagnostic => diagnostic.code.isAtWord).Pairwise
      fun first second => first.position.Before second.position := by
    rw [List.pairwise_filter]
    exact pairwise.imp fun precedes => precedes.words
  have atWord : ∀ diagnostic ∈ diagnostics, diagnostic.code.isAtWord = true →
      diagnostic ∈ diagnostics.filter fun diagnostic => diagnostic.code.isAtWord :=
    fun _ mem isAtWord => List.mem_filter.2 ⟨mem, isAtWord⟩
  refine ⟨words, ?_, ?_, ?_, ?_⟩
  · intro first firstMem second secondMem taken conflict same
    have places : ((diagnostics.filter fun diagnostic => diagnostic.code.isAtWord).map
        Diagnostic.position).Nodup :=
      List.pairwise_map.2 (words.imp Position.Before.ne)
    have equal := List.inj_on_of_nodup_map places (atWord first firstMem (taken ▸ rfl))
      (atWord second secondMem (conflict ▸ rfl)) same
    rw [equal, conflict] at taken
    cases taken
  · rw [List.pairwise_filter]
    refine pairwise.imp fun precedes => ?_
    intro first second
    exact precedes.lines (bne_iff_ne.1 first) (bne_iff_ne.1 second)
  · rw [List.Nodup, List.pairwise_map, List.pairwise_filter]
    exact pairwise.imp fun precedes => precedes.single
  · rwa [flatMap_words_ofText] at length

end NetDecl
