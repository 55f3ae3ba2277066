import NetDecl.Proofs.Compile.Diagnostics
import NetDecl.Proofs.LineMachine.Alike
import NetDecl.Proofs.Text.Whole

/-!
# Texts with rows that are alike

Texts whose rows are alike declare the same net, and their diagnostics are related one by one, the
success of a text without problems included.
-/

namespace NetDecl

open List (Forall₂)

variable {relation : Diagnostic → Diagnostic → Prop}

/-- Rows that have only been moved are alike if their diagnostics are related wherever they stand on
the line. -/
theorem Row.Moved.alike {count : Nat} {row moved : Row} (same : Row.Moved count row moved)
    (related : ∀ code column length message,
      relation (.ofCode code ⟨row.line.index, column⟩ length message)
        (.ofCode code ⟨row.line.index + count, column⟩ length message)) :
    row.Alike relation moved where
  line issue := by
    rw [Issue.atLine, Issue.atLine, Line.position, Line.position, same.index, same.length]
    exact related _ _ _ _
  words := by
    rw [same.words, List.forall₂_same]
    intro word _
    refine ⟨rfl, fun issue => ?_⟩
    rw [Row.flag, Row.flag, same.index]
    exact related _ _ _ _
  stop := by
    rw [Diagnostic.success, Diagnostic.success, Row.stop, Row.stop, same.index, same.length]
    exact related _ _ _ _

/-- The last rows of lists that are alike end the text in related places. -/
theorem relation_success {rows others : List Row}
    (same : Forall₂ (Row.Alike relation) rows others) {stop otherStop : Position}
    (last : rows.getLast?.map Row.stop = some stop)
    (otherLast : others.getLast?.map Row.stop = some otherStop) :
    relation (.success stop) (.success otherStop) := by
  induction same with
  | nil => cases last
  | cons row behind ih =>
    cases behind with
    | nil =>
      cases last
      cases otherLast
      exact row.stop
    | cons next others =>
      rw [List.getLast?_cons_cons] at last otherLast
      exact ih last otherLast

variable {options : Options} {text other : String}

/-- Texts on which the line machine ends alike have the same net and related diagnostics, provided
that their ends are related. -/
theorem compile_alike
    (alike : (LineMachine.run options.effectiveMark (Row.ofText text)).Alike relation [] []
      (LineMachine.run options.effectiveMark (Row.ofText other)))
    (last : relation (.success (Text.stop text.toList)) (.success (Text.stop other.toList))) :
    (compile options text).net = (compile options other).net ∧
      Forall₂ relation (compile options text).diagnostics (compile options other).diagnostics := by
  rcases alike.diagnostics with ⟨recorded, otherRecorded, same, otherSame, related⟩
  rw [net_compile, net_compile, diagnostics_compile, diagnostics_compile, same, otherSame,
    List.nil_append, List.nil_append]
  refine ⟨alike.net, ?_⟩
  cases related with
  | nil => exact .cons last .nil
  | cons first rest => exact .cons first rest

/-- Texts with rows that are alike have the same net and related diagnostics. -/
theorem compile_alike_of_rows
    (same : Forall₂ (Row.Alike relation) (Row.ofText text) (Row.ofText other)) :
    (compile options text).net = (compile options other).net ∧
      Forall₂ relation (compile options text).diagnostics (compile options other).diagnostics := by
  have start := LineMachine.State.Alike.start relation
  apply compile_alike (start.runFrom same options.effectiveMark)
  exact relation_success same (Row.getLast?_ofText text) (Row.getLast?_ofText other)

end NetDecl
