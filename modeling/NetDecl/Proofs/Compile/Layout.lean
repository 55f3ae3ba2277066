import NetDecl.Proofs.Compile.Alike
import NetDecl.Proofs.Text.Rebroken
import NetDecl.Proofs.Token.Layout

/-!
# Texts that are laid out differently

The line breaks of a text have no bearing on the outcome.  The blanks between the words of a line
have none on the net, and on a diagnostic only as to its column and its length.
-/

namespace NetDecl

open List (Forall₂)

/-! ## Line breaks -/

/-- Line feeds can be replaced by other breaks without any bearing on the outcome. -/
theorem compile_rebroken (options : Options) {text other : String} (plain : '\r' ∉ text.toList)
    (rebroken : Text.Rebroken text.toList other.toList) :
    compile options other = compile options text := by
  have moved := Row.forall₂_moved_number (rebroken.map_content_splitLines plain) 0 0 0 0
  have same : Forall₂ (Row.Alike Eq) (Row.ofText other) (Row.ofText text) :=
    moved.imp fun _ _ row => row.alike fun _ _ _ _ => rfl
  rcases compile_alike_of_rows same with ⟨net, diagnostics⟩
  rw [List.forall₂_eq_eq_eq] at diagnostics
  cases found : compile options other
  cases expected : compile options text
  rw [found, expected] at net diagnostics
  rw [Outcome.mk.injEq]
  exact ⟨net, diagnostics⟩

/-- Of three line feeds, two are replaced by a carriage return and one by both. -/
theorem compile_rebroken_mixed :
    '\r' ∉ "a\n\nb\n".toList ∧ Text.Rebroken "a\n\nb\n".toList "a\r\r\nb\r".toList ∧
      compile .standard "a\r\r\nb\r" = compile .standard "a\n\nb\n" := by
  have plain : '\r' ∉ "a\n\nb\n".toList := by decide
  have rebroken : Text.Rebroken "a\n\nb\n".toList "a\r\r\nb\r".toList :=
    .keep (by decide) (.carriageReturn (by decide)
      (.both (.keep (by decide) (.carriageReturn (by decide) .nil))))
  exact ⟨plain, rebroken, compile_rebroken .standard plain rebroken⟩

-- A carriage return in front of a line feed that has been left makes one break of two.
example : compile .standard "\r\n" ≠ compile .standard "\n\n" := by
  decide +kernel

/-! ## Blanks -/

/-- The diagnostics differ at most in their columns and lengths. -/
structure Diagnostic.Agrees (diagnostic other : Diagnostic) : Prop where
  severity : diagnostic.severity = other.severity
  code : diagnostic.code = other.code
  line : diagnostic.position.line = other.position.line
  message : diagnostic.message = other.message

/-- Rows with the same words give rise to diagnostics that agree. -/
theorem Row.SameWords.alike {row other : Row} (same : row.SameWords other) :
    row.Alike Diagnostic.Agrees other where
  line _ := ⟨rfl, rfl, same.index, rfl⟩
  words := by
    have texts := same.texts
    rw [Row.texts, Row.texts, ← List.forall₂_eq_eq_eq, List.forall₂_map_left_iff,
      List.forall₂_map_right_iff] at texts
    exact texts.imp fun _ _ text => ⟨text, fun _ => ⟨rfl, rfl, same.index, rfl⟩⟩
  stop := ⟨rfl, rfl, same.index, rfl⟩

/-- Only the words of each line matter: texts whose tokens are of the same kinds and have the same
words declare the same net, and their diagnostics agree one by one. -/
theorem compile_of_agrees (options : Options) {text other : String}
    (agree : Forall₂ Token.Agrees (tokenize text) (tokenize other)) :
    (compile options text).net = (compile options other).net ∧
      Forall₂ Diagnostic.Agrees (compile options text).diagnostics
        (compile options other).diagnostics := by
  apply compile_alike_of_rows
  exact (Row.forall₂_sameWords_ofText agree).imp fun _ _ row => row.alike

/-- A text is indented and broken differently, and its words are separated by other blanks. -/
theorem compile_of_agrees_indented :
    Forall₂ Token.Agrees (tokenize "node a\nwat b\n") (tokenize "\tnode\u00a0 a \r\n  wat b\r") ∧
      (compile .standard "node a\nwat b\n").net =
        (compile .standard "\tnode\u00a0 a \r\n  wat b\r").net := by
  have agree : Forall₂ Token.Agrees (tokenize "node a\nwat b\n")
      (tokenize "\tnode\u00a0 a \r\n  wat b\r") := by
    decide +kernel
  exact ⟨agree, (compile_of_agrees .standard agree).1⟩

end NetDecl
