import NetDecl.Proofs.Compile.Diagnostics
import NetDecl.Proofs.LineMachine.Written

/-!
# Nets as texts

A net can be written as a text that declares it: compiling the text of a net yields the net.  This
holds for all nets that texts can declare.  The only diagnostics are warnings about edges that run
beside others.
-/

namespace NetDecl

/-- The text of a net ends behind its last line. -/
theorem Net.stop_text {net : Net} (spelled : net.Spelled) (wellFormed : net.WellFormed) :
    Text.stop net.text.toList = ⟨net.lines.length, 0⟩ := by
  obtain ⟨stop, rows⟩ := Row.exists_ofText_write (spelled.isWord_of_mem_lines wellFormed)
  have last := Row.getLast?_ofText net.text
  rw [Net.text, rows, List.getLast?_concat] at last
  exact (Option.some.inj last).symm

/-- Compiling the text of a net yields the net.  There is a warning about each edge that has its
ends in common with one before, and if there are none the text is a success. -/
theorem compile_text (options : Options) {net : Net} (faultless : net.faults = [])
    (spelled : net.Spelled) (filled : ∀ group ∈ net.groups, group.members ≠ [])
    (named : ∀ group ∈ net.groups, ∀ member ∈ net.members group,
      Text.sameWord member.id groupEnd = false) :
    (compile options net.text).net = net ∧
      (compile options net.text).diagnostics =
        if net.parallelWarnings.isEmpty then [.success ⟨net.lines.length, 0⟩]
        else net.parallelWarnings := by
  have wellFormed := Net.faults_eq_nil_iff_wellFormed.1 faultless
  have sound : net.Sound := by
    constructor
    · exact wellFormed
    · exact filled
    · intro group mem index listed node found
      exact named group mem node (List.mem_filterMap.2 ⟨index, listed, found⟩)
  rw [net_compile, diagnostics_compile, LineMachine.run_text options.effectiveMark sound spelled,
    Net.stop_text spelled wellFormed]
  exact ⟨rfl, rfl⟩

/-- A net with two edges side by side, read with a comment mark that its keywords begin with. -/
theorem compile_text_beside :
    let net : Net :=
      ⟨[⟨"a", "", some 0⟩, ⟨"b", "B", none⟩], [⟨"e", 0, 1, ""⟩, ⟨"f", 0, 1, "F"⟩],
        [⟨"g", "G", [0]⟩]⟩
    net.text = "node a\nnode b B\nedge e a b\nedge f a b F\ngroup g G\na\nendgroup\n" ∧
      (compile ⟨"n"⟩ net.text).net = net ∧
      (compile ⟨"n"⟩ net.text).diagnostics =
        [.ofCode .duplicateSourceTarget ⟨3, 0⟩ 12
          "edge with same source and target already exist f"] := by
  intro net
  have faultless : net.faults = [] := by decide
  have spelled : net.Spelled := ⟨by decide, by decide, by decide⟩
  have filled : ∀ group ∈ net.groups, group.members ≠ [] := by decide
  have named : ∀ group ∈ net.groups, ∀ member ∈ net.members group,
      Text.sameWord member.id groupEnd = false := by decide
  obtain ⟨declared, diagnostics⟩ := compile_text ⟨"n"⟩ faultless spelled filled named
  have warnings : net.parallelWarnings =
      [.ofCode .duplicateSourceTarget ⟨3, 0⟩ 12
        "edge with same source and target already exist f"] := by decide
  rw [warnings] at diagnostics
  exact ⟨by decide, declared, diagnostics⟩

end NetDecl
