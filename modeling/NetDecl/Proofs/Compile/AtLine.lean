import NetDecl.Proofs.Compile.Visits
import NetDecl.Proofs.Text.Runs

/-!
# Diagnostics about lines

A diagnostic about a line covers the line from its first character to its last, blanks at both ends
included.  It is recorded by the turn that begins with the first word of that line, and this word is
the keyword of the declaration that has the issue, or the word that declares nothing.  For a group
without members the turn ends many lines later, or with the text.
-/

namespace NetDecl

/-- Whatever the text, a diagnostic about a line is recorded by a turn that begins with the first
word of the line, and this line is what the issue is about.  The diagnostic begins at column zero
and is as long as the whole line up to its break or to the end of the text, and never empty. -/
theorem covers_line (options : Options) (text : String) (diagnostic : Diagnostic)
    (recorded : diagnostic ∈ (compile options text).diagnostics)
    (atLine : diagnostic.code.isAtLine = true) :
    ∃ session ∈ (Session.start text).turns options.effectiveMark,
      session.Records options.effectiveMark diagnostic ∧
        ∃ keyword raw, ∃ issue : Issue,
          session.advance.cursor.current = some keyword ∧
            (Text.splitLines text.toList)[keyword.line]? = some raw ∧
            (Text.words 0 raw.content).head?.map Word.text = some keyword.text ∧
            issue.IsCausedBy options.effectiveMark (Text.words 0 raw.content) ∧
            diagnostic.code = issue.code ∧ diagnostic.message = issue.message ∧
            diagnostic.position = ⟨keyword.line, 0⟩ ∧
            diagnostic.length = raw.content.length ∧ 0 < diagnostic.length := by
  have problem : diagnostic.code ≠ .success := by
    intro success
    rw [success] at atLine
    cases atLine
  rcases exists_source_of_mem_compile recorded problem with
    ⟨session, visited, records, row, rest, before, suffix, source⟩
  refine ⟨session, visited, records, ?_⟩
  rcases source.exists_isCausedBy atLine with ⟨issue, caused, rfl⟩
  rcases caused.exists_eq_cons with ⟨first, words, split⟩
  rcases before.current_advance split with ⟨keyword, isToken, pulled⟩
  rcases Row.exists_line_of_mem_ofText (suffix.subset List.mem_cons_self) with
    ⟨raw, found, length, rawWords⟩
  have line := isToken.line_eq
  refine ⟨keyword, raw, issue, pulled, line ▸ found, ?_, rawWords ▸ caused, rfl, rfl, ?_, length,
    ?_⟩
  · rw [← rawWords, split, isToken.text]
    rfl
  · rw [line]
    rfl
  · change 0 < row.line.length
    rw [length, List.length_pos_iff]
    intro empty
    rw [rawWords, empty, Text.words_nil] at split
    cases split

/-- A group without members behind a no-break space, on a line that ends in blanks before a carriage
return with a line feed; its body is cut off by the end of the text. -/
theorem covers_line_of_cutOff :
    let text := "\u00a0group g L  \r\n x"
    let diagnostic := Diagnostic.ofCode .groupDiscarded ⟨0, 0⟩ 12
      "group g contains no nodes and is discarded"
    diagnostic ∈ (compile .standard text).diagnostics ∧ diagnostic.code.isAtLine = true ∧
      ∃ session ∈ (Session.start text).turns Options.standard.effectiveMark,
        session.Records Options.standard.effectiveMark diagnostic ∧
          ∃ keyword raw, ∃ issue : Issue,
            session.advance.cursor.current = some keyword ∧
              (Text.splitLines text.toList)[keyword.line]? = some raw ∧
              (Text.words 0 raw.content).head?.map Word.text = some keyword.text ∧
              issue.IsCausedBy Options.standard.effectiveMark (Text.words 0 raw.content) ∧
              diagnostic.code = issue.code ∧ diagnostic.message = issue.message ∧
              diagnostic.position = ⟨keyword.line, 0⟩ ∧
              diagnostic.length = raw.content.length ∧ 0 < diagnostic.length := by
  intro text diagnostic
  have recorded : diagnostic ∈ (compile .standard text).diagnostics := by decide +kernel
  exact ⟨recorded, rfl, covers_line .standard text diagnostic recorded rfl⟩

end NetDecl
