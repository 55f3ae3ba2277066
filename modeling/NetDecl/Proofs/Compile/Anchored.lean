import NetDecl.Proofs.Compile.Diagnostics
import NetDecl.Proofs.LineMachine.Anchored
import NetDecl.Proofs.Text.Runs

/-!
# Where diagnostics point

A diagnostic about a word points at that word: its position and its length cut one whole word out of
the line that it names, and its message names the same word.
-/

namespace NetDecl

/-- The message is the one that diagnostics with the code have if they are about the word. -/
def Code.Says (word message : String) : Code → Prop
  | duplicatedId => ∃ part : Part, message = "duplicated " ++ part.word ++ " " ++ word
  | idConflict => message = "group id conflicts with node id: " ++ word
  | nodeNotFound => ∃ role : Role, message = role.words ++ " " ++ word ++ " not found"
  | anotherGroup =>
      ∃ owner, message = "node " ++ word ++ " already belongs to another group " ++ owner
  | tokenDiscarded => message = "discard token " ++ word
  | duplicateGroupAssignment =>
      ∃ owner, message = "node " ++ word ++ " already assigned to " ++ owner
  | success | invalidLineStart | insufficientParameter | groupDiscarded
  | duplicateSourceTarget => False

theorem Issue.says_message {issue : Issue} {word : String} (about : issue.word? = some word) :
    issue.code.Says word issue.message := by
  cases issue with
  | duplicated part id =>
    cases about
    exact ⟨part, rfl⟩
  | conflicting id =>
    cases about
    rfl
  | notFound role id =>
    cases about
    exact ⟨role, rfl⟩
  | discarded discardedWord =>
    cases about
    rfl
  | foreign node group =>
    cases about
    exact ⟨group, rfl⟩
  | listedAgain node group =>
    cases about
    exact ⟨group, rfl⟩
  | unexpected | insufficient | memberless | parallel => cases about

/-- The diagnostics of a text are about its rows, but for its success. -/
theorem isSuccess_or_isAbout_compile {options : Options} {text : String} {diagnostic : Diagnostic}
    (mem : diagnostic ∈ (compile options text).diagnostics) :
    diagnostic = .success (Text.stop text.toList) ∨ diagnostic.IsAbout (Row.ofText text) := by
  rw [diagnostics_compile] at mem
  split at mem
  · exact .inl (List.mem_singleton.1 mem)
  · exact .inr (LineMachine.isAbout_of_mem_run mem)

/-- The place of a word cuts the word out of its line. -/
theorem Row.cut_word {text : String} {row : Row} {word : Word} (rowMem : row ∈ Row.ofText text)
    (wordMem : word ∈ row.words) :
    ∃ raw, (Text.splitLines text.toList)[row.line.index]? = some raw ∧
      (raw.content.drop word.column).take word.text.length = word.text.toList ∧
      Text.IsRun (raw.content.take word.column) word.text.toList
        (raw.content.drop (word.column + word.text.length)) := by
  rcases Row.exists_line_of_mem_ofText rowMem with ⟨raw, found, -, words⟩
  rw [words] at wordMem
  rcases Text.exists_isRun_of_mem_words wordMem with ⟨front, back, split, place, isRun⟩
  rw [Nat.zero_add] at place
  refine ⟨raw, found, ?_, ?_⟩
  · rw [split, place, List.drop_left, ← String.length_toList, List.take_left]
  · have taken : raw.content.take word.column = front := by
      rw [split, place, List.take_left]
    have left : raw.content.drop (word.column + word.text.length) = back := by
      rw [split, place, ← String.length_toList, ← List.append_assoc, ← List.length_append,
        List.drop_left]
    rwa [taken, left]

/-- Whatever the text, a diagnostic about a word points at one whole word of the line that it names,
and its message is that of its code with this word in it. -/
theorem points_at_word (options : Options) (text : String) (diagnostic : Diagnostic)
    (recorded : diagnostic ∈ (compile options text).diagnostics)
    (atWord : diagnostic.code.isAtWord = true) :
    ∃ raw, (Text.splitLines text.toList)[diagnostic.position.line]? = some raw ∧
      let column := diagnostic.position.column
      let word := (raw.content.drop column).take diagnostic.length
      word.length = diagnostic.length ∧
        Text.IsRun (raw.content.take column) word (raw.content.drop (column + diagnostic.length)) ∧
        diagnostic.code.Says (String.ofList word) diagnostic.message := by
  rcases isSuccess_or_isAbout_compile recorded with rfl | about
  · cases atWord
  cases about with
  | @word row word issue rowMem wordMem about equal =>
    subst equal
    rcases Row.cut_word rowMem wordMem with ⟨raw, found, cut, isRun⟩
    refine ⟨raw, found, ?_⟩
    dsimp only [Row.flag, Diagnostic.ofCode]
    rw [cut, String.length_toList, String.ofList_toList]
    exact ⟨rfl, isRun, issue.says_message about⟩
  | @line row issue rowMem about equal =>
    subst equal
    rw [row.isAtWord_atLine about] at atWord
    cases atWord

/-- A word of characters that take two bytes each, on a line that follows a carriage return with a
line feed and that begins with a no-break space. -/
theorem points_at_word_beyond_ascii :
    let text := "node α\r\n\u00a0edge e α\u0085ßß L"
    let diagnostic := Diagnostic.ofCode .nodeNotFound ⟨1, 10⟩ 2 "target ßß not found"
    diagnostic ∈ (compile .standard text).diagnostics ∧ diagnostic.code.isAtWord = true ∧
      ∃ raw, (Text.splitLines text.toList)[diagnostic.position.line]? = some raw ∧
        let column := diagnostic.position.column
        let word := (raw.content.drop column).take diagnostic.length
        word.length = diagnostic.length ∧
          Text.IsRun (raw.content.take column) word
            (raw.content.drop (column + diagnostic.length)) ∧
          diagnostic.code.Says (String.ofList word) diagnostic.message := by
  intro text diagnostic
  have recorded : diagnostic ∈ (compile .standard text).diagnostics := by decide +kernel
  exact ⟨recorded, rfl, points_at_word .standard text diagnostic recorded rfl⟩

end NetDecl
