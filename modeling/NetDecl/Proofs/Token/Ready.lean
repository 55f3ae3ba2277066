import NetDecl.Proofs.Text.Lines
import NetDecl.Proofs.Token.Pulls

/-!
# Between two tokens

A lexer that is ready has handed out all that it has read.  What it hands out next depends on the
characters in front of it: blanks within the line are passed over, a break ends the line, any other
character begins a word, and where nothing is left the text ends.  `Ready.induction` follows a lexer
over all its tokens in these four cases.
-/

namespace NetDecl.Lexer

/-- The lexer is between two tokens, and its line begins in the part that has been read. -/
structure Ready (lexer : Lexer) : Prop where
  queued : lexer.queued = none
  finished : lexer.finished = false
  closed : lexer.closed.size = lexer.line.index
  start_le : lexer.line.start ≤ lexer.offset

theorem ready_start (text : String) : (start text).Ready :=
  ⟨rfl, rfl, rfl, Nat.le_refl 0⟩

theorem Ready.pass {lexer : Lexer} (ready : lexer.Ready) (taken rest : List Char) :
    (lexer.pass taken rest).Ready :=
  ⟨ready.queued, ready.finished, ready.closed,
    Nat.le_trans ready.start_le (Nat.le_add_right _ _)⟩

theorem Ready.next?_eq {lexer : Lexer} (ready : lexer.Ready) :
    lexer.next? = some lexer.scan := by
  simp [next?, ready.queued, ready.finished]

/-! ## Blanks -/

theorem Ready.skipBlanks {lexer : Lexer} (ready : lexer.Ready) : lexer.skipBlanks.Ready :=
  ready.pass _ _

theorem skipBlanks_of_head? {lexer : Lexer}
    (head : ∀ char ∈ lexer.rest.head?, Text.isInlineBlank char = false) :
    lexer.skipBlanks = lexer := by
  obtain ⟨rest, offset, byteOffset, line, closed, queued, finished⟩ := lexer
  unfold Lexer.skipBlanks
  cases rest with
  | nil => rfl
  | cons char rest =>
    have notBlank := head char rfl
    simp [notBlank, Lexer.pass]

theorem isInlineBlank_head?_skipBlanks (lexer : Lexer) :
    ∀ char ∈ lexer.skipBlanks.rest.head?, Text.isInlineBlank char = false := by
  intro char mem
  have head := List.head?_dropWhile_not Text.isInlineBlank lexer.rest
  have skipped : lexer.rest.dropWhile Text.isInlineBlank = lexer.skipBlanks.rest := rfl
  rw [skipped, Option.mem_def.1 mem] at head
  simpa using head

theorem Ready.next?_skipBlanks {lexer : Lexer} (ready : lexer.Ready) :
    lexer.next? = lexer.skipBlanks.next? := by
  rw [ready.next?_eq, ready.skipBlanks.next?_eq]
  unfold scan
  rw [skipBlanks_of_head? lexer.isInlineBlank_head?_skipBlanks]

/-! ## The end of the text -/

theorem Ready.next?_of_rest_eq_nil {lexer : Lexer} (ready : lexer.Ready)
    (empty : lexer.rest = []) :
    lexer.next? = some (lexer.token .textEnd [],
      { lexer with line := lexer.closedLine, finished := true }) := by
  have skipped : lexer.skipBlanks = lexer :=
    skipBlanks_of_head? fun char mem => by
      rw [empty] at mem
      cases mem
  rw [ready.next?_eq]
  unfold scan lineEnd?
  rw [skipped]
  simp only [empty]

/-! ## Breaks -/

/-- The lexer at the start of the next line, behind the break. -/
def nextLine (lexer : Lexer) (lineBreak rest : List Char) : Lexer :=
  { lexer.pass lineBreak rest with
    line := ⟨lexer.line.index + 1, lexer.offset + lineBreak.length, 0⟩
    closed := lexer.closed.push lexer.closedLine }

theorem lineEnd?_of_splitBreak? {lexer : Lexer} {lineBreak rest : List Char}
    (split : Text.splitBreak? lexer.rest = some (lineBreak, rest)) :
    lexer.lineEnd? =
      some (lexer.token .lineEnd lineBreak, lexer.nextLine lineBreak rest) := by
  unfold lineEnd?
  split
  · rename_i empty
    rw [empty] at split
    cases split
  · rw [split]
    rfl

theorem Ready.nextLine {lexer : Lexer} (ready : lexer.Ready) (lineBreak rest : List Char) :
    (lexer.nextLine lineBreak rest).Ready :=
  ⟨ready.queued, ready.finished, by simp [Lexer.nextLine, ready.closed], Nat.le_refl _⟩

theorem Ready.next?_of_splitBreak? {lexer : Lexer} (ready : lexer.Ready)
    {lineBreak rest : List Char} (split : Text.splitBreak? lexer.rest = some (lineBreak, rest)) :
    lexer.next? = some (lexer.token .lineEnd lineBreak, lexer.nextLine lineBreak rest) := by
  have skipped : lexer.skipBlanks = lexer := by
    apply skipBlanks_of_head?
    intro char mem
    simp [Text.isInlineBlank, Text.isBreak_of_splitBreak? split mem]
  rw [ready.next?_eq]
  unfold scan
  rw [skipped]
  simp only [lineEnd?_of_splitBreak? split]

/-! ## Words -/

/-- The queue holds no more than what the lexer would read next. -/
theorem Ready.next?_word {lexer : Lexer} (ready : lexer.Ready) :
    lexer.word.2.next? =
      (lexer.pass (lexer.rest.takeWhile fun char => !Text.isBlank char)
        (lexer.rest.dropWhile fun char => !Text.isBlank char)).next? := by
  generalize passed : lexer.pass _ _ = after
  have afterReady : after.Ready := passed ▸ ready.pass _ _
  unfold word
  dsimp only
  rw [passed]
  split
  · rename_i lineEnd next found
    have unqueued := (finished_or_length_lt_of_lineEnd? found).1.trans afterReady.queued
    have atEnd : after.skipBlanks = after := by
      apply skipBlanks_of_head?
      intro char mem
      unfold lineEnd? at found
      split at found
      · rename_i empty
        rw [empty] at mem
        cases mem
      · obtain ⟨⟨lineBreak, rest⟩, split, -⟩ := Option.map_eq_some_iff.1 found
        have broken := Text.isBreak_of_splitBreak? split mem
        simp [Text.isInlineBlank, broken]
    rw [afterReady.next?_eq]
    unfold scan
    rw [atEnd]
    simp only [found, next?, ← unqueued]
  · rfl

/-- A lexer before a word hands out the word, and then what it would hand out behind the word. -/
theorem Ready.exists_next?_of_eq_append {lexer : Lexer} (ready : lexer.Ready)
    {run rest : List Char} (split : lexer.rest = run ++ rest) (nonempty : run ≠ [])
    (notBlank : ∀ char ∈ run, Text.isBlank char = false)
    (stopped : ∀ char ∈ rest.head?, Text.isBlank char = true) :
    ∃ next, lexer.next? = some (lexer.token .word run, next) ∧
      next.next? = (lexer.pass run rest).next? := by
  obtain ⟨char, tail, rfl⟩ := List.exists_cons_of_ne_nil nonempty
  have headNotBlank := notBlank char List.mem_cons_self
  have skipped : lexer.skipBlanks = lexer := by
    apply skipBlanks_of_head?
    intro other mem
    rw [split] at mem
    cases mem
    simp [Text.isInlineBlank, headNotBlank]
  have noEnd : lexer.lineEnd? = none := by
    unfold lineEnd?
    rw [split, List.cons_append]
    dsimp only
    rw [Option.map_eq_none_iff, Option.eq_none_iff_forall_not_mem]
    intro parts mem
    have broken := Text.isBreak_of_splitBreak? (Option.mem_def.1 mem) rfl
    rw [Text.isBreak_eq_false_of_isBlank_eq_false headNotBlank] at broken
    cases broken
  obtain ⟨taken, dropped⟩ := Text.takeWhile_not_isBlank notBlank stopped
  have word : lexer.word.1 = lexer.token .word (char :: tail) := by
    unfold Lexer.word
    rw [split, taken]
    dsimp only
    split <;> rfl
  have behind := ready.next?_word
  rw [split, taken, dropped] at behind
  refine ⟨lexer.word.2, ?_, behind⟩
  rw [ready.next?_eq, ← word]
  unfold scan
  rw [skipped]
  simp only [noEnd]

/-! ## Induction over the tokens -/

/-- Induction along the tokens of a lexer that is ready. -/
theorem Ready.induction {motive : Lexer → Prop}
    (textEnd : ∀ lexer : Lexer, lexer.Ready → lexer.rest = [] → motive lexer)
    (lineEnd : ∀ (lexer : Lexer) (lineBreak rest : List Char), lexer.Ready →
      Text.splitBreak? lexer.rest = some (lineBreak, rest) →
      motive (lexer.nextLine lineBreak rest) → motive lexer)
    (word : ∀ (lexer : Lexer) (run rest : List Char), lexer.Ready → lexer.rest = run ++ rest →
      run ≠ [] → (∀ char ∈ run, Text.isBlank char = false) →
      (∀ char ∈ rest.head?, Text.isBlank char = true) →
      motive (lexer.pass run rest) → motive lexer)
    (blanks : ∀ lexer : Lexer, lexer.Ready → motive lexer.skipBlanks → motive lexer)
    {lexer : Lexer} (ready : lexer.Ready) : motive lexer := by
  induction size : lexer.rest.length using Nat.strong_induction_on generalizing lexer with
  | _ size ih =>
    subst size
    have skippedReady := ready.skipBlanks
    have le := length_skipBlanks_le lexer
    have behind : ∀ after : Lexer, after.Ready →
        after.rest.length < lexer.skipBlanks.rest.length → motive after :=
      fun after afterReady shorter => ih _ (Nat.lt_of_lt_of_le shorter le) afterReady rfl
    apply blanks lexer ready
    cases front : lexer.skipBlanks.rest with
    | nil => exact textEnd _ skippedReady front
    | cons char chars =>
      cases broken : Text.isBreak char with
      | true =>
        obtain ⟨lineBreak, rest, split⟩ := Text.exists_splitBreak?_of_isBreak broken chars
        rw [← front] at split
        exact lineEnd _ lineBreak rest skippedReady split
          (behind _ (skippedReady.nextLine _ _) (Text.length_lt_of_splitBreak? split))
      | false =>
        have notInline := lexer.isInlineBlank_head?_skipBlanks char (by rw [front]; rfl)
        have notBlank : Text.isBlank char = false := by
          simpa [Text.isInlineBlank, broken] using notInline
        obtain ⟨run, rest, split, nonempty, runNotBlank, stopped⟩ :=
          Text.exists_eq_append_of_not_isBlank notBlank chars
        have shorter : rest.length < lexer.skipBlanks.rest.length := by
          rw [front, split, List.length_append]
          exact Nat.lt_add_of_pos_left (List.length_pos_iff.2 nonempty)
        exact word _ run rest skippedReady (front.trans split) nonempty runNotBlank stopped
          (behind _ (skippedReady.pass run rest) shorter)

end NetDecl.Lexer
