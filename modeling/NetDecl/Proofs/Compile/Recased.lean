import NetDecl.Proofs.Compile.Keywords
import NetDecl.Proofs.Text.Recased
import NetDecl.Proofs.Text.Runs
import NetDecl.Proofs.Token.Words

/-!
# The case of keywords

The same spelling can be a keyword in one place of a text, and an id, a label or the name of a
member in another.  Only where it is taken for a keyword, its case does not matter: a text whose
keywords are put into another case compiles to the same net, with the same diagnostics at the same
places, and so it does with a comment mark in another case.
-/

namespace NetDecl

open LineMachine (State RespelledRow)

/-! ## Comment marks -/

theorem Text.isWord_congr {word other : String} (same : sameWord word other = true) :
    IsWord other ↔ IsWord word := by
  have back : sameLetters other.toList word.toList = true :=
    beq_iff_eq.2 (beq_iff_eq.1 same).symm
  rw [IsWord, IsWord, ← List.length_pos_iff, ← List.length_pos_iff, length_eq_of_sameLetters same]
  exact and_congr_right' ⟨not_isBlank_of_sameLetters back, not_isBlank_of_sameLetters same⟩

namespace Options

theorem effectiveMark_eq (options : Options) :
    options.effectiveMark =
      if Text.IsWord options.commentMark then options.commentMark else defaultMark := by
  rcases options.defect?_cases with ⟨empty, found⟩ | ⟨-, blank, found⟩ | ⟨nonempty, clean, found⟩
  · rw [effectiveMark, found, if_neg]
    exact fun isWord => isWord.1 (String.toList_eq_nil_iff.2 empty)
  · rw [effectiveMark, found, if_neg]
    exact fun isWord => blank isWord.2
  · rw [effectiveMark, found, if_pos]
    exact ⟨fun empty => nonempty (String.toList_eq_nil_iff.1 empty), clean⟩

theorem sameWord_effectiveMark {options other : Options}
    (same : Text.sameWord options.commentMark other.commentMark = true) :
    Text.sameWord options.effectiveMark other.effectiveMark = true := by
  simp only [effectiveMark_eq, Text.isWord_congr same]
  split
  · exact same
  · exact Text.sameWord_self _

end Options

/-! ## Keywords in another case -/

/-- The place is that of a character of a keyword. -/
def InKeyword (options : Options) (text : String) (place : Nat) : Prop :=
  ∃ token ∈ keywords options text, token.Covers place

instance (options : Options) (text : String) : DecidablePred (InKeyword options text) :=
  fun place => inferInstanceAs (Decidable (∃ token ∈ keywords options text, token.Covers place))

section Rows

variable {options : Options} {text : String} {row other : Row}

theorem Row.nodup_words (mem : row ∈ ofText text) : row.words.Nodup := by
  rcases exists_mem_words_of_mem_number mem with ⟨chars, words⟩
  rw [words]
  apply (Text.pairwise_words 0 chars).imp
  rintro first second before rfl
  exact Nat.lt_irrefl _ before

/-- Within a row only the word changes that the machine takes for a keyword. -/
theorem respelledRow_of_recased {passed rest : List Row}
    (split : Row.ofText text = passed ++ row :: rest)
    (recased : row.Recased (InKeyword options text) other) :
    RespelledRow
      ((passed.foldl (State.step options.effectiveMark) State.start).mode.keyword? row.words)
      row other := by
  refine ⟨recased.line, ?_⟩
  have inRow := (List.forall₂_and_left _ _).2 ⟨fun word (mem : word ∈ row.words) => mem,
    recased.words⟩
  apply inRow.imp
  rintro word otherWord ⟨wordMem, column, letters⟩
  have rowMem : row ∈ Row.ofText text := by
    rw [split]
    exact List.mem_append_right _ List.mem_cons_self
  rcases Row.exists_isTokenOn rowMem wordMem with ⟨token, tokenMem, isToken⟩
  -- A keyword with a character of the word is the token of the word, so either that is a keyword or
  -- no character of the word may change.
  by_cases isKeyword : token ∈ keywords options text
  · right
    refine ⟨?_, letters.sameLetters⟩
    rcases (takesKeyword_of_mem_keywords isKeyword).1 with
      ⟨otherPassed, otherRow, otherRest, taken, otherSplit, takes, takenIsToken⟩
    rcases isToken.isToken.unique takenIsToken with ⟨rfl, index⟩
    rcases Row.eq_of_index_eq split otherSplit index with ⟨rfl, rfl⟩
    exact takes
  · left
    have same : otherWord.text.toList = word.text.toList := by
      apply letters.eq_of_not_loose
      rintro place le lt ⟨keyword, keywordMem, covers⟩
      have here : token.Covers place := isToken.covers_iff.2 ⟨le, lt⟩
      rw [here.unique covers tokenMem (takesKeyword_of_mem_keywords keywordMem).2] at isKeyword
      exact isKeyword keywordMem
    cases word
    cases otherWord
    cases column
    cases String.toList_inj.1 same
    rfl

end Rows

/-- Keywords and the comment mark can be put into another case. -/
theorem compile_of_recased {options otherOptions : Options} {text other : String}
    (mark : Text.sameWord options.commentMark otherOptions.commentMark = true)
    (recased : Text.Recased (InKeyword options text) 0 text.toList other.toList) :
    compile otherOptions other = compile options text := by
  have rows := Row.recased_ofText recased
  have run : LineMachine.run otherOptions.effectiveMark (Row.ofText other) =
      LineMachine.run options.effectiveMark (Row.ofText text) := by
    apply congrArg State.finish
    exact LineMachine.foldl_step_respelled (Options.sameWord_effectiveMark mark) rows
      (fun split alike => respelledRow_of_recased split alike) fun row mem => Row.nodup_words mem
  have lines : (Row.ofText other).map Row.line = (Row.ofText text).map Row.line := by
    rw [← List.forall₂_eq_eq_eq, List.forall₂_map_left_iff, List.forall₂_map_right_iff]
    exact rows.flip.imp fun _ _ alike => alike.line
  have last (rows : List Row) : rows.getLast?.map (fun row => Diagnostic.success row.stop) =
      (rows.map Row.line).getLast?.map fun line => .success ⟨line.index, line.length⟩ := by
    rw [List.getLast?_map, Option.map_map]
    rfl
  rw [compile_eq_lineMachine, compile_eq_lineMachine]
  simp only [LineMachine.compile, run, last, lines]

/-- The word `node` is a keyword, an id, a label and a member here, and the first `endgroup` is an
id.  Only the keywords are put into another case, and so is the mark. -/
theorem compile_of_recased_keywords :
    let text := "node node Node\nnode endgroup\nGROUP group\nnode nobody ENDgroup end\nREM x"
    let other := "NODE node Node\nNode endgroup\ngroup group\nnode nobody EndGroup end\nREM x"
    compile ⟨"rem"⟩ other = compile ⟨"Rem"⟩ text ∧
      (compile ⟨"Rem"⟩ text).net.size = 3 ∧
      (compile ⟨"Rem"⟩ text).diagnostics.map Diagnostic.message =
        ["group node nobody not found", "discard token end"] := by
  refine ⟨compile_of_recased ?_ ?_, ?_, ?_⟩
  · decide +kernel
  · decide +kernel
  · decide +kernel
  · decide +kernel

end NetDecl
