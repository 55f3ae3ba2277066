import NetDecl.Compile
import NetDecl.Proofs.Token.Exact

/-!
# Comment marks that are of use

The words of a text hold no blanks, and letters that agree up to case are blanks together or not at
all.  So no word begins with a mark that holds a blank, while any other mark is a word of some text.
The marks that are reported as defective are those that no word could match, and the empty mark,
which every word would match; a text is read with the default mark in their place.
-/

namespace NetDecl

namespace Text

theorem isBlank_toLower (char : Char) : isBlank char.toLower = isBlank char := by
  by_cases upper : 'A' ≤ char ∧ char ≤ 'Z'
  · have letters : ∀ number < 26,
        isBlank (Char.ofNat (65 + number)).toLower = isBlank (Char.ofNat (65 + number)) := by
      decide
    have low : 65 ≤ char.toNat := upper.1
    have high : char.toNat ≤ 90 := upper.2
    have same := letters (char.toNat - 65) (by omega)
    rwa [Nat.add_sub_cancel' low, Char.ofNat_toNat] at same
  · rw [toLower_eq_self upper]

/-- Letters that agree up to case are blanks together. -/
theorem not_isBlank_of_sameLetters {left right : List Char} (same : sameLetters left right = true)
    (notBlank : ∀ char ∈ left, isBlank char = false) : ∀ char ∈ right, isBlank char = false := by
  intro char mem
  have lowered : char.toLower ∈ left.map Char.toLower := by
    rw [beq_iff_eq.1 same]
    exact List.mem_map_of_mem mem
  rcases List.mem_map.1 lowered with ⟨other, otherMem, equal⟩
  rw [← isBlank_toLower, ← equal, isBlank_toLower]
  exact notBlank other otherMem

/-- A word without blanks begins with such marks only. -/
theorem Blankless.of_beginsWith {word mark : String} (blankless : Blankless word)
    (begins : beginsWith word mark = true) : Blankless mark := by
  rw [beginsWith_eq] at begins
  exact not_isBlank_of_sameLetters begins fun char mem => blankless char (List.mem_of_mem_take mem)

theorem beginsWith_self (word : String) : beginsWith word word = true := by
  rw [beginsWith_eq, List.take_length]
  exact beq_self_eq_true _

end Text

/-! ## Words of texts -/

theorem Token.isWord_iff {token : Token} : token.isWord = true ↔ token.kind = .word :=
  beq_iff_eq

theorem blankless_of_mem_tokenize {text : String} {token : Token} (mem : token ∈ tokenize text)
    (isWord : token.isWord = true) : Text.Blankless token.text := by
  rcases (tiles_tokenize text).fits_of_mem token mem with ⟨front, taken, back, -, spans, fits⟩
  rw [Token.isWord_iff.1 isWord] at fits
  rw [spans.text, Text.Blankless, String.toList_ofList]
  exact fits.inside

/-- A word is the only word of the text that it makes up. -/
theorem exists_mem_tokenize_self {word : String} (isWord : Text.IsWord word) :
    ∃ token ∈ tokenize word, token.isWord = true ∧ token.text = word := by
  have fits : Token.Kind.word.Fits [] word.toList [] := by
    constructor
    · exact isWord.1
    · exact isWord.2
    · exact fun _ mem => nomatch mem
    · exact fun _ mem => nomatch mem
  have whole : word.toList = [] ++ (word.toList ++ []) := (List.append_nil _).symm
  rcases (tiles_tokenize word).exists_mem_of_fits whole fits with ⟨token, mem, kind, spans⟩
  refine ⟨token, mem, Token.isWord_iff.2 kind, ?_⟩
  rw [spans.text, String.ofList_toList]

namespace Options

/-! ## Defects -/

/-- Some text has a word that begins with the comment mark. -/
def CanMatch (options : Options) : Prop :=
  ∃ text, ∃ token ∈ tokenize text,
    token.isWord = true ∧ token.beginsWith options.commentMark = true

variable {options : Options}

/-- A mark that is not empty begins a word exactly if it holds no blank; it is such a word itself
then. -/
theorem canMatch_iff (nonempty : options.commentMark ≠ "") :
    options.CanMatch ↔ Text.Blankless options.commentMark := by
  constructor
  · rintro ⟨text, token, mem, isWord, begins⟩
    rw [Token.beginsWith, isWord, Bool.true_and] at begins
    exact (blankless_of_mem_tokenize mem isWord).of_beginsWith begins
  · intro blankless
    have isWord : Text.IsWord options.commentMark :=
      ⟨fun empty => nonempty (String.toList_eq_nil_iff.1 empty), blankless⟩
    rcases exists_mem_tokenize_self isWord with ⟨token, mem, tokenIsWord, same⟩
    refine ⟨options.commentMark, token, mem, tokenIsWord, ?_⟩
    rw [Token.beginsWith, tokenIsWord, same, Text.beginsWith_self, Bool.and_self]

/-- The defect is decided by whether the mark is empty, and then by whether it holds a blank. -/
theorem defect?_cases (options : Options) :
    (options.commentMark = "" ∧ options.defect? = some .emptyMark) ∨
      (options.commentMark ≠ "" ∧ ¬Text.Blankless options.commentMark ∧
        options.defect? = some (.blankInMark options.commentMark)) ∨
      (options.commentMark ≠ "" ∧ Text.Blankless options.commentMark ∧ options.defect? = none) := by
  unfold defect?
  split
  · rename_i empty
    exact .inl ⟨String.toList_eq_nil_iff.1 (List.isEmpty_iff.1 empty), rfl⟩
  · rename_i filled
    have nonempty : options.commentMark ≠ "" := by
      intro empty
      rw [empty] at filled
      exact filled rfl
    right
    split
    · rename_i blank
      refine .inl ⟨nonempty, ?_, rfl⟩
      intro blankless
      rcases List.any_eq_true.1 blank with ⟨char, mem, isBlank⟩
      rw [blankless char mem] at isBlank
      cases isBlank
    · rename_i clean
      refine .inr ⟨nonempty, ?_, rfl⟩
      intro char mem
      rw [← Bool.not_eq_true]
      intro isBlank
      exact clean (List.any_eq_true.2 ⟨char, mem, isBlank⟩)

theorem effectiveMark_of_defect (defective : options.defect? ≠ none) :
    options.effectiveMark = standard.effectiveMark := by
  rcases Option.ne_none_iff_exists'.1 defective with ⟨defect, found⟩
  rw [effectiveMark, found]
  rfl

/-- The mark that counts is all that compiling depends on. -/
theorem compile_congr {other : Options} (same : options.effectiveMark = other.effectiveMark)
    (text : String) : compile options text = compile other text := by
  rw [compile, compile, same]

/-- An empty mark is reported as empty.  Any other mark is reported as having a blank exactly if it
begins no word of any text, and not at all otherwise.  With a mark that is reported, every text is
compiled as with the default mark. -/
theorem defect?_exact (options : Options) :
    (options.defect? = some .emptyMark ↔ options.commentMark = "") ∧
      (options.commentMark ≠ "" →
        (options.defect? = some (.blankInMark options.commentMark) ↔ ¬options.CanMatch) ∧
          (options.defect? = none ↔ options.CanMatch)) ∧
      (options.defect? ≠ none → ∀ text, compile options text = compile ⟨"//"⟩ text) := by
  have default : options.defect? ≠ none → ∀ text, compile options text = compile ⟨"//"⟩ text :=
    fun defective => compile_congr (effectiveMark_of_defect defective)
  rcases options.defect?_cases with ⟨empty, found⟩ | ⟨nonempty, blank, found⟩ |
    ⟨nonempty, clean, found⟩
  · exact ⟨iff_of_true found empty, fun nonempty => absurd empty nonempty, default⟩
  · refine ⟨iff_of_false ?_ nonempty, fun _ => ?_, default⟩
    · rw [found]
      exact fun same => nomatch same
    · rw [canMatch_iff nonempty, found]
      exact ⟨iff_of_true rfl blank, iff_of_false (Option.some_ne_none _) blank⟩
  · refine ⟨iff_of_false ?_ nonempty, fun _ => ?_, default⟩
    · rw [found]
      exact fun same => nomatch same
    · rw [canMatch_iff nonempty, found]
      exact ⟨iff_of_false (fun same => nomatch same) (not_not_intro clean), iff_of_true rfl clean⟩

/-- A mark that ends in a no-break space begins no word, and texts are compiled as with the default
mark.  The wider em space is no blank: a mark may end in it. -/
theorem defect?_exact_of_spaces :
    (¬(Options.mk "#\u00a0").CanMatch ∧
      ∀ text, compile ⟨"#\u00a0"⟩ text = compile ⟨"//"⟩ text) ∧
      (Options.mk "#\u2003").CanMatch := by
  have narrow := defect?_exact ⟨"#\u00a0"⟩
  have wide := defect?_exact ⟨"#\u2003"⟩
  have reported : (Options.mk "#\u00a0").defect? = some (.blankInMark "#\u00a0") := by decide
  have unreported : (Options.mk "#\u2003").defect? = none := by decide
  refine ⟨⟨?_, ?_⟩, ?_⟩
  · exact (narrow.2.1 (by decide)).1.1 reported
  · exact narrow.2.2 (by rw [reported]; exact Option.some_ne_none _)
  · exact (wide.2.1 (by decide)).2.1 unreported

end Options

end NetDecl
