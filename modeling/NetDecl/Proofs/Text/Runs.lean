import NetDecl.Proofs.Token.Pieces
import NetDecl.Proofs.Token.Rows

/-!
# Where words stand

A word of a line is a maximal run of characters that are not blank, and its column tells how many
characters are in front of the run.  So the words of a line stand in the order of their columns, and
each can be cut out of the line again.  A row has the words of the line with its number.
-/

namespace NetDecl

namespace Text

theorem le_column_of_mem_words {word : Word} {column : Nat} {chars : List Char}
    (mem : word ∈ words column chars) : column ≤ word.column := by
  fun_induction words column chars with
  | case1 => cases mem
  | case2 column char rest blank ih => exact Nat.le_of_succ_le (ih mem)
  | case3 column char rest notBlank run ih =>
    rcases List.mem_cons.1 mem with rfl | mem
    · exact Nat.le_refl column
    · exact Nat.le_trans (Nat.le_add_right column run.length) (ih mem)

/-- The words of a line stand one behind another. -/
theorem pairwise_words (column : Nat) (chars : List Char) :
    (words column chars).Pairwise fun first second => first.column < second.column := by
  fun_induction words column chars with
  | case1 => exact .nil
  | case2 column char rest blank ih => exact ih
  | case3 column char rest notBlank run ih =>
    apply List.Pairwise.cons _ ih
    intro second mem
    have behind := le_column_of_mem_words mem
    have nonempty : 0 < run.length := Nat.succ_pos _
    exact Nat.lt_of_lt_of_le (Nat.lt_add_of_pos_right nonempty) behind

theorem IsRun.cons_of_isBlank {front run back : List Char} (isRun : IsRun front run back)
    {char : Char} (blank : isBlank char = true) : IsRun (char :: front) run back := by
  refine ⟨isRun.nonempty, isRun.inside, ?_, isRun.behind⟩
  intro other mem
  cases front with
  | nil =>
    cases mem
    exact blank
  | cons first front =>
    rw [List.getLast?_cons_cons] at mem
    exact isRun.before other mem

/-- A run does not begin directly behind another. -/
theorem IsRun.append_of_isBlank {front run back : List Char} (isRun : IsRun front run back)
    (stopped : ∀ char ∈ (front ++ (run ++ back)).head?, isBlank char = true) (first : List Char) :
    IsRun (first ++ front) run back := by
  refine ⟨isRun.nonempty, isRun.inside, ?_, isRun.behind⟩
  intro other mem
  rcases List.exists_cons_of_ne_nil isRun.nonempty with ⟨char, rest, rfl⟩
  have notBlank := isRun.inside char List.mem_cons_self
  cases front with
  | nil =>
    have blank := stopped char rfl
    rw [notBlank] at blank
    cases blank
  | cons next front =>
    rw [List.getLast?_append_of_ne_nil _ (List.cons_ne_nil next front)] at mem
    exact isRun.before other mem

/-- A word is a run of the line, behind as many characters as its column tells. -/
theorem exists_isRun_of_mem_words {word : Word} {column : Nat} {chars : List Char}
    (mem : word ∈ words column chars) :
    ∃ front back, chars = front ++ (word.text.toList ++ back) ∧
      word.column = column + front.length ∧ IsRun front word.text.toList back := by
  fun_induction words column chars with
  | case1 => cases mem
  | case2 column char rest blank ih =>
    rcases ih mem with ⟨front, back, rfl, place, isRun⟩
    refine ⟨char :: front, back, rfl, ?_, isRun.cons_of_isBlank blank⟩
    rw [place, List.length_cons]
    omega
  | case3 column char rest notBlank run ih =>
    have charNotBlank : isBlank char = false := by simpa using notBlank
    have inside : ∀ other ∈ run, isBlank other = false := by
      intro other found
      rcases List.mem_cons.1 found with rfl | found
      · exact charNotBlank
      · simpa using List.mem_takeWhile_imp found
    have stopped : ∀ other ∈ (rest.dropWhile fun char => !isBlank char).head?,
        isBlank other = true := by
      intro other head
      have notTaken := List.head?_dropWhile_not (fun char => !isBlank char) rest
      rw [Option.mem_def.1 head] at notTaken
      simpa using notTaken
    have whole : char :: rest = run ++ rest.dropWhile fun char => !isBlank char := by
      rw [List.cons_append, List.takeWhile_append_dropWhile]
    rcases List.mem_cons.1 mem with rfl | mem
    · have nothing : ∀ other ∈ ([] : List Char).getLast?, isBlank other = true := by
        intro other found
        cases found
      refine ⟨[], rest.dropWhile fun char => !isBlank char, ?_, rfl, ?_⟩
      · rwa [String.toList_ofList]
      · rw [String.toList_ofList]
        exact ⟨List.cons_ne_nil _ _, inside, nothing, stopped⟩
    · rcases ih mem with ⟨front, back, split, place, isRun⟩
      rw [split] at stopped
      refine ⟨run ++ front, back, ?_, ?_, isRun.append_of_isBlank stopped run⟩
      · rw [whole, split, List.append_assoc]
      · rw [place, List.length_append, Nat.add_assoc]

end Text

namespace Row

/-- A row has the number, the length and the words of a line. -/
theorem exists_line_of_mem_number {row : Row} {index start : Nat} {lines : List RawLine}
    (mem : row ∈ number index start lines) :
    ∃ offset raw, lines[offset]? = some raw ∧ row.line.index = index + offset ∧
      row.line.length = raw.content.length ∧ row.words = Text.words 0 raw.content := by
  induction lines generalizing index start with
  | nil => cases mem
  | cons raw lines ih =>
    rcases List.mem_cons.1 mem with rfl | mem
    · exact ⟨0, raw, rfl, rfl, rfl, rfl⟩
    · rcases ih mem with ⟨offset, other, found, place, length, words⟩
      refine ⟨offset + 1, other, found, ?_, length, words⟩
      rw [place]
      omega

/-- The row of a text with a given number is the line of the text with that number. -/
theorem exists_line_of_mem_ofText {text : String} {row : Row} (mem : row ∈ ofText text) :
    ∃ raw, (Text.splitLines text.toList)[row.line.index]? = some raw ∧
      row.line.length = raw.content.length ∧ row.words = Text.words 0 raw.content := by
  rcases exists_line_of_mem_number mem with ⟨offset, raw, found, place, length, words⟩
  rw [Nat.zero_add] at place
  rw [place]
  exact ⟨raw, found, length, words⟩

end Row

end NetDecl
