import NetDecl.Proofs.Options.Useful
import NetDecl.Proofs.Token.Rows

/-!
# Letters in another case

Neither the breaks nor the blanks of a text are letters.  So a text in which some letters have been
put into another case has the same lines, and words at the same places; and a word without any of
these letters is the word that it was.
-/

namespace NetDecl

open List (Forall₂)

namespace Text

/-- The second text is the first with letters in another case, all of them at loose places.  The
first characters of the two stand at the given place. -/
inductive Recased (loose : Nat → Prop) : Nat → List Char → List Char → Prop where
  | nil {place : Nat} : Recased loose place [] []
  | keep {place : Nat} {char : Char} {chars others : List Char} :
      Recased loose (place + 1) chars others → Recased loose place (char :: chars) (char :: others)
  | change {place : Nat} {char other : Char} {chars others : List Char} :
      loose place → char.toLower = other.toLower → Recased loose (place + 1) chars others →
      Recased loose place (char :: chars) (other :: others)

variable {loose : Nat → Prop} {place : Nat} {chars others : List Char}

namespace Recased

theorem uncons {char : Char} (recased : Recased loose place (char :: chars) others) :
    ∃ other rest, others = other :: rest ∧ char.toLower = other.toLower ∧
      Recased loose (place + 1) chars rest := by
  cases recased with
  | keep rest => exact ⟨_, _, rfl, rfl, rest⟩
  | change _ letters rest => exact ⟨_, _, rfl, letters, rest⟩

theorem cons_iff {char other : Char} :
    Recased loose place (char :: chars) (other :: others) ↔
      (char = other ∨ loose place ∧ char.toLower = other.toLower) ∧
        Recased loose (place + 1) chars others := by
  constructor
  · intro recased
    cases recased with
    | keep rest => exact ⟨.inl rfl, rest⟩
    | change isLoose letters rest => exact ⟨.inr ⟨isLoose, letters⟩, rest⟩
  · rintro ⟨rfl | ⟨isLoose, letters⟩, rest⟩
    · exact .keep rest
    · exact .change isLoose letters rest

instance decidable [DecidablePred loose] :
    (place : Nat) → (chars others : List Char) → Decidable (Recased loose place chars others)
  | _, [], [] => isTrue .nil
  | _, [], _ :: _ => isFalse nofun
  | _, _ :: _, [] => isFalse nofun
  | place, _ :: chars, _ :: others =>
      have := decidable (place + 1) chars others
      decidable_of_iff' _ cons_iff

theorem length_eq (recased : Recased loose place chars others) : others.length = chars.length := by
  induction recased with
  | nil => rfl
  | keep _ ih => rw [List.length_cons, List.length_cons, ih]
  | change _ _ _ ih => rw [List.length_cons, List.length_cons, ih]

theorem sameLetters (recased : Recased loose place chars others) :
    Text.sameLetters chars others = true := by
  rw [Text.sameLetters, beq_iff_eq]
  induction recased with
  | nil => rfl
  | keep _ ih => rw [List.map_cons, List.map_cons, ih]
  | change _ letters _ ih => rw [List.map_cons, List.map_cons, ih, letters]

/-- Where no place is loose nothing changes. -/
theorem eq_of_not_loose (recased : Recased loose place chars others)
    (tight : ∀ at', place ≤ at' → at' < place + chars.length → ¬loose at') : others = chars := by
  induction recased with
  | nil => rfl
  | @keep place char chars others _ ih =>
    rw [ih]
    intro at' le lt
    rw [List.length_cons] at tight
    exact tight at' (Nat.le_of_succ_le le) (by omega)
  | @change place char other chars others isLoose _ _ _ =>
    rw [List.length_cons] at tight
    exact absurd isLoose (tight place (Nat.le_refl _) (by omega))

/-- The characters up to the first that is not wanted are cut off at the same place. -/
theorem takeWhile_dropWhile (recased : Recased loose place chars others) (wanted : Char → Bool)
    (lower : ∀ char : Char, wanted char.toLower = wanted char) :
    Recased loose place (chars.takeWhile wanted) (others.takeWhile wanted) ∧
      Recased loose (place + (chars.takeWhile wanted).length) (chars.dropWhile wanted)
        (others.dropWhile wanted) := by
  induction recased with
  | nil => exact ⟨.nil, .nil⟩
  | @keep place char chars others recased ih =>
    rw [List.takeWhile_cons, List.takeWhile_cons, List.dropWhile_cons, List.dropWhile_cons]
    split
    · refine ⟨.keep ih.1, ?_⟩
      rw [List.length_cons, Nat.add_comm _ 1, ← Nat.add_assoc]
      exact ih.2
    · exact ⟨.nil, .keep recased⟩
  | @change place char other chars others isLoose letters recased ih =>
    have same : wanted other = wanted char := by
      rw [← lower other, ← letters, lower]
    rw [List.takeWhile_cons, List.takeWhile_cons, List.dropWhile_cons, List.dropWhile_cons, same]
    split
    · refine ⟨.change isLoose letters ih.1, ?_⟩
      rw [List.length_cons, Nat.add_comm _ 1, ← Nat.add_assoc]
      exact ih.2
    · exact ⟨.nil, .change isLoose letters recased⟩

end Recased

/-! ## Blanks -/

theorem toLower_eq_self_of_isBlank {char : Char} (blank : isBlank char = true) :
    char.toLower = char := by
  have all : (blanks.all fun other => other.toLower == other) = true := by decide
  exact beq_iff_eq.1 (List.all_eq_true.1 all char (by simpa [isBlank] using blank))

theorem isBlank_of_isBreak {char : Char} (broken : isBreak char = true) : isBlank char = true := by
  rw [← Bool.not_eq_false] at broken ⊢
  exact mt isBreak_eq_false_of_isBlank_eq_false broken

/-- A blank is not a letter, so it is not put into another case. -/
theorem eq_of_toLower_eq_of_isBlank {char other : Char} (same : char.toLower = other.toLower)
    (blank : isBlank char = true) : other = char := by
  have otherBlank : isBlank other = true := by
    rw [← isBlank_toLower, ← same, isBlank_toLower, blank]
  rw [← toLower_eq_self_of_isBlank otherBlank, ← same, toLower_eq_self_of_isBlank blank]

namespace Recased

theorem uncons_of_isBlank {char : Char} (recased : Recased loose place (char :: chars) others)
    (blank : isBlank char = true) :
    ∃ rest, others = char :: rest ∧ Recased loose (place + 1) chars rest := by
  rcases recased.uncons with ⟨other, rest, rfl, same, behind⟩
  rw [eq_of_toLower_eq_of_isBlank same blank]
  exact ⟨rest, rfl, behind⟩

theorem head?_eq_of_isBlank {char : Char} (recased : Recased loose place chars others)
    (blank : isBlank char = true) (head : others.head? = some char) : chars.head? = some char := by
  cases recased with
  | nil => cases head
  | keep => exact head
  | change _ same _ =>
    rw [Option.some.inj head] at same
    rw [List.head?_cons, eq_of_toLower_eq_of_isBlank same.symm blank]

/-! ## Lines -/

theorem splitBreak?_eq {lineBreak rest : List Char} (recased : Recased loose place chars others)
    (split : splitBreak? chars = some (lineBreak, rest)) :
    ∃ otherRest, splitBreak? others = some (lineBreak, otherRest) ∧
      Recased loose (place + lineBreak.length) rest otherRest := by
  unfold splitBreak? at split
  split at split
  · cases split
    rcases recased.uncons_of_isBlank (by decide) with ⟨between, rfl, behindReturn⟩
    rcases behindReturn.uncons_of_isBlank (by decide) with ⟨otherRest, rfl, behind⟩
    exact ⟨otherRest, rfl, behind⟩
  · rename_i alone
    cases split
    rcases recased.uncons_of_isBlank (by decide) with ⟨otherRest, rfl, behind⟩
    refine ⟨otherRest, ?_, behind⟩
    rw [splitBreak?]
    rintro rest rfl
    rcases List.head?_eq_some_iff.1 (behind.head?_eq_of_isBlank (by decide) rfl) with ⟨_, equal⟩
    exact alone _ equal
  · cases split
    rcases recased.uncons_of_isBlank (by decide) with ⟨otherRest, rfl, behind⟩
    exact ⟨otherRest, rfl, behind⟩
  · cases split

end Recased

/-- The lines with letters in another case.  The first characters of the two stand at the given
place. -/
inductive RecasedLines (loose : Nat → Prop) : Nat → List RawLine → List RawLine → Prop where
  | nil {place : Nat} : RecasedLines loose place [] []
  | cons {place : Nat} {line other : RawLine} {lines others : List RawLine} :
      Recased loose place line.content other.content → other.lineBreak = line.lineBreak →
      RecasedLines loose (place + line.content.length + line.lineBreak.length) lines others →
      RecasedLines loose place (line :: lines) (other :: others)

theorem RecasedLines.push {char other : Char} {lines others : List RawLine}
    (extend : ∀ {chars others}, Recased loose (place + 1) chars others →
      Recased loose place (char :: chars) (other :: others))
    (recased : RecasedLines loose (place + 1) lines others) :
    RecasedLines loose place (lines.modifyHead (RawLine.push char))
      (others.modifyHead (RawLine.push other)) := by
  cases recased with
  | nil => exact .nil
  | @cons _ line _ _ _ content lineBreak behind =>
    refine .cons (extend content) lineBreak ?_
    rwa [RawLine.push, List.length_cons, Nat.add_comm _ 1, ← Nat.add_assoc]

/-- The lines stay the same but for their letters. -/
theorem Recased.splitLines (recased : Recased loose place chars others) :
    RecasedLines loose place (splitLines chars) (splitLines others) := by
  induction chars using break_induction generalizing place others with
  | nil =>
    cases recased
    exact .cons .nil rfl .nil
  | lineBreak chars lineBreak rest split ih =>
    rcases recased.splitBreak?_eq split with ⟨otherRest, otherSplit, behind⟩
    rw [splitLines_of_splitBreak? split, splitLines_of_splitBreak? otherSplit]
    exact .cons .nil rfl (ih behind)
  | cons char rest notBreak ih =>
    rcases recased.uncons with ⟨other, otherRest, rfl, same, -⟩
    have otherNotBreak : isBreak other = false := by
      rw [← Bool.not_eq_true]
      intro broken
      rw [eq_of_toLower_eq_of_isBlank same.symm (isBlank_of_isBreak broken), broken] at notBreak
      cases notBreak
    rw [splitLines_cons notBreak, splitLines_cons otherNotBreak]
    cases recased with
    | keep behind => exact (ih behind).push .keep
    | change isLoose _ behind => exact (ih behind).push (.change isLoose same)

/-! ## Words -/

/-- The words with letters in another case, on a line that starts at the given place. -/
def RecasedWords (loose : Nat → Prop) (start : Nat) : List Word → List Word → Prop :=
  Forall₂ fun word other => other.column = word.column ∧
    Recased loose (start + word.column) word.text.toList other.text.toList

/-- The words stay the same but for their letters. -/
theorem Recased.words {start column : Nat} (recased : Recased loose (start + column) chars others) :
    RecasedWords loose start (words column chars) (words column others) := by
  fun_induction Text.words column chars generalizing others with
  | case1 column =>
    cases recased
    rw [words_nil]
    exact .nil
  | case2 column char rest blank ih =>
    rcases recased.uncons_of_isBlank blank with ⟨otherRest, rfl, behind⟩
    rw [words_cons_of_isBlank blank]
    exact ih behind
  | case3 column char rest notBlank run =>
    rename_i ih
    rcases recased.takeWhile_dropWhile (fun char => !isBlank char)
      (fun char => by rw [isBlank_toLower]) with ⟨first, behind⟩
    rcases recased.uncons with ⟨other, otherRest, rfl, same, -⟩
    have otherNotBlank : ¬isBlank other = true := by
      rwa [← isBlank_toLower, ← same, isBlank_toLower]
    simp only [List.takeWhile_cons, List.dropWhile_cons, notBlank, otherNotBlank, Bool.not_false,
      if_true] at first behind
    rw [Nat.add_assoc] at behind
    have length := first.length_eq
    rw [Text.words, if_neg otherNotBlank]
    dsimp only
    rw [length]
    refine .cons ⟨rfl, ?_⟩ (ih behind)
    rwa [String.toList_ofList, String.toList_ofList]

end Text

/-- The row with letters in another case. -/
structure Row.Recased (loose : Nat → Prop) (row other : Row) : Prop where
  line : other.line = row.line
  words : Text.RecasedWords loose row.line.start row.words other.words

theorem Text.RecasedLines.number {loose : Nat → Prop} {place : Nat} {lines others : List RawLine}
    (recased : RecasedLines loose place lines others) (index : Nat) :
    Forall₂ (Row.Recased loose) (Row.number index place lines) (Row.number index place others) := by
  induction recased generalizing index with
  | nil => exact .nil
  | @cons place line other lines others content lineBreak _ ih =>
    rw [Row.number, Row.number, lineBreak, content.length_eq]
    exact .cons ⟨rfl, content.words⟩ (ih _)

/-- The rows stay the same but for their letters. -/
theorem Row.recased_ofText {loose : Nat → Prop} {text other : String}
    (recased : Text.Recased loose 0 text.toList other.toList) :
    Forall₂ (Row.Recased loose) (Row.ofText text) (Row.ofText other) :=
  recased.splitLines.number 0

end NetDecl
