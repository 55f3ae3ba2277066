import NetDecl.Proofs.Text.Lines
import NetDecl.Text.Decimal

/-!
# Printed lines

What is printed is read line by line.  Each text that is printed with a line feed behind it is one
line if there is no line break in it.
-/

namespace NetDecl.Text

/-- There is no line break in the text. -/
def Unbroken (text : String) : Prop :=
  ∀ char ∈ text.toList, isBreak char = false

theorem all_not_isBreak_iff {text : String} :
    (text.toList.all fun char => !isBreak char) = true ↔ Unbroken text := by
  simp [Unbroken]

-- The instance goes through the characters of the text, not through all characters.
instance (text : String) : Decidable (Unbroken text) :=
  decidable_of_iff _ all_not_isBreak_iff

/-- The lines of what is printed: the texts in front of, between and behind the line feeds. -/
def printedLines (text : String) : List String :=
  (text.toList.splitOn '\n').map String.ofList

/-! ## Unbroken texts -/

theorem Blankless.unbroken {text : String} (blankless : Blankless text) : Unbroken text :=
  fun char mem => isBreak_eq_false_of_isBlank_eq_false (blankless char mem)

theorem Unbroken.append {front back : String} (before : Unbroken front) (behind : Unbroken back) :
    Unbroken (front ++ back) := by
  rw [Unbroken, String.toList_append, List.forall_mem_append]
  exact ⟨before, behind⟩

theorem unbroken_decimal (value : Nat) : Unbroken (decimal value) := by
  intro char mem
  rw [decimal, String.toList_ofList] at mem
  have digit : char.isDigit = true := Nat.isDigit_of_mem_toDigits (by decide) (by decide) mem
  rw [isBreak, Bool.or_eq_false_iff, beq_eq_false_iff_ne, beq_eq_false_iff_ne]
  constructor
  · rintro rfl
    exact absurd digit (by decide)
  · rintro rfl
    exact absurd digit (by decide)

/-! ## Lines -/

theorem printedLines_of_unbroken {text : String} (unbroken : Unbroken text) :
    printedLines text = [text] := by
  have noFeed : ∀ char ∈ text.toList, (char == '\n') = false := fun char mem =>
    (Bool.or_eq_false_iff.1 (unbroken char mem)).1
  rw [printedLines, List.splitOn, List.splitOnP_eq_singleton noFeed, List.map_singleton,
    String.ofList_toList]

/-- A line feed ends a line. -/
theorem printedLines_append_lineFeed (front back : String) :
    printedLines (front ++ "\n" ++ back) = printedLines front ++ printedLines back := by
  have chars : (front ++ "\n" ++ back).toList = front.toList ++ '\n' :: back.toList := by simp
  have isFeed : ('\n' == '\n') = true := rfl
  rw [printedLines, chars, List.splitOn,
    List.splitOnP_append_cons (p := (· == '\n')) front.toList back.toList isFeed, List.map_append]
  rfl

/-- Texts with a line feed behind each are printed one behind the other, and nothing behind the last
line feed. -/
theorem printedLines_join (texts : List String) :
    printedLines (String.join (texts.map fun text => text ++ "\n")) =
      texts.flatMap printedLines ++ [""] := by
  induction texts with
  | nil => rfl
  | cons text texts ih =>
    rw [List.map_cons, String.join_cons, printedLines_append_lineFeed, ih, List.flatMap_cons,
      List.append_assoc]

/-- Empty lines are lines, and so is what stands behind the last line feed. -/
example : printedLines "a\n\nb\n" = ["a", "", "b", ""] := by decide +kernel

theorem flatMap_printedLines {texts : List String} (unbroken : ∀ text ∈ texts, Unbroken text) :
    texts.flatMap printedLines = texts := by
  induction texts with
  | nil => rfl
  | cons text texts ih =>
    rcases List.forall_mem_cons.1 unbroken with ⟨first, others⟩
    rw [List.flatMap_cons, printedLines_of_unbroken first, ih others]
    rfl

end NetDecl.Text
