import Mathlib.Data.List.DropRight
import NetDecl.Position
import NetDecl.Proofs.Token.Rows

/-!
# Where a text ends

A text ends on the line behind its last break, after the characters that stand there.  Both can be
read off the text directly, and they are what the last row of the text says.
-/

namespace NetDecl

namespace Text

/-- The number of line breaks in a text. -/
def breakCount : List Char → Nat
  | [] => 0
  | '\r' :: '\n' :: rest => breakCount rest + 1
  | '\r' :: rest => breakCount rest + 1
  | '\n' :: rest => breakCount rest + 1
  | _ :: rest => breakCount rest

/-- The characters behind the last break of a text. -/
def lastLine (chars : List Char) : List Char :=
  chars.rtakeWhile fun char => !isBreak char

/-- Where a text ends. -/
def stop (chars : List Char) : Position :=
  ⟨breakCount chars, (lastLine chars).length⟩

theorem length_lastLine_le (chars : List Char) : (lastLine chars).length ≤ chars.length :=
  (List.rtakeWhile_suffix _ _).length_le

/-- A character in front of a text belongs to its last line if there is no break. -/
theorem lastLine_cons (char : Char) (rest : List Char) :
    lastLine (char :: rest) =
      if isBreak char = false ∧ lastLine rest = rest then char :: rest else lastLine rest := by
  unfold lastLine List.rtakeWhile
  have whole : (rest.reverse.takeWhile fun char => !isBreak char).length = rest.reverse.length ↔
      (rest.reverse.takeWhile fun char => !isBreak char).reverse = rest := by
    rw [List.reverse_eq_iff]
    exact ⟨(List.takeWhile_prefix _).eq_of_length, congrArg List.length⟩
  rw [List.reverse_cons, List.takeWhile_append]
  by_cases unbroken : (rest.reverse.takeWhile fun char => !isBreak char).reverse = rest
  · rw [if_pos (whole.2 unbroken)]
    cases broken : isBreak char <;> simp [broken, unbroken]
  · rw [if_neg (whole.not.2 unbroken)]
    simp [unbroken]

/-- Breaks in front of a text are not on its last line. -/
theorem lastLine_append_of_isBreak {front : List Char}
    (broken : ∀ char ∈ front, isBreak char = true) (rest : List Char) :
    lastLine (front ++ rest) = lastLine rest := by
  induction front with
  | nil => rfl
  | cons char front ih =>
    have notLast : ¬(isBreak char = false ∧ lastLine (front ++ rest) = front ++ rest) := by
      rw [broken char List.mem_cons_self]
      simp
    rw [List.cons_append, lastLine_cons, if_neg notLast,
      ih fun other mem => broken other (List.mem_cons_of_mem _ mem)]

theorem breakCount_of_splitBreak? {chars lineBreak rest : List Char}
    (split : splitBreak? chars = some (lineBreak, rest)) :
    breakCount chars = breakCount rest + 1 := by
  unfold splitBreak? at split
  split at split
  · cases split
    rfl
  · rename_i notLineFeed
    cases split
    rw [breakCount]
    exact notLineFeed
  · cases split
    rfl
  · cases split

theorem breakCount_cons {char : Char} (notBreak : isBreak char = false) (rest : List Char) :
    breakCount (char :: rest) = breakCount rest := by
  simp only [isBreak, Bool.or_eq_false_iff, beq_eq_false_iff_ne, ne_eq] at notBreak
  rw [breakCount]
  · exact fun _ equal => absurd equal notBreak.2
  · exact notBreak.2
  · exact notBreak.1

/-- A text has one line more than it has breaks.  The last of them holds what is behind the last
break, and that is the whole text exactly if there is no other line. -/
theorem exists_splitLines_eq_append (chars : List Char) :
    ∃ front raw, splitLines chars = front ++ [raw] ∧ front.length = breakCount chars ∧
      raw.content = lastLine chars ∧ (front = [] ↔ lastLine chars = chars) := by
  induction chars using break_induction with
  | nil => exact ⟨[], ⟨[], []⟩, rfl, rfl, rfl, by decide⟩
  | lineBreak chars lineBreak rest split ih =>
    obtain ⟨front, raw, lines, count, content, -⟩ := ih
    have skipped : lastLine chars = lastLine rest := by
      rw [append_of_splitBreak? split]
      exact lastLine_append_of_isBreak (isBreak_of_mem_splitBreak? split) rest
    have shorter : lastLine chars ≠ chars := by
      intro equal
      have le := length_lastLine_le rest
      rw [← skipped, equal] at le
      exact Nat.not_lt_of_le le (length_lt_of_splitBreak? split)
    refine ⟨⟨[], lineBreak⟩ :: front, raw, ?_, ?_, ?_, ?_⟩
    · rw [splitLines_of_splitBreak? split, lines, List.cons_append]
    · rw [breakCount_of_splitBreak? split, List.length_cons, count]
    · rw [skipped, content]
    · simp [shorter]
  | cons char rest notBreak ih =>
    obtain ⟨front, raw, lines, count, content, alone⟩ := ih
    rw [splitLines_cons notBreak, lines, breakCount_cons notBreak, lastLine_cons]
    cases front with
    | nil =>
      have whole : lastLine rest = rest := alone.1 rfl
      refine ⟨[], raw.push char, rfl, count, ?_, ?_⟩
      · simp [RawLine.push, content, notBreak, whole]
      · simp [notBreak, whole]
    | cons first front =>
      have notWhole : lastLine rest ≠ rest := fun equal => List.cons_ne_nil _ _ (alone.2 equal)
      refine ⟨first.push char :: front, raw, rfl, count, ?_, ?_⟩
      · simp [content, notWhole]
      · have le := length_lastLine_le rest
        have different : lastLine rest ≠ char :: rest := by
          intro equal
          rw [equal, List.length_cons] at le
          exact Nat.not_succ_le_self _ le
        simp [notWhole, different]

end Text

namespace Row

theorem getLast?_number (index start : Nat) (front : List RawLine) (raw : RawLine) :
    (number index start (front ++ [raw])).getLast?.map stop =
      some ⟨index + front.length, raw.content.length⟩ := by
  induction front generalizing index start with
  | nil => rfl
  | cons first front ih =>
    cases numbered : number (index + 1) (start + first.content.length + first.lineBreak.length)
        (front ++ [raw]) with
    | nil => cases front <;> cases numbered
    | cons row rows =>
      rw [List.cons_append, number, numbered, List.getLast?_cons_cons, ← numbered, ih,
        List.length_cons]
      congr 2
      omega

/-- The last row of a text ends where the text ends. -/
theorem getLast?_ofText (text : String) :
    (ofText text).getLast?.map stop = some (Text.stop text.toList) := by
  obtain ⟨front, raw, lines, count, content, -⟩ := Text.exists_splitLines_eq_append text.toList
  rw [ofText, lines, getLast?_number, Text.stop, count, content, Nat.zero_add]

end Row

end NetDecl
