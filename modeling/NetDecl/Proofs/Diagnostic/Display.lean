import Mathlib.Data.List.Basic
import NetDecl.Diagnostic.Entry
import NetDecl.Proofs.Json.Number
import NetDecl.Proofs.Outcome.Encoding

/-!
# Lines that show diagnostics

The line that shows a diagnostic joins the name of its severity, the number of its code, its place
and its message.  A name has no blanks and a numeral no other characters than digits, so the line is
read from the left, and what is left over at the end is the message, whatever stands in it.
-/

namespace NetDecl

/-! ## Reading -/

/-- Read the numeral in front of a text. -/
def Text.readDecimal? (chars : List Char) : Option (Nat × List Char) :=
  (Json.readDigits? chars).map fun (digits, rest) => (Nat.ofDigitChars 10 digits 0, rest)

theorem Text.readDecimal?_decimal (value : Nat) {rest : List Char} (ends : Json.EndsNumber rest) :
    readDecimal? ((decimal value).toList ++ rest) = some (value, rest) := by
  have digits : Json.readDigits? ((decimal value).toList ++ rest) =
      some ((decimal value).toList, rest) := by
    rw [decimal, String.toList_ofList]
    exact Json.readDigits?_toDigits value ends
  simp only [readDecimal?, digits, Option.map_some, ofDigitChars_decimal]

/-- What the line that shows a diagnostic says. -/
structure Diagnostic.Reading where
  /-- How bad it is. -/
  severity : Severity
  /-- The kind of problem. -/
  code : Code
  /-- The line, counted from one. -/
  line : Nat
  /-- The column, counted from one. -/
  column : Nat
  /-- What is wrong. -/
  message : String
deriving DecidableEq, Repr

/-- Read the line that shows a diagnostic. -/
def Diagnostic.Reading.ofDisplay? (display : String) : Option Reading := do
  let (name, chars) := display.toList.span (· != ' ')
  let severity ← Severity.ofName? (String.ofList name)
  let (number, chars) ← Text.readDecimal? (← chars.dropPrefix? " | ".toList)
  let code ← Code.all[number]?
  let (line, chars) ← Text.readDecimal? (← chars.dropPrefix? " | (".toList)
  let (column, chars) ← Text.readDecimal? (← chars.dropPrefix? ",".toList)
  let message ← chars.dropPrefix? ") : ".toList
  some ⟨severity, code, line, column, String.ofList message⟩

/-- A code stands at its number among all codes. -/
theorem Code.getElem?_number (code : Code) : all[code.number]? = some code := by
  cases code <;> rfl

/-- The name of a severity ends at the first blank. -/
theorem Severity.span_name (severity : Severity) (chars : List Char) :
    (severity.name.toList ++ (" | ".toList ++ chars)).span (· != ' ') =
      (severity.name.toList, " | ".toList ++ chars) := by
  cases severity <;> rfl

namespace Diagnostic

/-- The line that shows a problem, from the left. -/
theorem toList_display {diagnostic : Diagnostic} (problem : diagnostic.severity ≠ .success) :
    diagnostic.display.toList =
      diagnostic.severity.name.toList ++ (" | ".toList ++
        ((Text.decimal diagnostic.code.number).toList ++ (" | (".toList ++
          ((Text.decimal diagnostic.entry.line).toList ++ (",".toList ++
            ((Text.decimal diagnostic.entry.column).toList ++ (") : ".toList ++
              diagnostic.message.toList))))))) := by
  have shown : ¬diagnostic.isSuccess = true := by
    simpa [isSuccess] using problem
  rw [display, if_neg shown]
  simp only [String.toList_append, List.append_assoc, entry]

/-- What is read from the line that shows a problem is what the problem, spelled out, says. -/
theorem Reading.ofDisplay?_display {diagnostic : Diagnostic}
    (problem : diagnostic.severity ≠ .success) :
    ofDisplay? diagnostic.display =
      some ⟨diagnostic.severity, diagnostic.code, diagnostic.entry.line, diagnostic.entry.column,
        diagnostic.message⟩ := by
  have dropped : ∀ first rest : List Char, (first ++ rest).dropPrefix? first = some rest :=
    fun first rest => List.dropPrefix?_append_of_beq rest (beq_self_eq_true first)
  have bar : ∀ rest, Json.EndsNumber (" | (".toList ++ rest) :=
    fun _ => Json.endsNumber_cons (by decide) (by decide) _
  have comma : ∀ rest, Json.EndsNumber (",".toList ++ rest) :=
    fun _ => Json.endsNumber_cons (by decide) (by decide) _
  have close : ∀ rest, Json.EndsNumber (") : ".toList ++ rest) :=
    fun _ => Json.endsNumber_cons (by decide) (by decide) _
  rw [ofDisplay?, toList_display problem, Severity.span_name]
  simp only [Option.bind_eq_bind, Option.bind_some, String.ofList_toList, Severity.ofName?_name,
    dropped, Text.readDecimal?_decimal _ (bar _), Text.readDecimal?_decimal _ (comma _),
    Text.readDecimal?_decimal _ (close _), Code.getElem?_number]

end Diagnostic

/-! ## What is read is all there is -/

/-- Below the last of the 64-bit words, counting from one is undone by counting from zero. -/
theorem Position.next_of_lt {coordinate : Nat} (below : coordinate < UInt64.size - 1) :
    next coordinate = coordinate + 1 :=
  Nat.mod_eq_of_lt (by omega)

namespace Diagnostic

/-- A problem at a place that can be counted from one. -/
structure IsPlacedProblem (diagnostic : Diagnostic) : Prop where
  problem : diagnostic.severity ≠ .success
  line_lt : diagnostic.position.line < UInt64.size - 1
  column_lt : diagnostic.position.column < UInt64.size - 1

namespace IsPlacedProblem

variable {diagnostic : Diagnostic}

theorem line_entry (placed : diagnostic.IsPlacedProblem) :
    diagnostic.entry.line = diagnostic.position.line + 1 :=
  Position.next_of_lt placed.line_lt

theorem column_entry (placed : diagnostic.IsPlacedProblem) :
    diagnostic.entry.column = diagnostic.position.column + 1 :=
  Position.next_of_lt placed.column_lt

end IsPlacedProblem

/-- The line that shows a problem tells its severity, its code, its place and its message.  The line
and the column that are read from it are those of the diagnostic, spelled out. -/
theorem display_unambiguous {first second : Diagnostic} (firstPlaced : first.IsPlacedProblem)
    (secondPlaced : second.IsPlacedProblem) :
    (first.display = second.display →
      first.severity = second.severity ∧ first.code = second.code ∧
        first.position = second.position ∧ first.message = second.message) ∧
      Reading.ofDisplay? first.display =
        some ⟨first.severity, first.code, first.entry.line, first.entry.column,
          first.message⟩ := by
  refine ⟨?_, Reading.ofDisplay?_display firstPlaced.problem⟩
  intro same
  have read := Reading.ofDisplay?_display firstPlaced.problem
  rw [same, Reading.ofDisplay?_display secondPlaced.problem, Option.some.injEq,
    Reading.mk.injEq] at read
  obtain ⟨severity, code, line, column, message⟩ := read
  rw [firstPlaced.line_entry, secondPlaced.line_entry] at line
  rw [firstPlaced.column_entry, secondPlaced.column_entry] at column
  refine ⟨severity.symm, code.symm, ?_, message.symm⟩
  rw [Position.mk.injEq]
  exact ⟨(Nat.succ.inj line).symm, (Nat.succ.inj column).symm⟩

/-- A message that looks like another line, with a severity that is not that of its code. -/
theorem display_unambiguous_of_quoted :
    let message := "0) : Error | 3 | (2,6) : node a,1) : not found"
    let first : Diagnostic := ⟨.warning, .duplicatedId, ⟨0, 11⟩, 3, message⟩
    let second : Diagnostic := ⟨.warning, .duplicatedId, ⟨0, 11⟩, 9, message⟩
    first.IsPlacedProblem ∧ second.IsPlacedProblem ∧ first.display = second.display ∧
      first.position = second.position ∧
      Reading.ofDisplay? first.display = some ⟨.warning, .duplicatedId, 1, 12, message⟩ := by
  intro message first second
  have firstPlaced : first.IsPlacedProblem := ⟨by decide, by decide, by decide⟩
  have secondPlaced : second.IsPlacedProblem := ⟨by decide, by decide, by decide⟩
  have same : first.display = second.display := rfl
  obtain ⟨determined, read⟩ := display_unambiguous firstPlaced secondPlaced
  exact ⟨firstPlaced, secondPlaced, same, (determined same).2.2.1, read⟩

end Diagnostic

end NetDecl
