/-!
# Decimal numerals
-/

namespace NetDecl.Text

/-- The decimal numeral of a number. -/
def decimal (value : Nat) : String :=
  String.ofList (Nat.toDigits 10 value)

/-- A numeral stands for the number that it was made from. -/
theorem ofDigitChars_decimal (value : Nat) :
    Nat.ofDigitChars 10 (decimal value).toList 0 = value := by
  rw [decimal, String.toList_ofList, Nat.ofDigitChars_ten_toDigits]

end NetDecl.Text
