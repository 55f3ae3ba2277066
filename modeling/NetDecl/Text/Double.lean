/-!
# Double precision

A number of double precision has 53 significant bits.  A positive number from the middle between the
largest number of double precision and the next power of two on is rounded to infinity.
-/

namespace NetDecl.Text

/-- The least number that is rounded to infinity. -/
def doubleBound : Nat :=
  Nat.pow 2 1024 - Nat.pow 2 970

/-- Whether `digits` times ten to the power of `exponent` is rounded to infinity.  Powers so large,
or so small, that they alone settle this are not calculated. -/
def isBeyondDouble (digits : Nat) : Int → Bool
  | .ofNat power => digits != 0 && (309 ≤ power || doubleBound ≤ digits * Nat.pow 10 power)
  | .negSucc power =>
      3 * (power + 1) ≤ digits.log2 && doubleBound * Nat.pow 10 (power + 1) ≤ digits

/-- The multiple of `unit` that is nearest to a number; from the middle between two, the even one of
them. -/
def nearestMultiple (unit number : Nat) : Nat :=
  let quotient := number / unit
  let excess := 2 * (number % unit)
  if unit < excess ∨ (excess = unit ∧ quotient % 2 = 1) then (quotient + 1) * unit
  else quotient * unit

/-- The whole number of double precision that is nearest to a whole number. -/
def nearestDouble (number : Nat) : Nat :=
  nearestMultiple (Nat.pow 2 (number.log2 - 52)) number

end NetDecl.Text
