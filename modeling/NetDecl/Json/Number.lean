import NetDecl.Json
import NetDecl.Text.Double

/-!
# Reading JSON numbers

The reader refuses leading zeros, a point without digits, and numbers too large for double
precision.  The size of a number is not that of its exact value: a number is the product of its
first digits, as many as make a word of 64 bits, and a power of ten, each rounded to double
precision.  So some numbers are refused that are a little below the bound.
-/

namespace NetDecl.Json

/-- Read the digits at the front of a text; there must be one. -/
def readDigits? (text : List Char) : Option (List Char × List Char) :=
  match text.takeWhile Char.isDigit with
  | [] => none
  | digits => some (digits, text.dropWhile Char.isDigit)

/-- Read the whole part of a number, which starts with zero only if it is zero. -/
def readWhole? (text : List Char) : Option (List Char × List Char) := do
  let (digits, rest) ← readDigits? text
  if digits.head? = some '0' ∧ digits.length ≠ 1 then none else some (digits, rest)

/-- Read the fraction of a number, if it has one, with its point. -/
def readFraction? : List Char → Option (List Char × List Char)
  | '.' :: rest => (readDigits? rest).map fun (digits, rest) => ('.' :: digits, rest)
  | text => some ([], text)

/-- Read the sign of an exponent, if it has one. -/
def readSign : List Char → List Char × List Char
  | '+' :: rest => (['+'], rest)
  | '-' :: rest => (['-'], rest)
  | text => ([], text)

/-- Read the exponent of a number, if it has one, with its mark. -/
def readExponent? : List Char → Option (List Char × List Char)
  | [] => some ([], [])
  | mark :: rest =>
      if mark = 'e' ∨ mark = 'E' then
        let (sign, rest) := readSign rest
        (readDigits? rest).map fun (digits, rest) => (mark :: sign ++ digits, rest)
      else some ([], mark :: rest)

/-- The exponent that is written after a number. -/
def exponentOf : List Char → Int
  | [] => 0
  | _ :: text =>
      match readSign text with
      | (['-'], digits) => -(Nat.ofDigitChars 10 digits 0 : Int)
      | (_, digits) => Nat.ofDigitChars 10 digits 0

/-- Append digits to a significand as long as it stays a word of 64 bits.  The answer gives the
digits that are left. -/
def appendDigits (significand : Nat) : List Char → Nat × List Char
  | [] => (significand, [])
  | digit :: rest =>
      let longer := Nat.ofDigitChars 10 [digit] significand
      if longer < UInt64.size then appendDigits longer rest else (significand, digit :: rest)

/-- The size of a number: a significand of 64 bits times a power of ten. -/
structure Magnitude where
  /-- The first digits of the number. -/
  significand : Nat
  /-- The exponent of the power of ten. -/
  exponent : Int
deriving DecidableEq, Repr

namespace Magnitude

/-- The size of the number with the given digits before the point, after it, and in the exponent.
Digits that the significand has no room for only count where they stand before the point. -/
def ofDigits (whole fraction exponent : List Char) : Magnitude :=
  let (significand, surplus) := appendDigits 0 whole
  let (significand, dropped) := appendDigits significand fraction
  ⟨significand, exponentOf exponent + surplus.length - (fraction.length - dropped.length)⟩

/-- Whether the product of the significand and the power of ten is rounded to infinity. -/
def isTooLarge (magnitude : Magnitude) : Bool :=
  match magnitude.exponent with
  | .ofNat power =>
      magnitude.significand != 0 &&
        (309 ≤ power ||
          Text.doubleBound ≤
            Text.nearestDouble magnitude.significand * Text.nearestDouble (Nat.pow 10 power))
  | .negSucc _ => false

end Magnitude

/-- Read a number. -/
def readNumber? (text : List Char) : Option (Json × List Char) := do
  let (sign, rest) := match text with
    | '-' :: rest => (['-'], rest)
    | text => ([], text)
  let (whole, rest) ← readWhole? rest
  let (fraction, rest) ← readFraction? rest
  let (exponent, rest) ← readExponent? rest
  if (Magnitude.ofDigits whole (fraction.drop 1) exponent).isTooLarge then none
  else if sign.isEmpty ∧ fraction.isEmpty ∧ exponent.isEmpty then
    some (.natural (Nat.ofDigitChars 10 whole 0), rest)
  else
    some (.number (String.ofList (sign ++ whole ++ fraction ++ exponent)), rest)

end NetDecl.Json
