import NetDecl.Text.Double
import NetDecl.Text.Hexadecimal
import NetDecl.Toml
import NetDecl.Toml.Quoted

/-!
# Truth values, numbers and dates in TOML

Whole numbers are written in base two, eight, ten or sixteen and have 64 bits.  Other numbers may be
as small as they like, but a positive one that is nearer to infinity than to any number of double
precision is refused.  Between two digits of a number an underscore may stand.

A date exists in its year and month; a time has seconds, up to a leap second.  After a date and a
time, separated by a letter or a space, there may be the distance to universal time.
-/

namespace NetDecl.Toml

/-- Whether a character may stand in a truth value, a number or a date. -/
def isScalarChar (char : Char) : Bool :=
  char.isAlphanum || char == '_' || char == '-' || char == '+' || char == '.' || char == ':'

/-- The digits of a number without the underscores between them. -/
def digits? (isDigit : Char → Bool) (text : List Char) : Option (List Char) :=
  let digits := text.filter (· != '_')
  let separated := text.head? != some '_' && text.getLast? != some '_' &&
    (text.zip text.tail).all fun (left, right) => left != '_' || right != '_'
  if digits.isEmpty || !separated || !digits.all isDigit then none else some digits

/-- The number that digits stand for in a base. -/
def valueOf (base : Nat) (digits : List Char) : Nat :=
  digits.foldl (fun value digit => value * base + (Text.hexDigit? digit).getD 0) 0

/-- The number with the given digits in a base. -/
def inBase? (base : Nat) (text : List Char) : Option Nat :=
  (digits? (fun char => (Text.hexDigit? char).any (· < base)) text).map (valueOf base)

/-- The number without sign that a decimal numeral stands for; it starts with zero only if it is
zero. -/
def decimal? (text : List Char) : Option Nat :=
  if text.head? = some '0' ∧ text.length ≠ 1 then none else inBase? 10 text

/-- A numeral without its sign, with whether the sign is negative. -/
def splitSign : List Char → Bool × List Char
  | '+' :: text => (false, text)
  | '-' :: text => (true, text)
  | text => (false, text)

/-- The whole number that a text stands for, before its size is checked. -/
def unbounded? : List Char → Option Int
  | '0' :: 'x' :: text => (inBase? 16 text).map Int.ofNat
  | '0' :: 'o' :: text => (inBase? 8 text).map Int.ofNat
  | '0' :: 'b' :: text => (inBase? 2 text).map Int.ofNat
  | text =>
      let (negative, text) := splitSign text
      (decimal? text).map fun value => if negative then -Int.ofNat value else Int.ofNat value

/-- The whole number that a text stands for, in 64 bits. -/
def integer? (text : List Char) : Option Int := do
  let value ← unbounded? text
  if Int64.minValue.toInt ≤ value ∧ value ≤ Int64.maxValue.toInt then some value else none

/-- The exponent that a text stands for, after its letter. -/
def exponent? (text : List Char) : Option Int :=
  let (negative, text) := splitSign text
  (inBase? 10 text).map fun value => if negative then -Int.ofNat value else Int.ofNat value

/-- The exponent that a text stands for, which may be left out. -/
def trailingExponent? : List Char → Option Int
  | [] => some 0
  | letter :: text => if letter = 'e' ∨ letter = 'E' then exponent? text else none

/-- The digits and the exponent of the decimal number without sign that a text stands for; there is
a fraction or an exponent. -/
def scientific? (text : List Char) : Option (Nat × Int) := do
  let isPart := fun char : Char => char.isDigit || char == '_'
  let whole ← decimal? (text.takeWhile isPart)
  match text.dropWhile isPart with
  | [] => none
  | '.' :: rest => do
      let fraction ← digits? Char.isDigit (rest.takeWhile isPart)
      let exponent ← trailingExponent? (rest.dropWhile isPart)
      some (whole * Nat.pow 10 fraction.length + valueOf 10 fraction, exponent - fraction.length)
  | rest => do
      let exponent ← trailingExponent? rest
      some (whole, exponent)

/-- Whether a text is a number with a fraction or an exponent, infinity, or no number. -/
def isFloat (text : List Char) : Bool :=
  let (negative, body) := splitSign text
  if body = ['i', 'n', 'f'] ∨ body = ['n', 'a', 'n'] then true
  else
    match scientific? body with
    | some (digits, exponent) => negative || !Text.isBeyondDouble digits exponent
    | none => false

/-- Read a number of the given count of digits, which lies between two others. -/
def readCount? (count least most : Nat) (text : List Char) : Option (Nat × List Char) :=
  let digits := text.take count
  let value := valueOf 10 digits
  if digits.length = count ∧ digits.all Char.isDigit ∧ least ≤ value ∧ value ≤ most then
    some (value, text.drop count)
  else none

/-- Read a given character. -/
def readMark? (mark : Char) : List Char → Option (List Char)
  | [] => none
  | char :: rest => if char = mark then some rest else none

/-- The number of days of a month. -/
def daysIn (year month : Nat) : Nat :=
  if month = 2 then if year % 4 = 0 ∧ (year % 100 ≠ 0 ∨ year % 400 = 0) then 29 else 28
  else if month = 4 ∨ month = 6 ∨ month = 9 ∨ month = 11 then 30
  else 31

/-- The text after the date that it begins with. -/
def afterDate? (text : List Char) : Option (List Char) := do
  let (year, rest) ← readCount? 4 0 9999 text
  let (month, rest) ← readCount? 2 1 12 (← readMark? '-' rest)
  let (_, rest) ← readCount? 2 1 (daysIn year month) (← readMark? '-' rest)
  some rest

/-- The text after the time that it begins with. -/
def afterTime? (text : List Char) : Option (List Char) := do
  let (_, rest) ← readCount? 2 0 23 text
  let (_, rest) ← readCount? 2 0 59 (← readMark? ':' rest)
  let (_, rest) ← readCount? 2 0 60 (← readMark? ':' rest)
  match rest with
  | '.' :: fraction =>
      if (fraction.takeWhile Char.isDigit).isEmpty then none
      else some (fraction.dropWhile Char.isDigit)
  | _ => some rest

/-- Whether a text is a distance to universal time. -/
def isDistance : List Char → Bool
  | [] => false
  | mark :: rest =>
      if mark = 'Z' ∨ mark = 'z' then rest.isEmpty
      else if mark = '+' ∨ mark = '-' then
        let after := do
          let (_, rest) ← readCount? 2 0 23 rest
          let (_, rest) ← readCount? 2 0 59 (← readMark? ':' rest)
          some rest
        after == some []
      else false

/-- Whether a text is a time, perhaps with a distance to universal time. -/
def isMoment (text : List Char) : Bool :=
  match afterTime? text with
  | some rest => rest.isEmpty || isDistance rest
  | none => false

/-- Whether a text without spaces is a date, a time, or both with a letter between them. -/
def isDate (text : List Char) : Bool :=
  match afterDate? text with
  | some [] => true
  | some (letter :: rest) => (letter == 'T' || letter == 't') && isMoment rest
  | none => afterTime? text == some []

/-- The truth value, number or date that a text without spaces stands for. -/
def scalar? (text : List Char) : Option Value :=
  if text = ['t', 'r', 'u', 'e'] then some (.boolean true)
  else if text = ['f', 'a', 'l', 's', 'e'] then some (.boolean false)
  else if isDate text then some (.date (String.ofList text))
  else
    match integer? text with
    | some value => some (.integer value)
    | none => if isFloat text then some (.float (String.ofList text)) else none

/-- Read a truth value, a number or a date.  A time may follow its date after a space, and it does
if the character after the space is a digit. -/
def readScalar? (text : List Char) : Option (Value × List Char) :=
  let word := text.takeWhile isScalarChar
  let rest := text.dropWhile isScalarChar
  match afterDate? word, rest with
  | some [], ' ' :: digit :: more =>
      let time := (digit :: more).takeWhile isScalarChar
      if !digit.isDigit then some (.date (String.ofList word), rest)
      else if isMoment time then
        some (.date (String.ofList (word ++ ' ' :: time)), (digit :: more).dropWhile isScalarChar)
      else none
  | _, _ => (scalar? word).map fun value => (value, rest)

end NetDecl.Toml
