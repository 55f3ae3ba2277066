import NetDecl.Json.Number

/-!
# Reading whole numbers

The numeral of a 64-bit word is read as the word, if what stands behind it does not go on with the
number.  All its digits have room in the significand, so it is never too large.
-/

namespace NetDecl.Json

/-- The text does not go on with a number that stands before it. -/
def EndsNumber (text : List Char) : Prop :=
  ∀ char ∈ text.head?, char.isDigit = false ∧ char ≠ '.' ∧ char ≠ 'e' ∧ char ≠ 'E'

theorem endsNumber_nil : EndsNumber [] :=
  nofun

theorem endsNumber_cons {char : Char} (digit : char.isDigit = false)
    (others : char ≠ '.' ∧ char ≠ 'e' ∧ char ≠ 'E') (text : List Char) :
    EndsNumber (char :: text) := by
  intro found equal
  cases equal
  exact ⟨digit, others⟩

/-! ## Numerals -/

/-- A numeral begins with zero only if it is that of zero. -/
theorem head?_toDigits {value : Nat} (zero : (Nat.toDigits 10 value).head? = some '0') :
    value = 0 := by
  induction value using Nat.base_induction 10 (by decide) with
  | single value below =>
    rw [Nat.toDigits_of_lt_base below, List.head?_cons, Option.some.injEq,
      Nat.digitChar_eq_zero] at zero
    exact zero
  | digit value last below positive ih =>
    rw [← Nat.toDigits_append_toDigits (by decide) positive below,
      List.head?_append, Option.or_of_isSome (List.isSome_head?.2 Nat.toDigits_ne_nil)] at zero
    exact absurd (ih zero) (by omega)

theorem takeWhile_toDigits (value : Nat) {rest : List Char} (ends : EndsNumber rest) :
    (Nat.toDigits 10 value ++ rest).takeWhile Char.isDigit = Nat.toDigits 10 value ∧
      (Nat.toDigits 10 value ++ rest).dropWhile Char.isDigit = rest := by
  have digits : ∀ char ∈ Nat.toDigits 10 value, char.isDigit = true :=
    fun _ mem => Nat.isDigit_of_mem_toDigits (by decide) (by decide) mem
  rw [List.takeWhile_append_of_pos digits, List.dropWhile_append_of_pos digits]
  cases rest with
  | nil => simp
  | cons char rest =>
    have other := (ends char rfl).1
    simp [other]

theorem readDigits?_toDigits (value : Nat) {rest : List Char} (ends : EndsNumber rest) :
    readDigits? (Nat.toDigits 10 value ++ rest) = some (Nat.toDigits 10 value, rest) := by
  obtain ⟨taken, dropped⟩ := takeWhile_toDigits value ends
  unfold readDigits?
  rw [taken, dropped]
  split
  · rename_i none
    exact absurd none Nat.toDigits_ne_nil
  · rfl

theorem readWhole?_toDigits (value : Nat) {rest : List Char} (ends : EndsNumber rest) :
    readWhole? (Nat.toDigits 10 value ++ rest) = some (Nat.toDigits 10 value, rest) := by
  have fine : ¬((Nat.toDigits 10 value).head? = some '0' ∧ (Nat.toDigits 10 value).length ≠ 1) := by
    rintro ⟨zero, longer⟩
    rw [head?_toDigits zero] at longer
    exact longer rfl
  simp only [readWhole?, readDigits?_toDigits value ends, Option.bind_eq_bind, Option.bind_some,
    if_neg fine]

theorem readFraction?_of_endsNumber {rest : List Char} (ends : EndsNumber rest) :
    readFraction? rest = some ([], rest) := by
  unfold readFraction?
  split
  · exact absurd rfl (ends '.' rfl).2.1
  · rfl

theorem readExponent?_of_endsNumber {rest : List Char} (ends : EndsNumber rest) :
    readExponent? rest = some ([], rest) := by
  cases rest with
  | nil => rfl
  | cons char rest =>
    obtain ⟨-, -, lower, upper⟩ := ends char rfl
    rw [readExponent?, if_neg (not_or.2 ⟨lower, upper⟩)]

/-! ## Sizes -/

theorem le_ofDigitChars (digits : List Char) (start : Nat) :
    start ≤ Nat.ofDigitChars 10 digits start := by
  rw [Nat.ofDigitChars_eq_ofDigitChars_zero]
  calc
    start ≤ 10 ^ digits.length * start := Nat.le_mul_of_pos_left _ (Nat.pow_pos (by decide))
    _ ≤ _ := Nat.le_add_right _ _

/-- Digits that make up a word are all taken in. -/
theorem appendDigits_of_lt {digits : List Char} {start : Nat}
    (bounded : Nat.ofDigitChars 10 digits start < UInt64.size) :
    appendDigits start digits = (Nat.ofDigitChars 10 digits start, []) := by
  induction digits generalizing start with
  | nil => rfl
  | cons digit digits ih =>
    have step : Nat.ofDigitChars 10 (digit :: digits) start =
        Nat.ofDigitChars 10 digits (Nat.ofDigitChars 10 [digit] start) := rfl
    rw [step] at bounded ⊢
    have room := Nat.lt_of_le_of_lt (le_ofDigitChars digits _) bounded
    rw [appendDigits, if_pos room, ih bounded]

theorem nearestMultiple_le (unit number : Nat) :
    Text.nearestMultiple unit number ≤ number + unit := by
  have below := Nat.div_mul_le_self number unit
  unfold Text.nearestMultiple
  dsimp only
  split
  · rw [Nat.succ_mul]
    omega
  · omega

theorem nearestDouble_le {number : Nat} (positive : number ≠ 0) :
    Text.nearestDouble number ≤ 2 * number := by
  have unit : Nat.pow 2 (number.log2 - 52) ≤ number := by
    calc
      2 ^ (number.log2 - 52) ≤ 2 ^ number.log2 := Nat.pow_le_pow_right (by decide) (Nat.sub_le _ _)
      _ ≤ number := Nat.log2_self_le positive
  have nearest : Text.nearestDouble number ≤ number + _ := nearestMultiple_le _ _
  omega

/-- A word is far below the bound of double precision. -/
theorem isTooLarge_of_lt {value : Nat} (bounded : value < UInt64.size) :
    Magnitude.isTooLarge ⟨value, 0⟩ = false := by
  change (value != 0 && (decide (309 ≤ 0) || decide (Text.doubleBound ≤
    Text.nearestDouble value * Text.nearestDouble (Nat.pow 10 0)))) = false
  by_cases zero : value = 0
  · rw [zero]
    rfl
  · have one : Text.nearestDouble (Nat.pow 10 0) = 1 := by decide
    have bound : 2 * UInt64.size < Text.doubleBound := by decide +kernel
    have nearest := nearestDouble_le zero
    have below : ¬Text.doubleBound ≤ Text.nearestDouble value := by omega
    rw [one, Nat.mul_one, decide_eq_false below]
    simp

theorem ofDigits_toDigits {value : Nat} (bounded : value < UInt64.size) :
    Magnitude.ofDigits (Nat.toDigits 10 value) [] [] = ⟨value, 0⟩ := by
  have same : Nat.ofDigitChars 10 (Nat.toDigits 10 value) 0 = value :=
    Nat.ofDigitChars_ten_toDigits
  have taken := appendDigits_of_lt (same.symm ▸ bounded)
  rw [same] at taken
  simp only [Magnitude.ofDigits, taken, appendDigits, exponentOf, List.length_nil]
  rfl

/-- A numeral begins with a digit. -/
theorem exists_toDigits_eq_cons (value : Nat) :
    ∃ digit digits, Nat.toDigits 10 value = digit :: digits ∧ digit.isDigit = true := by
  obtain ⟨digit, digits, written⟩ :=
    List.exists_cons_of_ne_nil (Nat.toDigits_ne_nil (n := value) (b := 10))
  have mem : digit ∈ Nat.toDigits 10 value := written ▸ List.mem_cons_self
  exact ⟨digit, digits, written, Nat.isDigit_of_mem_toDigits (by decide) (by decide) mem⟩

/-- The numeral of a word is read as the word. -/
theorem readNumber?_toDigits {value : Nat} (bounded : value < UInt64.size) {rest : List Char}
    (ends : EndsNumber rest) :
    readNumber? (Nat.toDigits 10 value ++ rest) = some (.natural value, rest) := by
  have small : (Magnitude.ofDigits (Nat.toDigits 10 value) [] []).isTooLarge = false := by
    rw [ofDigits_toDigits bounded, isTooLarge_of_lt bounded]
  unfold readNumber?
  split
  rename_i sign text equal
  split at equal
  · rename_i minus
    obtain ⟨digit, digits, written, isDigit⟩ := exists_toDigits_eq_cons value
    rw [written, List.cons_append, List.cons.injEq] at minus
    rw [minus.1] at isDigit
    cases isDigit
  · cases equal
    simp only [readWhole?_toDigits value ends, readFraction?_of_endsNumber ends,
      readExponent?_of_endsNumber ends, Option.bind_eq_bind, Option.bind_some, List.drop_nil, small,
      Nat.ofDigitChars_ten_toDigits]
    rfl

end NetDecl.Json
