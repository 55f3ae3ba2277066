import NetDecl.Text.Bytes

/-!
# Words that begin with a mark

Whether a word begins with a mark is decided on a part of the word with as many bytes as the mark.
Letters that agree up to case take equally many bytes, so that the test is the same as one that
compares characters.
-/

namespace NetDecl.Text

/-- A cut after a number of bytes lies where a part of that many bytes ends. -/
theorem splitBytes?_eq_some_iff {chars front back : List Char} {count : Nat} :
    splitBytes? chars count = some (front, back) ↔
      chars = front ++ back ∧ byteLength front = count := by
  fun_induction splitBytes? chars count generalizing front with
  | case1 chars =>
    constructor
    · intro split
      cases split
      exact ⟨rfl, rfl⟩
    · rintro ⟨rfl, empty⟩
      cases front with
      | nil => rfl
      | cons char front =>
        have positive := char.utf8Size_pos
        rw [byteLength_cons] at empty
        omega
  | case2 count =>
    simp only [reduceCtorEq, List.nil_eq, List.append_eq_nil_iff, false_iff, not_and]
    rintro ⟨rfl, -⟩
    simp
  | case3 char chars count fits ih =>
    rw [Option.map_eq_some_iff]
    constructor
    · rintro ⟨⟨inner, outer⟩, split, equal⟩
      cases equal
      obtain ⟨rfl, length⟩ := ih.1 split
      refine ⟨rfl, ?_⟩
      rw [byteLength_cons, length]
      omega
    · rintro ⟨whole, length⟩
      cases front with
      | nil => cases length
      | cons first front =>
        obtain ⟨rfl, rfl⟩ := List.cons.inj whole
        rw [byteLength_cons] at length
        exact ⟨(front, back), ih.2 ⟨rfl, by omega⟩, rfl⟩
  | case4 char chars count exceeds =>
    simp only [reduceCtorEq, false_iff, not_and]
    intro whole length
    cases front with
    | nil => cases length
    | cons first front =>
      obtain ⟨rfl, rfl⟩ := List.cons.inj whole
      rw [byteLength_cons] at length
      omega

theorem byteLength_toList (text : String) : byteLength text.toList = text.utf8ByteSize := by
  have ofList : ∀ chars : List Char, byteLength chars = (String.ofList chars).utf8ByteSize := by
    intro chars
    induction chars with
    | nil => rfl
    | cons char chars ih =>
      rw [← List.singleton_append, String.ofList_append, String.utf8ByteSize_append, ← ih,
        byteLength_append]
      simp
  rw [ofList, String.ofList_toList]

/-- Every character takes a byte at least. -/
theorem length_le_byteLength (chars : List Char) : chars.length ≤ byteLength chars := by
  induction chars with
  | nil => exact Nat.le_refl 0
  | cons char chars ih =>
    rw [List.length_cons, byteLength_cons, Nat.add_comm]
    exact Nat.add_le_add char.utf8Size_pos ih

/-- Only the letters from `A` to `Z` have another lower case. -/
theorem toNat_toLower (char : Char) :
    char.toLower.toNat =
      if 65 ≤ char.toNat ∧ char.toNat ≤ 90 then char.toNat + 32 else char.toNat := by
  unfold Char.toLower
  split
  · rename_i upper
    have low : 65 ≤ char.toNat := upper.1
    have high : char.toNat ≤ 90 := upper.2
    rw [if_pos ⟨low, high⟩]
    have width : char.toNat + 32 < 2 ^ 32 := by omega
    exact Nat.mod_eq_of_lt width
  · rename_i other
    exact (if_neg other).symm

theorem toLower_eq_self {char : Char} (other : ¬(65 ≤ char.toNat ∧ char.toNat ≤ 90)) :
    char.toLower = char := by
  rw [← Char.toNat_inj, toNat_toLower, if_neg other]

theorem utf8Size_eq_one {char : Char} (ascii : char.toNat ≤ 127) : char.utf8Size = 1 :=
  Char.utf8Size_eq_one_iff.2 ascii

theorem utf8Size_toLower (char : Char) : char.toLower.utf8Size = char.utf8Size := by
  by_cases upper : 65 ≤ char.toNat ∧ char.toNat ≤ 90
  · have lower := toNat_toLower char
    rw [if_pos upper] at lower
    rw [utf8Size_eq_one (by omega), utf8Size_eq_one (by omega)]
  · rw [toLower_eq_self upper]

/-- Letters that agree up to case take equally many bytes. -/
theorem byteLength_eq_of_sameLetters {left right : List Char}
    (same : sameLetters left right = true) :
    byteLength left = byteLength right := by
  have lower (chars : List Char) : byteLength (chars.map Char.toLower) = byteLength chars := by
    induction chars with
    | nil => rfl
    | cons char chars ih => rw [List.map_cons, byteLength_cons, byteLength_cons, ih,
        utf8Size_toLower]
  rw [← lower left, ← lower right, beq_iff_eq.1 same]

theorem length_eq_of_sameLetters {left right : List Char} (same : sameLetters left right = true) :
    left.length = right.length := by
  have equal := congrArg List.length (beq_iff_eq.1 same)
  simpa using equal

/-- A word begins with a mark if its first characters are those of the mark up to case. -/
theorem beginsWith_eq (word mark : String) :
    beginsWith word mark =
      sameLetters (word.toList.take mark.toList.length) mark.toList := by
  rw [Bool.eq_iff_iff]
  unfold beginsWith
  constructor
  · intro begins
    split at begins
    · rename_i front back split
      obtain ⟨whole, -⟩ := splitBytes?_eq_some_iff.1 split
      rw [whole, ← length_eq_of_sameLetters begins, List.take_left' rfl]
      exact begins
    · cases begins
  · intro same
    have split : splitBytes? word.toList (byteLength mark.toList) =
        some (word.toList.take mark.toList.length, word.toList.drop mark.toList.length) :=
      splitBytes?_eq_some_iff.2
        ⟨(List.take_append_drop _ _).symm, byteLength_eq_of_sameLetters same⟩
    rw [split]
    exact same

end NetDecl.Text
