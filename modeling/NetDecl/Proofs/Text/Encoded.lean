import NetDecl.Proofs.Text.Mark

/-!
# Texts in bytes

Characters are written one behind another in UTF-8, and the first byte of a character is none that
could continue another.  So bytes tell by themselves where they can be cut, and equal bytes are
those of equal characters.  The letters from `A` to `Z` take a byte each, and no other character has
such a byte: their case can be disregarded byte by byte.  Hence a mark is found at the front of a
word without a look at the characters of either.
-/

namespace NetDecl.Text

/-- The bytes of characters in UTF-8. -/
def encode (chars : List Char) : List UInt8 :=
  chars.flatMap String.utf8EncodeChar

/-- Whether a byte continues a character that has begun before it. -/
def continues (byte : UInt8) : Bool :=
  0x80 ≤ byte && byte < 0xc0

/-- Whether bytes can be cut at an offset: not beyond their end, and not in front of a byte that
continues a character. -/
def canCut (bytes : List UInt8) (offset : Nat) : Bool :=
  offset == 0 || (offset ≤ bytes.length && bytes[offset]?.all fun byte => !continues byte)

/-- The bytes between two offsets, provided that they can be cut at both. -/
def cut? (bytes : List UInt8) (start stop : Nat) : Option (List UInt8) :=
  if start ≤ stop ∧ canCut bytes start = true ∧ canCut bytes stop = true then
    some ((bytes.take stop).drop start)
  else
    none

/-- The byte of a letter from `A` to `Z` in lower case; any other byte as it is. -/
def lowerByte (byte : UInt8) : UInt8 :=
  if 0x41 ≤ byte ∧ byte ≤ 0x5a then byte + 0x20 else byte

/-- Whether bytes agree up to the case of ASCII letters. -/
def sameBytes (left right : List UInt8) : Bool :=
  left.map lowerByte == right.map lowerByte

/-- Whether the bytes of a word begin with those of a mark.  Only as many bytes as the mark has are
cut off from the word, if that is possible, and compared. -/
def bytesBeginWith (word mark : List UInt8) : Bool :=
  (cut? word 0 mark.length).any fun front => sameBytes front mark

/-! ## Bytes of characters -/

theorem encode_toList (text : String) : encode text.toList = text.toUTF8.data.toList := by
  rw [String.toUTF8_eq_toByteArray, ← String.utf8Encode_toList, List.utf8Encode,
    List.toList_data_toByteArray, encode]

@[simp]
theorem encode_nil : encode [] = [] :=
  rfl

@[simp]
theorem encode_cons (char : Char) (chars : List Char) :
    encode (char :: chars) = String.utf8EncodeChar char ++ encode chars :=
  List.flatMap_cons

@[simp]
theorem encode_append (front back : List Char) :
    encode (front ++ back) = encode front ++ encode back :=
  List.flatMap_append

@[simp]
theorem length_encode (chars : List Char) : (encode chars).length = byteLength chars := by
  induction chars with
  | nil => rfl
  | cons char chars ih =>
    rw [encode_cons, List.length_append, String.length_utf8EncodeChar, ih, byteLength_cons]

/-- Equal bytes are those of equal characters. -/
theorem encode_injective : Function.Injective encode := by
  intro left right same
  have arrays : left.utf8Encode = right.utf8Encode := congrArg List.toByteArray same
  have texts : String.ofList left = String.ofList right := by
    rw [← String.toByteArray_inj, String.toByteArray_ofList, String.toByteArray_ofList, arrays]
  exact String.ofList_inj.1 texts

/-! ## Cuts -/

/-- All bytes of a character but the first continue it. -/
theorem exists_utf8EncodeChar_eq_cons (char : Char) :
    ∃ first others, String.utf8EncodeChar char = first :: others ∧ continues first = false ∧
      ∀ byte ∈ others, continues byte = true := by
  have valid := char.valid
  -- One case for each number of bytes that a character can take.
  fun_cases String.utf8EncodeChar char <;> refine ⟨_, _, rfl, ?_, ?_⟩ <;>
    simp [continues, UInt8.le_iff_toNat_le, UInt8.lt_iff_toNat_lt] <;> omega

theorem continues_of_head?_encode {chars : List Char} {byte : UInt8}
    (head : (encode chars).head? = some byte) : continues byte = false := by
  cases chars with
  | nil => cases head
  | cons char chars =>
    rcases exists_utf8EncodeChar_eq_cons char with ⟨first, others, bytes, starts, -⟩
    rw [encode_cons, bytes] at head
    cases head
    exact starts

/-- There is no cut inside a character. -/
theorem canCut_encode_cons_of_lt {char : Char} {offset : Nat} (positive : 0 < offset)
    (inside : offset < char.utf8Size) (chars : List Char) :
    canCut (encode (char :: chars)) offset = false := by
  rcases exists_utf8EncodeChar_eq_cons char with ⟨first, others, bytes, -, continued⟩
  rw [← String.length_utf8EncodeChar, bytes] at inside
  obtain ⟨place, rfl⟩ := Nat.exists_eq_add_one.2 positive
  have within : place < others.length := Nat.lt_of_succ_lt_succ inside
  have next : (encode (char :: chars))[place + 1]? = some others[place] := by
    rw [encode_cons, bytes, List.getElem?_append_left inside, List.getElem?_cons_succ,
      List.getElem?_eq_getElem within]
  rw [canCut, next, Option.all_some, continued _ (List.getElem_mem within), Bool.not_true,
    Bool.and_false]
  rfl

/-- Behind a character the bytes can be cut where those of the characters after it can. -/
theorem canCut_of_canCut_encode_cons {char : Char} {chars : List Char} {offset : Nat}
    (cut : canCut (encode (char :: chars)) (char.utf8Size + offset) = true) :
    canCut (encode chars) offset = true := by
  have next : (encode (char :: chars))[char.utf8Size + offset]? = (encode chars)[offset]? := by
    rw [encode_cons, ← String.length_utf8EncodeChar,
      List.getElem?_append_right (Nat.le_add_right _ _), Nat.add_sub_cancel_left]
  simp only [canCut, next, length_encode, byteLength_cons, Nat.add_le_add_iff_left,
    Bool.or_eq_true, beq_iff_eq] at cut ⊢
  exact cut.imp_left Nat.eq_zero_of_add_eq_zero_left

/-- Where a character ends there is a cut. -/
theorem canCut_encode_append (front back : List Char) :
    canCut (encode (front ++ back)) (byteLength front) = true := by
  have next : (encode (front ++ back))[byteLength front]? = (encode back).head? := by
    rw [encode_append, ← length_encode, List.getElem?_append_right (Nat.le_refl _), Nat.sub_self,
      List.head?_eq_getElem?]
  have starts : ((encode back).head?.all fun byte => !continues byte) = true := by
    rw [Option.all_eq_true]
    intro byte head
    rw [continues_of_head?_encode head, Bool.not_false]
  have within : byteLength front ≤ (encode (front ++ back)).length := by
    rw [length_encode, byteLength_append]
    exact Nat.le_add_right _ _
  rw [canCut, next, starts, decide_eq_true within]
  exact Bool.or_true _

/-- Bytes of characters can be cut exactly where a character ends. -/
theorem canCut_encode_iff {chars : List Char} {offset : Nat} :
    canCut (encode chars) offset = true ↔
      ∃ front back, chars = front ++ back ∧ byteLength front = offset := by
  constructor
  · intro cut
    -- Character by character: the offset is in front of the first, inside it or behind it.
    induction chars generalizing offset with
    | nil =>
      have zero : offset = 0 := by simpa [canCut] using cut
      exact ⟨[], [], rfl, zero.symm⟩
    | cons char chars ih =>
      rcases Nat.eq_zero_or_pos offset with rfl | positive
      · exact ⟨[], char :: chars, rfl, rfl⟩
      · rcases Nat.lt_or_ge offset char.utf8Size with inside | behind
        · rw [canCut_encode_cons_of_lt positive inside] at cut
          cases cut
        · obtain ⟨further, rfl⟩ := Nat.exists_eq_add_of_le behind
          rcases ih (canCut_of_canCut_encode_cons cut) with ⟨front, back, rfl, rfl⟩
          exact ⟨char :: front, back, rfl, rfl⟩
  · rintro ⟨front, back, rfl, rfl⟩
    exact canCut_encode_append front back

theorem eq_nil_of_byteLength_eq_zero {chars : List Char} (zero : byteLength chars = 0) :
    chars = [] :=
  List.eq_nil_of_length_eq_zero (Nat.eq_zero_of_le_zero (zero ▸ length_le_byteLength chars))

/-- Of two fronts of a text, the one that takes more bytes goes on where the other ends. -/
theorem exists_eq_append_of_byteLength_le {front rest passed back : List Char}
    (whole : front ++ rest = passed ++ back) (le : byteLength front ≤ byteLength passed) :
    ∃ taken, passed = front ++ taken ∧ rest = taken ++ back := by
  rcases List.append_eq_append_iff.1 whole with found | ⟨excess, rfl, rfl⟩
  · exact found
  · rw [byteLength_append] at le
    obtain rfl : excess = [] := eq_nil_of_byteLength_eq_zero (by omega)
    exact ⟨[], by simp, by simp⟩

/-- What is cut out of the bytes of characters are the bytes of some of them. -/
theorem cut?_encode_eq_some_iff {chars : List Char} {start stop : Nat} {part : List UInt8} :
    cut? (encode chars) start stop = some part ↔
      ∃ front taken back, chars = front ++ (taken ++ back) ∧ byteLength front = start ∧
        byteLength (front ++ taken) = stop ∧ encode taken = part := by
  have between (front taken back : List Char) :
      ((encode (front ++ (taken ++ back))).take (byteLength (front ++ taken))).drop
        (byteLength front) = encode taken := by
    rw [← List.append_assoc, encode_append, List.take_left' (length_encode _), encode_append,
      List.drop_left' (length_encode _)]
  rw [cut?, Option.ite_none_right_eq_some]
  constructor
  · rintro ⟨⟨le, startCut, stopCut⟩, cut⟩
    rcases canCut_encode_iff.1 startCut with ⟨front, rest, rfl, rfl⟩
    rcases canCut_encode_iff.1 stopCut with ⟨passed, back, whole, rfl⟩
    rcases exists_eq_append_of_byteLength_le whole le with ⟨taken, rfl, rfl⟩
    rw [between] at cut
    exact ⟨front, taken, back, rfl, rfl, rfl, Option.some.inj cut⟩
  · rintro ⟨front, taken, back, rfl, rfl, rfl, rfl⟩
    refine ⟨⟨?_, canCut_encode_append _ _, ?_⟩, congrArg some (between front taken back)⟩
    · rw [byteLength_append]
      exact Nat.le_add_right _ _
    · rw [← List.append_assoc]
      exact canCut_encode_append _ _

/-! ## Case -/

theorem toNat_lowerByte (byte : UInt8) :
    (lowerByte byte).toNat =
      if 65 ≤ byte.toNat ∧ byte.toNat ≤ 90 then byte.toNat + 32 else byte.toNat := by
  unfold lowerByte
  simp only [UInt8.le_iff_toNat_le, UInt8.reduceToNat]
  split
  · rw [UInt8.toNat_add]
    exact Nat.mod_eq_of_lt (by simp only [UInt8.reduceToNat]; omega)
  · rfl

/-- A character of ASCII is a byte with its number. -/
theorem exists_utf8EncodeChar_eq_singleton {char : Char} (ascii : char.toNat ≤ 127) :
    ∃ byte, String.utf8EncodeChar char = [byte] ∧ byte.toNat = char.toNat := by
  refine ⟨UInt8.ofNat char.toNat, if_pos ascii, ?_⟩
  exact UInt8.toNat_ofNat_of_lt' (Nat.lt_of_le_of_lt ascii (by decide))

/-- No byte of a character beyond ASCII is that of an ASCII character. -/
theorem le_of_mem_utf8EncodeChar {char : Char} (beyond : 127 < char.toNat) :
    ∀ byte ∈ String.utf8EncodeChar char, 128 ≤ byte.toNat := by
  have valid := char.valid
  change 127 < char.val.toNat at beyond
  fun_cases String.utf8EncodeChar char <;> simp <;> omega

/-- The bytes of a character are put into lower case with it. -/
theorem map_lowerByte_utf8EncodeChar (char : Char) :
    (String.utf8EncodeChar char).map lowerByte = String.utf8EncodeChar char.toLower := by
  rcases Nat.lt_or_ge 127 char.toNat with beyond | ascii
  · have unchanged : ∀ byte ∈ String.utf8EncodeChar char, lowerByte byte = id byte := by
      intro byte mem
      have high := le_of_mem_utf8EncodeChar beyond byte mem
      rw [← UInt8.toNat_inj, toNat_lowerByte, if_neg (by omega)]
      rfl
    rw [toLower_eq_self (by omega), List.map_congr_left unchanged, List.map_id]
  · have lower := toNat_toLower char
    have lowerAscii : char.toLower.toNat ≤ 127 := by
      split at lower <;> omega
    rcases exists_utf8EncodeChar_eq_singleton ascii with ⟨byte, bytes, number⟩
    rcases exists_utf8EncodeChar_eq_singleton lowerAscii with ⟨other, others, otherNumber⟩
    rw [bytes, others, List.map_singleton, List.singleton_inj, ← UInt8.toNat_inj, toNat_lowerByte,
      number, otherNumber, lower]

theorem map_lowerByte_encode (chars : List Char) :
    (encode chars).map lowerByte = encode (chars.map Char.toLower) := by
  induction chars with
  | nil => rfl
  | cons char chars ih =>
    rw [encode_cons, List.map_append, map_lowerByte_utf8EncodeChar, ih, List.map_cons, encode_cons]

/-- Bytes agree up to case exactly if the characters do. -/
theorem sameBytes_encode (left right : List Char) :
    sameBytes (encode left) (encode right) = sameLetters left right := by
  rw [Bool.eq_iff_iff, sameBytes, sameLetters, beq_iff_eq, beq_iff_eq, map_lowerByte_encode,
    map_lowerByte_encode, encode_injective.eq_iff]

/-! ## Marks -/

/-- The bytes of a word begin with those of a mark exactly if the word begins with the mark. -/
theorem bytesBeginWith_encode (word mark : String) :
    bytesBeginWith (encode word.toList) (encode mark.toList) = beginsWith word mark := by
  rw [Bool.eq_iff_iff, bytesBeginWith, Option.any_eq_true, length_encode, beginsWith]
  constructor
  · rintro ⟨part, cut, same⟩
    rcases cut?_encode_eq_some_iff.1 cut with ⟨before, front, back, whole, empty, length, rfl⟩
    rw [eq_nil_of_byteLength_eq_zero empty, List.nil_append] at whole length
    rw [splitBytes?_eq_some_iff.2 ⟨whole, length⟩]
    rwa [sameBytes_encode] at same
  · intro begins
    split at begins
    · rename_i front back split
      rcases splitBytes?_eq_some_iff.1 split with ⟨whole, length⟩
      have cut : cut? (encode word.toList) 0 (byteLength mark.toList) = some (encode front) :=
        cut?_encode_eq_some_iff.2 ⟨[], front, back, whole, rfl, length, rfl⟩
      refine ⟨encode front, cut, ?_⟩
      rwa [sameBytes_encode]
    · cases begins

end NetDecl.Text
