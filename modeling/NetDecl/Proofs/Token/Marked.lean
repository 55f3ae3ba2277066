import NetDecl.Proofs.Text.Encoded
import NetDecl.Proofs.Token.Exact

/-!
# Words that begin with a mark

The word of a token is cut out of the bytes of the text, and as many of its bytes as a mark has are
compared with those of the mark.  What comes of it can be said of characters alone: the word is at
least as long as the mark, and each character of the mark stands in the word at the same place, up
to the case of ASCII letters.
-/

namespace NetDecl

namespace Text

/-! ## Characters up to case -/

/-- The two characters are a letter from `A` to `Z` and the same letter in lower case. -/
def IsCasePair (upper lower : Char) : Prop :=
  'A' ≤ upper ∧ upper ≤ 'Z' ∧ lower.toNat = upper.toNat + 32

/-- The two characters are the same up to the case of ASCII letters. -/
def SameUpToCase (left right : Char) : Prop :=
  left = right ∨ IsCasePair left right ∨ IsCasePair right left

theorem isCasePair_iff {upper lower : Char} :
    IsCasePair upper lower ↔
      (65 ≤ upper.toNat ∧ upper.toNat ≤ 90) ∧ lower.toNat = upper.toNat + 32 :=
  and_assoc.symm

theorem toLower_eq_toLower_iff {left right : Char} :
    left.toLower = right.toLower ↔ SameUpToCase left right := by
  rw [SameUpToCase, isCasePair_iff, isCasePair_iff, ← Char.toNat_inj, ← Char.toNat_inj,
    toNat_toLower, toNat_toLower]
  split <;> split <;> omega

/-- Beyond ASCII, no two characters are the same up to case. -/
theorem SameUpToCase.eq_of_lt {left right : Char} (same : SameUpToCase left right)
    (beyond : 127 < left.toNat ∨ 127 < right.toNat) : left = right := by
  rw [SameUpToCase, isCasePair_iff, isCasePair_iff] at same
  rcases same with equal | pair | pair
  · exact equal
  · omega
  · omega

/-- The word has no fewer characters than the mark, and the characters of the mark are those of the
word at the same places, up to case. -/
structure BeginsUpToCase (word mark : List Char) : Prop where
  length_le : mark.length ≤ word.length
  same : ∀ place (inWord : place < word.length) (inMark : place < mark.length),
    SameUpToCase word[place] mark[place]

theorem sameLetters_iff {left right : List Char} :
    sameLetters left right = true ↔
      left.length = right.length ∧
        ∀ place (inLeft : place < left.length) (inRight : place < right.length),
          SameUpToCase left[place] right[place] := by
  rw [sameLetters, beq_iff_eq, List.ext_getElem_iff]
  simp only [List.length_map, List.getElem_map, toLower_eq_toLower_iff]

theorem sameLetters_take_iff {word mark : List Char} :
    sameLetters (word.take mark.length) mark = true ↔ BeginsUpToCase word mark := by
  rw [sameLetters_iff]
  constructor
  · rintro ⟨length, same⟩
    have length_le : mark.length ≤ word.length := length ▸ List.length_take_le' _ _
    refine ⟨length_le, fun place inWord inMark => ?_⟩
    have taken := same place (Nat.lt_of_lt_of_eq inMark length.symm) inMark
    rwa [List.getElem_take] at taken
  · rintro ⟨length_le, same⟩
    refine ⟨List.length_take_of_le length_le, fun place inTaken inMark => ?_⟩
    rw [List.getElem_take]
    exact same place (Nat.lt_of_lt_of_le inMark length_le) inMark

theorem beginsWith_iff {word mark : String} :
    beginsWith word mark = true ↔ BeginsUpToCase word.toList mark.toList := by
  rw [beginsWith_eq, sameLetters_take_iff]

/-- As many bytes as the mark has make up as many characters of the word as the mark has. -/
theorem exists_eq_append_of_beginsWith {word mark : String}
    (begins : beginsWith word mark = true) :
    ∃ front back, word = front ++ back ∧ front.utf8ByteSize = mark.utf8ByteSize ∧
      front.length = mark.length := by
  rw [beginsWith_eq] at begins
  refine ⟨String.ofList (word.toList.take mark.toList.length),
    String.ofList (word.toList.drop mark.toList.length), ?_, ?_, ?_⟩
  · rw [← String.ofList_append, List.take_append_drop, String.ofList_toList]
  · rw [← byteLength_toList, String.toList_ofList, byteLength_eq_of_sameLetters begins,
      byteLength_toList]
  · rw [← String.length_toList, String.toList_ofList, length_eq_of_sameLetters begins,
      String.length_toList]

/-- Whether the word between two offsets of a text begins with a mark, decided on the bytes of both.
Where the text cannot be cut, the word has no bytes. -/
def sliceBeginsWith (text : List UInt8) (start stop : Nat) (mark : List UInt8) : Bool :=
  bytesBeginWith ((cut? text start stop).getD []) mark

end Text

/-! ## Tokens -/

/-- The bytes of a token are those of the text between its byte offsets. -/
theorem Token.Spans.cut?_eq {token : Token} {text : String} {front taken back : List Char}
    (spans : token.Spans front taken) (whole : text.toList = front ++ (taken ++ back)) :
    Text.cut? (Text.encode text.toList) token.byteStart token.byteStop =
      some (Text.encode token.text.toList) := by
  rw [Text.cut?_encode_eq_some_iff]
  refine ⟨front, taken, back, whole, spans.byteStart.symm, spans.byteStop.symm, ?_⟩
  rw [spans.text, String.toList_ofList]

/-- A word of a text begins with a mark exactly if it does so character by character, and exactly if
that is found on the bytes of text and mark.  Where it is found, the bytes compared are those of
whole characters, as many as the mark has, and those beyond ASCII are the characters of the mark. -/
theorem Token.beginsWith_iff_characterwise {text : String} {token : Token}
    (mem : token ∈ tokenize text) (isWord : token.isWord = true) (mark : String) :
    (token.beginsWith mark = true ↔ Text.BeginsUpToCase token.text.toList mark.toList) ∧
      token.beginsWith mark =
        Text.sliceBeginsWith text.toUTF8.data.toList token.byteStart token.byteStop
          mark.toUTF8.data.toList ∧
      (token.beginsWith mark = true →
        (∃ front back, token.text = front ++ back ∧ front.utf8ByteSize = mark.utf8ByteSize ∧
          front.length = mark.length) ∧
        ∀ place (inWord : place < token.text.toList.length)
          (inMark : place < mark.toList.length),
          127 < token.text.toList[place].toNat ∨ 127 < mark.toList[place].toNat →
            token.text.toList[place] = mark.toList[place]) := by
  have decides : token.beginsWith mark = Text.beginsWith token.text mark := by
    rw [Token.beginsWith, isWord, Bool.true_and]
  rw [decides]
  refine ⟨Text.beginsWith_iff, ?_, ?_⟩
  · rcases (tiles_tokenize text).fits_of_mem token mem with ⟨front, taken, back, whole, spans, -⟩
    rw [← Text.encode_toList, ← Text.encode_toList, Text.sliceBeginsWith, spans.cut?_eq whole,
      Option.getD_some, Text.bytesBeginWith_encode]
  · intro begins
    refine ⟨Text.exists_eq_append_of_beginsWith begins, fun place inWord inMark beyond => ?_⟩
    exact ((Text.beginsWith_iff.1 begins).same place inWord inMark).eq_of_lt beyond

/-- The word ends in the Kelvin sign, which is no letter `k`.  A mark that ends in this letter would
be cut off inside the sign; one without it is found, whatever the case of its first letter. -/
theorem Token.beginsWith_iff_characterwise_beyond_ascii :
    let text := "é R\u00c9:\u212a"
    let token : Token := ⟨.word, "R\u00c9:\u212a", 0, 0, 2, 6, 3, 10⟩
    let found := fun mark : String =>
      Text.sliceBeginsWith text.toUTF8.data.toList token.byteStart token.byteStop
        mark.toUTF8.data.toList
    token ∈ tokenize text ∧ token.isWord = true ∧
      (Text.BeginsUpToCase token.text.toList "r\u00c9:".toList ∧ found "r\u00c9:" = true) ∧
      ¬Text.BeginsUpToCase token.text.toList "r\u00c9:k".toList ∧ found "r\u00c9:k" = false := by
  intro text token found
  have mem : token ∈ tokenize text := by decide +kernel
  have begins : token.beginsWith "r\u00c9:" = true := by decide
  have differs : token.beginsWith "r\u00c9:k" = false := by decide
  have shorter := beginsWith_iff_characterwise mem rfl "r\u00c9:"
  have longer := beginsWith_iff_characterwise mem rfl "r\u00c9:k"
  refine ⟨mem, rfl, ⟨shorter.1.1 begins, shorter.2.1.symm.trans begins⟩, ?_,
    longer.2.1.symm.trans differs⟩
  rw [← longer.1, differs]
  exact Bool.false_ne_true

end NetDecl
