import NetDecl.Text.Case

/-!
# Byte offsets into text

A text can be cut at a byte offset of its UTF-8 form, provided that the offset does not fall inside
a character.
-/

namespace NetDecl.Text

/-- The number of bytes that a character sequence takes in UTF-8. -/
def byteLength (chars : List Char) : Nat :=
  chars.foldr (fun char length => char.utf8Size + length) 0

@[simp]
theorem byteLength_nil : byteLength [] = 0 :=
  rfl

@[simp]
theorem byteLength_cons (char : Char) (chars : List Char) :
    byteLength (char :: chars) = char.utf8Size + byteLength chars :=
  rfl

@[simp]
theorem byteLength_append (front back : List Char) :
    byteLength (front ++ back) = byteLength front + byteLength back := by
  induction front with
  | nil => rw [List.nil_append, byteLength_nil, Nat.zero_add]
  | cons char front ih => rw [List.cons_append, byteLength_cons, byteLength_cons, ih, Nat.add_assoc]

/-- Cut a text after its first `count` bytes.  There is no cut beyond the end of the text or inside
a character. -/
def splitBytes? : List Char → Nat → Option (List Char × List Char)
  | chars, 0 => some ([], chars)
  | [], _ + 1 => none
  | char :: chars, count + 1 =>
      if char.utf8Size ≤ count + 1 then
        (splitBytes? chars (count + 1 - char.utf8Size)).map fun (front, back) =>
          (char :: front, back)
      else
        none

/-- The part of a text between two byte offsets. -/
def slice? (text : String) (start stop : Nat) : Option String := do
  let (front, _) ← splitBytes? text.toList stop
  let (_, part) ← splitBytes? front start
  pure (String.ofList part)

/-- Whether a word begins with `mark` up to the case of ASCII letters.  Only a part of the word with
as many bytes as the mark is compared with it. -/
def beginsWith (word mark : String) : Bool :=
  match splitBytes? word.toList (byteLength mark.toList) with
  | some (front, _) => sameLetters front mark.toList
  | none => false

end NetDecl.Text
