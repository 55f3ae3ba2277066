import Mathlib.Algebra.Group.Nat.Defs
import NetDecl.Command.Settings
import NetDecl.Proofs.Json.Text

/-!
# Writing settings

Every text can be written as a string of a TOML document by the numbers of its characters, so that
every comment mark can be set.
-/

namespace NetDecl.Toml

/-- A number with the given count of hexadecimal digits. -/
def hexDigits : Nat → Nat → List Char
  | 0, _ => []
  | count + 1, number =>
      Nat.digitChar (number / 16 ^ count) :: hexDigits count (number % 16 ^ count)

/-- A character by its number. -/
def escape (char : Char) : List Char :=
  '\\' :: 'U' :: hexDigits 8 char.toNat

/-- Reading the digits of a number goes on from the number that the digits before them make up. -/
theorem readBasic?_numbered {extent : Extent} {count number value : Nat} {char : Char}
    (small : number < 16 ^ (count + 1))
    (named : unicode? (value * 16 ^ (count + 1) + number) = some char) (rest : List Char) :
    readBasic? extent (.numbered (count + 1) value) (hexDigits (count + 1) number ++ rest) =
      push char (readBasic? extent .none rest) := by
  -- By induction on the digits still to come: the first of them moves from `number` to `value`.
  induction count generalizing number value with
  | zero =>
      have digit := Json.hexDigit?_digitChar number small
      simp only [Nat.zero_add, Nat.pow_one] at named
      simp [hexDigits, readBasic?, digit, named]
  | succ count ih =>
      have high : number / 16 ^ (count + 1) < 16 :=
        Nat.div_lt_of_lt_mul (by rw [← Nat.pow_succ]; exact small)
      have digit := Json.hexDigit?_digitChar _ high
      have low : number % 16 ^ (count + 1) < 16 ^ (count + 1) :=
        Nat.mod_lt _ (Nat.pow_pos (by decide))
      have same : (value * 16 + number / 16 ^ (count + 1)) * 16 ^ (count + 1) +
          number % 16 ^ (count + 1) = value * 16 ^ (count + 2) + number := by
        rw [Nat.add_mul, Nat.add_assoc, Nat.div_add_mod', Nat.mul_assoc, ← Nat.pow_succ']
      rw [hexDigits, List.cons_append, readBasic?]
      simp only [digit, bind, Option.bind]
      rw [if_neg (by omega)]
      exact ih low (same ▸ named)

/-- The string of a text, without its opening quote. -/
def stringTail (text : List Char) : List Char :=
  text.flatMap escape ++ ['"']

theorem unicode?_toNat (char : Char) : unicode? char.toNat = some char := by
  rw [unicode?, Char.ofNat_toNat]
  exact if_pos char.valid

theorem readBasic?_escape (extent : Extent) (char : Char) (rest : List Char) :
    readBasic? extent .none (escape char ++ rest) = push char (readBasic? extent .none rest) := by
  have small : char.toNat < 16 ^ 8 := char.val.toNat_lt
  have named : unicode? (0 * 16 ^ 8 + char.toNat) = some char := by
    rw [Nat.zero_mul, Nat.zero_add, unicode?_toNat]
  exact readBasic?_numbered small named rest

theorem readBasic?_stringTail (text : List Char) :
    readBasic? .line .none (stringTail text) = some (text, []) := by
  induction text with
  | nil => rfl
  | cons char text ih =>
      have split : stringTail (char :: text) = escape char ++ stringTail text := by
        simp [stringTail]
      rw [split, readBasic?_escape, ih]
      rfl

/-! ## Documents -/

theorem normalLines_eq_self {text : List Char} (single : '\r' ∉ text) : normalLines text = text := by
  fun_induction normalLines text with
  | case1 => rfl
  | case2 rest ih => exact absurd List.mem_cons_self single
  | case3 char rest other ih => rw [ih (fun mem => single (List.mem_cons_of_mem _ mem))]

theorem digitChar_ne_return (digit : Nat) : Nat.digitChar digit ≠ '\r' := by
  intro same
  by_cases small : digit < 16
  · exact absurd (same ▸ Json.space_le_digitChar digit small) (by decide)
  · exact absurd ((Nat.digitChar_eq_star.2 (Nat.le_of_not_lt small)).symm.trans same) (by decide)

theorem not_mem_hexDigits (count number : Nat) : '\r' ∉ hexDigits count number := by
  induction count generalizing number with
  | zero => exact List.not_mem_nil
  | succ count ih =>
      simp only [hexDigits, List.mem_cons, not_or]
      exact ⟨(digitChar_ne_return _).symm, ih _⟩

theorem not_mem_stringTail (text : List Char) : '\r' ∉ stringTail text := by
  simp [stringTail, escape, not_mem_hexDigits]

/-- The name of the table of the comment mark. -/
def tableName : List Char :=
  ['p', 'a', 'r', 's', 'e', 'r']

/-- The name of the comment mark in its table. -/
def markName : List Char :=
  ['c', 'o', 'm', 'm', 'e', 'n', 't', '_', 'p', 'r', 'e', 'f', 'i', 'x']

/-- The document that sets the comment mark. -/
def markDocument (mark : List Char) : List Char :=
  tableName ++ '.' :: (markName ++ '=' :: '"' :: stringTail mark)

theorem normalLines_markDocument (mark : List Char) :
    normalLines (dropMark (markDocument mark)) = markDocument mark := by
  have unmarked : dropMark (markDocument mark) = markDocument mark := rfl
  rw [unmarked]
  apply normalLines_eq_self
  simp [markDocument, tableName, markName, not_mem_stringTail]

/-- A part of a key that is a word up to a character that no part has. -/
theorem readPart?_append (word : List Char) (char : Char) (rest : List Char)
    (isPart : word.all isKeyChar = true) (nonempty : word ≠ []) (closed : isKeyChar char = false) :
    readPart? (word ++ char :: rest) = some (String.ofList word, char :: rest) := by
  have front : (word ++ char :: rest).takeWhile isKeyChar = word := by
    rw [List.takeWhile_append_of_pos (List.all_eq_true.1 isPart),
      List.takeWhile_cons_of_neg (by simp [closed]), List.append_nil]
  have back : (word ++ char :: rest).dropWhile isKeyChar = char :: rest := by
    rw [List.dropWhile_append_of_pos (List.all_eq_true.1 isPart),
      List.dropWhile_cons_of_neg (by simp [closed])]
  unfold readPart?
  rw [front, back]
  split
  case h_1 => exact absurd rfl nonempty
  case h_2 => rfl

theorem readParts?_of_dot {text rest : List Char} {part : String}
    (read : readPart? (skipSpace text) = some (part, '.' :: rest)) (fuel : Nat) :
    readParts? (fuel + 1) text =
      (readParts? fuel rest).map fun (parts, rest) => (part :: parts, rest) := by
  rw [readParts?, read]
  rfl

theorem readParts?_of_equals {text rest : List Char} {part : String}
    (read : readPart? (skipSpace text) = some (part, '=' :: rest)) (fuel : Nat) :
    readParts? (fuel + 1) text = some ([part], '=' :: rest) := by
  rw [readParts?, read]
  rfl

theorem readKey?_markDocument (mark : List Char) :
    readKey? (markDocument mark) =
      some (⟨[String.ofList tableName], String.ofList markName⟩, '=' :: '"' :: stringTail mark) := by
  have table : readPart? (skipSpace (markDocument mark)) = _ :=
    readPart?_append tableName '.' _ (by decide) (by decide) (by decide)
  have name : readPart? (skipSpace (markName ++ '=' :: '"' :: stringTail mark)) = _ :=
    readPart?_append markName '=' _ (by decide) (by decide) (by decide)
  have parts : readParts? (depthLimit - 1) (markDocument mark) =
      some ([String.ofList tableName, String.ofList markName], '=' :: '"' :: stringTail mark) := by
    rw [depthLimit, readParts?_of_dot table, readParts?_of_equals name]
    rfl
  rw [readKey?, parts]
  rfl

theorem readText?_stringTail {mark : List Char} (nonempty : mark ≠ []) :
    readText? ('"' :: stringTail mark) = some (String.ofList mark, []) := by
  obtain ⟨char, rest, rfl⟩ := List.exists_cons_of_ne_nil nonempty
  have read := readBasic?_stringTail (char :: rest)
  change (readBasic? .line .none (stringTail (char :: rest))).map _ = _
  rw [read]
  rfl

theorem readValue?_stringTail {mark : List Char} (nonempty : mark ≠ []) (fuel depth : Nat) :
    readValue? (fuel + 1) depth ('"' :: stringTail mark) =
      some (.string (String.ofList mark), []) := by
  have read := readText?_stringTail nonempty
  rw [readValue?, read]
  rfl

theorem readStatement?_markDocument {mark : List Char} (nonempty : mark ≠ []) :
    readStatement? (markDocument mark) =
      some (.setting ⟨⟨[String.ofList tableName], String.ofList markName⟩,
        .string (String.ofList mark)⟩, []) := by
  have value := readValue?_stringTail nonempty (2 * (markDocument mark).length) (depthLimit - 1)
  change (readSetting? (2 * (markDocument mark).length + 2) (depthLimit - 1)
    (markDocument mark)).map _ = _
  rw [readSetting?, readKey?_markDocument]
  change ((readValue? (2 * (markDocument mark).length + 1) (depthLimit - 1)
    ('"' :: stringTail mark)).bind _).map _ = _
  rw [value]
  rfl

theorem readStatements?_of_readStatement? {char : Char} {text : List Char} {statement : Statement}
    (starts : skipLines (text.length + 1) (char :: text) = char :: text)
    (read : readStatement? (char :: text) = some (statement, [])) :
    readStatements? ((char :: text).length + 1) (char :: text) = some [statement] := by
  have ended : afterLine? [] = some [] := rfl
  have last : readStatements? (text.length + 1) [] = some [] := rfl
  rw [readStatements?, List.length_cons, starts]
  simp only [read, bind, Option.bind, ended, last]

/-- The document that sets a comment mark declares just that. -/
theorem read?_markDocument {mark : List Char} (nonempty : mark ≠ []) :
    read? (String.ofList (markDocument mark)) =
      some [(String.ofList tableName,
        .table .dotted [(String.ofList markName, .string (String.ofList mark))])] := by
  have statement := readStatement?_markDocument nonempty
  have statements : readStatements? ((markDocument mark).length + 1) (markDocument mark) = _ :=
    readStatements?_of_readStatement? rfl statement
  rw [read?, String.toList_ofList, normalLines_markDocument]
  simp only [statements, bind, Option.bind]
  rfl

end NetDecl.Toml

namespace NetDecl.Command

/-- Whatever options are of use can be given. -/
theorem Settings.exists_ofText?_eq {options : Options} (useful : options.defect? = none) :
    ∃ text, ofText? text = some ⟨options, false, false⟩ := by
  obtain ⟨mark⟩ := options
  have nonempty : mark.toList ≠ [] := by
    intro empty
    rw [Options.defect?, if_pos (by rw [empty]; rfl)] at useful
    cases useful
  refine ⟨String.ofList (Toml.markDocument mark.toList), ?_⟩
  rw [ofText?, Toml.read?_markDocument nonempty, String.ofList_toList]
  rfl

end NetDecl.Command
