import NetDecl.Text.Hexadecimal

/-!
# JSON string literals

A literal stands between quotes.  Quotes, backslashes and the characters below the space are written
as escapes, everything else as itself.  Any escape is understood when read, and a character beyond
the sixteen-bit range may be escaped as a pair.
-/

namespace NetDecl.Json

/-- How a character is written within a literal. -/
def escape (char : Char) : List Char :=
  if char = '"' then ['\\', '"']
  else if char = '\\' then ['\\', '\\']
  else if char = '\x08' then ['\\', 'b']
  else if char = '\t' then ['\\', 't']
  else if char = '\n' then ['\\', 'n']
  else if char = '\x0c' then ['\\', 'f']
  else if char = '\r' then ['\\', 'r']
  else if char < ' ' then
    ['\\', 'u', '0', '0', Nat.digitChar (char.toNat / 16), Nat.digitChar (char.toNat % 16)]
  else [char]

/-- The literal of a text. -/
def literal (text : String) : List Char :=
  '"' :: text.toList.flatMap escape ++ ['"']

/-- Read four hexadecimal digits. -/
def readUnit? : List Char → Option (Nat × List Char)
  | first :: second :: third :: fourth :: rest => do
      let first ← Text.hexDigit? first
      let second ← Text.hexDigit? second
      let third ← Text.hexDigit? third
      let fourth ← Text.hexDigit? fourth
      pure (((first * 16 + second) * 16 + third) * 16 + fourth, rest)
  | _ => none

/-- Read a character escaped by its number, after the `u`.  A number between `d800` and `dbff`
must be followed by its other half, between `dc00` and `dfff`. -/
def readNumbered? (text : List Char) : Option (Char × List Char) := do
  let (unit, rest) ← readUnit? text
  if 0xd800 ≤ unit ∧ unit < 0xdc00 then
    match rest with
    | '\\' :: 'u' :: rest =>
        let (other, rest) ← readUnit? rest
        if 0xdc00 ≤ other ∧ other < 0xe000 then
          some (Char.ofNat (0x10000 + (unit - 0xd800) * 0x400 + (other - 0xdc00)), rest)
        else none
    | _ => none
  else if 0xdc00 ≤ unit ∧ unit < 0xe000 then none
  else some (Char.ofNat unit, rest)

/-- Read an escape, after the backslash. -/
def readEscape? : List Char → Option (Char × List Char)
  | [] => none
  | char :: rest =>
      if char = '"' ∨ char = '\\' ∨ char = '/' then some (char, rest)
      else if char = 'b' then some ('\x08', rest)
      else if char = 'f' then some ('\x0c', rest)
      else if char = 'n' then some ('\n', rest)
      else if char = 'r' then some ('\r', rest)
      else if char = 't' then some ('\t', rest)
      else if char = 'u' then readNumbered? rest
      else none

theorem length_of_readUnit? {text rest : List Char} {unit : Nat}
    (found : readUnit? text = some (unit, rest)) : text.length = rest.length + 4 := by
  unfold readUnit? at found
  split at found
  · simp only [Option.bind_eq_bind, Option.bind_eq_some_iff] at found
    obtain ⟨_, _, _, _, _, _, _, _, equal⟩ := found
    cases equal
    simp
  · cases found

theorem length_lt_of_readNumbered? {text rest : List Char} {char : Char}
    (found : readNumbered? text = some (char, rest)) : rest.length < text.length := by
  unfold readNumbered? at found
  obtain ⟨⟨unit, front⟩, first, found⟩ := Option.bind_eq_some_iff.1 found
  have firstLength := length_of_readUnit? first
  dsimp only at found
  split at found
  · split at found
    · obtain ⟨⟨other, back⟩, second, found⟩ := Option.bind_eq_some_iff.1 found
      have secondLength := length_of_readUnit? second
      dsimp only at found
      split at found
      · rw [Option.some.injEq, Prod.mk.injEq] at found
        simp only [List.length_cons] at firstLength
        rw [← found.2]
        omega
      · cases found
    · cases found
  · split at found
    · cases found
    · rw [Option.some.injEq, Prod.mk.injEq] at found
      rw [← found.2]
      omega

/-- An escape has at least one character. -/
theorem length_lt_of_readEscape? {text rest : List Char} {char : Char}
    (found : readEscape? text = some (char, rest)) : rest.length < text.length := by
  unfold readEscape? at found
  split at found
  · cases found
  · rename_i first text
    simp only [List.length_cons]
    split at found
    · cases found; omega
    split at found
    · cases found; omega
    split at found
    · cases found; omega
    split at found
    · cases found; omega
    split at found
    · cases found; omega
    split at found
    · cases found; omega
    split at found
    · exact Nat.lt_succ_of_lt (length_lt_of_readNumbered? found)
    · cases found

/-- Read a literal, after its opening quote. -/
def readLiteral? : List Char → Option (List Char × List Char)
  | [] => none
  | char :: rest =>
      if char = '"' then some ([], rest)
      else if char = '\\' then
        match _found : readEscape? rest with
        | some (escaped, rest) =>
            (readLiteral? rest).map fun (text, rest) => (escaped :: text, rest)
        | none => none
      else if char < ' ' then none
      else (readLiteral? rest).map fun (text, rest) => (char :: text, rest)
termination_by text => text.length
decreasing_by
  · exact Nat.lt_succ_of_lt (length_lt_of_readEscape? _found)
  · simp

end NetDecl.Json
