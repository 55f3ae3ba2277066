import NetDecl.Json.Text

/-!
# Reading string literals

The literal of a text is read as the text, whatever stands behind it, and holds no control
characters.
-/

namespace NetDecl.Json

theorem hexDigit?_digitChar : ∀ digit < 16, Text.hexDigit? (Nat.digitChar digit) = some digit := by
  decide

theorem space_le_digitChar : ∀ digit < 16, ' ' ≤ Nat.digitChar digit := by
  decide

/-- The number of a control character, written with four digits, is read. -/
theorem readUnit?_control {number : Nat} (below : number < 32) (rest : List Char) :
    readUnit? ('0' :: '0' :: Nat.digitChar (number / 16) :: Nat.digitChar (number % 16) :: rest) =
      some (number, rest) := by
  have zero : Text.hexDigit? '0' = some 0 := rfl
  have high := hexDigit?_digitChar (number / 16) (by omega)
  have low := hexDigit?_digitChar (number % 16) (by omega)
  simp only [readUnit?, zero, high, low]
  simp [Nat.div_add_mod']

theorem readNumbered?_control {char : Char} (below : char < ' ') (rest : List Char) :
    readNumbered? ('0' :: '0' :: Nat.digitChar (char.toNat / 16) ::
      Nat.digitChar (char.toNat % 16) :: rest) = some (char, rest) := by
  have below : char.toNat < 32 := below
  simp only [readNumbered?, readUnit?_control below, Option.bind_eq_bind, Option.bind_some]
  rw [if_neg (by omega), if_neg (by omega), Char.ofNat_toNat]

/-- A character is written as itself, or by a name behind a backslash that is read as the
character. -/
theorem escape_cases (char : Char) :
    (char ≠ '"' ∧ char ≠ '\\' ∧ ¬char < ' ' ∧ escape char = [char]) ∨
      ∃ name, escape char = '\\' :: name ∧ (∀ found ∈ name, ' ' ≤ found) ∧
        ∀ rest, readEscape? (name ++ rest) = some (char, rest) := by
  unfold escape
  split
  · rename_i equal
    exact .inr ⟨['"'], rfl, List.forall_mem_singleton.2 (by decide),
      fun rest => by rw [equal]; rfl⟩
  split
  · rename_i equal
    exact .inr ⟨['\\'], rfl, List.forall_mem_singleton.2 (by decide),
      fun rest => by rw [equal]; rfl⟩
  split
  · rename_i equal
    exact .inr ⟨['b'], rfl, List.forall_mem_singleton.2 (by decide),
      fun rest => by rw [equal]; rfl⟩
  split
  · rename_i equal
    exact .inr ⟨['t'], rfl, List.forall_mem_singleton.2 (by decide),
      fun rest => by rw [equal]; rfl⟩
  split
  · rename_i equal
    exact .inr ⟨['n'], rfl, List.forall_mem_singleton.2 (by decide),
      fun rest => by rw [equal]; rfl⟩
  split
  · rename_i equal
    exact .inr ⟨['f'], rfl, List.forall_mem_singleton.2 (by decide),
      fun rest => by rw [equal]; rfl⟩
  split
  · rename_i equal
    exact .inr ⟨['r'], rfl, List.forall_mem_singleton.2 (by decide),
      fun rest => by rw [equal]; rfl⟩
  split
  · rename_i below
    refine .inr ⟨_, rfl, ?_, fun rest => readNumbered?_control below rest⟩
    have below : char.toNat < 32 := below
    have high := space_le_digitChar (char.toNat / 16) (by omega)
    have low := space_le_digitChar (char.toNat % 16) (by omega)
    simp only [List.forall_mem_cons]
    exact ⟨by decide, by decide, by decide, high, low, nofun⟩
  · rename_i quote backslash _ _ _ _ _ above
    exact .inl ⟨quote, backslash, above, rfl⟩

theorem space_le_of_mem_escape {char found : Char} (mem : found ∈ escape char) : ' ' ≤ found := by
  rcases escape_cases char with ⟨-, -, above, written⟩ | ⟨name, written, plain, -⟩
  · rw [written, List.mem_singleton] at mem
    exact mem ▸ Char.not_lt.1 above
  · rw [written] at mem
    rcases List.mem_cons.1 mem with rfl | mem
    · decide
    · exact plain found mem

theorem space_le_of_mem_literal {text : String} {found : Char} (mem : found ∈ literal text) :
    ' ' ≤ found := by
  rcases List.mem_append.1 mem with front | back
  · rcases List.mem_cons.1 front with rfl | inner
    · decide
    · obtain ⟨char, -, written⟩ := List.mem_flatMap.1 inner
      exact space_le_of_mem_escape written
  · cases List.mem_singleton.1 back
    decide

/-- What is written for a character is read as the character. -/
theorem readLiteral?_escape (char : Char) (rest : List Char) :
    readLiteral? (escape char ++ rest) =
      (readLiteral? rest).map fun (text, rest) => (char :: text, rest) := by
  rcases escape_cases char with ⟨quote, backslash, above, written⟩ | ⟨name, written, -, read⟩
  · rw [written, List.singleton_append, readLiteral?, if_neg quote, if_neg backslash, if_neg above]
  · rw [written, List.cons_append, readLiteral?, if_neg (by decide), if_pos rfl]
    split <;> rename_i found <;> rw [read] at found <;> cases found
    rfl

theorem readLiteral?_flatMap_escape (text rest : List Char) :
    readLiteral? (text.flatMap escape ++ '"' :: rest) = some (text, rest) := by
  induction text with
  | nil => rw [List.flatMap_nil, List.nil_append, readLiteral?, if_pos rfl]
  | cons char text ih =>
    rw [List.flatMap_cons, List.append_assoc, readLiteral?_escape, ih, Option.map_some]

/-- The literal of a text is a quote, and what is read behind it is the text. -/
theorem exists_literal_append (text : String) (rest : List Char) :
    ∃ inner, literal text ++ rest = '"' :: inner ∧
      readLiteral? inner = some (text.toList, rest) := by
  refine ⟨text.toList.flatMap escape ++ '"' :: rest, ?_, readLiteral?_flatMap_escape _ _⟩
  simp [literal]

end NetDecl.Json
