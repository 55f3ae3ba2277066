import NetDecl.Json.Reader
import NetDecl.Json.Writer
import NetDecl.Proofs.Json.Number
import NetDecl.Proofs.Json.Text

/-!
# Reading what is written

The text of a value is read as the value, in either layout.  The reader has its limits: the numbers
in the value have to be words, and the value may not be nested too deeply.
-/

namespace NetDecl.Json

/-- The numbers in a value are words of 64 bits. -/
inductive Legible : Json → Prop where
  | null : Legible .null
  | bool (value : Bool) : Legible (.bool value)
  | natural {value : Nat} (bounded : value < UInt64.size) : Legible (.natural value)
  | string (text : String) : Legible (.string text)
  | array {items : List Json} (each : ∀ item ∈ items, Legible item) : Legible (.array items)
  | object {members : List (String × Json)} (each : ∀ member ∈ members, Legible member.2) :
      Legible (.object members)

/-- Only space stands between the parts of a value, the colons apart. -/
structure Layout.Spaced (layout : Layout) : Prop where
  lineStart : ∀ depth, ∀ char ∈ layout.lineStart depth, isSpace char = true
  colon : ∃ space, layout.colon = ':' :: space ∧ ∀ char ∈ space, isSpace char = true

theorem Layout.spaced_compact : Layout.compact.Spaced where
  lineStart := nofun
  colon := ⟨[], rfl, nofun⟩

theorem Layout.spaced_indented : Layout.indented.Spaced where
  lineStart := by
    intro depth char mem
    rcases List.mem_cons.1 mem with rfl | mem
    · rfl
    · rw [List.eq_of_mem_replicate mem]
      rfl
  colon := ⟨[' '], rfl, List.forall_mem_singleton.2 rfl⟩

/-! ## Space -/

theorem skipSpace_cons {char : Char} (other : isSpace char = false) (text : List Char) :
    skipSpace (char :: text) = char :: text := by
  rw [skipSpace, List.dropWhile_cons_of_neg (by simp [other])]

theorem skipSpace_append {space : List Char} (blank : ∀ char ∈ space, isSpace char = true)
    (text : List Char) : skipSpace (space ++ text) = skipSpace text :=
  List.dropWhile_append_of_pos blank

theorem readValue?_append {space : List Char} (blank : ∀ char ∈ space, isSpace char = true)
    (fuel : Nat) (text : List Char) :
    readValue? fuel (space ++ text) = readValue? fuel text := by
  cases fuel with
  | zero => rw [readValue?, readValue?]
  | succ fuel => rw [readValue?, readValue?, skipSpace_append blank]

theorem endsNumber_append {space : List Char} (blank : ∀ char ∈ space, isSpace char = true)
    {text : List Char} (ends : EndsNumber text) : EndsNumber (space ++ text) := by
  cases space with
  | nil => exact ends
  | cons char space =>
    have isBlank := blank char List.mem_cons_self
    simp only [isSpace, Bool.or_eq_true, beq_iff_eq] at isBlank
    rcases isBlank with ((rfl | rfl) | rfl) | rfl <;>
      exact endsNumber_cons (by decide) (by decide) _

/-- Behind an item stands space and then a comma or a bracket. -/
theorem endsNumber_lineStart {layout : Layout} (spaced : layout.Spaced) (depth : Nat) {char : Char}
    (closing : char = ',' ∨ char = ']' ∨ char = '\x7d') (rest : List Char) :
    EndsNumber (layout.lineStart depth ++ char :: rest) := by
  apply endsNumber_append (spaced.lineStart depth)
  rcases closing with rfl | rfl | rfl <;> exact endsNumber_cons (by decide) (by decide) _

theorem closes?_append {space : List Char} (blank : ∀ char ∈ space, isSpace char = true)
    (closing : Char) (text : List Char) : closes? closing (space ++ text) = closes? closing text := by
  rw [closes?, closes?, skipSpace_append blank]

theorem closes?_cons_of_ne {char closing : Char} (other : isSpace char = false)
    (ne : char ≠ closing) (text : List Char) : closes? closing (char :: text) = none := by
  simp only [closes?, skipSpace_cons other, if_neg ne]

theorem readSeparator?_comma (closing : Char) (text : List Char) :
    readSeparator? closing (',' :: text) = some (true, text) :=
  rfl

theorem readSeparator?_closing {space : List Char} (blank : ∀ char ∈ space, isSpace char = true)
    {closing : Char} (other : isSpace closing = false) (ne : closing ≠ ',') (text : List Char) :
    readSeparator? closing (space ++ closing :: text) = some (false, text) := by
  simp only [readSeparator?, skipSpace_append blank, skipSpace_cons other, if_neg ne, if_true]

/-! ## Values -/

/-- A value is read from what is written for it, whatever follows that does not go on with a number.
The fuel is enough if there is more of it than the text has characters. -/
def ReadsBack (layout : Layout) (value : Json) : Prop :=
  ∀ depth fuel rest, (writeAt layout depth value).length < fuel → EndsNumber rest →
    readValue? fuel (writeAt layout depth value ++ rest) = some (value, rest)

/-- A digit is not a sign of JSON. -/
theorem ne_of_isDigit {digit other : Char} (isDigit : digit.isDigit = true)
    (notDigit : other.isDigit = false) : digit ≠ other := by
  rintro rfl
  rw [isDigit] at notDigit
  cases notDigit

theorem isSpace_of_isDigit {digit : Char} (isDigit : digit.isDigit = true) :
    isSpace digit = false := by
  have ne (other : Char) (notDigit : other.isDigit = false) : digit ≠ other :=
    ne_of_isDigit isDigit notDigit
  simp [isSpace, ne ' ' rfl, ne '\t' rfl, ne '\n' rfl, ne '\r' rfl]

/-- A value does not begin with space or with a bracket that closes a list. -/
theorem exists_writeAt_eq_cons {value : Json} (legible : value.Legible) (layout : Layout)
    (depth : Nat) : ∃ char text, writeAt layout depth value = char :: text ∧
      isSpace char = false ∧ char ≠ ']' ∧ char ≠ '\x7d' := by
  cases legible with
  | null => exact ⟨_, _, by rw [writeAt], by decide, by decide, by decide⟩
  | bool value => cases value <;> exact ⟨_, _, by rw [writeAt], by decide, by decide, by decide⟩
  | natural bounded =>
    rename_i value
    obtain ⟨digit, digits, written, isDigit⟩ := exists_toDigits_eq_cons value
    exact ⟨digit, digits, by rw [writeAt, written], isSpace_of_isDigit isDigit,
      ne_of_isDigit isDigit rfl, ne_of_isDigit isDigit rfl⟩
  | string text => exact ⟨_, _, by rw [writeAt]; rfl, by decide, by decide, by decide⟩
  | array each =>
    rename_i items
    cases items with
    | nil => exact ⟨'[', _, by rw [writeAt], by decide, by decide, by decide⟩
    | cons item items => exact ⟨'[', _, by rw [writeAt]; rfl, by decide, by decide, by decide⟩
  | object each =>
    rename_i members
    cases members with
    | nil => exact ⟨'\x7b', _, by rw [writeAt], by decide, by decide, by decide⟩
    | cons member members =>
      exact ⟨'\x7b', _, by rw [writeAt]; rfl, by decide, by decide, by decide⟩

theorem readValue?_quote (fuel : Nat) (rest : List Char) :
    readValue? (fuel + 1) ('"' :: rest) =
      (readLiteral? rest).map fun (text, rest) => (.string (String.ofList text), rest) := by
  rw [readValue?, skipSpace_cons (by decide)]
  rfl

theorem readValue?_bracket {fuel : Nat} {rest : List Char} (goesOn : closes? ']' rest = none) :
    readValue? (fuel + 1) ('[' :: rest) =
      (readItems? fuel rest).map fun (items, rest) => (.array items, rest) := by
  rw [readValue?, skipSpace_cons (by decide)]
  simp only [goesOn]

theorem readValue?_brace {fuel : Nat} {rest : List Char} (goesOn : closes? '\x7d' rest = none) :
    readValue? (fuel + 1) ('\x7b' :: rest) =
      (readMembers? fuel rest).map fun (members, rest) => (.object members, rest) := by
  rw [readValue?, skipSpace_cons (by decide)]
  simp only [goesOn]

/-- The name of a member is read together with the colon behind it. -/
theorem exists_readName?_literal {layout : Layout} (spaced : layout.Spaced) (name : String)
    {front : List Char} (blank : ∀ char ∈ front, isSpace char = true) (rest : List Char) :
    ∃ space, (∀ char ∈ space, isSpace char = true) ∧
      readName? (front ++ (literal name ++ (layout.colon ++ rest))) =
        some (name, space ++ rest) := by
  obtain ⟨space, colon, behind⟩ := spaced.colon
  obtain ⟨inner, written, read⟩ := exists_literal_append name (layout.colon ++ rest)
  refine ⟨space, behind, ?_⟩
  rw [readName?, skipSpace_append blank, written, skipSpace_cons (by decide)]
  change (readLiteral? inner).bind _ = _
  rw [read, colon, Option.bind_some, List.cons_append]
  dsimp only
  rw [skipSpace_cons (by decide), String.ofList_toList]
  rfl

section Parts

variable {layout : Layout}

theorem readsBack_null : ReadsBack layout .null := by
  intro depth fuel rest enough ends
  obtain ⟨fuel, rfl⟩ := Nat.exists_eq_add_one_of_ne_zero (Nat.ne_zero_of_lt enough)
  rfl

theorem readsBack_bool (value : Bool) : ReadsBack layout (.bool value) := by
  intro depth fuel rest enough ends
  obtain ⟨fuel, rfl⟩ := Nat.exists_eq_add_one_of_ne_zero (Nat.ne_zero_of_lt enough)
  cases value <;> rfl

theorem readsBack_natural {value : Nat} (bounded : value < UInt64.size) :
    ReadsBack layout (.natural value) := by
  intro depth fuel rest enough ends
  obtain ⟨fuel, rfl⟩ := Nat.exists_eq_add_one_of_ne_zero (Nat.ne_zero_of_lt enough)
  have read := readNumber?_toDigits bounded ends
  obtain ⟨digit, digits, written, isDigit⟩ := exists_toDigits_eq_cons value
  have ne {other : Char} (notDigit : other.isDigit = false) := ne_of_isDigit isDigit notDigit
  rw [writeAt, ← read, written, List.cons_append, readValue?,
    skipSpace_cons (isSpace_of_isDigit isDigit)]
  split
  case h_7 => rfl
  all_goals
    rename_i equal
    exact absurd (List.cons.inj equal).1 (ne rfl)

theorem readsBack_string (text : String) : ReadsBack layout (.string text) := by
  intro depth fuel rest enough ends
  obtain ⟨fuel, rfl⟩ := Nat.exists_eq_add_one_of_ne_zero (Nat.ne_zero_of_lt enough)
  obtain ⟨inner, written, read⟩ := exists_literal_append text rest
  rw [writeAt, written, readValue?_quote, read, Option.map_some]
  simp only [String.ofList_toList]

/-- Read one item, and then what the text behind it says. -/
theorem readItems?_item (spaced : layout.Spaced) {item : Json} (reads : ReadsBack layout item)
    {depth fuel : Nat} (enough : (writeAt layout depth item).length < fuel) {behind : List Char}
    (ends : EndsNumber behind) :
    readItems? (fuel + 1) (layout.lineStart depth ++ (writeAt layout depth item ++ behind)) =
      (readSeparator? ']' behind).bind fun (goesOn, rest) =>
        if goesOn then
          (readItems? fuel rest).map fun (items, rest) => (item :: items, rest)
        else some ([item], rest) := by
  rw [readItems?, readValue?_append (spaced.lineStart depth), reads depth fuel behind enough ends]
  rfl

/-- The items of an array are read from what is written for them. -/
theorem readItems?_writeItems (spaced : layout.Spaced) {item : Json} {items : List Json}
    (reads : ∀ other ∈ item :: items, ReadsBack layout other) (depth outer fuel : Nat)
    (enough : (writeAt layout depth item).length + (writeItems layout depth items).length < fuel)
    (rest : List Char) :
    readItems? (fuel + 1) (layout.lineStart depth ++ (writeAt layout depth item ++
        (writeItems layout depth items ++ (layout.lineStart outer ++ ']' :: rest)))) =
      some (item :: items, rest) := by
  induction items generalizing item fuel with
  | nil =>
    have first := reads _ List.mem_cons_self
    rw [writeItems, List.nil_append, readItems?_item spaced first (by omega)
      (endsNumber_lineStart spaced outer (by simp) rest),
      readSeparator?_closing (spaced.lineStart outer) (by decide) (by decide)]
    rfl
  | cons next items ih =>
    simp only [writeItems, List.length_append, List.length_cons] at enough
    obtain ⟨fuel, rfl⟩ := Nat.exists_eq_add_one_of_ne_zero (Nat.ne_zero_of_lt enough)
    obtain ⟨first, others⟩ := List.forall_mem_cons.1 reads
    have read := ih others fuel (by omega)
    simp only [writeItems, List.cons_append, List.append_assoc]
    rw [readItems?_item spaced first (by omega) (endsNumber_cons (by decide) (by decide) _),
      readSeparator?_comma, Option.bind_some]
    dsimp only
    rw [if_pos rfl, read, Option.map_some]

theorem readsBack_array (spaced : layout.Spaced) {items : List Json}
    (legible : ∀ item ∈ items, Legible item) (reads : ∀ item ∈ items, ReadsBack layout item) :
    ReadsBack layout (.array items) := by
  intro depth fuel rest enough ends
  obtain ⟨fuel, rfl⟩ := Nat.exists_eq_add_one_of_ne_zero (Nat.ne_zero_of_lt enough)
  cases items with
  | nil =>
    rw [writeAt]
    rfl
  | cons item items =>
    obtain ⟨char, text, written, other, notClosing, -⟩ :=
      exists_writeAt_eq_cons (legible item List.mem_cons_self) layout (depth + 1)
    have goesOn (behind : List Char) : closes? ']' (layout.lineStart (depth + 1) ++
        (writeAt layout (depth + 1) item ++ behind)) = none := by
      rw [closes?_append (spaced.lineStart _), written]
      exact closes?_cons_of_ne other notClosing _
    simp only [writeAt, List.cons_append, List.append_assoc, List.nil_append, List.length_cons,
      List.length_append] at enough ⊢
    obtain ⟨fuel, rfl⟩ : ∃ smaller, fuel = smaller + 1 := ⟨fuel - 1, by omega⟩
    rw [readValue?_bracket (goesOn _),
      readItems?_writeItems spaced reads (depth + 1) depth fuel (by omega), Option.map_some]

/-- Read one member, and then what the text behind it says. -/
theorem readMembers?_member (spaced : layout.Spaced) {name : String} {value : Json}
    (reads : ReadsBack layout value) {depth fuel : Nat}
    (enough : (writeAt layout depth value).length < fuel) {behind : List Char}
    (ends : EndsNumber behind) :
    readMembers? (fuel + 1) (layout.lineStart depth ++ (literal name ++ (layout.colon ++
        (writeAt layout depth value ++ behind)))) =
      (readSeparator? '\x7d' behind).bind fun (goesOn, rest) =>
        if goesOn then
          (readMembers? fuel rest).map fun (members, rest) => ((name, value) :: members, rest)
        else some ([(name, value)], rest) := by
  obtain ⟨space, blank, read⟩ := exists_readName?_literal spaced name (spaced.lineStart depth)
    (writeAt layout depth value ++ behind)
  rw [readMembers?, read, Option.bind_eq_bind, Option.bind_some]
  dsimp only
  rw [readValue?_append blank, reads depth fuel behind enough ends]
  rfl

/-- The members of an object are read from what is written for them. -/
theorem readMembers?_writeMembers (spaced : layout.Spaced) {name : String} {value : Json}
    {members : List (String × Json)}
    (reads : ∀ other ∈ (name, value) :: members, ReadsBack layout other.2)
    (depth outer fuel : Nat)
    (enough : (writeAt layout depth value).length + (writeMembers layout depth members).length < fuel)
    (rest : List Char) :
    readMembers? (fuel + 1) (layout.lineStart depth ++ (literal name ++ (layout.colon ++
        (writeAt layout depth value ++ (writeMembers layout depth members ++
          (layout.lineStart outer ++ '\x7d' :: rest)))))) =
      some ((name, value) :: members, rest) := by
  induction members generalizing name value fuel with
  | nil =>
    have first : ReadsBack layout value := reads _ List.mem_cons_self
    rw [writeMembers, List.nil_append, readMembers?_member spaced first (by omega)
      (endsNumber_lineStart spaced outer (by simp) rest),
      readSeparator?_closing (spaced.lineStart outer) (by decide) (by decide)]
    rfl
  | cons next members ih =>
    simp only [writeMembers, List.length_append, List.length_cons] at enough
    obtain ⟨fuel, rfl⟩ := Nat.exists_eq_add_one_of_ne_zero (Nat.ne_zero_of_lt enough)
    have first : ReadsBack layout value := reads _ List.mem_cons_self
    have others := fun other mem => reads other (List.mem_cons_of_mem _ mem)
    have read := ih others fuel (by omega)
    simp only [writeMembers, List.cons_append, List.append_assoc]
    rw [readMembers?_member spaced first (by omega) (endsNumber_cons (by decide) (by decide) _),
      readSeparator?_comma, Option.bind_some]
    dsimp only
    rw [if_pos rfl, read, Option.map_some]

theorem readsBack_object (spaced : layout.Spaced) {members : List (String × Json)}
    (reads : ∀ member ∈ members, ReadsBack layout member.2) :
    ReadsBack layout (.object members) := by
  intro depth fuel rest enough ends
  obtain ⟨fuel, rfl⟩ := Nat.exists_eq_add_one_of_ne_zero (Nat.ne_zero_of_lt enough)
  cases members with
  | nil =>
    rw [writeAt]
    rfl
  | cons member members =>
    have goesOn (behind : List Char) : closes? '\x7d' (layout.lineStart (depth + 1) ++
        (literal member.1 ++ behind)) = none := by
      obtain ⟨inner, written, -⟩ := exists_literal_append member.1 behind
      rw [closes?_append (spaced.lineStart _), written]
      exact closes?_cons_of_ne (by decide) (by decide) _
    simp only [writeAt, List.cons_append, List.append_assoc, List.nil_append, List.length_cons,
      List.length_append] at enough ⊢
    obtain ⟨fuel, rfl⟩ : ∃ smaller, fuel = smaller + 1 := ⟨fuel - 1, by omega⟩
    rw [readValue?_brace (goesOn _),
      readMembers?_writeMembers spaced reads (depth + 1) depth fuel (by omega), Option.map_some]

/-- A value is read from its text. -/
theorem Legible.readsBack (spaced : layout.Spaced) {value : Json} (legible : value.Legible) :
    ReadsBack layout value := by
  induction legible with
  | null => exact readsBack_null
  | bool value => exact readsBack_bool value
  | natural bounded => exact readsBack_natural bounded
  | string text => exact readsBack_string text
  | array each ih => exact readsBack_array spaced each ih
  | object each ih => exact readsBack_object spaced ih

/-- The text of a value is read as the value, also with space behind it. -/
theorem read?_write_append (spaced : layout.Spaced) {value : Json} (legible : value.Legible)
    (shallow : value.depth ≤ maximumDepth) (space : String)
    (blank : ∀ char ∈ space.toList, isSpace char = true) :
    read? (value.write layout ++ space) = some value := by
  have ends : EndsNumber space.toList := by
    rw [← List.append_nil space.toList]
    exact endsNumber_append blank endsNumber_nil
  have read := legible.readsBack spaced 0 ((writeAt layout 0 value ++ space.toList).length + 1)
    space.toList (by simp only [List.length_append]; omega) ends
  have finished : skipSpace space.toList = [] := by
    rw [← List.append_nil space.toList, skipSpace_append blank]
    rfl
  simp only [read?, write, String.toList_append, String.toList_ofList, read, finished]
  rw [if_pos ⟨rfl, shallow⟩]

theorem read?_write (spaced : layout.Spaced) {value : Json} (legible : value.Legible)
    (shallow : value.depth ≤ maximumDepth) : read? (value.write layout) = some value := by
  have read := read?_write_append spaced legible shallow "" (by simp)
  rwa [String.append_empty] at read

end Parts

end NetDecl.Json
