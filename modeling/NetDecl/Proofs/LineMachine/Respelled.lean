import NetDecl.Proofs.LineMachine.Body
import NetDecl.Proofs.Text.Mark

/-!
# Keywords in another spelling

The line machine takes at most one word of a row for a keyword: the first word while it is scanning,
and the word that ends the group while it is in a group.  All that it makes of a keyword is which
one it is, so it goes over a row that spells its keyword in another case as over the row itself.
-/

namespace NetDecl

open List (Forall₂)

namespace Text

@[simp]
theorem sameWord_self (word : String) : sameWord word word = true :=
  beq_self_eq_true _

theorem sameWord_congr {word other : String} (same : sameWord word other = true)
    (keyword : String) : sameWord other keyword = sameWord word keyword := by
  rw [sameWord, sameWord, sameLetters, sameLetters, beq_iff_eq.1 same]

/-- Words begin with a mark in whichever case. -/
theorem sameLetters_take_congr {mark other : List Char} (same : sameLetters mark other = true)
    (chars : List Char) :
    sameLetters (chars.take other.length) other = sameLetters (chars.take mark.length) mark := by
  rw [length_eq_of_sameLetters same, sameLetters, sameLetters, beq_iff_eq.1 same]

end Text

theorem Part.ofKeyword?_congr {word other : String} (same : Text.sameWord word other = true) :
    Part.ofKeyword? other = Part.ofKeyword? word := by
  simp only [Part.ofKeyword?, Text.sameWord_congr same]

namespace LineMachine

/-- The word of the next row that the machine takes for a keyword. -/
def Mode.keyword? (mode : Mode) (words : List Word) : Option Word :=
  match mode with
  | .scanning => words.head?.filter fun word => (Part.ofKeyword? word.text).isSome
  | .inGroup _ => (words.dropWhile Word.isMember).head?

/-- The word stays as it is, unless it is the keyword: that can be spelled in another case. -/
def RespelledWord (keyword : Option Word) (word other : Word) : Prop :=
  other = word ∨ keyword = some word ∧ Text.sameWord word.text other.text = true

/-- The row spells the keyword in another case. -/
structure RespelledRow (keyword : Option Word) (row other : Row) : Prop where
  line : other.line = row.line
  words : Forall₂ (RespelledWord keyword) row.words other.words

section Words

variable {keyword : Option Word} {words others : List Word}

/-- Words among which the keyword is not stay as they are. -/
theorem eq_of_respelledWords (respelled : Forall₂ (RespelledWord keyword) words others)
    (absent : ∀ word ∈ words, keyword ≠ some word) : others = words := by
  induction respelled with
  | nil => rfl
  | cons same _ ih =>
    obtain ⟨notKeyword, later⟩ := List.forall_mem_cons.1 absent
    rcases same with rfl | ⟨isKeyword, -⟩
    · rw [ih later]
    · exact absurd isKeyword notKeyword

/-- Around the keyword the words stay as they are. -/
theorem exists_of_respelledWords {front back : List Word} {word : Word}
    (respelled : Forall₂ (RespelledWord (some word)) (front ++ word :: back) others)
    (nodup : (front ++ word :: back).Nodup) :
    ∃ other, others = front ++ other :: back ∧ Text.sameWord word.text other.text = true := by
  induction front generalizing others with
  | nil =>
    cases respelled with
    | @cons _ other _ rest same behind =>
      have absent : ∀ later ∈ back, some word ≠ some later := fun later mem equal =>
        (List.nodup_cons.1 nodup).1 (Option.some.inj equal ▸ mem)
      refine ⟨other, congrArg _ (eq_of_respelledWords behind absent), ?_⟩
      rcases same with rfl | ⟨-, same⟩
      · exact Text.sameWord_self _
      · exact same
  | cons first front ih =>
    cases respelled with
    | cons same behind =>
      obtain ⟨other, rfl, letters⟩ := ih behind (List.nodup_cons.1 nodup).2
      rcases same with rfl | ⟨isKeyword, -⟩
      · exact ⟨other, rfl, letters⟩
      · have mem : word ∈ front ++ word :: back := by simp
        exact absurd (Option.some.inj isKeyword ▸ mem) (List.nodup_cons.1 nodup).1

end Words

/-! ## Rows on the same line -/

section SameLine

variable {row other : Row}

theorem flag_congr (line : other.line = row.line) : other.flag = row.flag := by
  funext word issue
  rw [Row.flag, Row.flag, line]

theorem discards_congr (line : other.line = row.line) : other.discards = row.discards := by
  funext words
  rw [Row.discards, Row.discards, flag_congr line]

theorem readHeader_congr (line : other.line = row.line) (net : Net) (part : Part) :
    readHeader net part other = readHeader net part row := by
  funext words
  cases words <;> simp only [readHeader, line, flag_congr line, discards_congr line]

theorem readEdge_congr (line : other.line = row.line) (net : Net) :
    readEdge net other = readEdge net row := by
  funext words
  fun_cases readEdge net row words <;>
    simp only [readEdge, line, flag_congr line, discards_congr line]

theorem readMember_congr (line : other.line = row.line) (net : Net) :
    readMember net other = readMember net row := by
  funext group word
  simp only [readMember, flag_congr line]

theorem readMembers_congr (line : other.line = row.line) (net : Net) :
    readMembers net other = readMembers net row := by
  funext group words
  induction words generalizing group with
  | nil => rfl
  | cons word words ih => simp only [readMembers, readMember_congr line, ih]

end SameLine

/-! ## Steps -/

section Steps

variable {state : State} {row other : Row} {mark otherMark : String}

/-- Where no word is taken for a keyword, nothing is spelled in another case. -/
theorem RespelledRow.eq_of_none (respelled : RespelledRow none row other) : other = row := by
  have words := eq_of_respelledWords respelled.words fun _ _ => Option.some_ne_none _ |>.symm
  cases row
  cases other
  cases respelled.line
  cases words
  rfl

theorem State.scan_respelled
    (respelled : RespelledRow (Mode.scanning.keyword? row.words) row other)
    (nodup : row.words.Nodup) (marks : Text.sameWord mark otherMark = true) (state : State) :
    state.scan otherMark other = state.scan mark row := by
  cases split : row.words with
  | nil =>
    rw [split] at respelled
    rw [respelled.eq_of_none, State.scan, State.scan, split]
  | cons first rest =>
    rw [split] at respelled nodup
    cases found : Part.ofKeyword? first.text with
    | none =>
      have none : Mode.scanning.keyword? (first :: rest) = none := by
        simp [Mode.keyword?, found]
      rw [none] at respelled
      simp only [respelled.eq_of_none, State.scan, split, found, Text.sameLetters_take_congr marks]
    | some part =>
      have first? : Mode.scanning.keyword? (first :: rest) = some first := by
        simp [Mode.keyword?, found]
      have words := respelled.words
      rw [first?, split, ← List.nil_append (first :: rest)] at words
      obtain ⟨otherFirst, otherSplit, letters⟩ := exists_of_respelledWords words nodup
      have line := respelled.line
      rw [State.scan, State.scan, split, otherSplit]
      simp only [List.nil_append, Part.ofKeyword?_congr letters, found]
      cases part with
      | node => simp only [State.declareNode, readHeader_congr line]
      | edge => simp only [State.declareEdge, State.parallels, readEdge_congr line, line]
      | group => simp only [State.openGroup, readHeader_congr line, line]

theorem State.readBody_respelled {group : OpenGroup}
    (respelled : RespelledRow ((Mode.inGroup group).keyword? row.words) row other)
    (nodup : row.words.Nodup) (state : State) :
    state.readBody group other = state.readBody group row := by
  rcases isMember_or_exists_eq_append row.words with areMembers | ⟨front, last, rest, split,
    areMembers, isEnd⟩
  · have none : (Mode.inGroup group).keyword? row.words = none := by
      rw [Mode.keyword?, List.dropWhile_eq_nil_iff.2 areMembers]
      rfl
    rw [none] at respelled
    rw [respelled.eq_of_none]
  · have last? : (Mode.inGroup group).keyword? row.words = some last := by
      rw [Mode.keyword?, split, dropWhile_isMember areMembers isEnd]
      rfl
    have words := respelled.words
    rw [last?, split] at words
    rw [split] at nodup
    obtain ⟨otherLast, otherSplit, letters⟩ := exists_of_respelledWords words nodup
    have otherIsEnd : otherLast.isMember = false := by
      rw [Word.isMember, Text.sameWord_congr letters, ← Word.isMember, isEnd]
    simp only [State.readBody, split, otherSplit, takeWhile_isMember areMembers isEnd,
      takeWhile_isMember areMembers otherIsEnd, dropWhile_isMember areMembers isEnd,
      dropWhile_isMember areMembers otherIsEnd, readMembers_congr respelled.line,
      discards_congr respelled.line]

/-- The machine goes over a row in another spelling as over the row itself. -/
theorem State.step_respelled
    (respelled : RespelledRow (state.mode.keyword? row.words) row other)
    (nodup : row.words.Nodup) (marks : Text.sameWord mark otherMark = true) :
    state.step otherMark other = state.step mark row := by
  unfold State.step
  cases mode : state.mode with
  | scanning =>
    rw [mode] at respelled
    exact State.scan_respelled respelled nodup marks state
  | inGroup group =>
    rw [mode] at respelled
    exact State.readBody_respelled respelled nodup state

end Steps

/-! ## Runs -/

/-- The machine goes over rows in another spelling as over the rows themselves, if each of them
spells the word in another case that is the keyword where the machine comes to the row. -/
theorem foldl_step_respelled {mark otherMark : String} {state : State} {rows others : List Row}
    {relation : Row → Row → Prop} (marks : Text.sameWord mark otherMark = true)
    (alike : Forall₂ relation rows others)
    (respelled : ∀ {passed row rest other}, rows = passed ++ row :: rest → relation row other →
      RespelledRow ((passed.foldl (State.step mark) state).mode.keyword? row.words) row other)
    (nodup : ∀ row ∈ rows, row.words.Nodup) :
    others.foldl (State.step otherMark) state = rows.foldl (State.step mark) state := by
  induction alike generalizing state with
  | nil => rfl
  | @cons row other rows others here _ ih =>
    have first : RespelledRow (state.mode.keyword? row.words) row other :=
      respelled (List.nil_append (row :: rows)).symm here
    obtain ⟨rowNodup, laterNodup⟩ := List.forall_mem_cons.1 nodup
    rw [List.foldl_cons, List.foldl_cons, State.step_respelled first rowNodup marks]
    refine ih ?_ laterNodup
    intro passed later rest otherLater split alike
    have whole : row :: rows = (row :: passed) ++ later :: rest := by rw [split, List.cons_append]
    exact respelled whole alike

end LineMachine

end NetDecl
