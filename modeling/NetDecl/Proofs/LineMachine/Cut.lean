import NetDecl.Proofs.LineMachine.Body

/-!
# Groups that the text ends in

A group that the text ends in is forgotten.  Its body records nothing exactly if its words are the
names of different nodes that belong to no group.
-/

namespace NetDecl

/-- The row opens a group with a free name, and up to the end of the text the rows behind it list
different nodes that belong to no group; there is at least one. -/
structure Row.CutOff (row : Row) (net : Net) (rows : List Row) : Prop where
  header : ∃ keyword id label, row.words = keyword :: id :: label ∧ label.length ≤ 1 ∧
    net.nameIssues .group id.text = []
  members : ∀ word ∈ rows.flatMap Row.words, word.isMember = true
  free : ∀ word ∈ rows.flatMap Row.words,
    ∃ index, net.indexOf? word.text = some index ∧ net.ownerAt? index = none
  different : ((rows.flatMap Row.words).map Word.text).Nodup
  filled : rows.flatMap Row.words ≠ []

namespace LineMachine

variable {net : Net} {group : OpenGroup} {row : Row} {word : Word}

/-- The word names a node that belongs to no group and is not among the members. -/
def Takes (net : Net) (group : OpenGroup) (word : Word) : Prop :=
  ∃ index, net.indexOf? word.text = some index ∧ index ∉ group.members ∧
    net.ownerAt? index = none

/-- A word is taken in without a problem exactly if it names a node that is free. -/
theorem readMember_eq_nil_iff (wellFormed : net.WellFormed) :
    (readMember net row group word).2 = [] ↔ Takes net group word := by
  unfold readMember Takes
  cases found : net.indexOf? word.text with
  | none => simp
  | some index =>
    by_cases listed : index ∈ group.members
    · simp [listed]
    · cases owner : (net.nodeAt? index).bind net.groupOf? with
      | none => simp [listed, owner, wellFormed.bind_groupOf?_eq_none_iff.1 owner]
      | some owner =>
        have owned : net.ownerAt? index ≠ none := fun free => by
          rw [wellFormed.bind_groupOf?_eq_none_iff.2 free] at owner
          cases owner
        simp [listed, owner, owned]

theorem exists_readMember_eq_append (wellFormed : net.WellFormed) (row : Row)
    (takes : Takes net group word) :
    ∃ index, net.indexOf? word.text = some index ∧
      (readMember net row group word).1 = { group with members := group.members ++ [index] } := by
  obtain ⟨index, found, notListed, free⟩ := takes
  refine ⟨index, found, ?_⟩
  simp only [readMember, found, if_neg notListed, wellFormed.bind_groupOf?_eq_none_iff.2 free]

/-- Different names do not stand for the same node. -/
theorem eq_of_indexOf?_eq {id other : String} {index : Nat} (found : net.indexOf? id = some index)
    (otherFound : net.indexOf? other = some index) : id = other := by
  obtain ⟨node, nodeFound, same⟩ := Net.exists_nodeAt?_of_indexOf? found
  obtain ⟨_, otherNode, otherSame⟩ := Net.exists_nodeAt?_of_indexOf? otherFound
  rw [nodeFound] at otherNode
  cases otherNode
  rw [← same, ← otherSame]

/-- Once a word has been taken in, other words can still be taken in unless they are the same. -/
theorem takes_readMember_iff (wellFormed : net.WellFormed) (takes : Takes net group word)
    {other : Word} :
    Takes net (readMember net row group word).1 other ↔
      Takes net group other ∧ other.text ≠ word.text := by
  obtain ⟨index, found, same⟩ := exists_readMember_eq_append wellFormed row takes
  rw [same]
  constructor
  · rintro ⟨position, otherFound, notListed, free⟩
    rw [List.mem_append, List.mem_singleton, not_or] at notListed
    constructor
    · exact ⟨position, otherFound, notListed.1, free⟩
    · intro equal
      rw [equal, found] at otherFound
      exact notListed.2 (Option.some.inj otherFound).symm
  · rintro ⟨⟨position, otherFound, notListed, free⟩, different⟩
    have apart : position ≠ index := by
      intro equal
      rw [equal] at otherFound
      exact different (eq_of_indexOf?_eq otherFound found)
    have unlisted : position ∉ group.members ++ [index] := by
      rw [List.mem_append, List.mem_singleton, not_or]
      exact ⟨notListed, apart⟩
    exact ⟨position, otherFound, unlisted, free⟩

/-- Words are taken in without a problem exactly if they name different nodes that are free. -/
theorem readMembers_eq_nil_iff (wellFormed : net.WellFormed) {words : List Word} :
    (readMembers net row group words).2 = [] ↔
      (∀ word ∈ words, Takes net group word) ∧ (words.map Word.text).Nodup := by
  induction words generalizing group with
  | nil => simp [readMembers]
  | cons word words ih =>
    rw [readMembers, List.append_eq_nil_iff, readMember_eq_nil_iff wellFormed, ih, List.map_cons,
      List.nodup_cons, List.forall_mem_cons]
    constructor
    · rintro ⟨takes, others, nodup⟩
      simp only [takes_readMember_iff wellFormed takes] at others
      have fresh : word.text ∉ words.map Word.text := by
        intro repeated
        rcases List.mem_map.1 repeated with ⟨other, mem, same⟩
        exact (others other mem).2 same
      exact ⟨⟨takes, fun other mem => (others other mem).1⟩, fresh, nodup⟩
    · rintro ⟨⟨takes, others⟩, fresh, nodup⟩
      have behind : ∀ other ∈ words, Takes net (readMember net row group word).1 other := by
        intro other mem
        rw [takes_readMember_iff wellFormed takes]
        exact ⟨others other mem, fun same => fresh (List.mem_map.2 ⟨other, mem, same⟩)⟩
      exact ⟨takes, behind, nodup⟩

/-- Once words have been taken in, other words can still be taken in unless they are among them. -/
theorem takes_readMembers_iff (wellFormed : net.WellFormed) {words : List Word}
    (silent : (readMembers net row group words).2 = []) {other : Word} :
    Takes net (readMembers net row group words).1 other ↔
      Takes net group other ∧ other.text ∉ words.map Word.text := by
  induction words generalizing group with
  | nil => simp [readMembers]
  | cons word words ih =>
    rw [readMembers, List.append_eq_nil_iff, readMember_eq_nil_iff wellFormed] at silent
    rw [readMembers, ih silent.2, takes_readMember_iff wellFormed silent.1, List.map_cons,
      List.mem_cons, not_or, and_assoc]

theorem length_readMembers (wellFormed : net.WellFormed) {words : List Word}
    (silent : (readMembers net row group words).2 = []) :
    (readMembers net row group words).1.members.length = group.members.length + words.length := by
  induction words generalizing group with
  | nil => rfl
  | cons word words ih =>
    rw [readMembers, List.append_eq_nil_iff, readMember_eq_nil_iff wellFormed] at silent
    obtain ⟨index, -, same⟩ := exists_readMember_eq_append wellFormed row silent.1
    rw [readMembers, ih silent.2, same]
    simp only [List.length_append, List.length_cons, List.length_nil]
    omega

/-! ## Bodies -/

/-- A body is cut off without a problem exactly if its words name different nodes that are free. -/
theorem readRows_eq_cut_iff (wellFormed : net.WellFormed) {rows : List Row} :
    (readRows net group rows).2 = ([], none) ↔
      (∀ word ∈ rows.flatMap Row.words, word.isMember = true ∧ Takes net group word) ∧
        ((rows.flatMap Row.words).map Word.text).Nodup := by
  induction rows generalizing group with
  | nil => simp [readRows]
  | cons row rows ih =>
    rcases isMember_or_exists_eq_append row.words with areMembers | ⟨front, last, rest, words,
      areMembers, isEnd⟩
    · rw [readRows_of_isMember areMembers, List.flatMap_cons, List.map_append, List.nodup_append,
        List.forall_mem_append, Prod.mk.injEq, List.append_eq_nil_iff]
      have behind :
          (readRows net (readMembers net row group row.words).1 rows).2 = ([], none) ↔ _ := ih
      rw [Prod.ext_iff] at behind
      constructor
      · rintro ⟨⟨silent, behindSilent⟩, cut⟩
        obtain ⟨takes, nodup⟩ := behind.1 ⟨behindSilent, cut⟩
        obtain ⟨frontTakes, frontNodup⟩ := (readMembers_eq_nil_iff wellFormed).1 silent
        simp only [takes_readMembers_iff wellFormed silent] at takes
        have different : ∀ name ∈ row.words.map Word.text,
            ∀ other ∈ (rows.flatMap Row.words).map Word.text, name ≠ other := by
          rintro name listed other repeated rfl
          rcases List.mem_map.1 repeated with ⟨word, mem, rfl⟩
          exact (takes word mem).2.2 listed
        exact ⟨⟨fun word mem => ⟨areMembers word mem, frontTakes word mem⟩,
          fun word mem => ⟨(takes word mem).1, (takes word mem).2.1⟩⟩, frontNodup, nodup, different⟩
      · rintro ⟨⟨frontTakes, takes⟩, frontNodup, nodup, different⟩
        have silent : (readMembers net row group row.words).2 = [] :=
          (readMembers_eq_nil_iff wellFormed).2
            ⟨fun word mem => (frontTakes word mem).2, frontNodup⟩
        have left : ∀ word ∈ rows.flatMap Row.words,
            Takes net (readMembers net row group row.words).1 word := by
          intro word mem
          rw [takes_readMembers_iff wellFormed silent]
          exact ⟨(takes word mem).2, fun listed =>
            different _ listed _ (List.mem_map_of_mem mem) rfl⟩
        rcases behind.2 ⟨fun word mem => ⟨(takes word mem).1, left word mem⟩, nodup⟩ with
          ⟨behindSilent, cut⟩
        exact ⟨⟨silent, behindSilent⟩, cut⟩
    · rw [readRows_of_eq_append words areMembers isEnd]
      constructor
      · intro cut
        cases (Prod.mk.inj cut).2
      · rintro ⟨all, -⟩
        have mem : last ∈ (row :: rows).flatMap Row.words := by
          rw [List.flatMap_cons, words]
          simp
        rw [(all last mem).1] at isEnd
        cases isEnd

/-- A body that is cut off without a problem records as many members as it has words. -/
theorem length_readRows (wellFormed : net.WellFormed) {rows : List Row}
    (silent : (readRows net group rows).2 = ([], none)) :
    (readRows net group rows).1.members.length =
      group.members.length + (rows.flatMap Row.words).length := by
  induction rows generalizing group with
  | nil => rfl
  | cons row rows ih =>
    rcases isMember_or_exists_eq_append row.words with areMembers | ⟨front, last, rest, words,
      areMembers, isEnd⟩
    · rw [readRows_of_isMember areMembers, Prod.mk.injEq, List.append_eq_nil_iff] at silent
      obtain ⟨⟨front, back⟩, cut⟩ := silent
      rw [readRows_of_isMember areMembers]
      dsimp only
      rw [ih (Prod.ext back cut), length_readMembers wellFormed front, List.flatMap_cons,
        List.length_append, Nat.add_assoc]
    · rw [readRows_of_eq_append words areMembers isEnd] at silent
      cases (Prod.mk.inj silent).2

/-! ## Groups -/

/-- A header is read without a problem exactly if it gives a free name and perhaps a label. -/
theorem readHeader_eq_iff {part : Part} {words : List Word} {header : Header} :
    readHeader net part row words = (some header, []) ↔
      ∃ id label, words = id :: label ∧ label.length ≤ 1 ∧ net.nameIssues part id.text = [] ∧
        header = ⟨id.text, labelOf label⟩ := by
  cases words with
  | nil => simp [readHeader]
  | cons id label =>
    rw [readHeader, Prod.mk.injEq, List.append_eq_nil_iff, List.map_eq_nil_iff, Row.discards,
      List.map_eq_nil_iff, List.drop_eq_nil_iff]
    constructor
    · rintro ⟨found, free, short⟩
      rw [free] at found
      exact ⟨id, label, rfl, short, free, (Option.some.inj found).symm⟩
    · rintro ⟨_, _, equal, short, free, rfl⟩
      cases equal
      rw [free]
      exact ⟨rfl, rfl, short⟩

/-- A group is cut off exactly if its header and its body have no problems and it has members when
the text ends. -/
theorem cutOff_iff (wellFormed : net.WellFormed) {keyword : Word} {words : List Word}
    {rows : List Row} (split : row.words = keyword :: words) :
    row.CutOff net rows ↔
      ∃ header last, readHeader net .group row words = (some header, []) ∧
        readRows net (openFrom row header) rows = (last, [], none) ∧ last.members ≠ [] := by
  constructor
  · rintro ⟨⟨_, id, label, equal, short, free⟩, members, unowned, different, filled⟩
    obtain ⟨rfl, rfl⟩ := List.cons.inj (split.symm.trans equal)
    let header : Header := ⟨id.text, labelOf label⟩
    have silent : (readRows net (openFrom row header) rows).2 = ([], none) := by
      rw [readRows_eq_cut_iff wellFormed]
      constructor
      · intro word mem
        rcases unowned word mem with ⟨index, found, isFree⟩
        exact ⟨members word mem, index, found, List.not_mem_nil, isFree⟩
      · exact different
    have read : readHeader net .group row (id :: label) = (some header, []) :=
      readHeader_eq_iff.2 ⟨id, label, rfl, short, free, rfl⟩
    have listed : (readRows net (openFrom row header) rows).1.members ≠ [] := by
      intro empty
      have length := length_readRows wellFormed silent
      rw [empty] at length
      exact filled (List.eq_nil_of_length_eq_zero (Nat.eq_zero_of_add_eq_zero_left length.symm))
    exact ⟨header, _, read, Prod.ext rfl silent, listed⟩
  · rintro ⟨header, last, read, cut, filled⟩
    obtain ⟨id, label, rfl, short, free, rfl⟩ := readHeader_eq_iff.1 read
    have silent := congrArg Prod.snd cut
    obtain ⟨takes, different⟩ := (readRows_eq_cut_iff wellFormed).1 silent
    constructor
    · exact ⟨keyword, id, label, split, short, free⟩
    · exact fun word mem => (takes word mem).1
    · intro word mem
      obtain ⟨index, found, -, isFree⟩ := (takes word mem).2
      exact ⟨index, found, isFree⟩
    · exact different
    · intro empty
      have length := length_readRows wellFormed silent
      rw [cut, empty] at length
      exact filled (List.eq_nil_of_length_eq_zero length)

end LineMachine

end NetDecl
