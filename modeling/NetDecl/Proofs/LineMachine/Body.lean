import NetDecl.Proofs.LineMachine.Sound

/-!
# Bodies of groups

A body is read over the rows behind the header of a group, up to the keyword that ends the group
or to the end of the text.  The line machine reads it row by row.
-/

namespace NetDecl.LineMachine

/-- What is left behind the keyword that ends a group. -/
structure Tail where
  /-- The row of the keyword. -/
  row : Row
  /-- The words behind the keyword on its row. -/
  words : List Word
  /-- The rows behind that row. -/
  rows : List Row

/-- The machine in a group. -/
def State.enter (state : State) (group : OpenGroup) : State :=
  { state with mode := .inGroup group }

/-- Read the body of a group.  The answer gives the group with its members and what is left behind
the keyword; nothing is left where the text ends before the keyword. -/
def readRows (net : Net) (group : OpenGroup) :
    List Row → OpenGroup × List Diagnostic × Option Tail
  | [] => (group, [], none)
  | row :: rows =>
      let (group, front) := readMembers net row group (row.words.takeWhile Word.isMember)
      match row.words.dropWhile Word.isMember with
      | [] =>
          let (group, back, tail) := readRows net group rows
          (group, front ++ back, tail)
      | _ :: rest => (group, front, some ⟨row, rest, rows⟩)

namespace OpenGroup

/-- The group that is declared. -/
def toGroup (group : OpenGroup) : Group :=
  ⟨group.id, group.label, group.members⟩

/-- The diagnostics of a group without members. -/
def memberless (group : OpenGroup) : List Diagnostic :=
  if group.members.isEmpty then [(Issue.memberless group.id).atLine group.header] else []

end OpenGroup

/-- The group that a header opens. -/
def openFrom (row : Row) (header : Header) : OpenGroup :=
  ⟨header.id, header.label, row.line, []⟩

/-! ## Row by row -/

/-- The words of a row are members, or they are up to a keyword that ends the group. -/
theorem isMember_or_exists_eq_append (words : List Word) :
    (∀ word ∈ words, word.isMember = true) ∨
      ∃ front last rest, words = front ++ last :: rest ∧
        (∀ word ∈ front, word.isMember = true) ∧ last.isMember = false := by
  have whole : words.takeWhile Word.isMember ++ words.dropWhile Word.isMember = words :=
    List.takeWhile_append_dropWhile
  have areMembers : ∀ word ∈ words.takeWhile Word.isMember, word.isMember = true :=
    fun word mem => List.mem_takeWhile_imp mem
  cases behind : words.dropWhile Word.isMember with
  | nil => exact .inl (List.dropWhile_eq_nil_iff.1 behind)
  | cons last rest =>
    have notMember := List.head?_dropWhile_not Word.isMember words
    rw [behind] at whole notMember
    exact .inr ⟨_, last, rest, whole.symm, areMembers, by simpa using notMember⟩

section Rows

variable {net : Net} {group : OpenGroup} {row : Row} {rows : List Row} {state : State}

theorem readRows_of_isMember (areMembers : ∀ word ∈ row.words, word.isMember = true) :
    readRows net group (row :: rows) =
      ((readRows net (readMembers net row group row.words).1 rows).1,
        (readMembers net row group row.words).2 ++
          (readRows net (readMembers net row group row.words).1 rows).2.1,
        (readRows net (readMembers net row group row.words).1 rows).2.2) := by
  simp only [readRows, List.takeWhile_eq_self_iff.2 areMembers,
    List.dropWhile_eq_nil_iff.2 areMembers]

theorem step_of_isMember (mark : String) (mode : state.mode = .inGroup group)
    (areMembers : ∀ word ∈ row.words, word.isMember = true) :
    state.step mark row =
      (state.report (readMembers state.net row group row.words).2).enter
        (readMembers state.net row group row.words).1 := by
  simp only [State.step, mode, State.readBody, State.enter,
    List.takeWhile_eq_self_iff.2 areMembers, List.dropWhile_eq_nil_iff.2 areMembers]

variable {front rest : List Word} {last : Word}

theorem takeWhile_isMember (areMembers : ∀ word ∈ front, word.isMember = true)
    (isEnd : last.isMember = false) :
    (front ++ last :: rest).takeWhile Word.isMember = front := by
  rw [List.takeWhile_append_of_pos areMembers, List.takeWhile_cons_of_neg (by simp [isEnd]),
    List.append_nil]

theorem dropWhile_isMember (areMembers : ∀ word ∈ front, word.isMember = true)
    (isEnd : last.isMember = false) :
    (front ++ last :: rest).dropWhile Word.isMember = last :: rest := by
  rw [List.dropWhile_append_of_pos areMembers, List.dropWhile_cons_of_neg (by simp [isEnd])]

theorem readRows_of_eq_append (words : row.words = front ++ last :: rest)
    (areMembers : ∀ word ∈ front, word.isMember = true) (isEnd : last.isMember = false) :
    readRows net group (row :: rows) =
      ((readMembers net row group front).1, (readMembers net row group front).2,
        some ⟨row, rest, rows⟩) := by
  simp only [readRows, words, takeWhile_isMember areMembers isEnd,
    dropWhile_isMember areMembers isEnd]

theorem step_of_eq_append (mark : String) (mode : state.mode = .inGroup group)
    (words : row.words = front ++ last :: rest)
    (areMembers : ∀ word ∈ front, word.isMember = true) (isEnd : last.isMember = false) :
    state.step mark row =
      (state.report ((readMembers state.net row group front).2 ++ row.discards rest)).closeGroup
        (readMembers state.net row group front).1 := by
  simp only [State.step, mode, State.readBody, words, takeWhile_isMember areMembers isEnd,
    dropWhile_isMember areMembers isEnd, State.report, List.append_assoc]

end Rows

/-- Reading the body of a group leaves its name, its label and its header line. -/
theorem exists_readRows_eq (net : Net) (group : OpenGroup) (rows : List Row) :
    ∃ members, (readRows net group rows).1 = { group with members } := by
  induction rows generalizing group with
  | nil => exact ⟨group.members, rfl⟩
  | cons row rows ih =>
    rcases isMember_or_exists_eq_append row.words with areMembers | ⟨front, last, rest, words,
      areMembers, isEnd⟩
    · rw [readRows_of_isMember areMembers]
      obtain ⟨first, firstEq⟩ := exists_readMembers_eq net row group row.words
      obtain ⟨members, equal⟩ := ih (readMembers net row group row.words).1
      apply Exists.intro members
      dsimp only
      rw [equal, firstEq]
    · rw [readRows_of_eq_append words areMembers isEnd]
      exact exists_readMembers_eq net row group front

/-- What holds of the diagnostics of each word, whatever members there are by then, holds of the
diagnostics of all words. -/
theorem forall_mem_readMembers {net : Net} {row : Row} {group : OpenGroup} {words : List Word}
    {holds : Diagnostic → Prop}
    (each : ∀ word ∈ words, ∀ members,
      ∀ diagnostic ∈ (readMember net row { group with members } word).2, holds diagnostic) :
    ∀ diagnostic ∈ (readMembers net row group words).2, holds diagnostic := by
  induction words generalizing group with
  | nil => exact fun _ mem => (nomatch mem)
  | cons word words ih =>
    obtain ⟨first, others⟩ := List.forall_mem_cons.1 each
    obtain ⟨members, read⟩ := exists_readMember_eq net row group word
    intro diagnostic mem
    rcases List.mem_append.1 mem with here | behind
    · exact first group.members diagnostic here
    · change diagnostic ∈ (readMembers net row (readMember net row group word).1 words).2 at behind
      rw [read] at behind
      exact @ih { group with members } others diagnostic behind

/-- What holds of the diagnostics of each word holds of the diagnostics of a body. -/
theorem forall_mem_readRows {net : Net} {group : OpenGroup} {rows : List Row}
    {holds : Diagnostic → Prop}
    (each : ∀ row ∈ rows, ∀ word ∈ row.words, ∀ members,
      ∀ diagnostic ∈ (readMember net row { group with members } word).2, holds diagnostic) :
    ∀ diagnostic ∈ (readRows net group rows).2.1, holds diagnostic := by
  induction rows generalizing group with
  | nil => exact fun _ mem => (nomatch mem)
  | cons row rows ih =>
    obtain ⟨here, others⟩ := List.forall_mem_cons.1 each
    rcases isMember_or_exists_eq_append row.words with areMembers | ⟨front, last, rest, words,
      areMembers, isEnd⟩
    · obtain ⟨members, read⟩ := exists_readMembers_eq net row group row.words
      rw [readRows_of_isMember areMembers, read]
      intro diagnostic mem
      rcases List.mem_append.1 mem with front | behind
      · exact forall_mem_readMembers here diagnostic front
      · exact @ih { group with members } others diagnostic behind
    · rw [readRows_of_eq_append words areMembers isEnd]
      apply forall_mem_readMembers
      intro word mem
      apply here word
      rw [words]
      exact List.mem_append_left _ mem

/-- The group that has been read is the one that the header opened. -/
theorem opened_of_readRows {net : Net} {row : Row} {rows : List Row} {header : Header}
    {last : OpenGroup} {body : List Diagnostic} {tail : Option Tail}
    (read : readRows net (openFrom row header) rows = (last, body, tail)) :
    last.id = header.id ∧ last.label = header.label ∧ last.header = row.line := by
  obtain ⟨members, same⟩ := exists_readRows_eq net (openFrom row header) rows
  rw [read] at same
  rw [show last = _ from same]
  exact ⟨rfl, rfl, rfl⟩

theorem OpenGroup.Fits.readRows {net : Net} {group : OpenGroup} (fits : group.Fits net)
    (sound : net.Sound) (rows : List Row) : (readRows net group rows).1.Fits net := by
  induction rows generalizing group with
  | nil => exact fits
  | cons row rows ih =>
    rcases isMember_or_exists_eq_append row.words with areMembers | ⟨front, last, rest, words,
      areMembers, isEnd⟩
    · rw [readRows_of_isMember areMembers]
      exact ih (invariant_sound.readMembers sound fits row areMembers)
    · rw [readRows_of_eq_append words areMembers isEnd]
      exact invariant_sound.readMembers sound fits row areMembers

/-! ## Runs -/

/-- What the machine makes of the rows, from a state on. -/
def runFrom (mark : String) (state : State) (rows : List Row) : State :=
  (rows.foldl (State.step mark) state).finish

section Runs

variable {mark : String} {state : State} {group : OpenGroup}

theorem runFrom_cons (mark : String) (state : State) (row : Row) (rows : List Row) :
    runFrom mark state (row :: rows) = runFrom mark (state.step mark row) rows :=
  rfl

theorem runFrom_of_scanning (scanning : state.mode = .scanning) :
    runFrom mark state [] = state := by
  rw [runFrom, List.foldl_nil, State.finish, scanning]

/-- A group that the text ends in is forgotten. -/
theorem runFrom_of_cut (mark : String) (mode : state.mode = .inGroup group) {rows : List Row}
    {last : OpenGroup} {body : List Diagnostic}
    (cut : readRows state.net group rows = (last, body, none)) :
    runFrom mark state rows =
      { state.report (body ++ last.memberless) with mode := .scanning } := by
  induction rows generalizing state group body with
  | nil =>
    cases cut
    cases empty : last.members.isEmpty <;>
      simp [runFrom, State.finish, mode, OpenGroup.memberless, State.report, empty]
  | cons row rows ih =>
    rcases isMember_or_exists_eq_append row.words with areMembers | ⟨front, _, rest, words,
      areMembers, isEnd⟩
    · rw [readRows_of_isMember areMembers] at cut
      obtain ⟨rfl, behind⟩ := Prod.mk.inj cut
      obtain ⟨rfl, none⟩ := Prod.mk.inj behind
      have entered := step_of_isMember mark mode areMembers
      rw [runFrom_cons, entered]
      refine Eq.trans (ih rfl (Prod.ext rfl (Prod.ext rfl none))) ?_
      simp only [State.report, State.enter, List.append_assoc]
    · rw [readRows_of_eq_append words areMembers isEnd] at cut
      cases cut

/-- A group that is closed is declared if it has members. -/
theorem exists_foldl_of_closed (mark : String) (mode : state.mode = .inGroup group)
    {rows : List Row} {last : OpenGroup} {body : List Diagnostic} {tail : Tail}
    (closed : readRows state.net group rows = (last, body, some tail)) :
    ∃ front, rows = front ++ tail.rows ∧ front.foldl (State.step mark) state =
      (state.report (body ++ tail.row.discards tail.words)).closeGroup last := by
  induction rows generalizing state group body with
  | nil => cases closed
  | cons row rows ih =>
    rcases isMember_or_exists_eq_append row.words with areMembers | ⟨front, _, rest, words,
      areMembers, isEnd⟩
    · rw [readRows_of_isMember areMembers] at closed
      obtain ⟨rfl, behind⟩ := Prod.mk.inj closed
      obtain ⟨rfl, some⟩ := Prod.mk.inj behind
      have entered := step_of_isMember mark mode areMembers
      obtain ⟨front, split, folded⟩ := @ih ((state.report _).enter _) _ rfl _
        (Prod.ext rfl (Prod.ext rfl some))
      refine ⟨row :: front, by rw [split, List.cons_append], ?_⟩
      rw [List.foldl_cons, entered, folded]
      simp only [State.report, State.enter, State.closeGroup, List.append_assoc]
    · rw [readRows_of_eq_append words areMembers isEnd] at closed
      cases closed
      exact ⟨[row], rfl, step_of_eq_append mark mode words areMembers isEnd⟩

end Runs

end NetDecl.LineMachine
