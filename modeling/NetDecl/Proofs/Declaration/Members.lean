import NetDecl.Declaration.Group
import NetDecl.Proofs.Declaration.Lines
import NetDecl.Proofs.LineMachine.Body

/-!
# Members of groups

While a group is being read, the registry is the one from before together with links from the
members to the group.  Reading the body over the tokens takes in the members that the line machine
takes in over the rows, and records the same diagnostics.
-/

namespace NetDecl

open LineMachine (OpenGroup readMember readMembers readRows)

namespace Group.Draft

/-- The draft of a group that is being read on top of a registry. -/
def onTop (base : Registry) (group : OpenGroup) (diagnostics : List Diagnostic) : Draft :=
  ⟨base.link group.members, group.members, diagnostics⟩

variable {base : Registry} {group : OpenGroup} {row : Row}

/-- A word is taken in as the line machine takes it in. -/
theorem place_onTop (indexed : base.Indexed) (sound : base.net.Sound)
    (fits : group.Fits base.net) {word : Word} {token : Token}
    (isToken : word.IsToken row.line.index token) (diagnostics : List Diagnostic) :
    (onTop base group diagnostics).place group.id base.nextGroup token =
      onTop base (readMember base.net row group word).1
        (diagnostics ++ (readMember base.net row group word).2) := by
  have node : (onTop base group diagnostics).registry.node? token.text =
      base.net.indexOf? word.text := by
    rw [isToken.text]
    exact indexed.node?_eq word.text
  unfold place readMember
  rw [node]
  cases base.net.indexOf? word.text with
  | none =>
    dsimp only
    rw [isToken.text, report, isToken.atToken_eq]
    rfl
  | some index =>
    have inRange : ∀ member ∈ group.members, member < base.net.nodes.length := by
      intro member mem
      obtain ⟨node, found, -⟩ := fits.named member mem
      exact Net.lt_of_nodeAt? found
    have owner : (onTop base group diagnostics).registry.owner? index = _ :=
      Registry.owner?_link inRange index
    dsimp only
    rw [owner]
    by_cases listed : index ∈ group.members
    · rw [if_pos listed, if_pos listed]
      dsimp only
      rw [if_pos rfl, isToken.text, report, isToken.atToken_eq]
      rfl
    · rw [if_neg listed, if_neg listed, Net.bind_groupOf?_eq]
      cases owned : base.net.ownerAt? index with
      | none =>
        dsimp only [onTop, Option.bind_none]
        rw [Registry.assign_link, List.append_nil]
      | some owner =>
        obtain ⟨found, foundAt, -⟩ := sound.wellFormed.owners index owner owned
        have other : owner ≠ base.nextGroup := by
          have lt : owner < base.net.groups.length := (List.getElem?_eq_some_iff.1 foundAt).1
          exact Nat.ne_of_lt lt
        have name :
            (onTop base group diagnostics).registry.groupName owner group.id = found.id := by
          have linked : (onTop base group diagnostics).registry.net.groupAt? owner = some found :=
            foundAt
          simp only [Registry.groupName, linked]
        dsimp only [Option.bind_some]
        rw [if_neg other, name, foundAt, isToken.text, report, isToken.atToken_eq]
        rfl

/-- Words are taken in as the line machine takes them in. -/
theorem foldl_step_onTop (indexed : base.Indexed) (sound : base.net.Sound)
    (fits : group.Fits base.net) {words : List Word} {tokens : List Token}
    (spelled : List.Forall₂ (Word.IsToken row.line.index) words tokens)
    (areMembers : ∀ word ∈ words, word.isMember = true) (diagnostics : List Diagnostic) :
    tokens.foldl (step group.id base.nextGroup) (onTop base group diagnostics) =
      onTop base (readMembers base.net row group words).1
        (diagnostics ++ (readMembers base.net row group words).2) := by
  induction spelled generalizing group diagnostics with
  | nil =>
    rw [readMembers, List.append_nil]
    rfl
  | @cons word token words tokens isToken spelled ih =>
    obtain ⟨members, same⟩ := LineMachine.exists_readMember_eq base.net row group word
    have id : (readMember base.net row group word).1.id = group.id := by
      rw [same]
    have isMember := areMembers word List.mem_cons_self
    have rest := ih (fits.readMember sound.wellFormed row isMember)
      (fun other mem => areMembers other (List.mem_cons_of_mem _ mem))
      (diagnostics ++ (readMember base.net row group word).2)
    rw [id, List.append_assoc] at rest
    rw [List.foldl_cons, step, if_pos isToken.isWord_eq,
      place_onTop indexed sound fits isToken, rest]
    rfl

end Group.Draft

/-! ## Bodies -/

theorem Word.IsToken.endsGroup_eq {index : Nat} {word : Word} {token : Token}
    (isToken : word.IsToken index token) : token.endsGroup = !word.isMember := by
  simp [Token.endsGroup, isToken.isTextEnd_eq, isToken.isKeyword_eq, Word.isMember]

theorem Word.IsToken.endsGroup_eq_false_of_mem {index : Nat} {words : List Word}
    {tokens : List Token} (spelled : List.Forall₂ (Word.IsToken index) words tokens)
    (areMembers : ∀ word ∈ words, word.isMember = true) :
    ∀ token ∈ tokens, token.endsGroup = false := by
  intro token mem
  obtain ⟨word, wordMem, isToken⟩ := exists_of_mem spelled mem
  rw [isToken.endsGroup_eq, areMembers word wordMem]
  rfl

theorem Row.EndsWith.endsGroup_eq {row : Row} {last : Bool} {token : Token}
    (ended : row.EndsWith last token) : token.endsGroup = last := by
  simp [Token.endsGroup, ended.isTextEnd_eq, ended.isKeyword_eq]

namespace Cursor

/-- How the place `after` at the end of a body lies in the text: at the keyword that ends the group,
with the rest of its row and the rows behind it, or at the end of the text. -/
def EndsBody (cursor : Cursor) (rows : List Row) (after : Cursor) : Option LineMachine.Tail → Prop
  | some tail => after.atGroupEnd = true ∧
      ∃ behind, after.Within tail.row tail.words tail.rows behind ∧
        cursor.Leads rows behind tail.rows
  | none => after.atGroupEnd = false ∧ cursor.Leads rows after []

theorem EndsBody.of_leads {cursor middle after : Cursor} {rows between : List Row}
    {tail : Option LineMachine.Tail} (leads : cursor.Leads rows middle between)
    (ends : middle.EndsBody between after tail) : cursor.EndsBody rows after tail := by
  cases tail with
  | none => exact ⟨ends.1, leads.trans ends.2⟩
  | some tail =>
    obtain ⟨atEnd, behind, within, rest⟩ := ends
    exact ⟨atEnd, behind, within, leads.trans rest⟩

end Cursor

namespace Cursor.Within

variable {cursor after : Cursor} {row : Row} {words front rest : List Word} {last : Word}
  {rows : List Row}

/-- Reading a body goes on behind a row of members, unless the text ends there. -/
theorem exists_foldUntil_of_isMember (within : cursor.Within row words rows after)
    (areMembers : ∀ word ∈ words, word.isMember = true) :
    ∃ tokens boundary, List.Forall₂ (Word.IsToken row.line.index) words tokens ∧
      row.EndsWith rows.isEmpty boundary ∧ after.current = some boundary ∧
      ∀ {Draft : Type} (step : Draft → Token → Draft) (draft : Draft),
        cursor.foldUntil Token.endsGroup step draft =
          if rows.isEmpty then (after, tokens.foldl step draft)
          else after.foldUntil Token.endsGroup step (step (tokens.foldl step draft) boundary) := by
  rw [← List.append_nil words] at within
  obtain ⟨middle, tokens, spelled, left, folded⟩ := within.exists_foldUntil_append
  obtain ⟨boundary, ended, current⟩ := left.exists_current
  have pulled : middle.advance.current = some boundary := by
    rw [left.advance_nil, current]
  refine ⟨tokens, boundary, spelled, ended, current, fun step draft => ?_⟩
  rw [folded _ _ _ (Word.IsToken.endsGroup_eq_false_of_mem spelled areMembers),
    foldUntil_of_current pulled, ended.endsGroup_eq, left.advance_nil]

/-- Reading a body stops at the first word that is not a member. -/
theorem exists_foldUntil_of_eq_append (within : cursor.Within row (front ++ last :: rest) rows after)
    (areMembers : ∀ word ∈ front, word.isMember = true) (isEnd : last.isMember = false) :
    ∃ tokens token, ∃ middle : Cursor, List.Forall₂ (Word.IsToken row.line.index) front tokens ∧
      last.IsToken row.line.index token ∧ middle.current = some token ∧
      middle.Within row rest rows after ∧
      ∀ {Draft : Type} (step : Draft → Token → Draft) (draft : Draft),
        cursor.foldUntil Token.endsGroup step draft = (middle, tokens.foldl step draft) := by
  obtain ⟨before, tokens, spelled, left, folded⟩ := within.exists_foldUntil_append
  obtain ⟨token, isToken, pulled, advanced⟩ := left.advance_cons
  refine ⟨tokens, token, before.advance, spelled, isToken, pulled, advanced, fun step draft => ?_⟩
  rw [folded _ _ _ (Word.IsToken.endsGroup_eq_false_of_mem spelled areMembers),
    foldUntil_of_current pulled, isToken.endsGroup_eq, isEnd]
  rfl

end Cursor.Within

section Bodies

variable {base : Registry} {group : OpenGroup} {row : Row}

/-- A body is read over the tokens as the line machine reads it over the rows. -/
theorem Cursor.exists_foldUntil_endsGroup {cursor : Cursor} {rows : List Row}
    (reads : cursor.lexer.Reads rows) (indexed : base.Indexed) (sound : base.net.Sound)
    (fits : group.Fits base.net) (diagnostics : List Diagnostic) :
    ∃ after, cursor.EndsBody rows after (readRows base.net group rows).2.2 ∧
      cursor.foldUntil Token.endsGroup (Group.Draft.step group.id base.nextGroup)
          (Group.Draft.onTop base group diagnostics) =
        (after, Group.Draft.onTop base (readRows base.net group rows).1
          (diagnostics ++ (readRows base.net group rows).2.1)) := by
  induction rows generalizing cursor group diagnostics with
  | nil =>
    cases reads with
    | nil exhausted =>
      refine ⟨{ cursor with current := none }, ⟨rfl, .nil exhausted, rfl, [], .nil _⟩, ?_⟩
      rw [foldUntil_of_next?_eq_none exhausted, readRows, List.append_nil]
  | cons row rows ih =>
    obtain ⟨after, within⟩ := cursor.exists_within reads
    rcases LineMachine.isMember_or_exists_eq_append row.words with areMembers | ⟨front, last, rest,
      words, areMembers, isEnd⟩
    · rw [LineMachine.readRows_of_isMember areMembers]
      obtain ⟨members, same⟩ := LineMachine.exists_readMembers_eq base.net row group row.words
      have id : (readMembers base.net row group row.words).1.id = group.id := by
        rw [same]
      have leads := within.leads
      obtain ⟨tokens, boundary, spelled, ended, current, folded⟩ :=
        within.exists_foldUntil_of_isMember areMembers
      rw [folded, Group.Draft.foldl_step_onTop indexed sound fits spelled areMembers]
      cases rows with
      | nil =>
        refine ⟨after, ⟨?_, leads⟩, ?_⟩
        · rw [atGroupEnd, current, Option.any_some, ended.isKeyword_eq]
        · rw [List.isEmpty_nil, if_pos rfl, readRows, List.append_nil]
      | cons next rows =>
        have kept (draft : Group.Draft) :
            draft.step group.id base.nextGroup boundary = draft := by
          rw [Group.Draft.step, if_neg (by simp [ended.isWord_eq])]
        have membersFit := LineMachine.invariant_sound.readMembers sound fits row areMembers
        obtain ⟨last, ends, rest⟩ := ih leads.reads membersFit
          (diagnostics ++ (readMembers base.net row group row.words).2)
        refine ⟨last, ends.of_leads leads, ?_⟩
        rw [id, List.append_assoc] at rest
        rw [kept, List.isEmpty_cons, if_neg Bool.false_ne_true, rest]
    · rw [LineMachine.readRows_of_eq_append words areMembers isEnd]
      have leads := within.leads
      rw [words] at within
      obtain ⟨tokens, token, middle, spelled, isToken, current, left, folded⟩ :=
        within.exists_foldUntil_of_eq_append areMembers isEnd
      refine ⟨middle, ⟨?_, after, left, leads⟩, ?_⟩
      · rw [atGroupEnd, current, Option.any_some, isToken.isKeyword_eq]
        simpa [Word.isMember] using isEnd
      · rw [folded, Group.Draft.foldl_step_onTop indexed sound fits spelled areMembers]

end Bodies

end NetDecl
