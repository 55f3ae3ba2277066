import Mathlib.Data.List.Induction
import NetDecl.Proofs.Declaration.Atomic

/-!
# Words that are refused as members

A word in the body of a group is taken in as a member, or it is refused for one of three issues.
Each diagnostic of a body is recorded at one of its words, and says why this word was refused with
the members that had been taken in before.
-/

namespace NetDecl

namespace Group.Draft

/-- The word is refused for the issue while the members of the group with the name `id` and the
index `group` are read. -/
inductive Refuses (id : String) (group : Nat) (draft : Draft) (token : Token) : Issue → Prop where
  /-- No node has this name. -/
  | notFound :
      draft.registry.node? token.text = none →
      Refuses id group draft token (.notFound .member token.text)
  /-- The node points at the group being read. -/
  | listedAgain {node : Nat} :
      draft.registry.node? token.text = some node → draft.registry.owner? node = some group →
      Refuses id group draft token (.listedAgain token.text id)
  /-- The node points at another group. -/
  | foreign {node owner : Nat} :
      draft.registry.node? token.text = some node → draft.registry.owner? node = some owner →
      owner ≠ group →
      Refuses id group draft token (.foreign token.text (draft.registry.groupName owner id))

/-- A word that is refused is reported, and nothing else happens. -/
theorem Refuses.step_eq {id : String} {group : Nat} {draft : Draft} {token : Token} {issue : Issue}
    (refuses : draft.Refuses id group token issue) (isWord : token.isWord = true) :
    draft.step id group token = draft.report token issue := by
  rw [step, if_pos isWord]
  cases refuses with
  | notFound unknown => simp only [place, unknown]
  | listedAgain known owned => simp only [place, known, owned, if_true]
  | foreign known owned other => simp only [place, known, owned, if_neg other]

section Steps

variable (id : String) (group : Nat) (draft : Draft) (token : Token)

/-- A token is taken in without a diagnostic, or it is a word that is refused. -/
theorem step_cases :
    (draft.step id group token).diagnostics = draft.diagnostics ∨
      token.isWord = true ∧ ∃ issue, draft.Refuses id group token issue := by
  unfold step
  split
  · rename_i isWord
    unfold place
    split
    · rename_i unknown
      exact .inr ⟨isWord, _, .notFound unknown⟩
    · rename_i node known
      split
      · exact .inl rfl
      · rename_i owner owned
        by_cases same : owner = group
        · exact .inr ⟨isWord, _, .listedAgain known (same ▸ owned)⟩
        · exact .inr ⟨isWord, _, .foreign known owned same⟩
  · exact .inl rfl

theorem members_subset_step : draft.members ⊆ (draft.step id group token).members := by
  unfold step place
  split
  · split
    · exact List.Subset.refl _
    · split
      · exact List.subset_append_left _ _
      · split <;> exact List.Subset.refl _
  · exact List.Subset.refl _

theorem members_subset_foldl (tokens : List Token) :
    draft.members ⊆ (tokens.foldl (step id group) draft).members := by
  induction tokens generalizing draft with
  | nil => exact List.Subset.refl _
  | cons token tokens ih =>
    exact List.Subset.trans (draft.members_subset_step id group token) (ih _)

/-- What reading tokens records is recorded at words that are refused. -/
theorem exists_fresh_foldl (tokens : List Token) :
    ∃ fresh, (tokens.foldl (step id group) draft).diagnostics = draft.diagnostics ++ fresh ∧
      ∀ diagnostic ∈ fresh, ∃ front word back issue, tokens = front ++ word :: back ∧
        word.isWord = true ∧ (front.foldl (step id group) draft).Refuses id group word issue ∧
        diagnostic = issue.atToken word := by
  induction tokens using List.reverseRecOn with
  | nil => exact ⟨[], (List.append_nil _).symm, nofun⟩
  | append_singleton tokens token ih =>
    rcases ih with ⟨fresh, recorded, places⟩
    -- What is known about the tokens in front is known with one more token behind.
    have inFront : ∀ diagnostic ∈ fresh, ∃ front word back issue,
        tokens ++ [token] = front ++ word :: back ∧ word.isWord = true ∧
          (front.foldl (step id group) draft).Refuses id group word issue ∧
          diagnostic = issue.atToken word := by
      intro diagnostic mem
      rcases places diagnostic mem with ⟨front, word, back, issue, rfl, rest⟩
      exact ⟨front, word, back ++ [token], issue, by simp, rest⟩
    rw [List.foldl_append, List.foldl_cons, List.foldl_nil]
    rcases step_cases id group (tokens.foldl (step id group) draft) token with
      silent | ⟨isWord, issue, refuses⟩
    · exact ⟨fresh, silent.trans recorded, inFront⟩
    · refine ⟨fresh ++ [issue.atToken token], ?_, ?_⟩
      · rw [refuses.step_eq isWord, report, recorded, List.append_assoc]
      · intro diagnostic mem
        rcases List.mem_append.1 mem with old | new
        · exact inFront diagnostic old
        · exact ⟨tokens, token, [], issue, rfl, isWord, refuses, List.mem_singleton.1 new⟩

end Steps

/-! ## Owners -/

section Owners

variable {base : Registry} {diagnostics : List Diagnostic} {draft : Draft} {node : Nat}

theorem Links.node?_eq (links : draft.Links base diagnostics) (text : String) :
    draft.registry.node? text = base.node? text := by
  rw [links.registry]
  rfl

/-- A node that points at the group being read has been listed before. -/
theorem Links.mem_of_owner?_eq (links : draft.Links base diagnostics)
    (wellFormed : base.net.WellFormed) (owned : draft.registry.owner? node = some base.nextGroup) :
    node ∈ draft.members := by
  rw [links.owner?_eq] at owned
  split at owned
  · assumption
  · rcases wellFormed.owners node base.nextGroup owned with ⟨group, found, -⟩
    have inRange : base.nextGroup < base.net.groups.length :=
      (List.getElem?_eq_some_iff.1 found).1
    exact absurd inRange (Nat.lt_irrefl _)

/-- A node that points at another group belongs to a group that has been declared before, and this
group is the one that is named. -/
theorem Links.exists_group_of_owner?_eq (links : draft.Links base diagnostics)
    (wellFormed : base.net.WellFormed) {owner : Nat}
    (owned : draft.registry.owner? node = some owner) (other : owner ≠ base.nextGroup) :
    ∃ group, base.net.groupAt? owner = some group ∧ node ∈ group.members ∧
      ∀ pending, draft.registry.groupName owner pending = group.id := by
  rw [links.owner?_eq] at owned
  split at owned
  · exact absurd (Option.some.inj owned).symm other
  · rcases wellFormed.owners node owner owned with ⟨group, found, once⟩
    refine ⟨group, found, List.count_pos_iff.1 (once ▸ Nat.one_pos), ?_⟩
    intro pending
    have linked : draft.registry.net.groupAt? owner = some group := by
      rw [links.registry]
      exact found
    rw [Registry.groupName, linked]

end Owners

end Group.Draft

end NetDecl
