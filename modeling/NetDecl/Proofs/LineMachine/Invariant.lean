import NetDecl.Proofs.LineMachine

/-!
# Invariants of the line machine

A property of nets, together with a property of groups that are being read, holds after all rows if
it holds of the empty net and each declaration keeps it.
-/

namespace NetDecl.LineMachine

/-! ## What a line declares -/

theorem of_readHeader_eq_some {net : Net} {part : Part} {row : Row} {words : List Word}
    {header : Header} {diagnostics : List Diagnostic}
    (read : readHeader net part row words = (some header, diagnostics)) :
    net.nameIssues part header.id = [] ∧
      ∃ id rest, words = id :: rest ∧ header = ⟨id.text, labelOf rest⟩ := by
  cases words with
  | nil => cases read
  | cons id rest =>
    obtain ⟨made, -⟩ := Prod.mk.inj read
    split at made
    · rename_i free
      cases made
      exact ⟨List.isEmpty_iff.1 free, id, rest, rfl, rfl⟩
    · cases made

theorem of_readEdge_eq_some {net : Net} {row : Row} {words : List Word} {edge : Edge}
    {diagnostics : List Diagnostic} (read : readEdge net row words = (some edge, diagnostics)) :
    net.nameIssues .edge edge.id = [] ∧
      ∃ id source target rest, words = id :: source :: target :: rest ∧
        net.indexOf? source.text = some edge.source ∧
        net.indexOf? target.text = some edge.target ∧
        edge.id = id.text ∧ edge.label = labelOf rest := by
  match words with
  | [] => cases read
  | [_] => cases read
  | [_, _] => cases read
  | id :: source :: target :: rest =>
    obtain ⟨made, -⟩ := Prod.mk.inj read
    split at made
    · rename_i free sourceFound targetFound
      cases made
      exact ⟨free, id, source, target, rest, rfl, sourceFound, targetFound, rfl, rfl⟩
    · cases made

theorem exists_readMember_eq (net : Net) (row : Row) (group : OpenGroup) (word : Word) :
    ∃ members, (readMember net row group word).1 = { group with members } := by
  unfold readMember
  split
  · exact ⟨group.members, rfl⟩
  · split
    · exact ⟨group.members, rfl⟩
    · split
      · exact ⟨group.members, rfl⟩
      · exact ⟨_, rfl⟩

theorem exists_readMembers_eq (net : Net) (row : Row) (group : OpenGroup) (words : List Word) :
    ∃ members, (readMembers net row group words).1 = { group with members } := by
  induction words generalizing group with
  | nil => exact ⟨group.members, rfl⟩
  | cons word words ih =>
    obtain ⟨first, firstEq⟩ := exists_readMember_eq net row group word
    obtain ⟨members, equal⟩ := ih (readMember net row group word).1
    apply Exists.intro members
    rw [readMembers]
    dsimp only
    rw [equal, firstEq]

/-! ## Invariants -/

/-- Declarations on rows with the property `rows` keep the property `nets`, and groups that are
being read have the property `groups`. -/
structure Invariant (nets : Net → Prop) (groups : Net → OpenGroup → Prop) (rows : Row → Prop) :
    Prop where
  node : ∀ {net row words header diagnostics}, nets net → rows row → words ⊆ row.words →
    readHeader net .node row words = (some header, diagnostics) →
    nets (net.addNode ⟨header.id, header.label, none⟩)
  edge : ∀ {net row words edge diagnostics}, nets net → rows row → words ⊆ row.words →
    readEdge net row words = (some edge, diagnostics) → nets (net.addEdge edge)
  opened : ∀ {net row words header diagnostics}, nets net → rows row → words ⊆ row.words →
    readHeader net .group row words = (some header, diagnostics) →
    groups net ⟨header.id, header.label, row.line, []⟩
  member : ∀ {net group word} (row : Row), nets net → groups net group → word.isMember = true →
    groups net (readMember net row group word).1
  closed : ∀ {net group}, nets net → groups net group → group.members ≠ [] →
    nets (net.addGroup ⟨group.id, group.label, group.members⟩)

/-- The net has the one property, and the group that is being read has the other. -/
structure State.Holds (nets : Net → Prop) (groups : Net → OpenGroup → Prop) (state : State) :
    Prop where
  net : nets state.net
  mode : ∀ group, state.mode = .inGroup group → groups state.net group

section Steps

variable {nets : Net → Prop} {groups : Net → OpenGroup → Prop} {rows : Row → Prop} {state : State}
  {row : Row} {words : List Word}

/-- Between groups it is the net alone that counts. -/
theorem State.holds_of_scanning (net : nets state.net) (scanning : state.mode = .scanning) :
    state.Holds nets groups := by
  constructor
  · exact net
  · intro group mode
    rw [scanning] at mode
    cases mode

theorem State.Holds.report (holds : state.Holds nets groups) (diagnostics : List Diagnostic) :
    (state.report diagnostics).Holds nets groups :=
  ⟨holds.net, holds.mode⟩

theorem State.net_finish (state : State) : state.finish.net = state.net := by
  unfold finish
  split
  · rfl
  · split <;> rfl

namespace Invariant

theorem declareNode (invariant : Invariant nets groups rows) (holds : state.Holds nets groups)
    (clean : rows row) (subset : words ⊆ row.words) (scanning : state.mode = .scanning) :
    (state.declareNode row words).Holds nets groups := by
  unfold State.declareNode
  split
  · rename_i header diagnostics read
    exact State.holds_of_scanning (invariant.node holds.net clean subset read) scanning
  · exact holds.report _

theorem declareEdge (invariant : Invariant nets groups rows) (holds : state.Holds nets groups)
    (clean : rows row) (subset : words ⊆ row.words) (scanning : state.mode = .scanning) :
    (state.declareEdge row words).Holds nets groups := by
  unfold State.declareEdge
  split
  · rename_i edge diagnostics read
    exact State.holds_of_scanning (invariant.edge holds.net clean subset read) scanning
  · exact holds.report _

theorem openGroup (invariant : Invariant nets groups rows) (holds : state.Holds nets groups)
    (clean : rows row) (subset : words ⊆ row.words) :
    (state.openGroup row words).Holds nets groups := by
  unfold State.openGroup
  split
  · rename_i header diagnostics read
    constructor
    · exact holds.net
    · intro group mode
      cases mode
      exact invariant.opened holds.net clean subset read
  · exact holds.report _

theorem scan (invariant : Invariant nets groups rows) (holds : state.Holds nets groups)
    (clean : rows row) (scanning : state.mode = .scanning) (mark : String) :
    (state.scan mark row).Holds nets groups := by
  unfold State.scan
  split
  · exact holds
  · rename_i first words split
    have subset : words ⊆ row.words := by
      rw [split]
      exact List.subset_cons_self first words
    split
    · exact invariant.declareNode holds clean subset scanning
    · exact invariant.declareEdge holds clean subset scanning
    · exact invariant.openGroup holds clean subset
    · split
      · exact holds
      · exact holds.report _

theorem readMembers (invariant : Invariant nets groups rows) {net : Net} {group : OpenGroup}
    (holds : nets net) (reading : groups net group) (row : Row)
    (areMembers : ∀ word ∈ words, word.isMember = true) :
    groups net (readMembers net row group words).1 := by
  induction words generalizing group with
  | nil => exact reading
  | cons word words ih =>
    have read := invariant.member row holds reading (areMembers word List.mem_cons_self)
    exact ih read fun other mem => areMembers other (List.mem_cons_of_mem _ mem)

theorem closeGroup (invariant : Invariant nets groups rows) {group : OpenGroup}
    (holds : nets state.net) (reading : groups state.net group) :
    (state.closeGroup group).Holds nets groups := by
  unfold State.closeGroup
  split
  · exact State.holds_of_scanning holds rfl
  · rename_i filled
    have members : group.members ≠ [] := fun empty => filled (List.isEmpty_iff.2 empty)
    exact State.holds_of_scanning (invariant.closed holds reading members) rfl

theorem readBody (invariant : Invariant nets groups rows) {group : OpenGroup}
    (holds : nets state.net) (reading : groups state.net group) (row : Row) :
    (state.readBody group row).Holds nets groups := by
  have areMembers : ∀ word ∈ row.words.takeWhile Word.isMember, word.isMember = true :=
    fun word mem => List.mem_takeWhile_imp mem
  have read := invariant.readMembers holds reading row areMembers
  unfold State.readBody
  dsimp only
  split
  · constructor
    · exact holds
    · intro other mode
      cases mode
      exact read
  · exact invariant.closeGroup holds read

/-- Reading a row keeps an invariant. -/
theorem step (invariant : Invariant nets groups rows) (holds : state.Holds nets groups)
    (clean : rows row) (mark : String) : (state.step mark row).Holds nets groups := by
  unfold State.step
  split
  · rename_i scanning
    exact invariant.scan holds clean scanning mark
  · rename_i group mode
    exact invariant.readBody holds.net (holds.mode group mode) row

/-- Reading rows one after another keeps an invariant. -/
theorem foldl (invariant : Invariant nets groups rows) (holds : state.Holds nets groups)
    {list : List Row} (clean : ∀ row ∈ list, rows row) (mark : String) :
    (list.foldl (State.step mark) state).Holds nets groups := by
  induction list generalizing state with
  | nil => exact holds
  | cons row list ih =>
    have stepped := invariant.step holds (clean row List.mem_cons_self) mark
    exact ih stepped fun other mem => clean other (List.mem_cons_of_mem _ mem)

/-- Whatever rows the machine reads, an invariant of the empty net holds of the net it declares. -/
theorem run (invariant : Invariant nets groups rows) (empty : nets Net.empty) {list : List Row}
    (clean : ∀ row ∈ list, rows row) (mark : String) : nets (run mark list).net := by
  have start : State.start.Holds nets groups := State.holds_of_scanning empty rfl
  rw [LineMachine.run, State.net_finish]
  exact (invariant.foldl start clean mark).net

end Invariant

end Steps

end NetDecl.LineMachine
