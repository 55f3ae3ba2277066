import NetDecl.Proofs.Compile.Continued
import NetDecl.Proofs.LineMachine.Renumbered
import NetDecl.Proofs.LineMachine.Written

/-!
# Exchanged lines

Two lines next to each other that declare nodes with different names can be exchanged.  If both
nodes are declared, they change places in the net, and all that refers to them follows; otherwise
the net stays as it is.  The same is reported, though perhaps in another order and in other places.
-/

namespace NetDecl

/-- The line tells to declare a node with the given name. -/
structure IsNodeLine (line id : String) : Prop where
  unbroken : ∀ char ∈ line.toList, Text.isBreak char = false
  words : ∃ keyword name rest, Text.words 0 line.toList = keyword :: name :: rest ∧
    Text.sameWord keyword.text "node" = true ∧ name.text = id

/-- The line declares one node behind the given text. -/
def AddsNode (options : Options) (front line : String) : Prop :=
  (compile options (front ++ line ++ "\n")).net.nodes.length =
    (compile options front).net.nodes.length + 1

instance (options : Options) (front line : String) : Decidable (AddsNode options front line) :=
  inferInstanceAs (Decidable (_ = _))

namespace Net

/-- The net with the node, if the name of the node can be used. -/
def offer (net : Net) (node : Node) : Net :=
  if net.nameIssues .node node.id = [] then net.addNode node else net

variable {net : Net} {node other : Node}

theorem offer_of_free (free : net.nameIssues .node node.id = []) :
    net.offer node = net.addNode node :=
  if_pos free

theorem offer_of_taken (taken : net.nameIssues .node node.id ≠ []) : net.offer node = net :=
  if_neg taken

/-- A node takes no name but its own. -/
theorem nameIssues_addNode {id : String} (different : node.id ≠ id) :
    (net.addNode node).nameIssues .node id = net.nameIssues .node id := by
  have kept : (net.addNode node).node? id = net.node? id := by
    simp [node?, addNode, List.find?_append, different]
  rw [nameIssues, nameIssues, kept]
  rfl

theorem nameIssues_offer {id : String} (different : node.id ≠ id) :
    (net.offer node).nameIssues .node id = net.nameIssues .node id := by
  unfold offer
  split
  · exact nameIssues_addNode different
  · rfl

/-- A node is declared exactly if the net grows. -/
theorem length_nodes_offer_iff :
    (net.offer node).nodes.length = net.nodes.length + 1 ↔ net.nameIssues .node node.id = [] := by
  by_cases free : net.nameIssues .node node.id = []
  · simp [offer_of_free free, free, addNode]
  · simp [offer_of_taken free, free]

/-- Two nodes with different free names are declared one behind the other. -/
theorem map_id_offer_offer (different : node.id ≠ other.id)
    (free : net.nameIssues .node node.id = []) (otherFree : net.nameIssues .node other.id = []) :
    ((net.offer node).offer other).nodes.map Node.id =
      net.nodes.map Node.id ++ [node.id, other.id] := by
  rw [← nameIssues_offer different] at otherFree
  rw [offer_of_free otherFree, offer_of_free free]
  simp [addNode]

/-- Numbers of nodes that are there already stay as they are where later ones change places. -/
theorem WellFormed.map_renumber_swap (wellFormed : net.WellFormed) :
    net.edges.map (Edge.renumber (Equiv.swap net.nodes.length (net.nodes.length + 1))) = net.edges ∧
      net.groups.map (Group.renumber (Equiv.swap net.nodes.length (net.nodes.length + 1))) =
        net.groups := by
  have stays (index : Nat) (lt : index < net.nodes.length) :
      Equiv.swap net.nodes.length (net.nodes.length + 1) index = index :=
    Equiv.swap_apply_of_ne_of_ne (by omega) (by omega)
  constructor
  · refine (List.map_congr_left fun edge mem => ?_).trans (List.map_id net.edges)
    rcases wellFormed.ends edge mem with ⟨source, target⟩
    rw [Edge.renumber, stays _ source, stays _ target, id]
  · refine (List.map_congr_left fun group mem => ?_).trans (List.map_id net.groups)
    have members : group.members.map
        (Equiv.swap net.nodes.length (net.nodes.length + 1)) = group.members := by
      refine (List.map_congr_left fun index listed => ?_).trans (List.map_id group.members)
      rcases wellFormed.exists_nodeAt? mem listed with ⟨node, found⟩
      exact stays index (lt_of_nodeAt? found)
    rw [Group.renumber, members, id]

/-- Two nodes declared in either order are numbered in either order. -/
theorem WellFormed.renumbered_addNode_addNode (wellFormed : net.WellFormed) (node other : Node) :
    ((net.addNode node).addNode other).Renumbered
      (Equiv.swap net.nodes.length (net.nodes.length + 1))
      ((net.addNode other).addNode node) where
  nodes index := by
    have length (node : Node) : (net.addNode node).nodes.length = net.nodes.length + 1 :=
      List.length_append
    simp only [nodeAt?_addNode, length]
    by_cases first : index = net.nodes.length
    · subst index
      simp
    · by_cases second : index = net.nodes.length + 1
      · subst index
        simp
      · rw [Equiv.swap_apply_of_ne_of_ne first second]
        simp [first, second]
  beyond index beyond := by
    simp only [Net.addNode, List.length_append, List.length_singleton] at beyond
    exact Equiv.swap_apply_of_ne_of_ne (by omega) (by omega)
  edges := wellFormed.map_renumber_swap.1.symm
  groups := wellFormed.map_renumber_swap.2.symm

/-- It makes no difference in which order two nodes with different names are declared, but to their
numbers if both are declared. -/
theorem WellFormed.renumbered_offer_offer (wellFormed : net.WellFormed)
    (different : node.id ≠ other.id) :
    ((net.offer node).offer other).Renumbered
      (if net.nameIssues .node node.id = [] ∧ net.nameIssues .node other.id = [] then
        Equiv.swap net.nodes.length (net.nodes.length + 1)
      else Equiv.refl Nat)
      ((net.offer other).offer node) := by
  have second : (net.offer node).offer other =
      if net.nameIssues .node other.id = [] then (net.offer node).addNode other
      else net.offer node :=
    if_congr (by rw [nameIssues_offer different]) rfl rfl
  have first : (net.offer other).offer node =
      if net.nameIssues .node node.id = [] then (net.offer other).addNode node
      else net.offer other :=
    if_congr (by rw [nameIssues_offer different.symm]) rfl rfl
  rw [second, first]
  by_cases free : net.nameIssues .node node.id = []
  · by_cases otherFree : net.nameIssues .node other.id = []
    · rw [if_pos ⟨free, otherFree⟩, if_pos free, if_pos otherFree, offer_of_free free,
        offer_of_free otherFree]
      exact wellFormed.renumbered_addNode_addNode node other
    · rw [if_neg fun both => otherFree both.2, if_pos free, if_neg otherFree, offer_of_free free,
        offer_of_taken otherFree]
      exact .refl _
  · rw [if_neg fun both => free both.1, if_neg free, offer_of_taken free]
    exact .refl _

end Net

namespace LineMachine

/-! ## Node lines -/

/-- What is said about a node line whose name has the given issues and whose label is followed by
the given words. -/
def nodeNotices (issues : List Issue) (words : List Word) : List (Code × String) :=
  (issues ++ words.map fun word => Issue.discarded word.text).map fun issue =>
    (issue.code, issue.message)

/-- Wherever a row with these words stands, reading it offers the node to the net, and says the same
as long as the same names are taken. -/
def Offers (mark : String) (words : List Word) (node : Node) (rest : List Word) : Prop :=
  ∀ (state : State) (row : Row), state.mode = .scanning → row.words = words →
    ∃ diagnostics, state.step mark row =
        ⟨state.net.offer node, state.diagnostics ++ diagnostics, .scanning⟩ ∧
      diagnostics.map Diagnostic.notice =
        nodeNotices (state.net.nameIssues .node node.id) rest

theorem offers_cons_cons (mark : String) {keyword : Word}
    (isNode : Text.sameWord keyword.text "node" = true) (name : Word) (rest : List Word) :
    Offers mark (keyword :: name :: rest) ⟨name.text, labelOf rest, none⟩ (rest.drop 1) := by
  intro state row scanning words
  have part : Part.ofKeyword? keyword.text = some .node := by
    simp [Part.ofKeyword?, Part.all, Part.word, isNode]
  refine ⟨(state.net.nameIssues .node name.text).map (row.flag name) ++
    row.discards (rest.drop 1), ?_, ?_⟩
  · rw [step_of_keyword mark scanning words part]
    dsimp only
    by_cases free : state.net.nameIssues .node name.text = []
    · simp [State.declareNode, readHeader, Net.offer, free, State.report, scanning]
    · simp [State.declareNode, readHeader, Net.offer, free, State.report, scanning]
  · rw [nodeNotices, List.map_append, List.map_append, Row.discards, List.map_map, List.map_map,
      List.map_map]
    rfl

theorem exists_offers {line id : String} (isNode : IsNodeLine line id) (mark : String) :
    ∃ node rest, node.id = id ∧ Offers mark (Text.words 0 line.toList) node rest := by
  rcases isNode.words with ⟨keyword, name, rest, words, isKeyword, named⟩
  refine ⟨⟨name.text, labelOf rest, none⟩, rest.drop 1, named, ?_⟩
  rw [words]
  exact offers_cons_cons mark isKeyword name rest

section Exchanged

variable {mark : String} {words otherWords rest otherRest : List Word} {node other : Node}
  {state : State} {row otherRow lowerRow upperRow : Row}

/-- Two rows that offer nodes with different names can be read in either order. -/
theorem Offers.renumbered_step_step (offers : Offers mark words node rest)
    (otherOffers : Offers mark otherWords other otherRest) (different : node.id ≠ other.id)
    (wellFormed : state.net.WellFormed) (scanning : state.mode = .scanning)
    (rowWords : row.words = words) (otherRowWords : otherRow.words = otherWords)
    (upperWords : upperRow.words = otherWords) (lowerWords : lowerRow.words = words) :
    ((state.step mark row).step mark otherRow).Renumbered
      (if state.net.nameIssues .node node.id = [] ∧ state.net.nameIssues .node other.id = [] then
        Equiv.swap state.net.nodes.length (state.net.nodes.length + 1)
      else Equiv.refl Nat)
      ((state.step mark upperRow).step mark lowerRow) := by
  rcases offers state row scanning rowWords with ⟨front, step, frontNotices⟩
  rcases otherOffers state upperRow scanning upperWords with ⟨upper, upperStep, upperNotices⟩
  rw [step, upperStep]
  rcases otherOffers ⟨state.net.offer node, state.diagnostics ++ front, .scanning⟩ otherRow rfl
    otherRowWords with ⟨back, backStep, backNotices⟩
  rcases offers ⟨state.net.offer other, state.diagnostics ++ upper, .scanning⟩ lowerRow rfl
    lowerWords with ⟨lower, lowerStep, lowerNotices⟩
  rw [backStep, lowerStep]
  rw [Net.nameIssues_offer different] at backNotices
  rw [Net.nameIssues_offer different.symm] at lowerNotices
  refine ⟨wellFormed.renumbered_offer_offer different, rfl, ?_⟩
  dsimp only
  rw [List.append_assoc, List.append_assoc, List.map_append, List.map_append, List.map_append,
    List.map_append, frontNotices, backNotices, upperNotices, lowerNotices]
  exact List.perm_append_comm.append_left _

theorem Offers.net_step_step (offers : Offers mark words node rest)
    (otherOffers : Offers mark otherWords other otherRest) (scanning : state.mode = .scanning)
    (rowWords : row.words = words) (otherRowWords : otherRow.words = otherWords) :
    ((state.step mark row).step mark otherRow).net = (state.net.offer node).offer other := by
  rcases offers state row scanning rowWords with ⟨front, step, -⟩
  rw [step]
  rcases otherOffers ⟨state.net.offer node, state.diagnostics ++ front, .scanning⟩ otherRow rfl
    otherRowWords with ⟨back, backStep, -⟩
  rw [backStep]

/-- Nodes stay where they are when the machine reads on. -/
theorem prefix_ids_runFrom (holds : state.Holds Net.Sound fun net group => group.Fits net)
    (mark : String) (rows : List Row) :
    state.net.nodes.map Node.id <+: (runFrom mark state rows).net.nodes.map Node.id := by
  have grown := (extends_foldl holds mark rows).nodes.map Prod.fst
  rw [List.map_map, List.map_map] at grown
  rw [runFrom, State.net_finish]
  exact grown

theorem holds_step (holds : state.Holds Net.Sound fun net group => group.Fits net) (mark : String)
    (row : Row) : (state.step mark row).Holds Net.Sound fun net group => group.Fits net :=
  invariant_sound.step holds trivial mark

/-- Two rows that offer nodes with different names lead to the same end in either order, but for the
numbers of their nodes if both are declared. -/
theorem Offers.runFrom_step_step (offers : Offers mark words node rest)
    (otherOffers : Offers mark otherWords other otherRest) (different : node.id ≠ other.id)
    (holds : state.Holds Net.Sound fun net group => group.Fits net)
    (scanning : state.mode = .scanning) (rowWords : row.words = words)
    (otherRowWords : otherRow.words = otherWords) (upperWords : upperRow.words = otherWords)
    (lowerWords : lowerRow.words = words) (rows : List Row) :
    let last := runFrom mark ((state.step mark row).step mark otherRow) rows
    let exchanged := runFrom mark ((state.step mark upperRow).step mark lowerRow) rows
    let free := state.net.nameIssues .node node.id = [] ∧ state.net.nameIssues .node other.id = []
    (free → (last.net.nodes.map Node.id)[state.net.nodes.length]? = some node.id ∧
      (last.net.nodes.map Node.id)[state.net.nodes.length + 1]? = some other.id ∧
      exchanged.net = last.net.exchange state.net.nodes.length) ∧
    (¬free → exchanged.net = last.net) ∧
    (exchanged.diagnostics.map Diagnostic.notice).Perm
      (last.diagnostics.map Diagnostic.notice) := by
  intro last exchanged free
  have holdsTwo (row otherRow : Row) := holds_step (holds_step holds mark row) mark otherRow
  have exchangedTwo := offers.renumbered_step_step otherOffers different holds.net.wellFormed
    scanning rowWords otherRowWords upperWords lowerWords
  have renumbered := exchangedTwo.runFrom (holdsTwo row otherRow) (holdsTwo upperRow lowerRow)
    mark rows
  refine ⟨?_, ?_, renumbered.notices⟩
  · intro both
    have net := renumbered.net
    rw [if_pos both] at net
    have ids := prefix_ids_runFrom (holdsTwo row otherRow) mark rows
    rw [offers.net_step_step otherOffers scanning rowWords otherRowWords,
      Net.map_id_offer_offer different both.1 both.2] at ids
    rcases ids with ⟨later, whole⟩
    have inRange : state.net.nodes.length + 1 < last.net.nodes.length := by
      have length := congrArg List.length whole
      simp only [List.length_append, List.length_map, List.length_cons, List.length_nil] at length
      change state.net.nodes.length + 1 < (runFrom mark _ rows).net.nodes.length
      omega
    have place (next : Nat) : (last.net.nodes.map Node.id)[state.net.nodes.length + next]? =
        (node.id :: other.id :: later)[next]? := by
      rw [← whole, List.append_assoc, ← List.length_map Node.id,
        List.getElem?_append_right (Nat.le_add_right _ _), Nat.add_sub_cancel_left]
      rfl
    exact ⟨place 0, place 1, net.unique (Net.renumbered_exchange inRange)⟩
  · intro notBoth
    have net := renumbered.net
    rw [if_neg notBoth] at net
    exact net.unique (.refl _)

end Exchanged

/-- Behind whole lines the machine reads one more line as a row. -/
theorem exists_behind_eq_step {front line : String} (whole : Text.IsWhole front)
    (unbroken : ∀ char ∈ line.toList, Text.isBreak char = false) (mark : String) :
    ∃ start, behind mark (front ++ line ++ "\n") =
      (behind mark front).step mark (Row.ofLine (Text.breakCount front.toList) start line) := by
  rcases exists_ofText_append whole mark with ⟨rows, start, -, reached, texts⟩
  have row := Row.number_line unbroken (Text.breakCount front.toList) start ""
  rw [String.append_empty] at row
  use start
  rw [behind, String.append_assoc, texts, row, List.foldl_append, ← reached, List.foldl_cons]
  -- Behind its last break the text has an empty row.
  exact step_of_words_eq_nil mark _ (Text.words_nil 0)

/-- Behind whole lines the machine reads two more lines as rows.  The rows behind these are the same
for the two lines in either order. -/
theorem exists_run_eq_runFrom {front first second : String} (whole : Text.IsWhole front)
    (unbroken : ∀ char ∈ first.toList, Text.isBreak char = false)
    (otherUnbroken : ∀ char ∈ second.toList, Text.isBreak char = false) (back mark : String) :
    ∃ start rows,
      run mark (Row.ofText (front ++ first ++ "\n" ++ second ++ "\n" ++ back)) =
        runFrom mark
          (((behind mark front).step mark
            (Row.ofLine (Text.breakCount front.toList) start first)).step mark
            (Row.ofLine (Text.breakCount front.toList + 1) (start + first.length + 1) second))
          rows ∧
      run mark (Row.ofText (front ++ second ++ "\n" ++ first ++ "\n" ++ back)) =
        runFrom mark
          (((behind mark front).step mark
            (Row.ofLine (Text.breakCount front.toList) start second)).step mark
            (Row.ofLine (Text.breakCount front.toList + 1) (start + second.length + 1) first))
          rows := by
  rcases exists_ofText_append whole mark with ⟨above, start, -, reached, texts⟩
  have rows {first second : String}
      (unbroken : ∀ char ∈ first.toList, Text.isBreak char = false)
      (otherUnbroken : ∀ char ∈ second.toList, Text.isBreak char = false) :
      Row.ofText (front ++ first ++ "\n" ++ second ++ "\n" ++ back) = above ++
        Row.ofLine (Text.breakCount front.toList) start first ::
        Row.ofLine (Text.breakCount front.toList + 1) (start + first.length + 1) second ::
        Row.number (Text.breakCount front.toList + 1 + 1)
          (start + first.length + 1 + second.length + 1) (Text.splitLines back.toList) := by
    simp only [String.append_assoc]
    rw [texts, Row.number_line unbroken, Row.number_line otherUnbroken]
  have ends : start + second.length + 1 + first.length + 1 =
      start + first.length + 1 + second.length + 1 := by omega
  refine ⟨start, Row.number (Text.breakCount front.toList + 1 + 1)
    (start + first.length + 1 + second.length + 1) (Text.splitLines back.toList), ?_, ?_⟩
  · rw [run, rows unbroken otherUnbroken, List.foldl_append, ← reached]
    rfl
  · rw [run, rows otherUnbroken unbroken, List.foldl_append, ← reached, ends]
    rfl

end LineMachine

/-- The net of a text is the one that the machine has behind it. -/
theorem net_compile_eq_behind (options : Options) (text : String) :
    (compile options text).net = (LineMachine.behind options.effectiveMark text).net := by
  rw [net_compile, LineMachine.run_eq_finish_behind, LineMachine.State.net_finish]

/-- What is said about a text: what the machine has recorded, or that there is nothing to say. -/
theorem notices_compile (options : Options) (text : String) :
    (compile options text).diagnostics.map Diagnostic.notice =
      match (LineMachine.run options.effectiveMark (Row.ofText text)).diagnostics.map
        Diagnostic.notice with
      | [] => [(.success, "Success")]
      | notices => notices := by
  rw [diagnostics_compile]
  cases (LineMachine.run options.effectiveMark (Row.ofText text)).diagnostics with
  | nil => rfl
  | cons diagnostic diagnostics => rfl

/-- Machines that have recorded the same report the same. -/
theorem perm_notices_compile {options : Options} {text other : String}
    (same : ((LineMachine.run options.effectiveMark (Row.ofText other)).diagnostics.map
      Diagnostic.notice).Perm
        ((LineMachine.run options.effectiveMark (Row.ofText text)).diagnostics.map
          Diagnostic.notice)) :
    ((compile options other).diagnostics.map Diagnostic.notice).Perm
      ((compile options text).diagnostics.map Diagnostic.notice) := by
  rw [notices_compile, notices_compile]
  generalize (LineMachine.run options.effectiveMark (Row.ofText other)).diagnostics.map
    Diagnostic.notice = notices at same
  generalize (LineMachine.run options.effectiveMark (Row.ofText text)).diagnostics.map
    Diagnostic.notice = others at same
  cases notices with
  | nil =>
    rw [List.nil_perm.1 same]
  | cons notice notices =>
    cases others with
    | nil => exact absurd same List.not_perm_cons_nil
    | cons other others => exact same

/-! ## Exchanging node lines -/

section

variable {options : Options} {front first second id otherId : String}

/-- A node line declares a node exactly if its name is free. -/
theorem IsNodeLine.addsNode_iff (isNode : IsNodeLine first id) (whole : Text.IsWhole front)
    (between : ¬EndsInGroup options front) :
    AddsNode options front first ↔ (compile options front).net.nameIssues .node id = [] := by
  rcases LineMachine.exists_offers isNode options.effectiveMark with ⟨node, rest, rfl, offers⟩
  rcases LineMachine.exists_behind_eq_step whole isNode.unbroken options.effectiveMark with
    ⟨start, behind⟩
  rcases offers _ (Row.ofLine (Text.breakCount front.toList) start first) (not_not.1 between) rfl
    with ⟨diagnostics, step, -⟩
  rw [AddsNode, net_compile_eq_behind, net_compile_eq_behind, behind, step]
  exact Net.length_nodes_offer_iff

/-- Whether the second of two node lines declares its node does not depend on the first. -/
theorem IsNodeLine.addsNode_append_iff (isNode : IsNodeLine first id)
    (otherIsNode : IsNodeLine second otherId) (different : id ≠ otherId)
    (whole : Text.IsWhole front) (between : ¬EndsInGroup options front) :
    AddsNode options (front ++ first ++ "\n") second ↔
      (compile options front).net.nameIssues .node otherId = [] := by
  rcases LineMachine.exists_offers isNode options.effectiveMark with ⟨node, rest, rfl, offers⟩
  rcases LineMachine.exists_behind_eq_step whole isNode.unbroken options.effectiveMark with
    ⟨start, behind⟩
  rcases offers _ (Row.ofLine (Text.breakCount front.toList) start first) (not_not.1 between) rfl
    with ⟨diagnostics, step, -⟩
  have longer : ¬EndsInGroup options (front ++ first ++ "\n") := by
    rw [EndsInGroup, behind, step]
    exact fun inGroup => inGroup rfl
  rw [otherIsNode.addsNode_iff (.inr ⟨front ++ first, rfl⟩) longer, net_compile_eq_behind,
    net_compile_eq_behind, behind, step]
  dsimp only
  rw [Net.nameIssues_offer different]

end

/-- Two neighbouring lines that declare nodes with different names can be exchanged.  If both nodes
are declared, they change places in the net, and edges and groups refer to them there; otherwise the
net stays as it is.  The same is said about the text in either case. -/
theorem compile_exchange_nodes (options : Options) {front first second id otherId : String}
    (whole : Text.IsWhole front) (between : ¬EndsInGroup options front)
    (isNode : IsNodeLine first id) (otherIsNode : IsNodeLine second otherId)
    (different : id ≠ otherId) (back : String) :
    let count := (compile options front).net.nodes.length
    let outcome := compile options (front ++ first ++ "\n" ++ second ++ "\n" ++ back)
    let exchanged := compile options (front ++ second ++ "\n" ++ first ++ "\n" ++ back)
    (AddsNode options front first ∧ AddsNode options (front ++ first ++ "\n") second →
      (outcome.net.nodes.map Node.id)[count]? = some id ∧
      (outcome.net.nodes.map Node.id)[count + 1]? = some otherId ∧
      exchanged.net = outcome.net.exchange count) ∧
    (¬(AddsNode options front first ∧ AddsNode options (front ++ first ++ "\n") second) →
      exchanged.net = outcome.net) ∧
    (exchanged.diagnostics.map Diagnostic.notice).Perm
      (outcome.diagnostics.map Diagnostic.notice) := by
  intro count outcome exchanged
  rw [isNode.addsNode_iff whole between,
    isNode.addsNode_append_iff otherIsNode different whole between]
  rcases LineMachine.exists_offers isNode options.effectiveMark with ⟨node, rest, rfl, offers⟩
  rcases LineMachine.exists_offers otherIsNode options.effectiveMark with
    ⟨other, otherRest, rfl, otherOffers⟩
  rcases LineMachine.exists_run_eq_runFrom whole isNode.unbroken otherIsNode.unbroken back
    options.effectiveMark with ⟨start, rows, run, exchangedRun⟩
  have exchange := offers.runFrom_step_step otherOffers different
    (LineMachine.holds_behind options.effectiveMark front) (not_not.1 between)
    (Row.words_ofLine (Text.breakCount front.toList) start first)
    (Row.words_ofLine (Text.breakCount front.toList + 1) (start + first.length + 1) second)
    (Row.words_ofLine (Text.breakCount front.toList) start second)
    (Row.words_ofLine (Text.breakCount front.toList + 1) (start + second.length + 1) first) rows
  dsimp only at exchange
  rw [← run, ← exchangedRun, ← net_compile, ← net_compile, ← net_compile_eq_behind] at exchange
  exact ⟨exchange.1, exchange.2.1, perm_notices_compile exchange.2.2⟩

/-- An edge and a group refer to two nodes that change places; one of their lines has a word too
many. -/
theorem compile_exchange_nodes_between :
    Text.IsWhole "node a\n" ∧ ¬EndsInGroup .standard "node a\n" ∧ IsNodeLine "node b" "b" ∧
      IsNodeLine "NODE c d e" "c" ∧ "b" ≠ "c" ∧
      (AddsNode .standard "node a\n" "node b" ∧
        AddsNode .standard ("node a\n" ++ "node b" ++ "\n") "NODE c d e") ∧
      (compile .standard ("node a\n" ++ "NODE c d e" ++ "\n" ++ "node b" ++ "\n" ++
          "edge e b c\ngroup g\nc a\nendgroup")).net =
        (compile .standard ("node a\n" ++ "node b" ++ "\n" ++ "NODE c d e" ++ "\n" ++
          "edge e b c\ngroup g\nc a\nendgroup")).net.exchange 1 := by
  have whole : Text.IsWhole "node a\n" := .inr ⟨"node a", rfl⟩
  have between : ¬EndsInGroup .standard "node a\n" := by decide +kernel
  have isNode : IsNodeLine "node b" "b" :=
    ⟨by simp [Text.isBreak], ⟨0, "node"⟩, ⟨5, "b"⟩, [], by cbv, by decide +kernel, rfl⟩
  have otherIsNode : IsNodeLine "NODE c d e" "c" :=
    ⟨by simp [Text.isBreak], ⟨0, "NODE"⟩, ⟨5, "c"⟩, [⟨7, "d"⟩, ⟨9, "e"⟩], by cbv,
      by decide +kernel, rfl⟩
  have different : "b" ≠ "c" := by decide
  have declared : AddsNode .standard "node a\n" "node b" ∧
      AddsNode .standard ("node a\n" ++ "node b" ++ "\n") "NODE c d e" := by
    decide +kernel
  have count : (compile .standard "node a\n").net.nodes.length = 1 := by decide +kernel
  have exchange := compile_exchange_nodes .standard whole between isNode otherIsNode different
    "edge e b c\ngroup g\nc a\nendgroup"
  rw [count] at exchange
  exact ⟨whole, between, isNode, otherIsNode, different, declared, (exchange.1 declared).2.2⟩

end NetDecl
