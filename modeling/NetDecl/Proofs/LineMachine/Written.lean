import NetDecl.Proofs.LineMachine.Body
import NetDecl.Proofs.Net.Written

/-!
# Reading a net back

The line machine that reads the text of a net goes from stage to stage: each line of a node or an
edge declares it, and the lines of a group together declare the group.  Nothing is reported but the
edges that run beside others.
-/

namespace NetDecl

namespace Net

/-- Whether an edge has its ends in common with one of the edges before the given index. -/
def isParallel (net : Net) (edge : Edge) (index : Nat) : Bool :=
  (net.edges.take index).any fun other =>
    other.source == edge.source && other.target == edge.target

/-- The warning about an edge, which stands on the line that declares the edge. -/
def parallelWarning (net : Net) (edge : Edge) (index : Nat) : Diagnostic where
  severity := .warning
  code := .duplicateSourceTarget
  position := ⟨net.nodes.length + index, 0⟩
  length := (Text.line (net.edgeWords edge)).length
  message := "edge with same source and target already exist " ++ edge.id

/-- The warnings about those edges, given with their indices, that have their ends in common with an
edge before. -/
def warningsAmong (net : Net) (edges : List (Edge × Nat)) : List Diagnostic :=
  (edges.filter fun (edge, index) => net.isParallel edge index).map fun (edge, index) =>
    net.parallelWarning edge index

/-- The warnings about the edges of a net. -/
def parallelWarnings (net : Net) : List Diagnostic :=
  net.warningsAmong net.edges.zipIdx

theorem warningsAmong_cons (net : Net) (edge : Edge) (index : Nat) (edges : List (Edge × Nat)) :
    net.warningsAmong ((edge, index) :: edges) =
      (if net.isParallel edge index then [net.parallelWarning edge index] else []) ++
        net.warningsAmong edges := by
  by_cases parallel : net.isParallel edge index = true
  · simp [warningsAmong, parallel]
  · simp [warningsAmong, parallel]

end Net

namespace LineMachine

/-! ## Stretches of lines -/

/-- Reading lines that are written from the line with the given index on leads from one state to
another. -/
def Steps (mark : String) (index : Nat) (lines : List (List String)) (first last : State) : Prop :=
  ∀ start, (Row.written index start lines).foldl (State.step mark) first = last

namespace Steps

variable {mark : String} {index : Nat} {first middle last : State}

theorem nil (mark : String) (index : Nat) (state : State) : Steps mark index [] state state :=
  fun _ => rfl

theorem append {front back : List (List String)} (before : Steps mark index front first middle)
    (behind : Steps mark (index + front.length) back middle last) :
    Steps mark index (front ++ back) first last := by
  intro start
  obtain ⟨middleStart, rows⟩ := Row.exists_written_append index start front back
  rw [rows, List.foldl_append, before start, behind middleStart]

theorem cons {words : List String} {lines : List (List String)}
    (before : Steps mark index [words] first middle)
    (behind : Steps mark (index + 1) lines middle last) :
    Steps mark index (words :: lines) first last :=
  before.append behind

end Steps

/-! ## Single lines -/

section Lines

variable {net : Net} {row : Row}

theorem labelOf_place (column : Nat) (label : String) :
    labelOf (Word.place column (labelWords label)) = label := by
  by_cases empty : label = ""
  · simp [labelWords, empty, Word.place, labelOf]
  · simp [labelWords, empty, Word.place, labelOf]

theorem discards_place (row : Row) (column : Nat) (label : String) :
    row.discards (Word.place column (labelWords label)).tail = [] := by
  by_cases empty : label = ""
  · simp [labelWords, empty, Word.place, Row.discards]
  · simp [labelWords, empty, Word.place, Row.discards]

theorem readHeader_place {part : Part} {id : String} (free : net.nameIssues part id = [])
    (row : Row) (column : Nat) (label : String) :
    readHeader net part row (Word.place column (id :: labelWords label)) =
      (some ⟨id, label⟩, []) := by
  simp [Word.place, readHeader, free, labelOf_place, discards_place]

theorem readEdge_place {edge : Edge} {source target : String}
    (free : net.nameIssues .edge edge.id = [])
    (sourceFound : net.indexOf? source = some edge.source)
    (targetFound : net.indexOf? target = some edge.target) (row : Row) (column : Nat) :
    readEdge net row
        (Word.place column (edge.id :: source :: target :: labelWords edge.label)) =
      (some edge, []) := by
  simp [Word.place, readEdge, free, sourceFound, targetFound, Net.endIssues, labelOf_place,
    discards_place]

end Lines

theorem step_of_keyword (mark : String) {state : State} (scanning : state.mode = .scanning)
    {row : Row} {part : Part} {first : Word} {words : List Word}
    (split : row.words = first :: words) (keyword : Part.ofKeyword? first.text = some part) :
    state.step mark row =
      match part with
      | .node => state.declareNode row words
      | .edge => state.declareEdge row words
      | .group => state.openGroup row words := by
  simp only [State.step, scanning, State.scan, split, keyword]
  cases part <;> rfl

section Declarations

variable {mark : String} {index : Nat} {net : Net} {diagnostics : List Diagnostic}

/-- The line of a node with a free name declares the node. -/
theorem steps_node {node : Node} (free : net.nameIssues .node node.id = []) :
    Steps mark index [node.words] ⟨net, diagnostics, .scanning⟩
      ⟨net.addNode ⟨node.id, node.label, none⟩, diagnostics, .scanning⟩ := by
  intro start
  rw [Row.written, Row.written, List.foldl_cons, List.foldl_nil,
    step_of_keyword mark rfl rfl (Part.ofKeyword?_word .node)]
  simp only [State.declareNode, readHeader_place free, State.report, List.append_nil]

/-- The line of an edge with a free name declares the edge, with a warning if it runs beside one
before. -/
theorem steps_edge {whole : Net} {edge : Edge} {position : Nat}
    (before : whole.edges.take position = net.edges) (free : net.nameIssues .edge edge.id = [])
    (source : net.indexOf? (whole.nameAt edge.source) = some edge.source)
    (target : net.indexOf? (whole.nameAt edge.target) = some edge.target) :
    Steps mark (whole.nodes.length + position) [whole.edgeWords edge]
      ⟨net, diagnostics, .scanning⟩
      ⟨net.addEdge edge,
        diagnostics ++
          if whole.isParallel edge position then [whole.parallelWarning edge position] else [],
        .scanning⟩ := by
  intro start
  rw [Row.written, Row.written, List.foldl_cons, List.foldl_nil,
    step_of_keyword mark rfl rfl (Part.ofKeyword?_word .edge)]
  simp only [State.declareEdge, readEdge_place free source target, State.report, List.nil_append,
    State.parallels, Net.isParallel, before]
  rfl

/-- A line with a node that can join the group makes it a member. -/
theorem steps_member {group : OpenGroup} {id : String} {member : Nat}
    (found : net.indexOf? id = some member) (named : Text.sameWord id groupEnd = false)
    (fresh : member ∉ group.members)
    (unowned : (net.nodeAt? member).bind net.groupOf? = none) :
    Steps mark index [[id]] ⟨net, diagnostics, .inGroup group⟩
      ⟨net, diagnostics, .inGroup { group with members := group.members ++ [member] }⟩ := by
  intro start
  have areMembers : ∀ word ∈ Word.place 0 [id], word.isMember = true := by
    intro word mem
    rw [List.mem_singleton.1 mem]
    exact Word.isMember_iff.2 named
  rw [Row.written, Row.written, List.foldl_cons, List.foldl_nil,
    step_of_isMember mark rfl areMembers]
  simp [Word.place, readMembers, readMember, found, fresh, unowned, State.enter, State.report]

/-- Lines with different nodes that can join the group make them members. -/
theorem steps_members {whole : Net} {group : OpenGroup} {members : List Nat}
    (nodup : (group.members ++ members).Nodup)
    (found : ∀ member ∈ members, net.indexOf? (whole.nameAt member) = some member)
    (named : ∀ member ∈ members, Text.sameWord (whole.nameAt member) groupEnd = false)
    (unowned : ∀ member ∈ members, (net.nodeAt? member).bind net.groupOf? = none) :
    Steps mark index (members.map fun member => [whole.nameAt member])
      ⟨net, diagnostics, .inGroup group⟩
      ⟨net, diagnostics, .inGroup { group with members := group.members ++ members }⟩ := by
  induction members generalizing index group with
  | nil =>
    rw [List.append_nil]
    exact .nil mark index _
  | cons member members ih =>
    obtain ⟨firstFound, found⟩ := List.forall_mem_cons.1 found
    obtain ⟨firstNamed, named⟩ := List.forall_mem_cons.1 named
    obtain ⟨firstUnowned, unowned⟩ := List.forall_mem_cons.1 unowned
    have fresh : member ∉ group.members := by
      intro mem
      exact (List.disjoint_of_nodup_append nodup) mem List.mem_cons_self
    rw [List.append_cons] at nodup ⊢
    exact (steps_member firstFound firstNamed fresh firstUnowned).cons
      (ih nodup found named unowned)

/-- The line that ends a group with members declares the group. -/
theorem steps_groupEnd {group : OpenGroup} (filled : group.members ≠ []) :
    Steps mark index [[groupEnd]] ⟨net, diagnostics, .inGroup group⟩
      ⟨net.addGroup group.toGroup, diagnostics, .scanning⟩ := by
  intro start
  have isEnd : (⟨0, groupEnd⟩ : Word).isMember = false := by decide
  have noMembers : ∀ word ∈ ([] : List Word), word.isMember = true := by simp
  rw [Row.written, Row.written, List.foldl_cons, List.foldl_nil,
    step_of_eq_append mark rfl rfl noMembers isEnd]
  have notEmpty : group.members.isEmpty = false := by simpa using filled
  simp [readMembers, Row.discards, State.report, State.closeGroup, notEmpty, OpenGroup.toGroup,
    Word.place]

end Declarations

/-! ## Whole nets -/

section Nets

variable {mark : String} {net : Net}

/-- The lines of nodes with different names declare the nodes, which do not stand in groups yet. -/
theorem steps_nodes (front : List Node) {rest : List Node} (index : Nat)
    (nodup : ((front ++ rest).map Node.id).Nodup) :
    Steps mark index (rest.map Node.words) ⟨⟨front.map (Node.upTo 0), [], []⟩, [], .scanning⟩
      ⟨⟨(front ++ rest).map (Node.upTo 0), [], []⟩, [], .scanning⟩ := by
  induction rest generalizing index front with
  | nil =>
    rw [List.append_nil]
    exact .nil mark index _
  | cons node rest ih =>
    have free : (⟨front.map (Node.upTo 0), [], []⟩ : Net).nameIssues .node node.id = [] := by
      rw [Net.nameIssues_node_eq_nil_iff, Net.map_id_upTo]
      refine ⟨fun mem => ?_, List.not_mem_nil⟩
      rw [List.map_append] at nodup
      exact List.disjoint_of_nodup_append nodup mem List.mem_cons_self
    rw [List.append_cons] at nodup ⊢
    have others := ih _ (index + 1) nodup
    rw [List.map_append, List.map_singleton, Node.upTo_zero] at others
    exact (steps_node free).cons others

/-- The lines of the edges of a net declare the edges, with a warning about each that runs beside
one before. -/
theorem steps_edges (wellFormed : net.WellFormed) (front : List Edge) {rest : List Edge}
    (edges : net.edges = front ++ rest) (diagnostics : List Diagnostic) :
    Steps mark (net.nodes.length + front.length) (rest.map net.edgeWords)
      ⟨⟨net.nodes.map (Node.upTo 0), front, []⟩, diagnostics, .scanning⟩
      ⟨⟨net.nodes.map (Node.upTo 0), net.edges, []⟩,
        diagnostics ++ net.warningsAmong (rest.zipIdx front.length), .scanning⟩ := by
  induction rest generalizing front diagnostics with
  | nil =>
    have none : net.warningsAmong (([] : List Edge).zipIdx front.length) = [] := rfl
    rw [edges, none, List.append_nil, List.append_nil]
    exact .nil mark _ _
  | cons edge rest ih =>
    have mem : edge ∈ net.edges := by simp [edges]
    have before : net.edges.take front.length = front := by rw [edges, List.take_left]
    obtain ⟨sourceLt, targetLt⟩ := wellFormed.ends edge mem
    have same := Net.map_id_upTo net.nodes 0
    have free : (⟨net.nodes.map (Node.upTo 0), front, []⟩ : Net).nameIssues .edge edge.id = [] := by
      rw [Net.nameIssues_edge_eq_nil_iff]
      intro taken
      have nodup := wellFormed.edgeIds
      rw [edges, List.map_append] at nodup
      exact List.disjoint_of_nodup_append nodup taken List.mem_cons_self
    rw [List.append_cons] at edges
    have others := ih _ edges
    rw [List.length_append, List.length_singleton, ← Nat.add_assoc] at others
    rw [List.zipIdx_cons, net.warningsAmong_cons, ← List.append_assoc]
    exact (steps_edge before free (Net.indexOf?_nameAt same wellFormed.nodeIds sourceLt)
      (Net.indexOf?_nameAt same wellFormed.nodeIds targetLt)).cons (others _)

/-- The lines behind the header of a group declare the group. -/
theorem steps_body (sound : net.Sound) {count : Nat} {group : Group}
    (next : net.groupAt? count = some group) (index : Nat) (diagnostics : List Diagnostic)
    (header : Line) :
    Steps mark index ((group.members.map fun member => [net.nameAt member]) ++ [[groupEnd]])
      ⟨net.upTo count, diagnostics, .inGroup ⟨group.id, group.label, header, []⟩⟩
      ⟨net.upTo (count + 1), diagnostics, .scanning⟩ := by
  have wellFormed := sound.wellFormed
  have mem : group ∈ net.groups := List.mem_of_getElem? next
  have found : ∀ member ∈ group.members,
      (net.upTo count).indexOf? (net.nameAt member) = some member := fun member listed =>
    Net.indexOf?_nameAt (Net.map_id_upTo net.nodes count) wellFormed.nodeIds
      (wellFormed.lt_of_mem_members mem listed)
  have named : ∀ member ∈ group.members, Text.sameWord (net.nameAt member) groupEnd = false := by
    intro member listed
    obtain ⟨node, nodeFound⟩ := wellFormed.exists_nodeAt? mem listed
    rw [Net.nameAt_eq_of_nodeAt? nodeFound]
    exact sound.named group mem member listed node nodeFound
  have unowned : ∀ member ∈ group.members,
      ((net.upTo count).nodeAt? member).bind (net.upTo count).groupOf? = none :=
    fun _ listed => wellFormed.bind_groupOf?_upTo next listed
  have reading : Steps mark index (group.members.map fun member => [net.nameAt member])
      ⟨net.upTo count, diagnostics, .inGroup ⟨group.id, group.label, header, []⟩⟩
      ⟨net.upTo count, diagnostics, .inGroup ⟨group.id, group.label, header, group.members⟩⟩ :=
    steps_members (wellFormed.nodup_indices mem) found named unowned
  rw [← wellFormed.addGroup_upTo next]
  exact reading.append (steps_groupEnd (sound.filled group mem))

/-- The lines of a group declare the group. -/
theorem steps_group (sound : net.Sound) {count : Nat} {group : Group}
    (next : net.groupAt? count = some group) (index : Nat) (diagnostics : List Diagnostic) :
    Steps mark index (net.groupWords group) ⟨net.upTo count, diagnostics, .scanning⟩
      ⟨net.upTo (count + 1), diagnostics, .scanning⟩ := by
  -- The header is read on its own, as the group that it opens remembers where its line begins.
  intro start
  have free := sound.wellFormed.nameIssues_group_upTo next
  rw [Net.groupWords, List.cons_append, Row.written, List.foldl_cons,
    step_of_keyword mark rfl rfl (Part.ofKeyword?_word .group)]
  simp only [State.openGroup, readHeader_place free, State.report, List.append_nil]
  exact steps_body sound next (index + 1) diagnostics _ _

/-- The lines of the groups of a net declare the groups. -/
theorem steps_groups (sound : net.Sound) (front : List Group) {rest : List Group}
    (groups : net.groups = front ++ rest) (index : Nat) (diagnostics : List Diagnostic) :
    Steps mark index (rest.flatMap net.groupWords)
      ⟨net.upTo front.length, diagnostics, .scanning⟩ ⟨net, diagnostics, .scanning⟩ := by
  induction rest generalizing front index with
  | nil =>
    rw [List.append_nil] at groups
    rw [← groups, sound.wellFormed.upTo_length]
    exact .nil mark index _
  | cons group rest ih =>
    have next : net.groupAt? front.length = some group := by
      simp [Net.groupAt?, groups]
    rw [List.append_cons] at groups
    have others := ih _ groups (index + (net.groupWords group).length)
    rw [List.length_append, List.length_singleton] at others
    rw [List.flatMap_cons]
    exact (steps_group sound next index diagnostics).append others

/-- The lines of a net declare the net. -/
theorem steps_lines (sound : net.Sound) :
    Steps mark 0 net.lines State.start ⟨net, net.parallelWarnings, .scanning⟩ := by
  have wellFormed := sound.wellFormed
  have nodes : Steps mark 0 (net.nodes.map Node.words) State.start
      ⟨⟨net.nodes.map (Node.upTo 0), [], []⟩, [], .scanning⟩ :=
    steps_nodes [] 0 wellFormed.nodeIds
  have edges : Steps mark (0 + (net.nodes.map Node.words).length) (net.edges.map net.edgeWords)
      ⟨⟨net.nodes.map (Node.upTo 0), [], []⟩, [], .scanning⟩
      ⟨net.upTo 0, net.parallelWarnings, .scanning⟩ := by
    rw [Nat.zero_add, List.length_map]
    exact steps_edges wellFormed [] rfl []
  exact (nodes.append edges).append (steps_groups sound [] rfl _ net.parallelWarnings)

/-- The machine that reads the text of a net declares the net, and warns of the edges that run
beside one before. -/
theorem run_text (mark : String) (sound : net.Sound) (spelled : net.Spelled) :
    run mark (Row.ofText net.text) = ⟨net, net.parallelWarnings, .scanning⟩ := by
  obtain ⟨stop, rows⟩ := Row.exists_ofText_write (spelled.isWord_of_mem_lines sound.wellFormed)
  rw [run, Net.text, rows, List.foldl_append, steps_lines sound]
  rfl

end Nets

end LineMachine

end NetDecl
