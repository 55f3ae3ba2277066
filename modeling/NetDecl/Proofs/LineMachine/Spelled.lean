import NetDecl.Proofs.LineMachine.Invariant

/-!
# Names and labels

The names in a net are words of the text, and so are the labels that are not left out: they hold no
blanks, and names are not empty.
-/

namespace NetDecl

/-- The words of the row can stand as words. -/
def Row.Clean (row : Row) : Prop :=
  ∀ word ∈ row.words, Text.IsWord word.text

theorem Row.clean_of_mem_ofText {text : String} {row : Row} (mem : row ∈ ofText text) : row.Clean :=
  fun _ wordMem => of_mem_words mem wordMem

namespace Net

/-- All names are words, and no label holds a blank. -/
structure Spelled (net : Net) : Prop where
  nodes : ∀ node ∈ net.nodes, Text.IsWord node.id ∧ Text.Blankless node.label
  edges : ∀ edge ∈ net.edges, Text.IsWord edge.id ∧ Text.Blankless edge.label
  groups : ∀ group ∈ net.groups, Text.IsWord group.id ∧ Text.Blankless group.label

theorem Spelled.empty : Net.empty.Spelled :=
  ⟨fun _ mem => (nomatch mem), fun _ mem => (nomatch mem), fun _ mem => (nomatch mem)⟩

variable {net : Net}

theorem Spelled.addNode (spelled : net.Spelled) {node : Node} (id : Text.IsWord node.id)
    (label : Text.Blankless node.label) : (net.addNode node).Spelled := by
  constructor
  · intro other mem
    rcases List.mem_append.1 mem with old | new
    · exact spelled.nodes other old
    · cases List.mem_singleton.1 new
      exact ⟨id, label⟩
  · exact spelled.edges
  · exact spelled.groups

theorem Spelled.addEdge (spelled : net.Spelled) {edge : Edge} (id : Text.IsWord edge.id)
    (label : Text.Blankless edge.label) : (net.addEdge edge).Spelled := by
  constructor
  · exact spelled.nodes
  · intro other mem
    rcases List.mem_append.1 mem with old | new
    · exact spelled.edges other old
    · cases List.mem_singleton.1 new
      exact ⟨id, label⟩
  · exact spelled.groups

theorem Spelled.addGroup (spelled : net.Spelled) {group : Group} (id : Text.IsWord group.id)
    (label : Text.Blankless group.label) : (net.addGroup group).Spelled := by
  constructor
  · intro other mem
    rcases List.mem_mapIdx.1 mem with ⟨index, lt, rfl⟩
    have before := spelled.nodes _ (List.getElem_mem lt)
    split <;> exact before
  · exact spelled.edges
  · intro other mem
    rcases List.mem_append.1 mem with old | new
    · exact spelled.groups other old
    · cases List.mem_singleton.1 new
      exact ⟨id, label⟩

end Net

namespace LineMachine

variable {net : Net} {row : Row} {words : List Word}

theorem blankless_labelOf (clean : ∀ word ∈ words, Text.IsWord word.text) :
    Text.Blankless (labelOf words) := by
  cases words with
  | nil => exact fun _ mem => (nomatch mem)
  | cons word words => exact (clean word List.mem_cons_self).2

theorem spelled_of_readHeader {part : Part} {header : Header} {diagnostics : List Diagnostic}
    (clean : row.Clean) (subset : words ⊆ row.words)
    (read : readHeader net part row words = (some header, diagnostics)) :
    Text.IsWord header.id ∧ Text.Blankless header.label := by
  obtain ⟨-, id, rest, rfl, rfl⟩ := of_readHeader_eq_some read
  constructor
  · exact clean id (subset List.mem_cons_self)
  · exact blankless_labelOf fun word mem => clean word (subset (List.mem_cons_of_mem _ mem))

theorem spelled_of_readEdge {edge : Edge} {diagnostics : List Diagnostic} (clean : row.Clean)
    (subset : words ⊆ row.words) (read : readEdge net row words = (some edge, diagnostics)) :
    Text.IsWord edge.id ∧ Text.Blankless edge.label := by
  obtain ⟨-, id, source, target, rest, rfl, -, -, sameId, sameLabel⟩ := of_readEdge_eq_some read
  rw [sameId, sameLabel]
  constructor
  · exact clean id (subset List.mem_cons_self)
  · exact blankless_labelOf fun word mem => clean word (subset (by simp [mem]))

/-- That names and labels are words of the text is an invariant. -/
theorem invariant_spelled :
    Invariant Net.Spelled (fun _ group => Text.IsWord group.id ∧ Text.Blankless group.label)
      Row.Clean where
  node spelled clean subset read := by
    obtain ⟨id, label⟩ := spelled_of_readHeader clean subset read
    exact spelled.addNode id label
  edge spelled clean subset read := by
    obtain ⟨id, label⟩ := spelled_of_readEdge clean subset read
    exact spelled.addEdge id label
  opened _ clean subset read := spelled_of_readHeader clean subset read
  member {net group word} row _ reading _ := by
    obtain ⟨members, same⟩ := exists_readMember_eq net row group word
    rw [same]
    exact reading
  closed spelled reading _ := spelled.addGroup reading.1 reading.2

/-- The names and labels in the net that the machine declares are words of the text. -/
theorem spelled_run (mark text : String) : (run mark (Row.ofText text)).net.Spelled :=
  invariant_spelled.run .empty (fun _ mem => Row.clean_of_mem_ofText mem) mark

end LineMachine

end NetDecl
