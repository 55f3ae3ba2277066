import NetDecl.Proofs.LineMachine.Invariant

/-!
# Soundness of the line machine

Whatever rows the line machine reads, the net that it has declared is well-formed, its groups have
members, and no member of a group has the name of the keyword that ends groups.  The members of the
group being read are different nodes that belong to no group.
-/

namespace NetDecl

namespace Net

variable {net : Net}

theorem nameIssues_node_eq_nil_iff {id : String} :
    net.nameIssues .node id = [] ↔
      id ∉ net.nodes.map Node.id ∧ id ∉ net.groups.map Group.id := by
  simp only [nameIssues, List.append_eq_nil_iff, ite_eq_right_iff, List.cons_ne_nil, imp_false,
    isSome_node?_iff, isSome_group?_iff]

theorem nameIssues_edge_eq_nil_iff {id : String} :
    net.nameIssues .edge id = [] ↔ id ∉ net.edges.map Edge.id := by
  simp only [nameIssues, ite_eq_right_iff, List.cons_ne_nil, imp_false, isSome_edge?_iff]

theorem nameIssues_group_eq_nil_iff {id : String} :
    net.nameIssues .group id = [] ↔
      id ∉ net.groups.map Group.id ∧ id ∉ net.nodes.map Node.id := by
  simp only [nameIssues, List.append_eq_nil_iff, ite_eq_right_iff, List.cons_ne_nil, imp_false,
    isSome_node?_iff, isSome_group?_iff]

theorem exists_nodeAt?_of_indexOf? {id : String} {index : Nat}
    (found : net.indexOf? id = some index) :
    ∃ node, net.nodeAt? index = some node ∧ node.id = id := by
  obtain ⟨lt, same, -⟩ := List.findIdx?_eq_some_iff_getElem.1 found
  exact ⟨net.nodes[index], List.getElem?_eq_getElem lt, eq_of_beq same⟩

theorem lt_of_indexOf? {id : String} {index : Nat} (found : net.indexOf? id = some index) :
    index < net.nodes.length :=
  (List.findIdx?_eq_some_iff_getElem.1 found).1

/-! ## Groups of a net -/

/-- The net is well-formed, its groups have members, and no member has the name of the keyword that
ends groups. -/
structure Sound (net : Net) : Prop where
  wellFormed : net.WellFormed
  filled : ∀ group ∈ net.groups, group.members ≠ []
  named : ∀ group ∈ net.groups, ∀ index ∈ group.members, ∀ node,
    net.nodeAt? index = some node → Text.sameWord node.id groupEnd = false

/-- Members of groups are nodes. -/
theorem WellFormed.exists_nodeAt? (wellFormed : net.WellFormed) {group : Group}
    (mem : group ∈ net.groups) {index : Nat} (listed : index ∈ group.members) :
    ∃ node, net.nodeAt? index = some node := by
  obtain ⟨owner, found⟩ := List.mem_iff_getElem?.1 mem
  have owned := wellFormed.members owner group found index listed
  obtain ⟨node, nodeFound, -⟩ := Option.bind_eq_some_iff.1 owned
  exact ⟨node, nodeFound⟩

theorem Sound.empty : Net.empty.Sound where
  wellFormed := .empty
  filled := fun _ mem => nomatch mem
  named := fun _ mem => nomatch mem

theorem Sound.addNode (sound : net.Sound) {node : Node} (free : net.nameIssues .node node.id = [])
    (unowned : node.group = none) : (net.addNode node).Sound := by
  obtain ⟨fresh, apart⟩ := nameIssues_node_eq_nil_iff.1 free
  constructor
  · exact sound.wellFormed.addNode fresh apart unowned
  · exact sound.filled
  · intro group mem index listed other found
    rcases sound.wellFormed.exists_nodeAt? mem listed with ⟨member, memberFound⟩
    have kept : (net.addNode node).nodeAt? index = some member :=
      getElem?_append_singleton_eq_some_iff.2 (.inl memberFound)
    rw [kept] at found
    cases found
    exact sound.named group mem index listed _ memberFound

theorem Sound.addEdge (sound : net.Sound) {edge : Edge} (free : net.nameIssues .edge edge.id = [])
    (source : edge.source < net.nodes.length) (target : edge.target < net.nodes.length) :
    (net.addEdge edge).Sound :=
  ⟨sound.wellFormed.addEdge (nameIssues_edge_eq_nil_iff.1 free) source target, sound.filled,
    sound.named⟩

end Net

namespace LineMachine

/-! ## The group being read -/

/-- The name of the group is free, and its members are different nodes that belong to no group. -/
structure OpenGroup.Fits (group : OpenGroup) (net : Net) : Prop where
  free : net.nameIssues .group group.id = []
  nodup : group.members.Nodup
  unowned : ∀ index ∈ group.members, net.ownerAt? index = none
  named : ∀ index ∈ group.members, ∃ node, net.nodeAt? index = some node ∧
    Text.sameWord node.id groupEnd = false

namespace OpenGroup.Fits

variable {net : Net} {group : OpenGroup}

theorem readMember (fits : group.Fits net) (wellFormed : net.WellFormed) (row : Row) {word : Word}
    (isMember : word.isMember = true) :
    (readMember net row group word).1.Fits net := by
  unfold LineMachine.readMember
  split
  · exact fits
  · rename_i index found
    split
    · exact fits
    · rename_i notListed
      split
      · exact fits
      · rename_i unowned
        obtain ⟨node, nodeFound, same⟩ := Net.exists_nodeAt?_of_indexOf? found
        have ownerless := wellFormed.bind_groupOf?_eq_none_iff.1 unowned
        constructor
        · exact fits.free
        · exact fits.nodup.append (List.nodup_singleton _) (List.disjoint_singleton.2 notListed)
        · intro other mem
          rcases List.mem_append.1 mem with old | new
          · exact fits.unowned other old
          · cases List.mem_singleton.1 new
            exact ownerless
        · intro other mem
          rcases List.mem_append.1 mem with old | new
          · exact fits.named other old
          · cases List.mem_singleton.1 new
            exact ⟨node, nodeFound, same ▸ Word.isMember_iff.1 isMember⟩

/-- The group can be declared once it has members. -/
theorem addGroup (fits : group.Fits net) (sound : net.Sound) (filled : group.members ≠ []) :
    (net.addGroup ⟨group.id, group.label, group.members⟩).Sound := by
  obtain ⟨fresh, apart⟩ := Net.nameIssues_group_eq_nil_iff.1 fits.free
  have inRange : ∀ index ∈ group.members,
      index < net.nodes.length ∧ net.ownerAt? index = none := by
    intro index listed
    obtain ⟨node, found, -⟩ := fits.named index listed
    exact ⟨Net.lt_of_nodeAt? found, fits.unowned index listed⟩
  constructor
  · exact sound.wellFormed.addGroup fresh apart fits.nodup inRange
  · intro other mem
    rcases List.mem_append.1 mem with old | new
    · exact sound.filled other old
    · cases List.mem_singleton.1 new
      exact filled
  · intro other mem index listed node found
    have linked : (net.nodeAt? index).map (fun node =>
        if index ∈ group.members then { node with group := some net.groups.length } else node) =
        some node :=
      (net.nodeAt?_link _ _ _).symm.trans found
    obtain ⟨before, beforeFound, equal⟩ := Option.map_eq_some_iff.1 linked
    have same : node.id = before.id := by
      rw [← equal]
      split <;> rfl
    rw [same]
    rcases List.mem_append.1 mem with old | new
    · exact sound.named other old index listed before beforeFound
    · cases List.mem_singleton.1 new
      obtain ⟨member, memberFound, notEnd⟩ := fits.named index listed
      rw [beforeFound] at memberFound
      cases memberFound
      exact notEnd

end OpenGroup.Fits

/-- Soundness is an invariant. -/
theorem invariant_sound :
    Invariant Net.Sound (fun net group => group.Fits net) (fun _ => True) where
  node sound _ _ read := sound.addNode (of_readHeader_eq_some read).1 rfl
  edge sound _ _ read := by
    obtain ⟨free, _, _, _, _, _, source, target, -⟩ := of_readEdge_eq_some read
    exact sound.addEdge free (Net.lt_of_indexOf? source) (Net.lt_of_indexOf? target)
  opened _ _ _ read :=
    ⟨(of_readHeader_eq_some read).1, List.nodup_nil, fun _ mem => (nomatch mem),
      fun _ mem => (nomatch mem)⟩
  member row sound fits isMember := fits.readMember sound.wellFormed row isMember
  closed sound fits filled := fits.addGroup sound filled

/-- The net that the machine declares is sound. -/
theorem sound_run (mark : String) (rows : List Row) : (run mark rows).net.Sound :=
  invariant_sound.run .empty (fun _ _ => trivial) mark

end LineMachine

end NetDecl
