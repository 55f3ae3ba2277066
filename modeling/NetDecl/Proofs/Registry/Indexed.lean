import NetDecl.Proofs.Net.WellFormed
import NetDecl.Registry

/-!
# The indices of a registry

A registry is indexed if each of its maps finds the names of the net at their positions and no other
names, and its set of connections holds the ends of the edges.  Declaring a part with a free name
keeps a registry indexed, and links between nodes and groups do not bear on the indices.
-/

namespace NetDecl

/-- The map finds each name of the list at its position, and no other name. -/
def Indexes (index : Std.TreeMap String Nat) (ids : List String) : Prop :=
  ∀ (id : String) (position : Nat), index[id]? = some position ↔ ids[position]? = some id

namespace Indexes

variable {index : Std.TreeMap String Nat} {ids : List String}

theorem empty : Indexes ∅ [] := by
  intro id position
  simp

theorem contains_iff (indexes : Indexes index ids) (id : String) :
    index.contains id = true ↔ id ∈ ids := by
  rw [Std.TreeMap.contains_eq_isSome_getElem?, Option.isSome_iff_exists, List.mem_iff_getElem?]
  exact exists_congr (indexes id)

/-- Where a map finds a name, a search from the front does. -/
theorem getElem?_eq (indexes : Indexes index ids) (id : String) :
    index[id]? = ids.findIdx? (· == id) := by
  cases found : ids.findIdx? (· == id) with
  | none =>
    rw [List.findIdx?_eq_none_iff] at found
    rw [Option.eq_none_iff_forall_ne_some]
    intro position equal
    have mem := List.mem_of_getElem? ((indexes id position).1 equal)
    simpa using found id mem
  | some position =>
    obtain ⟨lt, same, -⟩ := List.findIdx?_eq_some_iff_getElem.1 found
    rw [indexes id position, List.getElem?_eq_getElem lt, eq_of_beq same]

theorem insert (indexes : Indexes index ids) {id : String} (fresh : id ∉ ids) :
    Indexes (index.insert id ids.length) (ids ++ [id]) := by
  intro other position
  rw [getElem?_append_singleton_eq_some_iff, ← indexes other position]
  by_cases same : id = other
  · subst same
    have absent : index[id]? ≠ some position := fun found =>
      fresh (List.mem_of_getElem? ((indexes id position).1 found))
    rw [Std.TreeMap.getElem?_insert_self]
    simp [absent, eq_comm]
  · have different : compare id other ≠ .eq := fun equal =>
      same (Std.LawfulEqCmp.eq_of_compare equal)
    rw [Std.TreeMap.getElem?_insert, if_neg different]
    simp [same]

end Indexes

namespace Net

/-- The names of the parts of a kind, in the order of declaration. -/
def ids (net : Net) : Part → List String
  | .node => net.nodes.map Node.id
  | .edge => net.edges.map Edge.id
  | .group => net.groups.map Group.id

@[simp]
theorem ids_link (net : Net) (members : List Nat) (owner : Option Nat) (part : Part) :
    (net.link members owner).ids part = net.ids part := by
  cases part with
  | node => exact net.map_id_nodes_link members owner
  | edge => rfl
  | group => rfl

end Net

namespace Registry

/-- The maps and the set of connections agree with the net. -/
structure Indexed (registry : Registry) : Prop where
  index : ∀ part, Indexes (registry.index part) (registry.net.ids part)
  connections : ∀ source target, registry.connects source target = true ↔
    ∃ edge ∈ registry.net.edges, edge.source = source ∧ edge.target = target

theorem Indexed.has_iff {registry : Registry} (indexed : registry.Indexed) (part : Part)
    (id : String) : registry.has part id = true ↔ id ∈ registry.net.ids part :=
  (indexed.index part).contains_iff id

theorem Indexed.node?_eq_some_iff {registry : Registry} (indexed : registry.Indexed) {id : String}
    {position : Nat} :
    registry.node? id = some position ↔ (registry.net.nodes.map Node.id)[position]? = some id :=
  indexed.index .node id position

theorem Indexed.lt_of_node? {registry : Registry} (indexed : registry.Indexed) {id : String}
    {position : Nat} (found : registry.node? id = some position) :
    position < registry.net.nodes.length := by
  obtain ⟨lt, -⟩ := List.getElem?_eq_some_iff.1 (indexed.node?_eq_some_iff.1 found)
  simpa using lt

theorem Indexed.empty : Registry.empty.Indexed where
  index := fun part => by cases part <;> exact Indexes.empty
  connections := fun source target => by
    simp [connects, Registry.empty, Net.empty, Std.TreeSet.contains_emptyc]

theorem Indexed.addNode {registry : Registry} (indexed : registry.Indexed) {node : Node}
    (fresh : node.id ∉ registry.net.ids .node) : (registry.addNode node).Indexed where
  index := fun part => by
    cases part with
    | node => simpa [Registry.addNode, Registry.index, Net.ids] using
        (indexed.index .node).insert fresh
    | edge => exact indexed.index .edge
    | group => exact indexed.index .group
  connections := indexed.connections

theorem Indexed.addEdge {registry : Registry} (indexed : registry.Indexed) {edge : Edge}
    (fresh : edge.id ∉ registry.net.ids .edge) : (registry.addEdge edge).Indexed where
  index := fun part => by
    cases part with
    | node => exact indexed.index .node
    | edge => simpa [Registry.addEdge, Registry.index, Net.ids] using
        (indexed.index .edge).insert fresh
    | group => exact indexed.index .group
  connections := fun source target => by
    have before := indexed.connections source target
    rw [connects] at before ⊢
    simp only [Registry.addEdge, Std.TreeSet.contains_insert, Bool.or_eq_true, beq_iff_eq,
      Std.LawfulEqCmp.compare_eq_iff_eq, before, List.mem_append, List.mem_singleton]
    constructor
    · rintro (same | ⟨other, mem, ends⟩)
      · cases same
        exact ⟨edge, .inr rfl, rfl, rfl⟩
      · exact ⟨other, .inl mem, ends⟩
    · rintro ⟨other, mem | rfl, rfl, rfl⟩
      · exact .inr ⟨other, mem, rfl, rfl⟩
      · exact .inl rfl

theorem Indexed.addGroup {registry : Registry} (indexed : registry.Indexed) {group : Group}
    (fresh : group.id ∉ registry.net.ids .group) : (registry.addGroup group).Indexed where
  index := fun part => by
    cases part with
    | node => exact indexed.index .node
    | edge => exact indexed.index .edge
    | group => simpa [Registry.addGroup, Registry.index, Net.ids, nextGroup] using
        (indexed.index .group).insert fresh
  connections := indexed.connections

/-! ## Links to the group being read -/

/-- Make nodes point at the group that is declared next. -/
def link (registry : Registry) (members : List Nat) : Registry :=
  { registry with net := registry.net.link members (some registry.nextGroup) }

theorem Indexed.link {registry : Registry} (indexed : registry.Indexed) (members : List Nat) :
    (registry.link members).Indexed where
  index := fun part => by
    have same : (registry.link members).net.ids part = registry.net.ids part :=
      Net.ids_link _ _ _ part
    have index := indexed.index part
    rw [same]
    cases part <;> exact index
  connections := indexed.connections

theorem setOwner_eq (registry : Registry) (node : Nat) (owner : Option Nat) :
    registry.setOwner node owner = { registry with net := registry.net.link [node] owner } := by
  have same : ({ registry.net with
      nodes := registry.net.nodes.modify node fun found => { found with group := owner } } : Net) =
      registry.net.link [node] owner := by
    apply Net.ext_nodeAt?
    · intro index
      rw [Net.nodeAt?_link]
      simp only [Net.nodeAt?, List.getElem?_modify, List.mem_singleton]
      by_cases here : node = index
      · simp [here]
      · simp [here, Ne.symm here]
    · rfl
    · rfl
  unfold setOwner
  rw [← same]

@[simp]
theorem link_nil (registry : Registry) : registry.link [] = registry := by
  simp [link]

/-- Members point at the group being read, and other nodes at the groups that they belong to. -/
theorem owner?_link {registry : Registry} {members : List Nat}
    (inRange : ∀ index ∈ members, index < registry.net.nodes.length) (node : Nat) :
    (registry.link members).owner? node =
      if node ∈ members then some registry.nextGroup else registry.net.ownerAt? node := by
  change (registry.net.link members (some registry.nextGroup)).ownerAt? node = _
  split
  · rename_i listed
    exact Net.ownerAt?_link_of_mem listed (inRange node listed)
  · rename_i notListed
    exact Net.ownerAt?_link_of_not_mem notListed

/-- Linking one more node to the group being read. -/
theorem assign_link (registry : Registry) (members : List Nat) (node : Nat) :
    (registry.link members).assign node registry.nextGroup = registry.link (members ++ [node]) := by
  simp only [assign, setOwner_eq, link, Net.link_link]

theorem foldl_release (registry : Registry) (members : List Nat) :
    members.foldl Registry.release registry =
      { registry with net := registry.net.link members none } := by
  induction members generalizing registry with
  | nil => simp
  | cons node members ih =>
    rw [List.foldl_cons, ih, release, setOwner_eq]
    simp only [Net.link_link, List.singleton_append]

/-- Releasing the nodes that were linked brings back the registry before the links. -/
theorem foldl_release_link {registry : Registry} {members : List Nat}
    (free : ∀ node ∈ members, registry.owner? node = none) :
    members.foldl Registry.release (registry.link members) = registry := by
  rw [foldl_release]
  simp only [link, Net.link_none_link _ free]

end Registry

end NetDecl
