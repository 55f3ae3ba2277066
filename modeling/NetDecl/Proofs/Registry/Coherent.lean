import NetDecl.Proofs.Registry.Indexed

/-!
# What holds of a registry at all times

A registry is coherent if its maps and its set of connections agree with the net, so that they
answer as a search of the net does, if no node has the name of a group, and if each node that points
at a group points at one that has been declared or is a member of the group being read, which is
going to have the next index.

Linking nodes that belong to no group to the group being read keeps a registry coherent, where these
nodes are the members read so far.
-/

namespace NetDecl

/-- Whether a search of the net finds a part of the given kind with the given name. -/
def Net.has (net : Net) (part : Part) (id : String) : Bool :=
  match part with
  | .node => (net.node? id).isSome
  | .edge => (net.edge? id).isSome
  | .group => (net.group? id).isSome

theorem Net.has_iff {net : Net} {part : Part} {id : String} :
    net.has part id = true ↔ id ∈ net.ids part := by
  cases part with
  | node => exact isSome_node?_iff
  | edge => exact isSome_edge?_iff
  | group => exact isSome_group?_iff

namespace Registry

/-- The registry agrees with itself while `members` are the nodes that have been listed in the group
being read; there are none outside of a group. -/
structure Coherent (registry : Registry) (members : List Nat) : Prop where
  indexed : registry.Indexed
  has : ∀ part id, registry.has part id = registry.net.has part id
  resolves : ∀ id, (registry.node? id).bind registry.net.nodeAt? = registry.net.node? id
  apart : ∀ id, registry.has .node id = true → registry.has .group id = false
  nodup : members.Nodup
  owners : ∀ node owner, registry.owner? node = some owner →
    owner < registry.net.groups.length ∨ (owner = registry.nextGroup ∧ node ∈ members)
  pending : ∀ node, registry.owner? node = some registry.nextGroup ↔ node ∈ members

section Indices

variable {registry : Registry}

theorem Indexed.has_eq (indexed : registry.Indexed) (part : Part) (id : String) :
    registry.has part id = registry.net.has part id := by
  rw [Bool.eq_iff_iff, indexed.has_iff, Net.has_iff]

/-- Looking up the node with a name is searching for it. -/
theorem Indexed.bind_node?_eq (indexed : registry.Indexed) (id : String) :
    (registry.node? id).bind registry.net.nodeAt? = registry.net.node? id := by
  have position := (indexed.index .node).getElem?_eq id
  change registry.node? id = (registry.net.nodes.map Node.id).findIdx? (· == id) at position
  rw [position, List.findIdx?_map, Net.node?, List.find?_eq_bind_findIdx?_getElem?]
  rfl

/-- In a well-formed net no group has the name of a node. -/
theorem Indexed.has_group_eq_false (indexed : registry.Indexed)
    (wellFormed : registry.net.WellFormed) {id : String} (node : registry.has .node id = true) :
    registry.has .group id = false := by
  rw [Bool.eq_false_iff]
  intro shared
  rw [indexed.has_iff] at node shared
  rcases List.mem_map.1 shared with ⟨group, mem, same⟩
  exact wellFormed.apart group mem (same ▸ node)

end Indices

section Links

variable {base : Registry} {members : List Nat}

/-- Members point at the group being read; a node that is no member points at a declared group. -/
theorem owner?_link_eq_some_iff (wellFormed : base.net.WellFormed)
    (inRange : ∀ index ∈ members, index < base.net.nodes.length) {node owner : Nat} :
    (base.link members).owner? node = some owner ↔
      (owner = base.nextGroup ∧ node ∈ members) ∨
        (owner < base.net.groups.length ∧ node ∉ members ∧ base.net.ownerAt? node = some owner) := by
  rw [owner?_link inRange]
  split
  · rename_i listed
    simp [listed, eq_comm]
  · rename_i notListed
    constructor
    · intro owned
      rcases wellFormed.owners node owner owned with ⟨group, found, -⟩
      exact .inr ⟨(List.getElem?_eq_some_iff.1 found).1, notListed, owned⟩
    · rintro (⟨-, listed⟩ | ⟨-, -, owned⟩)
      · exact absurd listed notListed
      · exact owned

/-- Linking nodes to the group being read keeps a registry coherent. -/
theorem coherent_link (indexed : base.Indexed) (wellFormed : base.net.WellFormed)
    (nodup : members.Nodup) (inRange : ∀ index ∈ members, index < base.net.nodes.length) :
    (base.link members).Coherent members := by
  have linked := indexed.link members
  constructor
  · exact linked
  · exact linked.has_eq
  · exact linked.bind_node?_eq
  · -- The links do not show in the maps.
    intro id node
    exact indexed.has_group_eq_false wellFormed node
  · exact nodup
  · intro node owner owned
    rcases (owner?_link_eq_some_iff wellFormed inRange).1 owned with pending | ⟨declared, -⟩
    · exact .inr pending
    · exact .inl declared
  · intro node
    refine (owner?_link_eq_some_iff wellFormed inRange).trans ?_
    constructor
    · rintro (⟨-, listed⟩ | ⟨declared, -⟩)
      · exact listed
      · exact absurd declared (Nat.lt_irrefl _)
    · intro listed
      exact .inl ⟨rfl, listed⟩

/-- Outside of a group a registry of a well-formed net is coherent. -/
theorem Indexed.coherent (indexed : base.Indexed) (wellFormed : base.net.WellFormed) :
    base.Coherent [] := by
  have linked := coherent_link indexed wellFormed List.nodup_nil fun _ mem => nomatch mem
  rw [link_nil] at linked
  exact linked

end Links

/-- Outside of a group each node that points at a group points at a declared one. -/
theorem Coherent.owner_lt {registry : Registry} (coherent : registry.Coherent []) {node owner : Nat}
    (owned : registry.owner? node = some owner) : owner < registry.net.groups.length := by
  rcases coherent.owners node owner owned with declared | ⟨-, mem⟩
  · exact declared
  · cases mem

end Registry

end NetDecl
