import NetDecl.Proofs.LineMachine.Sound

/-!
# Nets that extend others

A net extends another if it has the parts of the other, in the same places, and perhaps more.  Nodes
may have joined groups, but none has left the group that it was in.  Whatever rows the line machine
reads, the net that it declares extends the net that it has declared before.
-/

namespace NetDecl

theorem getElem?_eq_some_of_prefix {α : Type} {front whole : List α} (grown : front <+: whole)
    {position : Nat} {part : α} (found : front[position]? = some part) :
    whole[position]? = some part := by
  rcases grown with ⟨back, rfl⟩
  rw [List.getElem?_append_left (List.getElem?_eq_some_iff.1 found).1, found]

namespace Net

/-- The net `later` has the parts of the net in the same places, and perhaps more.  A node that
belongs to a group still belongs to it. -/
structure Extends (net later : Net) : Prop where
  nodes : net.nodes.map (fun node => (node.id, node.label)) <+:
    later.nodes.map fun node => (node.id, node.label)
  owners : ∀ index owner, net.ownerAt? index = some owner → later.ownerAt? index = some owner
  edges : net.edges <+: later.edges
  groups : net.groups <+: later.groups

namespace Extends

variable {net later : Net}

theorem refl (net : Net) : net.Extends net :=
  ⟨List.prefix_rfl, fun _ _ owned => owned, List.prefix_rfl, List.prefix_rfl⟩

/-- A group stays where it is. -/
theorem groupAt?_eq_some (grown : net.Extends later) {owner : Nat} {group : Group}
    (found : net.groupAt? owner = some group) : later.groupAt? owner = some group :=
  getElem?_eq_some_of_prefix grown.groups found

/-- The name of a node stays where it is. -/
theorem getElem?_ids_eq_some (grown : net.Extends later) {index : Nat} {id : String}
    (named : (net.nodes.map Node.id)[index]? = some id) :
    (later.nodes.map Node.id)[index]? = some id := by
  have ids := grown.nodes.map Prod.fst
  rw [List.map_map, List.map_map] at ids
  exact getElem?_eq_some_of_prefix ids named

theorem addNode (grown : net.Extends later) (node : Node) : net.Extends (later.addNode node) := by
  refine ⟨?_, ?_, grown.edges, grown.groups⟩
  · rw [Net.addNode, List.map_append]
    exact grown.nodes.trans (List.prefix_append _ _)
  · intro index owner owned
    rcases Option.bind_eq_some_iff.1 (grown.owners index owner owned) with ⟨found, there, points⟩
    apply Option.bind_eq_some_iff.2
    exact ⟨found, getElem?_append_singleton_eq_some_iff.2 (.inl there), points⟩

theorem addEdge (grown : net.Extends later) (edge : Edge) : net.Extends (later.addEdge edge) :=
  ⟨grown.nodes, grown.owners, grown.edges.trans (List.prefix_append _ _), grown.groups⟩

/-- A group takes no node away from another. -/
theorem addGroup (grown : net.Extends later) {group : Group}
    (free : ∀ index ∈ group.members, later.ownerAt? index = none) :
    net.Extends (later.addGroup group) := by
  refine ⟨?_, ?_, grown.edges, grown.groups.trans (List.prefix_append _ _)⟩
  · have kept := map_nodes_link (fun node => (node.id, node.label)) (fun _ _ => rfl) later
      group.members (some later.groups.length)
    rw [Net.addGroup, kept]
    exact grown.nodes
  · intro index owner owned
    have before := grown.owners index owner owned
    have apart : index ∉ group.members := by
      intro listed
      rw [free index listed] at before
      cases before
    exact (ownerAt?_link_of_not_mem apart).trans before

end Extends

end Net

namespace LineMachine

/-- Declarations extend a net. -/
theorem invariant_extends (net : Net) :
    Invariant (fun later => later.Sound ∧ net.Extends later) (fun later group => group.Fits later)
      (fun _ => True) where
  node holds clean subset read :=
    ⟨invariant_sound.node holds.1 clean subset read, holds.2.addNode _⟩
  edge holds clean subset read :=
    ⟨invariant_sound.edge holds.1 clean subset read, holds.2.addEdge _⟩
  opened holds clean subset read := invariant_sound.opened holds.1 clean subset read
  member row holds fits isMember := invariant_sound.member row holds.1 fits isMember
  closed holds fits filled :=
    ⟨invariant_sound.closed holds.1 fits filled, holds.2.addGroup fits.unowned⟩

/-- Whatever rows it reads, the machine extends the net that it has declared. -/
theorem extends_foldl {state : State} (sound : state.Holds Net.Sound fun net group => group.Fits net)
    (mark : String) (rows : List Row) :
    state.net.Extends (rows.foldl (State.step mark) state).net := by
  have start : state.Holds (fun later => later.Sound ∧ state.net.Extends later)
      fun later group => group.Fits later :=
    ⟨⟨sound.net, .refl state.net⟩, sound.mode⟩
  exact ((invariant_extends state.net).foldl start (fun _ _ => trivial) mark).net.2

end LineMachine

end NetDecl
