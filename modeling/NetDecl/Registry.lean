import NetDecl.Net
import Std.Data.TreeMap
import Std.Data.TreeSet

/-!
# The parts declared so far

A registry holds the net that has been declared up to some place of the text, and finds its parts
by name and its edges by their ends.  While a group is being read, the nodes listed so far already
point at the index that the group is going to have.
-/

namespace NetDecl

/-- The order of index pairs: by the first, then by the second. -/
def comparePairs (left right : Nat × Nat) : Ordering :=
  compareLex (compareOn Prod.fst) (compareOn Prod.snd) left right

instance : Std.TransCmp comparePairs :=
  inferInstanceAs (Std.TransCmp (compareLex (compareOn Prod.fst) (compareOn Prod.snd)))

instance : Std.LawfulEqCmp comparePairs where
  compare_self := Std.ReflCmp.compare_self
  eq_of_compare := by
    intro left right equal
    simp only [comparePairs, compareLex, compareOn, Ordering.then_eq_eq,
      Std.LawfulEqCmp.compare_eq_iff_eq] at equal
    exact Prod.ext equal.1 equal.2

/-- The parts declared so far. -/
structure Registry where
  /-- The net that they make up. -/
  net : Net
  /-- The index of each node by its name. -/
  nodeIndex : Std.TreeMap String Nat
  /-- The index of each edge by its name. -/
  edgeIndex : Std.TreeMap String Nat
  /-- The index of each group by its name. -/
  groupIndex : Std.TreeMap String Nat
  /-- The ends of all edges. -/
  connections : Std.TreeSet (Nat × Nat) comparePairs

namespace Registry

/-- The registry before the first declaration. -/
def empty : Registry where
  net := Net.empty
  nodeIndex := ∅
  edgeIndex := ∅
  groupIndex := ∅
  connections := ∅

/-- The index by name of the parts of a kind. -/
def index (registry : Registry) : Part → Std.TreeMap String Nat
  | .node => registry.nodeIndex
  | .edge => registry.edgeIndex
  | .group => registry.groupIndex

/-- Whether a part of the given kind has the given name. -/
def has (registry : Registry) (part : Part) (id : String) : Bool :=
  (registry.index part).contains id

/-- The index of the node with the given name. -/
def node? (registry : Registry) (id : String) : Option Nat :=
  registry.nodeIndex[id]?

/-- The index of the group that the node with the given index points at. -/
def owner? (registry : Registry) (node : Nat) : Option Nat :=
  (registry.net.nodeAt? node).bind Node.group

/-- The name of the group with the given index, or `pending` for the group being read. -/
def groupName (registry : Registry) (group : Nat) (pending : String) : String :=
  match registry.net.groupAt? group with
  | some found => found.id
  | none => pending

/-- The index that the next group is going to have. -/
def nextGroup (registry : Registry) : Nat :=
  registry.net.groups.length

/-- Whether an edge runs between the nodes with the given indices. -/
def connects (registry : Registry) (source target : Nat) : Bool :=
  registry.connections.contains (source, target)

/-- Make a node point at a group, or at none. -/
def setOwner (registry : Registry) (node : Nat) (owner : Option Nat) : Registry :=
  { registry with
    net.nodes := registry.net.nodes.modify node fun found => { found with group := owner } }

/-- Make a node point at a group. -/
def assign (registry : Registry) (node group : Nat) : Registry :=
  registry.setOwner node (some group)

/-- Make a node point at no group. -/
def release (registry : Registry) (node : Nat) : Registry :=
  registry.setOwner node none

/-- Declare a node. -/
def addNode (registry : Registry) (node : Node) : Registry :=
  { registry with
    net.nodes := registry.net.nodes ++ [node]
    nodeIndex := registry.nodeIndex.insert node.id registry.net.nodes.length }

/-- Declare an edge. -/
def addEdge (registry : Registry) (edge : Edge) : Registry :=
  { registry with
    net.edges := registry.net.edges ++ [edge]
    edgeIndex := registry.edgeIndex.insert edge.id registry.net.edges.length
    connections := registry.connections.insert (edge.source, edge.target) }

/-- Declare a group. -/
def addGroup (registry : Registry) (group : Group) : Registry :=
  { registry with
    net.groups := registry.net.groups ++ [group]
    groupIndex := registry.groupIndex.insert group.id registry.nextGroup }

end Registry

end NetDecl
