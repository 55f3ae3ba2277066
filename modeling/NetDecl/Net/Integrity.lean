import NetDecl.Net
import NetDecl.Text.Decimal

/-!
# Faults of a net

A net is sound if names are unique, indices are in range, and nodes and groups agree about who
belongs to whom.  `Net.faults` lists each way in which a net is not sound.
-/

namespace NetDecl

/-- A way in which a net is not sound. -/
inductive Fault where
  /-- A name occurs again among parts of the same kind. -/
  | repeatedName (part : Part) (id : String)
  /-- A group has the name of a node. -/
  | sharedName (group : String)
  /-- An edge leaves no node. -/
  | noSource (edge : String)
  /-- An edge enters no node. -/
  | noTarget (edge : String)
  /-- A node belongs to a group that is not there. -/
  | noGroup (node : String)
  /-- A node is not listed exactly once by its group. -/
  | listed (node : String) (times : Nat) (group : String)
  /-- A group lists a node that does not belong to it. -/
  | foreignMember (group : String)
deriving DecidableEq, Repr

/-- The sentence for a fault. -/
def Fault.message : Fault → String
  | repeatedName part id => "duplicate " ++ part.word ++ " id " ++ id
  | sharedName group => "group " ++ group ++ " shares its id with a node"
  | noSource edge => "edge " ++ edge ++ " has a dangling source"
  | noTarget edge => "edge " ++ edge ++ " has a dangling target"
  | noGroup node => "node " ++ node ++ " points at a missing group"
  | listed node times group =>
      "node " ++ node ++ " is listed " ++ Text.decimal times ++ " times in group " ++ group
  | foreignMember group => "group " ++ group ++ " lists a node it does not own"

/-- The entries of a list that stand in it or in `seen` before. -/
def repeats (seen : List String) : List String → List String
  | [] => []
  | id :: ids => if id ∈ seen then id :: repeats seen ids else repeats (id :: seen) ids

namespace Net

/-- The faults of names that occur again. -/
def nameFaults (part : Part) (ids : List String) : List Fault :=
  (repeats [] ids).map (Fault.repeatedName part)

/-- The fault of a group that has the name of a node. -/
def sharedNameFaults (net : Net) (group : Group) : List Fault :=
  if (net.node? group.id).isSome then [.sharedName group.id] else []

/-- The faults of an edge whose ends are out of range. -/
def endpointFaults (net : Net) (edge : Edge) : List Fault :=
  (if (net.nodeAt? edge.source).isSome then [] else [.noSource edge.id]) ++
    (if (net.nodeAt? edge.target).isSome then [] else [.noTarget edge.id])

/-- The fault of a node that its group does not list exactly once. -/
def ownerFaults (net : Net) (node : Node) (index : Nat) : List Fault :=
  match node.group with
  | none => []
  | some owner =>
      match net.groupAt? owner with
      | none => [.noGroup node.id]
      | some group =>
          let times := group.members.count index
          if times = 1 then [] else [.listed node.id times group.id]

/-- The faults of a group that lists nodes which do not belong to it. -/
def memberFaults (net : Net) (group : Group) (index : Nat) : List Fault :=
  group.members.flatMap fun member =>
    if (net.nodeAt? member).bind Node.group = some index then [] else [.foreignMember group.id]

/-- Every way in which a net is not sound: first the names, then the edges, the nodes and the
groups. -/
def faults (net : Net) : List Fault :=
  nameFaults .node (net.nodes.map Node.id) ++
    nameFaults .edge (net.edges.map Edge.id) ++
    nameFaults .group (net.groups.map Group.id) ++
    net.groups.flatMap net.sharedNameFaults ++
    net.edges.flatMap net.endpointFaults ++
    (net.nodes.zipIdx.flatMap fun (node, index) => net.ownerFaults node index) ++
    (net.groups.zipIdx.flatMap fun (group, index) => net.memberFaults group index)

end Net

end NetDecl
