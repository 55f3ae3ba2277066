/-!
# Diagrams

A diagram is what a drawing library shows: a record for each node and each group, and a link for
each edge.  Records are told apart by their keys, and links and nodes refer to records by key.
-/

namespace NetDecl

/-- The record of a node. -/
structure Diagram.NodeRecord where
  /-- What the record is referred to by. -/
  key : String
  /-- The key of the group that the node stands in. -/
  group : Option String
  /-- The text to show. -/
  text : Option String
deriving DecidableEq, Repr

/-- The record of a group. -/
structure Diagram.GroupRecord where
  /-- What the record is referred to by. -/
  key : String
  /-- The text to show. -/
  text : Option String
  /-- The mark that tells a group from a node. -/
  isGroup : Bool
deriving DecidableEq, Repr

/-- A record. -/
inductive Diagram.Record where
  /-- The record of a node. -/
  | node (record : Diagram.NodeRecord)
  /-- The record of a group. -/
  | group (record : Diagram.GroupRecord)
deriving DecidableEq, Repr

/-- A link between two records. -/
structure Diagram.Link where
  /-- The key of the record that the link leaves. -/
  source : String
  /-- The key of the record that the link enters. -/
  target : String
deriving DecidableEq, Repr

/-- Records and links. -/
structure Diagram where
  /-- The records. -/
  records : List Diagram.Record
  /-- The links. -/
  links : List Diagram.Link
deriving DecidableEq, Repr

namespace Diagram

/-- The record of a group with its mark set. -/
def GroupRecord.marked (key : String) (text : Option String) : GroupRecord :=
  ⟨key, text, true⟩

namespace Record

/-- What a record is referred to by. -/
def key : Record → String
  | node record => record.key
  | group record => record.key

/-- Whether a record is that of a group. -/
def isGroup : Record → Bool
  | node _ => false
  | group _ => true

/-- The record of a node that a record is. -/
def node? : Record → Option NodeRecord
  | node record => some record
  | group _ => none

/-- The record of a group that a record is. -/
def group? : Record → Option GroupRecord
  | node _ => none
  | group record => some record

end Record

/-- Whether there are no records and links. -/
def isEmpty (diagram : Diagram) : Bool :=
  diagram.records.isEmpty && diagram.links.isEmpty

/-- The records of nodes. -/
def nodes (diagram : Diagram) : List NodeRecord :=
  diagram.records.filterMap Record.node?

/-- The records of groups. -/
def groups (diagram : Diagram) : List GroupRecord :=
  diagram.records.filterMap Record.group?

end Diagram

end NetDecl
