import NetDecl.Diagnostic
import NetDecl.Net
import NetDecl.Token

/-!
# What can be wrong with a declaration

Every problem of a text is one of these issues.  An issue determines the code and the message of its
diagnostic; a word or a line of the text determines the place.
-/

namespace NetDecl

/-- What a word that should name a node is for. -/
inductive Role where
  /-- The node that an edge leaves. -/
  | source
  /-- The node that an edge enters. -/
  | target
  /-- A member of a group. -/
  | member
deriving DecidableEq, Repr

/-- The words for a role. -/
def Role.words : Role → String
  | source => "source"
  | target => "target"
  | member => "group node"

/-- A problem of a text. -/
inductive Issue where
  /-- A line starts with a word that declares nothing. -/
  | unexpected (word : String)
  /-- A name is taken by a part of the same kind. -/
  | duplicated (part : Part) (id : String)
  /-- A name is taken by a node, for a group, or by a group, for a node. -/
  | conflicting (id : String)
  /-- A name stands for no node. -/
  | notFound (role : Role) (id : String)
  /-- A declaration is too short. -/
  | insufficient (part : Part)
  /-- A word is one too many. -/
  | discarded (word : String)
  /-- A group lists a node of another group. -/
  | foreign (node group : String)
  /-- A group lists a node again. -/
  | listedAgain (node group : String)
  /-- A group has no nodes. -/
  | memberless (group : String)
  /-- An edge has both ends in common with another. -/
  | parallel (edge : String)
deriving DecidableEq, Repr

namespace Issue

/-- The code of an issue. -/
def code : Issue → Code
  | unexpected _ => .invalidLineStart
  | duplicated _ _ => .duplicatedId
  | conflicting _ => .idConflict
  | notFound _ _ => .nodeNotFound
  | insufficient _ => .insufficientParameter
  | discarded _ => .tokenDiscarded
  | foreign _ _ => .anotherGroup
  | listedAgain _ _ => .duplicateGroupAssignment
  | memberless _ => .groupDiscarded
  | parallel _ => .duplicateSourceTarget

/-- The message of an issue. -/
def message : Issue → String
  | unexpected word =>
      "unexpected " ++ word ++ ", expect node/edge/group..endgroup, discard whole line"
  | duplicated part id => "duplicated " ++ part.word ++ " " ++ id
  | conflicting id => "group id conflicts with node id: " ++ id
  | notFound role id => role.words ++ " " ++ id ++ " not found"
  | insufficient part => "insufficient " ++ part.word ++ " parameter"
  | discarded word => "discard token " ++ word
  | foreign node group => "node " ++ node ++ " already belongs to another group " ++ group
  | listedAgain node group => "node " ++ node ++ " already assigned to " ++ group
  | memberless group => "group " ++ group ++ " contains no nodes and is discarded"
  | parallel edge => "edge with same source and target already exist " ++ edge

/-- The diagnostic of an issue with a word. -/
def atToken (issue : Issue) (token : Token) : Diagnostic :=
  .ofCode issue.code token.position token.length issue.message

/-- The diagnostic of an issue with a line. -/
def atLine (issue : Issue) (line : Line) : Diagnostic :=
  .ofCode issue.code line.position line.length issue.message

end Issue

end NetDecl
