import NetDecl.Compile
import NetDecl.Proofs.Net.WellFormed
import NetDecl.Proofs.Token.Rows

/-!
# The line machine

The line machine reads a text row by row.  Between two rows it is scanning or in a group, and it
knows the net that has been declared, the diagnostics that have been recorded and nothing else:
names are looked up by searching the net from the front, and the members of a group are linked to
it when the group is declared.
-/

namespace NetDecl

namespace Net

/-- The index of the first node with the given name. -/
def indexOf? (net : Net) (id : String) : Option Nat :=
  net.nodes.findIdx? fun node => node.id == id

/-- The issues with a name for a new part.  Parts of one kind have different names, and so have
nodes and groups. -/
def nameIssues (net : Net) (part : Part) (id : String) : List Issue :=
  match part with
  | .node =>
      (if (net.node? id).isSome then [.duplicated .node id] else []) ++
        (if (net.group? id).isSome then [.conflicting id] else [])
  | .edge => if (net.edge? id).isSome then [.duplicated .edge id] else []
  | .group =>
      (if (net.group? id).isSome then [.duplicated .group id] else []) ++
        (if (net.node? id).isSome then [.conflicting id] else [])

/-- The issue with a name that stands for no node. -/
def endIssues (net : Net) (role : Role) (id : String) : List Issue :=
  match net.indexOf? id with
  | some _ => []
  | none => [.notFound role id]

end Net

/-- Whether the word names a member of a group, and is not the keyword that ends the group. -/
def Word.isMember (word : Word) : Bool :=
  !Text.sameWord word.text groupEnd

theorem Word.isMember_iff {word : Word} :
    word.isMember = true ↔ Text.sameWord word.text groupEnd = false := by
  simp [isMember]

namespace Row

/-- The diagnostic of an issue with a word of the row. -/
def flag (row : Row) (word : Word) (issue : Issue) : Diagnostic :=
  .ofCode issue.code ⟨row.line.index, word.column⟩ word.text.length issue.message

/-- The diagnostics of words of the row that are one too many. -/
def discards (row : Row) (words : List Word) : List Diagnostic :=
  words.map fun word => row.flag word (.discarded word.text)

end Row

namespace LineMachine

/-- A group whose members are being read. -/
structure OpenGroup where
  /-- The name of the group. -/
  id : String
  /-- The label of the group. -/
  label : String
  /-- The line that opened the group. -/
  header : Line
  /-- The indices of the members read so far. -/
  members : List Nat
deriving DecidableEq, Repr

/-- What the machine does with the next row. -/
inductive Mode where
  /-- Read a declaration. -/
  | scanning
  /-- Read members of a group. -/
  | inGroup (group : OpenGroup)
deriving DecidableEq, Repr

/-- The machine between two rows. -/
structure State where
  /-- The parts declared so far. -/
  net : Net
  /-- The diagnostics recorded so far. -/
  diagnostics : List Diagnostic
  /-- What the machine does with the next row. -/
  mode : Mode
deriving DecidableEq, Repr

/-! ## Single lines -/

/-- The label that is the first of the given words, if there is one. -/
def labelOf : List Word → String
  | [] => ""
  | word :: _ => word.text

/-- Read the words of a header. -/
def readHeader (net : Net) (part : Part) (row : Row) :
    List Word → Option Header × List Diagnostic
  | [] => (none, [(Issue.insufficient part).atLine row.line])
  | id :: rest =>
      let issues := net.nameIssues part id.text
      (if issues.isEmpty then some ⟨id.text, labelOf rest⟩ else none,
        issues.map (row.flag id) ++ row.discards (rest.drop 1))

/-- Read the words of an edge declaration. -/
def readEdge (net : Net) (row : Row) : List Word → Option Edge × List Diagnostic
  | [] => (none, [(Issue.insufficient .edge).atLine row.line])
  | [id] =>
      (none, (net.nameIssues .edge id.text).map (row.flag id) ++
        [(Issue.insufficient .edge).atLine row.line])
  | [id, source] =>
      (none, (net.nameIssues .edge id.text).map (row.flag id) ++
        (net.endIssues .source source.text).map (row.flag source) ++
        [(Issue.insufficient .edge).atLine row.line])
  | id :: source :: target :: rest =>
      (match net.nameIssues .edge id.text, net.indexOf? source.text, net.indexOf? target.text with
        | [], some source, some target => some ⟨id.text, source, target, labelOf rest⟩
        | _, _, _ => none,
        (net.nameIssues .edge id.text).map (row.flag id) ++
          (net.endIssues .source source.text).map (row.flag source) ++
          (net.endIssues .target target.text).map (row.flag target) ++
          row.discards (rest.drop 1))

/-- Read a word as the name of a member of a group. -/
def readMember (net : Net) (row : Row) (group : OpenGroup) (word : Word) :
    OpenGroup × List Diagnostic :=
  match net.indexOf? word.text with
  | none => (group, [row.flag word (.notFound .member word.text)])
  | some node =>
      if node ∈ group.members then (group, [row.flag word (.listedAgain word.text group.id)])
      else
        match (net.nodeAt? node).bind net.groupOf? with
        | some owner => (group, [row.flag word (.foreign word.text owner.id)])
        | none => ({ group with members := group.members ++ [node] }, [])

/-- Read words as the names of members of a group. -/
def readMembers (net : Net) (row : Row) (group : OpenGroup) :
    List Word → OpenGroup × List Diagnostic
  | [] => (group, [])
  | word :: words =>
      let (group, front) := readMember net row group word
      let (group, back) := readMembers net row group words
      (group, front ++ back)

/-! ## Steps -/

namespace State

/-- The machine before the first row. -/
def start : State where
  net := Net.empty
  diagnostics := []
  mode := .scanning

/-- Record diagnostics. -/
def report (state : State) (diagnostics : List Diagnostic) : State :=
  { state with diagnostics := state.diagnostics ++ diagnostics }

/-- Declare a node. -/
def declareNode (state : State) (row : Row) (words : List Word) : State :=
  match readHeader state.net .node row words with
  | (some header, diagnostics) =>
      { state.report diagnostics with net := state.net.addNode ⟨header.id, header.label, none⟩ }
  | (none, diagnostics) => state.report diagnostics

/-- The diagnostics of an edge that runs beside another. -/
def parallels (state : State) (row : Row) (edge : Edge) : List Diagnostic :=
  if state.net.edges.any fun other =>
      other.source == edge.source && other.target == edge.target then
    [(Issue.parallel edge.id).atLine row.line]
  else []

/-- Declare an edge. -/
def declareEdge (state : State) (row : Row) (words : List Word) : State :=
  match readEdge state.net row words with
  | (some edge, diagnostics) =>
      { state.report (diagnostics ++ state.parallels row edge) with net := state.net.addEdge edge }
  | (none, diagnostics) => state.report diagnostics

/-- Begin to read a group. -/
def openGroup (state : State) (row : Row) (words : List Word) : State :=
  match readHeader state.net .group row words with
  | (some header, diagnostics) =>
      { state.report diagnostics with mode := .inGroup ⟨header.id, header.label, row.line, []⟩ }
  | (none, diagnostics) => state.report diagnostics

/-- Read a row as a declaration. -/
def scan (mark : String) (state : State) (row : Row) : State :=
  match row.words with
  | [] => state
  | first :: words =>
      match Part.ofKeyword? first.text with
      | some .node => state.declareNode row words
      | some .edge => state.declareEdge row words
      | some .group => state.openGroup row words
      | none =>
          if Text.sameLetters (first.text.toList.take mark.toList.length) mark.toList then state
          else state.report [(Issue.unexpected first.text).atLine row.line]

/-- Declare the group that has been read, unless it has no members. -/
def closeGroup (state : State) (group : OpenGroup) : State :=
  if group.members.isEmpty then
    { state.report [(Issue.memberless group.id).atLine group.header] with mode := .scanning }
  else
    { state with
      net := state.net.addGroup ⟨group.id, group.label, group.members⟩
      mode := .scanning }

/-- Read a row as members of a group, up to the keyword that ends the group. -/
def readBody (state : State) (group : OpenGroup) (row : Row) : State :=
  let (group, diagnostics) := readMembers state.net row group (row.words.takeWhile Word.isMember)
  let state := state.report diagnostics
  match row.words.dropWhile Word.isMember with
  | [] => { state with mode := .inGroup group }
  | _ :: rest => (state.report (row.discards rest)).closeGroup group

/-- Read a row. -/
def step (mark : String) (state : State) (row : Row) : State :=
  match state.mode with
  | .scanning => state.scan mark row
  | .inGroup group => state.readBody group row

/-- Stop after the last row.  A group that has not been closed is forgotten. -/
def finish (state : State) : State :=
  match state.mode with
  | .scanning => state
  | .inGroup group =>
      if group.members.isEmpty then
        { state.report [(Issue.memberless group.id).atLine group.header] with mode := .scanning }
      else { state with mode := .scanning }

end State

/-! ## Whole texts -/

/-- The machine after the given rows. -/
def run (mark : String) (rows : List Row) : State :=
  (rows.foldl (State.step mark) State.start).finish

/-- What the machine makes of a text.  A text without problems is reported as such at its end. -/
def compile (options : Options) (text : String) : Outcome :=
  let rows := Row.ofText text
  let state := run options.effectiveMark rows
  { net := state.net
    diagnostics :=
      if state.diagnostics.isEmpty then
        (rows.getLast?.map fun row => Diagnostic.success row.stop).toList
      else state.diagnostics }

end LineMachine

end NetDecl
