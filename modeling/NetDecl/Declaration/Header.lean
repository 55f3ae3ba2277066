import NetDecl.Session

/-!
# Headers

Nodes and groups are declared by a line with a name and perhaps a label; further words are ignored.
The name must not be that of another node or group.
-/

namespace NetDecl

/-- A name with a label. -/
structure Header where
  /-- The name. -/
  id : String
  /-- The label; empty where none is given. -/
  label : String
deriving DecidableEq, Repr

/-- The kind of part whose names are kept apart from those of the given kind. -/
def Part.rival? : Part → Option Part
  | .node => some .group
  | .group => some .node
  | .edge => none

/-- The issues with a name for a new part. -/
def Registry.nameIssues (registry : Registry) (part : Part) (id : String) : List Issue :=
  (if registry.has part id then [.duplicated part id] else []) ++
    (if part.rival?.any fun rival => registry.has rival id then [.conflicting id] else [])

namespace Header

/-- The words of a header read so far. -/
structure Draft where
  /-- The first word. -/
  id : Option String
  /-- The second word. -/
  label : Option String
  /-- Whether the name can be used. -/
  valid : Bool
  /-- The diagnostics recorded so far. -/
  diagnostics : List Diagnostic
deriving DecidableEq, Repr

namespace Draft

/-- A header of which nothing has been read. -/
def start (diagnostics : List Diagnostic) : Draft where
  id := none
  label := none
  valid := true
  diagnostics

/-- Take in the next word. -/
def step (registry : Registry) (part : Part) (draft : Draft) (token : Token) : Draft :=
  match draft.id, draft.label with
  | none, _ =>
      let issues := registry.nameIssues part token.text
      { draft with
        id := some token.text
        valid := issues.isEmpty
        diagnostics := draft.diagnostics ++ issues.map fun issue => issue.atToken token }
  | some _, none => { draft with label := some token.text }
  | some _, some _ =>
      { draft with
        diagnostics := draft.diagnostics ++ [(Issue.discarded token.text).atToken token] }

/-- The header that the words make up, if its name can be used. -/
def header? (draft : Draft) : Option Header :=
  match draft.id with
  | some id => if draft.valid then some ⟨id, draft.label.getD ""⟩ else none
  | none => none

end Draft

end Header

/-- Read a header up to the end of its line. -/
def Session.readHeader (session : Session) (part : Part) (keyword : Token) :
    Option Header × Session :=
  let (cursor, draft) := session.cursor.foldUntil Token.isBoundary
    (Header.Draft.step session.registry part) (Header.Draft.start session.diagnostics)
  let session := { session with cursor, diagnostics := draft.diagnostics }
  match draft.id with
  | some _ => (draft.header?, session)
  | none => (none, session.reportLine keyword (.insufficient part))

theorem Session.pending_readHeader_le (session : Session) (part : Part) (keyword : Token) :
    (session.readHeader part keyword).2.pending ≤ session.pending := by
  unfold readHeader
  dsimp only
  split <;> exact Cursor.pending_foldUntil_le _ _ _ _

end NetDecl
