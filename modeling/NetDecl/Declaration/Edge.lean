import NetDecl.Declaration.Header

/-!
# Edge declarations

An edge is declared by a line with its name, the names of the nodes it leaves and enters, and
perhaps a label; further words are ignored.
-/

namespace NetDecl

namespace Edge

/-- The words of an edge declaration read so far. -/
structure Draft where
  /-- How many words have been read. -/
  count : Nat
  /-- The name. -/
  id : String
  /-- The index of the node that the edge leaves. -/
  source : Option Nat
  /-- The index of the node that the edge enters. -/
  target : Option Nat
  /-- The label; empty where none is given. -/
  label : String
  /-- Whether the name can be used. -/
  valid : Bool
  /-- The diagnostics recorded so far. -/
  diagnostics : List Diagnostic
deriving DecidableEq, Repr

namespace Draft

/-- A declaration of which nothing has been read. -/
def start (diagnostics : List Diagnostic) : Draft where
  count := 0
  id := ""
  source := none
  target := none
  label := ""
  valid := true
  diagnostics

/-- Record an issue with a word. -/
def report (draft : Draft) (token : Token) (issue : Issue) : Draft :=
  { draft with diagnostics := draft.diagnostics ++ [issue.atToken token] }

/-- Record that no node has the name of an end of the edge. -/
def reportMissing (draft : Draft) (token : Token) (role : Role) (found : Option Nat) : Draft :=
  if found.isSome then draft else draft.report token (.notFound role token.text)

/-- Take in the word that follows `draft.count` others. -/
def place (registry : Registry) (draft : Draft) (token : Token) : Draft :=
  match draft.count with
  | 0 =>
      let issues := registry.nameIssues .edge token.text
      { draft with
        id := token.text
        valid := issues.isEmpty
        diagnostics := draft.diagnostics ++ issues.map fun issue => issue.atToken token }
  | 1 =>
      let found := registry.node? token.text
      { draft.reportMissing token .source found with source := found }
  | 2 =>
      let found := registry.node? token.text
      { draft.reportMissing token .target found with target := found }
  | 3 => { draft with label := token.text }
  | _ => draft.report token (.discarded token.text)

/-- Take in the next word. -/
def step (registry : Registry) (draft : Draft) (token : Token) : Draft :=
  { draft.place registry token with count := draft.count + 1 }

/-- The edge that the words make up, if its name can be used and both its ends are nodes. -/
def edge? (draft : Draft) : Option Edge :=
  match draft.valid, draft.source, draft.target with
  | true, some source, some target => some ⟨draft.id, source, target, draft.label⟩
  | _, _, _ => none

end Draft

end Edge

/-- Read the declaration of an edge, after its keyword. -/
def Session.readEdge (session : Session) (keyword : Token) : Option Edge × Session :=
  let (cursor, draft) := session.cursor.foldUntil Token.isBoundary
    (Edge.Draft.step session.registry) (Edge.Draft.start session.diagnostics)
  let session := { session with cursor, diagnostics := draft.diagnostics }
  if draft.count < 3 then (none, session.reportLine keyword (.insufficient .edge))
  else (draft.edge?, session)

theorem Session.pending_readEdge_le (session : Session) (keyword : Token) :
    (session.readEdge keyword).2.pending ≤ session.pending := by
  unfold readEdge
  dsimp only
  split <;> exact Cursor.pending_foldUntil_le _ _ _ _

end NetDecl
