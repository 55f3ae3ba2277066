import NetDecl.Declaration.Edge
import NetDecl.Declaration.Group
import NetDecl.Declaration.Keyword
import NetDecl.Declaration.Node
import NetDecl.Options
import NetDecl.Outcome

/-!
# Compiling a text

The first word of a line tells what the line declares, or that it is a comment; a line that starts
with any other word is reported and ignored.  A declaration reads the tokens that belong to it,
which for a group are several lines.  Every text can be compiled: what cannot be used is reported.
-/

namespace NetDecl

namespace Session

/-- Declare a node, after its keyword. -/
def declareNode (session : Session) (keyword : Token) : Session :=
  match session.readNode keyword with
  | (some node, session) => { session with registry := session.registry.addNode node }
  | (none, session) => session

/-- Declare an edge, after its keyword.  An edge beside another is reported but declared. -/
def declareEdge (session : Session) (keyword : Token) : Session :=
  match session.readEdge keyword with
  | (some edge, session) =>
      let session :=
        if session.registry.connects edge.source edge.target then
          session.reportLine keyword (.parallel edge.id)
        else session
      { session with registry := session.registry.addEdge edge }
  | (none, session) => session

/-- Declare a group, after its keyword. -/
def declareGroup (session : Session) (keyword : Token) : Session :=
  match session.readGroup keyword with
  | (some group, session) => { session with registry := session.registry.addGroup group }
  | (none, session) => session

/-- Declare a part of the given kind, after its keyword. -/
def declare (session : Session) (part : Part) (keyword : Token) : Session :=
  match part with
  | .node => session.declareNode keyword
  | .edge => session.declareEdge keyword
  | .group => session.declareGroup keyword

/-- Deal with the token pulled last, and with the tokens that belong to it. -/
def handle (commentMark : String) (session : Session) (token : Token) : Session :=
  if token.isBoundary then session
  else
    match Part.ofKeyword? token.text with
    | some part => session.declare part token
    | none =>
        if token.beginsWith commentMark then session.skipLine
        else session.skipLine.reportLine token (.unexpected token.text)

theorem pending_declare_le (session : Session) (part : Part) (keyword : Token) :
    (session.declare part keyword).pending ≤ session.pending := by
  cases part with
  | node =>
    have read := session.pending_readNode_le keyword
    unfold declare declareNode
    dsimp only
    split <;> simp_all [pending]
  | edge =>
    have read := session.pending_readEdge_le keyword
    unfold declare declareEdge
    dsimp only
    split
    · rename_i equal
      rw [equal] at read
      split <;> exact read
    · simp_all
  | group =>
    have read := session.pending_readGroup_le keyword
    unfold declare declareGroup
    dsimp only
    split <;> simp_all [pending]

theorem pending_handle_le (commentMark : String) (session : Session) (token : Token) :
    (session.handle commentMark token).pending ≤ session.pending := by
  unfold handle
  split
  · exact Nat.le_refl _
  · split
    · exact session.pending_declare_le _ token
    · split
      · exact session.pending_skipLine_le
      · exact session.pending_skipLine_le

/-- Deal with all tokens still to come. -/
def run (commentMark : String) (session : Session) : Session :=
  match _pulled : session.advance.cursor.current with
  | some token => run commentMark (session.advance.handle commentMark token)
  | none => session.advance
termination_by session.pending
decreasing_by
  exact Nat.lt_of_le_of_lt (pending_handle_le commentMark session.advance token)
    (Cursor.pending_advance_lt _pulled)

/-- What the session has come to.  A text without problems is reported as such at its end. -/
def outcome (session : Session) : Outcome where
  net := session.registry.net
  diagnostics :=
    if session.diagnostics.isEmpty then [Diagnostic.success session.cursor.textEnd]
    else session.diagnostics

end Session

/-- Compile a text. -/
def compile (options : Options) (text : String) : Outcome :=
  ((Session.start text).run options.effectiveMark).outcome

end NetDecl
