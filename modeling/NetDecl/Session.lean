import NetDecl.Diagnostic.Issue
import NetDecl.Registry
import NetDecl.Token.Cursor

/-!
# Reading declarations

A session is what reading a text has come to: the place among its tokens, the parts declared, and
the diagnostics recorded, in order.
-/

namespace NetDecl

/-- A text being read. -/
structure Session where
  /-- The place in the text. -/
  cursor : Cursor
  /-- The parts declared so far. -/
  registry : Registry
  /-- The diagnostics recorded so far. -/
  diagnostics : List Diagnostic

namespace Session

/-- A session at the start of a text. -/
def start (text : String) : Session where
  cursor := Cursor.start text
  registry := Registry.empty
  diagnostics := []

/-- Pull the next token. -/
def advance (session : Session) : Session :=
  { session with cursor := session.cursor.advance }

/-- Pull the tokens of the line, up to its end. -/
def skipLine (session : Session) : Session :=
  { session with cursor := session.cursor.skipLine }

/-- Record an issue with the line that a token stands on. -/
def reportLine (session : Session) (token : Token) (issue : Issue) : Session :=
  { session with
    diagnostics := session.diagnostics ++ [issue.atLine (session.cursor.lineAt token.line)] }

/-- A bound on the number of tokens still to come. -/
def pending (session : Session) : Nat :=
  session.cursor.pending

@[simp]
theorem pending_reportLine (session : Session) (token : Token) (issue : Issue) :
    (session.reportLine token issue).pending = session.pending :=
  rfl

theorem pending_skipLine_le (session : Session) : session.skipLine.pending ≤ session.pending :=
  Cursor.pending_skipLine_le session.cursor

end Session

end NetDecl
