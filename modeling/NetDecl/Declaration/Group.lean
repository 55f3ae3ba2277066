import NetDecl.Declaration.Header
import NetDecl.Declaration.Keyword

/-!
# Group declarations

A group is declared by its header, the names of its members over any number of lines, and the
closing keyword; further words on the closing line are ignored.  A node belongs to one group at
most.  A group without members is ignored, and so is one that the text ends before it is closed:
its members are free again.
-/

namespace NetDecl

namespace Group

/-- The members of a group read so far. -/
structure Draft where
  /-- The parts declared so far; the members point at the group being read. -/
  registry : Registry
  /-- The indices of the members. -/
  members : List Nat
  /-- The diagnostics recorded so far. -/
  diagnostics : List Diagnostic

namespace Draft

/-- Record an issue with a word. -/
def report (draft : Draft) (token : Token) (issue : Issue) : Draft :=
  { draft with diagnostics := draft.diagnostics ++ [issue.atToken token] }

/-- Take in a word as the name of a member of the group with the name `id` and the index `group`. -/
def place (id : String) (group : Nat) (draft : Draft) (token : Token) : Draft :=
  match draft.registry.node? token.text with
  | none => draft.report token (.notFound .member token.text)
  | some node =>
      match draft.registry.owner? node with
      | none =>
          { draft with
            registry := draft.registry.assign node group
            members := draft.members ++ [node] }
      | some owner =>
          if owner = group then draft.report token (.listedAgain token.text id)
          else draft.report token (.foreign token.text (draft.registry.groupName owner id))

/-- Take in the next token; the ends of lines mean nothing. -/
def step (id : String) (group : Nat) (draft : Draft) (token : Token) : Draft :=
  if token.isWord then draft.place id group token else draft

end Draft

end Group

/-- Whether the token ends the list of members of a group. -/
def Token.endsGroup (token : Token) : Bool :=
  token.isTextEnd || token.isKeyword groupEnd

/-- Whether the token pulled last is the keyword that ends the list of members of a group. -/
def Cursor.atGroupEnd (cursor : Cursor) : Bool :=
  cursor.current.any fun token => token.isKeyword groupEnd

namespace Session

/-- Read the rest of a line, all of which is ignored. -/
def discardLine (session : Session) : Session :=
  let (cursor, diagnostics) := session.cursor.foldUntil Token.isBoundary
    (fun diagnostics token => diagnostics ++ [(Issue.discarded token.text).atToken token])
    session.diagnostics
  { session with cursor, diagnostics }

/-- Read the members of the group with the name `id`, and the keyword after them.  The answer gives
the members and says whether the keyword was there. -/
def readMembers (session : Session) (id : String) : List Nat × Bool × Session :=
  let (cursor, draft) := session.cursor.foldUntil Token.endsGroup
    (Group.Draft.step id session.registry.nextGroup) ⟨session.registry, [], session.diagnostics⟩
  let session : Session := ⟨cursor, draft.registry, draft.diagnostics⟩
  if cursor.atGroupEnd then (draft.members, true, session.discardLine)
  else (draft.members, false, session)

/-- Free the given nodes. -/
def releaseAll (session : Session) (members : List Nat) : Session :=
  { session with registry := members.foldl Registry.release session.registry }

/-- Read the declaration of a group, after its keyword. -/
def readGroup (session : Session) (keyword : Token) : Option Group × Session :=
  match session.readHeader .group keyword with
  | (none, session) => (none, session)
  | (some header, session) =>
      let (members, closed, session) := session.readMembers header.id
      let session :=
        if members.isEmpty then session.reportLine keyword (.memberless header.id) else session
      if !closed then (none, session.releaseAll members)
      else if members.isEmpty then (none, session)
      else (some ⟨header.id, header.label, members⟩, session)

theorem pending_discardLine_le (session : Session) :
    session.discardLine.pending ≤ session.pending :=
  Cursor.pending_foldUntil_le _ _ _ _

theorem pending_readMembers_le (session : Session) (id : String) :
    (session.readMembers id).2.2.pending ≤ session.pending := by
  unfold readMembers
  dsimp only
  split
  · exact Nat.le_trans (pending_discardLine_le _) (Cursor.pending_foldUntil_le _ _ _ _)
  · exact Cursor.pending_foldUntil_le _ _ _ _

theorem pending_readGroup_le (session : Session) (keyword : Token) :
    (session.readGroup keyword).2.pending ≤ session.pending := by
  have header := session.pending_readHeader_le .group keyword
  unfold readGroup
  split
  · rename_i next equal
    rwa [equal] at header
  · rename_i found next equal
    rw [equal] at header
    have members := pending_readMembers_le next found.id
    split
    rename_i listed closed last equal
    rw [equal] at members
    have reported :
        (if listed.isEmpty then last.reportLine keyword (.memberless found.id) else last).pending
          = last.pending := by
      split <;> rfl
    refine Nat.le_trans ?_ (Nat.le_trans members header)
    rw [← reported]
    dsimp only
    split
    · exact Nat.le_refl _
    · split <;> exact Nat.le_refl _

end Session

end NetDecl
