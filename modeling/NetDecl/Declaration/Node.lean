import NetDecl.Declaration.Header

/-!
# Node declarations

A node is declared by its header alone.
-/

namespace NetDecl

/-- Read the declaration of a node, after its keyword. -/
def Session.readNode (session : Session) (keyword : Token) : Option Node × Session :=
  let (header, session) := session.readHeader .node keyword
  (header.map fun header => ⟨header.id, header.label, none⟩, session)

theorem Session.pending_readNode_le (session : Session) (keyword : Token) :
    (session.readNode keyword).2.pending ≤ session.pending :=
  session.pending_readHeader_le .node keyword

end NetDecl
