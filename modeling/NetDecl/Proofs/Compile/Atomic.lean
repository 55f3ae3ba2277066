import NetDecl.Proofs.Compile.Turns
import NetDecl.Proofs.Declaration.Atomic

/-!
# Declarations while a text is read

Between any two turns of a session, and whatever tokens follow, a declaration either leaves all
parts as they were or is accepted as a whole.
-/

namespace NetDecl

/-- Between any two turns, whatever follows in the text, a declaration that is refused leaves all
parts as they were.  A group that is accepted has linked its members to the index that it is
declared with, and nothing else. -/
theorem atomic_declarations (mark text : String) (turns : Nat) (cursor : Cursor) (keyword : Token) :
    let session : Session := { (Session.turn mark)^[turns] (Session.start text) with cursor }
    ((session.readNode keyword).1 = none → session.Kept (session.readNode keyword).2) ∧
      ((session.readEdge keyword).1 = none → session.Kept (session.readEdge keyword).2) ∧
      ((session.readGroup keyword).1 = none → session.Kept (session.readGroup keyword).2) ∧
      ∀ group, (session.readGroup keyword).1 = some group →
        session.Linked group.members (session.readGroup keyword).2 ∧
        ((session.readGroup keyword).2.registry.addGroup group).net.groupAt?
          session.registry.nextGroup = some group := by
  intro session
  obtain ⟨rows, before⟩ := Session.exists_before_iterate mark text turns
  have indexed : session.registry.Indexed := before.indexed
  constructor
  · exact fun _ => session.kept_readNode keyword
  constructor
  · exact fun _ => session.kept_readEdge keyword
  constructor
  · intro refused
    rcases Session.readGroup_cases indexed keyword with ⟨-, kept⟩ | ⟨group, accepted, -⟩
    · exact kept
    · rw [refused] at accepted
      cases accepted
  · intro group accepted
    rcases Session.readGroup_cases indexed keyword with ⟨refused, -⟩ | ⟨other, same, linked⟩
    · rw [refused] at accepted
      cases accepted
    · rw [accepted] at same
      cases same
      constructor
      · exact linked
      · have groups : (session.readGroup keyword).2.registry.net.groups =
            session.registry.net.groups := by
          rw [linked.registry]
          rfl
        exact getElem?_append_singleton_eq_some_iff.2 (.inr ⟨congrArg List.length groups.symm, rfl⟩)

/-- A closed group has linked its member; an open one, an edge without ends and a repeated node
leave everything as it was. -/
theorem linked_and_kept :
    let behind (text : String) : Session :=
      ((Session.turn "//")^[1] (Session.start text)).advance
    let keyword : Token := ⟨.word, "group", 1, 7, 7, 12, 7, 12⟩
    let closed := behind "node a\ngroup g\na\nendgroup\n"
    let unclosed := behind "node a\ngroup g\na\n"
    let edge := behind "node a\nedge e\n"
    let node := behind "node a\nnode a\n"
    closed.Linked [0] (closed.readGroup keyword).2 ∧
      unclosed.Kept (unclosed.readGroup keyword).2 ∧
      edge.Kept (edge.readEdge keyword).2 ∧
      node.Kept (node.readNode keyword).2 := by
  intro behind keyword closed unclosed edge node
  have accepted : (closed.readGroup keyword).1 = some ⟨"g", "", [0]⟩ := by decide +kernel
  have groupRefused : (unclosed.readGroup keyword).1 = none := by decide +kernel
  have edgeRefused : (edge.readEdge keyword).1 = none := by decide +kernel
  have nodeRefused : (node.readNode keyword).1 = none := by decide +kernel
  have linked := ((atomic_declarations "//" _ 1 closed.cursor keyword).2.2.2 _ accepted).1
  have groupKept := (atomic_declarations "//" _ 1 unclosed.cursor keyword).2.2.1 groupRefused
  have edgeKept := (atomic_declarations "//" _ 1 edge.cursor keyword).2.1 edgeRefused
  have nodeKept := (atomic_declarations "//" _ 1 node.cursor keyword).1 nodeRefused
  exact ⟨linked, groupKept, edgeKept, nodeKept⟩

end NetDecl
