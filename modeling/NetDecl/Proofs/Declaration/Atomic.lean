import NetDecl.Declaration.Edge
import NetDecl.Declaration.Group
import NetDecl.Declaration.Node
import NetDecl.Proofs.Registry.Indexed
import NetDecl.Proofs.Token.Pulls

/-!
# Declarations that are refused

Whatever tokens follow, a declaration that is refused leaves the parts declared before as they were,
and a group that is accepted has done nothing but link its members, which belonged to no group.
-/

namespace NetDecl

namespace Session

/-- Nothing has happened but that diagnostics may have been recorded. -/
structure Kept (session after : Session) : Prop where
  registry : after.registry = session.registry
  diagnostics : session.diagnostics <+: after.diagnostics

theorem Kept.trans {session middle after : Session} (front : session.Kept middle)
    (back : middle.Kept after) : session.Kept after :=
  ⟨back.registry.trans front.registry, front.diagnostics.trans back.diagnostics⟩

theorem kept_reportLine (session : Session) (token : Token) (issue : Issue) :
    session.Kept (session.reportLine token issue) :=
  ⟨rfl, List.prefix_append _ _⟩

end Session

/-! ## Single lines -/

theorem Header.Draft.prefix_step (registry : Registry) (part : Part) (draft : Draft)
    (token : Token) : draft.diagnostics <+: (step registry part draft token).diagnostics := by
  unfold step
  split
  · exact List.prefix_append _ _
  · exact List.prefix_rfl
  · exact List.prefix_append _ _

theorem Edge.Draft.prefix_reportMissing (draft : Draft) (token : Token) (role : Role)
    (found : Option Nat) :
    draft.diagnostics <+: (draft.reportMissing token role found).diagnostics := by
  unfold reportMissing
  split
  · exact List.prefix_rfl
  · exact List.prefix_append _ _

theorem Edge.Draft.prefix_step (registry : Registry) (draft : Draft) (token : Token) :
    draft.diagnostics <+: (step registry draft token).diagnostics := by
  unfold step place
  split
  · exact List.prefix_append _ _
  · exact draft.prefix_reportMissing token _ _
  · exact draft.prefix_reportMissing token _ _
  · exact List.prefix_rfl
  · exact List.prefix_append _ _

namespace Session

theorem kept_readHeader (session : Session) (part : Part) (keyword : Token) :
    session.Kept (session.readHeader part keyword).2 := by
  have grown : session.diagnostics <+: (session.cursor.foldUntil Token.isBoundary
      (Header.Draft.step session.registry part) (.start session.diagnostics)).2.diagnostics := by
    apply Cursor.foldUntil_induction fun draft : Header.Draft =>
      session.diagnostics <+: draft.diagnostics
    · exact List.prefix_rfl
    · exact fun draft token kept => kept.trans (draft.prefix_step _ _ token)
  unfold readHeader
  dsimp only
  split
  · exact ⟨rfl, grown⟩
  · refine Kept.trans ?_ (kept_reportLine _ keyword _)
    exact ⟨rfl, grown⟩

/-- Reading a node changes nothing that has been declared. -/
theorem kept_readNode (session : Session) (keyword : Token) :
    session.Kept (session.readNode keyword).2 :=
  session.kept_readHeader .node keyword

/-- Reading an edge changes nothing that has been declared. -/
theorem kept_readEdge (session : Session) (keyword : Token) :
    session.Kept (session.readEdge keyword).2 := by
  have grown : session.diagnostics <+: (session.cursor.foldUntil Token.isBoundary
      (Edge.Draft.step session.registry) (.start session.diagnostics)).2.diagnostics := by
    apply Cursor.foldUntil_induction fun draft : Edge.Draft =>
      session.diagnostics <+: draft.diagnostics
    · exact List.prefix_rfl
    · exact fun draft token kept => kept.trans (draft.prefix_step _ token)
  unfold readEdge
  dsimp only
  split
  · refine Kept.trans ?_ (kept_reportLine _ keyword _)
    exact ⟨rfl, grown⟩
  · exact ⟨rfl, grown⟩

theorem kept_discardLine (session : Session) : session.Kept session.discardLine := by
  refine ⟨rfl, ?_⟩
  apply Cursor.foldUntil_induction fun diagnostics : List Diagnostic =>
    session.diagnostics <+: diagnostics
  · exact List.prefix_rfl
  · exact fun diagnostics token kept => kept.trans (List.prefix_append _ _)

end Session

/-! ## Groups -/

/-- What reading members on top of a registry has come to: links from different nodes that
belonged to no group. -/
structure Group.Draft.Links (base : Registry) (diagnostics : List Diagnostic) (draft : Draft) :
    Prop where
  registry : draft.registry = base.link draft.members
  nodup : draft.members.Nodup
  free : ∀ index ∈ draft.members,
    index < base.net.nodes.length ∧ base.net.ownerAt? index = none
  diagnostics : diagnostics <+: draft.diagnostics

namespace Group.Draft.Links

variable {base : Registry} {diagnostics : List Diagnostic} {draft : Group.Draft}

theorem report (links : draft.Links base diagnostics) (token : Token) (issue : Issue) :
    (draft.report token issue).Links base diagnostics :=
  ⟨links.registry, links.nodup, links.free, links.diagnostics.trans (List.prefix_append _ _)⟩

theorem owner?_eq (links : draft.Links base diagnostics) (node : Nat) :
    draft.registry.owner? node =
      if node ∈ draft.members then some base.nextGroup else base.net.ownerAt? node := by
  rw [links.registry]
  exact Registry.owner?_link (fun index mem => (links.free index mem).1) node

/-- A node that points at no group is not yet a member, and belonged to no group before. -/
theorem of_owner?_eq_none (links : draft.Links base diagnostics) {node : Nat}
    (free : draft.registry.owner? node = none) :
    node ∉ draft.members ∧ base.net.ownerAt? node = none := by
  rw [links.owner?_eq] at free
  split at free
  · cases free
  · rename_i notListed
    exact ⟨notListed, free⟩

theorem step (links : draft.Links base diagnostics) (indexed : base.Indexed) (id : String)
    (token : Token) : (draft.step id base.nextGroup token).Links base diagnostics := by
  unfold Group.Draft.step
  split
  · unfold place
    split
    · exact links.report token _
    · rename_i node found
      split
      · rename_i free
        obtain ⟨notListed, unowned⟩ := links.of_owner?_eq_none free
        have known : base.node? token.text = some node := by
          rw [links.registry] at found
          exact found
        constructor
        · dsimp only
          rw [links.registry, Registry.assign_link]
        · exact links.nodup.append (List.nodup_singleton _) (List.disjoint_singleton.2 notListed)
        · intro index mem
          rcases List.mem_append.1 mem with old | new
          · exact links.free index old
          · cases List.mem_singleton.1 new
            exact ⟨indexed.lt_of_node? known, unowned⟩
        · exact links.diagnostics
      · split
        · exact links.report token _
        · exact links.report token _
  · exact links

/-- Before the first member nothing is linked. -/
theorem start (base : Registry) (diagnostics : List Diagnostic) :
    Links base diagnostics ⟨base, [], diagnostics⟩ :=
  ⟨(Registry.link_nil _).symm, List.nodup_nil, fun _ mem => (nomatch mem), List.prefix_rfl⟩

/-- At each iteration over the members of a group, those listed so far are linked. -/
theorem of_iterates {id : String} {cursor next : Cursor} (indexed : base.Indexed)
    (iterates : Cursor.Iterates Token.endsGroup (Group.Draft.step id base.nextGroup) cursor
      ⟨base, [], diagnostics⟩ next draft) : draft.Links base diagnostics :=
  iterates.keeps (start base diagnostics) fun _ token links => links.step indexed id token

/-- Behind the members of a group all of them are linked. -/
theorem of_foldUntil (indexed : base.Indexed) (id : String) (cursor : Cursor)
    (diagnostics : List Diagnostic) :
    (cursor.foldUntil Token.endsGroup (Group.Draft.step id base.nextGroup)
      ⟨base, [], diagnostics⟩).2.Links base diagnostics := by
  rcases Cursor.exists_iterates Token.endsGroup (Group.Draft.step id base.nextGroup) cursor
    ⟨base, [], diagnostics⟩ with ⟨last, iterates, -⟩
  exact of_iterates indexed iterates

end Group.Draft.Links

namespace Session

/-- Nothing has happened but that the members, different nodes that belonged to no group, point at
the group that is declared next, and that diagnostics may have been recorded. -/
structure Linked (session : Session) (members : List Nat) (after : Session) : Prop where
  registry : after.registry = session.registry.link members
  nodup : members.Nodup
  free : ∀ index ∈ members,
    index < session.registry.net.nodes.length ∧ session.registry.net.ownerAt? index = none
  diagnostics : session.diagnostics <+: after.diagnostics

namespace Linked

variable {session middle after : Session} {members : List Nat}

theorem of_kept (kept : session.Kept middle) (linked : middle.Linked members after) :
    session.Linked members after := by
  obtain ⟨registry, nodup, free, diagnostics⟩ := linked
  rw [kept.registry] at registry free
  exact ⟨registry, nodup, free, kept.diagnostics.trans diagnostics⟩

theorem trans_kept (linked : session.Linked members middle) (kept : middle.Kept after) :
    session.Linked members after :=
  ⟨kept.registry.trans linked.registry, linked.nodup, linked.free,
    linked.diagnostics.trans kept.diagnostics⟩

/-- Where no members are linked, nothing has happened. -/
theorem kept_of_nil (linked : session.Linked [] after) : session.Kept after :=
  ⟨linked.registry.trans (Registry.link_nil _), linked.diagnostics⟩

/-- Releasing the members undoes the links. -/
theorem kept_releaseAll (linked : session.Linked members after) :
    session.Kept (after.releaseAll members) := by
  refine ⟨?_, linked.diagnostics⟩
  rw [releaseAll, linked.registry]
  exact Registry.foldl_release_link fun index mem => (linked.free index mem).2

end Linked

variable {session : Session}

theorem linked_readMembers (indexed : session.registry.Indexed) (id : String) :
    session.Linked (session.readMembers id).1 (session.readMembers id).2.2 := by
  have links := Group.Draft.Links.of_foldUntil indexed id session.cursor session.diagnostics
  unfold readMembers
  dsimp only
  split
  · refine Linked.trans_kept ?_ (kept_discardLine _)
    exact ⟨links.registry, links.nodup, links.free, links.diagnostics⟩
  · exact ⟨links.registry, links.nodup, links.free, links.diagnostics⟩

/-- A group that is refused leaves everything as it was, and one that is accepted has linked its
members. -/
theorem readGroup_cases (indexed : session.registry.Indexed) (keyword : Token) :
    ((session.readGroup keyword).1 = none ∧ session.Kept (session.readGroup keyword).2) ∨
      ∃ group, (session.readGroup keyword).1 = some group ∧
        session.Linked group.members (session.readGroup keyword).2 := by
  have kept := session.kept_readHeader .group keyword
  unfold readGroup
  split
  · rename_i after read
    rw [read] at kept
    exact .inl ⟨rfl, kept⟩
  · rename_i header middle read
    rw [read] at kept
    change session.Kept middle at kept
    have linked : middle.Linked (middle.readMembers header.id).1
        (middle.readMembers header.id).2.2 :=
      linked_readMembers (kept.registry ▸ indexed) header.id
    rcases membersRead : middle.readMembers header.id with ⟨members, closed, last⟩
    rw [membersRead] at linked
    change middle.Linked members last at linked
    have reported : session.Linked members
        (if members.isEmpty then last.reportLine keyword (.memberless header.id) else last) := by
      split
      · exact (linked.of_kept kept).trans_kept (kept_reportLine last keyword _)
      · exact linked.of_kept kept
    dsimp only
    cases closed with
    | false => exact .inl ⟨rfl, reported.kept_releaseAll⟩
    | true =>
      rw [if_neg (by simp)]
      by_cases empty : members.isEmpty = true
      · rw [if_pos empty, if_pos empty]
        rw [if_pos empty, List.isEmpty_iff.1 empty] at reported
        exact .inl ⟨rfl, reported.kept_of_nil⟩
      · rw [if_neg empty, if_neg empty]
        rw [if_neg empty] at reported
        exact .inr ⟨_, rfl, reported⟩

end Session

end NetDecl
