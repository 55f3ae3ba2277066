import NetDecl.Proofs.Compile.Visits
import NetDecl.Proofs.Registry.Coherent

/-!
# Registries at all times

While a text is read its registry is coherent, before each turn and at each iteration of the loops of
a turn.  Headers and edges are read with the registry as it is.  The members of a group are linked
one by one, and they are what is listed meanwhile.
-/

namespace NetDecl

/-- With the members listed so far linked, the registry is coherent. -/
theorem Group.Draft.Links.coherent {base : Registry} {diagnostics : List Diagnostic}
    {draft : Group.Draft} (links : draft.Links base diagnostics) (indexed : base.Indexed)
    (wellFormed : base.net.WellFormed) : draft.registry.Coherent draft.members := by
  rw [links.registry]
  apply Registry.coherent_link indexed wellFormed links.nodup
  intro index mem
  exact (links.free index mem).1

namespace Session

/-- The session occurs while the text is read, before a turn or at an iteration of a loop of a turn.
Meanwhile the given nodes have been listed in the group that is being read. -/
inductive Occurs (mark text : String) : Session → List Nat → Prop where
  /-- A turn is going to begin. -/
  | between {session : Session} :
      session ∈ (start text).turns mark → Occurs mark text session []
  /-- The text has been read to its end. -/
  | finished : Occurs mark text ((start text).run mark) []
  /-- The header of a node or a group is being read. -/
  | header {session : Session} {part : Part} {keyword : Token} {cursor : Cursor}
      {draft : Header.Draft} :
      session ∈ (start text).turns mark →
      session.dispatch? = some (part, keyword) → part ≠ .edge →
      Cursor.Iterates Token.isBoundary (Header.Draft.step session.registry part)
        session.advance.cursor (.start session.diagnostics) cursor draft →
      Occurs mark text ⟨cursor, session.registry, draft.diagnostics⟩ []
  /-- An edge is being read. -/
  | edge {session : Session} {keyword : Token} {cursor : Cursor} {draft : Edge.Draft} :
      session ∈ (start text).turns mark →
      session.dispatch? = some (.edge, keyword) →
      Cursor.Iterates Token.isBoundary (Edge.Draft.step session.registry)
        session.advance.cursor (.start session.diagnostics) cursor draft →
      Occurs mark text ⟨cursor, session.registry, draft.diagnostics⟩ []
  /-- The members of a group are being read. -/
  | members {session opened : Session} {keyword : Token} {header : Header} {cursor : Cursor}
      {draft : Group.Draft} :
      session ∈ (start text).turns mark →
      session.dispatch? = some (.group, keyword) →
      session.advance.readHeader .group keyword = (some header, opened) →
      Cursor.Iterates Token.endsGroup (Group.Draft.step header.id opened.registry.nextGroup)
        opened.cursor ⟨opened.registry, [], opened.diagnostics⟩ cursor draft →
      Occurs mark text ⟨cursor, draft.registry, draft.diagnostics⟩ draft.members
  /-- The rest of the line that closes a group is being read. -/
  | closing {session opened : Session} {keyword : Token} {header : Header}
      {closed cursor : Cursor} {draft : Group.Draft} {diagnostics : List Diagnostic} :
      session ∈ (start text).turns mark →
      session.dispatch? = some (.group, keyword) →
      session.advance.readHeader .group keyword = (some header, opened) →
      opened.cursor.foldUntil Token.endsGroup
        (Group.Draft.step header.id opened.registry.nextGroup)
        ⟨opened.registry, [], opened.diagnostics⟩ = (closed, draft) →
      closed.atGroupEnd = true →
      Cursor.Iterates Token.isBoundary
        (fun diagnostics token => diagnostics ++ [(Issue.discarded token.text).atToken token])
        closed draft.diagnostics cursor diagnostics →
      Occurs mark text ⟨cursor, draft.registry, diagnostics⟩ draft.members

section Occurrences

variable {mark text : String} {session opened : Session} {keyword : Token} {header : Header}

/-- Before each turn the registry is indexed and its net is well-formed. -/
theorem of_mem_turns_start (mem : session ∈ (start text).turns mark) :
    session.registry.Indexed ∧ session.registry.net.WellFormed := by
  rcases (before_start text).of_mem_turns mem with ⟨rest, before, -⟩
  exact ⟨before.indexed, before.sound.wellFormed⟩

/-- In the end the registry is indexed and its net is well-formed. -/
theorem indexed_run_start (mark text : String) :
    ((start text).run mark).registry.Indexed ∧ ((start text).run mark).registry.net.WellFormed := by
  rcases exists_iterate_eq_run mark (start text) with ⟨turns, last⟩
  rcases exists_before_iterate mark text turns with ⟨rest, before⟩
  rw [last] at before
  exact ⟨before.indexed, before.sound.wellFormed⟩

/-- Reading the header of a group does not change the registry. -/
theorem of_readHeader_eq (mem : session ∈ (start text).turns mark)
    (read : session.advance.readHeader .group keyword = (some header, opened)) :
    opened.registry.Indexed ∧ opened.registry.net.WellFormed := by
  have kept := (session.advance.kept_readHeader .group keyword).registry
  rw [read] at kept
  have same : opened.registry = session.registry := kept
  rw [same]
  exact of_mem_turns_start mem

end Occurrences

end Session

/-- While a text is read, the maps of its registry answer as a search of the net does, no node has
the name of a group, and its set of connections holds the ends of the edges.  The members listed so
far of the group that is being read, and no other nodes, point at the index that the group is going
to have.  All other nodes that point at a group, which outside of a group are all, point at one that
has been declared. -/
theorem coherent_of_occurs (options : Options) (text : String) {session : Session}
    {members : List Nat} (occurs : session.Occurs options.effectiveMark text members) :
    session.registry.Coherent members ∧
      (members = [] → ∀ node owner, session.registry.owner? node = some owner →
        owner < session.registry.net.groups.length) := by
  have coherent : session.registry.Coherent members := by
    cases occurs with
    | between mem | header mem | edge mem =>
      rcases Session.of_mem_turns_start mem with ⟨indexed, wellFormed⟩
      exact indexed.coherent wellFormed
    | finished =>
      rcases Session.indexed_run_start options.effectiveMark text with ⟨indexed, wellFormed⟩
      exact indexed.coherent wellFormed
    | members mem _ read iterates =>
      rcases Session.of_readHeader_eq mem read with ⟨indexed, wellFormed⟩
      exact (Group.Draft.Links.of_iterates indexed iterates).coherent indexed wellFormed
    | @closing _ opened _ header _ _ draft _ mem _ read body =>
      rcases Session.of_readHeader_eq mem read with ⟨indexed, wellFormed⟩
      have links := Group.Draft.Links.of_foldUntil indexed header.id opened.cursor
        opened.diagnostics
      rw [body] at links
      exact links.coherent indexed wellFormed
  constructor
  · exact coherent
  · rintro rfl node owner owned
    exact coherent.owner_lt owned

/-- Behind the first member of a group of two nodes, the first node points at the group. -/
theorem coherent_of_occurs_in_group :
    let mark := Options.standard.effectiveMark
    let text := "node a\nnode b\ngroup g\na\nb\nendgroup\n"
    ∃ session : Session, session.Occurs mark text [0] ∧ session.registry.Coherent [0] ∧
      session.registry.owner? 0 = some 0 ∧ session.registry.owner? 1 = none := by
  intro mark text
  let before := (Session.turn mark)^[2] (Session.start text)
  let keyword : Token := ⟨.word, "group", 2, 14, 14, 19, 14, 19⟩
  let opened := (before.advance.readHeader .group keyword).2
  let member : Token := ⟨.word, "a", 3, 22, 22, 23, 22, 23⟩
  let draft := Group.Draft.step "g" opened.registry.nextGroup
    ⟨opened.registry, [], opened.diagnostics⟩ member
  have mem : before ∈ (Session.start text).turns mark := by
    rw [(Session.turns_eq_iterate mark (Session.start text)).1]
    exact List.mem_iterate.2 ⟨2, by decide +kernel, rfl⟩
  have dispatched : before.dispatch? = some (.group, keyword) := by decide +kernel
  have header : (before.advance.readHeader .group keyword).1 = some ⟨"g", ""⟩ := by decide +kernel
  have listed : draft.members = [0] := by decide +kernel
  have pulled : opened.cursor.advance.current = some member := by decide +kernel
  have occurs : Session.Occurs mark text ⟨opened.cursor.advance, draft.registry, draft.diagnostics⟩
      draft.members :=
    .members mem dispatched (Prod.ext header rfl) (.pass pulled (by decide) (.start _ draft))
  rw [listed] at occurs
  exact ⟨_, occurs, (coherent_of_occurs Options.standard text occurs).1, by decide +kernel,
    by decide +kernel⟩

end NetDecl
