import NetDecl.Proofs.Compile.Sound
import NetDecl.Proofs.Compile.Visits
import NetDecl.Proofs.Declaration.Refused
import NetDecl.Proofs.Token.Stretch

/-!
# Owners of members

While a text is read, a word in the body of a group can be refused because of a group that its node
belongs to.  This is either a group that has been declared before, and then the node is a member of
it in the net of the text, or it is the group being read itself, which lists the node already.
-/

namespace NetDecl

open LineMachine (OpenGroup Tail openFrom readRows)

/-! ## Words in bodies -/

/-- A word in the body of the group that the next turn of a session begins. -/
structure Session.Listing (session : Session) where
  /-- The keyword of the group. -/
  keyword : Token
  /-- The header of the group. -/
  header : Header
  /-- The session behind the header. -/
  opened : Session
  /-- The tokens of the body in front of the word. -/
  front : List Token
  /-- The word. -/
  word : Token
  /-- The place in the text behind the word. -/
  behind : Lexer
  dispatched : session.dispatch? = some (.group, keyword)
  read : session.advance.readHeader .group keyword = (some header, opened)
  pulls : opened.cursor.lexer.Pulls (front ++ [word]) behind
  inside : ∀ token ∈ front ++ [word], token.endsGroup = false
  isWord : word.isWord = true

namespace Session

namespace Listing

variable {session : Session}

/-- What the body has come to in front of the word. -/
def draft (listing : session.Listing) : Group.Draft :=
  listing.front.foldl (Group.Draft.step listing.header.id listing.opened.registry.nextGroup)
    ⟨listing.opened.registry, [], listing.opened.diagnostics⟩

/-- The diagnostic is what the word is reported for. -/
def Reports (listing : session.Listing) (diagnostic : Diagnostic) : Prop :=
  (listing.draft.step listing.header.id listing.opened.registry.nextGroup
    listing.word).diagnostics = listing.draft.diagnostics ++ [diagnostic]

theorem reports_of_refuses (listing : session.Listing) {issue : Issue}
    (refuses : listing.draft.Refuses listing.header.id listing.opened.registry.nextGroup
      listing.word issue) : listing.Reports (issue.atToken listing.word) := by
  rw [Reports, refuses.step_eq listing.isWord]
  rfl

theorem registry_opened (listing : session.Listing) :
    listing.opened.registry = session.registry := by
  have kept := session.advance.kept_readHeader .group listing.keyword
  rw [listing.read] at kept
  exact kept.registry

/-- The members in front of the word have been linked, and nothing else has changed. -/
theorem links (listing : session.Listing) (indexed : session.registry.Indexed) :
    listing.draft.Links session.registry listing.opened.diagnostics := by
  rw [draft, listing.registry_opened]
  apply List.foldlRecOn (motive := fun draft : Group.Draft =>
    draft.Links session.registry listing.opened.diagnostics)
  · exact ⟨(Registry.link_nil _).symm, List.nodup_nil, nofun, List.prefix_rfl⟩
  · exact fun draft links token _ => links.step indexed listing.header.id token

end Listing

end Session

/-! ## Diagnostics of bodies -/

namespace Session

variable {session : Session} {row : Row} {rows : List Row} {part : Part} {keyword : Token}
  {diagnostic : Diagnostic}

theorem dispatch?_of_current (pulled : session.advance.cursor.current = some keyword)
    (inside : keyword.isBoundary = false) (found : Part.ofKeyword? keyword.text = some part) :
    session.dispatch? = some (part, keyword) := by
  simp [dispatch?, pulled, inside, found]

/-- What is recorded in a body is recorded at one of its words. -/
theorem exists_refuses_of_mem_body (opened : Session) (reads : opened.cursor.lexer.Reads rows)
    (indexed : opened.registry.Indexed) (sound : opened.registry.net.Sound) {group last : OpenGroup}
    (fits : group.Fits opened.registry.net) (empty : group.members = []) {body : List Diagnostic}
    {tail : Option Tail} (read : readRows opened.registry.net group rows = (last, body, tail))
    (mem : diagnostic ∈ body) :
    ∃ front word behind issue, opened.cursor.lexer.Pulls (front ++ [word]) behind ∧
      (∀ token ∈ front ++ [word], token.endsGroup = false) ∧ word.isWord = true ∧
      (front.foldl (Group.Draft.step group.id opened.registry.nextGroup)
        ⟨opened.registry, [], opened.diagnostics⟩).Refuses group.id opened.registry.nextGroup word
          issue ∧
      diagnostic = issue.atToken word := by
  rcases opened.exists_foldUntil_body reads indexed sound fits empty with ⟨_, -, folded⟩
  rw [Cursor.foldUntil_eq, read] at folded
  have taken := congrArg (fun result => result.2.diagnostics) folded
  dsimp only at taken
  have pass : ∀ token ∈ (opened.cursor.stretch Token.endsGroup).passed,
      token.endsGroup = false := (Stretch.ends_stretch opened.cursor Token.endsGroup).passes
  rcases (Stretch.pulls_stretch opened.cursor Token.endsGroup).exists_of_append with
    ⟨_, pulls, -⟩
  generalize (opened.cursor.stretch Token.endsGroup).passed = tokens at taken pass pulls
  rcases Group.Draft.exists_fresh_foldl group.id opened.registry.nextGroup
    ⟨opened.registry, [], opened.diagnostics⟩ tokens with ⟨fresh, recorded, places⟩
  have same : fresh = body := by
    rw [recorded] at taken
    exact List.append_cancel_left taken
  subst same
  rcases places diagnostic mem with ⟨front, word, back, issue, rfl, isWord, refuses, rfl⟩
  rw [← List.singleton_append, ← List.append_assoc] at pulls pass
  rcases pulls.exists_of_append with ⟨behind, before, -⟩
  refine ⟨front, word, behind, issue, before, ?_, isWord, refuses, rfl⟩
  exact fun token mem => pass token (List.mem_append_left _ mem)

/-- What a body records is what one of its words is reported for. -/
theorem Before.exists_listing (before : session.Before (row :: rows)) {first : Word}
    {words : List Word} {header : Header} {front body : List Diagnostic} {last : OpenGroup}
    {tail : Option Tail} (split : row.words = first :: words)
    (found : Part.ofKeyword? first.text = some .group)
    (read : LineMachine.readHeader session.registry.net .group row words = (some header, front))
    (bodyRead : readRows session.registry.net (openFrom row header) rows = (last, body, tail))
    (mem : diagnostic ∈ body) :
    ∃ (listing : session.Listing) (issue : Issue),
      listing.draft.Refuses listing.header.id listing.opened.registry.nextGroup listing.word
          issue ∧
        diagnostic = issue.atToken listing.word := by
  rcases session.cursor.exists_within before.reads with ⟨after, within⟩
  rw [split] at within
  rcases within.advance_cons with ⟨keyword, isToken, pulled, advanced⟩
  change session.advance.cursor.Within row words rows after at advanced
  have dispatched : session.dispatch? = some (.group, keyword) :=
    dispatch?_of_current pulled isToken.isBoundary_eq (by rw [isToken.text, found])
  have opened : session.advance.readHeader .group keyword =
      (some header, session.advance.moved after front) := by
    rw [readHeader_eq advanced before.indexed isToken.line_eq]
    exact congrArg (fun read => (read.1, session.advance.moved after read.2)) read
  rcases (session.advance.moved after front).exists_refuses_of_mem_body advanced.reads
    before.indexed before.sound (LineMachine.fits_openFrom read) rfl bodyRead mem with
    ⟨listed, word, behind, issue, pulls, inside, isWord, refuses, reported⟩
  let listing : session.Listing :=
    { keyword, header, opened := session.advance.moved after front, front := listed, word, behind
      dispatched, read := opened, pulls, inside, isWord }
  exact ⟨listing, issue, refuses, reported⟩

/-! ## Groups that are declared -/

theorem readMembers_fst (session : Session) (id : String) :
    (session.readMembers id).1 =
      (session.cursor.foldUntil Token.endsGroup (Group.Draft.step id session.registry.nextGroup)
        ⟨session.registry, [], session.diagnostics⟩).2.members := by
  unfold readMembers
  dsimp only
  split <;> rfl

/-- A group that is accepted has the name in its header and the members in its body. -/
theorem of_readGroup_eq_some {header : Header} {opened : Session} {group : Group}
    (read : session.readHeader .group keyword = (some header, opened))
    (accepted : (session.readGroup keyword).1 = some group) :
    group.id = header.id ∧ group.members = (opened.readMembers header.id).1 := by
  unfold readGroup at accepted
  rw [read] at accepted
  dsimp only at accepted
  split at accepted
  · cases accepted
  · split at accepted
    · cases accepted
    · cases accepted
      exact ⟨rfl, rfl⟩

/-- A group that stands where the next group is declared has been accepted. -/
theorem readGroup_of_groupAt?_declareGroup (session : Session)
    (indexed : session.registry.Indexed) {group : Group}
    (declared : (session.declareGroup keyword).registry.net.groupAt? session.registry.nextGroup =
      some group) : (session.readGroup keyword).1 = some group := by
  have ways := readGroup_cases indexed keyword
  unfold declareGroup at declared
  rcases read : session.readGroup keyword with ⟨_ | other, after⟩
  · rcases ways with ⟨-, kept⟩ | ⟨_, accepted, -⟩
    · rw [read] at declared kept
      change after.registry.net.groups[session.registry.net.groups.length]? = some group at declared
      rw [show after.registry = session.registry from kept.registry, List.getElem?_length]
        at declared
      cases declared
    · rw [read] at accepted
      cases accepted
  · rcases ways with ⟨refused, -⟩ | ⟨_, accepted, linked⟩
    · rw [read] at refused
      cases refused
    · rw [read] at declared accepted linked
      cases accepted
      have groups : after.registry.net.groups = session.registry.net.groups := by
        rw [show after.registry = _ from linked.registry]
        rfl
      change (after.registry.net.groups ++ [other])[session.registry.net.groups.length]? =
        some group at declared
      rw [groups, List.getElem?_concat_length] at declared
      exact declared

/-- A group that the turn declares has the name in its header, and its members are those in front of
any word of its body and perhaps more. -/
theorem Listing.of_groupAt?_turn (listing : session.Listing) (mark : String)
    (indexed : session.registry.Indexed) {group : Group}
    (declared : (session.turn mark).registry.net.groupAt? session.registry.nextGroup =
      some group) : group.id = listing.header.id ∧ listing.draft.members ⊆ group.members := by
  rw [turn_of_dispatch? mark listing.dispatched] at declared
  have accepted : (session.advance.readGroup listing.keyword).1 = some group :=
    session.advance.readGroup_of_groupAt?_declareGroup indexed declared
  rcases of_readGroup_eq_some listing.read accepted with ⟨id, members⟩
  constructor
  · exact id
  · rcases Cursor.exists_foldUntil_of_pulls listing.pulls listing.inside
      (Group.Draft.step listing.header.id listing.opened.registry.nextGroup)
      ⟨listing.opened.registry, [], listing.opened.diagnostics⟩ with ⟨middle, -, folded⟩
    rw [members, readMembers_fst, folded, List.foldl_append]
    apply Cursor.foldUntil_induction fun draft : Group.Draft =>
      listing.draft.members ⊆ draft.members
    · exact Group.Draft.members_subset_foldl _ _ listing.draft [listing.word]
    · exact fun draft token kept => List.Subset.trans kept (draft.members_subset_step _ _ token)

end Session

/-! ## Whole texts -/

section Texts

variable {options : Options} {text : String} {session : Session}

/-- Where a diagnostic of a text is about a member, other than that it is missing, it is what a word
in the body of a group is reported for. -/
theorem exists_listing_of_mem_compile {diagnostic : Diagnostic}
    (mem : diagnostic ∈ (compile options text).diagnostics)
    (apart : diagnostic.code ∉ Code.ofDeclarations) (atWord : diagnostic.code.isAtWord = true) :
    ∃ session ∈ (Session.start text).turns options.effectiveMark,
      ∃ (listing : session.Listing) (issue : Issue),
        listing.draft.Refuses listing.header.id listing.opened.registry.nextGroup listing.word
            issue ∧
          diagnostic = issue.atToken listing.word := by
  have notAtLine : diagnostic.code.isAtLine = false := by
    revert atWord
    cases diagnostic.code <;> decide
  have problem : diagnostic.code ≠ .success := by
    intro success
    rw [success] at atWord
    cases atWord
  rcases exists_source_of_mem_compile mem problem with
    ⟨session, visited, -, row, rest, before, -, source⟩
  cases source with
  | declaration declared => exact absurd declared apart
  | line issue caused reported =>
    have atLine : diagnostic.code.isAtLine = true := by
      rw [reported]
      exact caused.isAtLine_code
    rw [notAtLine] at atLine
    cases atLine
  | body split found read bodyRead listed =>
    exact ⟨session, visited, before.exists_listing split found read bodyRead listed⟩

/-- The net of a text extends the net before each turn and the one behind it. -/
theorem extends_compile_of_mem_turns
    (visited : session ∈ (Session.start text).turns options.effectiveMark) :
    session.registry.net.Extends (compile options text).net ∧
      (session.turn options.effectiveMark).registry.net.Extends (compile options text).net := by
  rcases (Session.before_start text).of_mem_turns visited with ⟨rows, before, -⟩
  rcases before.exists_turn options.effectiveMark with ⟨rest, next, -⟩
  rcases Session.run_turn_of_mem_turns visited with ⟨⟨token, pulled⟩, run⟩
  constructor
  · have here := before.extends_run options.effectiveMark
    rw [Session.run_of_current pulled, run] at here
    exact here
  · have behind := next.extends_run options.effectiveMark
    rw [run] at behind
    exact behind

/-- A node of another group is a member of a group that has been declared before, and that is still
where it is in the net of the text. -/
theorem exists_group_of_foreign
    (visited : session ∈ (Session.start text).turns options.effectiveMark)
    (listing : session.Listing) {index owner : Nat}
    (known : listing.draft.registry.node? listing.word.text = some index)
    (owned : listing.draft.registry.owner? index = some owner)
    (other : owner ≠ session.registry.nextGroup) :
    ∃ group, session.registry.net.groupAt? owner = some group ∧
      (∀ pending, listing.draft.registry.groupName owner pending = group.id) ∧
      (compile options text).net.groupAt? owner = some group ∧
      listing.word.text ∈ ((compile options text).net.members group).map Node.id := by
  rcases (Session.before_start text).of_mem_turns visited with ⟨_, before, -⟩
  have links := listing.links before.indexed
  have grown := (extends_compile_of_mem_turns visited).1
  rcases links.exists_group_of_owner?_eq before.sound.wellFormed owned other with
    ⟨group, found, listed, name⟩
  rw [links.node?_eq, before.indexed.node?_eq_some_iff] at known
  exact ⟨group, found, name, grown.groupAt?_eq_some found,
    Net.mem_ids_members listed (grown.getElem?_ids_eq_some known)⟩

/-- A node of the group being read is among the members in front of the word.  If the group is
declared, the node is its member once. -/
theorem exists_member_of_listedAgain
    (visited : session ∈ (Session.start text).turns options.effectiveMark)
    (listing : session.Listing) {index : Nat}
    (known : listing.draft.registry.node? listing.word.text = some index)
    (owned : listing.draft.registry.owner? index = some session.registry.nextGroup) :
    (∃ member ∈ listing.draft.members,
        (session.registry.net.nodes.map Node.id)[member]? = some listing.word.text) ∧
      ∀ group, (session.turn options.effectiveMark).registry.net.groupAt?
          session.registry.nextGroup = some group →
        group.id = listing.header.id ∧
          (compile options text).net.groupAt? session.registry.nextGroup = some group ∧
          (((compile options text).net.members group).map Node.id).count listing.word.text = 1 := by
  rcases (Session.before_start text).of_mem_turns visited with ⟨_, before, -⟩
  have links := listing.links before.indexed
  have listed := links.mem_of_owner?_eq before.sound.wellFormed owned
  rw [links.node?_eq, before.indexed.node?_eq_some_iff] at known
  constructor
  · exact ⟨index, listed, known⟩
  · intro group declared
    rcases extends_compile_of_mem_turns visited with ⟨grown, grownBehind⟩
    rcases listing.of_groupAt?_turn options.effectiveMark before.indexed declared with
      ⟨id, subset⟩
    have found := grownBehind.groupAt?_eq_some declared
    have wellFormed := (sound_net_compile options text).wellFormed
    refine ⟨id, found, ?_⟩
    apply List.count_eq_one_of_mem
    · exact wellFormed.nodup_ids_members (List.mem_of_getElem? found)
    · exact Net.mem_ids_members (subset listed) (grown.getElem?_ids_eq_some known)

end Texts

/-- Whatever the text, a node that is refused by a group because it belongs to another one is a
member of a group that has been declared before, that is in the net of the text, and that has the
name in the message; the name of the group being read never stands in for it.  A node that is
refused because it is listed again is among the members in front of the word, and if the group is
declared it is a member once. -/
theorem names_owners (options : Options) (text : String) :
    let outcome := compile options text
    let mark := options.effectiveMark
    let turns := (Session.start text).turns mark
    (∀ session ∈ turns, ∀ (listing : session.Listing) (index owner : Nat),
      listing.draft.registry.node? listing.word.text = some index →
      listing.draft.registry.owner? index = some owner → owner ≠ session.registry.nextGroup →
      ∃ group, session.registry.net.groupAt? owner = some group ∧
        ∀ pending, listing.draft.registry.groupName owner pending = group.id) ∧
    (∀ diagnostic ∈ outcome.diagnostics, diagnostic.code = .anotherGroup →
      ∃ session ∈ turns, ∃ listing : session.Listing, listing.Reports diagnostic ∧
        ∃ owner group,
          diagnostic.message =
            "node " ++ listing.word.text ++ " already belongs to another group " ++ group.id ∧
          session.registry.net.groupAt? owner = some group ∧
          outcome.net.groupAt? owner = some group ∧
          listing.word.text ∈ (outcome.net.members group).map Node.id) ∧
    ∀ diagnostic ∈ outcome.diagnostics, diagnostic.code = .duplicateGroupAssignment →
      ∃ session ∈ turns, ∃ listing : session.Listing, listing.Reports diagnostic ∧
        diagnostic.message =
          "node " ++ listing.word.text ++ " already assigned to " ++ listing.header.id ∧
        (∃ member ∈ listing.draft.members,
          (session.registry.net.nodes.map Node.id)[member]? = some listing.word.text) ∧
        ∀ group,
          (session.turn mark).registry.net.groupAt? session.registry.nextGroup = some group →
          group.id = listing.header.id ∧
            outcome.net.groupAt? session.registry.nextGroup = some group ∧
            ((outcome.net.members group).map Node.id).count listing.word.text = 1 := by
  intro outcome mark turns
  constructor
  · intro session visited listing index owner known owned other
    rcases exists_group_of_foreign visited listing known owned other with ⟨group, found, name, -⟩
    exact ⟨group, found, name⟩
  constructor
  · intro diagnostic mem code
    rcases exists_listing_of_mem_compile mem (by rw [code]; decide) (by rw [code]; rfl) with
      ⟨session, visited, listing, issue, refuses, rfl⟩
    refine ⟨session, visited, listing, listing.reports_of_refuses refuses, ?_⟩
    cases refuses with
    | notFound | listedAgain => cases code
    | foreign known owned other =>
      rw [listing.registry_opened] at other
      rcases exists_group_of_foreign visited listing known owned other with
        ⟨group, found, name, last, listed⟩
      refine ⟨_, group, ?_, found, last, listed⟩
      rw [← name listing.header.id]
      rfl
  · intro diagnostic mem code
    rcases exists_listing_of_mem_compile mem (by rw [code]; decide) (by rw [code]; rfl) with
      ⟨session, visited, listing, issue, refuses, rfl⟩
    refine ⟨session, visited, listing, listing.reports_of_refuses refuses, ?_⟩
    cases refuses with
    | notFound | foreign => cases code
    | listedAgain known owned =>
      rw [listing.registry_opened] at owned
      exact ⟨rfl, exists_member_of_listedAgain visited listing known owned⟩

/-- The node `a` stays in `g`, and `h` lists `b` twice. -/
theorem names_owners_of_refused :
    let text := "node a\nnode b\ngroup g\na endgroup\ngroup h\na b b\nendgroup"
    let outcome := compile .standard text
    let mark := Options.standard.effectiveMark
    let turns := (Session.start text).turns mark
    let foreign := Diagnostic.ofCode .anotherGroup ⟨5, 0⟩ 1
      "node a already belongs to another group g"
    let again := Diagnostic.ofCode .duplicateGroupAssignment ⟨5, 4⟩ 1
      "node b already assigned to h"
    (foreign ∈ outcome.diagnostics ∧
      ∃ session ∈ turns, ∃ listing : session.Listing, listing.Reports foreign ∧
        ∃ owner group,
          foreign.message =
            "node " ++ listing.word.text ++ " already belongs to another group " ++ group.id ∧
          session.registry.net.groupAt? owner = some group ∧
          outcome.net.groupAt? owner = some group ∧
          listing.word.text ∈ (outcome.net.members group).map Node.id) ∧
    again ∈ outcome.diagnostics ∧
      ∃ session ∈ turns, ∃ listing : session.Listing, listing.Reports again ∧
        again.message =
          "node " ++ listing.word.text ++ " already assigned to " ++ listing.header.id ∧
        (∃ member ∈ listing.draft.members,
          (session.registry.net.nodes.map Node.id)[member]? = some listing.word.text) ∧
        ∀ group,
          (session.turn mark).registry.net.groupAt? session.registry.nextGroup = some group →
          group.id = listing.header.id ∧
            outcome.net.groupAt? session.registry.nextGroup = some group ∧
            ((outcome.net.members group).map Node.id).count listing.word.text = 1 := by
  intro text outcome mark turns foreign again
  have foreignMem : foreign ∈ outcome.diagnostics := by decide +kernel
  have againMem : again ∈ outcome.diagnostics := by decide +kernel
  rcases names_owners .standard text with ⟨-, owners, lists⟩
  exact ⟨⟨foreignMem, owners foreign foreignMem rfl⟩, againMem, lists again againMem rfl⟩

end NetDecl
