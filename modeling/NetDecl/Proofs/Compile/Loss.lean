import NetDecl.Proofs.Compile.Fate
import NetDecl.Proofs.Compile.Refinement

/-!
# Declarations that are lost

A declaration that a text begins is lost if it declares nothing and records nothing.  That happens
exactly to a group that is cut off, and a text without problems has declared as many parts as it has
begun exactly if no group is cut off.
-/

namespace NetDecl

/-- How many parts a net has. -/
def Net.size (net : Net) : Nat :=
  net.nodes.length + net.edges.length + net.groups.length

namespace Session

/-- The session before each of its turns. -/
def turns (mark : String) (session : Session) : List Session :=
  match _pulled : session.advance.cursor.current with
  | some token => session :: turns mark (session.advance.handle mark token)
  | none => []
termination_by session.pending
decreasing_by
  exact Nat.lt_of_le_of_lt (pending_handle_le mark session.advance token)
    (Cursor.pending_advance_lt _pulled)

/-- The next turn begins a group that is cut off in the text. -/
def CutsOff (text : String) (session : Session) : Prop :=
  ∃ keyword row rows, session.dispatch? = some (.group, keyword) ∧
    (Row.ofText text).drop keyword.line = row :: rows ∧ row.CutOff session.registry.net rows

section Turns

variable {session after : Session} {part : Part} {mark text : String} {rows : List Row}

theorem turns_of_current {token : Token} (pulled : session.advance.cursor.current = some token) :
    session.turns mark = session :: (session.turn mark).turns mark := by
  rw [turn_of_current mark pulled, turns]
  split
  · rename_i other same
    rw [pulled] at same
    cases same
    rfl
  · rename_i none
    rw [pulled] at none
    cases none

theorem turns_of_exhausted (exhausted : session.advance.cursor.current = none) :
    session.turns mark = [] := by
  rw [turns]
  split
  · rename_i token pulled
    rw [exhausted] at pulled
    cases pulled
  · rfl

/-- The session before which a token is pulled has a row left. -/
theorem Before.exists_eq_cons (before : session.Before rows) {token : Token}
    (pulled : session.advance.cursor.current = some token) : ∃ row rest, rows = row :: rest := by
  cases rows with
  | nil =>
    cases before.reads with
    | nil exhausted =>
      rw [advance, Cursor.advance_of_next?_eq_none exhausted] at pulled
      cases pulled
  | cons row rest => exact ⟨row, rest, rfl⟩

/-- Each turn is on a row of its own.  The turns before it have gone over the rows before, and so
does the line machine. -/
theorem Before.exists_foldl_of_mem_turns (before : session.Before rows) {visited : Session}
    (mem : visited ∈ session.turns mark) :
    ∃ passed row rest, rows = passed ++ row :: rest ∧ visited.Before (row :: rest) ∧
      passed.foldl (LineMachine.State.step mark) session.scanning = visited.scanning ∧
      ∃ tokens, session.cursor.lexer.Pulls tokens visited.cursor.lexer := by
  fun_induction Session.run mark session generalizing rows with
  | case1 session token pulled ih =>
    rw [turns_of_current pulled] at mem
    rcases before.exists_eq_cons pulled with ⟨row, rest, rfl⟩
    rcases List.mem_cons.1 mem with rfl | later
    · exact ⟨[], row, rest, rfl, before, rfl, [], .nil _⟩
    · rcases exists_advances_turn mark before with ⟨between, advances⟩
      rw [turn_of_current mark pulled] at later advances
      rcases ih advances.before later with ⟨passed, next, behind, rfl, there, folded, _, pulls⟩
      rcases advances.passed with ⟨front, split, come⟩
      rcases advances.leads.pulls with ⟨_, pullsFirst⟩
      refine ⟨front ++ passed, next, behind, by rw [split, List.append_assoc], there, ?_, _,
        pullsFirst.append pulls⟩
      rw [List.foldl_append, come (by simp), folded]
  | case2 session exhausted =>
    rw [turns_of_exhausted exhausted] at mem
    cases mem

theorem Before.of_mem_turns (before : session.Before rows) {visited : Session}
    (mem : visited ∈ session.turns mark) : ∃ rest, visited.Before rest ∧ rest <:+ rows := by
  rcases before.exists_foldl_of_mem_turns mem with ⟨passed, row, rest, split, there, -⟩
  exact ⟨row :: rest, there, passed, split.symm⟩

theorem Declares.size_eq (declares : session.Declares part after) :
    after.registry.net.size = session.registry.net.size + 1 := by
  cases part with
  | node =>
    rcases declares with ⟨node, equal⟩
    rw [equal]
    simp only [Net.size, Registry.addNode, List.length_append, List.length_cons, List.length_nil]
    omega
  | edge =>
    rcases declares with ⟨edge, equal⟩
    rw [equal]
    simp only [Net.size, Registry.addEdge, List.length_append, List.length_cons, List.length_nil]
    omega
  | group =>
    rcases declares with ⟨group, equal⟩
    rw [equal]
    simp only [Net.size, Registry.addGroup, Registry.link, Net.length_nodes_link, Net.edges_link,
      Net.groups_link, List.length_append, List.length_cons, List.length_nil]
    omega

theorem Declares.registry_ne (declares : session.Declares part after) :
    after.registry ≠ session.registry := by
  intro same
  have grown := declares.size_eq
  rw [same] at grown
  omega

/-- Where the row of a declaration is known, so is what `CutsOff` says about it. -/
theorem cutsOff_iff {keyword : Token} {row : Row}
    (dispatched : session.dispatch? = some (part, keyword)) (line : keyword.line = row.line.index)
    (suffix : row :: rows <:+ Row.ofText text) :
    session.CutsOff text ↔ part = .group ∧ row.CutOff session.registry.net rows := by
  have here : (Row.ofText text).drop keyword.line = row :: rows := by
    rw [line, Row.drop_ofText suffix]
  constructor
  · rintro ⟨_, _, _, group, there, cutOff⟩
    rw [dispatched] at group
    cases group
    rw [here] at there
    cases there
    exact ⟨rfl, cutOff⟩
  · rintro ⟨rfl, cutOff⟩
    exact ⟨keyword, row, rows, dispatched, here, cutOff⟩

/-- A declaration declares one part or records a problem, unless it is a group that is cut off. -/
theorem Before.declares_or_reports_iff (before : session.Before rows)
    (suffix : rows <:+ Row.ofText text) (mark : String) {keyword : Token}
    (dispatched : session.dispatch? = some (part, keyword)) :
    session.Declares part (session.turn mark) ∨ session.Reports (session.turn mark) ↔
      ¬session.CutsOff text := by
  rcases before.exists_fate_turn mark dispatched with ⟨row, rest, rfl, line, fate⟩
  rw [cutsOff_iff dispatched line suffix, not_and]
  cases fate with
  | declared declares _ _ notCut => exact iff_of_true (.inl declares) notCut
  | refused _ reports notCut => exact iff_of_true (.inr reports) notCut
  | lost isGroup cutOff registry diagnostics =>
    apply iff_of_false
    · rintro (declares | ⟨problems, filled, -, recorded⟩)
      · exact declares.registry_ne registry
      · rw [diagnostics] at recorded
        exact filled (List.self_eq_append_right.1 recorded)
    · intro notCut
      exact notCut isGroup cutOff

theorem Before.prefix_turn (before : session.Before rows) (mark : String) :
    session.diagnostics <+: (session.turn mark).diagnostics := by
  cases dispatched : session.dispatch? with
  | none => exact (kept_turn_of_dispatch?_eq_none mark dispatched).diagnostics
  | some begun =>
    rcases before.exists_fate_turn mark dispatched with ⟨_, _, -, -, fate⟩
    cases fate with
    | declared _ _ diagnostics _ =>
      rw [diagnostics]
      exact List.prefix_append _ _
    | refused _ reports _ =>
      rcases reports with ⟨problems, -, -, diagnostics⟩
      rw [diagnostics]
      exact List.prefix_append _ _
    | lost _ _ _ diagnostics => exact diagnostics.symm ▸ List.prefix_rfl

theorem Before.prefix_run (before : session.Before rows) (mark : String) :
    session.diagnostics <+: (session.run mark).diagnostics := by
  fun_induction Session.run mark session generalizing rows with
  | case1 session token pulled ih =>
    have grown := before.prefix_turn mark
    rcases before.exists_turn mark with ⟨rest, next, -⟩
    rw [turn_of_current mark pulled] at grown next
    exact grown.trans (ih next)
  | case2 session exhausted => exact List.prefix_rfl

/-- A turn that records nothing declares the part that it begins, unless that is cut off. -/
theorem Before.size_turn (before : session.Before rows) (suffix : rows <:+ Row.ofText text)
    (silent : (session.turn mark).diagnostics = []) :
    (session.turn mark).registry.net.size =
          session.registry.net.size + (if session.dispatch?.isSome then 1 else 0) ∧
        ¬session.CutsOff text ∨
      (session.turn mark).registry.net.size = session.registry.net.size ∧
        session.dispatch?.isSome = true ∧ session.CutsOff text := by
  cases dispatched : session.dispatch? with
  | none =>
    left
    constructor
    · rw [(kept_turn_of_dispatch?_eq_none mark dispatched).registry]
      rfl
    · rintro ⟨_, _, _, begun, -⟩
      rw [dispatched] at begun
      cases begun
  | some begun =>
    rcases before.exists_fate_turn mark dispatched with ⟨row, rest, rfl, line, fate⟩
    rw [cutsOff_iff dispatched line suffix, not_and]
    cases fate with
    | declared declares _ _ notCut => exact .inl ⟨declares.size_eq, notCut⟩
    | refused _ reports _ =>
      rcases reports with ⟨problems, filled, -, diagnostics⟩
      rw [silent] at diagnostics
      exact absurd (List.append_eq_nil_iff.1 diagnostics.symm).2 filled
    | lost isGroup cutOff registry _ =>
      right
      rw [registry]
      exact ⟨rfl, rfl, isGroup, cutOff⟩

/-- A run that records nothing declares as many parts as it begins exactly if none is cut off. -/
theorem Before.size_run (before : session.Before rows) (suffix : rows <:+ Row.ofText text)
    (silent : (session.run mark).diagnostics = []) :
    let begun := (session.turns mark).countP fun visited => visited.dispatch?.isSome
    (session.run mark).registry.net.size ≤ session.registry.net.size + begun ∧
      ((session.run mark).registry.net.size = session.registry.net.size + begun ↔
        ∀ visited ∈ session.turns mark, ¬visited.CutsOff text) := by
  fun_induction Session.run mark session generalizing rows with
  | case1 session token pulled ih =>
    rcases before.exists_turn mark with ⟨rest, next, nextSuffix⟩
    have turned := turn_of_current mark pulled
    have nextSilent : (session.turn mark).diagnostics = [] := by
      rw [turned] at next ⊢
      have grown := next.prefix_run mark
      rw [silent] at grown
      exact List.prefix_nil.1 grown
    have size := before.size_turn suffix nextSilent
    rw [turned] at next
    have later := ih next (nextSuffix.trans suffix) silent
    dsimp only at later ⊢
    rw [turns_of_current pulled, List.countP_cons, List.forall_mem_cons]
    rw [turned] at size ⊢
    rcases size with ⟨size, notCut⟩ | ⟨size, begun, cutsOff⟩
    · rw [size, Nat.add_right_comm, Nat.add_assoc] at later
      exact ⟨later.1, later.2.trans (and_iff_right notCut).symm⟩
    · rw [size] at later
      rw [if_pos begun]
      constructor
      · omega
      · apply iff_of_false
        · omega
        · intro kept
          exact kept.1 cutsOff
  | case2 session exhausted =>
    rw [turns_of_exhausted exhausted]
    constructor
    · exact Nat.le_refl _
    · apply iff_of_true
      · rfl
      · intro visited mem
        cases mem

end Turns

end Session

/-- A text that is compiled to its success alone has recorded nothing. -/
theorem diagnostics_run_eq_nil {options : Options} {text : String} {position : Position}
    (success : (compile options text).diagnostics = [.success position]) :
    ((Session.start text).run options.effectiveMark).diagnostics = [] := by
  have raised := LineMachine.raised_run options.effectiveMark (Row.ofText text)
  rw [← scanning_run_start] at raised
  rw [compile, Session.outcome] at success
  dsimp only at success
  split at success
  · rename_i empty
    exact List.isEmpty_iff.1 empty
  · have problem : (Diagnostic.success position).IsProblem := by
      apply raised.problems
      rw [Session.scanning, success]
      exact List.mem_singleton_self _
    cases problem.isSuccess_eq_false

/-- A declaration that a text begins declares one part or records a problem, exactly if it is not
a group that is cut off.  A text without problems has declared as many parts as it has begun,
exactly if no group is cut off. -/
theorem lost_iff_cutsOff (options : Options) (text : String) :
    let mark := options.effectiveMark
    let visited := (Session.start text).turns mark
    (∀ session ∈ visited, ∀ part keyword, session.dispatch? = some (part, keyword) →
        (session.Declares part (session.turn mark) ∨ session.Reports (session.turn mark) ↔
          ¬session.CutsOff text)) ∧
      ∀ position, (compile options text).diagnostics = [.success position] →
        ((compile options text).net.size =
            visited.countP (fun session => session.dispatch?.isSome) ↔
          ∀ session ∈ visited, ¬session.CutsOff text) := by
  have start := Session.before_start text
  intro mark visited
  constructor
  · intro session mem part keyword dispatched
    rcases start.of_mem_turns mem with ⟨rest, before, suffix⟩
    exact before.declares_or_reports_iff suffix mark dispatched
  · intro position success
    have size := (start.size_run List.suffix_rfl (diagnostics_run_eq_nil success)).2
    rw [show (Session.start text).registry.net.size = 0 from rfl, Nat.zero_add] at size
    exact size

/-- A group of a declared node that is not closed is lost. -/
theorem lost_of_unclosed :
    let text := "node a\ngroup g\na\n"
    let visited := (Session.start text).turns Options.standard.effectiveMark
    (compile Options.standard text).diagnostics = [.success ⟨3, 0⟩] ∧
      (compile Options.standard text).net.size = 1 ∧
      visited.countP (fun session => session.dispatch?.isSome) = 2 ∧
      ∃ session ∈ visited, ∃ keyword, session.dispatch? = some (.group, keyword) ∧
        ¬(session.Declares .group (session.turn Options.standard.effectiveMark) ∨
          session.Reports (session.turn Options.standard.effectiveMark)) := by
  intro text visited
  have success : (compile Options.standard text).diagnostics = [.success ⟨3, 0⟩] := by
    decide +kernel
  have size : (compile Options.standard text).net.size = 1 := by decide +kernel
  have begun : visited.countP (fun session => session.dispatch?.isSome) = 2 := by decide +kernel
  refine ⟨success, size, begun, ?_⟩
  rcases lost_iff_cutsOff Options.standard text with ⟨each, whole⟩
  by_contra none
  have kept : ∀ session ∈ visited, ¬session.CutsOff text := by
    intro session mem cutsOff
    rcases cutsOff with ⟨keyword, row, rows, dispatched, here, cutOff⟩
    have silent : ¬(session.Declares .group (session.turn Options.standard.effectiveMark) ∨
        session.Reports (session.turn Options.standard.effectiveMark)) := by
      rw [each session mem .group keyword dispatched, not_not]
      exact ⟨keyword, row, rows, dispatched, here, cutOff⟩
    exact none ⟨session, mem, keyword, dispatched, silent⟩
  have equal := (whole ⟨3, 0⟩ success).2 kept
  rw [size] at equal
  exact absurd (equal.trans begun) (by decide)

end NetDecl
