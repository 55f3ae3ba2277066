import NetDecl.Proofs.Compile.Turns

/-!
# Compiling as the line machine

Compiling a text yields what the line machine makes of its rows: the same net and the same
diagnostics in the same order.
-/

namespace NetDecl

namespace Session

/-- All turns of a session together go where the line machine goes over the rows that are left. -/
theorem Before.run (mark : String) {session : Session} {rows : List Row}
    (before : session.Before rows) :
    (session.run mark).scanning = LineMachine.runFrom mark session.scanning rows ∧
      (session.run mark).cursor.textEnd = session.cursor.stop rows := by
  fun_induction Session.run mark session generalizing rows with
  | case1 session token pulled ih =>
    cases rows with
    | nil =>
      cases before.reads with
      | nil exhausted =>
        have none : session.advance.cursor.current = none := by
          rw [advance, Cursor.advance_of_next?_eq_none exhausted]
        rw [none] at pulled
        cases pulled
    | cons row rows =>
      obtain ⟨rest, advances⟩ := exists_advances_turn mark before
      rw [turn_of_current mark pulled] at advances
      obtain ⟨same, textEnd⟩ := ih advances.before
      exact ⟨same.trans advances.run.symm, textEnd.trans advances.leads.stop⟩
  | case2 session exhausted =>
    cases rows with
    | nil =>
      cases before.reads with
      | nil none =>
        refine ⟨rfl, ?_⟩
        rw [advance, Cursor.advance_of_next?_eq_none none]
        rfl
    | cons row rows =>
      obtain ⟨after, within⟩ := session.cursor.exists_within before.reads
      obtain ⟨token, pulled⟩ := within.exists_current_advance
      have some : session.advance.cursor.current = some token := pulled
      rw [some] at exhausted
      cases exhausted

end Session

/-- The session at the end of a text is where the line machine is behind the last row. -/
theorem scanning_run_start (mark text : String) :
    ((Session.start text).run mark).scanning = LineMachine.run mark (Row.ofText text) :=
  ((Session.before_start text).run mark).1

/-- Where the text ends is where its last row ends. -/
theorem textEnd_run_start (mark text : String) :
    (Row.ofText text).getLast?.map Row.stop =
      some ((Session.start text).run mark).cursor.textEnd := by
  have textEnd := ((Session.before_start text).run mark).2
  rw [textEnd, Cursor.stop]
  cases rows : Row.ofText text with
  | nil => exact absurd rows (Row.ofText_ne_nil text)
  | cons row rows => rw [List.getLast?_cons]; rfl

/-- The net of a text is the one that the line machine declares. -/
theorem net_compile (options : Options) (text : String) :
    (compile options text).net = (LineMachine.run options.effectiveMark (Row.ofText text)).net :=
  congrArg LineMachine.State.net (scanning_run_start options.effectiveMark text)

/-- Compiling a text yields what the line machine makes of it. -/
theorem compile_eq_lineMachine (options : Options) (text : String) :
    compile options text = LineMachine.compile options text := by
  have run := scanning_run_start options.effectiveMark text
  have textEnd := textEnd_run_start options.effectiveMark text
  have success : (Row.ofText text).getLast?.map (fun row => Diagnostic.success row.stop) =
      some (.success ((Session.start text).run options.effectiveMark).cursor.textEnd) := by
    rw [← Option.map_some, ← textEnd, Option.map_map]
    rfl
  simp only [LineMachine.compile, ← run, success]
  rfl

end NetDecl
