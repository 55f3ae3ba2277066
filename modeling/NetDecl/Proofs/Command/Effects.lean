import NetDecl.Proofs.Command.Reads
import NetDecl.Proofs.Files.Tree

/-!
# What a command changes

The only thing that a command changes is the file at the path that a diagram is written to.  A
command that refuses its settings or its input changes nothing and prints nothing.  This holds in
every system of files that has the laws of writing.
-/

namespace NetDecl.Command

/-- What came to the standard output is printed, whether the text could be written or not. -/
theorem Ending.output_saving (path : String) (obstacle? : Option Files.Obstacle)
    (printed : String) : (saving path obstacle? printed).output = printed := by
  cases obstacle? <;> rfl

/-- The files after an effect differ from those before where something is saved. -/
theorem Effect.exists_save_of_on {effect : Effect} {system : Files.System} {files : system.State}
    {file : system.File} (lawful : system.Lawful)
    (differs : system.content? (effect.on system files).2 file ≠ system.content? files file) :
    ∃ path text, effect = .save path text ∧ system.target files path = .file file := by
  cases effect with
  | finish ending => exact absurd rfl differs
  | save path text => exact ⟨path, text, rfl, lawful.target_of_changed _ _ _ _ differs⟩

/-- The text of the diagram that a text declares. -/
def diagramText (settings : Settings) (text : String) (pretty : Bool) : String :=
  jsonLine (compile settings.options text).net.project.toJson (pretty || settings.pretty)

/-- Only a command that writes a diagram to a path saves anything. -/
theorem Action.exists_project_of_save {action : Action} {settings : Settings}
    {text path saved : String}
    (saves : action.effect settings (compile settings.options text) = .save path saved) :
    ∃ pretty, action = .project (some path) pretty ∧ saved = diagramText settings text pretty := by
  cases action with
  | parse json pretty => cases saves
  | validate json strict => cases saves
  | project output pretty =>
      cases output with
      | none => cases saves
      | some other => cases saves; exact ⟨pretty, rfl, rfl⟩

namespace Call

variable {call : Call} {invocation : Invocation}

/-- The only file whose content a call changes is the one that its diagram is written to. -/
theorem target_of_changed (lawful : call.system.Lawful)
    (asks : Request.ofArguments call.arguments = .run invocation) {file : call.system.File}
    (differs : call.system.content? call.run.2 file ≠ call.system.content? call.files file) :
    ∃ path pretty, invocation.action = .project (some path) pretty ∧
      call.system.target call.files path = .file file := by
  rcases refuses_or_reads asks with
    ⟨path, failure, configured, refuses⟩ | ⟨settings, failure, loaded, refuses⟩ |
      ⟨settings, text, reads⟩
  · rw [run_of_refusesSettings asks configured refuses] at differs
    exact absurd rfl differs
  · rw [run_of_refusesInput asks loaded refuses] at differs
    exact absurd rfl differs
  · rw [run_of_reads reads] at differs
    obtain ⟨path, text, saved, target⟩ := Effect.exists_save_of_on lawful differs
    obtain ⟨pretty, writes, -⟩ := Action.exists_project_of_save saved
    exact ⟨path, pretty, writes, target⟩

theorem run_of_prints {pretty : Bool} {settings : Settings} {text : String}
    (reads : call.Reads invocation settings text)
    (prints : invocation.action = .project none pretty) :
    call.run = (⟨0, diagramText settings text pretty, none⟩, call.files) := by
  rw [run_of_reads reads, prints]
  rfl

theorem run_of_saves {path : String} {pretty : Bool} {settings : Settings} {text : String}
    (reads : call.Reads invocation settings text)
    (saves : invocation.action = .project (some path) pretty) :
    call.run =
      (Effect.save path (diagramText settings text pretty)).on call.system call.files := by
  rw [run_of_reads reads, saves]
  rfl

/-- What a call does that writes a text to a path. -/
structure Saves (call : Call) (path text : String) : Prop where
  /-- What is in the way of the text is reported. -/
  reports : ∀ obstacle, (call.system.write call.files path text).obstacle? = some obstacle →
    call.run.1.code = 1 ∧
      call.run.1.report = some (Failure.unwritableOutput path obstacle).report
  /-- A text that can be written makes for a good end. -/
  ends : (call.system.write call.files path text).obstacle? = none →
    call.run.1.code = 0 ∧ call.run.1.report = none
  /-- If the path leads to a file, then the text is all that is in the file, and all that can be
  read at the path. -/
  leaves : ∀ file, (call.system.write call.files path text).obstacle? = none →
    call.system.target call.files path = .file file →
      call.system.content? call.run.2 file = some text.toUTF8 ∧
        ∀ source, call.system.find call.run.2 path = .ok source → source = .content text.toUTF8
  /-- If the path leads to the standard output, then the text is printed, and no file changes. -/
  prints : (call.system.write call.files path text).obstacle? = none →
    call.system.target call.files path = .standardOutput →
      call.run.1.output = text ∧
        ∀ file, call.system.content? call.run.2 file = call.system.content? call.files file
  /-- If it does not, nothing is printed. -/
  silent : call.system.target call.files path ≠ .standardOutput → call.run.1.output = ""

theorem saves_of_run {path text : String} (lawful : call.system.Lawful)
    (run : call.run = (Effect.save path text).on call.system call.files) :
    call.Saves path text where
  reports := by
    intro obstacle failed
    rw [run, Effect.on, failed]
    exact ⟨rfl, rfl⟩
  ends := by
    intro written
    rw [run, Effect.on, written]
    exact ⟨rfl, rfl⟩
  leaves := by
    intro file written led
    rw [run]
    exact ⟨lawful.content?_of_written _ _ _ _ led written,
      fun source => lawful.find_of_written _ _ _ _ source led written⟩
  prints := by
    intro written led
    rw [run, Effect.on, Ending.output_saving]
    refine ⟨lawful.printed_of_written _ _ _ led written, fun file => ?_⟩
    exact lawful.content?_write_of_ne fun other => nomatch led.symm.trans other
  silent := by
    intro elsewhere
    rw [run, Effect.on, Ending.output_saving, lawful.printed_eq_empty _ _ _ elsewhere]

/-- What a call that asks for an invocation prints, reports and changes. -/
structure Effects (call : Call) (invocation : Invocation) : Prop where
  /-- The only file whose content may change is the one that a diagram is written to. -/
  changes : ∀ file, call.system.content? call.run.2 file ≠ call.system.content? call.files file →
    ∃ path pretty, invocation.action = .project (some path) pretty ∧
      call.system.target call.files path = .file file
  /-- Settings that are refused are reported, whatever there is to say about the input. -/
  refusesSettings : ∀ path failure, invocation.config = some path →
    RefusesSettings call.surroundings path failure →
      call.run = (⟨1, "", some failure.report⟩, call.files)
  /-- An input that is refused is reported if the settings are not. -/
  refusesInput : ∀ settings failure,
    loadSettings call.surroundings invocation.config = .ok settings →
    RefusesInput (invocation.afterSettings call.surroundings) invocation.input failure →
      call.run = (⟨1, "", some failure.report⟩, call.files)
  /-- A call that refuses neither reads both. -/
  reads : (∀ path failure, invocation.config = some path →
      ¬RefusesSettings call.surroundings path failure) →
    (∀ failure, ¬RefusesInput (invocation.afterSettings call.surroundings) invocation.input
      failure) →
    ∃ settings text, call.Reads invocation settings text
  /-- A listing is printed, whatever there is to say about the text. -/
  lists : ∀ settings text json pretty, call.Reads invocation settings text →
    invocation.action = .parse json pretty →
      call.run = (⟨0, if json then
          jsonLine (compile settings.options text).listingJson (pretty || settings.pretty)
        else (compile settings.options text).listing, none⟩, call.files)
  /-- A diagram is printed, whatever there is to say about the text. -/
  prints : ∀ settings text pretty, call.Reads invocation settings text →
    invocation.action = .project none pretty →
      call.run = (⟨0, diagramText settings text pretty, none⟩, call.files)
  /-- A diagram is written to a path, whatever there is to say about the text.  It is what a call
  without the path prints. -/
  saves : ∀ settings text path pretty, call.Reads invocation settings text →
    invocation.action = .project (some path) pretty →
      call.Saves path (diagramText settings text pretty) ∧
        ∀ plain,
          Request.ofArguments plain = .run { invocation with action := .project none pretty } →
            Command.run plain call.standardInput call.system call.files =
              (⟨0, diagramText settings text pretty, none⟩, call.files)

/-- Every call that asks for an invocation has the effects that it should have, in every system with
the laws of writing. -/
theorem effects_of_asks (lawful : call.system.Lawful)
    (asks : Request.ofArguments call.arguments = .run invocation) : call.Effects invocation where
  changes _ differs := target_of_changed lawful asks differs
  refusesSettings _ _ configured refuses := run_of_refusesSettings asks configured refuses
  refusesInput _ _ loaded refuses := run_of_refusesInput asks loaded refuses
  reads := by
    intro settings input
    rcases refuses_or_reads asks with
      ⟨path, failure, configured, refuses⟩ | ⟨_, failure, _, refuses⟩ | reads
    · exact absurd refuses (settings path failure configured)
    · exact absurd refuses (input failure)
    · exact reads
  lists := by
    intro settings text json pretty reads lists
    rw [run_of_reads reads, lists]
    rfl
  prints := by
    intro settings text pretty reads prints
    exact run_of_prints reads prints
  saves := by
    intro settings text path pretty reads saves
    refine ⟨saves_of_run lawful (run_of_saves reads saves), ?_⟩
    intro plain prints
    -- Both calls read and compile the same; only what they do with the outcome differs.
    let printing : Call := ⟨plain, call.standardInput, call.system, call.files⟩
    have readsToo : printing.Reads { invocation with action := .project none pretty } settings
        text :=
      ⟨prints, reads.settings_eq, reads.text_eq⟩
    exact run_of_prints readsToo rfl

theorem eq_ok_of_toOption {ε α : Type} {result : Except ε α} {value : α}
    (found : result.toOption = some value) : result = .ok value := by
  cases result with
  | error _ => cases found
  | ok _ => cases found; rfl

/-- A call that writes the diagram of a file outside the working directory to the same file, by
another path. -/
theorem effects_of_asks_overwriting :
    let tree : Files.Tree :=
      ⟨[(["home"], .directory none), (["home", "work"], .directory none),
        (["home", "a"], .file "node a".toUTF8)], [], ["home", "work"]⟩
    let call : Call :=
      ⟨["project", "-o", "/home/a", "../a"], ByteArray.empty, Files.Tree.system, tree⟩
    let invocation : Invocation := ⟨none, "../a", .project (some "/home/a") false⟩
    let diagram := "\x7b\"nodeDataArray\":[\x7b\"key\":\"a\"\x7d],\"linkDataArray\":[]\x7d\n"
    call.system.Lawful ∧ Request.ofArguments call.arguments = .run invocation ∧
      call.Reads invocation .standard "node a" ∧
      call.run.1.code = 0 ∧ call.run.1.output = "" ∧
      call.system.content? call.run.2 ["home", "a"] = some diagram.toUTF8 := by
  intro tree call invocation diagram
  have lawful : call.system.Lawful := Files.Tree.lawful_system
  have asks : Request.ofArguments call.arguments = .run invocation := by decide
  have reads : call.Reads invocation .standard "node a" :=
    ⟨asks, rfl, eq_ok_of_toOption (by decide +kernel)⟩
  have led : tree.destination "/home/a" = .ok (.file ["home", "a"]) :=
    eq_ok_of_toOption (by decide +kernel)
  have target : call.system.target call.files "/home/a" = .file ["home", "a"] :=
    Files.Tree.target_eq_file_iff.2 led
  have written : (call.system.write call.files "/home/a"
      (diagramText .standard "node a" false)).obstacle? = none :=
    congrArg Files.Written.obstacle? (Files.Tree.write_of_file led)
  have effects : call.Effects invocation := effects_of_asks lawful asks
  obtain ⟨saves, -⟩ := effects.saves .standard "node a" "/home/a" false reads rfl
  have same : diagramText .standard "node a" false = diagram := by decide +kernel
  refine ⟨lawful, asks, reads, (saves.ends written).1, ?_, ?_⟩
  · exact saves.silent fun output => nomatch target.symm.trans output
  · rw [← same]
    exact (saves.leaves _ written target).1

/-- Where the path of a diagram leads to the standard output, the diagram is printed. -/
theorem prints_to_standardOutput :
    let tree : Files.Tree :=
      ⟨[(["dev"], .directory none), (["home"], .directory none), (["proc"], .directory none),
        (["proc", "self"], .directory none), (["proc", "self", "fd"], .directory none),
        (["proc", "self", "fd", "1"], .device .output)],
        [(["dev", "fd"], ["proc", "self", "fd"])], ["home"]⟩
    let call : Call :=
      ⟨["project", "-o", "/dev/fd/1", "node a"], ByteArray.empty, Files.Tree.system, tree⟩
    call.system.Lawful ∧
      call.Reads ⟨none, "node a", .project (some "/dev/fd/1") false⟩ .standard "node a" ∧
      call.run.1 =
        ⟨0, "\x7b\"nodeDataArray\":[\x7b\"key\":\"a\"\x7d],\"linkDataArray\":[]\x7d\n", none⟩ ∧
      call.run.1.output ≠ "" := by
  intro tree call
  have printed : call.run.1 =
      ⟨0, "\x7b\"nodeDataArray\":[\x7b\"key\":\"a\"\x7d],\"linkDataArray\":[]\x7d\n", none⟩ := by
    decide +kernel
  have absent : call.surroundings.has "node a" = false := by decide +kernel
  refine ⟨Files.Tree.lawful_system, ⟨by decide, rfl, ?_⟩, printed, ?_⟩
  · exact (if_neg (by decide)).trans (if_neg (ne_true_of_eq_false absent))
  · rw [printed]
    decide

end Call

end NetDecl.Command
