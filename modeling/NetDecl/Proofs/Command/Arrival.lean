import NetDecl.Proofs.Command.Accepted
import NetDecl.Proofs.Command.Effects

/-!
# How the input arrives

A text can be put on the standard input, into a file or into the command line.  Whichever it is, a
command gets the same text, and from then on it knows nothing of where the text came from.  No law
of the system that the files are in is needed for this, unless calls among different files are
compared.
-/

namespace NetDecl

namespace Command

/-- Among files that are alike where something is saved, an effect ends in the same way and the same
files are gained. -/
theorem Effect.on_alike {effect : Effect} {system : Files.System} (lawful : system.Lawful)
    {first second : system.State}
    (alike : ∀ path text, effect = .save path text → system.AlikeAt first second path text) :
    (effect.on system first).1 = (effect.on system second).1 ∧ ∀ file content,
      system.Gains first (effect.on system first).2 file content ↔
        system.Gains second (effect.on system second).2 file content := by
  cases effect with
  | finish ending =>
    exact ⟨rfl, fun file content => iff_of_false (system.not_gains_self first file content)
      (system.not_gains_self second file content)⟩
  | save path text =>
    have alike := alike path text rfl
    refine ⟨?_, alike.gains_iff lawful⟩
    simp only [on, alike.first_written, alike.second_written, alike.printed_eq lawful]

/-- The ways in which a text arrives: on the standard input, in a file, or as the argument itself
where there is nothing at that path. -/
inductive Arrives (surroundings : Surroundings) (text : String) : String → Prop
  | standardInput (given : surroundings.standardInput = text.toUTF8) :
      Arrives surroundings text "-"
  | file {path : String} (isPath : path ≠ "-") (has : surroundings.has path = true)
      (content : surroundings.read path = .ok text.toUTF8) : Arrives surroundings text path
  | inline (notDash : text ≠ "-") (nothing : surroundings.has text = false) :
      Arrives surroundings text text

section Loading

variable {surroundings : Surroundings} {input text : String}

/-- Bytes are the text that they decode to. -/
theorem fromUTF8?_eq_some_iff {content : ByteArray} :
    String.fromUTF8? content = some text ↔ content = text.toUTF8 := by
  constructor
  · intro decoded
    unfold String.fromUTF8? at decoded
    split at decoded
    · cases decoded
      rfl
    · cases decoded
  · rintro rfl
    exact dif_pos text.isValidUTF8

/-- An input is loaded in the listed ways only. -/
theorem loadInput_eq_ok_iff :
    loadInput surroundings input = .ok text ↔ Arrives surroundings text input := by
  unfold loadInput
  constructor
  · intro loaded
    split at loaded
    case isTrue dash =>
      subst dash
      cases read : Files.text? surroundings.standardInput with
      | error obstacle => rw [read] at loaded; cases loaded
      | ok found =>
        rw [read] at loaded
        cases loaded
        exact .standardInput (fromUTF8?_eq_some_iff.1 (text?_eq_ok_iff.1 read))
    case isFalse isPath =>
      split at loaded
      case isTrue has =>
        cases read : (surroundings.read input).bind Files.text? with
        | error obstacle => rw [read] at loaded; cases loaded
        | ok found =>
          rw [read] at loaded
          cases loaded
          obtain ⟨content, content_eq, decoded⟩ := read_bind_text?_eq_ok_iff.1 read
          rw [fromUTF8?_eq_some_iff.1 decoded] at content_eq
          exact .file isPath has content_eq
      case isFalse nothing =>
        cases loaded
        exact .inline isPath (Bool.eq_false_iff.2 nothing)
  · rintro (⟨given⟩ | ⟨isPath, has, content⟩ | ⟨notDash, nothing⟩)
    · rw [if_pos rfl, text?_eq_ok_iff.2 (fromUTF8?_eq_some_iff.2 given)]
      rfl
    · have read : (surroundings.read input).bind Files.text? = .ok text :=
        read_bind_text?_eq_ok_iff.2 ⟨_, content, fromUTF8?_eq_some_iff.2 rfl⟩
      rw [if_neg isPath, if_pos has, read]
      rfl
    · rw [if_neg notDash, if_neg (Bool.eq_false_iff.1 nothing)]

end Loading

/-! ## Calls -/

/-- The call writes a file: its content is new. -/
def Call.Writes (call : Call) (file : call.system.File) (content : ByteArray) : Prop :=
  call.system.Gains call.files call.run.2 file content

/-- The call asks for the command, its settings are loaded, and what they leave of the standard
input, a file or the argument itself is the text. -/
def Call.Delivers (call : Call) (config : Option String) (action : Action) (settings : Settings)
    (text : String) : Prop :=
  ∃ input, Request.ofArguments call.arguments = .run ⟨config, input, action⟩ ∧
    loadSettings call.surroundings config = .ok settings ∧
    Arrives (Invocation.afterSettings ⟨config, input, action⟩ call.surroundings) text input

/-- The input is taken from bytes that are not text. -/
inductive Call.Garbled (call : Call) : String → Prop
  | standardInput (notText : String.fromUTF8? call.standardInput = none) : Garbled call "-"
  | file {path : String} {content : ByteArray} (isPath : path ≠ "-")
      (has : call.surroundings.has path = true) (read : call.surroundings.read path = .ok content)
      (notText : String.fromUTF8? content = none) : Garbled call path

namespace Call

variable {call : Call} {config : Option String} {action : Action} {input : String}

/-- A text has the same effect whichever way it arrives. -/
theorem run_of_delivers {settings : Settings} {text : String}
    (delivers : call.Delivers config action settings text) :
    call.run =
      (action.effect settings (compile settings.options text)).on call.system call.files := by
  obtain ⟨input, asks, loads, arrives⟩ := delivers
  exact run_of_reads ⟨asks, loads, loadInput_eq_ok_iff.2 arrives⟩

/-- Settings that are not read from the standard input leave it as it is. -/
theorem afterSettings_eq
    (apart : ∀ path ∈ config, call.system.find call.files path ≠ .ok .standardInput) :
    Invocation.afterSettings ⟨config, input, action⟩ call.surroundings = call.surroundings := by
  cases config with
  | none => rfl
  | some path =>
    change call.surroundings.afterReading path = call.surroundings
    unfold Surroundings.afterReading
    split
    · rename_i found
      exact absurd found (apart path rfl)
    · rfl

/-- Where the settings are read from the standard input, it is text. -/
theorem isText_of_loadSettings {path : String} {settings : Settings}
    (found : call.system.find call.files path = .ok .standardInput)
    (loaded : loadSettings call.surroundings (some path) = .ok settings) :
    String.fromUTF8? call.standardInput ≠ none := by
  intro notText
  have read : call.surroundings.read path = .ok call.standardInput := by
    change (call.system.find call.files path).map _ = _
    rw [found]
    rfl
  rw [loadSettings_eq_error_iff.2 (.notText read notText)] at loaded
  cases loaded

/-- A file is read as it would be before the settings are. -/
theorem read_afterSettings {path : String} {content : ByteArray}
    (read : call.surroundings.read path = .ok content)
    (notStandardInput : content ≠ call.standardInput) :
    (Invocation.afterSettings ⟨config, input, action⟩ call.surroundings).read path =
      .ok content := by
  cases config with
  | none => exact read
  | some configured =>
    change (call.surroundings.afterReading configured).read path = .ok content
    unfold Surroundings.afterReading
    split
    · change (call.system.find call.files path).map _ = _ at read
      change (call.system.find call.files path).map _ = _
      cases found : call.system.find call.files path with
      | error obstacle =>
        rw [found] at read
        cases read
      | ok source =>
        rw [found] at read
        cases source with
        | standardInput =>
          cases read
          exact absurd rfl notStandardInput
        | content bytes => exact read
    · exact read

theorem has_afterSettings (path : String) :
    (Invocation.afterSettings ⟨config, input, action⟩ call.surroundings).has path =
      call.surroundings.has path := by
  cases config with
  | none => rfl
  | some configured =>
    change (call.surroundings.afterReading configured).has path = _
    unfold Surroundings.afterReading
    split <;> rfl

/-- What is not text is not text for a command that has read its settings either. -/
theorem Garbled.refusesInput {settings : Settings} (garbled : call.Garbled input)
    (loaded : loadSettings call.surroundings config = .ok settings) :
    ∃ failure, RefusesInput
      (Invocation.afterSettings ⟨config, input, action⟩ call.surroundings) input failure := by
  by_cases notText : String.fromUTF8? call.standardInput = none
  · have apart : ∀ path ∈ config, call.system.find call.files path ≠ .ok .standardInput := by
      rintro path rfl found
      exact isText_of_loadSettings found loaded notText
    rw [afterSettings_eq apart]
    cases garbled with
    | standardInput notText => exact ⟨_, .standardInput notText⟩
    | file isPath has read notText => exact ⟨_, .notText isPath has read notText⟩
  · cases garbled with
    | standardInput garbled => exact absurd garbled notText
    | file isPath has read garbled =>
      have kept : (Invocation.afterSettings ⟨config, input, action⟩ call.surroundings).read input =
          .ok _ := read_afterSettings read fun same => notText (same ▸ garbled)
      exact ⟨_, .notText isPath ((has_afterSettings input).trans has) kept garbled⟩

/-- What is not text is refused, unless the settings are refused before. -/
theorem exists_failing_of_garbled
    (asks : Request.ofArguments call.arguments = .run ⟨config, input, action⟩)
    (garbled : call.Garbled input) : ∃ failure, call.run = (.failing failure, call.files) := by
  cases loaded : loadSettings call.surroundings config with
  | error failure =>
    cases config with
    | none => cases loaded
    | some path =>
      exact ⟨failure, run_of_refusesSettings asks rfl (loadSettings_eq_error_iff.1 loaded)⟩
  | ok settings =>
    obtain ⟨failure, refuses⟩ : ∃ failure, RefusesInput
        (Invocation.afterSettings ⟨config, input, action⟩ call.surroundings) input failure :=
      garbled.refusesInput loaded
    exact ⟨failure, run_of_refusesInput asks loaded refuses⟩

end Call

/-! ## The text decides -/

/-- What holds of all calls that ask for a command, whichever way the input is given. -/
structure TextDecides (flags : List String) (config : Option String) (action : Action) : Prop where
  /-- An input that is left out is the standard input, as a dash is. -/
  dash : Request.ofArguments (flags ++ ["-"]) = Request.ofArguments flags
  /-- An input that cannot be taken for an option is put behind the flags as it is. -/
  plain : ∀ input, Argument.ofString input = .plain →
    Request.ofArguments (flags ++ [input]) = .run ⟨config, input, action⟩
  /-- Any input is put there after a double dash. -/
  separated : ∀ input, Request.ofArguments (flags ++ ["--", input]) = .run ⟨config, input, action⟩
  /-- Settings from a file leave the standard input for the text. -/
  untouched : ∀ (call : Call) (input : String),
    (∀ path ∈ config, call.system.find call.files path ≠ .ok .standardInput) →
      Invocation.afterSettings ⟨config, input, action⟩ call.surroundings = call.surroundings
  /-- Calls that get the same text have the same effect, whatever the systems that they are made
  in: they end in the same way, or write the same text to the same path. -/
  effect : ∀ (settings : Settings) (text : String), ∃ effect : Effect,
    ∀ call : Call, call.Delivers config action settings text →
      call.run = effect.on call.system call.files
  /-- Among the same files they end in the same way and leave the same files. -/
  same : ∀ (first : Call) (arguments : List String) (standardInput : ByteArray)
    (settings : Settings) (text : String),
      let second : Call := ⟨arguments, standardInput, first.system, first.files⟩
      first.Delivers config action settings text → second.Delivers config action settings text →
        first.run = second.run
  /-- Among other files they end in the same way and write the same files, if they have nothing to
  write, or can write it to a path that leads to the same place, with the same content before. -/
  alike : ∀ (first : Call) (arguments : List String) (standardInput : ByteArray)
    (files : first.system.State) (settings : Settings) (text : String),
      let second : Call := ⟨arguments, standardInput, first.system, files⟩
      first.Delivers config action settings text → second.Delivers config action settings text →
        first.system.Lawful →
        (∀ path pretty, action = .project (some path) pretty →
          first.system.AlikeAt first.files files path (diagramText settings text pretty)) →
          first.run.1 = second.run.1 ∧
            ∀ file content, first.Writes file content ↔ second.Writes file content
  /-- A call whose input is not text fails, prints nothing and changes nothing. -/
  garbled : ∀ (call : Call) (input : String),
    Request.ofArguments call.arguments = .run ⟨config, input, action⟩ → call.Garbled input →
      call.run.1.code = 1 ∧ call.run.1.output = "" ∧ call.run.2 = call.files

/-- For flags that ask for a command and have room for an input, the answer depends on the text
and not on the way in which it arrives. -/
theorem textDecides_of_accepted {flags : List String} {config : Option String} {action : Action}
    (accepted : Request.ofArguments flags = .run ⟨config, "-", action⟩)
    (room : Request.ofArguments (flags ++ ["-"]) ≠ .misuse) (unseparated : "--" ∉ flags) :
    TextDecides flags config action where
  dash := by
    rw [accepted]
    exact (Request.ofArguments_append accepted room unseparated "-").1 rfl
  plain input := (Request.ofArguments_append accepted room unseparated input).1
  separated input := (Request.ofArguments_append accepted room unseparated input).2
  untouched _ _ := Call.afterSettings_eq
  effect settings text :=
    ⟨action.effect settings (compile settings.options text), fun _ => Call.run_of_delivers⟩
  same first arguments standardInput settings text := by
    intro second firstDelivers secondDelivers
    rw [Call.run_of_delivers firstDelivers]
    exact (Call.run_of_delivers secondDelivers).symm
  alike first arguments standardInput files settings text := by
    intro second firstDelivers secondDelivers lawful alike
    have secondRun : second.run = _ := Call.run_of_delivers secondDelivers
    simp only [Call.Writes, Call.run_of_delivers firstDelivers, secondRun]
    refine Effect.on_alike lawful fun path saved saves => ?_
    obtain ⟨pretty, asks, rfl⟩ := Action.exists_project_of_save saves
    exact alike path pretty asks
  garbled call input asks notText := by
    obtain ⟨failure, run⟩ := Call.exists_failing_of_garbled asks notText
    rw [run]
    exact ⟨rfl, rfl, rfl⟩

/-- A text that begins with a dash, has line breaks of two characters and no last one, with settings
that make its first line a remark.  It is in a file, but where it is in the line, there is no such
file.  The diagram is written outside the working directory. -/
theorem textDecides_of_accepted_remark :
    let text := "-- x\r\nnode a"
    let mark := "[parser]\ncomment_prefix = \"--\"\n"
    let flags := ["-c", "s.toml", "project", "-o", "/out/a.json"]
    let bare : Files.Tree :=
      ⟨[(["out"], .directory none), (["work"], .directory none),
        (["work", "s.toml"], .file mark.toUTF8)], [], ["work"]⟩
    let tree : Files.Tree := bare.put ["work", "in.nd"] text.toUTF8
    let onInput : Call := ⟨flags, text.toUTF8, Files.Tree.system, tree⟩
    let inFile : Call := ⟨flags ++ ["in.nd"], ByteArray.empty, Files.Tree.system, tree⟩
    let inLine : Call := ⟨flags ++ ["--", text], ByteArray.empty, Files.Tree.system, bare⟩
    onInput.run = inFile.run ∧
      (onInput.run.1 = inLine.run.1 ∧
        ∀ file content, onInput.Writes file content ↔ inLine.Writes file content) ∧
      onInput.run.1.code = 0 ∧
      onInput.Writes ["out", "a.json"] (diagramText ⟨⟨"--"⟩, false, false⟩ text false).toUTF8 := by
  intro text mark flags bare tree onInput inFile inLine
  let config := some "s.toml"
  let action : Action := .project (some "/out/a.json") false
  let settings : Settings := ⟨⟨"--"⟩, false, false⟩
  have accepted : Request.ofArguments flags = .run ⟨config, "-", action⟩ := by decide
  have decides : TextDecides flags config action :=
    textDecides_of_accepted accepted (by decide) (by decide)
  have apart (call : Call)
      (configured : call.system.find call.files "s.toml" = .ok (.content mark.toUTF8)) :
      ∀ path ∈ config, call.system.find call.files path ≠ .ok .standardInput := by
    intro path given found
    obtain rfl : "s.toml" = path := Option.some.inj given
    rw [configured] at found
    cases found
  have inputDelivers : onInput.Delivers config action settings text :=
    ⟨"-", accepted, Call.eq_ok_of_toOption (by decide +kernel), by
      rw [decides.untouched onInput "-" (apart onInput rfl)]
      exact .standardInput rfl⟩
  have fileDelivers : inFile.Delivers config action settings text :=
    ⟨"in.nd", decides.plain "in.nd" rfl, Call.eq_ok_of_toOption (by decide +kernel), by
      rw [decides.untouched inFile "in.nd" (apart inFile rfl)]
      exact .file (by decide) rfl rfl⟩
  have lineDelivers : inLine.Delivers config action settings text :=
    ⟨text, decides.separated text, Call.eq_ok_of_toOption (by decide +kernel), by
      rw [decides.untouched inLine text (apart inLine rfl)]
      exact .inline (by decide) (by decide +kernel)⟩
  have led : tree.destination "/out/a.json" = .ok (.file ["out", "a.json"]) :=
    Call.eq_ok_of_toOption (by decide +kernel)
  have bareLed : bare.destination "/out/a.json" = .ok (.file ["out", "a.json"]) :=
    Call.eq_ok_of_toOption (by decide +kernel)
  have target : onInput.system.target onInput.files "/out/a.json" = .file ["out", "a.json"] :=
    Files.Tree.target_eq_file_iff.2 led
  have written : (onInput.system.write onInput.files "/out/a.json"
      (diagramText settings text false)).obstacle? = none :=
    congrArg Files.Written.obstacle? (Files.Tree.write_of_file led)
  have alike : ∀ path pretty, action = .project (some path) pretty →
      onInput.system.AlikeAt onInput.files bare path (diagramText settings text pretty) := by
    intro path pretty asks
    obtain ⟨given, rfl⟩ := Action.project.inj asks
    obtain rfl : "/out/a.json" = path := Option.some.inj given
    refine ⟨target.trans (Files.Tree.target_eq_file_iff.2 bareLed).symm, fun file other => ?_,
      written, congrArg Files.Written.obstacle? (Files.Tree.write_of_file bareLed)⟩
    obtain rfl : ["out", "a.json"] = file := Files.Target.file.inj (target.symm.trans other)
    rfl
  have saves : onInput.Saves "/out/a.json" (diagramText settings text false) :=
    Call.saves_of_run Files.Tree.lawful_system (Call.run_of_delivers inputDelivers)
  refine ⟨decides.same onInput _ _ settings text inputDelivers fileDelivers,
    decides.alike onInput _ _ bare settings text inputDelivers lineDelivers
      Files.Tree.lawful_system alike,
    (saves.ends written).1, (saves.leaves _ written target).1, nofun⟩

end Command

end NetDecl
