import NetDecl.Command.Run

/-!
# What a command reads

A command that is asked for refuses its settings, or else its input, or else it reads both and has
an effect.  The ways to refuse are listed here one by one, each with the failure that it ends in.
-/

namespace NetDecl.Command

/-! ## Refusing -/

section Refusing

variable (surroundings : Surroundings)

/-- The ways in which a command refuses the settings at a path. -/
inductive RefusesSettings (path : String) : Failure → Prop
  /-- There is nothing to be read at the path. -/
  | unreadable {obstacle : Files.Obstacle} (read : surroundings.read path = .error obstacle) :
      RefusesSettings path (.unreadableSettings path obstacle)
  /-- What is read is not text. -/
  | notText {content : ByteArray} (read : surroundings.read path = .ok content)
      (notText : String.fromUTF8? content = none) :
      RefusesSettings path (.unreadableSettings path .notText)
  /-- The text is no document with settings. -/
  | malformed {content : ByteArray} {text : String} (read : surroundings.read path = .ok content)
      (decoded : String.fromUTF8? content = some text) (malformed : Settings.ofText? text = none) :
      RefusesSettings path (.malformedSettings path)
  /-- The comment mark that is set could never match a word. -/
  | useless {content : ByteArray} {text : String} {settings : Settings} {defect : Options.Defect}
      (read : surroundings.read path = .ok content)
      (decoded : String.fromUTF8? content = some text)
      (given : Settings.ofText? text = some settings)
      (useless : settings.options.defect? = some defect) :
      RefusesSettings path (.uselessOptions path defect)

/-- The ways in which a command refuses its input. -/
inductive RefusesInput : String → Failure → Prop
  /-- The standard input is not text. -/
  | standardInput (notText : String.fromUTF8? surroundings.standardInput = none) :
      RefusesInput "-" (.unreadableStandardInput .notText)
  /-- There is something at the path, but it cannot be read. -/
  | unreadable {path : String} {obstacle : Files.Obstacle} (isPath : path ≠ "-")
      (has : surroundings.has path = true) (read : surroundings.read path = .error obstacle) :
      RefusesInput path (.unreadableInput path obstacle)
  /-- What is read at the path is not text. -/
  | notText {path : String} {content : ByteArray} (isPath : path ≠ "-")
      (has : surroundings.has path = true) (read : surroundings.read path = .ok content)
      (notText : String.fromUTF8? content = none) :
      RefusesInput path (.unreadableInput path .notText)

variable {surroundings} {path input : String} {failure : Failure}

theorem text?_eq_ok_iff {content : ByteArray} {text : String} :
    Files.text? content = .ok text ↔ String.fromUTF8? content = some text := by
  unfold Files.text?
  cases String.fromUTF8? content <;> simp

theorem text?_eq_error_iff {content : ByteArray} {obstacle : Files.Obstacle} :
    Files.text? content = .error obstacle ↔
      String.fromUTF8? content = none ∧ obstacle = .notText := by
  unfold Files.text?
  cases String.fromUTF8? content <;> simp [eq_comm]

theorem read_bind_text?_eq_ok_iff {text : String} :
    (surroundings.read path).bind Files.text? = .ok text ↔
      ∃ content, surroundings.read path = .ok content ∧ String.fromUTF8? content = some text := by
  cases surroundings.read path with
  | error obstacle => simp [Except.bind]
  | ok content => simp [Except.bind, text?_eq_ok_iff]

theorem read_bind_text?_eq_error_iff {obstacle : Files.Obstacle} :
    (surroundings.read path).bind Files.text? = .error obstacle ↔
      surroundings.read path = .error obstacle ∨
        ∃ content, surroundings.read path = .ok content ∧ String.fromUTF8? content = none ∧
          obstacle = .notText := by
  cases surroundings.read path with
  | error other => simp [Except.bind]
  | ok content => simp [Except.bind, text?_eq_error_iff]

theorem loadSettings_of_error {obstacle : Files.Obstacle}
    (read : (surroundings.read path).bind Files.text? = .error obstacle) :
    loadSettings surroundings (some path) = .error (.unreadableSettings path obstacle) := by
  rw [loadSettings, read]
  rfl

theorem loadSettings_of_text {text : String}
    (read : (surroundings.read path).bind Files.text? = .ok text) :
    loadSettings surroundings (some path) =
      match Settings.ofText? text with
      | none => .error (.malformedSettings path)
      | some settings =>
          match settings.options.defect? with
          | some defect => .error (.uselessOptions path defect)
          | none => .ok settings := by
  rw [loadSettings, read]
  rfl

/-- The settings are refused in the listed ways only. -/
theorem loadSettings_eq_error_iff :
    loadSettings surroundings (some path) = .error failure ↔
      RefusesSettings surroundings path failure := by
  constructor
  · intro refused
    cases read : (surroundings.read path).bind Files.text? with
    | error obstacle =>
        rw [loadSettings_of_error read, Except.error.injEq] at refused
        subst refused
        rcases read_bind_text?_eq_error_iff.1 read with unreadable | ⟨content, found, notText, rfl⟩
        · exact .unreadable unreadable
        · exact .notText found notText
    | ok text =>
        rw [loadSettings_of_text read] at refused
        obtain ⟨content, found, decoded⟩ := read_bind_text?_eq_ok_iff.1 read
        cases given : Settings.ofText? text with
        | none =>
            simp only [given, Except.error.injEq] at refused
            subst refused
            exact .malformed found decoded given
        | some settings =>
            cases useless : settings.options.defect? with
            | none => simp only [given, useless, reduceCtorEq] at refused
            | some defect =>
                simp only [given, useless, Except.error.injEq] at refused
                subst refused
                exact .useless found decoded given useless
  · rintro (⟨read⟩ | ⟨read, notText⟩ | ⟨read, decoded, malformed⟩ |
      ⟨read, decoded, given, useless⟩)
    · exact loadSettings_of_error (read_bind_text?_eq_error_iff.2 (.inl read))
    · exact loadSettings_of_error
        (read_bind_text?_eq_error_iff.2 (.inr ⟨_, read, notText, rfl⟩))
    · rw [loadSettings_of_text (read_bind_text?_eq_ok_iff.2 ⟨_, read, decoded⟩), malformed]
    · rw [loadSettings_of_text (read_bind_text?_eq_ok_iff.2 ⟨_, read, decoded⟩), given]
      simp only [useless]

/-- The input is refused in the listed ways only. -/
theorem loadInput_eq_error_iff :
    loadInput surroundings input = .error failure ↔ RefusesInput surroundings input failure := by
  unfold loadInput
  constructor
  · intro refused
    split at refused
    case isTrue dash =>
      subst dash
      cases read : Files.text? surroundings.standardInput with
      | ok text => rw [read] at refused; cases refused
      | error obstacle =>
          obtain ⟨notText, rfl⟩ := text?_eq_error_iff.1 read
          rw [read] at refused
          cases refused
          exact .standardInput notText
    case isFalse isPath =>
      split at refused
      case isFalse => cases refused
      case isTrue has =>
        cases read : (surroundings.read input).bind Files.text? with
        | ok text => rw [read] at refused; cases refused
        | error obstacle =>
            rw [read] at refused
            cases refused
            rcases read_bind_text?_eq_error_iff.1 read with
              unreadable | ⟨content, found, notText, rfl⟩
            · exact .unreadable isPath has unreadable
            · exact .notText isPath has found notText
  · rintro (⟨notText⟩ | ⟨isPath, has, read⟩ | ⟨isPath, has, read, notText⟩)
    · rw [if_pos rfl, text?_eq_error_iff.2 ⟨notText, rfl⟩]
      rfl
    · rw [if_neg isPath, if_pos has, read_bind_text?_eq_error_iff.2 (.inl read)]
      rfl
    · rw [if_neg isPath, if_pos has,
        read_bind_text?_eq_error_iff.2 (.inr ⟨_, read, notText, rfl⟩)]
      rfl

end Refusing

/-! ## Calls -/

/-- What the program is run on. -/
structure Call where
  /-- The arguments of the command line. -/
  arguments : List String
  /-- The standard input. -/
  standardInput : ByteArray
  /-- The system that the program runs in. -/
  system : Files.System
  /-- The files before the run. -/
  files : system.State

/-- What a command can read once it has read its settings. -/
def Invocation.afterSettings (invocation : Invocation) (surroundings : Surroundings) :
    Surroundings :=
  invocation.config.elim surroundings surroundings.afterReading

namespace Call

/-- How the program ends, and the files afterwards. -/
def run (call : Call) : Ending × call.system.State :=
  Command.run call.arguments call.standardInput call.system call.files

/-- What the program can read. -/
def surroundings (call : Call) : Surroundings :=
  ⟨call.standardInput, call.system.has call.files, call.system.find call.files⟩

/-- The call asks for an invocation, which reads the given settings and the given text. -/
structure Reads (call : Call) (invocation : Invocation) (settings : Settings) (text : String) :
    Prop where
  asks : Request.ofArguments call.arguments = .run invocation
  settings_eq : loadSettings call.surroundings invocation.config = .ok settings
  text_eq : loadInput (invocation.afterSettings call.surroundings) invocation.input = .ok text

variable {call : Call} {invocation : Invocation}
  (asks : Request.ofArguments call.arguments = .run invocation)
include asks

theorem run_eq :
    call.run = (match invocation.effect call.surroundings with
      | .ok effect => effect
      | .error failure => .finish (.failing failure)).on call.system call.files := by
  rw [run, Command.run, asks]
  rfl

theorem run_of_refusesSettings {path : String} {failure : Failure}
    (configured : invocation.config = some path)
    (refuses : RefusesSettings call.surroundings path failure) :
    call.run = (.failing failure, call.files) := by
  have refused : invocation.effect call.surroundings = .error failure := by
    rw [Invocation.effect, configured, loadSettings_eq_error_iff.2 refuses]
    rfl
  rw [run_eq asks, refused]
  rfl

theorem run_of_refusesInput {settings : Settings} {failure : Failure}
    (loaded : loadSettings call.surroundings invocation.config = .ok settings)
    (refuses : RefusesInput (invocation.afterSettings call.surroundings) invocation.input
      failure) :
    call.run = (.failing failure, call.files) := by
  have refused : invocation.effect call.surroundings = .error failure := by
    have input := loadInput_eq_error_iff.2 refuses
    rw [Invocation.afterSettings] at input
    rw [Invocation.effect, loaded]
    simp only [bind, Except.bind, input]
  rw [run_eq asks, refused]
  rfl

omit asks in
theorem run_of_reads {settings : Settings} {text : String}
    (reads : call.Reads invocation settings text) :
    call.run = (invocation.action.effect settings (compile settings.options text)).on
      call.system call.files := by
  have done : invocation.effect call.surroundings =
      .ok (invocation.action.effect settings (compile settings.options text)) := by
    have input := reads.text_eq
    rw [Invocation.afterSettings] at input
    rw [Invocation.effect, reads.settings_eq]
    simp only [bind, Except.bind, input]
    rfl
  rw [run_eq reads.asks, done]

/-- A command refuses its settings, or else its input, or else it reads both. -/
theorem refuses_or_reads :
    (∃ path failure, invocation.config = some path ∧
      RefusesSettings call.surroundings path failure) ∨
    (∃ settings failure, loadSettings call.surroundings invocation.config = .ok settings ∧
      RefusesInput (invocation.afterSettings call.surroundings) invocation.input failure) ∨
    ∃ settings text, call.Reads invocation settings text := by
  cases loaded : loadSettings call.surroundings invocation.config with
  | error failure =>
      left
      cases configured : invocation.config with
      | none => rw [configured] at loaded; cases loaded
      | some path =>
          rw [configured] at loaded
          exact ⟨path, failure, rfl, loadSettings_eq_error_iff.1 loaded⟩
  | ok settings =>
      right
      cases read : loadInput (invocation.afterSettings call.surroundings) invocation.input with
      | error failure => exact .inl ⟨settings, failure, rfl, loadInput_eq_error_iff.1 read⟩
      | ok text => exact .inr ⟨settings, text, asks, loaded, read⟩

end Call

end NetDecl.Command
