import NetDecl.Command.Arguments
import NetDecl.Command.Settings
import NetDecl.Compile
import NetDecl.Files
import NetDecl.Report.Listing
import NetDecl.Report.Verdict

/-!
# Carrying out a command

A command reads its settings, then its input, and only then writes.  The standard input can be read
once.  What goes wrong ends a command with a report and nothing else.
-/

namespace NetDecl.Command

/-- What a command can read. -/
structure Surroundings where
  /-- What is left of the standard input. -/
  standardInput : ByteArray
  /-- Whether there is something at a path, which may be a directory, or not readable. -/
  has : String → Bool
  /-- What is read at a path. -/
  find : String → Except Files.Obstacle Files.Source

namespace Surroundings

/-- The bytes that are read at a path. -/
def read (surroundings : Surroundings) (path : String) : Except Files.Obstacle ByteArray :=
  (surroundings.find path).map fun source =>
    match source with
    | .standardInput => surroundings.standardInput
    | .content bytes => bytes

/-- What a command can read once it has read what a path leads to: nothing is left of the standard
input if that is where the path leads. -/
def afterReading (surroundings : Surroundings) (path : String) : Surroundings :=
  match surroundings.find path with
  | .ok .standardInput => { surroundings with standardInput := ByteArray.empty }
  | _ => surroundings

end Surroundings

/-- What ends a command. -/
inductive Failure where
  /-- The settings cannot be read. -/
  | unreadableSettings (path : String) (obstacle : Files.Obstacle)
  /-- The settings are not what settings have to be. -/
  | malformedSettings (path : String)
  /-- The options among the settings are of no use. -/
  | uselessOptions (path : String) (defect : Options.Defect)
  /-- The standard input is not text. -/
  | unreadableStandardInput (obstacle : Files.Obstacle)
  /-- The input cannot be read. -/
  | unreadableInput (path : String) (obstacle : Files.Obstacle)
  /-- The output cannot be written. -/
  | unwritableOutput (path : String) (obstacle : Files.Obstacle)
deriving DecidableEq, Repr

namespace Failure

/-- The first line of a text.  A line ends with a line feed, or with a carriage return and one. -/
def firstLine (text : String) : String :=
  let line := text.toList.takeWhile (· ≠ '\n')
  String.ofList (if line.getLast? = some '\r' then line.dropLast else line)

/-- What a failure prevented.  Of what is said about malformed settings, only the first line is
kept. -/
def context : Failure → String
  | unreadableSettings path _ => "Failed to read config: " ++ path
  | malformedSettings path => firstLine ("Failed to parse config: " ++ path)
  | uselessOptions path _ => "Invalid [parser] table in " ++ path
  | unreadableStandardInput _ => "Failed to read from stdin"
  | unreadableInput path _ => "Failed to read file: " ++ path
  | unwritableOutput path _ => "Failed to write to: " ++ path

/-- Why it failed. -/
def cause? : Failure → Option String
  | unreadableSettings _ obstacle | unreadableStandardInput obstacle
  | unreadableInput _ obstacle | unwritableOutput _ obstacle => some obstacle.message
  | malformedSettings _ => none
  | uselessOptions _ defect => some defect.message

/-- The report of a failure. -/
def report (failure : Failure) : String :=
  "Error: " ++ failure.context ++
    match failure.cause? with
    | some cause => "\n\nCaused by:\n    " ++ cause ++ "\n"
    | none => ""

end Failure

/-- How a run of the program ends. -/
structure Ending where
  /-- The exit code. -/
  code : Nat
  /-- What is printed. -/
  output : String
  /-- What is reported. -/
  report : Option String
deriving DecidableEq, Repr

namespace Ending

/-- The ending of a run that prints something. -/
def printing (output : String) : Ending :=
  ⟨0, output, none⟩

/-- The ending of a run that fails. -/
def failing (failure : Failure) : Ending :=
  ⟨1, "", some failure.report⟩

/-- The ending of a run that has tried to write to a path, where there was an obstacle or none, and
something was printed or nothing. -/
def saving (path : String) (obstacle? : Option Files.Obstacle) (printed : String) : Ending :=
  match obstacle? with
  | none => printing printed
  | some obstacle => { failing (.unwritableOutput path obstacle) with output := printed }

end Ending

/-- What is left to do once a command has read everything. -/
inductive Effect where
  /-- End. -/
  | finish (ending : Ending)
  /-- Write text to a path, and then end. -/
  | save (path text : String)
deriving DecidableEq, Repr

/-- Read the settings. -/
def loadSettings (surroundings : Surroundings) : Option String → Except Failure Settings
  | none => .ok .standard
  | some path => do
      let text ← ((surroundings.read path).bind Files.text?).mapError (.unreadableSettings path)
      match Settings.ofText? text with
      | none => .error (.malformedSettings path)
      | some settings =>
          match settings.options.defect? with
          | some defect => .error (.uselessOptions path defect)
          | none => .ok settings

/-- Read the input: a dash stands for the standard input, a path for the file that it leads to, and
anything else for itself. -/
def loadInput (surroundings : Surroundings) (input : String) : Except Failure String :=
  if input = "-" then
    (Files.text? surroundings.standardInput).mapError .unreadableStandardInput
  else if surroundings.has input then
    ((surroundings.read input).bind Files.text?).mapError (.unreadableInput input)
  else .ok input

/-- The text of a value and a line end. -/
def jsonLine (value : Json) (pretty : Bool) : String :=
  (if pretty then value.pretty else value.compact) ++ "\n"

/-- What a command does with an outcome. -/
def Action.effect (action : Action) (settings : Settings) (outcome : Outcome) : Effect :=
  match action with
  | .parse json pretty =>
      .finish (.printing
        (if json then jsonLine outcome.listingJson (pretty || settings.pretty)
        else outcome.listing))
  | .validate json strict =>
      let verdict := outcome.verdict (strict || settings.strict)
      let output := if json then jsonLine verdict.toJson true else verdict.text
      .finish ⟨if verdict.valid then 0 else 1, output, none⟩
  | .project output pretty =>
      let content := jsonLine outcome.net.project.toJson (pretty || settings.pretty)
      match output with
      | some path => .save path content
      | none => .finish (.printing content)

/-- Carry out a command up to its effect. -/
def Invocation.effect (invocation : Invocation) (surroundings : Surroundings) :
    Except Failure Effect := do
  let settings ← loadSettings surroundings invocation.config
  let text ← loadInput (invocation.config.elim surroundings surroundings.afterReading)
    invocation.input
  pure (invocation.action.effect settings (compile settings.options text))

/-- What is said about how to use the program. -/
def usage : String :=
  "Usage: nd-cli [OPTIONS] <COMMAND>\n\n" ++
    "Commands:\n" ++
    "  parse     Print diagnostics, the net and its diagram\n" ++
    "  validate  Print whether the input is valid\n" ++
    "  project   Write the diagram as JSON\n" ++
    "  help      Print this message\n\n" ++
    "Options:\n" ++
    "  -v, --verbose          Say more about what is done\n" ++
    "  -q, --quiet            Say less about what is done\n" ++
    "  -c, --config <CONFIG>  TOML file with tables parser and output\n" ++
    "  -h, --help             Print help\n" ++
    "  -V, --version          Print version\n"

/-- The effect of a request. -/
def Request.effect (request : Request) (surroundings : Surroundings) : Effect :=
  match request with
  | .run invocation =>
      match invocation.effect surroundings with
      | .ok effect => effect
      | .error failure => .finish (.failing failure)
  | .help => .finish (.printing usage)
  | .version => .finish (.printing "nd-cli 0.1.0\n")
  | .misuse => .finish ⟨2, "", some usage⟩

/-- Bring an effect about in a system of files.  The answer gives the files as they are
afterwards. -/
def Effect.on (effect : Effect) (system : Files.System) (files : system.State) :
    Ending × system.State :=
  match effect with
  | .finish ending => (ending, files)
  | .save path text =>
      let written := system.write files path text
      (.saving path written.obstacle? written.printed, written.files)

/-- Run the program in a system of files.  The answer gives the files as they are afterwards. -/
def run (arguments : List String) (standardInput : ByteArray) (system : Files.System)
    (files : system.State) : Ending × system.State :=
  ((Request.ofArguments arguments).effect ⟨standardInput, system.has files, system.find files⟩).on
    system files

end NetDecl.Command
