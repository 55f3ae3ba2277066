/-!
# Command lines

A command line names one of three commands.  Options may stand before and after the name: those that
every command has on both sides, those of the command after it.  No option is given twice on one
side, and one that has a value is given with it.  After a double dash everything is input.
-/

namespace NetDecl.Command

/-- What to do with the input. -/
inductive Action where
  /-- List what the text says. -/
  | parse (json pretty : Bool)
  /-- Say whether the text is valid. -/
  | validate (json strict : Bool)
  /-- Write the diagram of the net. -/
  | project (output : Option String) (pretty : Bool)
deriving DecidableEq, Repr

/-- A command with what it is to work on. -/
structure Invocation where
  /-- The path of the settings. -/
  config : Option String
  /-- Where the text is, or the text itself. -/
  input : String
  /-- What to do. -/
  action : Action
deriving DecidableEq, Repr

/-- What a command line asks for. -/
inductive Request where
  /-- Carry out a command. -/
  | run (invocation : Invocation)
  /-- Say how to use the program. -/
  | help
  /-- Say which version of the program this is. -/
  | version
  /-- Nothing that the program could do. -/
  | misuse
deriving DecidableEq, Repr

/-- Options without a value. -/
inductive Flag where
  /-- Say more about what is done. -/
  | verbose
  /-- Say less about what is done. -/
  | quiet
  /-- Say how to use the program. -/
  | help
  /-- Say which version of the program this is. -/
  | version
  /-- Write JSON. -/
  | json
  /-- Write JSON over several lines. -/
  | pretty
  /-- Let warnings count. -/
  | strict
deriving DecidableEq, Repr

/-- Options with a value. -/
inductive Slot where
  /-- The path of the settings. -/
  | config
  /-- The path to write to. -/
  | output
deriving DecidableEq, Repr

/-- An option. -/
inductive Switch where
  /-- One without a value. -/
  | flag (flag : Flag)
  /-- One with a value. -/
  | slot (slot : Slot)
deriving DecidableEq, Repr

/-- The side of a command line, before or after the name of the command. -/
inductive Scope where
  /-- Before the name. -/
  | top
  /-- After the name `parse`. -/
  | parse
  /-- After the name `validate`. -/
  | validate
  /-- After the name `project`. -/
  | project
deriving DecidableEq, Repr

/-- An option with its long name and the letter that is short for it. -/
structure Spelling where
  /-- The name after a double dash. -/
  long : String
  /-- The letter after a dash. -/
  short : Option Char
  /-- The option. -/
  switch : Switch
deriving DecidableEq, Repr

namespace Scope

/-- The options that may be given on every side. -/
def shared : List Spelling :=
  [⟨"verbose", some 'v', .flag .verbose⟩, ⟨"quiet", some 'q', .flag .quiet⟩,
    ⟨"config", some 'c', .slot .config⟩, ⟨"help", some 'h', .flag .help⟩]

/-- The options that may be given on one side only. -/
def own : Scope → List Spelling
  | top => [⟨"version", some 'V', .flag .version⟩]
  | parse => [⟨"json", none, .flag .json⟩, ⟨"pretty", none, .flag .pretty⟩]
  | validate => [⟨"json", none, .flag .json⟩, ⟨"strict", none, .flag .strict⟩]
  | project => [⟨"output", some 'o', .slot .output⟩, ⟨"pretty", none, .flag .pretty⟩]

/-- The options that may be given. -/
def spellings (scope : Scope) : List Spelling :=
  shared ++ scope.own

/-- The option with the given long name. -/
def long? (scope : Scope) (name : String) : Option Switch :=
  (scope.spellings.find? fun spelling => spelling.long == name).map Spelling.switch

/-- The option with the given letter. -/
def short? (scope : Scope) (letter : Char) : Option Switch :=
  (scope.spellings.find? fun spelling => spelling.short == some letter).map Spelling.switch

/-- The side after the given name of a command. -/
def ofName? (name : String) : Option Scope :=
  if name = "parse" then some parse
  else if name = "validate" then some validate
  else if name = "project" then some project
  else none

end Scope

/-- What has been given on one side. -/
structure Given where
  /-- The options without a value. -/
  flags : List Flag
  /-- The path of the settings. -/
  config : Option String
  /-- The path to write to. -/
  output : Option String
  /-- The input. -/
  input : Option String
deriving DecidableEq, Repr

namespace Given

/-- Nothing. -/
def nothing : Given :=
  ⟨[], none, none, none⟩

/-- Take in an option without a value; `verbose` may be given again. -/
def flag (given : Given) : Flag → Except Request Given
  | .help => .error .help
  | .version => .error .version
  | .verbose => .ok given
  | flag =>
      if flag ∈ given.flags then .error .misuse
      else .ok { given with flags := given.flags ++ [flag] }

/-- Take in an option with its value. -/
def slot (given : Given) (value : String) : Slot → Except Request Given
  | .config =>
      if given.config.isSome then .error .misuse else .ok { given with config := some value }
  | .output =>
      if given.output.isSome then .error .misuse else .ok { given with output := some value }

/-- Take in the input. -/
def place (given : Given) (value : String) : Except Request Given :=
  if given.input.isSome then .error .misuse else .ok { given with input := some value }

end Given

/-- The forms of an argument. -/
inductive Argument where
  /-- The double dash. -/
  | separator
  /-- A long name, perhaps with a value after an equals sign. -/
  | long (name : String) (value : Option String)
  /-- Letters, of which the last may be followed by a value. -/
  | short (letters : List Char)
  /-- Any other text. -/
  | plain
deriving DecidableEq, Repr

/-- The form of an argument. -/
def Argument.ofString (text : String) : Argument :=
  match text.toList with
  | ['-', '-'] => .separator
  | '-' :: '-' :: rest =>
      .long (String.ofList (rest.takeWhile (· != '=')))
        (match rest.dropWhile (· != '=') with
        | _ :: value => some (String.ofList value)
        | [] => none)
  | '-' :: letter :: letters => .short (letter :: letters)
  | _ => .plain

/-- A value directly after its letter, from which one equals sign is dropped. -/
def attached (text : List Char) : String :=
  match text with
  | '=' :: value => String.ofList value
  | value => String.ofList value

/-- Take in a long name.  The answer tells which option still lacks its value. -/
def readLong (scope : Scope) (given : Given) (name : String) (value : Option String) :
    Except Request (Given × Option Slot) :=
  match scope.long? name, value with
  | some (.flag flag), none => (given.flag flag).map fun given => (given, none)
  | some (.slot slot), some value => (given.slot value slot).map fun given => (given, none)
  | some (.slot slot), none => .ok (given, some slot)
  | _, _ => .error .misuse

/-- Take in letters.  The answer tells which option still lacks its value. -/
def readShort (scope : Scope) (given : Given) : List Char → Except Request (Given × Option Slot)
  | [] => .ok (given, none)
  | letter :: letters =>
      match scope.short? letter with
      | some (.flag flag) => do readShort scope (← given.flag flag) letters
      | some (.slot slot) =>
          if letters.isEmpty then .ok (given, some slot)
          else (given.slot (attached letters) slot).map fun given => (given, none)
      | none => .error .misuse

/-- Take in an option, whose value may be in the argument after it. -/
def readOption (scope : Scope) (given : Given) (argument : Argument) :
    Except Request (Given × Option Slot) :=
  match argument with
  | .long name value => readLong scope given name value
  | .short letters => readShort scope given letters
  | .separator | .plain => .error .misuse

/-- What has been given after a double dash. -/
def readRest (given : Given) (arguments : List String) : Except Request Given :=
  arguments.foldlM Given.place given

/-- Read the arguments after the name of a command; `lacking` is the option whose value is next. -/
def readAfter (scope : Scope) (given : Given) (lacking : Option Slot) :
    List String → Except Request Given
  | [] => if lacking.isSome then .error .misuse else .ok given
  | text :: rest =>
      match Argument.ofString text, lacking with
      | .plain, some slot => do readAfter scope (← given.slot text slot) none rest
      | .plain, none => do readAfter scope (← given.place text) none rest
      | _, some _ => .error .misuse
      | .separator, none => readRest given rest
      | argument, none => do
          let (given, lacking) ← readOption scope given argument
          readAfter scope given lacking rest

/-- What to do, once everything has been given. -/
def Scope.action (scope : Scope) (given : Given) : Action :=
  match scope with
  | .top | .parse => .parse (.json ∈ given.flags) (.pretty ∈ given.flags)
  | .validate => .validate (.json ∈ given.flags) (.strict ∈ given.flags)
  | .project => .project given.output (.pretty ∈ given.flags)

/-- The request of a command; what is given after its name counts more than what is given before. -/
def request (before : Given) (scope : Scope) (given : Given) : Request :=
  .run
    { config := given.config.orElse fun _ => before.config
      input := given.input.getD "-"
      action := scope.action given }

/-- The request for help about at most one command. -/
def helpRequest (topics : List String) : Request :=
  match topics with
  | [] => .help
  | [topic] => if (Scope.ofName? topic).isSome ∨ topic = "help" then .help else .misuse
  | _ => .misuse

/-- Read the arguments from before the name of a command; `lacking` is the option whose value is
next. -/
def readBefore (given : Given) (lacking : Option Slot) : List String → Except Request Request
  | [] => .error .misuse
  | text :: rest =>
      match Argument.ofString text, lacking with
      | .plain, some slot => do readBefore (← given.slot text slot) none rest
      | .plain, none =>
          match Scope.ofName? text with
          | some scope => (readAfter scope .nothing none rest).map (request given scope)
          | none => if text = "help" then .ok (helpRequest rest) else .error .misuse
      | _, some _ => .error .misuse
      | .separator, none => .error .misuse
      | argument, none => do
          let (given, lacking) ← readOption .top given argument
          readBefore given lacking rest

/-- What a command line asks for. -/
def Request.ofArguments (arguments : List String) : Request :=
  match readBefore .nothing none arguments with
  | .ok request => request
  | .error request => request

end NetDecl.Command
