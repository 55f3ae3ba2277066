import NetDecl.Command.Arguments
import NetDecl.Proofs.Files.Tree

/-!
# Adding the input to a command line

A command line is read from the left.  One that asks for a command and names no input leaves a state
from which an input behind it is read, as it is or after a double dash.
-/

namespace NetDecl.Command

open Files (bind_eq_ok_iff)

/-! ## One argument -/

/-- Take in an argument other than the double dash.  The answer tells which option still lacks its
value. -/
def takeIn (scope : Scope) (given : Given) (lacking : Option Slot) (text : String) :
    Except Request (Given × Option Slot) :=
  match Argument.ofString text, lacking with
  | .plain, some slot => (given.slot text slot).map fun given => (given, none)
  | .plain, none => (given.place text).map fun given => (given, none)
  | _, some _ => .error .misuse
  | argument, none => readOption scope given argument

theorem Argument.eq_of_ofString_eq_separator {text : String}
    (isSeparator : Argument.ofString text = .separator) : text = "--" := by
  unfold Argument.ofString at isSeparator
  split at isSeparator
  · rename_i chars
    exact String.toList_injective chars
  all_goals cases isSeparator

section Equations

variable {scope : Scope} {given : Given} {lacking : Option Slot} {text : String}
  {rest : List String}

theorem readAfter_cons (notSeparator : text ≠ "--") :
    readAfter scope given lacking (text :: rest) =
      takeIn scope given lacking text >>= fun (next, lacking) =>
        readAfter scope next lacking rest := by
  unfold takeIn
  cases form : Argument.ofString text <;> cases lacking <;> simp only [readAfter, form]
  case separator.none => exact absurd (Argument.eq_of_ofString_eq_separator form) notSeparator
  case plain.none => cases given.place text <;> rfl
  case plain.some slot => cases given.slot text slot <;> rfl
  all_goals rfl

/-- Before the name of a command, every argument but the name is taken in. -/
theorem readBefore_cons (notName : ¬(Argument.ofString text = .plain ∧ lacking = none)) :
    readBefore given lacking (text :: rest) =
      takeIn .top given lacking text >>= fun (next, lacking) => readBefore next lacking rest := by
  unfold takeIn
  cases form : Argument.ofString text <;> cases lacking <;> simp only [readBefore, form]
  case plain.none => exact absurd ⟨form, rfl⟩ notName
  case plain.some slot => cases given.slot text slot <;> rfl
  all_goals rfl

theorem readBefore_name (plain : Argument.ofString text = .plain) :
    readBefore given none (text :: rest) =
      match Scope.ofName? text with
      | some scope => (readAfter scope .nothing none rest).map (request given scope)
      | none => if text = "help" then .ok (helpRequest rest) else .error .misuse := by
  cases named : Scope.ofName? text <;> simp only [readBefore, plain, named]

end Equations

/-! ## Refusing -/

/-- Where reading ends early, the answer is no command. -/
def EndsWithoutCommand {α : Type} (result : Except Request α) : Prop :=
  ∀ invocation, result ≠ .error (.run invocation)

section Ends

variable {α β : Type}

theorem EndsWithoutCommand.bind {result : Except Request α} {next : α → Except Request β}
    (ends : EndsWithoutCommand result) (nextEnds : ∀ value, EndsWithoutCommand (next value)) :
    EndsWithoutCommand (result >>= next) := by
  cases result with
  | ok value => exact nextEnds value
  | error request =>
    intro invocation same
    cases same
    exact ends invocation rfl

theorem EndsWithoutCommand.map {result : Except Request α} (ends : EndsWithoutCommand result)
    (f : α → β) : EndsWithoutCommand (result.map f) := by
  cases result with
  | ok value => exact nofun
  | error request =>
    intro invocation same
    cases same
    exact ends invocation rfl

theorem endsWithoutCommand_ite {condition : Prop} [Decidable condition]
    {first second : Except Request α} (firstEnds : EndsWithoutCommand first)
    (secondEnds : EndsWithoutCommand second) :
    EndsWithoutCommand (if condition then first else second) := by
  split
  · exact firstEnds
  · exact secondEnds

end Ends

theorem endsWithoutCommand_flag (given : Given) (flag : Flag) :
    EndsWithoutCommand (given.flag flag) := by
  cases flag with
  | help | version | verbose => exact nofun
  | _ => exact endsWithoutCommand_ite nofun nofun

theorem endsWithoutCommand_slot (given : Given) (value : String) (slot : Slot) :
    EndsWithoutCommand (given.slot value slot) := by
  cases slot <;> exact endsWithoutCommand_ite nofun nofun

theorem endsWithoutCommand_place (given : Given) (value : String) :
    EndsWithoutCommand (given.place value) :=
  endsWithoutCommand_ite nofun nofun

theorem endsWithoutCommand_readShort (scope : Scope) (given : Given) (letters : List Char) :
    EndsWithoutCommand (readShort scope given letters) := by
  induction letters generalizing given with
  | nil => exact nofun
  | cons letter letters ih =>
    unfold readShort
    split
    · exact (endsWithoutCommand_flag given _).bind ih
    · exact endsWithoutCommand_ite nofun ((endsWithoutCommand_slot given _ _).map _)
    · exact nofun

theorem endsWithoutCommand_readLong (scope : Scope) (given : Given) (name : String)
    (value : Option String) : EndsWithoutCommand (readLong scope given name value) := by
  unfold readLong
  split
  · exact (endsWithoutCommand_flag given _).map _
  · exact (endsWithoutCommand_slot given _ _).map _
  · exact nofun
  · exact nofun

theorem endsWithoutCommand_readOption (scope : Scope) (given : Given) (argument : Argument) :
    EndsWithoutCommand (readOption scope given argument) := by
  cases argument with
  | long name value => exact endsWithoutCommand_readLong scope given name value
  | short letters => exact endsWithoutCommand_readShort scope given letters
  | separator | plain => exact nofun

theorem endsWithoutCommand_readRest (given : Given) (arguments : List String) :
    EndsWithoutCommand (readRest given arguments) := by
  induction arguments generalizing given with
  | nil => exact nofun
  | cons text rest ih => exact (endsWithoutCommand_place given text).bind ih

theorem endsWithoutCommand_takeIn (scope : Scope) (given : Given) (lacking : Option Slot)
    (text : String) : EndsWithoutCommand (takeIn scope given lacking text) := by
  unfold takeIn
  split
  · exact (endsWithoutCommand_slot given _ _).map _
  · exact (endsWithoutCommand_place given _).map _
  · exact nofun
  · exact endsWithoutCommand_readOption scope given _

theorem endsWithoutCommand_readAfter (scope : Scope) (given : Given) (lacking : Option Slot)
    (arguments : List String) : EndsWithoutCommand (readAfter scope given lacking arguments) := by
  induction arguments generalizing given lacking with
  | nil => exact endsWithoutCommand_ite nofun nofun
  | cons text rest ih =>
    by_cases separator : text = "--"
    · subst separator
      cases lacking with
      | none => exact endsWithoutCommand_readRest given rest
      | some slot => exact nofun
    · rw [readAfter_cons separator]
      exact (endsWithoutCommand_takeIn scope given lacking text).bind fun _ => ih _ _

theorem endsWithoutCommand_readBefore (given : Given) (lacking : Option Slot)
    (arguments : List String) : EndsWithoutCommand (readBefore given lacking arguments) := by
  induction arguments generalizing given lacking with
  | nil => exact nofun
  | cons text rest ih =>
    by_cases name : Argument.ofString text = .plain ∧ lacking = none
    · obtain ⟨plain, rfl⟩ := name
      rw [readBefore_name plain]
      split
      · exact (endsWithoutCommand_readAfter _ _ _ _).map _
      · exact endsWithoutCommand_ite nofun nofun
    · rw [readBefore_cons name]
      exact (endsWithoutCommand_takeIn .top given lacking text).bind fun _ => ih _ _

/-- A command line asks for a command only if it is read to its end. -/
theorem Request.ofArguments_eq_run_iff {arguments : List String} {invocation : Invocation} :
    Request.ofArguments arguments = .run invocation ↔
      readBefore .nothing none arguments = .ok (.run invocation) := by
  unfold Request.ofArguments
  constructor
  · intro asks
    split at asks
    · rename_i read
      rw [read, asks]
    · rename_i refused
      rw [asks] at refused
      exact absurd refused (endsWithoutCommand_readBefore _ _ _ invocation)
  · intro read
    rw [read]

/-! ## Reading on -/

/-- What is accepted behind the name of a command leaves a state from which the rest is read. -/
theorem readAfter_append {scope : Scope} {given after : Given} {lacking : Option Slot}
    {arguments : List String} (unseparated : "--" ∉ arguments)
    (accepted : readAfter scope given lacking arguments = .ok after) (rest : List String) :
    readAfter scope given lacking (arguments ++ rest) = readAfter scope after none rest := by
  induction arguments generalizing given lacking with
  | nil =>
    cases lacking with
    | none =>
      cases accepted
      rfl
    | some slot => cases accepted
  | cons text arguments ih =>
    obtain ⟨notSeparator, unseparated⟩ := not_or.1 (mt List.mem_cons.2 unseparated)
    rw [readAfter_cons (Ne.symm notSeparator)] at accepted
    obtain ⟨⟨next, nextLacking⟩, taken, accepted⟩ := bind_eq_ok_iff.1 accepted
    rw [List.cons_append, readAfter_cons (Ne.symm notSeparator), taken]
    exact ih unseparated accepted

theorem helpRequest_ne_run (topics : List String) (invocation : Invocation) :
    helpRequest topics ≠ .run invocation := by
  unfold helpRequest
  split
  · exact nofun
  · split <;> exact nofun
  · exact nofun

/-- So does what is accepted from before the name, if it asks for a command. -/
theorem exists_readBefore_append {given : Given} {lacking : Option Slot} {arguments : List String}
    {invocation : Invocation} (unseparated : "--" ∉ arguments)
    (accepted : readBefore given lacking arguments = .ok (.run invocation)) :
    ∃ before scope after, request before scope after = .run invocation ∧ ∀ rest,
      readBefore given lacking (arguments ++ rest) =
        (readAfter scope after none rest).map (request before scope) := by
  induction arguments generalizing given lacking with
  | nil => cases accepted
  | cons text arguments ih =>
    obtain ⟨-, unseparated⟩ := not_or.1 (mt List.mem_cons.2 unseparated)
    by_cases name : Argument.ofString text = .plain ∧ lacking = none
    · obtain ⟨plain, rfl⟩ := name
      simp only [List.cons_append, readBefore_name plain] at accepted ⊢
      cases named : Scope.ofName? text with
      | none =>
        simp only [named] at accepted
        split at accepted
        · exact absurd (Except.ok.inj accepted) (helpRequest_ne_run arguments invocation)
        · cases accepted
      | some scope =>
        simp only [named] at accepted ⊢
        cases read : readAfter scope .nothing none arguments with
        | error request => rw [read] at accepted; cases accepted
        | ok after =>
          rw [read] at accepted
          cases accepted
          refine ⟨given, scope, after, rfl, fun rest => ?_⟩
          rw [readAfter_append unseparated read]
    · rw [readBefore_cons name] at accepted
      obtain ⟨⟨next, nextLacking⟩, taken, accepted⟩ := bind_eq_ok_iff.1 accepted
      obtain ⟨before, scope, after, same, reads⟩ := ih unseparated accepted
      refine ⟨before, scope, after, same, fun rest => ?_⟩
      rw [List.cons_append, readBefore_cons name, taken]
      exact reads rest

/-! ## The input -/

section Input

variable {scope : Scope} {given : Given}

/-- The state behind the input. -/
theorem readAfter_input (scope : Scope) (input : String) (unnamed : given.input = none) :
    (Argument.ofString input = .plain →
        readAfter scope given none [input] = .ok { given with input := some input }) ∧
      readAfter scope given none ["--", input] = .ok { given with input := some input } := by
  have placed : given.place input = .ok { given with input := some input } := by
    rw [Given.place, unnamed]
    rfl
  constructor
  · intro plain
    simp only [readAfter, plain, placed]
    rfl
  · change readRest given [input] = _
    rw [readRest, List.foldlM_cons, placed]
    rfl

/-- Where an input was named, another is refused. -/
theorem readAfter_dash_of_named {input : String} (named : given.input = some input) :
    readAfter scope given none ["-"] = .error .misuse := by
  change given.place "-" >>= (fun given => readAfter scope given none []) = _
  rw [Given.place, named]
  rfl

end Input

/-- A command line that asks for a command, and has room for an input, asks for the same command
with the input that is put behind it; an input that could be taken for an option is put behind a
double dash. -/
theorem Request.ofArguments_append {flags : List String} {config : Option String} {action : Action}
    (accepted : Request.ofArguments flags = .run ⟨config, "-", action⟩)
    (room : Request.ofArguments (flags ++ ["-"]) ≠ .misuse) (unseparated : "--" ∉ flags)
    (input : String) :
    (Argument.ofString input = .plain →
        Request.ofArguments (flags ++ [input]) = .run ⟨config, input, action⟩) ∧
      Request.ofArguments (flags ++ ["--", input]) = .run ⟨config, input, action⟩ := by
  obtain ⟨before, scope, after, asked, reads⟩ :=
    exists_readBefore_append unseparated (Request.ofArguments_eq_run_iff.1 accepted)
  have unnamed : after.input = none := by
    cases named : after.input with
    | none => rfl
    | some other =>
      apply absurd _ room
      rw [Request.ofArguments, reads, readAfter_dash_of_named named]
      rfl
  have same : request before scope { after with input := some input } =
      .run ⟨config, input, action⟩ := by
    simp only [request, Request.run.injEq, Invocation.mk.injEq] at asked
    obtain ⟨rfl, -, rfl⟩ := asked
    cases scope <;> rfl
  obtain ⟨plainly, separated⟩ := readAfter_input scope input unnamed
  constructor
  · intro plain
    rw [Request.ofArguments_eq_run_iff, reads, plainly plain, ← same]
    rfl
  · rw [Request.ofArguments_eq_run_iff, reads, separated, ← same]
    rfl

end NetDecl.Command
