import NetDecl.Command.Arguments

/-!
# Spelling command lines

Whatever a command could be asked to do, there is a command line that asks for it: values are
attached to their options by an equals sign, and the input stands after a double dash, so that
neither can be taken for an option.
-/

namespace NetDecl.Command

/-- An option without a value, where it is wanted. -/
def spelledFlag (name : String) (wanted : Bool) : List String :=
  if wanted then [name] else []

/-- An option with its value, if there is one. -/
def spelledSlot (name : String) (value : Option String) : List String :=
  (value.map fun value => name ++ "=" ++ value).toList

/-- The part of a command line that names a command and its own options. -/
def Action.arguments : Action → List String
  | .parse json pretty =>
      ["parse"] ++ spelledFlag "--json" json ++ spelledFlag "--pretty" pretty
  | .validate json strict =>
      ["validate"] ++ spelledFlag "--json" json ++ spelledFlag "--strict" strict
  | .project output pretty =>
      ["project"] ++ spelledSlot "--output" output ++ spelledFlag "--pretty" pretty

/-- A command line that asks for an invocation. -/
def Invocation.arguments (invocation : Invocation) : List String :=
  spelledSlot "--config" invocation.config ++ invocation.action.arguments ++
    ["--", invocation.input]

theorem Argument.ofString_config (path : String) :
    ofString ("--config" ++ "=" ++ path) = .long "config" (some path) := by
  simp [ofString, String.toList_append]

theorem Argument.ofString_output (path : String) :
    ofString ("--output" ++ "=" ++ path) = .long "output" (some path) := by
  simp [ofString, String.toList_append]

theorem readBefore_config (path : String) (rest : List String) :
    readBefore .nothing none (("--config" ++ "=" ++ path) :: rest) =
      readBefore { Given.nothing with config := some path } none rest := by
  conv =>
    lhs
    unfold readBefore
  rw [Argument.ofString_config]
  rfl

theorem readAfter_output (scope : Scope) (given : Given) (path : String) (rest : List String) :
    readAfter scope given none (("--output" ++ "=" ++ path) :: rest) =
      (readLong scope given "output" (some path)).bind fun (given, lacking) =>
        readAfter scope given lacking rest := by
  conv =>
    lhs
    unfold readAfter
  rw [Argument.ofString_output]
  rfl

theorem readBefore_arguments (given : Given) (action : Action) (input : String) :
    readBefore given none (action.arguments ++ ["--", input]) =
      .ok (.run ⟨given.config, input, action⟩) := by
  cases action with
  | parse json pretty => cases json <;> cases pretty <;> rfl
  | validate json strict => cases json <;> cases strict <;> rfl
  | project output pretty =>
      cases output with
      | none => cases pretty <;> rfl
      | some path =>
          have named : readBefore given none
              ((Action.project (some path) pretty).arguments ++ ["--", input]) =
                (readAfter .project .nothing none (("--output" ++ "=" ++ path) ::
                  (spelledFlag "--pretty" pretty ++ ["--", input]))).map
                    (request given .project) :=
            rfl
          rw [named, readAfter_output]
          cases pretty <;> rfl

/-- Every invocation has a command line. -/
theorem Request.ofArguments_arguments (invocation : Invocation) :
    Request.ofArguments invocation.arguments = .run invocation := by
  obtain ⟨config, input, action⟩ := invocation
  have read : readBefore .nothing none (Invocation.arguments ⟨config, input, action⟩) =
      .ok (.run ⟨config, input, action⟩) := by
    cases config with
    | none => exact readBefore_arguments .nothing action input
    | some path =>
        exact (readBefore_config path _).trans
          (readBefore_arguments { Given.nothing with config := some path } action input)
  rw [Request.ofArguments, read]

end NetDecl.Command
