import NetDecl.Command.Run

/-!
# The program

The command line of the program: it reads the files of the system, and writes to them.
-/

namespace NetDecl.Command

/-- The obstacle that an error of the system stands for. -/
def obstacleOf (error : IO.Error) : Files.Obstacle :=
  match error with
  | .noFileOrDirectory _ _ _ => .missing
  | .inappropriateType _ 21 _ => .directory
  | .inappropriateType _ _ _ => .notDirectory
  | .invalidArgument _ 36 _ => .tooLong
  | .noSuchThing _ 6 _ => .absent
  | .resourceBusy 26 _ => .busy
  | .resourceExhausted _ 28 _ => .full
  | .permissionDenied _ _ _ => .denied
  | _ => .other error.toString

/-- What is read at a path of the system. -/
def findInSystem (path : String) : IO (Except Files.Obstacle Files.Source) := do
  try
    let handle ← IO.FS.Handle.mk path .read
    pure (.ok (.content (← handle.readBinToEnd)))
  catch error =>
    pure (.error (obstacleOf error))

/-- Whether there is something at a path of the system. -/
def hasInSystem (path : String) : IO Bool := do
  if path.isEmpty then pure false
  else ((← IO.currentDir) / path).pathExists

/-- What a request can read of the system.  The settings are read before the input, so that the
standard input has been read to its end where both come from there. -/
def Request.surroundings (request : Request) : IO Surroundings := do
  let .run invocation := request
    | pure ⟨ByteArray.empty, fun _ => false, fun _ => .error .missing⟩
  let settings ← invocation.config.toList.mapM fun path => do
    pure (path, ← findInSystem path)
  if invocation.input = "-" then
    let standardInput ← (← IO.getStdin).readBinToEnd
    pure ⟨standardInput, fun _ => false, fun path => (settings.lookup path).getD (.error .missing)⟩
  else
    let has ← hasInSystem invocation.input
    let found := settings ++ [(invocation.input, ← findInSystem invocation.input)]
    pure ⟨ByteArray.empty, fun _ => has, fun path => (found.lookup path).getD (.error .missing)⟩

/-- Bring about an effect in the system. -/
def Effect.perform : Effect → IO Ending
  | .finish ending => pure ending
  | .save path text => do
      let obstacle? ← try
          let handle ← IO.FS.Handle.mk path .write
          handle.putStr text
          handle.flush
          pure none
        catch error =>
          pure (some (obstacleOf error))
      pure (.saving path obstacle? "")

end NetDecl.Command

open NetDecl.Command in
/-- Run the program with the arguments of its command line. -/
def main (arguments : List String) : IO UInt32 := do
  let request := Request.ofArguments arguments
  let ending ← (request.effect (← request.surroundings)).perform
  IO.print ending.output
  if let some report := ending.report then
    IO.eprint report
  pure ending.code.toUInt32
