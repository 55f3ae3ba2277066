/-!
# Files

A program knows of files what the system that it runs in answers: whether there is something at a
path, what is read there, and what writing to it comes to.  Which system that is stays open.
-/

namespace NetDecl.Files

/-- Why a file cannot be read or written. -/
inductive Obstacle where
  /-- There is nothing at the path. -/
  | missing
  /-- The path leads through a file. -/
  | notDirectory
  /-- There is a directory at the path. -/
  | directory
  /-- The path, or a name in it, is too long. -/
  | tooLong
  /-- There is nothing behind the device. -/
  | absent
  /-- The file is in use. -/
  | busy
  /-- There is no room for the content. -/
  | full
  /-- The user has no right to it. -/
  | denied
  /-- The content is not text. -/
  | notText
  /-- Anything else that a system has a sentence for. -/
  | other (sentence : String)
deriving DecidableEq, Repr

/-- The sentence for an obstacle. -/
def Obstacle.message : Obstacle → String
  | missing => "No such file or directory (os error 2)"
  | notDirectory => "Not a directory (os error 20)"
  | directory => "Is a directory (os error 21)"
  | tooLong => "File name too long (os error 36)"
  | absent => "No such device or address (os error 6)"
  | busy => "Text file busy (os error 26)"
  | full => "No space left on device (os error 28)"
  | denied => "Permission denied (os error 13)"
  | notText => "stream did not contain valid UTF-8"
  | other sentence => sentence

/-- The text that bytes are, in UTF-8. -/
def text? (content : ByteArray) : Except Obstacle String :=
  match String.fromUTF8? content with
  | some text => .ok text
  | none => .error .notText

/-- What is read at a path. -/
inductive Source where
  /-- The standard input. -/
  | standardInput
  /-- Content that is there before the program runs. -/
  | content (bytes : ByteArray)

/-- Where what is written to a path goes. -/
inductive Target (File : Type) where
  /-- Into a file, in the place of all that was in it. -/
  | file (file : File)
  /-- To the standard output. -/
  | standardOutput
  /-- To where it comes into no file and is not printed, as with most devices, or nowhere. -/
  | elsewhere
deriving DecidableEq, Repr

/-- What writing to a path comes to. -/
structure Written (State : Type) where
  /-- What was in the way. -/
  obstacle? : Option Obstacle
  /-- What came to the standard output. -/
  printed : String
  /-- The files afterwards. -/
  files : State

/-- A system of files. -/
structure System where
  /-- What there is in the system at some time. -/
  State : Type
  /-- The files that there can be in the system, each of which may have many paths. -/
  File : Type
  /-- The content of a file, if the file is there. -/
  content? : State → File → Option ByteArray
  /-- Whether there is something at a path, which may be a directory, or not readable. -/
  has : State → String → Bool
  /-- What is read at a path. -/
  find : State → String → Except Obstacle Source
  /-- Where what is written to a path goes. -/
  target : State → String → Target File
  /-- Write text to a path. -/
  write : State → String → String → Written State

end NetDecl.Files
