import NetDecl.Files

/-!
# Trees of files

A tree has all that there is in a system at some time: directories, files, devices and links, at
the places that names lead to from the root.  Paths are resolved name by name, the way that an
operating system does it.  What a program is told about itself, such as where its standard output
is, are devices and links like all others.
-/

namespace NetDecl.Files

/-! ## Names -/

/-- The names between the slashes of a path. -/
def names (path : String) : List String :=
  go path.toList
where
  /-- The names between the slashes of a text. -/
  go : List Char → List String
    | [] => [""]
    | char :: rest =>
        if char = '/' then "" :: go rest
        else
          match go rest with
          | [] => [String.singleton char]
          | name :: names => (String.singleton char ++ name) :: names

/-- The number of bytes that a name may have. -/
def nameLimit : Nat :=
  255

/-- The number of bytes that a path stays below. -/
def pathLimit : Nat :=
  4096

/-! ## Places -/

/-- The names that lead to a place from the root. -/
abbrev Place := List String

/-- A device. -/
inductive Device where
  /-- What is written to it is gone. -/
  | null
  /-- Nothing can be written to it. -/
  | full
  /-- The terminal, which is not there. -/
  | terminal
  /-- The standard input. -/
  | input
  /-- The standard output. -/
  | output
  /-- The standard output for reports. -/
  | reports
  /-- The program, which is not text and cannot be written while it runs. -/
  | program
deriving DecidableEq, Repr

/-- What is read from a device. -/
def Device.source : Device → Except Obstacle Source
  | input => .ok .standardInput
  | terminal => .error .absent
  | program => .error .notText
  | null | full | output | reports => .ok (.content ByteArray.empty)

/-- Where what is written to a device goes. -/
def Device.target : Device → Except Obstacle (Target Place)
  | output => .ok .standardOutput
  | full => .error .full
  | terminal => .error .absent
  | program => .error .busy
  | null | input | reports => .ok .elsewhere

/-- What there can be at a place. -/
inductive Item where
  /-- A directory, with what is in the way of making files in it. -/
  | directory (barrier? : Option Obstacle)
  /-- A file with its content. -/
  | file (content : ByteArray)
  /-- A device. -/
  | device (device : Device)

/-- All that there is in a system at some time. -/
structure Tree where
  /-- What there is at places.  The first entry for a place counts. -/
  entries : List (Place × Item)
  /-- The places of links, and the places that they stand for. -/
  links : List (Place × Place)
  /-- The place that paths without a slash in front are followed from. -/
  workingDirectory : Place

namespace Tree

/-- What there is at a place.  The root is always there. -/
def item? (tree : Tree) (place : Place) : Option Item :=
  if place = [] then some (.directory none) else tree.entries.lookup place

/-- The content of the file at a place. -/
def content? (tree : Tree) (place : Place) : Option ByteArray :=
  match tree.item? place with
  | some (.file content) => some content
  | _ => none

/-- The place that a link at a place stands for, or the place if there is none. -/
def unlinked (tree : Tree) (place : Place) : Place :=
  (tree.links.lookup place).getD place

/-- Follow one name from a place.  The root is the directory that the root is in. -/
def enter (tree : Tree) (place : Place) (name : String) : Except Obstacle Place :=
  match tree.item? place with
  | none => .error .missing
  | some (.file _) | some (.device _) => .error .notDirectory
  | some (.directory _) =>
      if name = "" ∨ name = "." then .ok place
      else if name = ".." then .ok place.dropLast
      else if nameLimit < name.utf8ByteSize then .error .tooLong
      else .ok (tree.unlinked (place ++ [name]))

/-- Follow the names of a path that begins with a slash from the root, and of any other from the
working directory. -/
def follow (tree : Tree) (path : String) (names : List String) : Except Obstacle Place :=
  if path = "" then .error .missing
  else if pathLimit ≤ path.utf8ByteSize then .error .tooLong
  else names.foldlM tree.enter (if path.startsWith '/' then [] else tree.workingDirectory)

/-- Whether there is something at a path. -/
def has (tree : Tree) (path : String) : Bool :=
  match tree.follow path (names path) with
  | .ok place => (tree.item? place).isSome
  | .error _ => false

/-- What is read at a path. -/
def find (tree : Tree) (path : String) : Except Obstacle Source := do
  match tree.item? (← tree.follow path (names path)) with
  | none => throw .missing
  | some (.directory _) => throw .directory
  | some (.file content) => pure (.content content)
  | some (.device device) => device.source

/-- Whether a file can be made at a place: it can be in a directory without a barrier. -/
def makeFile (tree : Tree) (place : Place) : Except Obstacle (Target Place) :=
  match tree.item? place.dropLast with
  | none => .error .missing
  | some (.file _) | some (.device _) => .error .notDirectory
  | some (.directory (some barrier)) => .error barrier
  | some (.directory none) => .ok (.file place)

/-- Where what is written to a path goes, or what is in the way.  A path that ends with a slash can
only lead to a directory. -/
def destination (tree : Tree) (path : String) : Except Obstacle (Target Place) := do
  let steps := ((names path).reverse.dropWhile (· = "")).reverse
  let upper ← tree.enter (← tree.follow path steps.dropLast) "."
  if path.endsWith '/' then throw .directory
  let place ← tree.enter upper (steps.getLast?.getD "")
  match tree.item? place with
  | none => tree.makeFile place
  | some (.directory _) => throw .directory
  | some (.file _) => pure (.file place)
  | some (.device device) => device.target

/-- Where what is written to a path goes, or nowhere if it cannot be written. -/
def target (tree : Tree) (path : String) : Target Place :=
  match tree.destination path with
  | .ok target => target
  | .error _ => .elsewhere

/-- Put content in the place of that of a file, or make a new file. -/
def put (tree : Tree) (place : Place) (content : ByteArray) : Tree :=
  { tree with entries := (place, .file content) :: tree.entries }

/-- Write text to a path. -/
def write (tree : Tree) (path text : String) : Written Tree :=
  match tree.destination path with
  | .error obstacle => ⟨some obstacle, "", tree⟩
  | .ok (.file place) => ⟨none, "", tree.put place text.toUTF8⟩
  | .ok .standardOutput => ⟨none, text, tree⟩
  | .ok .elsewhere => ⟨none, "", tree⟩

/-- The system of trees: its files are the places that there can be files at. -/
def system : System where
  State := Tree
  File := Place
  content? := content?
  has := has
  find := find
  target := target
  write := write

end Tree

end NetDecl.Files
