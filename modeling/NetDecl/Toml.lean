/-!
# TOML documents

A document is a tree of tables.  A table may be made in four ways, which limit how it can be added
to later: by a header of its own, by the header of a table within it, by a dotted key, or between
braces.  Tables may also be declared one after the other under one name.  Nothing else is ever
declared twice.
-/

namespace NetDecl

namespace Toml

/-- How a table came to be. -/
inductive Origin where
  /-- By a header that names it. -/
  | header
  /-- By a header that names a table within it. -/
  | outer
  /-- By a dotted key. -/
  | dotted
  /-- Between braces. -/
  | inline
deriving DecidableEq, Repr

/-- A value. -/
inductive Value where
  /-- A text. -/
  | string (value : String)
  /-- A truth value. -/
  | boolean (value : Bool)
  /-- A whole number. -/
  | integer (value : Int)
  /-- A number with a fraction or an exponent, or one that is none, as it is written. -/
  | float (numeral : String)
  /-- A date, a time, or both, as it is written. -/
  | date (text : String)
  /-- Values between brackets. -/
  | array (items : List Value)
  /-- Named values, in order. -/
  | table (origin : Origin) (entries : List (String × Value))
  /-- Tables declared one after the other. -/
  | tables (elements : List (List (String × Value)))
deriving Repr, Inhabited

/-- The named values of a table. -/
abbrev Entries :=
  List (String × Value)

/-- The values of named fields, in their order: a table gives them by name, and an array one by
one.  A date has none of them, and any other value is no record at all. -/
def Value.fields? (names : List String) : Value → Option (List (Option Value))
  | .table _ entries => some (names.map fun name => entries.lookup name)
  | .array items => some ((List.range names.length).map fun index => items[index]?)
  | .tables elements =>
      some ((List.range names.length).map fun index =>
        (elements[index]?).map fun entries => .table .header entries)
  | .date _ => some (names.map fun _ => none)
  | _ => none

/-- Put a value in the place of the one with the given name. -/
def replace (name : String) (value : Value) (entries : Entries) : Entries :=
  entries.map fun entry => if entry.1 = name then (name, value) else entry

/-- Change the last of some tables. -/
def changeLast? (change : Entries → Option Entries) : List Entries → Option (List Entries)
  | [] => none
  | [last] => (change last).map fun changed => [changed]
  | first :: rest => (changeLast? change rest).map fun changed => first :: changed

/-- Change the table that a path leads to, which is told how it came to be.  A table on the way
must be of an origin that `admits` allows; one that is missing is made with the origin `fresh`; and
of tables declared one after the other, the last one is meant. -/
def alter? (fresh : Origin) (admits : Origin → Bool) (change : Origin → Entries → Option Entries)
    (origin : Origin) : List String → Entries → Option Entries
  | [], entries => change origin entries
  | key :: path, entries =>
      match entries.lookup key with
      | none => do
          let inner ← alter? fresh admits change fresh path []
          some (entries ++ [(key, .table fresh inner)])
      | some (.table origin inner) =>
          if admits origin then do
            let inner ← alter? fresh admits change origin path inner
            some (replace key (.table origin inner) entries)
          else none
      | some (.tables elements) => do
          let elements ← changeLast? (alter? fresh admits change .header path) elements
          some (replace key (.tables elements) entries)
      | some _ => none

/-- Add a value to a table under a name that is free. -/
def add? (name : String) (value : Value) (entries : Entries) : Option Entries :=
  if (entries.lookup name).isSome then none else some (entries ++ [(name, value)])

/-- Add a value under a dotted key: `path` leads to the table in which it is called `name`.  A table
with a header of its own, or between braces, is closed to dotted keys, and only one made by a dotted
key takes in the value. -/
def insert? (path : List String) (name : String) (value : Value) (entries : Entries) :
    Option Entries :=
  if path = [] then add? name value entries
  else
    alter? .dotted (fun origin => origin == .outer || origin == .dotted)
      (fun origin entries => if origin = .dotted then add? name value entries else none)
      .header path entries

/-- Change the table at a path by a header, which may lead anywhere but between braces. -/
def declare? (path : List String) (change : Entries → Option Entries) (entries : Entries) :
    Option Entries :=
  alter? .outer (fun origin => origin != .inline) (fun _ entries => change entries) .header path
    entries

/-- Declare a table by its header.  It may be there already because of the tables within it. -/
def declareTable? (name : String) (entries : Entries) : Option Entries :=
  match entries.lookup name with
  | none => some (entries ++ [(name, .table .header [])])
  | some (.table .outer inner) => some (replace name (.table .header inner) entries)
  | some _ => none

/-- Declare one more of the tables with a name. -/
def declareElement? (name : String) (entries : Entries) : Option Entries :=
  match entries.lookup name with
  | none => some (entries ++ [(name, .tables [[]])])
  | some (.tables elements) => some (replace name (.tables (elements ++ [[]])) entries)
  | some _ => none

/-- A key: its last part is a name in the table that the others lead to. -/
structure Key where
  /-- The parts before the last. -/
  path : List String
  /-- The last part. -/
  name : String
deriving DecidableEq, Repr

/-- A value with the key that it is declared under. -/
structure Setting where
  /-- The key. -/
  key : Key
  /-- The value. -/
  value : Value
deriving Repr

/-- Add a setting to a table. -/
def Setting.addTo? (setting : Setting) (entries : Entries) : Option Entries :=
  insert? setting.key.path setting.key.name setting.value entries

/-- The entries that settings make up between braces. -/
def collect? (settings : List Setting) : Option Entries :=
  settings.foldlM (fun entries setting => setting.addTo? entries) []

/-- A statement of a document. -/
inductive Statement where
  /-- The header of a table. -/
  | header (key : Key)
  /-- The header of one of several tables. -/
  | element (key : Key)
  /-- A setting in the table of the last header. -/
  | setting (setting : Setting)
deriving Repr

/-- A document up to some statement. -/
structure Document where
  /-- The values declared so far. -/
  entries : Entries
  /-- The path of the last header. -/
  current : List String
deriving Repr

namespace Document

/-- A document without statements. -/
def empty : Document :=
  ⟨[], []⟩

/-- Add a statement to a document. -/
def add? (document : Document) : Statement → Option Document
  | .header key => do
      let entries ← declare? key.path (declareTable? key.name) document.entries
      some ⟨entries, key.path ++ [key.name]⟩
  | .element key => do
      let entries ← declare? key.path (declareElement? key.name) document.entries
      some ⟨entries, key.path ++ [key.name]⟩
  | .setting setting => do
      let entries ← declare? document.current setting.addTo? document.entries
      some { document with entries }

end Document

end Toml

end NetDecl
