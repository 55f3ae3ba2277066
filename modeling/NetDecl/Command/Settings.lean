import NetDecl.Options
import NetDecl.Toml.Reader

/-!
# Settings

Settings are read from a TOML document with the records `parser` and `output`.  Whatever is left out
has its standard value, and what is not known is ignored.
-/

namespace NetDecl.Command

/-- How to read texts and write results. -/
structure Settings where
  /-- How to read a text. -/
  options : Options
  /-- Whether to write JSON over several lines. -/
  pretty : Bool
  /-- Whether warnings count. -/
  strict : Bool
deriving DecidableEq, Repr

namespace Settings

/-- The settings in use where none are given. -/
def standard : Settings :=
  ⟨Options.standard, false, false⟩

/-- The text that a field gives, or the standard one where it is left out. -/
def string? (standard : String) : Option Toml.Value → Option String
  | none => some standard
  | some (.string value) => some value
  | some _ => none

/-- The truth value that a field gives; false where it is left out. -/
def boolean? : Option Toml.Value → Option Bool
  | none => some false
  | some (.boolean value) => some value
  | some _ => none

/-- The fields of the record with the given name; all are left out where there is no such record. -/
def fields? (record : String) (names : List String) (entries : Toml.Entries) :
    Option (List (Option Toml.Value)) :=
  ((entries.lookup record).getD (.table .inline [])).fields? names

/-- The settings that a document gives. -/
def ofEntries? (entries : Toml.Entries) : Option Settings := do
  match ← fields? "parser" ["comment_prefix"] entries,
      ← fields? "output" ["pretty", "strict"] entries with
  | [mark], [pretty, strict] =>
      pure ⟨⟨← string? Options.defaultMark mark⟩, ← boolean? pretty, ← boolean? strict⟩
  | _, _ => none

/-- The settings that a text gives. -/
def ofText? (text : String) : Option Settings := do
  ofEntries? (← Toml.read? text)

end Settings

end NetDecl.Command
