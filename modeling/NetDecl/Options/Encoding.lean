import NetDecl.Json.Record
import NetDecl.Options

/-!
# Options as JSON

Every option may be left out, and then has its standard value.  An array gives the options in order,
up to the first that it leaves out.
-/

namespace NetDecl

/-- Options as JSON. -/
def Options.toJson (options : Options) : Json :=
  .object [("comment_prefix", .string options.commentMark)]

/-- The options that a value says. -/
def Options.ofJson? (value : Json) : Option Options := do
  match ← value.leadingFields? ["comment_prefix"] with
  | [mark] => pure ⟨← mark.elim (some Options.defaultMark) Json.string?⟩
  | _ => none

end NetDecl
