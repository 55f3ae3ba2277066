import NetDecl.Net
import NetDecl.Text.Case

/-!
# Keywords

The first word of a line tells what the line declares.  Case does not matter.
-/

namespace NetDecl

/-- The keyword that ends the list of members of a group. -/
def groupEnd : String :=
  "endgroup"

namespace Part

/-- The kinds of parts, in the order in which keywords are tried. -/
def all : List Part :=
  [node, edge, group]

/-- The kind of part that a keyword declares. -/
def ofKeyword? (keyword : String) : Option Part :=
  all.find? fun part => Text.sameWord keyword part.word

end Part

end NetDecl
