/-!
# Comparing words without regard to case

Keywords and comment marks are compared up to the case of the letters `A` to `Z`.  Every other
character stands only for itself.
-/

namespace NetDecl.Text

/-- Whether two character sequences agree up to the case of ASCII letters. -/
def sameLetters (left right : List Char) : Bool :=
  left.map Char.toLower == right.map Char.toLower

/-- Whether two words agree up to the case of ASCII letters. -/
def sameWord (left right : String) : Bool :=
  sameLetters left.toList right.toList

end NetDecl.Text
