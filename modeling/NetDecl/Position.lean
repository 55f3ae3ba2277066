/-!
# Places in a text

Lines and columns count from zero; columns count characters.  People are shown both counted from
one.
-/

namespace NetDecl

/-- A line, and a column within it. -/
structure Position where
  /-- Lines before this one. -/
  line : Nat
  /-- Characters before this one on its line. -/
  column : Nat
deriving DecidableEq, Repr, Inhabited

namespace Position

/-- The first place of a text. -/
def origin : Position :=
  ⟨0, 0⟩

/-- The first place of a line. -/
def lineStart (line : Nat) : Position :=
  ⟨line, 0⟩

/-- One more, in the 64-bit words that hold coordinates. -/
def next (coordinate : Nat) : Nat :=
  (coordinate + 1) % UInt64.size

/-- Line and column counted from one. -/
def shown (position : Position) : Nat × Nat :=
  (next position.line, next position.column)

/-- The reading order of places: by line, then by column. -/
def notAfter (left right : Position) : Bool :=
  left.line < right.line || (left.line == right.line && left.column ≤ right.column)

end Position

end NetDecl
