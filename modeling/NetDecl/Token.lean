import NetDecl.Position
import NetDecl.Text.Bytes
import NetDecl.Text.Case

/-!
# Tokens

A text is read as words, the breaks that end its lines, and one mark for its end.  Each token
carries its own text and its place: counted in characters and in bytes from the start of the text,
and with the line that it stands on.
-/

namespace NetDecl

/-- A line of the text.  Its length leaves out the break at its end, and is zero until the whole
line has been read. -/
structure Line where
  /-- Lines before this one. -/
  index : Nat
  /-- Characters of the text before this line. -/
  start : Nat
  /-- Characters on this line. -/
  length : Nat
deriving DecidableEq, Repr, Inhabited

namespace Line

/-- The first line of a text of which nothing has been read. -/
def first : Line :=
  ⟨0, 0, 0⟩

/-- Where the line begins. -/
def position (line : Line) : Position :=
  Position.lineStart line.index

end Line

/-- The kinds of pieces that a text is read as. -/
inductive Token.Kind where
  /-- Characters between blanks. -/
  | word
  /-- The break at the end of a line. -/
  | lineEnd
  /-- The end of the text, an empty piece. -/
  | textEnd
deriving DecidableEq, Repr

/-- A piece of the text. -/
structure Token where
  /-- What kind of piece this is. -/
  kind : Token.Kind
  /-- The characters of the piece. -/
  text : String
  /-- The line it stands on. -/
  line : Nat
  /-- Characters of the text before that line. -/
  lineStart : Nat
  /-- Characters of the text before the piece. -/
  start : Nat
  /-- Characters of the text up to the end of the piece. -/
  stop : Nat
  /-- Bytes of the text before the piece. -/
  byteStart : Nat
  /-- Bytes of the text up to the end of the piece. -/
  byteStop : Nat
deriving DecidableEq, Repr

namespace Token

/-- Where the piece begins. -/
def position (token : Token) : Position :=
  ⟨token.line, token.start - token.lineStart⟩

/-- The number of its characters. -/
def length (token : Token) : Nat :=
  token.stop - token.start

/-- Whether the piece has no characters. -/
def isEmpty (token : Token) : Bool :=
  token.stop == token.start

/-- Whether the piece is a word. -/
def isWord (token : Token) : Bool :=
  token.kind == .word

/-- Whether the piece ends a line, by a break or by the end of the text. -/
def isBoundary (token : Token) : Bool :=
  token.kind != .word

/-- Whether the piece is the end of the text. -/
def isTextEnd (token : Token) : Bool :=
  token.kind == .textEnd

/-- Whether the piece is the given keyword, in whatever case. -/
def isKeyword (token : Token) (keyword : String) : Bool :=
  token.isWord && Text.sameWord token.text keyword

/-- Whether the piece is a word that begins with `mark`, in whatever case. -/
def beginsWith (token : Token) (mark : String) : Bool :=
  token.isWord && Text.beginsWith token.text mark

end Token

end NetDecl
