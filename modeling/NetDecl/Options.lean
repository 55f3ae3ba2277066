import NetDecl.Text.Blank
import NetDecl.Text.Quoted

/-!
# Options

A line whose first word begins with the comment mark is a comment.  A mark that is empty or contains
a blank is of no use: such a mark is reported to whoever checks the options, and replaced by the
default where a text is read anyway.
-/

namespace NetDecl

/-- How to read a text. -/
structure Options where
  /-- What the first word of a comment line begins with. -/
  commentMark : String
deriving DecidableEq, Repr

/-- What is wrong with options. -/
inductive Options.Defect where
  /-- The comment mark is empty. -/
  | emptyMark
  /-- The comment mark contains a blank. -/
  | blankInMark (mark : String)
deriving DecidableEq, Repr

/-- The sentence for a defect. -/
def Options.Defect.message : Options.Defect → String
  | emptyMark => "comment prefix must not be empty"
  | blankInMark mark =>
      "comment prefix " ++ Text.quoted mark ++ " contains whitespace and could never match a token"

namespace Options

/-- The comment mark in use where none is given. -/
def defaultMark : String :=
  "//"

/-- The options in use where none are given. -/
def standard : Options :=
  ⟨defaultMark⟩

/-- The defect of options that are of no use. -/
def defect? (options : Options) : Option Defect :=
  if options.commentMark.toList.isEmpty then some .emptyMark
  else if options.commentMark.toList.any Text.isBlank then some (.blankInMark options.commentMark)
  else none

/-- The comment mark that counts. -/
def effectiveMark (options : Options) : String :=
  match options.defect? with
  | some _ => defaultMark
  | none => options.commentMark

end Options

end NetDecl
