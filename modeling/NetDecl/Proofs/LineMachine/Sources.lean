import NetDecl.Proofs.LineMachine.Turn

/-!
# Where diagnostics come from

A diagnostic that a turn records is about a word of the declaration, about the line of the row, or
it comes from the body of the group that the row opens.  What is about the line says why: the line
starts with a word that declares nothing, or with the keyword of a declaration that has the issue.
-/

namespace NetDecl

/-- How many words a declaration needs behind its keyword. -/
def Part.wordsNeeded : Part → Nat
  | node => 1
  | edge => 3
  | group => 1

/-- The issue is about a line with the given words.  An issue about a word is about no line. -/
def Issue.IsCausedBy (mark : String) (words : List Word) : Issue → Prop
  | unexpected word => ∃ first rest, words = first :: rest ∧ first.text = word ∧
      Part.ofKeyword? word = none ∧ Text.beginsWith word mark = false
  | insufficient part => ∃ first rest, words = first :: rest ∧
      Part.ofKeyword? first.text = some part ∧ rest.length < part.wordsNeeded
  | memberless group => ∃ first name rest, words = first :: name :: rest ∧
      Part.ofKeyword? first.text = some .group ∧ name.text = group
  | parallel edge => ∃ first name rest, words = first :: name :: rest ∧
      Part.ofKeyword? first.text = some .edge ∧ name.text = edge
  | duplicated _ _ | conflicting _ | notFound _ _ | discarded _ | foreign _ _
  | listedAgain _ _ => False

namespace Issue.IsCausedBy

variable {mark : String} {words : List Word} {issue : Issue}

/-- A line that causes an issue has a first word. -/
theorem exists_eq_cons (caused : issue.IsCausedBy mark words) :
    ∃ first rest, words = first :: rest := by
  cases issue with
  | unexpected | insufficient =>
    rcases caused with ⟨first, rest, split, -⟩
    exact ⟨first, rest, split⟩
  | memberless | parallel =>
    rcases caused with ⟨first, name, rest, split, -⟩
    exact ⟨first, name :: rest, split⟩
  | duplicated | conflicting | notFound | discarded | foreign | listedAgain => cases caused

theorem isAtLine_code (caused : issue.IsCausedBy mark words) : issue.code.isAtLine = true := by
  cases issue with
  | unexpected | insufficient | memberless | parallel => rfl
  | duplicated | conflicting | notFound | discarded | foreign | listedAgain => cases caused

end Issue.IsCausedBy

namespace LineMachine

/-- Where a diagnostic comes from that a turn on the row records. -/
inductive Source (mark : String) (net : Net) (row : Row) (rows : List Row)
    (diagnostic : Diagnostic) : Prop where
  /-- It is about a word of the declaration. -/
  | declaration : diagnostic.code ∈ Code.ofDeclarations → Source mark net row rows diagnostic
  /-- It is about the line. -/
  | line (issue : Issue) :
      issue.IsCausedBy mark row.words → diagnostic = issue.atLine row.line →
      Source mark net row rows diagnostic
  /-- It is about a word in the body of a group. -/
  | body {first : Word} {rest : List Word} {header : Header} {last : OpenGroup}
      {front body : List Diagnostic} {tail : Option Tail} :
      row.words = first :: rest → Part.ofKeyword? first.text = some .group →
      readHeader net .group row rest = (some header, front) →
      readRows net (openFrom row header) rows = (last, body, tail) → diagnostic ∈ body →
      Source mark net row rows diagnostic

section Sources

variable {mark : String} {net : Net} {row : Row} {rows : List Row} {first : Word}
  {rest : List Word} {part : Part} {header : Header} {last : OpenGroup} {tail : Option Tail}
  {front body fresh : List Diagnostic} {diagnostic : Diagnostic} {after : Net}

theorem source_of_mem_readHeader (split : row.words = first :: rest)
    (found : Part.ofKeyword? first.text = some part) (notEdge : part ≠ .edge)
    {used : Option Header} (read : readHeader net part row rest = (used, fresh))
    (mem : diagnostic ∈ fresh) : Source mark net row rows diagnostic := by
  rcases of_mem_readHeader read mem with atWord | ⟨rfl, short⟩
  · exact .declaration atWord
  · have needed : 0 < part.wordsNeeded := by cases part <;> decide
    exact .line (.insufficient part) ⟨first, [], split, found, needed⟩ short

theorem source_of_mem_readEdge (split : row.words = first :: rest)
    (found : Part.ofKeyword? first.text = some .edge)
    {used : Option Edge} (read : readEdge net row rest = (used, fresh))
    (mem : diagnostic ∈ fresh) : Source mark net row rows diagnostic := by
  rcases of_mem_readEdge read mem with atWord | ⟨short, reported⟩
  · exact .declaration atWord
  · exact .line (.insufficient .edge) ⟨first, rest, split, found, short⟩ reported

/-- That a group has no members is about the line of its header. -/
theorem source_of_mem_memberless (split : row.words = first :: rest)
    (found : Part.ofKeyword? first.text = some .group)
    (read : readHeader net .group row rest = (some header, front))
    (bodyRead : readRows net (openFrom row header) rows = (last, body, tail))
    (mem : diagnostic ∈ last.memberless) : Source mark net row rows diagnostic := by
  rcases of_readHeader_eq_some read with ⟨-, name, others, rfl, rfl⟩
  rcases opened_of_readRows bodyRead with ⟨id, -, line⟩
  unfold OpenGroup.memberless at mem
  split at mem
  · rw [id, line, List.mem_singleton] at mem
    exact .line (.memberless name.text) ⟨first, name, others, split, found, rfl⟩ mem
  · cases mem

/-- All diagnostics of a turn come from one of the sources. -/
theorem Turn.source (turn : Turn mark net row rows fresh after) :
    ∀ diagnostic ∈ fresh, Source mark net row rows diagnostic := by
  intro diagnostic mem
  cases turn with
  | blank | comment => cases mem
  | unexpected split found unmarked =>
    exact .line (.unexpected _) ⟨_, _, split, rfl, found, unmarked⟩ (List.mem_singleton.1 mem)
  | noHeader split found notEdge read =>
    exact source_of_mem_readHeader split found notEdge read mem
  | node split found read => exact source_of_mem_readHeader split found Part.noConfusion read mem
  | noEdge split found read => exact source_of_mem_readEdge split found read mem
  | edge split found read _ => exact source_of_mem_readEdge split found read mem
  | parallel split found read _ =>
    rcases List.mem_append.1 mem with inFront | beside
    · exact source_of_mem_readEdge split found read inFront
    · rcases of_readEdge_eq_some read with ⟨-, name, _, _, _, rfl, -, -, id, -⟩
      exact .line (.parallel _) ⟨_, name, _, split, found, id.symm⟩ (List.mem_singleton.1 beside)
  | cutOff split found read bodyRead =>
    rcases List.mem_append.1 mem with inFront | behind
    · exact source_of_mem_readHeader split found Part.noConfusion read inFront
    · rcases List.mem_append.1 behind with listed | memberless
      · exact .body split found read bodyRead listed
      · exact source_of_mem_memberless split found read bodyRead memberless
  | memberless split found read bodyRead _ =>
    rcases List.mem_append.1 mem with inFront | behind
    · exact source_of_mem_readHeader split found Part.noConfusion read inFront
    · rcases List.mem_append.1 behind with closing | memberless
      · rcases List.mem_append.1 closing with listed | discarded
        · exact .body split found read bodyRead listed
        · exact .declaration (code_of_mem_discards discarded)
      · exact source_of_mem_memberless split found read bodyRead memberless
  | group split found read bodyRead _ =>
    rcases List.mem_append.1 mem with inFront | closing
    · exact source_of_mem_readHeader split found Part.noConfusion read inFront
    · rcases List.mem_append.1 closing with listed | discarded
      · exact .body split found read bodyRead listed
      · exact .declaration (code_of_mem_discards discarded)

/-- What is about a line is about the line of the row. -/
theorem Source.exists_isCausedBy (source : Source mark net row rows diagnostic)
    (atLine : diagnostic.code.isAtLine = true) :
    ∃ issue : Issue, issue.IsCausedBy mark row.words ∧ diagnostic = issue.atLine row.line := by
  cases source with
  | declaration code =>
    rw [Code.isAtLine_eq_false_of_mem_ofDeclarations code] at atLine
    cases atLine
  | line issue caused reported => exact ⟨issue, caused, reported⟩
  | body _ _ _ bodyRead listed =>
    rw [Code.isAtLine_eq_false_of_mem_ofMembers (code_of_mem_readRows bodyRead listed)] at atLine
    cases atLine

end Sources

end LineMachine

end NetDecl
