import NetDecl.Proofs.Compile.Anchored
import NetDecl.Proofs.Compile.Owners
import NetDecl.Proofs.Text.Printed

/-!
# What messages name

A message quotes words of the text and names of groups that have been declared, which are words of
the text too, and nothing else of it.  So there is no line break in a message.
-/

namespace NetDecl

theorem Part.unbroken_word (part : Part) : Text.Unbroken part.word := by
  cases part <;> decide

theorem Role.unbroken_words (role : Role) : Text.Unbroken role.words := by
  cases role <;> decide

namespace Issue

/-- What a message quotes. -/
def quotes : Issue → List String
  | unexpected word | discarded word => [word]
  | duplicated _ id | conflicting id | notFound _ id => [id]
  | insufficient _ => []
  | foreign node group | listedAgain node group => [node, group]
  | memberless group => [group]
  | parallel edge => [edge]

/-- The fixed parts of messages have no line breaks. -/
theorem unbroken_message {issue : Issue}
    (unbroken : ∀ quoted ∈ issue.quotes, Text.Unbroken quoted) : Text.Unbroken issue.message := by
  cases issue with
  | unexpected word =>
    have quoted := unbroken word List.mem_cons_self
    exact (Text.Unbroken.append (by decide) quoted).append (by decide)
  | duplicated part id =>
    have quoted := unbroken id List.mem_cons_self
    have front : Text.Unbroken "duplicated " := by decide
    exact ((front.append part.unbroken_word).append (by decide)).append quoted
  | conflicting id =>
    have quoted := unbroken id List.mem_cons_self
    exact .append (by decide) quoted
  | notFound role id =>
    have quoted := unbroken id List.mem_cons_self
    exact ((role.unbroken_words.append (by decide)).append quoted).append (by decide)
  | insufficient part =>
    exact (Text.Unbroken.append (by decide) part.unbroken_word).append (by decide)
  | discarded word =>
    have quoted := unbroken word List.mem_cons_self
    exact .append (by decide) quoted
  | foreign node group =>
    rcases List.forall_mem_cons.1 unbroken with ⟨quoted, others⟩
    have owner := others group List.mem_cons_self
    exact ((Text.Unbroken.append (by decide) quoted).append (by decide)).append owner
  | listedAgain node group =>
    rcases List.forall_mem_cons.1 unbroken with ⟨quoted, others⟩
    have owner := others group List.mem_cons_self
    exact ((Text.Unbroken.append (by decide) quoted).append (by decide)).append owner
  | memberless group =>
    have quoted := unbroken group List.mem_cons_self
    exact (Text.Unbroken.append (by decide) quoted).append (by decide)
  | parallel edge =>
    have quoted := unbroken edge List.mem_cons_self
    exact .append (by decide) quoted

theorem code_ne_success (issue : Issue) : issue.code ≠ .success := by
  cases issue <;> exact Code.noConfusion

end Issue

/-- The message of the diagnostic is that of an issue, and quotes words only. -/
def Diagnostic.QuotesWords (diagnostic : Diagnostic) : Prop :=
  ∃ issue : Issue, diagnostic.message = issue.message ∧
    ∀ quoted ∈ issue.quotes, Text.IsWord quoted

theorem Diagnostic.QuotesWords.unbroken {diagnostic : Diagnostic}
    (quotesWords : diagnostic.QuotesWords) : Text.Unbroken diagnostic.message := by
  rcases quotesWords with ⟨issue, same, words⟩
  rw [same]
  exact issue.unbroken_message fun quoted mem => (words quoted mem).2.unbroken

theorem Diagnostic.IsAbout.code_ne_success {diagnostic : Diagnostic} {rows : List Row}
    (about : diagnostic.IsAbout rows) : diagnostic.code ≠ .success := by
  cases about with
  | @word row word issue _ _ _ same =>
    rw [same]
    exact issue.code_ne_success
  | @line row issue _ _ same =>
    rw [same]
    exact issue.code_ne_success

/-! ## Declarations and lines -/

/-- Issues with words of a declaration quote nothing else. -/
theorem Issue.quotes_eq_of_mem_ofDeclarations {issue : Issue} {word : String}
    (about : issue.word? = some word) (declared : issue.code ∈ Code.ofDeclarations) :
    issue.quotes = [word] := by
  cases issue with
  | duplicated | conflicting | notFound | discarded =>
    cases about
    rfl
  | foreign | listedAgain => simp [code, Code.ofDeclarations] at declared
  | unexpected | insufficient | memberless | parallel => cases about

/-- What is about a line quotes words of the line. -/
theorem Issue.IsCausedBy.exists_word {issue : Issue} {mark : String} {words : List Word}
    (caused : issue.IsCausedBy mark words) :
    ∀ quoted ∈ issue.quotes, ∃ word ∈ words, word.text = quoted := by
  cases issue with
  | unexpected word =>
    rcases caused with ⟨first, rest, rfl, same, -, -⟩
    rw [quotes, List.forall_mem_singleton]
    exact ⟨first, List.mem_cons_self, same⟩
  | insufficient part => exact fun _ mem => (nomatch mem)
  | memberless id | parallel id =>
    rcases caused with ⟨first, name, rest, rfl, -, same⟩
    rw [quotes, List.forall_mem_singleton]
    exact ⟨name, List.mem_cons_of_mem _ List.mem_cons_self, same⟩
  | duplicated | conflicting | notFound | discarded | foreign | listedAgain => cases caused

/-! ## Bodies -/

namespace LineMachine

section Bodies

variable {net : Net} {row : Row} {group : OpenGroup} {diagnostic : Diagnostic}

/-- A word in a body is quoted together with a group that is being read or has been declared. -/
theorem quotesWords_of_mem_readMember (declared : ∀ group ∈ net.groups, Text.IsWord group.id)
    (named : Text.IsWord group.id) {word : Word} (isWord : Text.IsWord word.text)
    (mem : diagnostic ∈ (readMember net row group word).2) : diagnostic.QuotesWords := by
  unfold readMember at mem
  split at mem
  · cases List.mem_singleton.1 mem
    exact ⟨.notFound .member word.text, rfl, List.forall_mem_singleton.2 isWord⟩
  · split at mem
    · cases List.mem_singleton.1 mem
      exact ⟨.listedAgain word.text group.id, rfl,
        List.forall_mem_cons.2 ⟨isWord, List.forall_mem_singleton.2 named⟩⟩
    · split at mem
      · rename_i owner owned
        rcases Option.bind_eq_some_iff.1 owned with ⟨node, -, joined⟩
        rcases Option.bind_eq_some_iff.1 joined with ⟨index, -, found⟩
        have ownerNamed := declared owner (List.mem_of_getElem? found)
        cases List.mem_singleton.1 mem
        exact ⟨.foreign word.text owner.id, rfl,
          List.forall_mem_cons.2 ⟨isWord, List.forall_mem_singleton.2 ownerNamed⟩⟩
      · cases mem

theorem quotesWords_of_mem_readRows (declared : ∀ group ∈ net.groups, Text.IsWord group.id)
    (named : Text.IsWord group.id) {rows : List Row} (clean : ∀ row ∈ rows, row.Clean) :
    ∀ diagnostic ∈ (readRows net group rows).2.1, diagnostic.QuotesWords := by
  apply forall_mem_readRows
  intro row rowMem word wordMem members diagnostic mem
  have stillNamed : Text.IsWord ({ group with members } : OpenGroup).id := named
  exact quotesWords_of_mem_readMember declared stillNamed (clean row rowMem word wordMem) mem

end Bodies

end LineMachine

/-! ## Whole texts -/

/-- Whatever a text is reported for, other than its success, the message quotes words only. -/
theorem isSuccess_or_quotesWords_compile {options : Options} {text : String}
    {diagnostic : Diagnostic} (mem : diagnostic ∈ (compile options text).diagnostics) :
    diagnostic = .success (Text.stop text.toList) ∨ diagnostic.QuotesWords := by
  rcases isSuccess_or_isAbout_compile mem with success | about
  · exact .inl success
  right
  rcases exists_source_of_mem_compile mem about.code_ne_success with
    ⟨session, visited, -, row, rows, -, suffix, source⟩
  have clean : ∀ other ∈ row :: rows, other.Clean := fun other otherMem =>
    Row.clean_of_mem_ofText (suffix.subset otherMem)
  rcases List.forall_mem_cons.1 clean with ⟨here, behind⟩
  cases source with
  | declaration declared =>
    cases about with
    | @word other word issue otherMem wordMem isAbout same =>
      subst same
      have quoted := issue.quotes_eq_of_mem_ofDeclarations isAbout declared
      refine ⟨issue, rfl, ?_⟩
      rw [quoted, List.forall_mem_singleton]
      exact Row.clean_of_mem_ofText otherMem word wordMem
    | @line other issue otherMem isAbout same =>
      subst same
      have atWord := Code.isAtLine_eq_false_of_mem_ofDeclarations declared
      have code : (issue.atLine other.line).code = issue.code := rfl
      rw [code, issue.isAtLine_code, isAbout] at atWord
      cases atWord
  | line issue caused reported =>
    subst reported
    refine ⟨issue, rfl, fun quoted quotedMem => ?_⟩
    rcases caused.exists_word quoted quotedMem with ⟨word, wordMem, same⟩
    rw [← same]
    exact here word wordMem
  | @body first rest header last front body tail split found read bodyRead listed =>
    have grown := (extends_compile_of_mem_turns visited).1
    have declared : ∀ group ∈ session.registry.net.groups, Text.IsWord group.id := by
      intro group groupMem
      exact ((spelled_net_compile options text).groups group (grown.groups.subset groupMem)).1
    have subset : rest ⊆ row.words := by
      rw [split]
      exact List.subset_cons_self first rest
    have named := (LineMachine.spelled_of_readHeader here subset read).1
    have same : body = (LineMachine.readRows session.registry.net
        (LineMachine.openFrom row header) rows).2.1 := by rw [bodyRead]
    rw [same] at listed
    exact LineMachine.quotesWords_of_mem_readRows declared named behind diagnostic listed

/-- There is no line break in what a text is reported for. -/
theorem unbroken_message_of_mem_compile {options : Options} {text : String}
    {diagnostic : Diagnostic} (mem : diagnostic ∈ (compile options text).diagnostics) :
    Text.Unbroken diagnostic.message := by
  rcases isSuccess_or_quotesWords_compile mem with rfl | quotesWords
  · have fixed : Text.Unbroken "Success" := by decide
    exact fixed
  · exact quotesWords.unbroken

end NetDecl
