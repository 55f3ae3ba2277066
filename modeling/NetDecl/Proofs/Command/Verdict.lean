import NetDecl.Proofs.Command.Agreement
import NetDecl.Proofs.Command.Effects
import NetDecl.Proofs.Compile.Messages

/-!
# Verdicts on texts

The command that judges a text says three times whether the text is valid: by its exit code, in the
member of a JSON object and in the first line that it prints.  It counts the diagnostics, and it
lists errors and warnings in sections of their own.  Since a text is either reported for its success
alone or for errors and warnings only, the counts add up and nothing is left out of the sections.
-/

namespace NetDecl

/-! ## Success alone -/

/-- The success of a text is all that is reported. -/
def Outcome.IsFlawless (outcome : Outcome) : Prop :=
  ∃ position, outcome.diagnostics = [.success position]

/-- A text is reported for its success alone, or for errors and warnings only. -/
theorem isFlawless_or_problems_compile (options : Options) (text : String) :
    (compile options text).IsFlawless ∨
      (compile options text).diagnostics ≠ [] ∧
        LineMachine.Problems (compile options text).diagnostics := by
  rw [Outcome.IsFlawless, diagnostics_compile]
  by_cases silent : (LineMachine.run options.effectiveMark (Row.ofText text)).diagnostics = []
  · rw [silent]
    exact .inl ⟨_, rfl⟩
  · rw [if_neg (mt List.isEmpty_iff.1 silent)]
    exact .inr ⟨silent, (LineMachine.raised_run _ _).problems⟩

theorem isSuccess_compile_iff {options : Options} {text : String} :
    (compile options text).isSuccess = true ↔ (compile options text).IsFlawless := by
  constructor
  · intro success
    rcases isFlawless_or_problems_compile options text with flawless | ⟨nonempty, problems⟩
    · exact flawless
    · rcases List.exists_mem_of_ne_nil _ nonempty with ⟨diagnostic, mem⟩
      have isSuccess := List.all_eq_true.1 success diagnostic mem
      rw [(problems diagnostic mem).isSuccess_eq_false] at isSuccess
      cases isSuccess
  · rintro ⟨position, alone⟩
    rw [Outcome.isSuccess, alone]
    rfl

/-! ## Counts -/

namespace Tally

/-- Every diagnostic is counted once. -/
theorem total_ofList (diagnostics : List Diagnostic) :
    (ofList diagnostics).total = diagnostics.length := by
  induction diagnostics with
  | nil => rfl
  | cons diagnostic diagnostics ih =>
    have counted : (ofList (diagnostic :: diagnostics)).total = (ofList diagnostics).total + 1 := by
      obtain ⟨severity, code, position, length, message⟩ := diagnostic
      cases severity <;>
        simp [ofList, total, Diagnostic.isSuccess, Diagnostic.isWarning, Diagnostic.isError] <;>
        omega
    rw [counted, ih, List.length_cons]

/-- Where there are errors and warnings only, their counts add up to the total. -/
theorem errors_add_warnings {diagnostics : List Diagnostic}
    (problems : LineMachine.Problems diagnostics) :
    (ofList diagnostics).errors + (ofList diagnostics).warnings = diagnostics.length := by
  have successes : (ofList diagnostics).successes = 0 := by
    rw [ofList, List.countP_eq_zero]
    intro diagnostic mem
    rw [(problems diagnostic mem).isSuccess_eq_false]
    exact Bool.false_ne_true
  rw [← total_ofList, total, successes, Nat.zero_add, Nat.add_comm]

end Tally

/-! ## Sections -/

/-- The lines are the section for the diagnostics: an empty line, the title and a line for each of
the diagnostics, in their order.  Where there are no diagnostics there is no section. -/
inductive IsSection (title : String) : List Diagnostic → List String → Prop where
  | none : IsSection title [] []
  | some (first : Diagnostic) (others : List Diagnostic) :
      IsSection title (first :: others)
        (["", title ++ ":"] ++ (first :: others).map fun diagnostic => diagnostic.entry.describe)

theorem Severity.name_inj {severity other : Severity} :
    severity.name = other.name ↔ severity = other := by
  cases severity <;> cases other <;> decide

/-- Severities are told apart by their names. -/
theorem Outcome.filter_entries (outcome : Outcome) (severity : Severity) :
    (outcome.entries.filter fun entry => entry.severity == severity.name) =
      (outcome.diagnostics.filter fun diagnostic => diagnostic.severity == severity).map
        Diagnostic.entry := by
  rw [entries, List.filter_map]
  congr 2
  funext diagnostic
  rw [Function.comp_apply, Bool.eq_iff_iff, beq_iff_eq, beq_iff_eq]
  exact Severity.name_inj

theorem Outcome.isSection_sectionLines (outcome : Outcome) (strict : Bool) (title : String)
    (severity : Severity) :
    IsSection title (outcome.diagnostics.filter fun diagnostic => diagnostic.severity == severity)
      ((outcome.verdict strict).sectionLines title severity) := by
  rw [Verdict.sectionLines, verdict, outcome.filter_entries severity]
  cases outcome.diagnostics.filter fun diagnostic => diagnostic.severity == severity with
  | nil => exact .none
  | cons first others =>
    have lines : IsSection title (first :: others) _ := .some first others
    rw [← Function.comp_def, ← List.map_map] at lines
    exact lines

theorem Code.unbroken_symbol (code : Code) : Text.Unbroken code.symbol := by
  cases code <;> decide

theorem Diagnostic.unbroken_describe_entry {diagnostic : Diagnostic}
    (message : Text.Unbroken diagnostic.message) : Text.Unbroken diagnostic.entry.describe := by
  have front : Text.Unbroken "  [" := by decide
  exact front.append diagnostic.code.unbroken_symbol
    |>.append (by decide) |>.append message
    |>.append (by decide) |>.append (Text.unbroken_decimal _)
    |>.append (by decide) |>.append (Text.unbroken_decimal _) |>.append (by decide)

theorem IsSection.unbroken {title : String} {diagnostics : List Diagnostic} {lines : List String}
    (isSection : IsSection title diagnostics lines) (titleUnbroken : Text.Unbroken title)
    (messages : ∀ diagnostic ∈ diagnostics, Text.Unbroken diagnostic.message) :
    ∀ line ∈ lines, Text.Unbroken line := by
  cases isSection with
  | none => exact fun _ mem => (nomatch mem)
  | some first others =>
    rw [List.forall_mem_append, List.forall_mem_cons, List.forall_mem_singleton,
      List.forall_mem_map]
    refine ⟨⟨by decide, titleUnbroken.append (by decide)⟩, ?_⟩
    exact fun diagnostic mem => diagnostic.unbroken_describe_entry (messages diagnostic mem)

/-! ## Verdicts as JSON and as text -/

namespace Outcome

/-- What is printed is a JSON object that says whether the exit code is zero, and counts the
diagnostics.  The errors and the warnings are all that there is, but for the success of a text. -/
def IsJudgedAsJson (outcome : Outcome) (code : Nat) (output : String) : Prop :=
  ∃ value errors warnings total, output = Command.jsonLine value true ∧
    value.member? "valid" = some (.bool (code == 0)) ∧
    value.member? "error_count" = some (.natural errors) ∧
    value.member? "warning_count" = some (.natural warnings) ∧
    value.member? "diagnostic_count" = some (.natural total) ∧
    errors = outcome.diagnostics.countP Diagnostic.isError ∧
    warnings = outcome.diagnostics.countP Diagnostic.isWarning ∧
    total = outcome.diagnostics.length ∧
    (outcome.IsFlawless → errors = 0 ∧ warnings = 0 ∧ total = 1) ∧
    (¬outcome.IsFlawless → errors + warnings = total)

/-- The first line that is printed says whether the exit code is zero, and the next three count the
parts of the net.  Then there are sections for the errors and for the warnings. -/
def IsJudgedAsText (outcome : Outcome) (code : Nat) (output : String) : Prop :=
  ∃ errorLines warningLines,
    Text.printedLines output =
      [if code = 0 then "✓ Valid NetDSL input" else "✗ Invalid NetDSL input",
        "  Nodes: " ++ Text.decimal outcome.net.nodes.length,
        "  Edges: " ++ Text.decimal outcome.net.edges.length,
        "  Groups: " ++ Text.decimal outcome.net.groups.length] ++
        errorLines ++ warningLines ++ [""] ∧
    IsSection "Errors" (outcome.diagnostics.filter Diagnostic.isError) errorLines ∧
    IsSection "Warnings" (outcome.diagnostics.filter Diagnostic.isWarning) warningLines

variable {outcome : Outcome} {strict : Bool} {code : Nat}

theorem isJudgedAsJson_verdict
    (complete : outcome.IsFlawless ∨ LineMachine.Problems outcome.diagnostics)
    (exits : code = 0 ↔ (outcome.verdict strict).valid = true) :
    outcome.IsJudgedAsJson code (Command.jsonLine (outcome.verdict strict).toJson true) := by
  have valid : (outcome.verdict strict).valid = (code == 0) := by
    rw [Bool.eq_iff_iff, ← exits, beq_iff_eq]
  refine ⟨_, outcome.tally.errors, outcome.tally.warnings, outcome.tally.total, rfl,
    congrArg (some <| Json.bool ·) valid, rfl, rfl, rfl, rfl, rfl, Tally.total_ofList _, ?_, ?_⟩
  · rintro ⟨position, alone⟩
    rw [tally, alone]
    exact ⟨rfl, rfl, rfl⟩
  · intro flawed
    rw [tally, Tally.total_ofList]
    exact Tally.errors_add_warnings (complete.resolve_left flawed)

/-- The lines of a verdict arrive as they were printed. -/
theorem unbroken_of_mem_lines_verdict (strict : Bool)
    (messages : ∀ diagnostic ∈ outcome.diagnostics, Text.Unbroken diagnostic.message) :
    ∀ line ∈ (outcome.verdict strict).lines, Text.Unbroken line := by
  have headline : Text.Unbroken (outcome.verdict strict).headline := by
    unfold Verdict.headline
    split <;> decide
  have counted {title : String} (unbroken : Text.Unbroken title) (count : Nat) :
      Text.Unbroken (title ++ Text.decimal count) := unbroken.append (Text.unbroken_decimal count)
  have listed {title : String} (unbroken : Text.Unbroken title) (severity : Severity) :
      ∀ line ∈ (outcome.verdict strict).sectionLines title severity, Text.Unbroken line := by
    apply (outcome.isSection_sectionLines strict title severity).unbroken unbroken
    exact fun diagnostic mem => messages diagnostic (List.mem_of_mem_filter mem)
  simp only [Verdict.lines, List.forall_mem_append, List.forall_mem_cons]
  exact ⟨⟨⟨headline, counted (by decide) _, counted (by decide) _, counted (by decide) _, nofun⟩,
    listed (by decide) _⟩, listed (by decide) _⟩

theorem isJudgedAsText_verdict
    (messages : ∀ diagnostic ∈ outcome.diagnostics, Text.Unbroken diagnostic.message)
    (exits : code = 0 ↔ (outcome.verdict strict).valid = true) :
    outcome.IsJudgedAsText code (outcome.verdict strict).text := by
  have headline : (outcome.verdict strict).headline =
      if code = 0 then "✓ Valid NetDSL input" else "✗ Invalid NetDSL input" :=
    if_congr exits.symm rfl rfl
  refine ⟨_, _, ?_, outcome.isSection_sectionLines strict "Errors" .error,
    outcome.isSection_sectionLines strict "Warnings" .warning⟩
  rw [Verdict.text, Text.printedLines_join,
    Text.flatMap_printedLines (unbroken_of_mem_lines_verdict strict messages), Verdict.lines,
    headline]
  rfl

end Outcome

/-! ## Commands -/

namespace Command

/-- What a call says that judges a text, as JSON or as text, with warnings counting or not. -/
structure Call.Judges (call : Call) (json strict : Bool) (options : Options) (text : String) :
    Prop where
  /-- Where warnings do not count, the text passes exactly if there are no errors. -/
  lenient : strict = false →
    (call.run.1.code = 0 ↔
      ∀ diagnostic ∈ (compile options text).diagnostics, diagnostic.severity ≠ .error)
  /-- Where warnings count, the text passes exactly if there is nothing but its success. -/
  rigorous : strict = true → (call.run.1.code = 0 ↔ (compile options text).IsFlawless)
  /-- What passes where warnings count passes wherever it is judged with the same options. -/
  passes : strict = true → call.run.1.code = 0 →
    ∀ other json strict settings, Call.CarriesOut other (.validate json strict) settings text →
      settings.options = options → other.run.1.code = 0
  /-- A text that does not pass has the exit code one, and the call does nothing but print. -/
  prints : (call.run.1.code = 0 ∨ call.run.1.code = 1) ∧ call.run.1.report = none ∧
    call.run.2 = call.files
  /-- The members of the JSON object agree with the exit code and with each other. -/
  asJson : json = true →
    (compile options text).IsJudgedAsJson call.run.1.code call.run.1.output
  /-- The lines of the text agree with the exit code, and miss nothing out. -/
  asText : json = false →
    (compile options text).IsJudgedAsText call.run.1.code call.run.1.output

section Judging

variable {call : Call} {json strict : Bool} {settings : Settings} {text : String}

/-- The ending of a call that judges a text. -/
theorem Call.run_of_judging (carries : call.CarriesOut (.validate json strict) settings text) :
    let verdict := (compile settings.options text).verdict (strict || settings.strict)
    call.run =
      (⟨if verdict.valid then 0 else 1,
        if json then jsonLine verdict.toJson true else verdict.text, none⟩, call.files) := by
  rw [run_of_carriesOut carries]
  rfl

theorem Call.code_eq_zero_iff (carries : call.CarriesOut (.validate json strict) settings text) :
    call.run.1.code = 0 ↔
      ((compile settings.options text).verdict (strict || settings.strict)).valid = true := by
  rw [run_of_judging carries]
  dsimp only
  split <;> simp_all

/-- A success is valid whether warnings count or not. -/
theorem valid_verdict_of_isSuccess {outcome : Outcome} (success : outcome.isSuccess = true)
    (strict : Bool) : (outcome.verdict strict).valid = true := by
  rcases Outcome.isSuccess_iff_tally.1 success with ⟨errors, warnings⟩
  simp [Outcome.verdict, errors, warnings]

/-- The verdict of a call, its report and its exit code agree. -/
theorem Call.judges_of_carriesOut
    (carries : call.CarriesOut (.validate json strict) settings text) :
    call.Judges json (strict || settings.strict) settings.options text where
  lenient := by
    intro notStrict
    rw [code_eq_zero_iff carries, notStrict]
    simp [Outcome.verdict, Outcome.tally, Tally.ofList, Diagnostic.isError]
  rigorous := by
    intro isStrict
    rw [code_eq_zero_iff carries, isStrict, Outcome.valid_verdict_true, isSuccess_compile_iff]
  passes := by
    rintro isStrict zero other otherJson otherStrict otherSettings otherCarries same
    rw [code_eq_zero_iff carries, isStrict, Outcome.valid_verdict_true] at zero
    rw [code_eq_zero_iff otherCarries, same]
    exact valid_verdict_of_isSuccess zero _
  prints := by
    rw [run_of_judging carries]
    refine ⟨?_, rfl, rfl⟩
    dsimp only
    split
    · exact .inl rfl
    · exact .inr rfl
  asJson := by
    rintro rfl
    have complete := isFlawless_or_problems_compile settings.options text
    have exits := code_eq_zero_iff carries
    have output : call.run.1.output = jsonLine
        ((compile settings.options text).verdict (strict || settings.strict)).toJson true := by
      rw [run_of_judging carries]
      rfl
    rw [output]
    exact Outcome.isJudgedAsJson_verdict (complete.imp_right And.right) exits
  asText := by
    rintro rfl
    have exits := code_eq_zero_iff carries
    have output : call.run.1.output =
        ((compile settings.options text).verdict (strict || settings.strict)).text := by
      rw [run_of_judging carries]
      rfl
    rw [output]
    exact Outcome.isJudgedAsText_verdict (fun _ mem => unbroken_message_of_mem_compile mem) exits

end Judging

/-- A text with a warning passes, but not with settings that let warnings count. -/
theorem Call.judges_of_carriesOut_warned :
    let text := "node a A surplus\n"
    let tree : Files.Tree :=
      ⟨[(["strict.toml"], .file "[output]\nstrict = true\n".toUTF8)], [], []⟩
    let rigorous : Call :=
      ⟨["-c", "strict.toml", "validate", "-"], text.toUTF8, Files.Tree.system, tree⟩
    let lenient : Call := ⟨["validate", "-"], text.toUTF8, Files.Tree.system, tree⟩
    rigorous.CarriesOut (.validate false false) ⟨.standard, false, true⟩ text ∧
      lenient.CarriesOut (.validate false false) ⟨.standard, false, false⟩ text ∧
      rigorous.run.1.code ≠ 0 ∧ lenient.run.1.code = 0 := by
  intro text tree rigorous lenient
  have rigorousCarries :
      rigorous.CarriesOut (.validate false false) ⟨.standard, false, true⟩ text := by
    refine ⟨some "strict.toml", "-", by decide, ?_, ?_⟩
    · exact eq_ok_of_toOption (by decide +kernel)
    · exact eq_ok_of_toOption (by decide +kernel)
  have lenientCarries :
      lenient.CarriesOut (.validate false false) ⟨.standard, false, false⟩ text := by
    refine ⟨none, "-", by decide, rfl, ?_⟩
    exact eq_ok_of_toOption (by decide +kernel)
  have diagnostics : (compile .standard text).diagnostics =
      [.ofCode .tokenDiscarded ⟨0, 9⟩ 7 "discard token surplus"] := by decide +kernel
  refine ⟨rigorousCarries, lenientCarries, ?_, ?_⟩
  · rw [ne_eq, (judges_of_carriesOut rigorousCarries).rigorous rfl]
    rintro ⟨position, alone⟩
    rw [diagnostics] at alone
    cases alone
  · rw [(judges_of_carriesOut lenientCarries).lenient rfl, diagnostics]
    decide

end Command

end NetDecl
