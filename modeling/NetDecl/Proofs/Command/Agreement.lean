import NetDecl.Files.Tree
import NetDecl.Proofs.Command.Arguments
import NetDecl.Proofs.Command.Reads
import NetDecl.Proofs.Compile.Diagnostics
import NetDecl.Proofs.Diagram.Encoding
import NetDecl.Proofs.Files.Written
import NetDecl.Proofs.Toml.Written
import NetDecl.Report.Preview
import NetDecl.Report.Summary

/-!
# One outcome, many reports

A text is reported by its summary, by its preview and by what the commands print.  Each of them
decides by itself whether the text is a success, counts by itself and spells the diagnostics and the
diagram out by itself; they never contradict each other.
-/

namespace NetDecl

open Json

/-! ## Success -/

/-- An outcome is a success exactly if its tally shows no errors and no warnings. -/
theorem Outcome.isSuccess_iff_tally {outcome : Outcome} :
    outcome.isSuccess = true ↔ outcome.tally.errors = 0 ∧ outcome.tally.warnings = 0 := by
  rw [isSuccess_iff, hasErrors, hasWarnings, tally, Tally.ofList, List.countP_eq_zero,
    List.countP_eq_zero, List.any_eq_false, List.any_eq_false]

/-- A strict verdict is that the text is a success. -/
theorem Outcome.valid_verdict_true (outcome : Outcome) :
    (outcome.verdict true).valid = outcome.isSuccess := by
  rw [Bool.eq_iff_iff, isSuccess_iff_tally]
  simp [verdict]

/-! ## Commands -/

namespace Command

/-- The call carries an action out, with settings that it reads, on a text that it reads. -/
def Call.CarriesOut (call : Call) (action : Action) (settings : Settings) (text : String) : Prop :=
  ∃ config input, call.Reads ⟨config, input, action⟩ settings text

theorem Call.run_of_carriesOut {call : Call} {action : Action} {settings : Settings} {text : String}
    (carries : call.CarriesOut action settings text) :
    call.run =
      (action.effect settings (compile settings.options text)).on call.system call.files := by
  obtain ⟨config, input, reads⟩ := carries
  exact run_of_reads reads

/-- Every action can be carried out with all options that are of use, on every text. -/
theorem Call.exists_carriesOut {options : Options} (useful : options.defect? = none)
    (text : String) (action : Action) :
    ∃ call : Call, call.CarriesOut action ⟨options, false, false⟩ text := by
  obtain ⟨document, given⟩ := Settings.exists_ofText?_eq useful
  -- The only file has the settings in it, and the text comes from the standard input.
  let invocation : Invocation := ⟨some "settings", "-", action⟩
  let tree : Files.Tree := ⟨[(["settings"], .file document.toUTF8)], [], []⟩
  let call : Call := ⟨invocation.arguments, text.toUTF8, Files.Tree.system, tree⟩
  have found : call.surroundings.find "settings" = .ok (.content document.toUTF8) := by rfl
  have read : (call.surroundings.read "settings").bind Files.text? = .ok document := by
    rw [Surroundings.read, found]
    exact Files.text?_toUTF8 document
  refine ⟨call, some "settings", "-", Request.ofArguments_arguments invocation, ?_, ?_⟩
  · rw [loadSettings_of_text read, given]
    simp only [useful]
  · change loadInput (call.surroundings.afterReading "settings") "-" = .ok text
    rw [Surroundings.afterReading, found, loadInput, if_pos rfl]
    change (Files.text? text.toUTF8).mapError _ = _
    rw [Files.text?_toUTF8]
    rfl

/-- The text of a value and a line end is read as the value. -/
theorem read?_jsonLine {value : Json} (fits : Fits maximumDepth value) (pretty : Bool) :
    read? (jsonLine value pretty) = some value := by
  have blank : ∀ char ∈ "\n".toList, isSpace char = true := by simp [isSpace]
  cases pretty
  · exact read?_write_append Layout.spaced_compact fits.legible fits.depth_le "\n" blank
  · exact read?_write_append Layout.spaced_indented fits.legible fits.depth_le "\n" blank

/-! ## Agreement -/

/-- The lines that show diagnostics are those among the spelled-out diagnostics. -/
theorem mapM_member?_display (entries : List Diagnostic.Entry) :
    (entries.map Diagnostic.Entry.toJson).mapM (member? "display") =
      some (entries.map fun entry => .string entry.display) := by
  induction entries with
  | nil => rfl
  | cons entry entries ih =>
      have shown : member? "display" entry.toJson = some (.string entry.display) := rfl
      rw [List.map_cons, List.mapM_cons, shown]
      simp [ih]

/-- The lines of a summary are those that its entries show. -/
theorem member?_diagnostics_summary (outcome : Outcome) :
    outcome.summary.member? "diagnostics" =
      some (.array (outcome.entries.map fun entry => .string entry.display)) := by
  change some (strings outcome.display) = _
  rw [strings, Outcome.display, Outcome.entries, List.map_map, List.map_map]
  rfl

/-- The reports on the outcome of a text do not contradict each other.  They are the summary, the
preview, and what commands print that work on the text with the same options. -/
structure ReportsAgree (options : Options) (text : String) (outcome : Outcome) : Prop where
  /-- The summary and the preview call the text a success alike.  It is one exactly if the summary
  counts no errors and no warnings, and exactly if a strict verdict ends well. -/
  success : ∃ success,
    outcome.preview.toJson.member? "success" = some (.bool success) ∧
    outcome.summary.member? "success" = some (.bool success) ∧
    (success = true ↔ outcome.summary.member? "error_count" = some (.natural 0) ∧
      outcome.summary.member? "warning_count" = some (.natural 0)) ∧
    ∀ call json strict settings, Call.CarriesOut call (.validate json strict) settings text →
      settings.options = options → (strict || settings.strict) = true →
        (call.run.1.code = 0 ↔ success = true)
  /-- The summary and the verdict count the parts of the net and the diagnostics. -/
  counts : ∀ strict,
    ∀ count ∈ [("node_count", outcome.net.nodes.length), ("edge_count", outcome.net.edges.length),
        ("group_count", outcome.net.groups.length),
        ("error_count", outcome.diagnostics.countP Diagnostic.isError),
        ("warning_count", outcome.diagnostics.countP Diagnostic.isWarning)],
      (outcome.verdict strict).toJson.member? count.1 = some (.natural count.2) ∧
        outcome.summary.member? count.1 = some (.natural count.2)
  /-- The preview, the listing and the verdict have the same diagnostics, and the summary has the
  lines that show them. -/
  diagnostics : ∃ entries lines, entries.length = outcome.diagnostics.length ∧
    outcome.preview.toJson.member? "diagnostics" = some (.array entries) ∧
    outcome.listingJson.member? "diagnostics" = some (.array entries) ∧
    (∀ strict, (outcome.verdict strict).toJson.member? "diagnostics" = some (.array entries)) ∧
    entries.mapM (member? "display") = some lines ∧
    outcome.summary.member? "diagnostics" = some (.array lines)
  /-- The preview and the listing have the diagram that is read from what is printed as one. -/
  diagram : ∃ diagram,
    outcome.preview.toJson.member? "model" = some diagram ∧
    outcome.listingJson.member? "model" = some diagram ∧
    Diagram.ofJson? diagram = some outcome.net.project ∧
    ∀ call pretty settings, Call.CarriesOut call (.project none pretty) settings text →
      settings.options = options → read? call.run.1.output = some diagram
  /-- A verdict is printed as JSON. -/
  verdict : ∀ call strict settings, Call.CarriesOut call (.validate true strict) settings text →
    settings.options = options →
      call.run.1.output = jsonLine (outcome.verdict (strict || settings.strict)).toJson true
  /-- A listing is printed as JSON. -/
  listing : ∀ call pretty settings, Call.CarriesOut call (.parse true pretty) settings text →
    settings.options = options →
      call.run.1.output = jsonLine outcome.listingJson (pretty || settings.pretty)
  /-- There are calls for all commands. -/
  carriedOut : ∀ action, ∃ call : Call, call.CarriesOut action ⟨options, false, false⟩ text

/-- For every text and every comment mark that is of use, the reports agree. -/
theorem reportsAgree_compile {options : Options} (useful : options.defect? = none)
    (text : String) : ReportsAgree options text (compile options text) where
  success := by
    refine ⟨(compile options text).isSuccess, rfl, rfl, ?_, ?_⟩
    · have errors : (compile options text).summary.member? "error_count" =
          some (.natural (compile options text).tally.errors) := rfl
      have warnings : (compile options text).summary.member? "warning_count" =
          some (.natural (compile options text).tally.warnings) := rfl
      rw [Outcome.isSuccess_iff_tally, errors, warnings]
      simp
    · rintro call json strict settings carries rfl counts
      rw [Call.run_of_carriesOut carries, ← Outcome.valid_verdict_true]
      change (if ((compile settings.options text).verdict (strict || settings.strict)).valid
        then 0 else 1) = 0 ↔ _
      rw [counts]
      cases ((compile settings.options text).verdict true).valid <;> simp
  counts := by
    intro strict
    simp only [List.forall_mem_cons]
    exact ⟨⟨rfl, rfl⟩, ⟨rfl, rfl⟩, ⟨rfl, rfl⟩, ⟨rfl, rfl⟩, ⟨rfl, rfl⟩, nofun⟩
  diagnostics := by
    refine ⟨(compile options text).entries.map Diagnostic.Entry.toJson, _, ?_, rfl, rfl,
      fun _ => rfl, mapM_member?_display _, member?_diagnostics_summary _⟩
    rw [List.length_map, Outcome.entries, List.length_map]
  diagram := by
    refine ⟨_, rfl, rfl, Diagram.ofJson?_toJson _, ?_⟩
    rintro call pretty settings carries rfl
    rw [Call.run_of_carriesOut carries]
    exact read?_jsonLine (Diagram.fits_toJson _ 124) _
  verdict := by
    rintro call strict settings carries rfl
    rw [Call.run_of_carriesOut carries]
    rfl
  listing := by
    rintro call pretty settings carries rfl
    rw [Call.run_of_carriesOut carries]
    rfl
  carriedOut := Call.exists_carriesOut useful text

/-- The reports on a text with a warning, read with a comment mark of its own. -/
theorem reportsAgree_compile_hash :
    (⟨"#"⟩ : Options).defect? = none ∧
      (compile ⟨"#"⟩ "# note\nnode a A surplus\n").summary.member? "warning_count" =
        some (.natural 1) ∧
      ∃ call : Call, call.CarriesOut (.validate true true) ⟨⟨"#"⟩, false, false⟩
        "# note\nnode a A surplus\n" ∧ call.run.1.code ≠ 0 := by
  have useful : (⟨"#"⟩ : Options).defect? = none := by decide
  have warned : (compile ⟨"#"⟩ "# note\nnode a A surplus\n").tally.warnings = 1 := by
    decide +kernel
  have counted : (compile ⟨"#"⟩ "# note\nnode a A surplus\n").summary.member? "warning_count" =
      some (.natural 1) :=
    warned ▸ rfl
  have agree := reportsAgree_compile useful "# note\nnode a A surplus\n"
  obtain ⟨success, -, -, zero, exits⟩ := agree.success
  obtain ⟨call, carries⟩ := agree.carriedOut (.validate true true)
  refine ⟨useful, counted, call, carries, ?_⟩
  rw [ne_eq, exits call true true _ carries rfl rfl, zero, counted]
  simp

end Command

end NetDecl
