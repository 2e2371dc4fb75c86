import SmartContract.Proofs.Command.Formatted
import SmartContract.Proofs.Command.Options
import SmartContract.Proofs.Description.Rules
import SmartContract.Proofs.Report.Order

/-!
Reports in place of lines of text. A command that reports does the same to the files and exits with the
same code as without a report. Its report is a JSON object that agrees with the exit code: there is an
error among the diagnostics exactly when the command fails.
-/

namespace SmartContract

/-! ### Reports -/

/-- The value is a report on a command that exits with the code. -/
structure Json.IsCommandReport (v : Json) (exitCode : Nat) : Prop where
  isObject : ∃ members, v = .object members
  code : v.get? "exit_code" = some (.int exitCode)
  ok : v.get? "ok" = some (.bool (exitCode = 0))
  errors : exitCode = 0 ↔ ∀ item ∈ v.itemsOf "diagnostics", item.textOf "severity" ≠ "error"
  count : v.get? "diagnostics_count" = some (.int (v.itemsOf "diagnostics").length)

/-- There is an error among the diagnostics. -/
def Diagnostic.HasError (ds : List Diagnostic) : Prop := ∃ d ∈ ds, d.severity = .error

theorem Diagnostic.textOf_severity_eq_error_iff {d : Diagnostic} :
    d.toJson.textOf "severity" = "error" ↔ d.severity = .error := by
  have htext : d.toJson.textOf "severity" = d.severity.name := by
    simp [toJson, Json.textOf, Json.get?, Json.text?, List.lookup_cons]
  rw [htext]
  cases d.severity <;> decide

/-- A report lists its diagnostics; where it has none, it has no list. -/
theorem itemsOf_commandReport (command input : String) (ds : List Diagnostic)
    (facts : List (String × Json)) (exitCode : Nat) :
    (commandReport command input ds facts exitCode).itemsOf "diagnostics" =
      ds.map Diagnostic.toJson := by
  cases ds with
  | nil => cases facts <;> rfl
  | cons d rest => rfl

theorem isCommandReport_commandReport (command input : String) {ds : List Diagnostic}
    (facts : List (String × Json)) {exitCode : Nat}
    (h : exitCode = 0 ↔ ¬ Diagnostic.HasError ds) :
    (commandReport command input ds facts exitCode).IsCommandReport exitCode := by
  refine ⟨⟨_, rfl⟩, ?_, rfl, ?_, ?_⟩
  · cases ds <;> cases facts <;> rfl
  · rw [itemsOf_commandReport, h, List.forall_mem_map, Diagnostic.HasError, not_exists]
    refine forall_congr' fun d => ?_
    rw [not_and, ne_eq, Diagnostic.textOf_severity_eq_error_iff]
  · rw [itemsOf_commandReport, List.length_map]
    rfl

/-! ### Outcomes and plans with and without reports -/

/-- The one outcome is the other with a report. -/
structure Outcome.IsReportOf (reported plain : Outcome) : Prop where
  exitCode : reported.exitCode = plain.exitCode
  errors : reported.errors = ""
  output : ∃ v, reported.output = line v ∧ v.IsCommandReport reported.exitCode

theorem Outcome.IsReportOf.exists_eq {reported plain : Outcome} (h : reported.IsReportOf plain) :
    ∃ v, reported = ⟨plain.exitCode, line v, ""⟩ ∧ v.IsCommandReport plain.exitCode := by
  obtain ⟨exitCode, output, errors⟩ := reported
  obtain ⟨rfl, rfl, v, rfl, hv⟩ := h
  exact ⟨v, rfl, hv⟩

/-- The one plan does to the files what the other does, and reports. -/
inductive Plan.IsReportOf : Plan → Plan → Prop where
  | finish {reported plain : Outcome} (h : reported.IsReportOf plain) :
    IsReportOf (.finish reported) (.finish plain)
  | write {path : String} {content : List UInt8} {done reportedDone : Outcome}
    {failed reportedFailed : WriteFailure → Outcome} (hdone : reportedDone.IsReportOf done)
    (hfailed : ∀ failure, (reportedFailed failure).IsReportOf (failed failure)) :
    IsReportOf (.write path content reportedDone reportedFailed) (.write path content done failed)

theorem Plan.IsReportOf.perform {reported plain : Plan} (h : reported.IsReportOf plain)
    (t : FileTree) :
    (reported.perform t).1.IsReportOf (plain.perform t).1 ∧
      (reported.perform t).2 = (plain.perform t).2 := by
  cases h with
  | finish h => exact ⟨h, rfl⟩
  | @write path content done reportedDone failed reportedFailed hdone hfailed =>
    rw [Plan.perform, Plan.perform]
    rcases t.write path content with ⟨after, failure | _⟩
    · exact ⟨hfailed failure, rfl⟩
    · exact ⟨hdone, rfl⟩

/-- What is reported with an exit code agrees with it. -/
theorem isReportOf_report (command input : String) {ds : List Diagnostic}
    (facts : List (String × Json)) {exitCode : Nat} {output errors : String}
    (h : exitCode = 0 ↔ ¬ Diagnostic.HasError ds) :
    Outcome.IsReportOf
      ⟨exitCode, Outcome.line (commandReport command input ds facts exitCode), ""⟩
      ⟨exitCode, output, errors⟩ :=
  ⟨rfl, rfl, _, rfl, isCommandReport_commandReport command input facts h⟩

/-! ### Failures and advice -/

theorem Failure.isReportOf {f : Failure} (h : Diagnostic.HasError f.diagnostics)
    (command input : String) :
    (f.outcome command input true).IsReportOf (f.outcome command input false) := by
  refine isReportOf_report command input f.facts (iff_of_false ?_ (not_not_intro h))
  rw [← f.exitCode_outcome command input true]
  exact f.outcome_ne_zero command input true

/-- What is refused is refused with an error. -/
theorem hasError_of_read_eq_error {content : List UInt8} {refusal : Refusal}
    (h : Description.read content = .error refusal) :
    Diagnostic.HasError refusal.diagnostics := by
  rcases Description.read_eq_error_iff.1 h with ⟨e, -, rfl⟩ | ⟨v, batch, -, hbatch, rfl⟩
  · exact ⟨_, List.mem_cons_self, rfl⟩
  · obtain ⟨faults, hne, rfl⟩ := Description.exists_sort_of_ofJson_eq_error hbatch
    obtain ⟨f, hf⟩ := List.exists_mem_of_ne_nil _ (Fault.sort_ne_nil hne)
    exact ⟨f.diagnostic, List.mem_map_of_mem hf, rfl⟩

namespace Command

/-- Advice is no error. -/
theorem not_hasError_advice (d : Description) : ¬ Diagnostic.HasError (advice d) := by
  rintro ⟨e, he, herror⟩
  obtain ⟨a, -, rfl⟩ := List.mem_map.1 he
  cases herror

variable {t : FileTree} {standardInput : List UInt8} {limit : Nat} {input out : String}
  {failure : Failure}

theorem hasError_of_readInput
    (h : Id.run (readInput (t.access standardInput) limit input) = .error failure) :
    Diagnostic.HasError failure.diagnostics := by
  have hunreadable : ∃ f, failure = .unreadable f := by
    rw [readInput_eq] at h
    split at h
    · rw [bounded] at h
      split at h
      · cases h
      · exact ⟨_, (Except.error.inj h).symm⟩
    · exact ⟨_, (Except.error.inj h).symm⟩
  obtain ⟨f, rfl⟩ := hunreadable
  exact ⟨_, List.mem_cons_self, rfl⟩

theorem hasError_of_readDescription
    (h : Id.run (readDescription (t.access standardInput) limit input) = .error failure) :
    Diagnostic.HasError failure.diagnostics := by
  rw [readDescription_eq] at h
  split at h
  · rename_i hread
    obtain rfl := Except.error.inj h
    exact hasError_of_readInput hread
  · split at h
    · cases h
    · rename_i refusal hrefusal
      obtain rfl := Except.error.inj h
      exact hasError_of_read_eq_error hrefusal

/-! ### Commands -/

theorem hasError_checkReport_iff (content : List UInt8) :
    (checkReport content).2 = 0 ↔ ¬ Diagnostic.HasError (checkReport content).1.diagnostics := by
  have hsort (ds : List Diagnostic) :
      Diagnostic.HasError (Diagnostic.sort ds) ↔ Diagnostic.HasError ds := by
    simp only [Diagnostic.HasError, Diagnostic.sort, List.mem_mergeSort]
  rw [checkReport]
  cases hread : Description.read content with
  | ok d =>
    refine iff_of_true rfl ?_
    exact (hsort _).not.2 (not_hasError_advice d)
  | error refusal =>
    refine iff_of_false Nat.one_ne_zero (not_not_intro ?_)
    exact (hsort _).2 (hasError_of_read_eq_error hread)

theorem isReportOf_planCheck (t : FileTree) (standardInput : List UInt8) (limit : Nat)
    (input : String) :
    (Id.run (planCheck (t.access standardInput) limit input true)).IsReportOf
      (Id.run (planCheck (t.access standardInput) limit input false)) := by
  rw [planCheck_eq, planCheck_eq]
  cases hread : Id.run (readInput (t.access standardInput) limit input) with
  | error failure => exact .finish (failure.isReportOf (hasError_of_readInput hread) "check" input)
  | ok content =>
    exact .finish (isReportOf_report "check" input _ (hasError_checkReport_iff content))

theorem isReportOf_formattedOutcome (input : String) :
    (formattedOutcome input true).IsReportOf (formattedOutcome input false) :=
  isReportOf_report "fmt" input [] (iff_of_true rfl nofun)

theorem isReportOf_planFormat (t : FileTree) (standardInput : List UInt8) (limit : Nat)
    (input : String) (compared write : Bool) :
    (Id.run (planFormat (t.access standardInput) limit input compared write true)).IsReportOf
      (Id.run (planFormat (t.access standardInput) limit input compared write false)) := by
  have hconflict (conflict : OptionConflict) :
      (Plan.finish ((Failure.options conflict).outcome "fmt" input true)).IsReportOf
        (Plan.finish ((Failure.options conflict).outcome "fmt" input false)) :=
    .finish (Failure.isReportOf ⟨_, List.mem_cons_self, rfl⟩ "fmt" input)
  by_cases hboth : compared = write
  · simp only [planFormat, hboth]
    exact hconflict .notOneOfBoth
  · by_cases hinput : write = true ∧ input = "-"
    · obtain ⟨rfl, rfl⟩ := hinput
      simp only [planFormat, hboth]
      exact hconflict .writeToStandardInput
    · rw [planFormat_eq t standardInput limit input true hboth (not_and.1 hinput),
        planFormat_eq t standardInput limit input false hboth (not_and.1 hinput)]
      cases hread : Id.run (readDescription (t.access standardInput) limit input) with
      | error failure =>
        exact .finish (failure.isReportOf (hasError_of_readDescription hread) "fmt" input)
      | ok x =>
        dsimp only
        split
        · exact .finish (isReportOf_formattedOutcome input)
        · split
          · exact .finish (Failure.isReportOf ⟨_, List.mem_cons_self, rfl⟩ "fmt" input)
          · exact .write (isReportOf_formattedOutcome input) fun failure =>
              Failure.isReportOf ⟨_, List.mem_cons_self, rfl⟩ "fmt" input

theorem isReportOf_programOutcome (d : Description) (input out : String) :
    (programOutcome d input out true).IsReportOf (programOutcome d input out false) :=
  isReportOf_report "gen" input _ (iff_of_true rfl (not_hasError_advice d))

theorem isReportOf_compareProgram (d : Description) (input out : String)
    (held : Except Obstacle (List UInt8)) :
    (compareProgram d input out true held).IsReportOf (compareProgram d input out false held) := by
  have hstale : Diagnostic.HasError (Failure.stale out (advice d) (programFacts d out)).diagnostics :=
    ⟨_, List.mem_append_right _ List.mem_cons_self, rfl⟩
  cases held with
  | error obstacle =>
    cases obstacle <;>
      first
        | exact Failure.isReportOf hstale "gen" input
        | exact Failure.isReportOf ⟨_, List.mem_cons_self, rfl⟩ "gen" input
  | ok content =>
    simp only [compareProgram]
    by_cases hheld : content = programBytes d
    · simp only [hheld, if_true]
      exact isReportOf_programOutcome d input out
    · simp only [hheld, if_false]
      exact Failure.isReportOf hstale "gen" input

theorem isReportOf_planGenerate (t : FileTree) (standardInput : List UInt8) (limit : Nat)
    (input out : String) (write compared : Bool) :
    (Id.run (planGenerate (t.access standardInput) limit input (some out) write compared
      true)).IsReportOf
      (Id.run (planGenerate (t.access standardInput) limit input (some out) write compared
        false)) := by
  by_cases hboth : (write && compared) = true
  · simp only [planGenerate, hboth]
    exact .finish (Failure.isReportOf ⟨_, List.mem_cons_self, rfl⟩ "gen" input)
  · rw [Bool.not_eq_true] at hboth
    rw [planGenerate_eq t standardInput limit input out true hboth,
      planGenerate_eq t standardInput limit input out false hboth]
    cases hread : Id.run (readDescription (t.access standardInput) limit input) with
    | error failure =>
      exact .finish (failure.isReportOf (hasError_of_readDescription hread) "gen" input)
    | ok x =>
      dsimp only
      split
      · exact .finish (isReportOf_compareProgram x.2 input out (t.read out))
      · exact .write (isReportOf_programOutcome x.2 input out) fun failure =>
          Failure.isReportOf ⟨_, List.mem_cons_self, rfl⟩ "gen" input

/-- A command that can report plans the same with a report and without. -/
theorem isReportOf_plan {c : Command} (h : c.reports = true) (t : FileTree)
    (standardInput : List UInt8) (limit : Nat) :
    (Id.run ((c.reporting true).plan (t.access standardInput) limit)).IsReportOf
      (Id.run ((c.reporting false).plan (t.access standardInput) limit)) := by
  cases c with
  | check input reportJson => exact isReportOf_planCheck t standardInput limit input
  | format input compared write reportJson =>
    exact isReportOf_planFormat t standardInput limit input compared write
  | generate input out write compared reportJson =>
    cases out with
    | none => cases h
    | some out => exact isReportOf_planGenerate t standardInput limit input out write compared
  | languageId | form | layout input | start name out force => cases h

/-- The flag that calls for a report can stand anywhere among the options of a check, of a format or of
a generation to a file, and decides on the report only. With it the command line exits with the same
code and leaves the same tree as without it; it prints no errors, and its output is a JSON object that
agrees with the exit code. -/
theorem report_changes_presentation_only {arguments : List String} {c : Command}
    (h : ofArguments? arguments = some c) (hc : c.reports = true) (setting : Option String)
    (standardInput : List UInt8) (t : FileTree) :
    ofArguments? (withoutFlag arguments) = some (c.reporting false) ∧
    ofArguments? (withFlag arguments) = some (c.reporting true) ∧
    c = c.reporting (decide (reportFlag ∈ arguments)) ∧
    (runLine (withFlag arguments) setting standardInput t).1.IsReportOf
      (runLine (withoutFlag arguments) setting standardInput t).1 ∧
    (runLine (withFlag arguments) setting standardInput t).2 =
      (runLine (withoutFlag arguments) setting standardInput t).2 := by
  obtain ⟨hwithout, hwith, hflag⟩ := ofArguments?_reporting h hc
  refine ⟨hwithout, hwith, hflag, ?_⟩
  rw [runLine_eq_run hwith, runLine_eq_run hwithout]
  exact (isReportOf_plan hc t standardInput (inputLimit setting)).perform t

theorem report_changes_presentation_only_sample :
    (runLine ["gen", "--input", "d.json", "--check", "--out=g"] none [] sampleTree).1.exitCode = 1 ∧
      ∃ v, (runLine ["gen", "--report-json", "--input", "d.json", "--check", "--out=g"] none []
        sampleTree).1 = ⟨1, Outcome.line v, ""⟩ ∧ v.IsCommandReport 1 := by
  have hcommand : ofArguments? ["gen", "--input", "d.json", "--check", "--out=g"] =
      some (generate "d.json" (some "g") false true false) := by decide +kernel
  have hread : Id.run (readDescription (sampleTree.access []) (inputLimit none) "d.json") =
      .ok (formattedBytes (Description.starter "Sample"), Description.starter "Sample") :=
    readDescription_eq_ok_iff.2 ⟨rfl, by rw [length_formattedBytes_starter]; decide,
      isAccepted_starter.read_formattedBytes⟩
  have hmissing : sampleTree.read "g" = .error .missing := rfl
  have hexit : (runLine ["gen", "--input", "d.json", "--check", "--out=g"] none []
      sampleTree).1.exitCode = 1 := by
    rw [runLine_eq_run hcommand, run, plan, planGenerate_eq sampleTree [] (inputLimit none) "d.json"
      "g" false rfl, hread]
    dsimp only
    rw [if_pos rfl, Plan.perform, hmissing]
    rfl
  have hwith : withFlag ["gen", "--input", "d.json", "--check", "--out=g"] =
      ["gen", "--report-json", "--input", "d.json", "--check", "--out=g"] := by decide
  have hwithout : withoutFlag ["gen", "--input", "d.json", "--check", "--out=g"] =
      ["gen", "--input", "d.json", "--check", "--out=g"] := by decide
  obtain ⟨-, -, -, hreported, -⟩ :=
    report_changes_presentation_only hcommand rfl none [] sampleTree
  rw [hwith, hwithout] at hreported
  obtain ⟨v, houtcome, hreport⟩ := hreported.exists_eq
  rw [hexit] at houtcome hreport
  exact ⟨hexit, v, houtcome, hreport⟩

end Command

end SmartContract
