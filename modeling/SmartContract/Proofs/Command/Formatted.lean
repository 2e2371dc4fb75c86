import SmartContract.Proofs.Command.Compare

/-!
Command lines behind one that writes a description in its one form. They find the description in that
form, and it is accepted again, but the form can be longer than what was read: the bound on the size of
inputs applies to it as well.
-/

namespace SmartContract

namespace Command

/-- The command reads a description from the input and is to write no file: it compares the
description with its one form, checks it, or lists its slots. -/
inductive Inspects (input : String) : Command → Prop where
  | form (reportJson : Bool) : Inspects input (format input true false reportJson)
  | faults (reportJson : Bool) : Inspects input (check input reportJson)
  | slots : Inspects input (layout input)

variable {c : Command} {s : Surroundings} {t after : FileTree} {input : String} {reportJson : Bool}
  {d : Description} {failure : Failure}

/-! ### Reading what was formatted -/

/-- What is in its one form passes every inspection. -/
theorem Inspects.leadsTo (h : c.Inspects input)
    (hread : Id.run (readDescription (t.access s.standardInput) s.limit input) =
      .ok (formattedBytes d, d)) : c.LeadsTo s t t := by
  cases h with
  | form reportJson =>
    refine ⟨succeeds_compareFormat_iff.2 ⟨d, hread⟩, ?_⟩
    rw [run, plan, planFormat_eq t s.standardInput s.limit input reportJson (by simp) (by simp),
      hread]
    simp [Plan.perform]
  | faults reportJson =>
    obtain ⟨hinput, hlength, hdescription⟩ := readDescription_eq_ok_iff.1 hread
    have hcontent := readInput_eq_ok_iff.2 ⟨hinput, hlength⟩
    have hreport : (checkReport (formattedBytes d)).2 = 0 := by rw [checkReport, hdescription]
    rw [LeadsTo, Succeeds, run, plan, planCheck_eq, hcontent]
    dsimp only [Plan.perform]
    exact ⟨hreport, rfl⟩
  | slots =>
    rw [LeadsTo, Succeeds, run, plan, planLayout_eq, hread]
    exact ⟨rfl, rfl⟩

/-- What cannot be read fails every inspection, which leaves the tree. -/
theorem Inspects.run_of_readInput_eq_error (h : c.Inspects input)
    (hread : Id.run (readInput (t.access s.standardInput) s.limit input) = .error failure) :
    (c.run s t).1.exitCode = failure.exitCode ∧ (c.run s t).2 = t := by
  have hdescription : Id.run (readDescription (t.access s.standardInput) s.limit input) =
      .error failure := by
    rw [readDescription_eq, hread]
  cases h with
  | form reportJson =>
    rw [run, plan, planFormat_eq t s.standardInput s.limit input reportJson (by simp) (by simp),
      hdescription]
    exact ⟨failure.exitCode_outcome _ _ _, rfl⟩
  | faults reportJson =>
    rw [run, plan, planCheck_eq, hread]
    exact ⟨failure.exitCode_outcome _ _ _, rfl⟩
  | slots =>
    rw [run, plan, planLayout_eq, hdescription]
    exact ⟨failure.exitCode_outcome _ _ _, rfl⟩

/-- The standard input cannot be written. -/
theorem not_succeeds_writeFormat_standardInput :
    ¬ (format "-" false true reportJson).Succeeds s t := by
  rw [Succeeds, run, plan, planFormat]
  exact Failure.outcome_ne_zero _ _ _ _

/-- After a description was written in its one form, the input holds it in that form. -/
theorem LeadsTo.read_formatted (h : (format input false true reportJson).LeadsTo s t after) :
    input ≠ "-" ∧ ∃ d, t.Describes s.standardInput input d ∧
      after.read input = .ok (formattedBytes d) := by
  have hpath : input ≠ "-" := by
    rintro rfl
    exact not_succeeds_writeFormat_standardInput h.1
  obtain ⟨content, d, hread, hafter⟩ := (leadsTo_writeFormat_iff hpath).1 h
  obtain ⟨hinput, -, hdescription⟩ := readDescription_eq_ok_iff.1 hread
  refine ⟨hpath, d, ⟨content, hinput, hdescription⟩, ?_⟩
  rw [FileTree.input, if_neg hpath] at hinput
  rcases hafter with ⟨hcontent, hsame⟩ | ⟨-, hwrite⟩
  · rw [← hsame, hinput, hcontent]
  · exact (FileTree.writes_of_write_eq_ok hwrite).read

/-- After a command line that writes a description in its one form and succeeds, every command line
that inspects the file under the same bound leaves the tree, and succeeds if that form keeps the bound;
else the file is too large for it. -/
theorem inspected_after_format {arguments : List String} {setting : Option String}
    {standardInput : List UInt8} {t after : FileTree} {outcome : Outcome} {input : String}
    {reportJson : Bool} (hcommand : ofArguments? arguments = some (format input false true reportJson))
    (hrun : runLine arguments setting standardInput t = (outcome, after))
    (hzero : outcome.exitCode = 0) :
    ∃ d, t.Describes standardInput input d ∧ after.read input = .ok (formattedBytes d) ∧
      ∀ next c nextInput, ofArguments? next = some c → c.Inspects input →
        (runLine next setting nextInput after).2 = after ∧
          (runLine next setting nextInput after).1.exitCode =
            if (formattedBytes d).length ≤ inputLimit setting then 0 else 2 := by
  rw [runLine_eq_run hcommand] at hrun
  have hleads : (format input false true reportJson).LeadsTo ⟨standardInput, inputLimit setting⟩ t
      after := by
    rw [LeadsTo, Succeeds, hrun]
    exact ⟨hzero, rfl⟩
  obtain ⟨hpath, d, hdescribes, hformatted⟩ := hleads.read_formatted
  refine ⟨d, hdescribes, hformatted, fun next c nextInput hnext hinspects => ?_⟩
  rw [runLine_eq_run hnext]
  have hinput : after.input nextInput input = .ok (formattedBytes d) := by
    rw [FileTree.input, if_neg hpath, hformatted]
  split
  · rename_i hlength
    have haccepted : d.IsAccepted := by
      obtain ⟨content, -, hdescription⟩ := hdescribes
      exact Description.isAccepted_of_read_eq_ok hdescription
    have hread := readDescription_eq_ok_iff.2 ⟨hinput, hlength, haccepted.read_formattedBytes⟩
    obtain ⟨hsucceeds, htree⟩ := hinspects.leadsTo
      (s := ⟨nextInput, inputLimit setting⟩) (t := after) hread
    exact ⟨htree, hsucceeds⟩
  · rename_i hlength
    have hread : Id.run (readInput (after.access nextInput) (inputLimit setting) input) =
        .error (.unreadable (.tooLarge input (inputLimit setting))) := by
      rw [readInput_eq, hinput]
      exact if_neg hlength
    obtain ⟨hexit, htree⟩ := hinspects.run_of_readInput_eq_error
      (s := ⟨nextInput, inputLimit setting⟩) (t := after) hread
    exact ⟨htree, hexit⟩

/-! ### A description that grows -/

/-- The description of a new contract without needless blanks. -/
def compactBytes : List UInt8 := Text.utf8 (Description.starter "Sample").toJson.compact

/-- The description of a new contract in a file, without needless blanks. -/
def compactTree : FileTree := ⟨[(["d.json"], .file compactBytes)]⟩

theorem length_compactBytes : compactBytes.length = 202 := by
  rw [compactBytes, Json.compact, Text.utf8_ofList]
  decide +kernel

theorem length_formattedBytes_starter :
    (formattedBytes (Description.starter "Sample")).length = 259 := by
  rw [formattedBytes, Json.pretty, Text.utf8_ofList]
  decide +kernel

/-- The description is written in its one form whenever it keeps the bound. -/
theorem runLine_format_compactTree (setting : Option String)
    (h : compactBytes.length ≤ inputLimit setting) :
    ∃ after, runLine ["fmt", "--input", "d.json", "--write"] setting [] compactTree =
        (.success "", after) ∧
      after.read "d.json" = .ok (formattedBytes (Description.starter "Sample")) := by
  have hcommand : ofArguments? ["fmt", "--input", "d.json", "--write"] =
      some (format "d.json" false true false) := by decide +kernel
  have hread : Id.run (readDescription (compactTree.access []) (inputLimit setting) "d.json") =
      .ok (compactBytes, Description.starter "Sample") :=
    readDescription_eq_ok_iff.2 ⟨rfl, h, isAccepted_starter.read_compact⟩
  have hne : compactBytes ≠ formattedBytes (Description.starter "Sample") := by
    intro heq
    have hlength := congrArg List.length heq
    rw [length_compactBytes, length_formattedBytes_starter] at hlength
    omega
  have hplace : compactTree.place? "d.json" = .ok ["d.json"] := rfl
  have hfile : compactTree.get? ["d.json"] = some (.file compactBytes) := rfl
  have hwrite : compactTree.write "d.json" (formattedBytes (Description.starter "Sample")) =
      (compactTree.put ["d.json"] (.file (formattedBytes (Description.starter "Sample"))), .ok ()) :=
    FileTree.write_of_file hplace hfile
  refine ⟨_, ?_, (FileTree.writes_of_write_eq_ok hwrite).read⟩
  rw [runLine_eq_run hcommand, run, plan,
    planFormat_eq compactTree [] (inputLimit setting) "d.json" false (by simp) (by simp), hread]
  dsimp only
  rw [if_neg hne, if_neg Bool.false_ne_true, Plan.perform, hwrite]
  rfl

theorem inspected_after_format_compact :
    ∃ after, runLine ["fmt", "--input", "d.json", "--write"] none [] compactTree =
        (.success "", after) ∧
      (runLine ["fmt", "--input", "d.json", "--check"] none [] after).1.exitCode = 0 ∧
      (runLine ["check", "--input", "d.json"] none [] after).1.exitCode = 0 ∧
      (runLine ["layout", "--input", "d.json"] none [] after).1.exitCode = 0 := by
  obtain ⟨after, hrun, hread⟩ := runLine_format_compactTree none
    (by rw [length_compactBytes]; decide)
  have hcommand : ofArguments? ["fmt", "--input", "d.json", "--write"] =
      some (format "d.json" false true false) := by decide +kernel
  obtain ⟨d, -, hformatted, hnext⟩ := inspected_after_format hcommand hrun rfl
  have hlength : (formattedBytes d).length ≤ inputLimit none := by
    rw [hread] at hformatted
    rw [← Except.ok.inj hformatted, length_formattedBytes_starter]
    decide
  rw [if_pos hlength] at hnext
  refine ⟨after, hrun, ?_, ?_, ?_⟩
  · exact (hnext _ _ [] (by decide +kernel) (.form false)).2
  · exact (hnext _ _ [] (by decide +kernel) (.faults false)).2
  · exact (hnext _ _ [] (by decide +kernel) .slots).2

/-- Under a bound that the description just keeps, it is written in a form that does not. -/
theorem not_inspected_after_format :
    ∃ after, runLine ["fmt", "--input", "d.json", "--write"] (some "202") [] compactTree =
        (.success "", after) ∧
      (runLine ["fmt", "--input", "d.json", "--check"] (some "202") [] after).1.exitCode = 2 ∧
      (runLine ["check", "--input", "d.json"] (some "202") [] after).1.exitCode = 2 ∧
      (runLine ["layout", "--input", "d.json"] (some "202") [] after).1.exitCode = 2 := by
  have hlimit : inputLimit (some "202") = 202 := by decide
  obtain ⟨after, hrun, hread⟩ := runLine_format_compactTree (some "202")
    (by rw [length_compactBytes, hlimit])
  have hlarge : Id.run (readInput (after.access []) (inputLimit (some "202")) "d.json") =
      .error (.unreadable (.tooLarge "d.json" (inputLimit (some "202")))) := by
    have hinput : after.input [] "d.json" =
        .ok (formattedBytes (Description.starter "Sample")) := hread
    rw [readInput_eq, hinput]
    refine if_neg ?_
    rw [length_formattedBytes_starter, hlimit]
    omega
  have hfails {c : Command} (h : c.Inspects "d.json") :
      (c.run ⟨[], inputLimit (some "202")⟩ after).1.exitCode = 2 :=
    (h.run_of_readInput_eq_error (s := ⟨[], inputLimit (some "202")⟩) hlarge).1
  refine ⟨after, hrun, ?_, ?_, ?_⟩
  · rw [runLine_eq_run (c := format "d.json" true false false) (by decide +kernel)]
    exact hfails (.form false)
  · rw [runLine_eq_run (c := check "d.json" false) (by decide +kernel)]
    exact hfails (.faults false)
  · rw [runLine_eq_run (c := layout "d.json") (by decide +kernel)]
    exact hfails .slots

end Command

end SmartContract
