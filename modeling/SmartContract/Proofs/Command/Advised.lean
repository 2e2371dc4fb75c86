import SmartContract.Proofs.Command.Reporting
import SmartContract.Proofs.Description.Advice

/-!
The advice in reports. A check of an input and a generation from it report the same advice, the check
in the order of the places, and the generation as it comes: maps, then variables, then methods, each by
their indices. The two orders agree when the places happen to come in their order.
-/

namespace SmartContract

/-- The place that a diagnostic gives in a report, and the empty text if it gives none. -/
def Json.placeOf (v : Json) : String := ((v.get? "loc").getD .null).textOf "ptr"

namespace Diagnostic

theorem placeOf_toJson (a : Diagnostic) : a.toJson.placeOf = a.sortPointer := by
  obtain ⟨code, severity, stage, message, location, notes, data⟩ := a
  rcases location with _ | pointer | ⟨start, stop⟩
  · cases notes <;> cases data <;> rfl
  · rfl
  · rfl

theorem placeOf_map_toJson (ds : List Diagnostic) :
    (ds.map toJson).map Json.placeOf = ds.map (·.sortPointer) := by
  rw [List.map_map]
  exact List.map_congr_left fun a _ => a.placeOf_toJson

end Diagnostic

namespace Command

variable {d : Description}

/-! ### Advice in order -/

theorem sortPointer_advice (d : Description) :
    (advice d).map (·.sortPointer) = d.advice.map (·.pointer.text) := by
  rw [advice, List.map_map]
  rfl

/-- Places that do not descend ascend, for they are different. -/
theorem ascending_of_pairwise (h : ((advice d).map (·.sortPointer)).Pairwise (· ≤ ·)) :
    (d.advice.map (·.pointer.text)).Pairwise (· < ·) := by
  rw [sortPointer_advice] at h
  refine (h.and d.nodup_pointers_advice).imp ?_
  rintro s t ⟨hle, hne⟩
  exact lt_of_le_of_ne hle hne

/-- Advice is in the order of a report when its places ascend. -/
theorem pairwise_advice_iff :
    (advice d).Pairwise Diagnostic.Precedes ↔
      (d.advice.map (·.pointer.text)).Pairwise (· < ·) := by
  constructor
  · intro h
    have hsorted := Diagnostic.pairwise_sortPointer_sort (advice d)
    rw [Diagnostic.sort_eq_self_iff.2 h] at hsorted
    exact ascending_of_pairwise hsorted
  · intro h
    rw [← sortPointer_advice, List.pairwise_map] at h
    exact h.imp Or.inl

/-- Sorted advice is reported like advice as it comes when the places ascend. -/
theorem map_toJson_advice_eq_iff :
    (advice d).map Diagnostic.toJson = (Diagnostic.sort (advice d)).map Diagnostic.toJson ↔
      (d.advice.map (·.pointer.text)).Pairwise (· < ·) := by
  constructor
  · intro h
    have hplaces := congrArg (List.map Json.placeOf) h
    rw [Diagnostic.placeOf_map_toJson, Diagnostic.placeOf_map_toJson] at hplaces
    apply ascending_of_pairwise
    rw [hplaces]
    exact Diagnostic.pairwise_sortPointer_sort _
  · intro h
    rw [Diagnostic.sort_eq_self_iff.2 (pairwise_advice_iff.2 h)]

/-! ### Reports on an input that holds a description -/

variable {s : Surroundings} {t : FileTree} {input out : String} {write compared : Bool}
  {content : List UInt8}

/-- A generation that succeeds reports the advice as it comes. -/
theorem exists_report_of_generate
    (h : (generate input (some out) write compared true).Succeeds s t) :
    ∃ content d, Id.run (readDescription (t.access s.standardInput) s.limit input) =
        .ok (content, d) ∧
      ((generate input (some out) write compared true).run s t).1 =
        ⟨0, Outcome.line (commandReport "gen" input (advice d) (programFacts d out) 0), ""⟩ := by
  by_cases hboth : (write && compared) = true
  · rw [Succeeds, run, plan, planGenerate, if_pos hboth] at h
    exact absurd h (Failure.outcome_ne_zero _ _ _ _)
  · rw [Bool.not_eq_true] at hboth
    rw [Succeeds, run, plan, planGenerate_eq t s.standardInput s.limit input out true hboth] at h
    rw [run, plan, planGenerate_eq t s.standardInput s.limit input out true hboth]
    cases hread : Id.run (readDescription (t.access s.standardInput) s.limit input) with
    | error failure =>
      rw [hread] at h
      exact absurd h (Failure.outcome_ne_zero _ _ _ _)
    | ok x =>
      rw [hread] at h
      refine ⟨x.1, x.2, rfl, ?_⟩
      cases compared with
      | true =>
        have hheld := exitCode_compareProgram_eq_zero_iff.1 h
        simp [Plan.perform, hheld, compareProgram, programOutcome, Outcome.success]
      | false =>
        simp only [Bool.false_eq_true, if_false, planWrite, Plan.perform] at h ⊢
        rcases hwrite : t.write out (programBytes x.2) with ⟨after, failure | _⟩
        · rw [hwrite] at h
          exact absurd h (Failure.outcome_ne_zero _ _ _ _)
        · simp [programOutcome, Outcome.success]

/-- A check of an input that holds a description reports the advice in order. -/
theorem report_of_check
    (hread : Id.run (readDescription (t.access s.standardInput) s.limit input) = .ok (content, d)) :
    ((check input true).run s t).1 = ⟨0, Outcome.line (commandReport "check" input
      (Diagnostic.sort (advice d)) [("contract", .string d.name)] 0), ""⟩ := by
  obtain ⟨hinput, hlength, hdescription⟩ := readDescription_eq_ok_iff.1 hread
  rw [run, plan, planCheck_eq, readInput_eq_ok_iff.2 ⟨hinput, hlength⟩]
  simp only [checkReport, hdescription, Plan.perform, if_true]
  rfl

/-- Let a generation to a file succeed with a report, and let an input that holds the same be checked
under the same bound. Then both report the advice on the description: the check sorts it, and the
generation gives it as it comes. The two lists are the same, and the second is sorted, exactly when the
places of the advice come in ascending order. -/
theorem reported_in_order_iff {arguments inspection : List String} {setting : Option String}
    {standardInput nextInput : List UInt8} {t u : FileTree} {input out : String}
    {write compared : Bool}
    (hcommand : ofArguments? arguments = some (generate input (some out) write compared true))
    (hinspection : ofArguments? inspection = some (check input true))
    (hzero : (runLine arguments setting standardInput t).1.exitCode = 0)
    (hsame : u.input nextInput input = t.input standardInput input) :
    ∃ d reported checked, t.Describes standardInput input d ∧
      (runLine arguments setting standardInput t).1 = ⟨0, Outcome.line reported, ""⟩ ∧
      (runLine inspection setting nextInput u).1 = ⟨0, Outcome.line checked, ""⟩ ∧
      reported.itemsOf "diagnostics" = (advice d).map Diagnostic.toJson ∧
      checked.itemsOf "diagnostics" = (Diagnostic.sort (advice d)).map Diagnostic.toJson ∧
      (Diagnostic.sort (advice d)).Perm (advice d) ∧
      (Diagnostic.sort (advice d)).Pairwise Diagnostic.Precedes ∧
      ((advice d).Pairwise Diagnostic.Precedes ↔
        (d.advice.map (·.pointer.text)).Pairwise (· < ·)) ∧
      (reported.itemsOf "diagnostics" = checked.itemsOf "diagnostics" ↔
        (d.advice.map (·.pointer.text)).Pairwise (· < ·)) := by
  rw [runLine_eq_run hcommand] at hzero ⊢
  rw [runLine_eq_run hinspection]
  obtain ⟨content, d, hread, hgenerated⟩ := exists_report_of_generate hzero
  obtain ⟨hinput, hlength, hdescription⟩ := readDescription_eq_ok_iff.1 hread
  have hnext : Id.run (readDescription (u.access nextInput) (inputLimit setting) input) =
      .ok (content, d) :=
    readDescription_eq_ok_iff.2 ⟨hsame.trans hinput, hlength, hdescription⟩
  have hchecked := report_of_check (s := ⟨nextInput, inputLimit setting⟩) hnext
  refine ⟨d, _, _, ⟨content, hinput, hdescription⟩, hgenerated, hchecked,
    itemsOf_commandReport .., itemsOf_commandReport .., Diagnostic.sort_perm _,
    Diagnostic.pairwise_sort _, pairwise_advice_iff, ?_⟩
  rw [itemsOf_commandReport, itemsOf_commandReport]
  exact map_toJson_advice_eq_iff

/-- A directory with a description in its one form. -/
def describingTree (d : Description) : FileTree := ⟨[(["d.json"], .file (formattedBytes d))]⟩

theorem readDescription_describingTree (h : d.IsAccepted)
    (hlength : (formattedBytes d).length ≤ inputLimit none) :
    Id.run (readDescription ((describingTree d).access []) (inputLimit none) "d.json") =
      .ok (formattedBytes d, d) :=
  readDescription_eq_ok_iff.2 ⟨rfl, hlength, h.read_formattedBytes⟩

/-- The description of a new contract with variables that advice is given on. -/
def withVariables (stateVariables : List Variable) : Description :=
  { Description.starter "Sample" with stateVariables := stateVariables }

theorem succeeds_generate_describingTree (h : d.IsAccepted)
    (hlength : (formattedBytes d).length ≤ inputLimit none) :
    (generate "d.json" (some "g") false false true).Succeeds ⟨[], inputLimit none⟩
      (describingTree d) := by
  have hread := readDescription_describingTree h hlength
  have hwrite : (describingTree d).write "g" (programBytes d) =
      ((describingTree d).put ["g"] (.file (programBytes d)), .ok ()) := rfl
  have hleads : (generate "d.json" (some "g") false false true).LeadsTo ⟨[], inputLimit none⟩
      (describingTree d) ((describingTree d).put ["g"] (.file (programBytes d))) :=
    leadsTo_writeProgram_iff.2 ⟨_, d, hread, hwrite⟩
  exact hleads.1

theorem eq_of_describes (h : d.IsAccepted) {e : Description}
    (he : (describingTree d).Describes [] "d.json" e) : e = d := by
  obtain ⟨content, hinput, hdescription⟩ := he
  obtain rfl : formattedBytes d = content := Except.ok.inj hinput
  exact Except.ok.inj (hdescription.symm.trans h.read_formattedBytes)

/-- Two places that come in ascending order. -/
def ascendingAdvice : Description :=
  withVariables [⟨"rate", .value ⟨.long, false⟩, none, false, false, some "7"⟩,
    ⟨"rates", .value ⟨.long, true⟩, none, false, false, none⟩]

/-- The type of a variable comes behind its value, but its place is the smaller one. -/
def descendingAdvice : Description :=
  withVariables [⟨"rates", .value ⟨.long, true⟩, none, false, false, some "7"⟩]

theorem isAccepted_ascendingAdvice : ascendingAdvice.IsAccepted :=
  Description.isAccepted_of_toOption (by decide +kernel)

theorem isAccepted_descendingAdvice : descendingAdvice.IsAccepted :=
  Description.isAccepted_of_toOption (by decide +kernel)

theorem length_ascendingAdvice : (formattedBytes ascendingAdvice).length ≤ inputLimit none := by
  rw [formattedBytes, Json.pretty, Text.utf8_ofList]
  decide +kernel

theorem length_descendingAdvice : (formattedBytes descendingAdvice).length ≤ inputLimit none := by
  rw [formattedBytes, Json.pretty, Text.utf8_ofList]
  decide +kernel

/-- A generation to a file with a report, and a check with one. -/
def generateLine : List String := ["gen", "--input", "d.json", "--out", "g", "--report-json"]

def checkLine : List String := ["check", "--input", "d.json", "--report-json"]

theorem ofArguments?_generateLine :
    ofArguments? generateLine = some (generate "d.json" (some "g") false false true) := by
  decide +kernel

theorem ofArguments?_checkLine : ofArguments? checkLine = some (check "d.json" true) := by
  decide +kernel

theorem exitCode_generateLine (h : d.IsAccepted)
    (hlength : (formattedBytes d).length ≤ inputLimit none) :
    (runLine generateLine none [] (describingTree d)).1.exitCode = 0 := by
  rw [runLine_eq_run ofArguments?_generateLine]
  exact succeeds_generate_describingTree h hlength

theorem reported_in_order_ascendingAdvice :
    ∃ reported checked,
      (runLine generateLine none [] (describingTree ascendingAdvice)).1 =
        ⟨0, Outcome.line reported, ""⟩ ∧
      (runLine checkLine none [] (describingTree ascendingAdvice)).1 =
        ⟨0, Outcome.line checked, ""⟩ ∧
      (reported.itemsOf "diagnostics").map Json.placeOf =
        ["/variables/0/value", "/variables/1/type"] ∧
      reported.itemsOf "diagnostics" = checked.itemsOf "diagnostics" := by
  obtain ⟨d, reported, checked, hdescribes, hreported, hchecked, hitems, -, -, -, -, hsame⟩ :=
    reported_in_order_iff ofArguments?_generateLine ofArguments?_checkLine
      (exitCode_generateLine isAccepted_ascendingAdvice length_ascendingAdvice) rfl
  obtain rfl := eq_of_describes isAccepted_ascendingAdvice hdescribes
  refine ⟨reported, checked, hreported, hchecked, ?_, hsame.2 (by decide)⟩
  rw [hitems, Diagnostic.placeOf_map_toJson]
  decide

/-- Of an array with a value the generation reports the value first, and the check the type. -/
theorem reported_out_of_order :
    ∃ reported checked,
      (runLine generateLine none [] (describingTree descendingAdvice)).1 =
        ⟨0, Outcome.line reported, ""⟩ ∧
      (runLine checkLine none [] (describingTree descendingAdvice)).1 =
        ⟨0, Outcome.line checked, ""⟩ ∧
      (reported.itemsOf "diagnostics").map Json.placeOf =
        ["/variables/0/value", "/variables/0/type"] ∧
      (checked.itemsOf "diagnostics").map Json.placeOf =
        ["/variables/0/type", "/variables/0/value"] := by
  have hread := readDescription_describingTree isAccepted_descendingAdvice length_descendingAdvice
  have hsucceeds :=
    succeeds_generate_describingTree isAccepted_descendingAdvice length_descendingAdvice
  obtain ⟨content, d, hd, hreported⟩ := exists_report_of_generate hsucceeds
  obtain ⟨-, rfl⟩ := Prod.mk.inj (Except.ok.inj (hread.symm.trans hd))
  rw [runLine_eq_run ofArguments?_generateLine, runLine_eq_run ofArguments?_checkLine]
  refine ⟨_, _, hreported, report_of_check (s := ⟨[], inputLimit none⟩) hread, ?_, ?_⟩
  · rw [itemsOf_commandReport, Diagnostic.placeOf_map_toJson]
    decide
  · rw [itemsOf_commandReport, Diagnostic.placeOf_map_toJson]
    exact Diagnostic.map_sortPointer_sort (by decide) (by decide)

end Command

end SmartContract
