import SmartContract.Proofs.Command.Run

/-!
What command lines do to files. A command line that fails changes no file. One that succeeds changes
none either, unless its command is to write a file; then that file holds what it is to hold, and all
others are as they were.
-/

namespace SmartContract

namespace Command

/-- The file that the command is to write, if it is to write one: the program unless it is compared,
a description in its one form, or the description of a new contract. -/
def target? : Command → Option String
  | generate _ (some out) _ false _ => some out
  | format input false true _ => some input
  | start _ out _ => some out
  | _ => none

/-- The content is what the command is to write. -/
def Prescribes (t : FileTree) (standardInput : List UInt8) : Command → List UInt8 → Prop
  | generate input .., content =>
    ∃ d, t.Describes standardInput input d ∧ content = programBytes d
  | format input .., content =>
    ∃ d, t.Describes standardInput input d ∧ content = formattedBytes d
  | start name .., content => ∃ d, Description.starter? name = .ok d ∧ content = formattedBytes d
  | _, _ => False

end Command

/-- The plan does what the command is to do: it is finished with success only if nothing remains to
be written, and it fails if the file cannot be written. -/
def Plan.Suits (t : FileTree) (standardInput : List UInt8) (c : Command) : Plan → Prop
  | finish outcome =>
    outcome.exitCode = 0 → ∀ path, c.target? = some path →
      ∃ content, c.Prescribes t standardInput content ∧ t.read path = .ok content
  | write path content done failed =>
    c.target? = some path ∧ c.Prescribes t standardInput content ∧ done.exitCode = 0 ∧
      ∀ failure, (failed failure).exitCode ≠ 0

variable {t : FileTree} {standardInput : List UInt8} {limit : Nat} {c : Command}

/-! ### Plans -/

namespace Plan

theorem suits_failure {outcome : Outcome} (h : outcome.exitCode ≠ 0) :
    (finish outcome).Suits t standardInput c :=
  fun hzero => absurd hzero h

theorem suits_of_target?_eq_none {outcome : Outcome} (h : c.target? = none) :
    (finish outcome).Suits t standardInput c := by
  intro _ path hpath
  rw [h] at hpath
  cases hpath

end Plan

namespace Command

theorem suits_planCheck (input : String) (reportJson : Bool) (h : c.target? = none) :
    (Id.run (planCheck (t.access standardInput) limit input reportJson)).Suits t standardInput
      c := by
  rw [planCheck_eq]
  cases Id.run (readInput (t.access standardInput) limit input) <;>
    exact Plan.suits_of_target?_eq_none h

theorem suits_planLayout (input : String) (h : c.target? = none) :
    (Id.run (planLayout (t.access standardInput) limit input)).Suits t standardInput c := by
  rw [planLayout_eq]
  rcases Id.run (readDescription (t.access standardInput) limit input) with _ | ⟨_, _⟩ <;>
    exact Plan.suits_of_target?_eq_none h

theorem suits_planPrint (input : String) (h : c.target? = none) :
    (Id.run (planPrint (t.access standardInput) limit input)).Suits t standardInput c := by
  change Plan.Suits t standardInput c
    (match readDescription (t.access standardInput) limit input with
      | .error _ => _ | .ok (_, _) => _)
  rcases readDescription (t.access standardInput) limit input with _ | ⟨_, _⟩ <;>
    exact Plan.suits_of_target?_eq_none h

theorem suits_planGenerate (input : String) (out : Option String)
    (write compared reportJson : Bool) :
    (Id.run (planGenerate (t.access standardInput) limit input out write compared reportJson)).Suits
      t standardInput (generate input out write compared reportJson) := by
  by_cases hboth : (write && compared) = true
  · simp only [planGenerate, hboth]
    exact Plan.suits_failure (Failure.outcome_ne_zero _ _ _ _)
  · rw [Bool.not_eq_true] at hboth
    cases out with
    | none =>
      simp only [planGenerate, hboth]
      by_cases hflags : (write || compared || reportJson) = true
      · rw [if_pos hflags]
        exact Plan.suits_failure (Failure.outcome_ne_zero _ _ _ _)
      · rw [if_neg hflags]
        exact suits_planPrint input rfl
    | some out =>
      rw [planGenerate_eq t standardInput limit input out reportJson hboth]
      split
      · exact Plan.suits_failure (Failure.outcome_ne_zero _ _ _ _)
      · rename_i content d hread
        obtain ⟨hinput, -, hdescription⟩ := readDescription_eq_ok_iff.1 hread
        cases compared with
        | true => exact Plan.suits_of_target?_eq_none rfl
        | false =>
          exact ⟨rfl, ⟨d, ⟨content, hinput, hdescription⟩, rfl⟩,
            exitCode_programOutcome d input out reportJson,
            fun failure => Failure.outcome_ne_zero _ _ _ _⟩

theorem suits_planFormat (input : String) (compared write reportJson : Bool) :
    (Id.run (planFormat (t.access standardInput) limit input compared write reportJson)).Suits
      t standardInput (format input compared write reportJson) := by
  by_cases hboth : compared = write
  · simp only [planFormat, hboth]
    exact Plan.suits_failure (Failure.outcome_ne_zero _ _ _ _)
  · by_cases hinput : write = true ∧ input = "-"
    · obtain ⟨rfl, rfl⟩ := hinput
      simp only [planFormat, hboth]
      exact Plan.suits_failure (Failure.outcome_ne_zero _ _ _ _)
    · rw [planFormat_eq t standardInput limit input reportJson hboth (not_and.1 hinput)]
      split
      · exact Plan.suits_failure (Failure.outcome_ne_zero _ _ _ _)
      · rename_i content d hread
        obtain ⟨hcontent, -, hdescription⟩ := readDescription_eq_ok_iff.1 hread
        cases write with
        | false =>
          have hnone : (format input compared false reportJson).target? = none := by
            cases compared <;> rfl
          split
          · exact Plan.suits_of_target?_eq_none hnone
          · split
            · exact Plan.suits_of_target?_eq_none hnone
            · rename_i hcompared
              exact absurd hboth (by simpa using hcompared)
        | true =>
          obtain rfl : compared = false := by simpa using hboth
          have hpath : input ≠ "-" := fun h => hinput ⟨rfl, h⟩
          have hdescribes : t.Describes standardInput input d := ⟨content, hcontent, hdescription⟩
          split
          · rename_i hformatted
            rintro - path ⟨⟩
            rw [FileTree.input, if_neg hpath] at hcontent
            exact ⟨content, ⟨d, hdescribes, hformatted⟩, hcontent⟩
          · exact ⟨rfl, ⟨d, hdescribes, rfl⟩, exitCode_formattedOutcome input reportJson,
              fun failure => Failure.outcome_ne_zero _ _ _ _⟩

theorem suits_planStart (name out : String) (force : Bool) :
    (Id.run (planStart (t.access standardInput) name out force)).Suits t standardInput
      (start name out force) := by
  rw [planStart]
  split
  · exact Plan.suits_failure (Nat.succ_ne_zero _)
  · rename_i d hstarter
    change Plan.Suits t standardInput _ (if isThere (t.read out) && !force then _ else _)
    split
    · exact Plan.suits_failure (Nat.succ_ne_zero _)
    · exact ⟨rfl, ⟨d, hstarter, rfl⟩, rfl, fun failure => Nat.succ_ne_zero _⟩

/-- What a command plans is what it is to do. -/
theorem suits_plan (c : Command) :
    (Id.run (c.plan (t.access standardInput) limit)).Suits t standardInput c := by
  cases c with
  | languageId => exact Plan.suits_of_target?_eq_none rfl
  | form => exact Plan.suits_of_target?_eq_none rfl
  | check input reportJson => exact suits_planCheck input reportJson rfl
  | layout input => exact suits_planLayout input rfl
  | generate input out write compared reportJson =>
    exact suits_planGenerate input out write compared reportJson
  | format input compared write reportJson =>
    exact suits_planFormat input compared write reportJson
  | start name out force => exact suits_planStart name out force

end Command

/-! ### Runs -/

/-- A file that is there with its content counts as written. -/
theorem FileTree.writes_of_read {path : String} {content : List UInt8}
    (h : t.read path = .ok content) : t.Writes path content t := by
  obtain ⟨place, hplace, hfile⟩ := read_eq_ok_iff.1 h
  exact ⟨fun _ => id, place, hplace, content?_eq_some_iff.2 hfile, fun _ _ => rfl⟩

/-- What performing a plan that suits a command does to the files. -/
theorem Plan.Suits.effects {p : Plan} (h : p.Suits t standardInput c) :
    ((p.perform t).1.exitCode ≠ 0 → t.SameFiles (p.perform t).2) ∧
      (c.target? = none → (p.perform t).2 = t) ∧
        ((p.perform t).1.exitCode = 0 → ∀ path, c.target? = some path →
          ∃ content, c.Prescribes t standardInput content ∧
            t.Writes path content (p.perform t).2) := by
  cases p with
  | finish outcome =>
    refine ⟨fun _ => .refl t, fun _ => rfl, fun hzero path hpath => ?_⟩
    obtain ⟨content, hprescribed, hread⟩ := h hzero path hpath
    exact ⟨content, hprescribed, FileTree.writes_of_read hread⟩
  | write path content done failed =>
    obtain ⟨htarget, hprescribed, hdone, hfailed⟩ := h
    have hnone : c.target? ≠ none := by simp [htarget]
    rw [perform]
    rcases hwrite : t.write path content with ⟨after, failure | _⟩
    · exact ⟨fun _ => (FileTree.write_eq_error hwrite).sameFiles, fun h => absurd h hnone,
        fun hzero => absurd hzero (hfailed failure)⟩
    · refine ⟨fun hne => absurd hdone hne, fun h => absurd h hnone, fun _ other hother => ?_⟩
      obtain rfl := Option.some.inj (htarget.symm.trans hother)
      exact ⟨content, hprescribed, FileTree.writes_of_write_eq_ok hwrite⟩

/-- A command line that fails changes no file; a command that is to write none leaves the tree as it
is; and when a command succeeds that is to write a file, the file holds what is to be written and
every other file is as it was. -/
theorem runLine_effects {arguments : List String} {setting : Option String}
    {standardInput : List UInt8} {t after : FileTree} {outcome : Outcome}
    (h : runLine arguments setting standardInput t = (outcome, after)) :
    (outcome.exitCode ≠ 0 → t.SameFiles after) ∧
      (∀ c, Command.ofArguments? arguments = some c → c.target? = none → after = t) ∧
        (outcome.exitCode = 0 → ∃ c, Command.ofArguments? arguments = some c ∧
          ∀ path, c.target? = some path → ∃ content, c.Prescribes t standardInput content ∧
            t.Writes path content after) := by
  rw [runLine, planLine] at h
  cases harguments : Command.ofArguments? arguments with
  | none =>
    rw [harguments] at h
    obtain ⟨rfl, rfl⟩ := Prod.mk.inj h
    exact ⟨fun _ => .refl t, nofun, nofun⟩
  | some c =>
    rw [harguments] at h
    obtain ⟨hfailed, hnone, hdone⟩ := (Command.suits_plan c).effects
    dsimp only at h
    rw [h] at hfailed hnone hdone
    exact ⟨hfailed, fun e he htarget => hnone (Option.some.inj he ▸ htarget), fun hzero =>
      ⟨c, rfl, hdone hzero⟩⟩

theorem runLine_effects_start :
    ∃ after, runLine ["init", "--name", "Sample", "--out", "a/sample.json"] none [] .empty =
        (.success "", after) ∧
      FileTree.empty.Writes "a/sample.json"
        (Command.formattedBytes (Description.starter "Sample")) after := by
  have hcommand : Command.ofArguments? ["init", "--name", "Sample", "--out", "a/sample.json"] =
      some (.start "Sample" "a/sample.json" false) := by
    decide +kernel
  have houtcome : (runLine ["init", "--name", "Sample", "--out", "a/sample.json"] none []
      .empty).1 = .success "" := by
    decide +kernel
  refine ⟨_, Prod.ext houtcome rfl, ?_⟩
  obtain ⟨c, hc, hwrites⟩ := (runLine_effects (Prod.ext houtcome rfl)).2.2 rfl
  obtain rfl := Option.some.inj (hcommand.symm.trans hc)
  obtain ⟨content, ⟨d, hd, rfl⟩, hwritten⟩ := hwrites _ rfl
  have hstarter : Description.starter? "Sample" = .ok (Description.starter "Sample") := rfl
  rw [hstarter] at hd
  obtain rfl := Except.ok.inj hd
  exact hwritten

end SmartContract
