import SmartContract.Command.Run
import SmartContract.Proofs.FileTree

/-!
What commands do over a tree of files: which inputs they can read, and what they plan once the input
is read.
-/

namespace SmartContract

/-- The octets of an input. -/
def FileTree.input (t : FileTree) (standardInput : List UInt8) (path : String) :
    Except Obstacle (List UInt8) :=
  if path = "-" then .ok standardInput else t.read path

/-- The input holds the description. -/
def FileTree.Describes (t : FileTree) (standardInput : List UInt8) (path : String)
    (d : Description) : Prop :=
  ∃ content, t.input standardInput path = .ok content ∧ Description.read content = .ok d

/-! ### Outcomes -/

theorem Failure.exitCode_outcome (f : Failure) (command input : String) (reportJson : Bool) :
    (f.outcome command input reportJson).exitCode = f.exitCode := by
  cases reportJson <;> rfl

theorem Failure.outcome_ne_zero (f : Failure) (command input : String) (reportJson : Bool) :
    (f.outcome command input reportJson).exitCode ≠ 0 := by
  rw [f.exitCode_outcome]
  cases f <;> simp [exitCode]

namespace Command

theorem exitCode_programOutcome (d : Description) (input out : String) (reportJson : Bool) :
    (programOutcome d input out reportJson).exitCode = 0 := by
  cases reportJson <;> rfl

theorem exitCode_formattedOutcome (input : String) (reportJson : Bool) :
    (formattedOutcome input reportJson).exitCode = 0 := rfl

/-- The comparison of a program succeeds exactly when the file holds it. -/
theorem exitCode_compareProgram_eq_zero_iff {d : Description} {input out : String}
    {reportJson : Bool} {held : Except Obstacle (List UInt8)} :
    (compareProgram d input out reportJson held).exitCode = 0 ↔ held = .ok (programBytes d) := by
  cases held with
  | error obstacle =>
    refine iff_of_false ?_ nofun
    cases obstacle <;> exact Failure.outcome_ne_zero _ _ _ _
  | ok content =>
    simp only [compareProgram, Except.ok.injEq]
    by_cases hheld : content = programBytes d
    · simp only [hheld, if_true, exitCode_programOutcome]
    · simp only [hheld, if_false, iff_false]
      exact Failure.outcome_ne_zero _ _ _ _

variable {t : FileTree} {standardInput : List UInt8} {limit : Nat} {path : String}
  {content : List UInt8} {d : Description} {failure : Failure}

/-! ### Reading -/

theorem readInput_eq (t : FileTree) (standardInput : List UInt8) (limit : Nat) (path : String) :
    Id.run (readInput (t.access standardInput) limit path) =
      match t.input standardInput path with
      | .ok content => bounded limit path content
      | .error obstacle => .error (.unreadable (inputFailure path obstacle)) := by
  rw [readInput, FileTree.input]
  split
  · rfl
  · rw [Id.run_bind]
    change Id.run (match t.read path with | .ok content => _ | .error obstacle => _) = _
    cases t.read path <;> rfl

theorem readInput_eq_ok_iff :
    Id.run (readInput (t.access standardInput) limit path) = .ok content ↔
      t.input standardInput path = .ok content ∧ content.length ≤ limit := by
  rw [readInput_eq]
  cases t.input standardInput path with
  | error obstacle => simp
  | ok octets =>
    simp only [bounded, Except.ok.injEq]
    split
    · rename_i hlength
      rw [Except.ok.injEq]
      exact ⟨fun h => ⟨h, h ▸ hlength⟩, And.left⟩
    · rename_i hlength
      simp only [reduceCtorEq, false_iff, not_and]
      rintro rfl
      exact hlength

theorem readDescription_eq (t : FileTree) (standardInput : List UInt8) (limit : Nat)
    (path : String) :
    Id.run (readDescription (t.access standardInput) limit path) =
      match Id.run (readInput (t.access standardInput) limit path) with
      | .error failure => .error failure
      | .ok content =>
        match Description.read content with
        | .ok d => .ok (content, d)
        | .error refusal => .error (.refused path refusal) := by
  rw [readDescription, Id.run_bind]
  cases Id.run (readInput (t.access standardInput) limit path) with
  | error failure => rfl
  | ok content =>
    dsimp only
    cases Description.read content <;> rfl

/-- A description is read from an input that holds one and is not too large. -/
theorem readDescription_eq_ok_iff :
    Id.run (readDescription (t.access standardInput) limit path) = .ok (content, d) ↔
      t.input standardInput path = .ok content ∧ content.length ≤ limit ∧
        Description.read content = .ok d := by
  rw [readDescription_eq, ← and_assoc, ← readInput_eq_ok_iff]
  cases Id.run (readInput (t.access standardInput) limit path) with
  | error failure => simp
  | ok octets =>
    simp only [Except.ok.injEq]
    cases hread : Description.read octets with
    | error refusal =>
      simp only [reduceCtorEq, false_iff, not_and]
      rintro rfl
      simp [hread]
    | ok e =>
      simp only [Except.ok.injEq, Prod.mk.injEq]
      refine and_congr_right ?_
      rintro rfl
      rw [hread, Except.ok.injEq]

/-! ### Plans -/

/-- What is done with the input once it is read. -/
theorem planCheck_eq (t : FileTree) (standardInput : List UInt8) (limit : Nat) (input : String)
    (reportJson : Bool) :
    Id.run (planCheck (t.access standardInput) limit input reportJson) =
      match Id.run (readInput (t.access standardInput) limit input) with
      | .error failure => .finish (failure.outcome "check" input reportJson)
      | .ok content => .finish
          ⟨(checkReport content).2, Outcome.line
            (if reportJson then commandReport "check" input (checkReport content).1.diagnostics
              (checkReport content).1.facts (checkReport content).2
            else (checkReport content).1.toJson), ""⟩ := by
  rw [planCheck, Id.run_bind]
  cases Id.run (readInput (t.access standardInput) limit input) <;> rfl

theorem planLayout_eq (t : FileTree) (standardInput : List UInt8) (limit : Nat) (input : String) :
    Id.run (planLayout (t.access standardInput) limit input) =
      match Id.run (readDescription (t.access standardInput) limit input) with
      | .error failure => .finish (failure.outcome "layout" input false)
      | .ok (_, d) => .finish (.success (Outcome.line (slotsJson d))) := by
  rw [planLayout, Id.run_bind]
  rcases Id.run (readDescription (t.access standardInput) limit input) with _ | ⟨_, _⟩ <;> rfl

/-- What is done with the program once the description is read. -/
theorem planGenerate_eq (t : FileTree) (standardInput : List UInt8) (limit : Nat)
    (input out : String) {write compared : Bool} (reportJson : Bool)
    (h : (write && compared) = false) :
    Id.run (planGenerate (t.access standardInput) limit input (some out) write compared reportJson) =
      match Id.run (readDescription (t.access standardInput) limit input) with
      | .error failure => .finish (failure.outcome "gen" input reportJson)
      | .ok (_, d) =>
        if compared then .finish (compareProgram d input out reportJson (t.read out))
        else planWrite d input out reportJson := by
  simp only [planGenerate, h]
  rfl

/-- What is done with the description once it is read. -/
theorem planFormat_eq (t : FileTree) (standardInput : List UInt8) (limit : Nat) (input : String)
    {compared write : Bool} (reportJson : Bool) (h : compared ≠ write)
    (hinput : write = true → input ≠ "-") :
    Id.run (planFormat (t.access standardInput) limit input compared write reportJson) =
      match Id.run (readDescription (t.access standardInput) limit input) with
      | .error failure => .finish (failure.outcome "fmt" input reportJson)
      | .ok (content, d) =>
        if content = formattedBytes d then .finish (formattedOutcome input reportJson)
        else if compared then .finish ((Failure.unformatted input).outcome "fmt" input reportJson)
        else
          .write input (formattedBytes d) (formattedOutcome input reportJson) fun failure =>
            (Failure.unwritable failure).outcome "fmt" input reportJson := by
  have hwrite : (write && decide (input = "-")) = false := by
    cases write <;> simp_all
  simp only [planFormat, h, hwrite, if_false, Bool.false_eq_true, Id.run_bind]
  rcases Id.run (readDescription (t.access standardInput) limit input) with
    failure | ⟨content, d⟩
  · rfl
  · dsimp only
    split
    · rfl
    · split <;> rfl

end Command

end SmartContract
