import SmartContract.Proofs.Command.Effects
import SmartContract.Proofs.Description.Roundtrip
import SmartContract.Proofs.FileTree.Overwrite

/-!
What comparing foretells of writing. A comparison with a file succeeds exactly when writing the file
would succeed and change nothing, directories included, and it succeeds after the file was written.
Directories have to be included: a path through a directory that is not there leads nowhere, but
writing makes the directory first.
-/

namespace SmartContract

namespace FileTree

variable {t u : FileTree} {path : String} {old new : List UInt8}

/-- Writing what is there already changes nothing. -/
theorem write_same (h : t.read path = .ok old) :
    ∃ after, t.write path old = (after, .ok ()) ∧ ∀ place, after.get? place = t.get? place := by
  obtain ⟨place, hplace, hfile⟩ := read_eq_ok_iff.1 h
  refine ⟨_, write_of_file hplace hfile, fun other => ?_⟩
  have hupper : isUpper place = false := by
    rw [Bool.eq_false_iff]
    intro hupper
    rw [get?_of_isUpper hupper] at hfile
    cases hfile
  rw [get?_put t hupper]
  split
  · rename_i heq
    rw [heq, hfile]
  · rfl

/-- A file that was written with no change to any file held what was written. -/
theorem Writes.eq_of_sameFiles (h : t.Writes path new u) (hsame : t.SameFiles u)
    (hread : t.read path = .ok old) : old = new := by
  obtain ⟨place, hplace, hfile⟩ := read_eq_ok_iff.1 hread
  obtain ⟨written, hwritten, hnew, -⟩ := h.placed
  obtain rfl := Except.ok.inj ((h.keeps.place? hplace).symm.trans hwritten)
  rw [hsame, content?_eq_some_iff.2 hfile] at hnew
  exact Option.some.inj hnew

/-- A file that was written is there. -/
theorem Writes.read (h : t.Writes path new u) : u.read path = .ok new := by
  obtain ⟨place, hplace, hnew, -⟩ := h.placed
  exact read_eq_ok_iff.2 ⟨place, hplace, content?_eq_some_iff.1 hnew⟩

/-- A file at another place than the one that was written is there as before. -/
theorem Writes.read_other {other : String} {content : List UInt8} (h : t.Writes path new u)
    (hread : t.read other = .ok content) (hne : u.place? path ≠ u.place? other) :
    u.read other = .ok content := by
  obtain ⟨place, hplace, hfile⟩ := read_eq_ok_iff.1 hread
  obtain ⟨written, hwritten, -, hothers⟩ := h.placed
  have hafter := h.keeps.place? hplace
  have hplaces : place ≠ written := by
    rintro rfl
    exact hne (hwritten.trans hafter.symm)
  refine read_eq_ok_iff.2 ⟨place, hafter, content?_eq_some_iff.1 ?_⟩
  rw [hothers place hplaces, content?_eq_some_iff.2 hfile]

/-- In trees where the same stands everywhere the same can be read. -/
theorem read_congr (h : ∀ place, u.get? place = t.get? place) (hread : t.read path = .ok old) :
    u.read path = .ok old := by
  obtain ⟨place, hplace, hfile⟩ := read_eq_ok_iff.1 hread
  have hkeeps : t.KeepsDirectories u := fun place hplace => (h place).trans hplace
  exact read_eq_ok_iff.2 ⟨place, hkeeps.place? hplace, (h place).trans hfile⟩

end FileTree

namespace Command

/-- The command exits with zero. -/
def Succeeds (c : Command) (s : Surroundings) (t : FileTree) : Prop := (c.run s t).1.exitCode = 0

/-- The command exits with zero and leaves the tree. -/
def LeadsTo (c : Command) (s : Surroundings) (t after : FileTree) : Prop :=
  c.Succeeds s t ∧ (c.run s t).2 = after

variable {s : Surroundings} {t after : FileTree} {input out : String} {write reportJson : Bool}

/-! ### Runs -/

/-- A command line does what its command does. -/
theorem runLine_eq_run {arguments : List String} {c : Command}
    (h : ofArguments? arguments = some c) (setting : Option String) (standardInput : List UInt8)
    (t : FileTree) :
    runLine arguments setting standardInput t = c.run ⟨standardInput, inputLimit setting⟩ t := by
  rw [runLine, planLine, h]
  rfl

/-- The comparison of a program succeeds when the input holds a description and the file the
program. -/
theorem succeeds_compareProgram_iff :
    (generate input (some out) false true reportJson).Succeeds s t ↔
      ∃ content d, Id.run (readDescription (t.access s.standardInput) s.limit input) =
        .ok (content, d) ∧ t.read out = .ok (programBytes d) := by
  rw [Succeeds, run, plan, planGenerate_eq t s.standardInput s.limit input out reportJson rfl]
  rcases Id.run (readDescription (t.access s.standardInput) s.limit input) with
    failure | ⟨content, d⟩
  · simp [Plan.perform, Failure.outcome_ne_zero]
  · simp [Plan.perform, exitCode_compareProgram_eq_zero_iff]

/-- The writing of a program succeeds when the input holds a description and the program can be
written. -/
theorem leadsTo_writeProgram_iff :
    (generate input (some out) write false reportJson).LeadsTo s t after ↔
      ∃ content d, Id.run (readDescription (t.access s.standardInput) s.limit input) =
        .ok (content, d) ∧ t.write out (programBytes d) = (after, .ok ()) := by
  rw [LeadsTo, Succeeds, run, plan,
    planGenerate_eq t s.standardInput s.limit input out reportJson (by simp)]
  rcases Id.run (readDescription (t.access s.standardInput) s.limit input) with
    failure | ⟨content, d⟩
  · simp [Plan.perform, Failure.outcome_ne_zero]
  · simp only [Bool.false_eq_true, if_false, planWrite, Plan.perform, Except.ok.injEq]
    rcases hwrite : t.write out (programBytes d) with ⟨tree, failure | _⟩
    · simp [hwrite, Failure.outcome_ne_zero]
    · simp [hwrite, exitCode_programOutcome]

/-- The comparison of a description succeeds when the input holds it in its one form. -/
theorem succeeds_compareFormat_iff :
    (format input true false reportJson).Succeeds s t ↔
      ∃ d, Id.run (readDescription (t.access s.standardInput) s.limit input) =
        .ok (formattedBytes d, d) := by
  rw [Succeeds, run, plan,
    planFormat_eq t s.standardInput s.limit input reportJson (by simp) (by simp)]
  rcases Id.run (readDescription (t.access s.standardInput) s.limit input) with
    failure | ⟨content, d⟩
  · simp [Plan.perform, Failure.outcome_ne_zero]
  · by_cases hformatted : content = formattedBytes d
    · simp [Plan.perform, hformatted, exitCode_formattedOutcome]
    · simp only [hformatted, if_false, if_true, Plan.perform, Failure.outcome_ne_zero, false_iff,
        Except.ok.injEq, Prod.mk.injEq, not_exists, not_and]
      rintro e rfl rfl
      exact hformatted rfl

/-- The writing of a description in its one form succeeds when the input holds one and that form is
what it holds or can be written. -/
theorem leadsTo_writeFormat_iff (h : input ≠ "-") :
    (format input false true reportJson).LeadsTo s t after ↔
      ∃ content d, Id.run (readDescription (t.access s.standardInput) s.limit input) =
        .ok (content, d) ∧
          (content = formattedBytes d ∧ t = after ∨
            content ≠ formattedBytes d ∧ t.write input (formattedBytes d) = (after, .ok ())) := by
  rw [LeadsTo, Succeeds, run, plan,
    planFormat_eq t s.standardInput s.limit input reportJson (by simp) fun _ => h]
  rcases Id.run (readDescription (t.access s.standardInput) s.limit input) with
    failure | ⟨content, d⟩
  · simp [Plan.perform, Failure.outcome_ne_zero]
  · by_cases hformatted : content = formattedBytes d
    · simp [Plan.perform, hformatted, exitCode_formattedOutcome]
    · rcases hwrite : t.write input (formattedBytes d) with ⟨tree, failure | _⟩
      · simp [Plan.perform, hformatted, hwrite, Failure.outcome_ne_zero]
      · simp [Plan.perform, hformatted, hwrite, exitCode_formattedOutcome]

/-! ### Comparisons and what they foretell -/

/-- A description is in its one form when writing it in that form changes no file. -/
theorem succeeds_compareFormat_iff_leadsTo (h : input ≠ "-") :
    (format input true false reportJson).Succeeds s t ↔
      ∃ after, (format input false true reportJson).LeadsTo s t after ∧ t.SameFiles after := by
  rw [succeeds_compareFormat_iff]
  constructor
  · rintro ⟨d, hread⟩
    exact ⟨t, (leadsTo_writeFormat_iff h).2 ⟨_, d, hread, .inl ⟨rfl, rfl⟩⟩, .refl t⟩
  · rintro ⟨after, hleads, hsame⟩
    obtain ⟨content, d, hread, ⟨rfl, -⟩ | ⟨hne, hwrite⟩⟩ := (leadsTo_writeFormat_iff h).1 hleads
    · exact ⟨d, hread⟩
    · have hcontent := (readDescription_eq_ok_iff.1 hread).1
      rw [FileTree.input, if_neg h] at hcontent
      have hwrites := FileTree.writes_of_write_eq_ok hwrite
      exact absurd (hwrites.eq_of_sameFiles hsame hcontent) hne

/-- A file holds the program when writing the program to it changes nothing. -/
theorem succeeds_compareProgram_iff_leadsTo :
    (generate input (some out) false true reportJson).Succeeds s t ↔
      ∃ after, (generate input (some out) write false reportJson).LeadsTo s t after ∧
        ∀ place, after.get? place = t.get? place := by
  rw [succeeds_compareProgram_iff]
  constructor
  · rintro ⟨content, d, hread, hheld⟩
    obtain ⟨after, hwrite, hsame⟩ := FileTree.write_same hheld
    exact ⟨after, leadsTo_writeProgram_iff.2 ⟨content, d, hread, hwrite⟩, hsame⟩
  · rintro ⟨after, hleads, hsame⟩
    obtain ⟨content, d, hread, hwrite⟩ := leadsTo_writeProgram_iff.1 hleads
    have hheld := (FileTree.writes_of_write_eq_ok hwrite).read
    exact ⟨content, d, hread, FileTree.read_congr (fun place => (hsame place).symm) hheld⟩

/-- A file that the program was written to holds it, unless it is the input. -/
theorem succeeds_compareProgram_of_leadsTo
    (h : (generate input (some out) write false reportJson).LeadsTo s t after)
    (hother : input = "-" ∨ after.place? out ≠ after.place? input) :
    (generate input (some out) false true reportJson).Succeeds s after := by
  obtain ⟨content, d, hread, hwrite⟩ := leadsTo_writeProgram_iff.1 h
  obtain ⟨hcontent, hlength, hdescription⟩ := readDescription_eq_ok_iff.1 hread
  have hwrites := FileTree.writes_of_write_eq_ok hwrite
  have hafter : after.input s.standardInput input = .ok content := by
    rw [FileTree.input] at hcontent ⊢
    split at hcontent
    · rename_i hstandard
      rw [if_pos hstandard, hcontent]
    · rename_i hpath
      rw [if_neg hpath]
      exact hwrites.read_other hcontent (hother.resolve_left hpath)
  exact succeeds_compareProgram_iff.2
    ⟨content, d, readDescription_eq_ok_iff.2 ⟨hafter, hlength, hdescription⟩, hwrites.read⟩

/-- For every tree and every bound: a description that stands in a file is in its one form exactly
when writing it in that form succeeds and changes no file; a file holds the program exactly when
writing the program to it succeeds and changes neither a file nor a directory; and it holds the
program after that was written to it, unless its path leads to the input. -/
theorem comparison_foretells_writing (s : Surroundings) (t : FileTree) (input out : String)
    (reportJson : Bool) :
    (input ≠ "-" →
      ((format input true false reportJson).Succeeds s t ↔
        ∃ after, (format input false true reportJson).LeadsTo s t after ∧ t.SameFiles after)) ∧
    ((generate input (some out) false true reportJson).Succeeds s t ↔
      ∃ after, (generate input (some out) true false reportJson).LeadsTo s t after ∧
        ∀ place, after.get? place = t.get? place) ∧
    ∀ write after, (generate input (some out) write false reportJson).LeadsTo s t after →
      (input = "-" ∨ after.place? out ≠ after.place? input) →
        (generate input (some out) false true reportJson).Succeeds s after :=
  ⟨succeeds_compareFormat_iff_leadsTo, succeeds_compareProgram_iff_leadsTo,
    fun _ _ => succeeds_compareProgram_of_leadsTo⟩

/-- A directory with the description of a new contract and its program. -/
def sampleTree : FileTree :=
  ⟨[(["d.json"], .file (formattedBytes (Description.starter "Sample"))),
    (["f"], .file (programBytes (Description.starter "Sample")))]⟩

/-- Nothing on the standard input, and a bound that the description just keeps. -/
def sampleSurroundings : Surroundings :=
  ⟨[], (formattedBytes (Description.starter "Sample")).length⟩

theorem isAccepted_starter : (Description.starter "Sample").IsAccepted :=
  Description.isAccepted_of_toOption (by decide +kernel)

theorem readDescription_sampleTree :
    Id.run (readDescription (sampleTree.access sampleSurroundings.standardInput)
      sampleSurroundings.limit "d.json") =
        .ok (formattedBytes (Description.starter "Sample"), Description.starter "Sample") := by
  have hlimit : sampleSurroundings.limit =
      (formattedBytes (Description.starter "Sample")).length := by
    rw [sampleSurroundings]
  exact readDescription_eq_ok_iff.2 ⟨rfl, hlimit.ge, isAccepted_starter.read_formattedBytes⟩

theorem comparison_foretells_writing_sample :
    (format "d.json" true false false).Succeeds sampleSurroundings sampleTree ∧
      (∃ after, (format "d.json" false true false).LeadsTo sampleSurroundings sampleTree after ∧
        sampleTree.SameFiles after) ∧
      ∃ after,
        (generate "d.json" (some "g") true false false).LeadsTo sampleSurroundings sampleTree after ∧
          (generate "d.json" (some "g") false true false).Succeeds sampleSurroundings after := by
  obtain ⟨hformat, -, hgenerate⟩ :=
    comparison_foretells_writing sampleSurroundings sampleTree "d.json" "g" false
  have hsucceeds : (format "d.json" true false false).Succeeds sampleSurroundings sampleTree :=
    succeeds_compareFormat_iff.2 ⟨_, readDescription_sampleTree⟩
  have hwrite : (generate "d.json" (some "g") true false false).LeadsTo sampleSurroundings sampleTree
      (sampleTree.put ["g"] (.file (programBytes (Description.starter "Sample")))) :=
    leadsTo_writeProgram_iff.2 ⟨_, _, readDescription_sampleTree, rfl⟩
  exact ⟨hsucceeds, (hformat (by decide)).1 hsucceeds, _, hwrite,
    hgenerate true _ hwrite (.inr (by decide))⟩

/-- A path through a directory that is not there leads nowhere. Writing makes the directory, and then
finds that the file holds the program. -/
theorem comparison_not_foretelling_writing :
    ¬ (generate "d.json" (some "x/../f") false true false).Succeeds sampleSurroundings sampleTree ∧
      ∃ after, (generate "d.json" (some "x/../f") true false false).LeadsTo sampleSurroundings
        sampleTree after ∧ sampleTree.SameFiles after := by
  constructor
  · rw [succeeds_compareProgram_iff]
    rintro ⟨content, d, -, hheld⟩
    have hmissing : sampleTree.read "x/../f" = .error .missing := rfl
    rw [hmissing] at hheld
    cases hheld
  · -- The directory is put where nothing stands, and the file where it is already.
    have hdirectory : sampleTree.Extends (sampleTree.put ["x"] .directory) := .put_directory rfl rfl
    refine ⟨_, leadsTo_writeProgram_iff.2 ⟨_, _, readDescription_sampleTree, rfl⟩, fun place => ?_⟩
    by_cases hplace : place = ["f"]
    · subst hplace
      rfl
    · exact (FileTree.content?_put_of_ne rfl hplace).trans (hdirectory.sameFiles place)

end Command

end SmartContract
