import Mathlib.Data.List.Induction
import SmartContract.Command.Plan
import SmartContract.Proofs.Description.Batch
import SmartContract.Proofs.Json.Order

/-!
Reports that are built by updates. An update replaces the diagnostics of a report or gives a value to
one of its facts. What comes out depends on the diagnostics that were given last and on the last value
of each fact, and on nothing else: updates of the two sorts can change places, and diagnostics that are
in order already stay as they are, such as the faults for which something is refused as a description.
-/

namespace SmartContract

open Diagnostic (eq_of_filter_sortKey_eq)

namespace Report

/-- A change of a report. -/
inductive Update where
  | diagnostics (ds : List Diagnostic)
  | fact (name : String) (value : Json)

namespace Update

/-- The diagnostics that the update gives. -/
def diagnostics? : Update → Option (List Diagnostic)
  | diagnostics ds => some ds
  | fact .. => none

/-- The value that the update gives to the fact of the name. -/
def value? (name : String) : Update → Option Json
  | diagnostics _ => none
  | fact other value => if name = other then some value else none

end Update

def update (r : Report) : Update → Report
  | .diagnostics ds => r.withDiagnostics ds
  | .fact name value => r.withFact name value

/-- The report that updates make of the one of a run that found nothing. -/
def built (updates : List Update) : Report := updates.foldl update empty

/-- The diagnostics that were given last. -/
def lastDiagnostics (updates : List Update) : List Diagnostic :=
  (updates.filterMap Update.diagnostics?).getLast?.getD []

/-- The value that was given last to the fact of the name. -/
def lastValue? (updates : List Update) (name : String) : Option Json :=
  (updates.filterMap (Update.value? name)).getLast?

/-- The report lists the diagnostics by their keys, those of the same key as they stand, and says
whether one of them is an error. -/
structure Lists (r : Report) (ds : List Diagnostic) : Prop where
  perm : r.diagnostics.Perm ds
  ordered : r.diagnostics.Pairwise fun d e => d.sortKey ≤ e.sortKey
  stable (key : List (List UInt8)) :
    r.diagnostics.filter (·.sortKey = key) = ds.filter (·.sortKey = key)
  ok_iff : r.ok = true ↔ ∀ d ∈ r.diagnostics, d.severity ≠ .error

/-- The facts of the report have the values, and stand in the order of their names, each name once. -/
structure States (r : Report) (value? : String → Option Json) : Prop where
  ascending : Json.Ascending r.facts
  lookup (name : String) : r.facts.lookup name = value? name

variable {r s : Report} {ds : List Diagnostic} {value? : String → Option Json}

/-! ### What an update keeps -/

theorem lists_withDiagnostics (r : Report) (ds : List Diagnostic) :
    (r.withDiagnostics ds).Lists ds where
  perm := Diagnostic.sort_perm ds
  ordered := Diagnostic.pairwise_sortKey_sort ds
  stable := Diagnostic.filter_sortKey_sort ds
  ok_iff := by
    simp only [withDiagnostics, List.all_eq_true, decide_eq_true_eq, (Diagnostic.sort_perm ds).mem_iff]

theorem Lists.withFact (h : r.Lists ds) (name : String) (value : Json) :
    (r.withFact name value).Lists ds :=
  ⟨h.perm, h.ordered, h.stable, h.ok_iff⟩

theorem Lists.update (h : r.Lists ds) (u : Update) : (r.update u).Lists (u.diagnostics?.getD ds) := by
  cases u with
  | diagnostics es => exact lists_withDiagnostics r es
  | fact name value => exact h.withFact name value

theorem States.update (h : r.States value?) (u : Update) :
    (r.update u).States fun name => (u.value? name).or (value? name) := by
  cases u with
  | diagnostics ds => exact ⟨h.ascending, h.lookup⟩
  | fact name value =>
    refine ⟨Json.ascending_insertMember h.ascending, fun other => ?_⟩
    rw [Report.update, withFact, Json.lookup_insertMember, Update.value?, h.lookup]
    split
    · rfl
    · rfl

/-! ### What a run of updates makes -/

theorem built_concat (updates : List Update) (u : Update) :
    built (updates ++ [u]) = (built updates).update u := List.foldl_concat ..

theorem getLast?_filterMap_concat {α : Type} (f : Update → Option α) (updates : List Update)
    (u : Update) : ((updates ++ [u]).filterMap f).getLast? =
      (f u).or (updates.filterMap f).getLast? := by
  rw [List.filterMap_append, List.getLast?_append, List.filterMap_cons, List.filterMap_nil]
  cases f u <;> rfl

theorem lastDiagnostics_concat (updates : List Update) (u : Update) :
    lastDiagnostics (updates ++ [u]) = u.diagnostics?.getD (lastDiagnostics updates) := by
  rw [lastDiagnostics, getLast?_filterMap_concat, Option.getD_or, lastDiagnostics]

theorem lastValue?_concat (updates : List Update) (u : Update) (name : String) :
    lastValue? (updates ++ [u]) name = (u.value? name).or (lastValue? updates name) :=
  getLast?_filterMap_concat ..

theorem lists_built (updates : List Update) : (built updates).Lists (lastDiagnostics updates) := by
  -- The last update is taken off first, for it decides about what it gives.
  induction updates using List.reverseRecOn with
  | nil => exact ⟨.nil, .nil, fun _ => rfl, by simp [built, empty]⟩
  | append_singleton updates u ih =>
    rw [built_concat, lastDiagnostics_concat]
    exact ih.update u

theorem states_built (updates : List Update) : (built updates).States (lastValue? updates) := by
  induction updates using List.reverseRecOn with
  | nil => exact ⟨.nil, fun _ => rfl⟩
  | append_singleton updates u ih =>
    rw [built_concat, funext (lastValue?_concat updates u)]
    exact ih.update u

/-! ### Reports that say the same -/

theorem Lists.diagnostics_eq (h : r.Lists ds)
    (hds : ds.Pairwise fun d e => d.sortKey ≤ e.sortKey) : r.diagnostics = ds :=
  eq_of_filter_sortKey_eq h.ordered hds h.stable

/-- A report lists its own diagnostics if it lists any. -/
theorem Lists.self (h : r.Lists ds) : r.Lists r.diagnostics :=
  ⟨.refl _, h.ordered, fun _ => rfl, h.ok_iff⟩

/-- What a report lists and states determines it. -/
theorem eq_of_lists_of_states (hr : r.Lists ds) (hs : s.Lists ds) (hrvalues : r.States value?)
    (hsvalues : s.States value?) : r = s := by
  have hdiagnostics : r.diagnostics = s.diagnostics :=
    eq_of_filter_sortKey_eq hr.ordered hs.ordered fun key => (hr.stable key).trans (hs.stable key).symm
  have hok : r.ok = s.ok := by
    rw [Bool.eq_iff_iff, hr.ok_iff, hs.ok_iff, hdiagnostics]
  have hfacts : r.facts = s.facts := Json.ascending_ext hrvalues.ascending hsvalues.ascending
    fun name => (hrvalues.lookup name).trans (hsvalues.lookup name).symm
  cases r
  cases s
  rw [Report.mk.injEq]
  exact ⟨hok, hdiagnostics, hfacts⟩

/-- Updates that give the same diagnostics and values last make the same report. -/
theorem built_congr {updates others : List Update}
    (hds : lastDiagnostics updates = lastDiagnostics others)
    (hvalues : lastValue? updates = lastValue? others) : built updates = built others := by
  have hlists := lists_built updates
  have hstates := states_built updates
  rw [hds] at hlists
  rw [hvalues] at hstates
  exact eq_of_lists_of_states hlists (lists_built others) hstates (states_built others)

theorem built_swap (updates later : List Update) (ds : List Diagnostic) (name : String)
    (value : Json) :
    built (updates ++ .diagnostics ds :: .fact name value :: later) =
      built (updates ++ .fact name value :: .diagnostics ds :: later) := by
  apply built_congr
  · simp only [lastDiagnostics, List.filterMap_append, List.filterMap_cons, Update.diagnostics?]
  · funext other
    simp only [lastValue?, List.filterMap_append, List.filterMap_cons, Update.value?]

theorem withDiagnostics_built (updates : List Update) :
    (built updates).withDiagnostics (built updates).diagnostics = built updates := by
  have hstates := states_built updates
  exact eq_of_lists_of_states (lists_withDiagnostics _ _) (lists_built updates).self
    ⟨hstates.ascending, hstates.lookup⟩ hstates

end Report

/-! ### What is refused -/

namespace Refusal

/-- The faults of what is refused are reported in the order in which they are listed. -/
theorem diagnostics_withDiagnostics_faulty {v : Json} {batch : List Fault}
    (h : Description.ofJson v = .error batch) (r : Report) :
    (r.withDiagnostics (faulty batch).diagnostics).diagnostics = (faulty batch).diagnostics := by
  obtain ⟨faults, -, rfl⟩ := Description.exists_sort_of_ofJson_eq_error h
  refine (Report.lists_withDiagnostics r _).diagnostics_eq ?_
  rw [diagnostics, Fault.map_diagnostic_sort]
  exact Diagnostic.pairwise_sortKey_sort _

theorem diagnostics_withDiagnostics {text : List UInt8} {refusal : Refusal}
    (h : Description.read text = .error refusal) (r : Report) :
    (r.withDiagnostics refusal.diagnostics).diagnostics = refusal.diagnostics := by
  rcases Description.read_eq_error_iff.1 h with ⟨e, -, rfl⟩ | ⟨v, batch, -, hbatch, rfl⟩
  · exact (Report.lists_withDiagnostics r _).diagnostics_eq (List.pairwise_singleton _ _)
  · exact diagnostics_withDiagnostics_faulty hbatch r

end Refusal

namespace Report

/-- A report that is built by updates lists the diagnostics that were given last and states the values
that were given last. Updates of the two sorts can change places, and the diagnostics of the report can be
given to it once more. A report on what is refused lists the faults as they were found. -/
theorem built_in_order (updates : List Update) :
    (built updates).Lists (lastDiagnostics updates) ∧
      (built updates).States (lastValue? updates) ∧
      (∀ ds name value later, built (updates ++ .diagnostics ds :: .fact name value :: later) =
        built (updates ++ .fact name value :: .diagnostics ds :: later)) ∧
      (built updates).withDiagnostics (built updates).diagnostics = built updates ∧
      (∀ v batch, Description.ofJson v = .error batch →
        ((built updates).withDiagnostics (Refusal.faulty batch).diagnostics).diagnostics =
          (Refusal.faulty batch).diagnostics) ∧
      ∀ text refusal, Description.read text = .error refusal →
        ((built updates).withDiagnostics refusal.diagnostics).diagnostics = refusal.diagnostics ∧
          (Command.checkReport text).1.diagnostics = refusal.diagnostics := by
  refine ⟨lists_built updates, states_built updates, ?_, withDiagnostics_built updates, ?_, ?_⟩
  · intro ds name value later
    exact built_swap updates later ds name value
  · intro v batch h
    exact Refusal.diagnostics_withDiagnostics_faulty h (built updates)
  · intro text refusal h
    refine ⟨Refusal.diagnostics_withDiagnostics h (built updates), ?_⟩
    rw [Command.checkReport, h]
    exact Refusal.diagnostics_withDiagnostics h empty

/-- A finding whose note tells it from others with the same key. -/
def noted (severity : Severity) (location : Location) (note : String) : Diagnostic :=
  { code := "SCD-ADV-0003", severity, stage := .codegen, message := "array", location, notes := [note] }

/-- Updates that give diagnostics twice, and one fact twice. One of the pointers has a character of four
octets, and two of them have one of three. -/
def sampleUpdates : List Update :=
  [.diagnostics [noted .warning (.document "/z") "replaced"], .fact "contract" (.string "First"),
   .diagnostics
     [noted .warning (.document "/😀") "last", noted .error (.document "/\uff5e") "second",
      noted .warning (.document "/\uff5e") "third", noted .warning (.text ⟨1, 2⟩ ⟨1, 2⟩) "first"],
   .fact "contract" (.string "Second")]

theorem built_in_order_sample :
    (built sampleUpdates).diagnostics.map (·.sortPointer) = ["", "/\uff5e", "/\uff5e", "/😀"] ∧
      ((built sampleUpdates).diagnostics.filter
        (·.sortKey = (noted .error (.document "/\uff5e") "second").sortKey)).map (·.notes) =
          [["second"], ["third"]] ∧
      (built sampleUpdates).ok = false ∧
      (built sampleUpdates).facts.lookup "contract" = some (.string "Second") ∧
      ∃ batch, Description.ofJson (.object []) = .error batch ∧ batch.length = 7 ∧
        Description.read (Text.utf8 "\x7b\x7d") = .error (.faulty batch) ∧
        ((built sampleUpdates).withDiagnostics (Refusal.faulty batch).diagnostics).diagnostics =
          (Refusal.faulty batch).diagnostics ∧
        (Command.checkReport (Text.utf8 "\x7b\x7d")).1.diagnostics =
          (Refusal.faulty batch).diagnostics := by
  obtain ⟨hlists, hstates, -, -, hfaulty, hrefused⟩ := built_in_order sampleUpdates
  have hform : Description.formFaults (.object []) ≠ [] := by
    rw [← List.isEmpty_eq_false_iff]
    decide +kernel
  have hbatch := Description.ofJson_eq_error_iff.2 (.inr ⟨hform, rfl⟩)
  have hlength := (Fault.sort_perm (Description.formFaults (.object []) ++
    NameSite.faults (Json.object []).nameSites)).length_eq
  have hread := Description.read_eq_error_iff.2
    (.inr ⟨_, _, (rfl : Json.read (Text.utf8 "\x7b\x7d") = .ok (.object [])), hbatch, rfl⟩)
  refine ⟨Diagnostic.map_sortPointer_sort (by decide) (by decide), ?_, rfl, hstates.lookup "contract",
    _, hbatch, hlength.trans (by decide +kernel), hread, hfaulty _ _ hbatch, (hrefused _ _ hread).2⟩
  rw [hlists.stable]
  decide

end Report

end SmartContract
