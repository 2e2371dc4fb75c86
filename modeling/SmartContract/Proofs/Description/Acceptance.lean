import SmartContract.Description.Acceptance
import SmartContract.Proofs.Description.Agreement
import SmartContract.Proofs.Description.Faults
import SmartContract.Proofs.Description.Reading

/-!
Which JSON values are accepted: those that have the form of a description and keep the rules. What
is accepted is the description that is meant by the draft that the value spells.
-/

namespace SmartContract

open Json (IsDraft)

variable {v : Json}

/-- The description is what some value is accepted as. -/
def Description.IsAccepted (d : Description) : Prop := ∃ v, ofJson v = .ok d

theorem Description.formFaults_eq_nil_iff : formFaults v = [] ↔ ∃ d, IsDraft v d := by
  rw [formFaults, List.map_eq_nil_iff, Json.Shape.violations_eq_nil_iff,
    Json.holds_description_iff]

/-- Of a value that spells a draft, the draft decides: the transcript in between has no faults. -/
theorem Description.ofJson_eq_of_isDraft {d : Draft} (h : IsDraft v d) :
    ofJson v = match d.faults with
      | [] => .ok d.toDescription
      | faults => .error (Fault.sort faults) := by
  obtain ⟨s, hs, hstands⟩ := Transcript.exists_ofJson?_eq_some h
  have hform : formFaults v = [] := formFaults_eq_nil_iff.2 ⟨d, h⟩
  have hnone : (d.transcript s).faults = [] := Transcript.faults_transcript h hstands
  have hdraft : (d.transcript s).toDraft = d := Transcript.toDraft_transcript d hstands
  cases hfaults : d.faults with
  | nil => simp only [ofJson, hform, hs, hnone, hdraft, hfaults, List.nil_append]
  | cons f rest => simp only [ofJson, hform, hs, hnone, hdraft, hfaults, List.nil_append]

/-- A value is accepted as a description exactly when it spells a draft that keeps the rules and
means the description. -/
theorem Description.ofJson_eq_ok_iff {d : Description} :
    ofJson v = .ok d ↔ ∃ draft, IsDraft v draft ∧ draft.Lawful ∧ draft.toDescription = d := by
  constructor
  · intro h
    by_cases hform : ∃ draft, IsDraft v draft
    · obtain ⟨draft, hdraft⟩ := hform
      rw [ofJson_eq_of_isDraft hdraft] at h
      split at h
      · rename_i hfaults
        exact ⟨draft, hdraft, Draft.faults_eq_nil_iff.1 hfaults, Except.ok.inj h⟩
      · cases h
    · rw [ofJson] at h
      split at h
      · rename_i hnil
        exact absurd (formFaults_eq_nil_iff.1 hnil) hform
      · cases h
  · rintro ⟨draft, hdraft, hlawful, rfl⟩
    rw [ofJson_eq_of_isDraft hdraft, Draft.faults_eq_nil_iff.2 hlawful]

/-- A value is refused with all the faults of the draft that it spells, or with what keeps it from
having the form and the faults of its names. -/
theorem Description.ofJson_eq_error_iff {batch : List Fault} :
    ofJson v = .error batch ↔
      (∃ draft, IsDraft v draft ∧ draft.faults ≠ [] ∧ batch = Fault.sort draft.faults) ∨
        formFaults v ≠ [] ∧
          batch = Fault.sort (formFaults v ++ NameSite.faults v.nameSites) := by
  by_cases hform : ∃ draft, IsDraft v draft
  · obtain ⟨draft, hdraft⟩ := hform
    have honly : ∀ d, IsDraft v d → ofJson v = .error batch →
        d.faults ≠ [] ∧ batch = Fault.sort d.faults := by
      intro d hd h
      rw [ofJson_eq_of_isDraft hd] at h
      split at h
      · cases h
      · rename_i hne
        exact ⟨hne, (Except.error.inj h).symm⟩
    constructor
    · exact fun h => .inl ⟨draft, hdraft, honly draft hdraft h⟩
    · rintro (⟨d, hd, hne, rfl⟩ | ⟨hne, -⟩)
      · rw [ofJson_eq_of_isDraft hd]
        split
        · rename_i hnil
          exact absurd hnil hne
        · rfl
      · exact absurd (formFaults_eq_nil_iff.2 ⟨draft, hdraft⟩) hne
  · have hne : formFaults v ≠ [] := fun hnil => hform (formFaults_eq_nil_iff.1 hnil)
    rw [ofJson]
    split
    · rename_i hnil
      exact absurd hnil hne
    · rw [Except.error.injEq, eq_comm]
      constructor
      · exact fun h => .inr ⟨hne, h⟩
      · rintro (⟨d, hd, -⟩ | ⟨-, h⟩)
        · exact absurd ⟨d, hd⟩ hform
        · exact h

/-- The faults for which a value is refused are some faults in their order. -/
theorem Description.exists_sort_of_ofJson_eq_error {batch : List Fault} (h : ofJson v = .error batch) :
    ∃ faults, faults ≠ [] ∧ batch = Fault.sort faults := by
  rcases ofJson_eq_error_iff.1 h with ⟨draft, -, hne, hbatch⟩ | ⟨hne, hbatch⟩
  · exact ⟨_, hne, hbatch⟩
  · exact ⟨_, List.append_ne_nil_of_left_ne_nil hne _, hbatch⟩

/-- A text is refused because it is no JSON, or for the faults of the value that it stands for. -/
theorem Description.read_eq_error_iff {text : List UInt8} {refusal : Refusal} :
    read text = .error refusal ↔
      (∃ e, Json.read text = .error e ∧ refusal = .notJson e) ∨
        ∃ v batch, Json.read text = .ok v ∧ ofJson v = .error batch ∧ refusal = .faulty batch := by
  rw [read]
  cases hread : Json.read text with
  | error e => simp [eq_comm]
  | ok v => cases hv : ofJson v <;> simp [Except.mapError, hv, eq_comm]

/-- A value is accepted exactly when it has the form of a description and keeps the rules. -/
theorem accepted_iff_form_and_rules (v : Json) :
    (∃ d, Description.ofJson v = .ok d) ↔ Form.description.Holds v ∧ v.Lawful := by
  rw [Json.holds_description_iff]
  constructor
  · rintro ⟨d, hd⟩
    obtain ⟨draft, hdraft, hlawful, -⟩ := Description.ofJson_eq_ok_iff.1 hd
    exact ⟨⟨draft, hdraft⟩, (Json.lawful_iff hdraft).2 hlawful⟩
  · rintro ⟨⟨draft, hdraft⟩, hlawful⟩
    exact ⟨_, Description.ofJson_eq_ok_iff.2
      ⟨draft, hdraft, (Json.lawful_iff hdraft).1 hlawful, rfl⟩⟩

end SmartContract
