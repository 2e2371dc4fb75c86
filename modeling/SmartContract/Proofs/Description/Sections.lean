import SmartContract.Description.Draft.Faults
import Mathlib.Tactic.Common

/-!
In which section of a description the faults of a draft lie and which codes they have. Each rule has
its own codes and looks at its own section; none looks at the settings.
-/

namespace SmartContract

open Json (Pointer)

/-- The fault has one of the codes and lies in the section that the member is. -/
def Fault.LiesIn (f : Fault) (codes : List String) (key : String) : Prop :=
  f.complaint.code ∈ codes ∧ f.pointer.head? = some (.member key)

theorem Fault.LiesIn.mono {f : Fault} {codes more : List String} {key : String}
    (h : f.LiesIn codes key) (hcodes : codes ⊆ more) : f.LiesIn more key :=
  ⟨hcodes h.1, h.2⟩

/-- A pointer leads on in the section to which it leads. -/
theorem Json.Pointer.head?_member {p : Pointer} {step : Json.Step} (h : p.head? = some step)
    (name : String) : (p.member name).head? = some step := by
  rw [Json.Pointer.member, List.head?_append, h]
  rfl

theorem Json.Pointer.head?_item {p : Pointer} {step : Json.Step} (h : p.head? = some step)
    (i : Nat) : (p.item i).head? = some step := by
  rw [Json.Pointer.item, List.head?_append, h]
  rfl

/-- No name is looked for among the settings. -/
theorem Named.head?_pointer_ne (n : Named) : n.pointer.head? ≠ some (.member "pragmas") := by
  cases n <;> simp [pointer, holder, key, Pointer.member]

namespace Draft

variable {d : Draft} {f : Fault} {p : Pointer} {key : String} {i : Nat}

theorem liesIn_of_mem_tooLarge {s : String} (hp : p.head? = some (.member key))
    (hf : f ∈ tooLarge p s) : f.LiesIn ["SCD-INT-0001"] key := by
  rw [tooLarge, List.mem_ite_nil_left, List.mem_singleton] at hf
  rw [hf.2]
  exact ⟨List.mem_singleton.2 rfl, hp⟩

theorem liesIn_of_mem_methodFaults {m : Method} (hf : f ∈ m.faults i) :
    f.LiesIn ["SCD-INT-0001", "SCD-METHOD-0001"] "methods" := by
  simp only [Method.faults, List.mem_append, List.mem_ite_nil_left, List.mem_singleton] at hf
  rcases hf with (hf | ⟨-, rfl⟩) | ⟨-, rfl⟩
  · exact (liesIn_of_mem_tooLarge rfl hf).mono (by simp)
  · exact ⟨by simp [Complaint.code], rfl⟩
  · exact ⟨by simp [Complaint.code], rfl⟩

theorem liesIn_of_mem_structFaults {x : Variable} (hp : p.head? = some (.member key))
    (hf : f ∈ x.structFaults p) : f.LiesIn ["SCD-STRUCT-0001", "SCD-STRUCT-0002"] key := by
  rw [Variable.structFaults] at hf
  split at hf
  · simp only [List.mem_append, List.mem_ite_nil_right, List.mem_singleton, List.mem_filterMap,
      Option.ite_none_right_eq_some, Option.some.injEq] at hf
    rcases hf with ⟨-, rfl⟩ | ⟨g, -, -, rfl⟩
    · exact ⟨by simp [Complaint.code], hp⟩
    · exact ⟨by simp [Complaint.code], Pointer.head?_member
        (Pointer.head?_item (Pointer.head?_member hp _) _) _⟩
  · rw [List.mem_singleton.1 hf]
    exact ⟨by simp [Complaint.code], Pointer.head?_member hp _⟩
  · cases hf

theorem liesIn_of_mem_literalFaults {x : Variable} (hp : p.head? = some (.member key))
    (hf : f ∈ x.literalFaults p) : f.LiesIn ["SCD-VAR-0001", "SCD-VAR-0002"] key := by
  have hvalue := Pointer.head?_member hp "value"
  grind [Variable.literalFaults, Complaint.code, Fault.LiesIn]

theorem liesIn_of_mem_variableFaults {x : Variable} (hf : f ∈ x.faults i) :
    f.LiesIn ["SCD-STRUCT-0001", "SCD-STRUCT-0002", "SCD-VAR-0001", "SCD-VAR-0002"]
      "variables" := by
  rcases List.mem_append.1 hf with hf | hf
  · exact (liesIn_of_mem_structFaults rfl hf).mono (by simp)
  · exact (liesIn_of_mem_literalFaults rfl hf).mono (by simp)

theorem liesIn_of_mem_entryFaults {item : Item} (hp : p.head? = some (.member key))
    (hf : f ∈ item.entryFaults p) : f.LiesIn ["SCD-MAP-0002"] key := by
  have hentries := Pointer.head?_member hp "oneOf"
  grind [Item.entryFaults, Complaint.code, Fault.LiesIn]

theorem liesIn_of_mem_itemFaults {item : Item} (hp : p.head? = some (.member key))
    (hf : f ∈ item.faults p) : f.LiesIn ["SCD-INT-0001", "SCD-MAP-0001", "SCD-MAP-0002"] key := by
  simp only [Item.faults, List.mem_append, List.mem_flatMap, List.mem_ite_nil_right,
    List.mem_singleton] at hf
  rcases hf with ((hf | ⟨e, -, hf⟩) | hf) | ⟨-, rfl⟩
  · exact (liesIn_of_mem_entryFaults hp hf).mono (by simp)
  · have hentry := Pointer.head?_member
      (Pointer.head?_item (Pointer.head?_member hp "oneOf") e.2) "value"
    exact (liesIn_of_mem_tooLarge hentry hf).mono (by simp)
  · cases hvalue : item.value with
    | none =>
      rw [hvalue] at hf
      cases hf
    | some s =>
      rw [hvalue] at hf
      exact (liesIn_of_mem_tooLarge (Pointer.head?_member hp "value") hf).mono (by simp)
  · exact ⟨by simp [Complaint.code], hp⟩

theorem liesIn_of_mem_mapFaults {m : KeyMap} (hf : f ∈ m.faults i) :
    f.LiesIn ["SCD-INT-0001", "SCD-MAP-0001", "SCD-MAP-0002"] "maps" := by
  obtain ⟨part, -, hf⟩ := List.mem_flatMap.1 hf
  exact liesIn_of_mem_itemFaults rfl hf

theorem liesIn_of_mem_repeatedCodes (hf : f ∈ d.repeatedCodes) :
    f.LiesIn ["SCD-DUP-0002"] "methods" := by
  obtain ⟨_, -, rfl⟩ := List.mem_map.1 hf
  exact ⟨List.mem_singleton.2 rfl, rfl⟩

theorem liesIn_of_mem_severalLines (hf : f ∈ d.severalLines) :
    f.LiesIn ["SCD-TEXT-0001"] "description" := by
  rw [severalLines, List.mem_ite_nil_right, List.mem_singleton] at hf
  rw [hf.2]
  exact ⟨List.mem_singleton.2 rfl, rfl⟩

theorem code_of_mem_nameFaults {sites : List NameSite} (hf : f ∈ NameSite.faults sites) :
    f.complaint.code ∈ ["SCD-NAME-0001", "SCD-NAME-0002", "SCD-DUP-0001"] ∧
      f.pointer.head? ≠ some (.member "pragmas") := by
  simp only [NameSite.faults, NameSite.badName, NameSite.reservedName, NameSite.repeatedNames,
    List.mem_append, List.mem_flatMap, Option.mem_toList, Option.map_eq_some_iff,
    List.mem_ite_nil_right, List.mem_singleton, List.mem_map] at hf
  rcases hf with (⟨s, -, _, -, rfl⟩ | ⟨s, -, -, rfl⟩) | ⟨⟨s, _⟩, -, rfl⟩
  · exact ⟨by simp [Complaint.code], s.named.head?_pointer_ne⟩
  · exact ⟨by simp [Complaint.code], s.named.head?_pointer_ne⟩
  · exact ⟨by simp [Complaint.code], s.1.named.head?_pointer_ne⟩

theorem code_of_mem_repeatedSymbols (hf : f ∈ d.repeatedSymbols) :
    f.complaint.code = "SCD-DUP-0003" ∧ f.pointer.head? ≠ some (.member "pragmas") := by
  obtain ⟨⟨⟨origin, spelling⟩, y⟩, -, rfl⟩ := List.mem_map.1 hf
  refine ⟨rfl, ?_⟩
  cases origin with
  | skeleton => exact nofun
  | method i => exact (Named.method i).head?_pointer_ne
  | struct i => exact (Named.stateVariable i).head?_pointer_ne
  | map i => exact (Named.item i .key1).head?_pointer_ne

theorem code_of_mem_shadowedName {s : NameSite} (hf : f ∈ shadowedName d.symbols s) :
    f.complaint.code = "SCD-DUP-0003" ∧ f.pointer.head? ≠ some (.member "pragmas") := by
  have hs := s.named.head?_pointer_ne
  grind [shadowedName, Complaint.code]

end Draft

end SmartContract
