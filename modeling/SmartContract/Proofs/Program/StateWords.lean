import Mathlib.Data.List.Pairwise
import Mathlib.Tactic.Common
import SmartContract.Proofs.Description.Slots
import SmartContract.Proofs.Program.WellFormed

/-!
The words of state that a program declares, in their order. A program declares all values and then
all structs, whereas the slots of a description go through the variables as they are listed. The two
orders are the same exactly when no value is listed behind a struct.
-/

namespace SmartContract

namespace Program

/-- The words of state that lines declare. The words of a struct are its fields, which are named
when the struct ends; `fields` are those of a struct that has not ended. What follows from the struct
of the transaction on is no state. -/
def stateWords (fields : List String) : List Line → List String
  | [] => []
  | .word name _ _ :: ls => name :: stateWords fields ls
  | .structStart tag :: ls => if tag = Vocabulary.transactionTag then [] else stateWords [] ls
  | .field name :: ls => stateWords (fields ++ [name]) ls
  | .structEnd name :: ls => fields.map (name ++ "." ++ ·) ++ stateWords [] ls
  | _ :: ls => stateWords fields ls

/-- The lines declare the words and leave no struct open. -/
def Declares (ls : List Line) (words : List String) : Prop := Yields (stateWords []) ls words

theorem declares_of_isSilent (l : Line) (h : l.isSilent = true) : Declares [l] [] := by
  intro rest
  cases l with
  | blank | property | setting | comment | constant => rfl
  | _ => cases h

end Program

/-! ### Words of variables -/

open Program (Declares Yields)

theorem Variable.declares_structLines {v : Variable} (h : v.isStruct = true)
    (htag : Name.upper v.name ≠ Vocabulary.transactionTag) :
    Declares v.structLines v.wordNames := by
  refine Yields.structLines Program.declares_of_isSilent fun rest => ?_
  rw [List.append_assoc, List.cons_append, Program.stateWords, if_neg htag,
    Program.pass_fields Program.stateWords fun _ _ _ => rfl, wordNames_of_isStruct h]
  simp [Program.stateWords, Function.comp_def]

/-! ### Words of descriptions -/

namespace Description

variable {d : Description}

/-- The words in the order of the program: the values, and then the structs. -/
def declaredWords (d : Description) : List String :=
  d.values.map (·.name) ++ d.structs.flatMap Variable.wordNames

/-- Nothing is declared before the values. -/
theorem declares_heads (d : Description) :
    Declares (d.properties ++ d.settingLines ++ d.codeLines ++ d.keyLines) [] :=
  Yields.heads Program.declares_of_isSilent d

theorem declares_wordLines (d : Description) : Declares d.wordLines (d.values.map (·.name)) := by
  refine Yields.titled Program.declares_of_isSilent ?_
  rw [List.map_eq_flatMap, List.map_eq_flatMap]
  exact Yields.flatMap fun v _ rest => rfl

theorem IsAccepted.declares_structLines (h : d.IsAccepted) :
    Declares d.structLines (d.structs.flatMap Variable.wordNames) :=
  Yields.titled Program.declares_of_isSilent (Yields.flatMap fun _ hv =>
    Variable.declares_structLines (List.mem_filter.1 hv).2 (h.upper_ne_transactionTag hv))

/-- The program for an accepted description declares its values and then its structs. -/
theorem IsAccepted.stateWords_program (h : d.IsAccepted) :
    Program.stateWords [] d.program = d.declaredWords := by
  have hstate : Declares _ d.declaredWords :=
    Yields.append (Yields.append d.declares_heads d.declares_wordLines) h.declares_structLines
  -- From here on nothing counts as state.
  have htransaction : ∀ rest, Program.stateWords [] (transactionLines ++ rest) = [] := fun _ => rfl
  rw [program, List.append_assoc _ d.mainLines, List.append_assoc _ transactionLines, hstate,
    htransaction, List.append_nil]

/-! ### The order of slots -/

theorem filter_not_append_filter {α : Type} {p : α → Bool} {xs : List α}
    (h : xs.Pairwise fun x y => p x = true → p y = true) :
    xs.filter (!p ·) ++ xs.filter p = xs := by
  induction xs with
  | nil => rfl
  | cons x xs ih =>
    obtain ⟨hx, hxs⟩ := List.pairwise_cons.1 h
    cases hp : p x with
    | false => simpa [hp] using ih hxs
    | true =>
      have hall : ∀ y ∈ xs, p y = true := fun y hy => hx y hy hp
      have hnone : xs.filter (!p ·) = [] := List.filter_eq_nil_iff.2 (by simpa using hall)
      simp [hp, hnone, List.filter_eq_self.2 hall]

/-- Is every value listed before every struct? -/
def ValuesFirst (d : Description) : Prop :=
  d.stateVariables.Pairwise fun v w => v.isStruct = true → w.isStruct = true

instance (d : Description) : Decidable d.ValuesFirst :=
  inferInstanceAs (Decidable (d.stateVariables.Pairwise _))

theorem declaredWords_eq_flatMap (d : Description) :
    d.declaredWords = (d.values ++ d.structs).flatMap Variable.wordNames := by
  have hvalues : d.values.flatMap Variable.wordNames = d.values.map (·.name) := by
    rw [List.map_eq_flatMap]
    refine List.flatMap_congr fun v hv => Variable.wordNames_of_not_isStruct ?_
    simpa using (List.mem_filter.1 hv).2
  rw [declaredWords, List.flatMap_append, hvalues]

/-- The words of structs are those with a point in their names. -/
theorem IsAccepted.point_mem_wordNames_iff (h : d.IsAccepted) {v : Variable}
    (hv : v ∈ d.stateVariables) {s : String} (hs : s ∈ v.wordNames) :
    '.' ∈ s.toList ↔ v.isStruct = true := by
  cases hstruct : v.isStruct with
  -- A name holds no point.
  | false =>
    rw [Variable.wordNames_of_not_isStruct hstruct, List.mem_singleton] at hs
    have hpoint := Name.not_mem_of_isName (c := '.') (by decide) (h.isName_stateVariable hv).1
    simpa [hs] using hpoint
  | true =>
    rw [Variable.wordNames_of_isStruct hstruct] at hs
    obtain ⟨f, -, rfl⟩ := List.mem_map.1 hs
    simp

theorem IsAccepted.wordNames_ne_nil (h : d.IsAccepted) {v : Variable}
    (hv : v ∈ d.stateVariables) : v.wordNames ≠ [] := by
  cases hstruct : v.isStruct with
  | false => simp [Variable.wordNames_of_not_isStruct hstruct]
  | true => simpa [Variable.wordNames_of_isStruct hstruct] using h.fields_ne_nil hv hstruct

/-- Words without points come before those with points exactly when values come before structs. -/
theorem IsAccepted.pairwise_point_iff (h : d.IsAccepted) {vs : List Variable}
    (hvs : ∀ v ∈ vs, v ∈ d.stateVariables) :
    ((vs.flatMap Variable.wordNames).Pairwise fun s t => '.' ∈ s.toList → '.' ∈ t.toList) ↔
      vs.Pairwise fun v w => v.isStruct = true → w.isStruct = true := by
  rw [List.pairwise_flatMap]
  constructor
  · rintro ⟨-, hpairwise⟩
    refine hpairwise.imp_of_mem fun {v w} hv hw hvw hstruct => ?_
    obtain ⟨s, hs⟩ := List.exists_mem_of_ne_nil _ (h.wordNames_ne_nil (hvs v hv))
    obtain ⟨t, ht⟩ := List.exists_mem_of_ne_nil _ (h.wordNames_ne_nil (hvs w hw))
    exact (h.point_mem_wordNames_iff (hvs w hw) ht).1
      (hvw s hs t ht ((h.point_mem_wordNames_iff (hvs v hv) hs).2 hstruct))
  · intro hpairwise
    constructor
    · intro v hv
      refine List.pairwise_of_forall_mem_list fun s hs t ht hpoint => ?_
      rw [h.point_mem_wordNames_iff (hvs v hv) hs] at hpoint
      exact (h.point_mem_wordNames_iff (hvs v hv) ht).2 hpoint
    · refine hpairwise.imp_of_mem fun {v w} hv hw hvw s hs t ht hpoint => ?_
      rw [h.point_mem_wordNames_iff (hvs v hv) hs] at hpoint
      exact (h.point_mem_wordNames_iff (hvs w hw) ht).2 (hvw hpoint)

theorem pairwise_values_append_structs (d : Description) :
    (d.values ++ d.structs).Pairwise fun v w => v.isStruct = true → w.isStruct = true := by
  have hvalue : ∀ v ∈ d.values, v.isStruct = false := fun v hv => by
    simpa using (List.mem_filter.1 hv).2
  have hstruct : ∀ v ∈ d.structs, v.isStruct = true := fun v hv => (List.mem_filter.1 hv).2
  refine List.pairwise_append.2 ⟨?_, ?_, fun v _ w hw _ => hstruct w hw⟩
  · refine List.pairwise_of_forall_mem_list fun v hv w _ hvstruct => ?_
    rw [hvalue v hv] at hvstruct
    cases hvstruct
  · exact List.pairwise_of_forall_mem_list fun v _ w hw _ => hstruct w hw

/-- The order of the program is the order of the slots exactly when every value is listed before
every struct. -/
theorem IsAccepted.declaredWords_eq_iff (h : d.IsAccepted) :
    d.declaredWords = d.slots.map (·.name) ↔ d.ValuesFirst := by
  constructor
  -- In the program no value stands behind a struct, however the variables are listed.
  · intro heq
    have hmem : ∀ v ∈ d.values ++ d.structs, v ∈ d.stateVariables := fun v hv =>
      (List.mem_append.1 hv).elim List.mem_of_mem_filter List.mem_of_mem_filter
    have hpairwise := (h.pairwise_point_iff hmem).2 d.pairwise_values_append_structs
    rw [← declaredWords_eq_flatMap, heq, names_slots] at hpairwise
    exact (h.pairwise_point_iff fun _ hv => hv).1 hpairwise
  · intro hfirst
    rw [declaredWords_eq_flatMap, names_slots, values, structs, filter_not_append_filter hfirst]

theorem perm_declaredWords (d : Description) : d.declaredWords.Perm (d.slots.map (·.name)) := by
  rw [declaredWords_eq_flatMap, names_slots]
  refine List.Perm.flatMap_right _ (List.perm_append_comm.trans ?_)
  exact List.filter_append_perm _ _

end Description

/-- The program for an accepted description declares the words that have slots. It declares them in
the order of their slots, so that the position of a word says which slot it has, exactly when every
value is listed before every struct. -/
theorem declared_in_slot_order_iff {d : Description} (h : d.IsAccepted) :
    ∃ words, (readProgram? d.code).map (Program.stateWords []) = some words ∧
      words.Perm (d.slots.map (·.name)) ∧
      ((words = d.slots.map (·.name) ∧ ∀ (k : Nat) (name : String), words[k]? = some name →
        ∃ type, d.slots[k]? = some ⟨⟨name, type⟩, d.settings.auxiliaryVariables + 1 + k⟩) ↔
          d.ValuesFirst) := by
  refine ⟨d.declaredWords, ?_, d.perm_declaredWords, fun hslots => ?_, fun hfirst => ?_⟩
  · rw [h.readProgram?_code, Option.map_some, h.stateWords_program]
  · exact h.declaredWords_eq_iff.1 hslots.1
  · have heq := h.declaredWords_eq_iff.2 hfirst
    refine ⟨heq, fun k name hname => ?_⟩
    rw [heq, List.getElem?_map, Option.map_eq_some_iff] at hname
    obtain ⟨slot, hslot, rfl⟩ := hname
    have hindex := d.getElem?_slots k
    rw [hslot] at hindex
    obtain ⟨word, -, rfl⟩ := Option.map_eq_some_iff.1 hindex.symm
    exact ⟨word.type, hslot⟩

theorem declared_in_slot_order_sample :
    Description.sample.ValuesFirst ∧
      (readProgram? Description.sample.code).map (Program.stateWords []) =
        some ["owner", "label", "last.sender", "last.total"] := by
  obtain ⟨words, hwords, -, hiff⟩ := declared_in_slot_order_iff Description.isAccepted_sample
  have hfirst : Description.sample.ValuesFirst := by decide
  have hnames : Description.sample.slots.map (·.name) =
      ["owner", "label", "last.sender", "last.total"] := by decide
  exact ⟨hfirst, by rw [hwords, (hiff.2 hfirst).1, hnames]⟩

/-- A description that lists a struct before a value. -/
def Description.structFirst : Description :=
  { starter "Sample" with
    stateVariables :=
      [⟨"last", .struct [⟨"sender", ⟨.address, false⟩⟩], none, false, false, none⟩,
       ⟨"total", .value ⟨.amount, false⟩, none, false, false, none⟩] }

theorem declared_in_other_order :
    Description.structFirst.IsAccepted ∧
      (readProgram? Description.structFirst.code).map (Program.stateWords []) =
        some ["total", "last.sender"] ∧
      Description.structFirst.slots.map (·.name) = ["last.sender", "total"] := by
  have haccepted : Description.structFirst.IsAccepted :=
    Description.isAccepted_of_toOption (by decide +kernel)
  refine ⟨haccepted, ?_, by decide⟩
  rw [haccepted.readProgram?_code, Option.map_some, haccepted.stateWords_program]
  decide

end SmartContract
