import Mathlib.Data.List.Flatten
import Mathlib.Data.List.Nodup
import Mathlib.Tactic.Common
import SmartContract.Description.Slots
import SmartContract.Proofs.Description.Accepted
import SmartContract.Proofs.Name

/-!
Where the state of an accepted description lies. A word of the state has the slot behind those of all
words that are declared before it. Words have different names, so that a name leads to one slot, and
variables that are appended move no slot.
-/

namespace SmartContract

/-! ### Words of variables -/

namespace Variable

variable {v w : Variable}

/-- The number of words that a variable takes. -/
def size (v : Variable) : Nat :=
  match v.kind with
  | .value _ => 1
  | .struct fields => fields.length

theorem length_words (v : Variable) : v.words.length = v.size := by
  obtain ⟨name, kind, description, constant, initializable, value⟩ := v
  cases kind with
  | value type => rfl
  | struct fields => exact List.length_map _

/-- The names of the words that a variable takes. -/
def wordNames (v : Variable) : List String := v.words.map (·.name)

theorem wordNames_of_isStruct (h : v.isStruct = true) :
    v.wordNames = v.fields.map fun f => v.name ++ "." ++ f.name := by
  obtain ⟨name, kind, description, constant, initializable, value⟩ := v
  cases kind with
  | value type => cases h
  | struct fields => simp [wordNames, words, Variable.fields]

theorem wordNames_of_not_isStruct (h : v.isStruct = false) : v.wordNames = [v.name] := by
  obtain ⟨name, kind, description, constant, initializable, value⟩ := v
  cases kind with
  | value type => rfl
  | struct fields => cases h

/-- Up to its first point the name of a word is that of its variable. -/
theorem takeWhile_of_mem_wordNames (hv : Name.IsName v.name) {s : String} (hs : s ∈ v.wordNames) :
    s.toList.takeWhile (· ≠ '.') = v.name.toList := by
  have hname : ∀ c ∈ v.name.toList, decide (c ≠ '.') = true := by
    intro c hc
    refine decide_eq_true ?_
    rintro rfl
    exact Name.not_mem_of_isName (by decide) hv hc
  -- What stands behind the name of the variable is nothing, or starts with a point.
  obtain ⟨rest, hrest, htoList⟩ : ∃ rest : List Char, rest.takeWhile (· ≠ '.') = [] ∧
      s.toList = v.name.toList ++ rest := by
    cases hstruct : v.isStruct with
    | false =>
      rw [wordNames_of_not_isStruct hstruct, List.mem_singleton] at hs
      exact ⟨[], rfl, by simp [hs]⟩
    | true =>
      rw [wordNames_of_isStruct hstruct] at hs
      obtain ⟨f, -, rfl⟩ := List.mem_map.1 hs
      exact ⟨'.' :: f.name.toList, by simp, by simp⟩
  rw [htoList, List.takeWhile_append_of_pos hname, hrest, List.append_nil]

theorem nodup_wordNames (hfields : (v.fields.map (·.name)).Nodup) : v.wordNames.Nodup := by
  cases hstruct : v.isStruct with
  | false =>
    rw [wordNames_of_not_isStruct hstruct]
    exact List.nodup_singleton _
  | true =>
    have hmap : v.wordNames = (v.fields.map (·.name)).map (v.name ++ "." ++ ·) := by
      rw [wordNames_of_isStruct hstruct, List.map_map]
      rfl
    rw [hmap]
    exact hfields.map fun s t heq => String.append_right_inj _ |>.1 heq

/-- The words of variables of different names have different names. -/
theorem disjoint_wordNames (hv : Name.IsName v.name) (hw : Name.IsName w.name)
    (hne : v.name ≠ w.name) : List.Disjoint v.wordNames w.wordNames := by
  intro s hsv hsw
  have heq := (takeWhile_of_mem_wordNames hv hsv).symm.trans (takeWhile_of_mem_wordNames hw hsw)
  exact hne (String.toList_inj.1 heq)

end Variable

/-! ### Slots -/

/-- The elements that come from an element of a list come behind those that come from the ones before
it. -/
theorem getElem?_flatMap {α β : Type} {xs : List α} {i j : Nat} {x : α} {f : α → List β}
    (hx : xs[i]? = some x) (hj : j < (f x).length) :
    (xs.flatMap f)[((xs.take i).map fun y => (f y).length).sum + j]? = (f x)[j]? := by
  obtain ⟨hi, rfl⟩ := List.getElem?_eq_some_iff.1 hx
  have hsplit : xs.flatMap f =
      (xs.take i).flatMap f ++ (f xs[i] ++ (xs.drop (i + 1)).flatMap f) := by
    rw [← List.flatMap_cons, ← List.drop_eq_getElem_cons hi, ← List.flatMap_append,
      List.take_append_drop]
  rw [hsplit, ← List.length_flatMap, List.getElem?_append_right (Nat.le_add_right _ _),
    Nat.add_sub_cancel_left, List.getElem?_append_left hj]

namespace Description

variable {d e : Description}

/-- The number of words that the first `i` variables take. -/
def wordsBefore (d : Description) (i : Nat) : Nat :=
  ((d.stateVariables.take i).map Variable.size).sum

theorem length_words (d : Description) :
    d.words.length = d.wordsBefore d.stateVariables.length := by
  rw [words, List.length_flatMap, wordsBefore, List.take_length]
  exact congrArg _ (List.map_congr_left fun v _ => v.length_words)

theorem getElem?_slots (d : Description) (k : Nat) :
    d.slots[k]? = d.words[k]?.map fun w => ⟨w, d.settings.auxiliaryVariables + 1 + k⟩ := by
  rw [slots, List.getElem?_map, List.getElem?_zipIdx, Option.map_map]
  rfl

/-- The words of a variable lie one after another behind those of the variables before it. -/
theorem getElem?_slots_of_words {i j : Nat} {v : Variable} {w : StateWord}
    (hv : d.stateVariables[i]? = some v) (hw : v.words[j]? = some w) :
    d.slots[d.wordsBefore i + j]? =
      some ⟨w, d.settings.auxiliaryVariables + 1 + (d.wordsBefore i + j)⟩ := by
  obtain ⟨hj, -⟩ := List.getElem?_eq_some_iff.1 hw
  have hword := getElem?_flatMap (f := Variable.words) hv hj
  have hsum : ((d.stateVariables.take i).map fun v => v.words.length).sum = d.wordsBefore i :=
    congrArg _ (List.map_congr_left fun v _ => v.length_words)
  rw [hsum, hw] at hword
  rw [getElem?_slots, words, hword, Option.map_some]

theorem index_slots (d : Description) :
    d.slots.map (·.index) =
      List.range' (d.settings.auxiliaryVariables + 1) (d.wordsBefore d.stateVariables.length) := by
  rw [slots, List.map_map, ← length_words, ← List.zipIdx_map_snd]
  rfl

theorem names_slots (d : Description) :
    d.slots.map (·.name) = d.stateVariables.flatMap Variable.wordNames := by
  have hnames : d.slots.map (·.name) = d.words.map (·.name) := by
    rw [slots, List.map_map, ← List.zipIdx_map_fst d.firstSlot d.words, List.map_map,
      List.zipIdx_map_fst]
    rfl
  rw [hnames, words, List.map_flatMap]
  rfl

theorem IsAccepted.nodup_names_slots (h : d.IsAccepted) : (d.slots.map (·.name)).Nodup := by
  rw [names_slots, List.nodup_flatMap]
  refine ⟨fun v hv => Variable.nodup_wordNames (h.nodup_names_fields hv), ?_⟩
  refine (List.pairwise_map.1 h.nodup_names_stateVariables).imp_of_mem fun hv hw hne => ?_
  exact Variable.disjoint_wordNames (h.isName_stateVariable hv).1 (h.isName_stateVariable hw).1 hne

/-- Where names differ, a name leads to an index exactly when a slot has both. -/
theorem slotOf?_eq_some_iff {slots : List Slot} (h : (slots.map (·.name)).Nodup) {name : String}
    {i : Nat} : slotOf? slots name = some i ↔ ∃ s ∈ slots, s.name = name ∧ s.index = i := by
  rw [slotOf?, Option.map_eq_some_iff]
  constructor
  · rintro ⟨s, hs, rfl⟩
    exact ⟨s, List.mem_of_find?_eq_some hs, by simpa using List.find?_some hs, rfl⟩
  · rintro ⟨s, hs, rfl, rfl⟩
    obtain ⟨t, ht⟩ : ∃ t, slots.find? (·.name == s.name) = some t :=
      Option.isSome_iff_exists.1 (List.find?_isSome.2 ⟨s, hs, by simp⟩)
    have hname : t.name = s.name := by simpa using List.find?_some ht
    obtain rfl := List.inj_on_of_nodup_map h (List.mem_of_find?_eq_some ht) hs hname
    exact ⟨t, ht, rfl⟩

/-- No word is called like a struct. -/
theorem IsAccepted.name_not_mem_slots (h : d.IsAccepted) {v : Variable} (hv : v ∈ d.structs) :
    v.name ∉ d.slots.map (·.name) := by
  obtain ⟨hv, hstruct⟩ := List.mem_filter.1 hv
  rw [names_slots, List.mem_flatMap]
  rintro ⟨w, hw, hmem⟩
  cases hvalue : w.isStruct with
  -- The variable would be called like the struct.
  | false =>
    rw [Variable.wordNames_of_not_isStruct hvalue, List.mem_singleton] at hmem
    obtain rfl := List.inj_on_of_nodup_map h.nodup_names_stateVariables hv hw hmem
    rw [hstruct] at hvalue
    cases hvalue
  -- The name of the struct would hold a point.
  | true =>
    rw [Variable.wordNames_of_isStruct hvalue] at hmem
    obtain ⟨f, -, heq⟩ := List.mem_map.1 hmem
    refine Name.not_mem_of_isName (c := '.') (by decide) (h.isName_stateVariable hv).1 ?_
    rw [← heq]
    simp

theorem slots_prefix (haux : e.settings.auxiliaryVariables = d.settings.auxiliaryVariables)
    (hstate : d.stateVariables <+: e.stateVariables) : d.slots <+: e.slots := by
  obtain ⟨more, hmore⟩ := hstate
  have hwords : e.words = d.words ++ more.flatMap Variable.words := by
    rw [words, ← hmore, List.flatMap_append]
    rfl
  rw [slots, slots, hwords, firstSlot, firstSlot, haux, List.zipIdx_append, List.map_append]
  exact List.prefix_append _ _

end Description

/-- The words of the state have slots of their own, in the order of their declaration, and are found
in them by name. -/
structure Description.IsPlaced (d : Description) : Prop where
  /-- A variable that holds no struct has the slot behind those of the variables before it. -/
  value : ∀ (i : Nat) (v : Variable) (type : ValueType),
    d.stateVariables[i]? = some v → v.kind = .value type →
      d.slots[d.wordsBefore i]? =
        some ⟨⟨v.name, type⟩, d.settings.auxiliaryVariables + 1 + d.wordsBefore i⟩
  /-- So has the first field of a struct, and each further field the slot behind the one before. -/
  field : ∀ (i j : Nat) (v : Variable) (fields : List TypedName) (f : TypedName),
    d.stateVariables[i]? = some v → v.kind = .struct fields → fields[j]? = some f →
      d.slots[d.wordsBefore i + j]? =
        some ⟨⟨v.name ++ "." ++ f.name, f.type⟩,
          d.settings.auxiliaryVariables + 1 + (d.wordsBefore i + j)⟩
  /-- There are no other slots, and their indices follow each other without a gap. -/
  indices : d.slots.map (·.index) =
    List.range' (d.settings.auxiliaryVariables + 1) (d.wordsBefore d.stateVariables.length)
  /-- Where the words fit 32 bits, so do the indices of their slots. -/
  bounded : d.settings.auxiliaryVariables + 1 + d.wordsBefore d.stateVariables.length ≤ Nat.pow 2 32 →
    ∀ s ∈ d.slots, s.index < Nat.pow 2 32
  distinct : (d.slots.map (·.name)).Nodup
  /-- A name leads to an index exactly when a slot has both. -/
  found : ∀ (name : String) (i : Nat),
    Description.slotOf? d.slots name = some i ↔ ∃ s ∈ d.slots, s.name = name ∧ s.index = i
  /-- A struct has no slot for itself. -/
  struct : ∀ v ∈ d.structs, Description.slotOf? d.slots v.name = none
  /-- Variables that are appended move no slot. -/
  appended : ∀ e : Description, e.settings.auxiliaryVariables = d.settings.auxiliaryVariables →
    d.stateVariables <+: e.stateVariables → d.slots <+: e.slots ∧
      ∀ (name : String) (i : Nat), Description.slotOf? d.slots name = some i →
        Description.slotOf? e.slots name = some i

/-- The words of the state of an accepted description are placed. -/
theorem accepted_isPlaced {d : Description} (h : d.IsAccepted) : d.IsPlaced where
  value i v type hv hkind := by
    have hword : v.words[0]? = some ⟨v.name, type⟩ := by rw [Variable.words, hkind]; rfl
    exact Description.getElem?_slots_of_words hv hword
  field i j v fields f hv hkind hf := by
    have hword : v.words[j]? = some ⟨v.name ++ "." ++ f.name, f.type⟩ := by
      rw [Variable.words, hkind]
      simp [hf]
    exact Description.getElem?_slots_of_words hv hword
  indices := d.index_slots
  bounded hfits s hs := by
    have hmem : s.index ∈ d.slots.map (·.index) := List.mem_map_of_mem hs
    rw [d.index_slots, List.mem_range'_1] at hmem
    omega
  distinct := h.nodup_names_slots
  found _ _ := Description.slotOf?_eq_some_iff h.nodup_names_slots
  struct v hv := by
    refine Option.eq_none_iff_forall_ne_some.2 fun i hi => h.name_not_mem_slots hv ?_
    obtain ⟨s, hs, hname, -⟩ := (Description.slotOf?_eq_some_iff h.nodup_names_slots).1 hi
    exact List.mem_map.2 ⟨s, hs, hname⟩
  appended e haux hstate := by
    have hslots := Description.slots_prefix haux hstate
    refine ⟨hslots, fun name i hi => ?_⟩
    obtain ⟨s, hs, rfl⟩ := Option.map_eq_some_iff.1 hi
    rw [Description.slotOf?, hslots.find?_eq_some hs, Option.map_some]

theorem sample_isPlaced :
    Description.sample.IsAccepted ∧
      Description.slotOf? Description.sample.slots "last.total" = some 7 ∧
      Description.slotOf? Description.sample.slots "last" = none := by
  have hplaced := accepted_isPlaced Description.isAccepted_sample
  have hslot := hplaced.field 2 1 _ _ _ rfl rfl rfl
  have hfound : Description.slotOf? Description.sample.slots "last.total" = some 7 :=
    (hplaced.found _ _).2 ⟨_, List.mem_of_getElem? hslot, rfl, rfl⟩
  have hstruct := hplaced.struct Description.sample.stateVariables[2] (by decide)
  exact ⟨Description.isAccepted_sample, hfound, hstruct⟩

end SmartContract
