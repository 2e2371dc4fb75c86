import SmartContract.Proofs.Description.Rules
import SmartContract.Proofs.Numeric.Numeral
import SmartContract.Proofs.Related

/-!
The draft of a description: how the description is written in its one form. It means the description
again. A draft that keeps the rules differs from the one of what it means in leading zeros and in the
types of enumerations only, so that this one keeps the rules as well.
-/

namespace SmartContract

/-! ### Drafts of descriptions -/

/-- The method as it is written. -/
def Method.toDraft (m : Method) : Draft.Method :=
  ⟨m.name, m.description, Numeral.text m.code, m.arguments⟩

/-- A name with its type as the field that is written for it. -/
def TypedName.toField (n : TypedName) : Draft.Field := ⟨n.name, .value n.type⟩

/-- The type that is written for what a variable holds. -/
def VariableKind.declaredType : VariableKind → DeclaredType
  | value type => .value type
  | struct _ => .struct

/-- The fields that are written for what a variable holds. -/
def VariableKind.declaredFields : VariableKind → Option (List Draft.Field)
  | value _ => none
  | struct fields => some (fields.map TypedName.toField)

def Variable.toDraft (v : Variable) : Draft.Variable :=
  ⟨v.name, v.kind.declaredType, v.description, v.constant, v.initializable, v.value,
    v.kind.declaredFields⟩

def Entry.toDraft (e : Entry) : Draft.Entry := ⟨e.name, Numeral.text e.value⟩

/-- The type that is written for what a key or value can be. -/
def ItemType.declaredType : ItemType → DeclaredItemType
  | scalar type => .scalar type
  | enumeration _ => .enumeration

/-- The entries that are written for what a key or value can be. -/
def ItemType.declaredEntries? : ItemType → Option (List Draft.Entry)
  | scalar _ => none
  | enumeration entries => some (entries.map Entry.toDraft)

def MapItem.toDraft (i : MapItem) : Draft.Item :=
  ⟨i.name, i.description, i.type.map ItemType.declaredType, i.constant, i.value.map Numeral.text,
    i.type.bind ItemType.declaredEntries?⟩

def KeyMap.toDraft (m : KeyMap) : Draft.KeyMap :=
  ⟨m.name, m.description, m.key1.toDraft, m.key2.toDraft, m.value.toDraft⟩

def Description.toDraft (d : Description) : Draft :=
  ⟨d.name, d.description, Numeral.text d.activationAmount, d.settings,
    d.methods.map Method.toDraft, d.stateVariables.map Variable.toDraft,
    d.maps.map KeyMap.toDraft, d.transactions⟩

/-! ### What is written is what is meant -/

theorem Method.toMethod_toDraft (m : Method) : m.toDraft.toMethod = m := by
  simp only [toDraft, Draft.Method.toMethod, Numeral.value_text]

theorem Draft.Variable.kind_of_struct {v : Draft.Variable} (h : v.type = .struct) :
    v.kind = .struct ((v.fields.getD []).filterMap Field.typedName?) := by
  simp only [kind, structFields, h]
  rw [← List.zipIdx_map_fst 0 (v.fields.getD []), List.filterMap_map, List.zipIdx_map_fst]
  rfl

theorem filterMap_typedName?_toField (fields : List TypedName) :
    (fields.map TypedName.toField).filterMap Draft.Field.typedName? = fields := by
  rw [List.filterMap_map]
  exact List.filterMap_some

theorem Variable.kind_toDraft (v : Variable) : v.toDraft.kind = v.kind := by
  obtain ⟨name, kind, description, constant, initializable, value⟩ := v
  cases kind with
  | value type => rfl
  | struct fields =>
    rw [Draft.Variable.kind_of_struct rfl]
    exact congrArg _ (filterMap_typedName?_toField fields)

theorem Variable.toVariable_toDraft (v : Variable) : v.toDraft.toVariable = v := by
  rw [Draft.Variable.toVariable, kind_toDraft]
  rfl

theorem Entry.toEntry_toDraft (e : Entry) : e.toDraft.toEntry = e := by
  simp only [toDraft, Draft.Entry.toEntry, Numeral.value_text]

theorem MapItem.toItem_toDraft (i : MapItem) : i.toDraft.toItem = i := by
  obtain ⟨name, description, type, constant, value⟩ := i
  have hvalue : (value.map Numeral.text).map Numeral.value = value := by
    cases value <;> simp [Numeral.value_text]
  rcases type with _ | _ | entries
  · simp [toDraft, Draft.Item.toItem, Draft.Item.itemType?, hvalue]
  · simp [toDraft, Draft.Item.toItem, Draft.Item.itemType?, hvalue, ItemType.declaredType]
  · simp [toDraft, Draft.Item.toItem, Draft.Item.itemType?, Draft.Item.listed, hvalue,
      ItemType.declaredType, ItemType.declaredEntries?, Function.comp_def, Entry.toEntry_toDraft]

theorem KeyMap.toMap_toDraft (m : KeyMap) : m.toDraft.toMap = m := by
  simp only [toDraft, Draft.KeyMap.toMap, MapItem.toItem_toDraft]

/-- The draft of a description means the description. -/
theorem Description.toDescription_toDraft (d : Description) : d.toDraft.toDescription = d := by
  simp only [toDraft, Draft.toDescription, Numeral.value_text, List.map_map, Function.comp_def,
    Method.toMethod_toDraft, Variable.toVariable_toDraft, KeyMap.toMap_toDraft, List.map_id']

/-! ### Drafts that keep the rules -/

namespace Draft

variable {d : Draft}

theorem Variable.toDraft_toVariable {v : Variable} (h : v.Lawful) : v.toVariable.toDraft = v := by
  obtain ⟨name, type, description, constant, initializable, value, fields⟩ := v
  cases type with
  | value type =>
    have hnone : fields = none := h.noFields (by simp)
    subst hnone
    rfl
  | struct =>
    obtain ⟨hne, hnested⟩ := h.fields rfl
    cases fields with
    | none => exact absurd rfl hne
    | some fields =>
      have hfields : (fields.filterMap Field.typedName?).map TypedName.toField = fields := by
        have hsome : ∀ f ∈ fields, f.typedName?.map TypedName.toField = some f := by
          rintro ⟨name, type | -⟩ hf
          · rfl
          · exact absurd rfl (hnested _ hf)
        rw [List.map_filterMap, List.filterMap_congr hsome, List.filterMap_some]
      rw [toVariable, kind_of_struct rfl]
      simp only [SmartContract.Variable.toDraft, VariableKind.declaredType,
        VariableKind.declaredFields, Option.getD_some, hfields]

/-- The type that is written for a key or value in the end: entries without a type make it an
enumeration. -/
def Item.normalType (i : Item) : Option DeclaredItemType :=
  match i.type, i.entries with
  | none, some _ => some .enumeration
  | type, _ => type

/-- A key or value of a map that keeps the rules is written with its type, and without leading
zeros. -/
theorem Item.toDraft_toItem {i : Item} (h : i.Lawful) :
    i.toItem.toDraft = ⟨i.name, i.description, i.normalType, i.constant,
      i.value.map fun s => Numeral.text (Numeral.value s),
      i.entries.map (·.map fun e => e.toEntry.toDraft)⟩ := by
  obtain ⟨name, description, type, constant, value, entries⟩ := i
  have hvalue : (value.map Numeral.value).map Numeral.text =
      value.map fun s => Numeral.text (Numeral.value s) := Option.map_map ..
  rcases type with _ | type | _
  · cases entries <;>
      simp [toItem, MapItem.toDraft, itemType?, normalType, listed, hvalue, ItemType.declaredType,
        ItemType.declaredEntries?]
  · have hnone : entries = none := h.noEntries type rfl
    simp [toItem, MapItem.toDraft, itemType?, normalType, hvalue, hnone, ItemType.declaredType,
      ItemType.declaredEntries?]
  · cases entries with
    | none => exact absurd rfl (h.entries (.inl rfl))
    | some entries =>
      simp [toItem, MapItem.toDraft, itemType?, normalType, listed, hvalue, ItemType.declaredType,
        ItemType.declaredEntries?]

theorem Item.listed_toDraft_toItem {i : Item} (h : i.Lawful) :
    i.toItem.toDraft.listed = i.listed.map fun e => e.toEntry.toDraft := by
  rw [toDraft_toItem h]
  obtain ⟨name, description, type, constant, value, entries⟩ := i
  rcases type with _ | type | _
  · cases entries <;> rfl
  · rfl
  · cases entries <;> rfl

theorem Item.lawful_toDraft_toItem {i : Item} (h : i.Lawful) : i.toItem.toDraft.Lawful := by
  have hentries := h.entries
  have hnone := h.noEntries
  have hvalue := h.value
  rw [toDraft_toItem h]
  obtain ⟨name, description, type, constant, value, entries⟩ := i
  refine ⟨?_, ?_, ?_⟩
  · rcases type with _ | type | _ <;> cases entries <;> simp_all [normalType]
  · rcases type with _ | type | _ <;> cases entries <;> simp_all [normalType]
  · intro hconstant
    simpa using hvalue hconstant

/-- The draft of what a draft means. -/
def normal (d : Draft) : Draft := d.toDescription.toDraft

theorem methods_normal (d : Draft) :
    d.normal.methods = d.methods.map fun m => m.toMethod.toDraft := List.map_map

theorem maps_normal (d : Draft) : d.normal.maps = d.maps.map fun m => m.toMap.toDraft :=
  List.map_map

theorem stateVariables_normal (h : ∀ v ∈ d.stateVariables, v.Lawful) :
    d.normal.stateVariables = d.stateVariables := by
  have hid : ∀ v ∈ d.stateVariables, v.toVariable.toDraft = v := fun v hv =>
    Variable.toDraft_toVariable (h v hv)
  have hmap : d.normal.stateVariables = d.stateVariables.map fun v => v.toVariable.toDraft :=
    List.map_map
  rw [hmap, List.map_congr_left hid, List.map_id']

theorem KeyMap.part_toDraft_toMap (m : KeyMap) (part : MapPart) :
    m.toMap.toDraft.part part = (m.part part).toItem.toDraft := by
  cases part <;> rfl

theorem mapItems_normal (d : Draft) :
    d.normal.mapItems = d.mapItems.map fun i => i.toItem.toDraft := by
  rw [mapItems, maps_normal, List.flatMap_map, mapItems, List.map_flatMap]
  refine List.flatMap_congr fun m _ => ?_
  rw [List.map_map]
  exact List.map_congr_left fun part _ => m.part_toDraft_toMap part

theorem forall₂_map_self {α β : Type} {p : α → Prop} {xs : List α} (f : α → β)
    (h : ∀ x ∈ xs, p x) : List.Forall₂ (fun y x => y = f x ∧ p x) (xs.map f) xs := by
  rw [List.forall₂_map_left_iff, List.forall₂_same]
  exact fun x hx => ⟨rfl, h x hx⟩

/-- The names of the draft that is written are those of the draft. -/
theorem nameSites_normal (h : d.Lawful) : d.normal.nameSites = d.nameSites := by
  have hitems : ∀ m ∈ d.maps, ∀ part, (m.part part).Lawful := forall_mem_mapItems_iff.1 h.items
  have hmethod : ∀ (u m : Method) (i : Nat), u = m.toMethod.toDraft ∧ True →
      u.sites i = m.sites i := by
    rintro _ m i ⟨rfl, -⟩
    rfl
  have hmap : ∀ (u m : KeyMap) (i : Nat), u = m.toMap.toDraft ∧ (∀ part, (m.part part).Lawful) →
      u.sites i = m.sites i := by
    rintro _ m i ⟨rfl, hm⟩
    rw [KeyMap.sites, KeyMap.sites]
    refine congrArg _ (List.flatMap_congr fun part _ => ?_)
    rw [KeyMap.part_toDraft_toMap, Item.sites, Item.listed_toDraft_toItem (hm part), List.zipIdx_map,
      List.map_map]
    rfl
  rw [nameSites_eq_sites, nameSites_eq_sites, methods_normal, stateVariables_normal h.stateVariables,
    maps_normal, flatMap_zipIdx_eq_of_forall₂ (forall₂_map_self _ (by simp)) hmethod,
    flatMap_zipIdx_eq_of_forall₂ (forall₂_map_self _ hitems) hmap]
  rfl

theorem tags_normal (h : d.Lawful) : d.normal.tags = d.tags := by
  rw [tags, stateVariables_normal h.stateVariables, tags]

theorem constants_normal (d : Draft) : d.normal.constants = d.constants := by
  rw [constants, methods_normal, maps_normal, List.map_map, List.filterMap_map, constants]
  refine congrArg₂ _ rfl (List.filterMap_congr fun m _ => ?_)
  change ((m.key1.value.map Numeral.value).map Numeral.text).map _ = m.key1.value.map _
  rw [Option.map_map, Option.map_map]
  rfl

theorem codes_normal (d : Draft) :
    (d.normal.methods.map fun m => Numeral.value m.code) =
      d.methods.map fun m => Numeral.value m.code := by
  rw [methods_normal, List.map_map]
  exact List.map_congr_left fun m _ => Numeral.value_text _

theorem Item.numerals_toDraft_toItem {i : Item} (h : i.Lawful) :
    i.toItem.toDraft.numerals = i.numerals.map fun s => Numeral.text (Numeral.value s) := by
  have hvalue : i.toItem.toDraft.value = i.value.map fun s => Numeral.text (Numeral.value s) :=
    Option.map_map ..
  rw [numerals, listed_toDraft_toItem h, hvalue, numerals, List.map_append, List.map_map,
    List.map_map]
  cases i.value <;> rfl

/-- The numbers of the draft that is written are those of the draft, without leading zeros. -/
theorem numerals_normal (h : d.Lawful) :
    d.normal.numerals = d.numerals.map fun s => Numeral.text (Numeral.value s) := by
  rw [numerals, methods_normal, mapItems_normal, numerals, List.map_append, List.map_cons,
    List.map_map, List.map_map, List.flatMap_map, List.map_flatMap,
    List.flatMap_congr fun i hi => Item.numerals_toDraft_toItem (h.items i hi)]
  rfl

/-- The draft of what a draft means keeps the rules if the draft does. -/
theorem lawful_normal (h : d.Lawful) : d.normal.Lawful where
  names := nameSites_normal h ▸ h.names
  symbols := by
    rw [tags_normal h, constants_normal]
    exact h.symbols
  unshadowed := by
    rw [nameSites_normal h, constants_normal]
    exact h.unshadowed
  numerals := by
    rw [numerals_normal h, List.forall_mem_map]
    intro s hs
    rw [Numeral.value_text]
    exact h.numerals s hs
  codes := by
    rw [methods_normal, List.forall_mem_map]
    intro m hm
    have hcode : Numeral.value m.toMethod.toDraft.code = Numeral.value m.code :=
      Numeral.value_text _
    rw [hcode]
    exact h.codes m hm
  distinctCodes := by
    rw [codes_normal]
    exact h.distinctCodes
  arguments := by
    rw [methods_normal, List.forall_mem_map]
    exact h.arguments
  stateVariables := by
    rw [stateVariables_normal h.stateVariables]
    exact h.stateVariables
  items := by
    rw [mapItems_normal, List.forall_mem_map]
    exact fun i hi => Item.lawful_toDraft_toItem (h.items i hi)
  oneLine := h.oneLine

end Draft

end SmartContract
