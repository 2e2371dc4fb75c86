import SmartContract.Proofs.Description.Roundtrip
import SmartContract.Proofs.Json.Order

/-!
The normal form of a value that is accepted. It is the value itself, but for zeros before the digits
of numbers, for settings that are written with a point or an exponent, for flags that are left out
and for enumerations without their type. What is written for a description is the normal form of the
value that it was accepted from.
-/

namespace SmartContract

namespace Json

/-! ### Changes of a value -/

/-- The value with what the rules make of the members of their names; other members stay. -/
def rewrite (rules : List (String × (Json → Json))) : Json → Json
  | .object ms => .object (ms.map fun m => (m.1, (rules.lookup m.1).getD id m.2))
  | v => v

/-- The value with what is made of each of its items, if it is an array. -/
def eachItem (f : Json → Json) : Json → Json
  | .array items => .array (items.map f)
  | v => v

/-- The value with a member of the given name. The one that it has already stays. -/
def withDefault (key : String) (v w : Json) : Json :=
  match v with
  | .object ms => if (ms.lookup key).isSome then v else .object (insertMember key w ms)
  | v => v

/-- A text of digits without the zeros before them. -/
def plainNumeral : Json → Json
  | .string s => .string (Numeral.withoutZeros s)
  | v => v

/-- A natural number as it is written without point and exponent. -/
def plainNumber (v : Json) : Json :=
  match v.natural? with
  | some n => .int n
  | none => v

/-! ### Normal forms -/

def normalSettings : Json → Json :=
  rewrite [("maxAuxVars", plainNumber), ("optimizationLevel", plainNumber),
    ("codeStackPages", plainNumber), ("userStackPages", plainNumber)]

def normalMethod : Json → Json := rewrite [("code", plainNumeral)]

def normalVariable (v : Json) : Json :=
  (v.withDefault "constant" (.bool false)).withDefault "initializable" (.bool false)

def normalEntry : Json → Json := rewrite [("value", plainNumeral)]

/-- Entries without a type make a key or value of a map an enumeration. -/
def withEnumerationType (v : Json) : Json :=
  match v.get? "oneOf" with
  | none => v
  | some _ => v.withDefault "type" (.string Form.enumerationWord)

def normalItem (v : Json) : Json :=
  ((v.rewrite [("value", plainNumeral), ("oneOf", eachItem normalEntry)]).withDefault "constant"
    (.bool false)).withEnumerationType

def normalMap : Json → Json :=
  rewrite [("key1", normalItem), ("key2", normalItem), ("value", normalItem)]

/-- The normal form of a value that is accepted as a description. -/
def normal : Json → Json :=
  rewrite [("activationAmount", plainNumeral), ("pragmas", normalSettings),
    ("methods", eachItem normalMethod), ("variables", eachItem normalVariable),
    ("maps", eachItem normalMap)]

variable {v w u : Json} {names : List String} {key : String}
  {rules : List (String × (Json → Json))}

/-! ### Members by name -/

theorem get?_rewrite (v : Json) (key : String) :
    (v.rewrite rules).get? key = (v.get? key).map ((rules.lookup key).getD id) := by
  cases v with
  | object ms =>
    rw [rewrite, get?, get?]
    induction ms with
    | nil => rfl
    | cons m ms ih =>
      rw [List.map_cons, lookup_cons_eq_ite, lookup_cons_eq_ite, ih]
      by_cases h : key = m.1
      · rw [if_pos h, if_pos h, h, Option.map_some]
      · rw [if_neg h, if_neg h]
  | _ => rfl

theorem get?_withDefault (h : v.IsAscending) (key other : String) :
    (v.withDefault other w).get? key =
      if key = other then some ((v.get? other).getD w) else v.get? key := by
  obtain ⟨ms, rfl, -⟩ := h
  rw [withDefault, get?, get?]
  cases hother : ms.lookup other with
  | none =>
    rw [if_neg (by simp), get?, lookup_insertMember, Option.getD_none]
  | some x =>
    rw [if_pos Option.isSome_some, get?, Option.getD_some]
    split
    · rename_i hkey
      rw [hkey, hother]
    · rfl

theorem get?_withEnumerationType (h : v.IsAscending) (key : String) :
    v.withEnumerationType.get? key =
      if key = "type" then
        (v.get? "type").or ((v.get? "oneOf").map fun _ => .string Form.enumerationWord)
      else v.get? key := by
  rw [withEnumerationType]
  cases v.get? "oneOf" with
  | none => by_cases hkey : key = "type" <;> simp [hkey]
  | some entries =>
    simp only [get?_withDefault h]
    cases v.get? "type" <;> rfl

/-! ### Records in order -/

/-- The value is an object whose members stand in the order of their names and have the given names
only. -/
structure IsOrderedRecord (names : List String) (v : Json) : Prop where
  ascending : v.IsAscending
  record : v.IsRecord names

theorem IsAscending.isRecord_iff (h : v.IsAscending) :
    v.IsRecord names ↔ ∀ key ∉ names, v.get? key = none := by
  obtain ⟨ms, rfl, -⟩ := h
  constructor
  · rintro ⟨_, ⟨⟩, hms⟩ key hkey
    refine Option.eq_none_iff_forall_ne_some.2 fun w hw => hkey ?_
    obtain ⟨m, hm, rfl⟩ := List.mem_map.1 (mem_names_iff.2 ⟨w, hw⟩)
    exact hms m hm
  · intro hnone
    refine ⟨ms, rfl, fun m hm => Decidable.byContradiction fun hkey => ?_⟩
    obtain ⟨w, hw⟩ := mem_names_iff.1 (List.mem_map_of_mem hm)
    rw [hnone m.1 hkey] at hw
    cases hw

theorem IsRecord.ordered (h : v.IsRecord names) : v.ordered.IsOrderedRecord names := by
  obtain ⟨ms, rfl, hms⟩ := h
  have hascending : (Json.object ms).ordered.IsAscending := ⟨_, rfl, ascending_orderedMembers ms⟩
  refine ⟨hascending, hascending.isRecord_iff.2 fun key hkey => ?_⟩
  rw [get?_ordered, Option.map_eq_none_iff, get?, List.lookup_eq_none_iff]
  exact fun m hm => bne_iff_ne.2 fun heq => hkey (heq ▸ hms m hm)

namespace IsOrderedRecord

/-- Records in order are the same if they have the same members by name. -/
theorem ext (hv : v.IsOrderedRecord names) (hw : w.IsOrderedRecord names)
    (h : ∀ key ∈ names, v.get? key = w.get? key) : v = w := by
  refine hv.ascending.ext hw.ascending fun key => ?_
  by_cases hkey : key ∈ names
  · exact h key hkey
  · rw [hv.ascending.isRecord_iff.1 hv.record key hkey,
      hw.ascending.isRecord_iff.1 hw.record key hkey]

theorem rewrite (h : v.IsOrderedRecord names) (rules : List (String × (Json → Json))) :
    (v.rewrite rules).IsOrderedRecord names := by
  obtain ⟨⟨ms, rfl, hms⟩, hrecord⟩ := h
  have hascending : ((Json.object ms).rewrite rules).IsAscending :=
    ⟨_, rfl, List.pairwise_map.2 hms⟩
  refine ⟨hascending, hascending.isRecord_iff.2 fun key hkey => ?_⟩
  rw [get?_rewrite, IsAscending.isRecord_iff ⟨ms, rfl, hms⟩ |>.1 hrecord key hkey, Option.map_none]

theorem withDefault (h : v.IsOrderedRecord names) (hother : key ∈ names) :
    (v.withDefault key w).IsOrderedRecord names := by
  have hascending : (v.withDefault key w).IsAscending := by
    obtain ⟨ms, rfl, hms⟩ := h.ascending
    rw [Json.withDefault]
    split
    · exact ⟨ms, rfl, hms⟩
    · exact ⟨_, rfl, ascending_insertMember hms⟩
  refine ⟨hascending, hascending.isRecord_iff.2 fun other hkey => ?_⟩
  have hne : other ≠ key := fun heq => hkey (heq ▸ hother)
  rw [get?_withDefault h.ascending, if_neg hne, h.ascending.isRecord_iff.1 h.record other hkey]

theorem withEnumerationType (h : v.IsOrderedRecord names) (htype : "type" ∈ names) :
    v.withEnumerationType.IsOrderedRecord names := by
  rw [Json.withEnumerationType]
  split
  · exact h
  · exact h.withDefault htype

end IsOrderedRecord

/-! ### Parts of values -/

variable {α : Type} {R : Json → α → Prop} {f : Json → Json} {g : α → Json}

theorem get?_rewrite_ordered (v : Json) (key : String) :
    (v.ordered.rewrite rules).get? key =
      (v.get? key).map fun w => (rules.lookup key).getD id w.ordered := by
  rw [get?_rewrite, get?_ordered, Option.map_map]
  rfl

theorem Has.map_get? {x : α} (h : v.Has key R x) (hf : ∀ y, R y x → f y = u) :
    (v.get? key).map f = some u := by
  obtain ⟨y, hy, hx⟩ := h
  rw [hy, Option.map_some, hf y hx]

theorem MayHave.map_get? {o : Option α} (h : v.MayHave key R o) (hf : ∀ y x, R y x → f y = g x) :
    (v.get? key).map f = o.map g := by
  cases o with
  | none =>
    have hnone : v.get? key = none := h
    rw [hnone, Option.map_none, Option.map_none]
  | some x => exact Has.map_get? h fun y hy => hf y x hy

/-- A member is the one that is made of another, if both are what is made of the same thing. -/
theorem Has.get?_eq {x : α} (h : v.Has key R x) (hf : ∀ y, R y x → f y = u)
    (hw : w.get? key = some u) : w.get? key = (v.get? key).map f :=
  hw.trans (h.map_get? hf).symm

theorem MayHave.get?_eq {o : Option α} (h : v.MayHave key R o) (hf : ∀ y x, R y x → f y = g x)
    (hw : w.get? key = o.map g) : w.get? key = (v.get? key).map f :=
  hw.trans (h.map_get? hf).symm

theorem HasFlag.get?_eq {b : Bool} (h : v.HasFlag key b) (hf : ∀ y b, IsFlag y b → f y = .bool b)
    (hw : w.get? key = some (.bool b)) :
    w.get? key = some (((v.get? key).map f).getD (.bool false)) := by
  obtain ⟨o, ho, rfl⟩ := h
  rw [hw, ho.map_get? hf]
  cases o <;> rfl

theorem ordered_string {s : String} (h : v = .string s) : v.ordered = .string s := by
  rw [h]
  rfl

theorem ordered_flag {b : Bool} (h : IsFlag v b) : v.ordered = .bool b := by
  rw [h]
  rfl

theorem Lists.ordered_eq {xs : List α} (h : v.Lists R xs) (hg : ∀ u x, R u x → u.ordered = g x) :
    v.ordered = .array (xs.map g) := by
  obtain ⟨ws, rfl, hws⟩ := h
  rw [ordered, orderedItems_eq_map]
  exact congrArg array (map_eq_of_forall₂ hws hg)

theorem Lists.eachItem_ordered {xs : List α} (h : v.Lists R xs)
    (hf : ∀ u x, R u x → x ∈ xs → f u.ordered = g x) :
    v.ordered.eachItem f = .array (xs.map g) := by
  obtain ⟨ws, rfl, hws⟩ := h
  have hmem : List.Forall₂ (fun u x => R u x ∧ x ∈ xs) ws xs := forall₂_and hws fun _ => id
  rw [ordered, orderedItems_eq_map, eachItem, List.map_map]
  exact congrArg array (map_eq_of_forall₂ hmem fun u x hx => hf u x hx.1 hx.2)

theorem plainNumeral_ordered {s : String} (h : IsForm .digits v s) :
    v.ordered.plainNumeral = numeralJson (Numeral.value s) := by
  obtain ⟨rfl, hdigits⟩ := h
  rw [numeralJson, Numeral.text_value hdigits]
  rfl

theorem plainNumber_ordered {limit n : Nat} (h : IsUpTo limit v n) :
    v.ordered.plainNumber = .int n := by
  have hnatural : v.natural? = some n := h.1
  have hordered : v.ordered = v := by
    cases v with
    | array | object => cases hnatural
    | _ => rfl
  rw [hordered, plainNumber, hnatural]

theorem isOrderedRecord_ofMembers {ms : List (String × Json)}
    (h : (ofMembers ms).IsRecord names) : (ofMembers ms).IsOrderedRecord names :=
  ⟨isAscending_ofMembers ms, h⟩

end Json

open Json

variable {v : Json}

/-! ### What is written for the parts of a description -/

theorem Settings.toJson_eq_normal {s : Settings} (h : IsSettings v s) :
    s.toJson = v.ordered.normalSettings := by
  refine (isOrderedRecord_ofMembers (isSettings_toJson h).record).ext
    (h.record.ordered.rewrite _) ?_
  simp only [List.forall_mem_cons, normalSettings, get?_rewrite_ordered]
  refine ⟨h.auxiliaryVariables.get?_eq (fun _ => plainNumber_ordered) ?_,
    h.optimizationLevel.get?_eq (fun _ => plainNumber_ordered) ?_,
    h.verboseAssembly.get?_eq (fun _ => ordered_flag) ?_,
    h.version.get?_eq (fun _ hw => ordered_string hw.1) ?_,
    h.codeStackPages.get?_eq (fun _ _ => plainNumber_ordered) ?_,
    h.userStackPages.get?_eq (fun _ _ => plainNumber_ordered) ?_, by simp⟩
  all_goals simp [List.lookup_append]
  · cases s.codeStackPages <;> rfl
  · cases s.userStackPages <;> rfl

theorem TypedName.toJson_eq_ordered {a : TypedName} (h : IsArgument v a) :
    a.toJson = v.ordered := by
  refine (isOrderedRecord_ofMembers (isArgument_toJson h.name.choose_spec.2.2).record).ext
    h.record.ordered ?_
  simp only [List.forall_mem_cons, get?_ordered]
  refine ⟨h.name.get?_eq (fun _ hw => ordered_string hw.1) ?_,
    h.type.get?_eq (fun _ => ordered_string) ?_, by simp⟩
  all_goals simp

theorem Draft.Method.toJson_eq_normal {m : Draft.Method} (h : IsMethod v m) :
    m.toMethod.toJson = v.ordered.normalMethod := by
  refine (isOrderedRecord_ofMembers (isMethod_toJson h).record).ext (h.record.ordered.rewrite _) ?_
  simp only [List.forall_mem_cons, normalMethod, get?_rewrite_ordered]
  refine ⟨h.name.get?_eq (fun _ hw => ordered_string hw.1) ?_,
    h.description.get?_eq (fun _ _ => ordered_string) ?_,
    h.code.get?_eq (fun _ => plainNumeral_ordered) ?_,
    h.arguments.get?_eq
      (fun _ hw => hw.ordered_eq fun _ _ ha => (TypedName.toJson_eq_ordered ha).symm) ?_, by simp⟩
  all_goals simp [optionalText, List.lookup_append, toMethod]

theorem TypedName.toJson_of_listed {fields : List TypedName}
    (h : v.Lists IsField (fields.map TypedName.toField)) :
    v.ordered = .array (fields.map TypedName.toJson) := by
  obtain ⟨ws, rfl, hws⟩ := h
  rw [List.forall₂_map_right_iff] at hws
  refine Lists.ordered_eq ⟨ws, rfl, hws⟩ fun u n hn => ?_
  exact (toJson_eq_ordered ⟨hn.record, hn.name, hn.type⟩).symm

theorem Variable.toJson_eq_normal {w : Variable} (h : IsVariable v w.toDraft)
    (hwritten : IsVariable w.toJson w.toDraft) : w.toJson = v.ordered.normalVariable := by
  have hordered := h.record.ordered
  have hconstant : (v.ordered.withDefault "constant" (.bool false)).IsOrderedRecord _ :=
    hordered.withDefault (by simp)
  refine (isOrderedRecord_ofMembers hwritten.record).ext (hconstant.withDefault (by simp)) ?_
  simp only [List.forall_mem_cons, normalVariable, get?_withDefault hconstant.ascending,
    get?_withDefault hordered.ascending, get?_ordered]
  simp only [String.reduceEq, if_true, if_false]
  obtain ⟨name, kind, description, constant, initializable, value⟩ := w
  refine ⟨h.name.get?_eq (fun _ hw => ordered_string hw.1) ?_,
    h.type.get?_eq (fun _ => ordered_string) ?_,
    h.description.get?_eq (fun _ _ => ordered_string) ?_,
    h.constant.get?_eq (fun _ _ => ordered_flag) ?_,
    h.initializable.get?_eq (fun _ _ => ordered_flag) ?_,
    h.value.get?_eq (fun _ _ => ordered_string) ?_, ?_, by simp⟩
  case refine_7 =>
    have hfields := h.fields
    cases kind with
    | value type =>
      have hnone : v.get? "fields" = none := hfields
      simp [hnone, VariableKind.members, optionalText, List.lookup_append]
    | struct fields =>
      refine Has.get?_eq hfields (fun _ hw => TypedName.toJson_of_listed hw) ?_
      simp [VariableKind.members, optionalText, List.lookup_append]
  all_goals cases kind <;>
    simp [VariableKind.members, VariableKind.declaredType, DeclaredType.name, optionalText,
      List.lookup_append, toDraft]

theorem Draft.Variable.toJson_eq_normal {w : Draft.Variable} (h : IsVariable v w) (hw : w.Lawful) :
    w.toVariable.toJson = v.ordered.normalVariable := by
  refine SmartContract.Variable.toJson_eq_normal ?_ (isVariable_toJson h)
  rwa [toDraft_toVariable hw]

theorem Draft.Entry.toJson_eq_normal {e : Draft.Entry} (h : IsEntry v e) :
    e.toEntry.toJson = v.ordered.normalEntry := by
  have hwritten := (Entry.isEntry_toJson (e := e.toEntry) h.name.choose_spec.2.2).record
  refine (isOrderedRecord_ofMembers hwritten).ext (h.record.ordered.rewrite _) ?_
  simp only [List.forall_mem_cons, normalEntry, get?_rewrite_ordered]
  refine ⟨h.name.get?_eq (fun _ hw => ordered_string hw.1) ?_,
    h.value.get?_eq (fun _ => plainNumeral_ordered) ?_, by simp⟩
  all_goals simp [toEntry]

theorem Draft.Entry.toJson_of_listed {es : List Draft.Entry} (h : IsEntries v es) :
    v.ordered.eachItem normalEntry = .array (es.map fun e => e.toEntry.toJson) :=
  h.1.eachItem_ordered fun _ _ he _ => (toJson_eq_normal he).symm

/-- A key or value of a map that keeps the rules is written with the type that it has in the end,
and with the entries that it has. -/
theorem Draft.Item.members_toItem {i : Draft.Item} (h : i.Lawful) :
    (i.toItem.type.map ItemType.members).getD [] =
      Json.optional "type" (i.normalType.map fun t => .string t.name)
        ++ Json.optional "oneOf" (i.entries.map fun es =>
          .array (es.map fun e => e.toEntry.toJson)) := by
  have hmembers : (i.toItem.type.map ItemType.members).getD [] =
      Json.optional "type" (i.toItem.toDraft.type.map fun t => .string t.name)
        ++ Json.optional "oneOf" (i.toItem.toDraft.entries.map fun es =>
          .array (es.map fun e => e.toEntry.toJson)) := by
    rcases ht : i.toItem.type with _ | _ | entries
    all_goals simp [MapItem.toDraft, ht, ItemType.members, ItemType.declaredType,
      ItemType.declaredEntries?, DeclaredItemType.name, Json.optional, Function.comp_def,
      Entry.toEntry_toDraft]
  rw [hmembers, toDraft_toItem h, Option.map_map]
  simp only [Function.comp_def, List.map_map, Entry.toEntry_toDraft]

theorem Draft.Item.toJson_eq_normal {i : Draft.Item} (h : IsItem v i) (hi : i.Lawful) :
    i.toItem.toJson = v.ordered.normalItem := by
  have hrewrite := h.record.ordered.rewrite
    [("value", plainNumeral), ("oneOf", eachItem normalEntry)]
  have hconstant : (Json.withDefault "constant" _ (.bool false)).IsOrderedRecord _ :=
    hrewrite.withDefault (by simp)
  refine (isOrderedRecord_ofMembers (isItem_toJson h).record).ext
    (hconstant.withEnumerationType (by simp)) ?_
  simp only [List.forall_mem_cons, normalItem, get?_withEnumerationType hconstant.ascending,
    get?_withDefault hrewrite.ascending, get?_rewrite_ordered, members_toItem hi]
  simp only [String.reduceEq, if_true, if_false]
  refine ⟨h.name.get?_eq (fun _ hw => ordered_string hw.1) ?_,
    h.description.get?_eq (fun _ _ => ordered_string) ?_,
    Eq.trans ?_ (congrArg₂ Option.or (h.type.map_get? fun _ _ => ordered_string)
      (congrArg _ (h.entries.map_get? fun _ _ => Entry.toJson_of_listed))).symm,
    h.constant.get?_eq (fun _ _ => ordered_flag) ?_,
    h.value.get?_eq (fun _ _ => plainNumeral_ordered) ?_,
    h.entries.get?_eq (fun _ _ => Entry.toJson_of_listed) ?_, by simp⟩
  case refine_3 =>
    rcases ht : i.type with _ | t <;> rcases he : i.entries with _ | entries
    all_goals simp [optionalText, List.lookup_append, normalType, ht, he, DeclaredItemType.name]
  all_goals simp [optionalText, List.lookup_append, toItem, Function.comp_def]

theorem Draft.KeyMap.toJson_eq_normal {m : Draft.KeyMap} (h : IsMap v m)
    (hm : ∀ part, (m.part part).Lawful) : m.toMap.toJson = v.ordered.normalMap := by
  refine (isOrderedRecord_ofMembers (isMap_toJson h).record).ext (h.record.ordered.rewrite _) ?_
  simp only [List.forall_mem_cons, normalMap, get?_rewrite_ordered]
  refine ⟨h.name.get?_eq (fun _ hw => ordered_string hw.1) ?_,
    h.description.get?_eq (fun _ _ => ordered_string) ?_,
    h.key1.get?_eq (fun _ hw => (Item.toJson_eq_normal hw (hm .key1)).symm) ?_,
    h.key2.get?_eq (fun _ hw => (Item.toJson_eq_normal hw (hm .key2)).symm) ?_,
    h.value.get?_eq (fun _ hw => (Item.toJson_eq_normal hw (hm .value)).symm) ?_, by simp⟩
  all_goals simp [optionalText, List.lookup_append, toMap]

theorem Transaction.toJson_eq_ordered {t : Transaction} (h : IsTransaction v t) :
    t.toJson = v.ordered := by
  refine (isOrderedRecord_ofMembers (isTransaction_toJson h).record).ext h.record.ordered ?_
  simp only [List.forall_mem_cons, get?_ordered]
  refine ⟨h.name.get?_eq (fun _ hw => ordered_string hw.1) ?_,
    h.description.get?_eq (fun _ _ => ordered_string) ?_,
    h.kind.get?_eq (fun _ => ordered_string) ?_, by simp⟩
  all_goals simp [optionalText, List.lookup_append]

/-- What is written for what a draft means is the normal form of the value that spells the draft. -/
theorem Draft.toJson_eq_normal {d : Draft} (h : IsDraft v d) (hd : d.Lawful) :
    d.toDescription.toJson = v.ordered.normal := by
  have hitems : ∀ m ∈ d.maps, ∀ part, (m.part part).Lawful := forall_mem_mapItems_iff.1 hd.items
  refine (isOrderedRecord_ofMembers (isDraft_toJson h).record).ext (h.record.ordered.rewrite _) ?_
  simp only [List.forall_mem_cons, Json.normal, get?_rewrite_ordered]
  refine ⟨h.name.get?_eq (fun _ hw => ordered_string hw.1) ?_,
    h.description.get?_eq (fun _ _ hw => ordered_string hw.1) ?_,
    h.activationAmount.get?_eq (fun _ => plainNumeral_ordered) ?_,
    h.settings.get?_eq (fun _ hw => (Settings.toJson_eq_normal hw).symm) ?_,
    h.methods.get?_eq (fun _ hw => hw.eachItem_ordered fun _ _ hm _ =>
      (Method.toJson_eq_normal hm).symm) ?_,
    h.stateVariables.get?_eq (fun _ hw => hw.eachItem_ordered fun _ _ hx hmem =>
      (Variable.toJson_eq_normal hx (hd.stateVariables _ hmem)).symm) ?_,
    h.maps.get?_eq (fun _ hw => hw.eachItem_ordered fun _ _ hm hmem =>
      (KeyMap.toJson_eq_normal hm (hitems _ hmem)).symm) ?_,
    h.transactions.get?_eq (fun _ hw => hw.ordered_eq fun _ _ ht =>
      (Transaction.toJson_eq_ordered ht).symm) ?_, by simp⟩
  all_goals simp [optionalText, List.lookup_append, toDescription, Function.comp_def]

/-- What is written for a description is the normal form of the value that it was accepted from, in
the order of names if the value is not in it. A value that is read from a text is in that order. -/
theorem written_is_normal {d : Description} (h : Description.ofJson v = .ok d) :
    d.toJson = v.ordered.normal ∧ (v.IsOrdered → d.toJson = v.normal) ∧
      ∀ text, Json.read text = .ok v → d.toJson = v.normal := by
  obtain ⟨draft, hdraft, hlawful, rfl⟩ := Description.ofJson_eq_ok_iff.1 h
  have hnormal := Draft.toJson_eq_normal hdraft hlawful
  have hordered : v.IsOrdered → draft.toDescription.toJson = v.normal := fun hv =>
    hv.ordered_eq ▸ hnormal
  exact ⟨hnormal, hordered, fun _ htext => hordered (isOrdered_of_read htext)⟩

/-- The sample with zeros before its numbers, a setting that is no integer in its writing, flags that
are left out and an enumeration without its type. -/
def Json.unevenSample : Json :=
  .object
    [("activationAmount", .string "0050000000"),
     ("contractName", .string "Sample"),
     ("description", .string "Keeps \"deposits\"\tand pays them out"),
     ("maps", .array [.object
       [("key1", .object
          [("constant", .bool true), ("name", .string "kind"), ("value", .string "04")]),
        ("key2", .object [("name", .string "account"), ("type", .string "address")]),
        ("name", .string "balances"),
        ("value", .object
          [("name", .string "state"),
           ("oneOf", .array
             [.object [("name", .string "OPEN"), ("value", .string "000")],
              .object [("name", .string "CLOSED"), ("value", .string "01")]])])]]),
     ("methods", .array
       [.object
          [("args", .array []), ("code", .string "1"), ("description", .string "Takes\nan amount"),
           ("name", .string "deposit")],
        .object
          [("args", .array
             [.object [("name", .string "recipient"), ("type", .string "address")],
              .object [("name", .string "total"), ("type", .string "amount")]]),
           ("code", .string "007"), ("name", .string "pay")]]),
     ("pragmas", .object
       [("maxAuxVars", .float ⟨false, 3 * Nat.pow 2 51, -51⟩), ("optimizationLevel", .int 3),
        ("verboseAssembly", .bool false), ("version", .string "2.3.0")]),
     ("transactions", .array [.object
       [("description", .string "To the owner"), ("kind", .string "sendAmount"),
        ("name", .string "payment")]]),
     ("variables", .array
       [.object
          [("description", .string "Who is paid"), ("initializable", .bool true),
           ("name", .string "owner"), ("type", .string "address")],
        .object
          [("constant", .bool true), ("name", .string "label"), ("type", .string "string"),
           ("value", .string "a;b")],
        .object
          [("fields", .array
             [.object [("name", .string "sender"), ("type", .string "address")],
              .object [("name", .string "total"), ("type", .string "amount")]]),
           ("name", .string "last"), ("type", .string "struct")]])]

theorem written_is_normal_sample :
    Description.ofJson unevenSample = .ok Description.sample ∧
      Description.sample.toJson = unevenSample.ordered.normal := by
  have haccepted : Description.ofJson unevenSample = .ok Description.sample :=
    Description.ofJson_eq_ok_of_toOption (by decide +kernel)
  exact ⟨haccepted, (written_is_normal haccepted).1⟩

end SmartContract
