import SmartContract.Description.Json
import SmartContract.Proofs.Description.Draft
import SmartContract.Proofs.Description.Spelling
import SmartContract.Proofs.Json.Members

/-!
The JSON value of a description spells the draft of the description, provided that the description
is what some draft means that a value spells: its names are not empty, its texts and numbers are
within the bounds of the form.
-/

namespace SmartContract

namespace Json

variable {α β : Type} {R : Json → α → Prop} {S : Json → β → Prop} {v w : Json} {key : String}

/-! ### Members of what is written -/

theorem isRecord_ofMembers {names : List String} {ms : List (String × Json)}
    (h : ∀ m ∈ ms, m.1 ∈ names) : (ofMembers ms).IsRecord names := by
  obtain ⟨sorted, hsorted, -, hmem⟩ := exists_ofMembers_eq ms
  exact ⟨sorted, hsorted, fun m hm => h m (hmem m hm)⟩

@[simp] theorem forall_mem_optional {p : String × Json → Prop} {o : Option Json} :
    (∀ m ∈ optional key o, p m) ↔ ∀ u, o = some u → p (key, u) := by
  cases o <;> simp [optional]

theorem has_of_get? {x : α} (h : v.get? key = some w) (hR : R w x) : v.Has key R x := ⟨w, h, hR⟩

theorem mayHave_of_get? {o : Option α} {f : α → Json} (h : v.get? key = o.map f)
    (hR : ∀ x, o = some x → R (f x) x) : v.MayHave key R o := by
  cases o with
  | none => exact h
  | some x => exact ⟨f x, h, hR x rfl⟩

theorem hasFlag_of_get? {b : Bool} (h : v.get? key = some (.bool b)) : v.HasFlag key b :=
  ⟨some b, has_of_get? h rfl, rfl⟩

/-! ### Parts of what is written -/

theorem isName_string {s : String} (h : v.Has key IsName s) : IsName (.string s) s :=
  ⟨rfl, h.choose_spec.2.2⟩

theorem isForm_numeralJson (n : Nat) : IsForm .digits (numeralJson n) (Numeral.text n) := by
  refine ⟨rfl, ?_⟩
  rw [TextForm.accepts.eq_def, Numeral.toList_text]
  exact Numeral.isDigits_toDigits n

theorem isUpTo_int {limit n : Nat} (h : IsUpTo limit w n) : IsUpTo limit (.int n) n := ⟨rfl, h.2⟩

/-- Things that items of an array spell are spelled by the items that are written for them. -/
theorem lists_map {f : α → Json} {g : α → β} {xs : List α} (h : v.Lists R xs)
    (hS : ∀ u x, R u x → S (f x) (g x)) : (array (xs.map f)).Lists S (xs.map g) := by
  obtain ⟨ws, -, hws⟩ := h
  refine ⟨_, rfl, ?_⟩
  induction hws with
  | nil => exact .nil
  | cons hR _ ih => exact .cons (hS _ _ hR) ih

end Json

open Json

variable {v : Json}

/-! ### The values of the parts of a description -/

theorem Settings.isSettings_toJson {s : Settings} (h : IsSettings v s) : IsSettings s.toJson s where
  record := by
    refine isRecord_ofMembers ?_
    simp only [List.forall_mem_append, List.forall_mem_cons, forall_mem_optional]
    simp
  auxiliaryVariables := has_of_get? (by simp [toJson, List.lookup_append])
    (isUpTo_int h.auxiliaryVariables.choose_spec.2)
  optimizationLevel := has_of_get? (by simp [toJson, List.lookup_append])
    (isUpTo_int h.optimizationLevel.choose_spec.2)
  verboseAssembly := has_of_get? (by simp [toJson, List.lookup_append]) rfl
  version := has_of_get? (by simp [toJson, List.lookup_append]) ⟨rfl, h.version.choose_spec.2.2⟩
  codeStackPages := by
    refine mayHave_of_get? (f := fun n => .int n) ?_ ?_
    · cases hn : s.codeStackPages <;> simp [toJson, List.lookup_append, hn]
    · intro n hn
      exact isUpTo_int (hn ▸ h.codeStackPages).choose_spec.2
  userStackPages := by
    refine mayHave_of_get? (f := fun n => .int n) ?_ ?_
    · cases hn : s.userStackPages <;> simp [toJson, List.lookup_append, hn]
    · intro n hn
      exact isUpTo_int (hn ▸ h.userStackPages).choose_spec.2

theorem TypedName.isArgument_toJson {n : TypedName} (h : 1 ≤ n.name.length) :
    IsArgument n.toJson n where
  record := isRecord_ofMembers (by simp)
  name := has_of_get? (by simp [toJson]) ⟨rfl, h⟩
  type := has_of_get? (by simp [toJson]) rfl

theorem TypedName.isField_toJson {n : TypedName} (h : 1 ≤ n.name.length) :
    IsField n.toJson n.toField where
  record := isRecord_ofMembers (by simp)
  name := has_of_get? (by simp [toJson, toField]) ⟨rfl, h⟩
  type := has_of_get? (w := .string n.type.name) (by simp [toJson]) rfl

theorem Draft.Method.isMethod_toJson {m : Draft.Method} (h : IsMethod v m) :
    IsMethod m.toMethod.toJson m.toMethod.toDraft where
  record := by
    refine isRecord_ofMembers ?_
    simp only [List.forall_mem_append, List.forall_mem_cons, forall_mem_optional, optionalText]
    simp
  name := has_of_get? (w := .string m.name)
    (by simp [SmartContract.Method.toJson, optionalText, List.lookup_append, toMethod])
    (isName_string h.name)
  description := by
    refine mayHave_of_get? (f := .string) ?_ fun _ _ => rfl
    simp [SmartContract.Method.toJson, optionalText, List.lookup_append, toMethod,
      SmartContract.Method.toDraft]
  code := has_of_get?
    (by simp [SmartContract.Method.toJson, optionalText, List.lookup_append])
    (isForm_numeralJson _)
  arguments := by
    refine has_of_get?
      (by simp [SmartContract.Method.toJson, optionalText, List.lookup_append]; rfl) ?_
    have hlist := lists_map (S := IsArgument) (f := TypedName.toJson) (g := id)
      h.arguments.choose_spec.2 fun u a ha => TypedName.isArgument_toJson ha.name.choose_spec.2.2
    rwa [List.map_id] at hlist

theorem Variable.isVariable_toJson {w : Variable} (hname : 1 ≤ w.name.length)
    (hfields : ∀ n ∈ w.fields, 1 ≤ n.name.length) : IsVariable w.toJson w.toDraft := by
  obtain ⟨name, kind, description, constant, initializable, value⟩ := w
  exact {
    record := by
      refine isRecord_ofMembers ?_
      simp only [List.forall_mem_append, List.forall_mem_cons, forall_mem_optional, optionalText]
      cases kind <;> simp [VariableKind.members]
    name := has_of_get? (w := .string name) (by
      cases kind <;> simp [toJson, VariableKind.members, optionalText, List.lookup_append])
      ⟨rfl, hname⟩
    type := has_of_get? (w := .string kind.declaredType.name) (by
      cases kind <;> simp [toJson, VariableKind.members, VariableKind.declaredType,
        DeclaredType.name, optionalText, List.lookup_append]) rfl
    description := by
      refine mayHave_of_get? (f := .string) ?_ fun _ _ => rfl
      cases kind <;> simp [toJson, VariableKind.members, optionalText, List.lookup_append, toDraft]
    constant := hasFlag_of_get? (by
      cases kind <;> simp [toJson, VariableKind.members, optionalText, List.lookup_append, toDraft])
    initializable := hasFlag_of_get? (by
      cases kind <;> simp [toJson, VariableKind.members, optionalText, List.lookup_append, toDraft])
    value := by
      refine mayHave_of_get? (f := .string) ?_ fun _ _ => rfl
      cases kind <;> simp [toJson, VariableKind.members, optionalText, List.lookup_append, toDraft]
    fields := by
      cases kind with
      | value type => simp [MayHave, toJson, VariableKind.members, optionalText,
          List.lookup_append, toDraft, VariableKind.declaredFields]
      | struct fields =>
        refine has_of_get? (w := .array (fields.map TypedName.toJson))
          (by simp [toJson, VariableKind.members, optionalText, List.lookup_append]) ?_
        refine ⟨_, rfl, ?_⟩
        rw [List.forall₂_map_left_iff, List.forall₂_map_right_iff, List.forall₂_same]
        exact fun n hn => TypedName.isField_toJson (hfields n hn) }

theorem Entry.isEntry_toJson {e : Entry} (h : 1 ≤ e.name.length) : IsEntry e.toJson e.toDraft where
  record := isRecord_ofMembers (by simp)
  name := has_of_get? (w := .string e.name) (by simp [toJson]) ⟨rfl, h⟩
  value := has_of_get? (by simp [toJson]) (isForm_numeralJson _)

/-- A key or value of a map whose entries have names and are not too many is spelled by the value
that is written for it. -/
theorem MapItem.isItem_toJson {i : MapItem} (hname : 1 ≤ i.name.length)
    (hentries : ∀ e ∈ i.entries, 1 ≤ e.name.length) (hmax : i.entries.length ≤ Limit.entries) :
    IsItem i.toJson i.toDraft := by
  obtain ⟨name, description, type, constant, value⟩ := i
  exact {
    record := by
      refine isRecord_ofMembers ?_
      simp only [List.forall_mem_append, List.forall_mem_cons, forall_mem_optional, optionalText]
      rcases type with _ | _ | _ <;> simp [ItemType.members]
    name := has_of_get? (w := .string name) (by
      rcases type with _ | _ | _ <;>
        simp [toJson, ItemType.members, optionalText, List.lookup_append]) ⟨rfl, hname⟩
    description := by
      refine mayHave_of_get? (f := .string) ?_ fun _ _ => rfl
      rcases type with _ | _ | _ <;>
        simp [toJson, ItemType.members, optionalText, List.lookup_append, toDraft]
    type := by
      refine mayHave_of_get? (f := fun t => .string t.name) ?_ fun _ _ => rfl
      rcases type with _ | _ | _ <;>
        simp [toJson, ItemType.members, optionalText, List.lookup_append, toDraft,
          ItemType.declaredType, DeclaredItemType.name]
    constant := hasFlag_of_get? (by
      rcases type with _ | _ | _ <;>
        simp [toJson, ItemType.members, optionalText, List.lookup_append, toDraft])
    value := by
      refine mayHave_of_get? (f := .string) ?_ ?_
      · rcases type with _ | _ | _ <;> cases value <;>
          simp [toJson, ItemType.members, optionalText, List.lookup_append, toDraft, numeralJson]
      · intro s hs
        obtain ⟨n, -, rfl⟩ := Option.map_eq_some_iff.1 hs
        exact isForm_numeralJson n
    entries := by
      rcases type with _ | type | entries
      · simp [MayHave, toJson, optionalText, List.lookup_append, toDraft]
      · simp [MayHave, toJson, ItemType.members, optionalText, List.lookup_append, toDraft,
          ItemType.declaredEntries?]
      · refine has_of_get? (w := .array (entries.map Entry.toJson))
          (by simp [toJson, ItemType.members, optionalText, List.lookup_append]) ⟨⟨_, rfl, ?_⟩, ?_⟩
        · rw [List.forall₂_map_left_iff, List.forall₂_map_right_iff, List.forall₂_same]
          exact fun e he => Entry.isEntry_toJson (hentries e he)
        · rw [List.length_map]
          exact hmax }

/-! ### What is meant by drafts -/

theorem one_le_length_of_has {key s : String} (h : v.Has key IsName s) : 1 ≤ s.length :=
  h.choose_spec.2.2

theorem Draft.Variable.isVariable_toJson {w : Draft.Variable} (h : IsVariable v w) :
    IsVariable w.toVariable.toJson w.toVariable.toDraft := by
  refine SmartContract.Variable.isVariable_toJson (one_le_length_of_has h.name) ?_
  have hfields : ∀ f ∈ w.fields.getD [], 1 ≤ f.name.length := by
    have hspells := h.fields
    cases hw : w.fields with
    | none => simp
    | some fields =>
      rw [hw] at hspells
      exact forall_mem_of_lists hspells.choose_spec.2 fun _ _ hf => one_le_length_of_has hf.name
  cases ht : w.type with
  | value type => simp [toVariable, kind, ht, SmartContract.Variable.fields]
  | struct =>
    rw [toVariable, kind_of_struct ht]
    intro n hn
    obtain ⟨⟨name, type | -⟩, hf, hfn⟩ := List.mem_filterMap.1 hn
    · cases hfn
      exact hfields _ hf
    · cases hfn

theorem Draft.Item.entries_toItem (i : Draft.Item) :
    i.toItem.entries = i.listed.map Draft.Entry.toEntry := by
  obtain ⟨name, description, type, constant, value, entries⟩ := i
  rcases type with _ | _ | _
  · cases entries <;> rfl
  · rfl
  · cases entries <;> rfl

theorem Draft.Item.listed_subset (i : Draft.Item) :
    i.listed = [] ∨ i.listed = i.entries.getD [] := by
  rw [listed]
  split
  · exact .inl rfl
  · exact .inr rfl

theorem Draft.Item.isItem_toJson {i : Draft.Item} (h : IsItem v i) :
    IsItem i.toItem.toJson i.toItem.toDraft := by
  have hentries : (∀ e ∈ i.entries.getD [], 1 ≤ e.name.length) ∧
      (i.entries.getD []).length ≤ Limit.entries := by
    have hspells := h.entries
    cases hi : i.entries with
    | none => simp
    | some entries =>
      rw [hi] at hspells
      obtain ⟨u, -, hlists, hmax⟩ := hspells
      exact ⟨forall_mem_of_lists hlists fun _ _ he => one_le_length_of_has he.name, hmax⟩
  refine MapItem.isItem_toJson (one_le_length_of_has h.name) ?_ ?_
  all_goals rw [entries_toItem]
  · rw [List.forall_mem_map]
    rcases i.listed_subset with hlisted | hlisted <;> rw [hlisted]
    · simp
    · exact hentries.1
  · rw [List.length_map]
    rcases i.listed_subset with hlisted | hlisted <;> rw [hlisted]
    · simp
    · exact hentries.2

theorem Draft.KeyMap.isMap_toJson {m : Draft.KeyMap} (h : IsMap v m) :
    IsMap m.toMap.toJson m.toMap.toDraft where
  record := by
    refine isRecord_ofMembers ?_
    simp only [List.forall_mem_append, List.forall_mem_cons, forall_mem_optional, optionalText]
    simp
  name := has_of_get? (w := .string m.name)
    (by simp [SmartContract.KeyMap.toJson, optionalText, List.lookup_append, toMap])
    (isName_string h.name)
  description := by
    refine mayHave_of_get? (f := .string) ?_ fun _ _ => rfl
    simp [SmartContract.KeyMap.toJson, optionalText, List.lookup_append, toMap,
      SmartContract.KeyMap.toDraft]
  key1 := has_of_get?
    (by simp [SmartContract.KeyMap.toJson, optionalText, List.lookup_append]; rfl)
    (Draft.Item.isItem_toJson h.key1.choose_spec.2)
  key2 := has_of_get?
    (by simp [SmartContract.KeyMap.toJson, optionalText, List.lookup_append]; rfl)
    (Draft.Item.isItem_toJson h.key2.choose_spec.2)
  value := has_of_get?
    (by simp [SmartContract.KeyMap.toJson, optionalText, List.lookup_append]; rfl)
    (Draft.Item.isItem_toJson h.value.choose_spec.2)

theorem Transaction.isTransaction_toJson {t : Transaction} (h : IsTransaction v t) :
    IsTransaction t.toJson t where
  record := by
    refine isRecord_ofMembers ?_
    simp only [List.forall_mem_append, List.forall_mem_cons, forall_mem_optional, optionalText]
    simp
  name := has_of_get? (by simp [toJson, optionalText, List.lookup_append]) (isName_string h.name)
  description := by
    refine mayHave_of_get? (f := .string) ?_ fun _ _ => rfl
    simp [toJson, optionalText, List.lookup_append]
  kind := has_of_get? (by simp [toJson, optionalText, List.lookup_append]) rfl

/-- What a value means is spelled by the value that is written for it. -/
theorem isDraft_toJson {d : Draft} (h : IsDraft v d) :
    IsDraft d.toDescription.toJson d.toDescription.toDraft where
  record := by
    refine isRecord_ofMembers ?_
    simp only [List.forall_mem_append, List.forall_mem_cons, forall_mem_optional, optionalText]
    simp
  name := has_of_get? (by simp [Description.toJson, optionalText, List.lookup_append]; rfl)
    (isName_string h.name)
  description := by
    refine mayHave_of_get? (f := .string) ?_ ?_
    · simp [Description.toJson, optionalText, List.lookup_append, Description.toDraft]
    · intro s hs
      have hd : d.description = some s := hs
      exact ⟨rfl, (hd ▸ h.description).choose_spec.2.2⟩
  activationAmount := has_of_get?
    (by simp [Description.toJson, optionalText, List.lookup_append]) (isForm_numeralJson _)
  settings := has_of_get? (by simp [Description.toJson, optionalText, List.lookup_append]; rfl)
    (Settings.isSettings_toJson h.settings.choose_spec.2)
  methods := by
    refine has_of_get? (by simp [Description.toJson, optionalText, List.lookup_append]; rfl) ?_
    have hlist := lists_map (S := IsMethod) (f := Method.toJson ∘ Draft.Method.toMethod)
      (g := Method.toDraft ∘ Draft.Method.toMethod) h.methods.choose_spec.2
      fun _ _ => Draft.Method.isMethod_toJson
    rwa [← List.map_map, ← List.map_map] at hlist
  stateVariables := by
    refine has_of_get? (by simp [Description.toJson, optionalText, List.lookup_append]; rfl) ?_
    have hlist := lists_map (S := IsVariable) (f := Variable.toJson ∘ Draft.Variable.toVariable)
      (g := Variable.toDraft ∘ Draft.Variable.toVariable) h.stateVariables.choose_spec.2
      fun _ _ => Draft.Variable.isVariable_toJson
    rwa [← List.map_map, ← List.map_map] at hlist
  maps := by
    refine has_of_get? (by simp [Description.toJson, optionalText, List.lookup_append]; rfl) ?_
    have hlist := lists_map (S := IsMap) (f := KeyMap.toJson ∘ Draft.KeyMap.toMap)
      (g := KeyMap.toDraft ∘ Draft.KeyMap.toMap) h.maps.choose_spec.2
      fun _ _ => Draft.KeyMap.isMap_toJson
    rwa [← List.map_map, ← List.map_map] at hlist
  transactions := by
    refine has_of_get? (by simp [Description.toJson, optionalText, List.lookup_append]; rfl) ?_
    have hlist := lists_map (S := IsTransaction) (f := Transaction.toJson) (g := id)
      h.transactions.choose_spec.2 fun _ _ => Transaction.isTransaction_toJson
    rwa [List.map_id] at hlist

end SmartContract
