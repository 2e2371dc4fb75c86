import SmartContract.Proofs.Description.Rules
import SmartContract.Proofs.Description.Spelling
import SmartContract.Proofs.Related

/-!
The rules for values and the rules for drafts say the same: a value keeps its rules exactly when the
draft that it spells keeps the rules for drafts. Names, numbers and symbols are the same lists on
both sides, once fields and entries stand nowhere but where they belong.
-/

namespace SmartContract

namespace Json

/-! ### Members -/

section Members

variable {α : Type} {R : Json → α → Prop} {v : Json} {key : String}

theorem textOf_eq {s : String} (h : v.Has key R x) (hR : ∀ w, R w x → w = .string s) :
    v.textOf key = s := by
  obtain ⟨w, hw, hs⟩ := h
  rw [textOf, hw, hR w hs]
  rfl

theorem textOf_eq_getD {o : Option α} {f : α → String} (h : v.MayHave key R o)
    (hR : ∀ w x, R w x → w = .string (f x)) : v.textOf key = (o.map f).getD "" := by
  cases o with
  | none => rw [textOf, h]; rfl
  | some x => exact textOf_eq h fun w => hR w x

theorem flagOf_eq {b : Bool} (h : v.HasFlag key b) : v.flagOf key = b := by
  obtain ⟨o, ho, rfl⟩ := h
  cases o with
  | none => rw [flagOf, ho]; rfl
  | some b =>
    obtain ⟨w, hw, rfl⟩ := ho
    rw [flagOf, hw]
    rfl

theorem get?_eq_none_iff {o : Option α} (h : v.MayHave key R o) : v.get? key = none ↔ o = none := by
  cases o with
  | none => exact iff_of_true h rfl
  | some x =>
    obtain ⟨w, hw, -⟩ := h
    simp [hw]

theorem get?_eq_string_iff {o : Option String} {s : String} (h : v.MayHave key IsText o) :
    v.get? key = some (.string s) ↔ o = some s := by
  cases o with
  | none => rw [h]; simp
  | some x =>
    obtain ⟨w, hw, rfl⟩ := h
    rw [hw, Option.some.injEq, Option.some.injEq, string.injEq]

theorem itemsOf_eq {xs : List α} (h : v.Has key (Lists R) xs) :
    List.Forall₂ R (v.itemsOf key) xs := by
  obtain ⟨_, hw, ws, rfl, hws⟩ := h
  rw [itemsOf, hw]
  exact hws

theorem itemsOf_eq_getD {o : Option (List α)} (h : v.MayHave key (Lists R) o) :
    List.Forall₂ R (v.itemsOf key) (o.getD []) := by
  cases o with
  | none => rw [itemsOf, h]; exact .nil
  | some xs => exact itemsOf_eq h

theorem mayHave_imp {S : Json → α → Prop} {o : Option α} (h : v.MayHave key R o)
    (hS : ∀ w x, R w x → S w x) : v.MayHave key S o := by
  cases o with
  | none => exact h
  | some x => exact ⟨h.choose, h.choose_spec.1, hS _ _ h.choose_spec.2⟩

end Members

/-! ### Variables -/

section Parts

variable {v : Json}

theorem textOf_name_eq {s : String} (h : v.Has key IsName s) : v.textOf key = s :=
  textOf_eq h fun _ hs => hs.1

theorem textOf_form_eq {f : TextForm} {s : String} (h : v.Has key (IsForm f) s) :
    v.textOf key = s :=
  textOf_eq h fun _ hs => hs.1

theorem textOf_type_eq_structWord_iff {t : DeclaredType} (h : v.Has "type" IsDeclaredType t) :
    v.textOf "type" = Form.structWord ↔ t = .struct := by
  obtain ⟨w, hw, rfl⟩ := h
  rw [textOf, hw, ← DeclaredType.name_eq_structWord_iff]
  rfl

/-- A value spells a variable; it keeps the rules for variables exactly when that does. -/
theorem variableLawful_iff {w : Draft.Variable} (h : IsVariable v w) :
    v.VariableLawful ↔ w.Lawful := by
  have hstruct := textOf_type_eq_structWord_iff h.type
  have hitems := itemsOf_eq_getD h.fields
  have hnil : v.itemsOf "fields" = [] ↔ w.fields.getD [] = [] := by
    rw [← List.length_eq_zero_iff, hitems.length_eq, List.length_eq_zero_iff]
  have hnested : (∀ f ∈ v.itemsOf "fields", f.textOf "type" ≠ Form.structWord) ↔
      ∀ f ∈ w.fields.getD [], f.type ≠ .struct :=
    forall_mem_iff_of_forall₂ hitems fun f g hf => not_congr (textOf_type_eq_structWord_iff hf.type)
  have hscalar : ∀ t : Scalar, v.textOf "type" = t.name ↔ w.type = .value ⟨t, false⟩ := by
    intro t
    rw [textOf_eq (s := w.type.name) h.type fun _ hw => hw, DeclaredType.name_eq_scalar_iff]
  have hvalue : ∀ s, v.get? "value" = some (.string s) ↔ w.value = some s := fun s =>
    get?_eq_string_iff h.value
  constructor
  · intro hv
    refine ⟨fun ht => ?_, fun ht => ?_, fun hc hi => ?_⟩
    · exact ⟨(hv.fields (hstruct.2 ht)).1 ∘ hnil.2, hnested.1 (hv.fields (hstruct.2 ht)).2⟩
    · exact (get?_eq_none_iff h.fields).1 (hv.noFields (ht ∘ hstruct.1))
    · obtain ⟨t, s, ht, hs, hadmits⟩ := hv.literal (flagOf_eq h.constant ▸ hc)
        (flagOf_eq h.initializable ▸ hi)
      exact ⟨t, s, (hscalar t).1 ht, (hvalue s).1 hs, hadmits⟩
  · intro hw
    refine ⟨fun ht => ?_, fun ht => ?_, fun hc hi => ?_⟩
    · exact ⟨(hw.fields (hstruct.1 ht)).1 ∘ hnil.1, hnested.2 (hw.fields (hstruct.1 ht)).2⟩
    · exact (get?_eq_none_iff h.fields).2 (hw.noFields (ht ∘ hstruct.2))
    · obtain ⟨t, s, ht, hs, hadmits⟩ := hw.literal (flagOf_eq h.constant ▸ hc)
        (flagOf_eq h.initializable ▸ hi)
      exact ⟨t, s, (hscalar t).2 ht, (hvalue s).2 hs, hadmits⟩

/-! ### Keys and values of maps -/

theorem textOf_itemType_eq_iff {o : Option DeclaredItemType} (h : v.MayHave "type" IsItemType o)
    {t : DeclaredItemType} : v.textOf "type" = t.name ↔ o = some t := by
  rw [textOf_eq_getD h fun _ _ hw => hw]
  cases o with
  | none => simpa using t.name_ne_empty.symm
  | some u =>
    rw [Option.map_some, Option.getD_some, Option.some.injEq]
    exact ⟨DeclaredItemType.name_injective, fun hu => hu ▸ rfl⟩

/-- A value spells a key or the value of a map; it keeps the rules for those exactly when that
does. -/
theorem itemLawful_iff {i : Draft.Item} (h : IsItem v i) : v.ItemLawful ↔ i.Lawful := by
  have hentries := itemsOf_eq_getD (mayHave_imp h.entries fun _ _ he => he.1)
  have hnil : v.itemsOf "oneOf" = [] ↔ i.entries.getD [] = [] := by
    rw [← List.length_eq_zero_iff, hentries.length_eq, List.length_eq_zero_iff]
  have htype (t : DeclaredItemType) := textOf_itemType_eq_iff h.type (t := t)
  have henum : (v.textOf "type" = Form.enumerationWord ∨
      v.get? "type" = none ∧ v.get? "oneOf" ≠ none) ↔
        (i.type = some .enumeration ∨ i.type = none ∧ i.entries ≠ none) := by
    rw [← htype, get?_eq_none_iff h.type, ne_eq, get?_eq_none_iff h.entries, DeclaredItemType.name]
  have hvalue : v.get? "value" = none ↔ i.value = none := get?_eq_none_iff h.value
  constructor
  · intro hv
    refine ⟨fun ht => hv.entries (henum.2 ht) ∘ hnil.2, fun t ht => ?_, fun hc => ?_⟩
    · exact (get?_eq_none_iff h.entries).1 (hv.noEntries t ((htype (.scalar t)).2 ht))
    · exact hv.value (flagOf_eq h.constant ▸ hc) ∘ hvalue.2
  · intro hi
    refine ⟨fun ht => hi.entries (henum.1 ht) ∘ hnil.1, fun t ht => ?_, fun hc => ?_⟩
    · exact (get?_eq_none_iff h.entries).2 (hi.noEntries t ((htype (.scalar t)).1 ht))
    · exact hi.value (flagOf_eq h.constant ▸ hc) ∘ hvalue.1

/-- Where entries stand in enumerations only, all that are written are listed. -/
theorem forall₂_listed {i : Draft.Item} (h : IsItem v i) (hi : i.Lawful) :
    List.Forall₂ IsEntry (v.itemsOf "oneOf") i.listed := by
  have hentries := itemsOf_eq_getD (mayHave_imp h.entries fun _ _ he => he.1)
  rw [Draft.Item.listed]
  split
  · rename_i t ht
    rwa [hi.noEntries t ht] at hentries
  · exact hentries

theorem itemNumerals_eq {i : Draft.Item} (h : IsItem v i) (hi : i.Lawful) :
    v.itemNumerals = i.numerals := by
  have hvalue : (v.get? "value" >>= text?).toList = i.value.toList := by
    cases hv : i.value with
    | none => rw [(get?_eq_none_iff h.value).2 hv]; rfl
    | some s =>
      obtain ⟨w, hw, rfl, -⟩ := hv ▸ h.value
      rw [hw]
      rfl
  rw [itemNumerals, Draft.Item.numerals, hvalue]
  exact congrArg _ (map_eq_of_forall₂ (forall₂_listed h hi) fun _ _ he => textOf_form_eq he.value)

/-! ### Names -/

theorem nameSite_eq {named : Named} {s : String} (h : v.Has named.key IsName s) :
    v.nameSite named = [⟨named, s⟩] := by
  obtain ⟨w, hw, rfl, hs⟩ := h
  rw [nameSite, hw]
  have hne : s ≠ "" := by
    rintro rfl
    exact absurd hs (by decide)
  exact if_neg hne

/-- The names of the items of an array are those of the things that they spell. -/
theorem listedSites_eq {α : Type} {R : Json → α → Prop} {key : String} {xs : List α}
    {name : α → String} (named : Nat → Named) (hkey : ∀ j, (named j).key = "name")
    (h : List.Forall₂ R (v.itemsOf key) xs) (hname : ∀ w x, R w x → w.Has "name" IsName (name x)) :
    ((v.listed key).flatMap fun (w, j) => w.nameSite (named j)) =
      xs.zipIdx.map fun (x, j) => ⟨named j, name x⟩ := by
  have hsite : ∀ w x j, R w x → w.nameSite (named j) = [⟨named j, name x⟩] := fun w x j hw =>
    nameSite_eq (hkey j ▸ hname w x hw)
  rw [List.map_eq_flatMap]
  exact flatMap_zipIdx_eq_of_forall₂ h hsite

theorem methodSites_eq {m : Draft.Method} (h : IsMethod v m) (i : Nat) :
    (v.nameSite (.method i) ++ (v.listed "args").flatMap fun (a, j) => a.nameSite (.argument i j)) =
      m.sites i := by
  rw [nameSite_eq h.name, List.singleton_append, listedSites_eq (.argument i) (fun _ => rfl)
    (itemsOf_eq h.arguments) fun _ _ ha => ha.name, Draft.Method.sites]

/-- The fields of a variable that keeps the rules are all named. -/
theorem fieldSites_eq {w : Draft.Variable} (hw : w.Lawful) (i : Nat) :
    (w.structFields.filterMap fun (f, j) => f.typedName?.map fun t => ⟨.field i j, t.name⟩) =
      (w.fields.getD []).zipIdx.map fun (f, j) => (⟨.field i j, f.name⟩ : NameSite) := by
  rw [Draft.Variable.structFields, ← List.filterMap_eq_map']
  cases ht : w.type with
  | value type =>
    rw [hw.noFields (by simp [ht])]
    rfl
  | struct =>
    refine List.filterMap_congr fun x hx => ?_
    have hx := (hw.fields ht).2 _ (List.fst_mem_of_mem_zipIdx hx)
    cases hx' : x.1.type with
    | struct => exact absurd hx' hx
    | value type => simp [Draft.Field.typedName?, hx']

theorem variableSites_eq {w : Draft.Variable} (h : IsVariable v w) (hw : w.Lawful) (i : Nat) :
    (v.nameSite (.stateVariable i)
        ++ (v.listed "fields").flatMap fun (f, j) => f.nameSite (.field i j)) = w.sites i := by
  rw [Draft.Variable.sites, nameSite_eq h.name, List.singleton_append, fieldSites_eq hw,
    listedSites_eq (.field i) (fun _ => rfl) (itemsOf_eq_getD h.fields) fun _ _ hf => hf.name]

theorem itemSites_eq {item : Draft.Item} (h : IsItem v item) (hitem : item.Lawful) (i : Nat)
    (part : MapPart) :
    (v.nameSite (.item i part)
        ++ (v.listed "oneOf").flatMap fun (e, k) => e.nameSite (.entry i part k)) =
      item.sites i part := by
  rw [nameSite_eq h.name, List.singleton_append, listedSites_eq (.entry i part) (fun _ => rfl)
    (forall₂_listed h hitem) fun _ _ he => he.name, Draft.Item.sites]

/-- The parts of a map are spelled by the members that hold them. -/
theorem has_part {m : Draft.KeyMap} (h : IsMap v m) (part : MapPart) :
    v.Has part.key IsItem (m.part part) := by
  cases part with
  | key1 => exact h.key1
  | key2 => exact h.key2
  | value => exact h.value

theorem mapSites_eq {m : Draft.KeyMap} (h : IsMap v m) (hm : ∀ part, (m.part part).Lawful)
    (i : Nat) :
    (v.nameSite (.map i) ++ MapPart.all.flatMap fun part =>
        match v.get? part.key with
        | some item =>
          item.nameSite (.item i part)
            ++ (item.listed "oneOf").flatMap fun (e, k) => e.nameSite (.entry i part k)
        | none => []) = m.sites i := by
  rw [nameSite_eq h.name, List.singleton_append, Draft.KeyMap.sites]
  refine congrArg _ (List.flatMap_congr fun part _ => ?_)
  obtain ⟨item, hitem, hspells⟩ := has_part h part
  rw [hitem]
  exact itemSites_eq hspells (hm part) i part

end Parts

/-! ### The whole value -/

variable {v : Json} {d : Draft}

theorem forall₂_mapItems (h : IsDraft v d) : List.Forall₂ IsItem v.mapItems d.mapItems := by
  have hmaps := itemsOf_eq h.maps
  rw [mapItems, Draft.mapItems]
  refine List.rel_flatMap hmaps fun m n hmn => ?_
  obtain ⟨i₁, h₁, hi₁⟩ := hmn.key1
  obtain ⟨i₂, h₂, hi₂⟩ := hmn.key2
  obtain ⟨i₃, h₃, hi₃⟩ := hmn.value
  simp only [MapPart.all, MapPart.key, List.filterMap_cons, h₁, h₂, h₃, List.filterMap_nil,
    List.map_cons, List.map_nil]
  exact .cons hi₁ (.cons hi₂ (.cons hi₃ .nil))

/-- A value has the names of the draft that it spells, once fields and entries stand where they
belong. -/
theorem nameSites_eq (h : IsDraft v d) (hvariables : ∀ w ∈ d.stateVariables, w.Lawful)
    (hitems : ∀ i ∈ d.mapItems, i.Lawful) : v.nameSites = d.nameSites := by
  have hmethods := flatMap_zipIdx_eq_of_forall₂ (itemsOf_eq h.methods) fun _ _ i hm =>
    methodSites_eq hm i
  have hstate := flatMap_zipIdx_eq_of_forall₂ (forall₂_and (itemsOf_eq h.stateVariables) hvariables)
    fun _ _ i hw => variableSites_eq hw.1 hw.2 i
  have hmaps := flatMap_zipIdx_eq_of_forall₂
    (forall₂_and (itemsOf_eq h.maps) (Draft.forall_mem_mapItems_iff.1 hitems))
    fun _ _ i hm => mapSites_eq hm.1 hm.2 i
  have htransactions := listedSites_eq .transaction (fun _ => rfl) (itemsOf_eq h.transactions)
    fun _ _ ht => ht.name
  exact congrArg₂ _ (congrArg₂ _ (congrArg₂ _ (congrArg₂ _ (nameSite_eq h.name) hmethods) hstate)
    hmaps) htransactions

theorem tags_eq (h : IsDraft v d) : v.tags = d.tags := by
  have hstructs : List.Forall₂ IsVariable
      ((v.itemsOf "variables").filter (textOf "type" · = Form.structWord))
      (d.stateVariables.filter (·.type = .struct)) := by
    refine List.rel_filter (fun _ _ hw => ?_) (itemsOf_eq h.stateVariables)
    simpa using textOf_type_eq_structWord_iff hw.type
  rw [tags, Draft.tags, map_eq_of_forall₂ hstructs fun _ _ hw =>
    congrArg Name.upper (textOf_name_eq hw.name)]

theorem constants_eq (h : IsDraft v d) : v.constants = d.constants := by
  have hmethods := map_eq_of_forall₂ (itemsOf_eq h.methods) fun _ _ hm =>
    congrArg Name.upper (textOf_name_eq hm.name)
  have hmaps := filterMap_eq_of_forall₂ (itemsOf_eq h.maps)
    (f := fun m => (m.get? MapPart.key1.key).bind fun key =>
      (key.get? "value").map fun _ => Name.mapConstant (m.textOf "name") (key.textOf "name"))
    (g := fun m => m.key1.value.map fun _ => Name.mapConstant m.name m.key1.name) <| by
      intro u m hm
      obtain ⟨key, hkey, hspells⟩ := hm.key1
      rw [MapPart.key, hkey, Option.bind_some, textOf_name_eq hm.name, textOf_name_eq hspells.name]
      cases hvalue : m.key1.value with
      | none => rw [(get?_eq_none_iff hspells.value).2 hvalue]; rfl
      | some s =>
        obtain ⟨w, hw, -⟩ := hvalue ▸ hspells.value
        rw [hw]
        rfl
  rw [constants, Draft.constants, hmethods, hmaps]

theorem codes_eq (h : IsDraft v d) : v.codes = d.methods.map fun m => Numeral.value m.code :=
  map_eq_of_forall₂ (itemsOf_eq h.methods) fun _ _ hm =>
    congrArg Numeral.value (textOf_form_eq hm.code)

theorem numerals_eq (h : IsDraft v d) (hitems : ∀ i ∈ d.mapItems, i.Lawful) :
    v.numerals = d.numerals := by
  rw [numerals, Draft.numerals, textOf_form_eq h.activationAmount,
    map_eq_of_forall₂ (itemsOf_eq h.methods) fun _ _ hm => textOf_form_eq hm.code,
    flatMap_eq_of_forall₂ (forall₂_and (forall₂_mapItems h) hitems) fun _ _ hi =>
      itemNumerals_eq hi.1 hi.2]

theorem description_eq (h : IsDraft v d) : v.textOf "description" = d.description.getD "" := by
  rw [textOf_eq_getD h.description fun _ _ hs => hs.1, Option.map_id']

/-- A value keeps the rules exactly when the draft that it spells keeps them. -/
theorem lawful_iff (h : IsDraft v d) : v.Lawful ↔ d.Lawful := by
  have hvariables : (∀ w ∈ v.itemsOf "variables", w.VariableLawful) ↔
      ∀ w ∈ d.stateVariables, w.Lawful :=
    forall_mem_iff_of_forall₂ (itemsOf_eq h.stateVariables) fun _ _ => variableLawful_iff
  have hitems : (∀ i ∈ v.mapItems, i.ItemLawful) ↔ ∀ i ∈ d.mapItems, i.Lawful :=
    forall_mem_iff_of_forall₂ (forall₂_mapItems h) fun _ _ => itemLawful_iff
  have harguments : (∀ m ∈ v.itemsOf "methods", (m.itemsOf "args").length ≤ 3) ↔
      ∀ m ∈ d.methods, m.arguments.length ≤ 3 :=
    forall_mem_iff_of_forall₂ (itemsOf_eq h.methods) fun _ _ hm => by
      rw [(itemsOf_eq hm.arguments).length_eq]
  have hcodes : (∀ n ∈ v.codes, 1 ≤ n ∧ n ≤ Numeral.signedMax) ↔
      ∀ m ∈ d.methods, 1 ≤ Numeral.value m.code ∧ Numeral.value m.code ≤ Numeral.signedMax := by
    rw [codes_eq h, List.forall_mem_map]
  -- The names agree for variables and items that keep their own rules, which come first therefore.
  constructor
  · intro hv
    have hw := hvariables.1 hv.stateVariables
    have hi := hitems.1 hv.items
    exact
      { names := nameSites_eq h hw hi ▸ hv.names
        symbols := tags_eq h ▸ constants_eq h ▸ hv.symbols
        unshadowed := nameSites_eq h hw hi ▸ constants_eq h ▸ hv.unshadowed
        numerals := numerals_eq h hi ▸ hv.numerals
        codes := hcodes.1 hv.codes
        distinctCodes := codes_eq h ▸ hv.distinctCodes
        arguments := harguments.1 hv.arguments
        stateVariables := hw
        items := hi
        oneLine := description_eq h ▸ hv.oneLine }
  · intro hd
    have hw := hd.stateVariables
    have hi := hd.items
    exact
      { names := nameSites_eq h hw hi ▸ hd.names
        symbols := tags_eq h ▸ constants_eq h ▸ hd.symbols
        unshadowed := nameSites_eq h hw hi ▸ constants_eq h ▸ hd.unshadowed
        numerals := numerals_eq h hi ▸ hd.numerals
        codes := hcodes.2 hd.codes
        distinctCodes := codes_eq h ▸ hd.distinctCodes
        arguments := harguments.2 hd.arguments
        stateVariables := hvariables.2 hw
        items := hitems.2 hi
        oneLine := description_eq h ▸ hd.oneLine }

end Json

end SmartContract
