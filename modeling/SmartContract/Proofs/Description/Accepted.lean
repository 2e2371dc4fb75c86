import Mathlib.Data.List.Flatten
import SmartContract.Proofs.Description.Roundtrip

/-!
What holds of accepted descriptions: what is called by a name has one, codes and constants differ,
literals are what their variables take. All of it comes from the rules for the draft of the
description.
-/

namespace SmartContract

namespace Draft

variable {d : Draft}

/-! ### Names of a draft -/

theorem exists_site_of_mem_methods {m : Method} (h : m ∈ d.methods) :
    ∃ i, ∀ s ∈ m.sites i, s ∈ d.nameSites := by
  obtain ⟨i, hi⟩ := List.mem_iff_getElem?.1 h
  refine ⟨i, fun s hs => ?_⟩
  rw [nameSites_eq_sites]
  simp only [List.mem_append, List.mem_cons, List.mem_flatMap]
  exact .inl (.inl (.inl (.inr ⟨(m, i), List.mem_zipIdx_iff_getElem?.2 hi, hs⟩)))

theorem exists_site_of_mem_stateVariables {v : Variable} (h : v ∈ d.stateVariables) :
    ∃ i, ∀ s ∈ v.sites i, s ∈ d.nameSites := by
  obtain ⟨i, hi⟩ := List.mem_iff_getElem?.1 h
  refine ⟨i, fun s hs => ?_⟩
  rw [nameSites_eq_sites]
  simp only [List.mem_append, List.mem_cons, List.mem_flatMap]
  exact .inl (.inl (.inr ⟨(v, i), List.mem_zipIdx_iff_getElem?.2 hi, hs⟩))

theorem exists_site_of_mem_maps {m : KeyMap} (h : m ∈ d.maps) :
    ∃ i, ∀ s ∈ m.sites i, s ∈ d.nameSites := by
  obtain ⟨i, hi⟩ := List.mem_iff_getElem?.1 h
  refine ⟨i, fun s hs => ?_⟩
  rw [nameSites_eq_sites]
  simp only [List.mem_append, List.mem_cons, List.mem_flatMap]
  exact .inl (.inr ⟨(m, i), List.mem_zipIdx_iff_getElem?.2 hi, hs⟩)

end Draft

namespace Description

variable {d : Description}

theorem IsAccepted.lawful (h : d.IsAccepted) : d.toDraft.Lawful := (isAccepted_iff.1 h).2

theorem IsAccepted.isDraft (h : d.IsAccepted) : Json.IsDraft d.toJson d.toDraft :=
  (isAccepted_iff.1 h).1

/-! ### Names -/

theorem IsAccepted.isName (h : d.IsAccepted) : Name.IsName d.name :=
  h.lawful.names.isName ⟨.contract, d.name⟩ List.mem_cons_self

theorem IsAccepted.isName_method (h : d.IsAccepted) {m : Method} (hm : m ∈ d.methods) :
    Name.IsName m.name ∧ ∀ a ∈ m.arguments, Name.IsName a.name := by
  obtain ⟨i, hsites⟩ := Draft.exists_site_of_mem_methods (d := d.toDraft)
    (List.mem_map_of_mem (f := Method.toDraft) hm)
  have hname := fun s hs => h.lawful.names.isName s (hsites s hs)
  rw [Draft.Method.sites, List.forall_mem_cons, List.forall_mem_map] at hname
  refine ⟨hname.1, fun a ha => ?_⟩
  obtain ⟨j, hj⟩ := List.mem_iff_getElem?.1 ha
  exact hname.2 (a, j) (List.mem_zipIdx_iff_getElem?.2 hj)

theorem exists_field_mem_sites {v : Variable} (i : Nat) {f : TypedName} (hf : f ∈ v.fields) :
    ∃ j, ⟨.field i j, f.name⟩ ∈ v.toDraft.sites i := by
  obtain ⟨name, kind, description, constant, initializable, value⟩ := v
  cases kind with
  | value type => exact absurd hf List.not_mem_nil
  | struct fields =>
    obtain ⟨j, hj⟩ := List.mem_iff_getElem?.1 hf
    have hfield : (f.toField, j) ∈ (fields.map TypedName.toField).zipIdx := by
      have hget : fields[j]? = some f := hj
      simp [List.mem_zipIdx_iff_getElem?, hget]
    exact ⟨j, List.mem_cons_of_mem _ (List.mem_filterMap.2 ⟨_, hfield, rfl⟩)⟩

theorem IsAccepted.isName_stateVariable (h : d.IsAccepted) {v : Variable}
    (hv : v ∈ d.stateVariables) : Name.IsName v.name ∧ ∀ f ∈ v.fields, Name.IsName f.name := by
  obtain ⟨i, hsites⟩ := Draft.exists_site_of_mem_stateVariables (d := d.toDraft)
    (List.mem_map_of_mem (f := Variable.toDraft) hv)
  have hname := fun s hs => h.lawful.names.isName s (hsites s hs)
  refine ⟨hname ⟨.stateVariable i, v.name⟩ List.mem_cons_self, fun f hf => ?_⟩
  obtain ⟨j, hj⟩ := exists_field_mem_sites i hf
  exact hname _ hj

/-- The names of one scope differ. -/
theorem IsAccepted.nodup_scoped (h : d.IsAccepted) {sites : List NameSite}
    (hsites : sites.Sublist d.toDraft.nameSites) :
    (sites.filterMap fun s => s.named.scope?.map (·, s.name)).Nodup :=
  h.lawful.names.distinct.sublist (hsites.filterMap _)

theorem sites_stateVariables_sublist (d : Description) :
    (d.toDraft.stateVariables.zipIdx.flatMap fun (v, i) => v.sites i).Sublist
      d.toDraft.nameSites := by
  rw [Draft.nameSites_eq_sites]
  exact ((List.sublist_append_right _ _).trans (List.sublist_append_left _ _)).trans
    (List.sublist_append_left _ _)

theorem IsAccepted.nodup_names_stateVariables (h : d.IsAccepted) :
    (d.stateVariables.map (·.name)).Nodup := by
  have hsites : (d.toDraft.stateVariables.zipIdx.map fun (v, i) =>
      (⟨.stateVariable i, v.name⟩ : NameSite)).Sublist d.toDraft.nameSites := by
    rw [List.map_eq_flatMap]
    refine (List.Sublist.flatMap_right _ fun x _ => ?_).trans d.sites_stateVariables_sublist
    exact List.singleton_sublist.2 List.mem_cons_self
  have hscoped := h.nodup_scoped hsites
  rw [List.filterMap_map, filterMap_zipIdx_of_fst (k := fun v => some (Scope.program, v.name))
    fun _ _ => rfl, List.filterMap_eq_map'] at hscoped
  have hnames : (d.toDraft.stateVariables.map fun v => (Scope.program, v.name)) =
      (d.stateVariables.map (·.name)).map (Scope.program, ·) := by
    rw [toDraft, List.map_map, List.map_map]
    rfl
  exact (hnames ▸ hscoped).of_map _

theorem IsAccepted.nodup_names_fields (h : d.IsAccepted) {v : Variable}
    (hv : v ∈ d.stateVariables) : (v.fields.map (·.name)).Nodup := by
  obtain ⟨i, hi⟩ := List.mem_iff_getElem?.1 (List.mem_map_of_mem (f := Variable.toDraft) hv)
  have hsites : (v.toDraft.sites i).Sublist d.toDraft.nameSites :=
    (List.sublist_flatten_of_mem (List.mem_map.2
      ⟨(v.toDraft, i), List.mem_zipIdx_iff_getElem?.2 hi, rfl⟩)).trans d.sites_stateVariables_sublist
  have hscoped := h.nodup_scoped ((List.sublist_cons_self _ _).trans hsites)
  obtain ⟨name, kind, description, constant, initializable, value⟩ := v
  cases kind with
  | value type => exact List.nodup_nil
  | struct fields =>
    have hnames : (((fields.map TypedName.toField).zipIdx.filterMap fun f =>
        f.1.typedName?.map fun t => (⟨.field i f.2, t.name⟩ : NameSite)).filterMap
          fun s => s.named.scope?.map (·, s.name)) =
            (fields.map (·.name)).map (Scope.fields i, ·) := by
      rw [List.filterMap_filterMap, filterMap_zipIdx_of_fst
        (k := fun f => f.typedName?.map fun t => (Scope.fields i, t.name)), List.filterMap_map,
        List.map_map]
      · exact congrFun List.filterMap_eq_map' fields
      · rintro ⟨name, type | -⟩ j <;> rfl
    have hfields : ((fields.map (·.name)).map (Scope.fields i, ·)).Nodup := hnames ▸ hscoped
    exact hfields.of_map _

theorem IsAccepted.isName_map (h : d.IsAccepted) {m : KeyMap} (hm : m ∈ d.maps) :
    Name.IsName m.name ∧ Name.IsName m.key1.name := by
  obtain ⟨i, hsites⟩ := Draft.exists_site_of_mem_maps (d := d.toDraft)
    (List.mem_map_of_mem (f := KeyMap.toDraft) hm)
  have hname := fun s hs => h.lawful.names.isName s (hsites s hs)
  have hkey : ⟨.item i .key1, m.key1.name⟩ ∈ m.toDraft.sites i :=
    List.mem_cons_of_mem _ (List.mem_flatMap.2 ⟨.key1, by decide, List.mem_cons_self⟩)
  exact ⟨hname ⟨.map i, m.name⟩ List.mem_cons_self, hname _ hkey⟩

/-! ### Methods -/

theorem IsAccepted.code_method (h : d.IsAccepted) {m : Method} (hm : m ∈ d.methods) :
    1 ≤ m.code ∧ m.code ≤ Numeral.signedMax := by
  have hcode := h.lawful.codes m.toDraft (List.mem_map_of_mem hm)
  rwa [Method.toDraft, Numeral.value_text] at hcode

theorem IsAccepted.arguments_method (h : d.IsAccepted) {m : Method} (hm : m ∈ d.methods) :
    m.arguments.length ≤ 3 :=
  h.lawful.arguments m.toDraft (List.mem_map_of_mem hm)

theorem IsAccepted.nodup_codes (h : d.IsAccepted) : (d.methods.map (·.code)).Nodup := by
  have hcodes : (d.toDraft.methods.map fun m => Numeral.value m.code) = d.methods.map (·.code) := by
    rw [toDraft, List.map_map]
    exact List.map_congr_left fun m _ => Numeral.value_text m.code
  exact hcodes ▸ h.lawful.distinctCodes

/-- The constants of the program: those for the methods, and those for the first keys of maps. -/
theorem constants_toDraft (d : Description) :
    d.toDraft.constants = d.methods.map Method.constant
      ++ d.maps.filterMap fun m => m.key1.value.map fun _ => Name.mapConstant m.name m.key1.name := by
  rw [Draft.constants, toDraft, List.map_map, List.filterMap_map]
  refine congrArg _ (List.filterMap_congr fun m _ => ?_)
  change (m.key1.value.map Numeral.text).map _ = m.key1.value.map _
  rw [Option.map_map]
  rfl

theorem IsAccepted.nodup_constants (h : d.IsAccepted) :
    (d.methods.map Method.constant
      ++ d.maps.filterMap fun m => m.key1.value.map fun _ =>
        Name.mapConstant m.name m.key1.name).Nodup :=
  constants_toDraft d ▸ (List.nodup_append.1 h.lawful.symbols).2.1

theorem IsAccepted.nodup_names_methods (h : d.IsAccepted) : (d.methods.map (·.name)).Nodup := by
  have hupper : ((d.methods.map (·.name)).map Name.upper).Nodup := by
    rw [List.map_map]
    exact (List.nodup_append.1 h.nodup_constants).1
  exact hupper.of_map _

/-- A name that comes to stand in the program is taken neither by what every program has nor by a
constant. -/
theorem IsAccepted.free_site (h : d.IsAccepted) {s : NameSite} (hs : s ∈ d.toDraft.nameSites)
    (hprogram : s.named.inProgram = true) :
    Vocabulary.isReserved s.name = false ∧ s.name ∉ d.toDraft.constants :=
  ⟨h.lawful.names.unreserved s hs hprogram, h.lawful.unshadowed s hs hprogram⟩

theorem IsAccepted.free_method (h : d.IsAccepted) {m : Method} (hm : m ∈ d.methods) :
    Vocabulary.isReserved m.name = false ∧ m.name ∉ d.toDraft.constants := by
  obtain ⟨i, hsites⟩ := Draft.exists_site_of_mem_methods (d := d.toDraft)
    (List.mem_map_of_mem (f := Method.toDraft) hm)
  exact h.free_site (hsites ⟨.method i, m.name⟩ List.mem_cons_self) rfl

theorem IsAccepted.free_argument (h : d.IsAccepted) {m : Method} (hm : m ∈ d.methods)
    {a : TypedName} (ha : a ∈ m.arguments) :
    Vocabulary.isReserved a.name = false ∧ a.name ∉ d.toDraft.constants := by
  obtain ⟨i, hsites⟩ := Draft.exists_site_of_mem_methods (d := d.toDraft)
    (List.mem_map_of_mem (f := Method.toDraft) hm)
  obtain ⟨j, hj⟩ := List.mem_iff_getElem?.1 ha
  have hsite : ⟨.argument i j, a.name⟩ ∈ m.toDraft.sites i :=
    List.mem_cons_of_mem _ (List.mem_map.2 ⟨(a, j), List.mem_zipIdx_iff_getElem?.2 hj, rfl⟩)
  exact h.free_site (hsites _ hsite) rfl

theorem IsAccepted.free_stateVariable (h : d.IsAccepted) {v : Variable}
    (hv : v ∈ d.stateVariables) :
    Vocabulary.isReserved v.name = false ∧ v.name ∉ d.toDraft.constants := by
  obtain ⟨i, hsites⟩ := Draft.exists_site_of_mem_stateVariables (d := d.toDraft)
    (List.mem_map_of_mem (f := Variable.toDraft) hv)
  exact h.free_site (hsites ⟨.stateVariable i, v.name⟩ List.mem_cons_self) rfl

theorem IsAccepted.free_field (h : d.IsAccepted) {v : Variable} (hv : v ∈ d.stateVariables)
    {f : TypedName} (hf : f ∈ v.fields) :
    Vocabulary.isReserved f.name = false ∧ f.name ∉ d.toDraft.constants := by
  obtain ⟨i, hsites⟩ := Draft.exists_site_of_mem_stateVariables (d := d.toDraft)
    (List.mem_map_of_mem (f := Variable.toDraft) hv)
  obtain ⟨j, hj⟩ := exists_field_mem_sites i hf
  exact h.free_site (hsites _ hj) rfl

/-- The main function is no method, for its name is reserved. -/
theorem IsAccepted.name_method_ne_main (h : d.IsAccepted) {m : Method} (hm : m ∈ d.methods) :
    m.name ≠ "main" := by
  intro hmain
  have hfree := (h.free_method hm).1
  rw [hmain] at hfree
  exact absurd hfree (by decide)

/-! ### Structs -/

theorem isStruct_iff_toDraft {v : Variable} : v.isStruct = true ↔ v.toDraft.type = .struct := by
  obtain ⟨name, kind, description, constant, initializable, value⟩ := v
  cases kind <;> simp [Variable.isStruct, Variable.toDraft, VariableKind.declaredType]

theorem upper_mem_tags {v : Variable} (hv : v ∈ d.structs) :
    Name.upper v.name ∈
      (d.toDraft.stateVariables.filter (·.type = .struct)).map fun w => Name.upper w.name := by
  obtain ⟨hv, hstruct⟩ := List.mem_filter.1 hv
  refine List.mem_map.2 ⟨v.toDraft, List.mem_filter.2 ⟨List.mem_map_of_mem hv, ?_⟩, rfl⟩
  exact decide_eq_true (isStruct_iff_toDraft.1 hstruct)

/-- No struct of an accepted description has the tag of the struct of the transaction. -/
theorem IsAccepted.upper_ne_transactionTag (h : d.IsAccepted) {v : Variable} (hv : v ∈ d.structs) :
    Name.upper v.name ≠ Vocabulary.transactionTag := by
  have htags := (List.nodup_append.1 h.lawful.symbols).1
  intro heq
  exact (List.nodup_cons.1 htags).1 (heq ▸ upper_mem_tags hv)

theorem IsAccepted.not_mem_constants_of_mem_tags (h : d.IsAccepted) {s : String}
    (hs : s ∈ d.toDraft.tags) : s ∉ d.toDraft.constants := fun hconstant =>
  (List.nodup_append.1 h.lawful.symbols).2.2 s hs s hconstant rfl

theorem IsAccepted.fields_ne_nil (h : d.IsAccepted) {v : Variable} (hv : v ∈ d.stateVariables)
    (hstruct : v.isStruct = true) : v.fields ≠ [] := by
  have hlawful := h.lawful.stateVariables v.toDraft (List.mem_map_of_mem hv)
  have hfields := (hlawful.fields (isStruct_iff_toDraft.1 hstruct)).1
  obtain ⟨name, kind, description, constant, initializable, value⟩ := v
  cases kind with
  | value type => cases hstruct
  | struct fields =>
    rintro rfl
    exact hfields rfl

/-! ### Texts -/

theorem IsAccepted.oneLine (h : d.IsAccepted) :
    '\n' ∉ (d.description.getD "").toList ∧ '\r' ∉ (d.description.getD "").toList :=
  h.lawful.oneLine

theorem IsAccepted.exists_admits_of_literal? (h : d.IsAccepted) {v : Variable}
    (hv : v ∈ d.stateVariables) {s : String} (hs : v.literal? = some s) :
    ∃ t : Scalar, v.kind = .value ⟨t, false⟩ ∧ t.Admits s := by
  have hlawful := h.lawful.stateVariables v.toDraft (List.mem_map_of_mem hv)
  rw [Variable.literal?] at hs
  split at hs
  · rename_i hset
    obtain ⟨hconstant, hinit⟩ : v.constant = true ∧ v.initializable = false := by
      simpa using hset
    obtain ⟨t, u, ht, hu, hadmits⟩ := hlawful.literal hconstant hinit
    have hvalue : some u = some s := hu.symm.trans hs
    refine ⟨t, ?_, Option.some.inj hvalue ▸ hadmits⟩
    obtain ⟨name, kind, description, constant, initializable, value⟩ := v
    cases kind with
    | value type =>
      have htype : DeclaredType.value type = .value ⟨t, false⟩ := ht
      rw [DeclaredType.value.inj htype]
    | struct fields => cases ht
  · cases hs

end Description

end SmartContract
