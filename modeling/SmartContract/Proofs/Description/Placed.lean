import SmartContract.Proofs.Description.Agreement

/-!
Which names and numbers of a value stand where they belong: fields in structs, apart from those that
are structs themselves, and entries in enumerations. Those are the names and numbers of the draft
that the value spells; what stands elsewhere is not looked at.
-/

namespace SmartContract

/-! ### Numbers in their places -/

/-- The member that holds the number of the thing. -/
def Named.numeralKey : Named → String
  | contract => "activationAmount"
  | method _ => "code"
  | _ => "value"

/-- A number as it was written, in its place. -/
structure NumeralSite where
  named : Named
  numeral : String
deriving DecidableEq, Repr

/-- Where a description holds the number. -/
def NumeralSite.pointer (s : NumeralSite) : Json.Pointer := s.named.holder.member s.named.numeralKey

/-- The numbers of a key or the value of a map in their places, apart from those that it does not
mean. -/
def Draft.Item.numeralSites (item : Draft.Item) (i : Nat) (part : MapPart) : List NumeralSite :=
  (item.value.map (⟨.item i part, ·⟩)).toList
    ++ item.listed.zipIdx.map fun (e, k) => ⟨.entry i part k, e.value⟩

/-- The numbers of a draft in their places. -/
def Draft.numeralSites (d : Draft) : List NumeralSite :=
  ⟨.contract, d.activationAmount⟩
    :: (d.methods.zipIdx.map fun (m, i) => ⟨.method i, m.code⟩)
    ++ d.maps.zipIdx.flatMap fun (m, i) =>
      MapPart.all.flatMap fun part => (m.part part).numeralSites i part

namespace Json

/-- The number of the thing that the value stands for, if it has one. -/
def numeralSite (named : Named) (v : Json) : List NumeralSite :=
  ((v.get? named.numeralKey >>= text?).map (⟨named, ·⟩)).toList

/-- The numbers of a value, in the places where a description has texts of digits. -/
def numeralSites (v : Json) : List NumeralSite :=
  v.numeralSite .contract
    ++ ((v.listed "methods").flatMap fun (m, i) => m.numeralSite (.method i))
    ++ (v.listed "maps").flatMap fun (m, i) =>
      MapPart.all.flatMap fun part =>
        match m.get? part.key with
        | some item =>
          item.numeralSite (.item i part)
            ++ (item.listed "oneOf").flatMap fun (e, k) => e.numeralSite (.entry i part k)
        | none => []

/-! ### What stands where it belongs -/

/-- The type that is written for the thing, and the empty text if there is none. -/
def typeAt (v : Json) (n : Named) : String :=
  ((Pointer.resolve? v n.holder).map (textOf "type")).getD ""

/-- Does the thing stand where a description can have it? A field does in a struct unless it is one
itself, an entry does unless the key or value has a type of single values. -/
def isPlaced (v : Json) : Named → Bool
  | .field i j =>
    v.typeAt (.stateVariable i) = Form.structWord && v.typeAt (.field i j) ≠ Form.structWord
  | .entry i part _ => Scalar.all.all fun t => v.typeAt (.item i part) ≠ t.name
  | _ => true

variable {v : Json} {d : Draft} {i : Nat}

theorem resolve?_item {w : Json} {key : String} (h : (v.itemsOf key)[i]? = some w)
    (rest : Pointer) :
    Pointer.resolve? v (.member key :: .item i :: rest) = Pointer.resolve? w rest := by
  rw [itemsOf] at h
  cases hkey : v.get? key >>= items? with
  | none => simp [hkey] at h
  | some items =>
    obtain ⟨a, ha, hitems⟩ := Option.bind_eq_some_iff.1 hkey
    rw [hkey, Option.getD_some] at h
    simp [Pointer.resolve?, Step.resolve?, ha, hitems, h]

theorem typeAt_stateVariable (h : IsDraft v d) {x : Draft.Variable}
    (hx : d.stateVariables[i]? = some x) : v.typeAt (.stateVariable i) = x.type.name := by
  obtain ⟨w, hw, hspells⟩ := getElem?_of_forall₂ (itemsOf_eq h.stateVariables) hx
  rw [typeAt, Named.holder, resolve?_item hw]
  exact textOf_eq hspells.type fun _ ht => ht

theorem typeAt_field (h : IsDraft v d) {x : Draft.Variable} {f : Draft.Field} {j : Nat}
    (hx : d.stateVariables[i]? = some x) (hf : (x.fields.getD [])[j]? = some f) :
    v.typeAt (.field i j) = f.type.name := by
  obtain ⟨w, hw, hspells⟩ := getElem?_of_forall₂ (itemsOf_eq h.stateVariables) hx
  obtain ⟨u, hu, hfield⟩ := getElem?_of_forall₂ (itemsOf_eq_getD hspells.fields) hf
  rw [typeAt, Named.holder, resolve?_item hw, resolve?_item hu]
  exact textOf_eq hfield.type fun _ ht => ht

theorem typeAt_item (h : IsDraft v d) {m : Draft.KeyMap} (hm : d.maps[i]? = some m)
    (part : MapPart) :
    v.typeAt (.item i part) = ((m.part part).type.map DeclaredItemType.name).getD "" := by
  obtain ⟨w, hw, hspells⟩ := getElem?_of_forall₂ (itemsOf_eq h.maps) hm
  obtain ⟨item, hitem, hpart⟩ := has_part hspells part
  have hresolve : Pointer.resolve? w [.member part.key] = some item := by
    simp [Pointer.resolve?, Step.resolve?, hitem]
  rw [typeAt, Named.holder, resolve?_item hw, hresolve]
  exact textOf_eq_getD hpart.type fun _ _ ht => ht

/-- The fields that stand where they belong are those that the program declares. -/
theorem filter_isPlaced_fields (h : IsDraft v d) {x : Draft.Variable}
    (hx : d.stateVariables[i]? = some x) :
    ((x.fields.getD []).zipIdx.map fun (f, j) => (⟨.field i j, f.name⟩ : NameSite)).filter
        (v.isPlaced ·.named) =
      x.structFields.filterMap fun (f, j) => f.typedName?.map fun t => ⟨.field i j, t.name⟩ := by
  have hstruct := typeAt_stateVariable h hx
  rw [List.filter_map, ← List.filterMap_eq_map', List.filterMap_filter, Draft.Variable.structFields]
  cases ht : x.type with
  | value type =>
    rw [ht] at hstruct
    simp [isPlaced, hstruct, DeclaredType.name, type.name_ne_structWord]
  | struct =>
    rw [ht] at hstruct
    refine List.filterMap_congr ?_
    rintro ⟨f, j⟩ hf
    have hfield := typeAt_field h hx (List.mem_zipIdx_iff_getElem?.1 hf)
    obtain ⟨name, type | -⟩ := f
    · simp [isPlaced, hstruct, hfield, DeclaredType.name, type.name_ne_structWord,
        Draft.Field.typedName?]
    · simp [isPlaced, hfield, DeclaredType.name, Draft.Field.typedName?]

/-- The entries that stand where they belong are those that are listed, whatever is taken from
them. -/
theorem filter_isPlaced_entries {σ : Type} (named : σ → Named) (site : Draft.Entry → Nat → σ)
    (h : IsDraft v d) {m : Draft.KeyMap} (hm : d.maps[i]? = some m) (part : MapPart)
    (hnamed : ∀ e k, named (site e k) = .entry i part k) :
    (((m.part part).entries.getD []).zipIdx.map fun (e, k) => site e k).filter
        (fun s => v.isPlaced (named s)) =
      (m.part part).listed.zipIdx.map fun (e, k) => site e k := by
  have htype := typeAt_item h hm part
  rw [Draft.Item.listed]
  split
  · rename_i t ht
    rw [ht] at htype
    have hnone : ∀ k, v.isPlaced (.entry i part k) = false := fun k => by
      simpa [isPlaced, htype, DeclaredItemType.name] using ⟨t, by cases t <;> decide, rfl⟩
    rw [List.zipIdx_nil, List.map_nil, List.filter_eq_nil_iff, List.forall_mem_map]
    rintro ⟨e, k⟩ -
    rw [hnamed, hnone]
    exact Bool.false_ne_true
  · rename_i ht
    have hall : ∀ k, v.isPlaced (.entry i part k) = true := fun k => by
      have hne : ∀ t : Scalar, v.typeAt (.item i part) ≠ t.name := by
        intro t
        rw [htype]
        cases hitem : (m.part part).type with
        | none => exact t.name_ne_empty.symm
        | some u =>
          cases u with
          | scalar u => exact absurd hitem (ht u)
          | enumeration => exact t.name_ne_enumerationWord.symm
      exact List.all_eq_true.2 fun t _ => by simpa using hne t
    rw [List.filter_eq_self, List.forall_mem_map]
    rintro ⟨e, k⟩ -
    rw [hnamed, hall]

/-! ### The whole value -/

theorem filter_isPlaced_variableSites (h : IsDraft v d) {x : Draft.Variable}
    (hx : d.stateVariables[i]? = some x) {w : Json} (hw : IsVariable w x) :
    (w.nameSite (.stateVariable i)
        ++ (w.listed "fields").flatMap fun (f, j) => f.nameSite (.field i j)).filter
          (v.isPlaced ·.named) = x.sites i := by
  rw [nameSite_eq hw.name, listedSites_eq (.field i) (fun _ => rfl) (itemsOf_eq_getD hw.fields)
    fun _ _ hf => hf.name, List.filter_append, filter_isPlaced_fields h hx]
  rfl

theorem filter_isPlaced_mapSites (h : IsDraft v d) {m : Draft.KeyMap} (hm : d.maps[i]? = some m)
    {w : Json} (hw : IsMap w m) :
    (w.nameSite (.map i) ++ MapPart.all.flatMap fun part =>
        match w.get? part.key with
        | some item =>
          item.nameSite (.item i part)
            ++ (item.listed "oneOf").flatMap fun (e, k) => e.nameSite (.entry i part k)
        | none => []).filter (v.isPlaced ·.named) = m.sites i := by
  rw [nameSite_eq hw.name, List.filter_append, List.filter_flatMap, Draft.KeyMap.sites]
  refine congrArg _ (List.flatMap_congr fun part _ => ?_)
  obtain ⟨item, hitem, hspells⟩ := has_part hw part
  have hentries := itemsOf_eq_getD (mayHave_imp hspells.entries fun _ _ he => he.1)
  have hplaced := filter_isPlaced_entries NameSite.named (fun e k => ⟨.entry i part k, e.name⟩) h hm
    part fun _ _ => rfl
  rw [hitem]
  change (item.nameSite _ ++ _).filter _ = _
  rw [nameSite_eq hspells.name, listedSites_eq (.entry i part) (fun _ => rfl) hentries
    fun _ _ he => he.name, List.filter_append, hplaced]
  rfl

theorem methodsSites_eq (h : IsDraft v d) :
    ((v.listed "methods").flatMap fun (m, i) =>
      m.nameSite (.method i)
        ++ (m.listed "args").flatMap fun (a, j) => a.nameSite (.argument i j)) =
      d.methods.zipIdx.flatMap fun (m, i) => m.sites i :=
  flatMap_zipIdx_eq_of_forall₂ (itemsOf_eq h.methods) fun _ _ i hm => methodSites_eq hm i

theorem filter_isPlaced_transactions (v : Json) (ts : List Transaction) :
    (ts.zipIdx.map fun (t, i) => (⟨.transaction i, t.name⟩ : NameSite)).filter
        (v.isPlaced ·.named) = ts.zipIdx.map fun (t, i) => ⟨.transaction i, t.name⟩ := by
  rw [List.filter_eq_self, List.forall_mem_map]
  exact fun _ _ => rfl

/-- The names that stand where they belong are those of the draft that the value spells. -/
theorem filter_isPlaced_nameSites (h : IsDraft v d) :
    v.nameSites.filter (v.isPlaced ·.named) = d.nameSites := by
  have hmethods : (d.methods.zipIdx.flatMap fun (m, i) => m.sites i).filter (v.isPlaced ·.named) =
      d.methods.zipIdx.flatMap fun (m, i) => m.sites i := by
    rw [List.filter_eq_self, List.forall_mem_flatMap]
    rintro ⟨m, i⟩ -
    change ∀ s ∈ m.sites i, _
    rw [Draft.Method.sites, List.forall_mem_cons, List.forall_mem_map]
    exact ⟨rfl, fun _ _ => rfl⟩
  rw [nameSites, nameSite_eq h.name, methodsSites_eq h, listedSites_eq .transaction (fun _ => rfl)
    (itemsOf_eq h.transactions) fun _ _ ht => ht.name, List.filter_append, List.filter_append,
    List.filter_append, List.filter_append, hmethods, filter_isPlaced_transactions,
    List.filter_flatMap, List.filter_flatMap]
  exact congrArg₂ _ (congrArg₂ _ (congrArg₂ _ rfl
    (flatMap_zipIdx_eq_of_getElem? (itemsOf_eq h.stateVariables) fun _ _ _ hx hw =>
      filter_isPlaced_variableSites h hx hw))
    (flatMap_zipIdx_eq_of_getElem? (itemsOf_eq h.maps) fun _ _ _ hm hw =>
      filter_isPlaced_mapSites h hm hw)) rfl

theorem numeralSite_eq (named : Named) {w : Json} {s : String}
    (h : w.Has named.numeralKey (IsForm .digits) s) : w.numeralSite named = [⟨named, s⟩] := by
  obtain ⟨u, hu, rfl, -⟩ := h
  rw [numeralSite, hu]
  rfl

theorem numeralSite_eq_toList (named : Named) {w : Json} {o : Option String}
    (h : w.MayHave named.numeralKey (IsForm .digits) o) :
    w.numeralSite named = (o.map (⟨named, ·⟩)).toList := by
  cases o with
  | none => rw [numeralSite, h]; rfl
  | some s => exact numeralSite_eq named h

theorem filter_isPlaced_itemNumerals (h : IsDraft v d) {m : Draft.KeyMap}
    (hm : d.maps[i]? = some m) {w : Json} (hw : IsMap w m) :
    (MapPart.all.flatMap fun part =>
        match w.get? part.key with
        | some item =>
          item.numeralSite (.item i part)
            ++ (item.listed "oneOf").flatMap fun (e, k) => e.numeralSite (.entry i part k)
        | none => []).filter (v.isPlaced ·.named) =
      MapPart.all.flatMap fun part => (m.part part).numeralSites i part := by
  rw [List.filter_flatMap]
  refine List.flatMap_congr fun part _ => ?_
  obtain ⟨item, hitem, hspells⟩ := has_part hw part
  have hentries := itemsOf_eq_getD (mayHave_imp hspells.entries fun _ _ he => he.1)
  have hlisted : ((item.listed "oneOf").flatMap fun (e, k) => e.numeralSite (.entry i part k)) =
      ((m.part part).entries.getD []).zipIdx.map fun (e, k) => ⟨.entry i part k, e.value⟩ := by
    rw [List.map_eq_flatMap]
    exact flatMap_zipIdx_eq_of_forall₂ hentries fun _ _ k he =>
      numeralSite_eq (.entry i part k) he.value
  have hplaced := filter_isPlaced_entries NumeralSite.named (fun e k => ⟨.entry i part k, e.value⟩)
    h hm part fun _ _ => rfl
  have hvalue : (item.numeralSite (.item i part)).filter (v.isPlaced ·.named) =
      ((m.part part).value.map (⟨.item i part, ·⟩)).toList := by
    rw [numeralSite_eq_toList (.item i part) hspells.value]
    cases (m.part part).value <;> rfl
  rw [hitem]
  change (item.numeralSite _ ++ _).filter _ = _
  rw [List.filter_append, hvalue, hlisted, hplaced, Draft.Item.numeralSites]

/-- The numbers that stand where they belong are those of the draft that the value spells. -/
theorem filter_isPlaced_numeralSites (h : IsDraft v d) :
    v.numeralSites.filter (v.isPlaced ·.named) = d.numeralSites := by
  have hmethods : ((v.listed "methods").flatMap fun (m, i) => m.numeralSite (.method i)) =
      d.methods.zipIdx.map fun (m, i) => ⟨.method i, m.code⟩ := by
    rw [List.map_eq_flatMap]
    exact flatMap_zipIdx_eq_of_forall₂ (itemsOf_eq h.methods) fun _ _ i hm =>
      numeralSite_eq (.method i) hm.code
  have hcodes : (d.methods.zipIdx.map fun (m, i) => (⟨.method i, m.code⟩ : NumeralSite)).filter
      (v.isPlaced ·.named) = d.methods.zipIdx.map fun (m, i) => ⟨.method i, m.code⟩ := by
    rw [List.filter_eq_self, List.forall_mem_map]
    exact fun _ _ => rfl
  rw [numeralSites, numeralSite_eq .contract h.activationAmount, hmethods,
    List.filter_append, List.filter_append, hcodes, List.filter_flatMap]
  exact congrArg₂ _ rfl (flatMap_zipIdx_eq_of_getElem? (itemsOf_eq h.maps) fun _ _ _ hm hw =>
    filter_isPlaced_itemNumerals h hm hw)

end Json

end SmartContract
