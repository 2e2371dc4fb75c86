import SmartContract.Description.Draft.Faults
import SmartContract.Proofs.Description.Rules
import SmartContract.Proofs.Related
import SmartContract.Proofs.Repeats

/-!
A draft has no faults exactly when it keeps the rules. Every pass over the draft reports nothing
exactly when its own rule is kept, and the passes do not depend on each other.
-/

namespace SmartContract

/-! ### Names -/

namespace NameSite

variable {s : NameSite} {sites : List NameSite}

theorem badName_eq_nil_iff : s.badName = [] ↔ Name.IsName s.name := by
  rw [badName, Option.toList_eq_nil_iff, Option.map_eq_none_iff, Name.defect?_eq_none_iff]

theorem reservedName_eq_nil_iff :
    s.reservedName = [] ↔ (s.named.inProgram = true → Vocabulary.isReserved s.name = false) := by
  simp only [reservedName, ite_eq_right_iff, List.cons_ne_nil, imp_false, Bool.not_eq_true,
    Bool.and_eq_false_iff]
  cases s.named.inProgram <;> simp

theorem repeatedNames_eq_nil_iff :
    repeatedNames sites = [] ↔
      (sites.filterMap fun s => s.named.scope?.map (·, s.name)).Nodup := by
  have hkeys : (sites.filterMap scoped?).map (fun s => (s.2, s.1.name)) =
      sites.filterMap fun s => s.named.scope?.map (·, s.name) := by
    simp only [List.map_filterMap, scoped?, Option.map_map, Function.comp_def]
  rw [repeatedNames, List.map_eq_nil_iff, repeats_eq_nil_iff, hkeys]

/-- Nothing is wrong with names exactly when they keep the rules. -/
theorem faults_eq_nil_iff : faults sites = [] ↔ Lawful sites := by
  simp only [faults, List.append_eq_nil_iff, List.flatMap_eq_nil_iff, badName_eq_nil_iff,
    reservedName_eq_nil_iff, repeatedNames_eq_nil_iff]
  constructor
  · rintro ⟨⟨hnames, hreserved⟩, hdistinct⟩
    exact ⟨hnames, hreserved, hdistinct⟩
  · rintro ⟨hnames, hreserved, hdistinct⟩
    exact ⟨⟨hnames, hreserved⟩, hdistinct⟩

end NameSite

/-! ### Literals -/

theorem Numeral.isSome_word?_iff {s : String} :
    (word? s).isSome ↔ ∃ digits, (s.toList = digits ∨ s.toList = '+' :: digits) ∧
      isDigits digits = true ∧ valueFrom 0 digits < wordLimit := by
  rw [word?]
  cases hs : s.toList with
  | nil => simp [isDigits]
  | cons c rest =>
    by_cases hc : c = '+'
    · subst hc
      have hplus : isDigits ('+' :: rest) = false := by simp [isDigits]
      simp [hplus]
    · simp [hc]

theorem Scalar.takes_eq_true_iff {t : Scalar} {s : String} : t.takes s = true ↔ t.Admits s := by
  cases t with
  | boolean => simp [takes, Admits]
  | string =>
    simp only [takes, Admits, Limit.literalOctets, Bool.and_eq_true, decide_eq_true_eq,
      String.length_toList, List.all_eq_true, and_assoc, Char.le_def]
    refine and_congr_right fun _ => forall_congr' fun c => imp_congr_right fun _ => ?_
    have hlow : (0x20 ≤ c.toNat) ↔ ' '.val ≤ c.val := by
      rw [UInt32.le_iff_toNat_le]
      rfl
    have hhigh : (c.toNat < 0x7F) ↔ c.val ≤ '~'.val := by
      rw [UInt32.le_iff_toNat_le]
      exact Nat.lt_succ_iff
    rw [hlow, hhigh]
  | _ => exact Numeral.isSome_word?_iff

namespace Draft

open Json (Pointer)

/-- A pass over the elements of a list with their indices reports nothing exactly when there is
nothing to report of any element, provided that the index does not decide it. -/
theorem flatMap_zipIdx_eq_nil_iff {α β : Type} {xs : List α} {f : α × Nat → List β}
    {p : α → Prop} (h : ∀ x i, f (x, i) = [] ↔ p x) :
    xs.zipIdx.flatMap f = [] ↔ ∀ x ∈ xs, p x := by
  rw [List.flatMap_eq_nil_iff]
  constructor
  · intro hnil x hx
    obtain ⟨i, hi⟩ := List.mem_iff_getElem?.1 hx
    exact (h x i).1 (hnil _ (List.mem_zipIdx_iff_getElem?.2 hi))
  · rintro hp ⟨x, i⟩ hx
    exact (h x i).2 (hp x (List.mem_of_getElem? (List.mem_zipIdx_iff_getElem?.1 hx)))

/-! ### Methods -/

theorem tooLarge_eq_nil_iff {p : Pointer} {s : String} :
    tooLarge p s = [] ↔ Numeral.value s < Numeral.wordLimit := by
  simp [tooLarge]

theorem isCode_eq_true_iff {n : Nat} : isCode n = true ↔ 1 ≤ n ∧ n ≤ Numeral.signedMax := by
  simp [isCode, Nat.succ_le_iff]

theorem Method.faults_eq_nil_iff {m : Method} (i : Nat) :
    m.faults i = [] ↔ Numeral.value m.code < Numeral.wordLimit ∧
      (1 ≤ Numeral.value m.code ∧ Numeral.value m.code ≤ Numeral.signedMax) ∧
        m.arguments.length ≤ 3 := by
  rw [faults, List.append_eq_nil_iff, List.append_eq_nil_iff, tooLarge_eq_nil_iff,
    ← isCode_eq_true_iff, and_assoc]
  refine and_congr_right fun _ => and_congr ?_ ?_
  · simp
  · rw [ite_eq_left_iff, not_imp_comm]
    exact ⟨fun h => h (List.cons_ne_nil _ _), fun h _ => h⟩

/-- Codes out of range do not count as repeated; where all are in range, all count. -/
theorem repeatedCodes_eq_nil_iff {d : Draft}
    (h : ∀ m ∈ d.methods, isCode (Numeral.value m.code) = true) :
    d.repeatedCodes = [] ↔ (d.methods.map fun m => Numeral.value m.code).Nodup := by
  have hcodes : d.codes.map (·.1) = d.methods.map fun m => Numeral.value m.code := by
    have hall : ∀ x ∈ d.methods.zipIdx,
        ((if isCode (Numeral.value x.1.code) then some (Numeral.value x.1.code, x.2)
          else none).map (·.1)) = some (Numeral.value x.1.code) := by
      intro x hx
      rw [if_pos (h x.1 (List.fst_mem_of_mem_zipIdx hx)), Option.map_some]
    rw [codes, List.map_filterMap, List.filterMap_congr hall, List.filterMap_eq_map',
      ← List.zipIdx_map_fst 0 d.methods, List.map_map, List.zipIdx_map_fst]
    rfl
  rw [repeatedCodes, List.map_eq_nil_iff, repeats_eq_nil_iff, hcodes]

/-! ### Variables -/

theorem Variable.nestedStructs_eq_nil_iff {v : Variable} (hv : v.type = .struct) {p : Pointer} :
    (v.structFields.filterMap fun (f, j) =>
      if f.type = .struct then
        some (⟨((p.member "fields").item j).member "type", .nestedStruct⟩ : Fault)
      else none) = [] ↔ ∀ f ∈ v.fields.getD [], f.type ≠ .struct := by
  simp only [structFields, hv, List.filterMap_eq_nil_iff, ite_eq_right_iff, reduceCtorEq, imp_false]
  constructor
  · intro h f hf
    obtain ⟨j, hj⟩ := List.mem_iff_getElem?.1 hf
    exact h (f, j) (List.mem_zipIdx_iff_getElem?.2 hj)
  · intro h x hx
    exact h x.1 (List.fst_mem_of_mem_zipIdx hx)

theorem Variable.structFaults_eq_nil_iff {v : Variable} {p : Pointer} :
    v.structFaults p = [] ↔
      (v.type = .struct → v.fields.getD [] ≠ [] ∧ ∀ f ∈ v.fields.getD [], f.type ≠ .struct) ∧
        (v.type ≠ .struct → v.fields = none) := by
  rw [structFaults]
  split
  · rename_i hv
    rw [List.append_eq_nil_iff, nestedStructs_eq_nil_iff hv]
    simp [hv]
  · rename_i hv hf
    simp [hv, hf]
  · rename_i hv hf
    simp [hv, hf]

theorem Variable.literalFaults_eq_nil_iff {v : Variable} {p : Pointer} :
    v.literalFaults p = [] ↔ (v.constant = true → v.initializable = false →
      ∃ t s, v.type = .value ⟨t, false⟩ ∧ v.value = some s ∧ t.Admits s) := by
  rw [literalFaults]
  split
  · rename_i hset
    obtain ⟨hconstant, hinit⟩ : v.constant = true ∧ v.initializable = false := by
      simpa using hset
    simp only [hconstant, hinit, forall_const]
    split
    · rename_i hv
      simp [hv]
    · rename_i type hv
      obtain ⟨t, _ | _⟩ := type
      · cases hs : v.value <;> simp [hv, Scalar.takes_eq_true_iff]
      · simp [hv]
  · rename_i hset
    simp only [true_iff]
    intro hconstant hinit
    simp [hconstant, hinit] at hset

theorem Variable.faults_eq_nil_iff {v : Variable} (i : Nat) : v.faults i = [] ↔ v.Lawful := by
  rw [faults, List.append_eq_nil_iff, structFaults_eq_nil_iff, literalFaults_eq_nil_iff, and_assoc]
  constructor
  · rintro ⟨hfields, hnoFields, hliteral⟩
    exact ⟨hfields, hnoFields, hliteral⟩
  · rintro ⟨hfields, hnoFields, hliteral⟩
    exact ⟨hfields, hnoFields, hliteral⟩

/-! ### Maps -/

theorem Item.entryFaults_eq_nil_iff {i : Item} {p : Pointer} :
    i.entryFaults p = [] ↔
      (i.type = some .enumeration ∨ i.type = none ∧ i.entries ≠ none → i.entries.getD [] ≠ []) ∧
        ∀ t, i.type = some (.scalar t) → i.entries = none := by
  rw [entryFaults]
  rcases ht : i.type with _ | _ | _ <;> rcases he : i.entries with _ | _ | _ <;> simp

theorem Item.tooLargeEntries_eq_nil_iff {i : Item} {p : Pointer} :
    (i.listed.zipIdx.flatMap fun (e, k) =>
      tooLarge (((p.member "oneOf").item k).member "value") e.value) = [] ↔
        ∀ e ∈ i.listed, Numeral.value e.value < Numeral.wordLimit :=
  flatMap_zipIdx_eq_nil_iff fun _ _ => tooLarge_eq_nil_iff

theorem Item.faults_eq_nil_iff {i : Item} {p : Pointer} :
    i.faults p = [] ↔ i.Lawful ∧ ∀ s ∈ i.numerals, Numeral.value s < Numeral.wordLimit := by
  have hvalue : (i.value.map (tooLarge (p.member "value"))).getD [] = [] ↔
      ∀ s ∈ i.value.toList, Numeral.value s < Numeral.wordLimit := by
    cases i.value <;> simp [tooLarge_eq_nil_iff]
  have hconstant : (if (i.constant && i.value.isNone) = true then [⟨p, .noItemValue⟩] else []) =
      ([] : List Fault) ↔ (i.constant = true → i.value ≠ none) := by
    cases i.constant <;> cases i.value <;> simp
  rw [faults, List.append_eq_nil_iff, List.append_eq_nil_iff, List.append_eq_nil_iff,
    entryFaults_eq_nil_iff, tooLargeEntries_eq_nil_iff, hvalue, hconstant]
  simp only [Item.numerals, List.forall_mem_append, List.forall_mem_map]
  constructor
  · rintro ⟨⟨⟨⟨hentries, hnoEntries⟩, hlarge⟩, hvalues⟩, hset⟩
    exact ⟨⟨hentries, hnoEntries, hset⟩, hvalues, hlarge⟩
  · rintro ⟨⟨hentries, hnoEntries, hset⟩, hvalues, hlarge⟩
    exact ⟨⟨⟨⟨hentries, hnoEntries⟩, hlarge⟩, hvalues⟩, hset⟩

theorem KeyMap.faults_eq_nil_iff {m : KeyMap} (i : Nat) :
    m.faults i = [] ↔ ∀ part ∈ MapPart.all, (m.part part).Lawful ∧
      ∀ s ∈ (m.part part).numerals, Numeral.value s < Numeral.wordLimit := by
  rw [faults, List.flatMap_eq_nil_iff]
  exact forall₂_congr fun _ _ => Item.faults_eq_nil_iff

/-! ### Symbols -/

/-- What is made from the elements of a list with their indices and does not depend on these. -/
theorem filterMap_zipIdx_eq {α β γ : Type} (xs : List α) {f : α × Nat → Option β} {g : β → γ}
    {k : α → Option γ} (h : ∀ x i, (f (x, i)).map g = k x) :
    (xs.zipIdx.filterMap f).map g = xs.filterMap k := by
  rw [List.map_filterMap, filterMap_zipIdx_of_fst h]

theorem spelling_methods (d : Draft) :
    (d.methods.zipIdx.map fun (m, i) =>
      (⟨.method i, Name.upper m.name⟩ : ProgramSymbol)).map (·.spelling) =
        d.methods.map fun m => Name.upper m.name := by
  rw [List.map_map, ← List.zipIdx_map_fst 0 d.methods, List.map_map, List.zipIdx_map_fst]
  rfl

theorem spelling_structs (d : Draft) :
    (d.stateVariables.zipIdx.filterMap fun (v, i) =>
      if v.type = .struct then some (⟨.struct i, Name.upper v.name⟩ : ProgramSymbol)
      else none).map (·.spelling) =
        (d.stateVariables.filter (·.type = .struct)).map fun v => Name.upper v.name := by
  rw [← List.filterMap_eq_map' (f := fun v : Variable => Name.upper v.name), List.filterMap_filter]
  refine filterMap_zipIdx_eq _ fun v i => ?_
  by_cases hv : v.type = .struct <;> simp [hv]

theorem spelling_maps (d : Draft) :
    (d.maps.zipIdx.filterMap fun (m, i) =>
      if m.key1.value.isSome then
        some (⟨.map i, Name.mapConstant m.name m.key1.name⟩ : ProgramSymbol)
      else none).map (·.spelling) =
        d.maps.filterMap fun m => m.key1.value.map fun _ => Name.mapConstant m.name m.key1.name :=
  filterMap_zipIdx_eq _ fun m i => by cases hv : m.key1.value <;> simp [hv]

/-- The spellings of the symbols are those of the tags and of the constants, in some order. -/
theorem symbols_spelling_perm (d : Draft) :
    (d.symbols.map (·.spelling)).Perm (d.tags ++ d.constants) := by
  rw [symbols, List.map_append, List.map_append, List.map_cons, d.spelling_structs, d.spelling_maps,
    d.spelling_methods, tags, constants, List.cons_append, List.cons_append, List.cons_append,
    List.append_assoc]
  exact .cons _ (List.perm_append_comm_assoc _ _ _)

theorem repeatedSymbols_eq_nil_iff {d : Draft} :
    d.repeatedSymbols = [] ↔ (d.tags ++ d.constants).Nodup := by
  rw [repeatedSymbols, List.map_eq_nil_iff, repeats_eq_nil_iff, d.symbols_spelling_perm.nodup_iff]

/-- The constants are the spellings of the symbols that are constants. -/
theorem mem_constants_iff {d : Draft} {s : String} :
    s ∈ d.constants ↔ ∃ x ∈ d.symbols, x.origin.isConstant = true ∧ x.spelling = s := by
  simp only [constants, symbols, List.mem_append, List.mem_cons, List.mem_map, List.mem_filterMap,
    Option.map_eq_some_iff]
  constructor
  · rintro (⟨m, hm, rfl⟩ | ⟨m, hm, v, hv, rfl⟩)
    · obtain ⟨i, hi⟩ := List.mem_iff_getElem?.1 hm
      exact ⟨⟨.method i, _⟩, .inl (.inl (.inr ⟨(m, i), List.mem_zipIdx_iff_getElem?.2 hi, rfl⟩)),
        rfl, rfl⟩
    · obtain ⟨i, hi⟩ := List.mem_iff_getElem?.1 hm
      exact ⟨⟨.map i, _⟩, .inr ⟨(m, i), List.mem_zipIdx_iff_getElem?.2 hi, if_pos (by simp [hv])⟩,
        rfl, rfl⟩
  · rintro ⟨x, ((rfl | ⟨y, hy, rfl⟩) | ⟨y, hy, hx⟩) | ⟨y, hy, hx⟩, hconstant, rfl⟩
    · cases hconstant
    · exact .inl ⟨y.1, List.fst_mem_of_mem_zipIdx hy, rfl⟩
    · obtain ⟨-, ⟨⟩⟩ := Option.ite_none_right_eq_some.1 hx
      cases hconstant
    · obtain ⟨hvalue, ⟨⟩⟩ := Option.ite_none_right_eq_some.1 hx
      obtain ⟨v, hv⟩ := Option.isSome_iff_exists.1 hvalue
      exact .inr ⟨y.1, List.fst_mem_of_mem_zipIdx hy, v, hv, rfl⟩

/-- Where symbols differ in spelling, the first one of a spelling is the only one. -/
theorem shadowedName_eq_nil_iff {d : Draft} (h : (d.symbols.map (·.spelling)).Nodup)
    {s : NameSite} :
    shadowedName d.symbols s = [] ↔ (s.named.inProgram = true → s.name ∉ d.constants) := by
  rw [mem_constants_iff, shadowedName]
  split
  · rename_i x hx
    have hspelling : x.spelling = s.name := by simpa using List.find?_some hx
    have honly : ∀ y ∈ d.symbols, y.spelling = s.name → y = x := fun y hy hname =>
      List.inj_on_of_nodup_map h hy (List.mem_of_find?_eq_some hx) (hname.trans hspelling.symm)
    simp only [ite_eq_right_iff, List.cons_ne_nil, imp_false, Bool.and_eq_true, not_and]
    refine imp_congr_right fun _ => not_congr ⟨fun hc => ⟨x, List.mem_of_find?_eq_some hx, hc,
      hspelling⟩, ?_⟩
    rintro ⟨y, hy, hc, hname⟩
    rwa [← honly y hy hname]
  · rename_i hnone
    have hne : ∀ y ∈ d.symbols, y.spelling ≠ s.name := by simpa using hnone
    simp only [true_iff]
    rintro - ⟨y, hy, -, hname⟩
    exact hne y hy hname

/-! ### The whole draft -/

theorem severalLines_eq_nil_iff {d : Draft} :
    d.severalLines = [] ↔
      '\n' ∉ (d.description.getD "").toList ∧ '\r' ∉ (d.description.getD "").toList := by
  simp only [severalLines, ite_eq_right_iff, List.cons_ne_nil, imp_false, Bool.not_eq_true,
    List.any_eq_false, Bool.or_eq_true, decide_eq_true_eq, not_or]
  exact ⟨fun h => ⟨fun hn => (h _ hn).1 rfl, fun hr => (h _ hr).2 rfl⟩,
    fun h c hc => ⟨fun hn => h.1 (hn ▸ hc), fun hr => h.2 (hr ▸ hc)⟩⟩

theorem methodFaults_eq_nil_iff {d : Draft} :
    (d.methods.zipIdx.flatMap fun (m, i) => m.faults i) = [] ↔ ∀ m ∈ d.methods,
      Numeral.value m.code < Numeral.wordLimit ∧
        (1 ≤ Numeral.value m.code ∧ Numeral.value m.code ≤ Numeral.signedMax) ∧
          m.arguments.length ≤ 3 :=
  flatMap_zipIdx_eq_nil_iff fun _ i => Method.faults_eq_nil_iff i

theorem variableFaults_eq_nil_iff {d : Draft} :
    (d.stateVariables.zipIdx.flatMap fun (v, i) => v.faults i) = [] ↔
      ∀ v ∈ d.stateVariables, v.Lawful :=
  flatMap_zipIdx_eq_nil_iff fun _ i => Variable.faults_eq_nil_iff i

theorem mapFaults_eq_nil_iff {d : Draft} :
    (d.maps.zipIdx.flatMap fun (m, i) => m.faults i) = [] ↔
      ∀ m ∈ d.maps, ∀ part ∈ MapPart.all, (m.part part).Lawful ∧
        ∀ s ∈ (m.part part).numerals, Numeral.value s < Numeral.wordLimit :=
  flatMap_zipIdx_eq_nil_iff fun _ i => KeyMap.faults_eq_nil_iff i

/-- A draft has no faults exactly when it keeps the rules. -/
theorem faults_eq_nil_iff {d : Draft} : d.faults = [] ↔ d.Lawful := by
  have hspelling := d.symbols_spelling_perm.nodup_iff
  simp only [faults, List.append_eq_nil_iff, NameSite.faults_eq_nil_iff,
    repeatedSymbols_eq_nil_iff, severalLines_eq_nil_iff, tooLarge_eq_nil_iff,
    methodFaults_eq_nil_iff, variableFaults_eq_nil_iff, mapFaults_eq_nil_iff,
    List.flatMap_eq_nil_iff (f := shadowedName d.symbols)]
  constructor
  · rintro ⟨⟨⟨⟨⟨⟨⟨⟨hnames, hsymbols⟩, hshadow⟩, hline⟩, hamount⟩, hmethod⟩, hcode⟩, hvariable⟩, hmap⟩
    -- Only codes in range are compared, and here all are.
    have hisCode : ∀ m ∈ d.methods, isCode (Numeral.value m.code) = true := fun m hm =>
      isCode_eq_true_iff.2 (hmethod m hm).2.1
    refine
      { names := hnames
        symbols := hsymbols
        unshadowed := fun s hs => (shadowedName_eq_nil_iff (hspelling.2 hsymbols)).1 (hshadow s hs)
        numerals := ?_
        codes := fun m hm => (hmethod m hm).2.1
        distinctCodes := (repeatedCodes_eq_nil_iff hisCode).1 hcode
        arguments := fun m hm => (hmethod m hm).2.2
        stateVariables := hvariable
        items := ?_
        oneLine := hline }
    · simp only [numerals, mapItems, List.forall_mem_append, List.forall_mem_cons,
        List.forall_mem_map, List.forall_mem_flatMap]
      exact ⟨⟨hamount, fun m hm => (hmethod m hm).1⟩, fun m hm part hpart =>
        (hmap m hm part hpart).2⟩
    · simp only [mapItems, List.forall_mem_flatMap, List.forall_mem_map]
      exact fun m hm part hpart => (hmap m hm part hpart).1
  · intro h
    have hisCode : ∀ m ∈ d.methods, isCode (Numeral.value m.code) = true := fun m hm =>
      isCode_eq_true_iff.2 (h.codes m hm)
    have hnumerals := h.numerals
    have hitems := h.items
    simp only [numerals, mapItems, List.forall_mem_append, List.forall_mem_cons,
      List.forall_mem_map, List.forall_mem_flatMap] at hnumerals hitems
    exact ⟨⟨⟨⟨⟨⟨⟨⟨h.names, h.symbols⟩, fun s hs =>
      (shadowedName_eq_nil_iff (hspelling.2 h.symbols)).2 (h.unshadowed s hs)⟩, h.oneLine⟩,
      hnumerals.1.1⟩, fun m hm => ⟨hnumerals.1.2 m hm, h.codes m hm, h.arguments m hm⟩⟩,
      (repeatedCodes_eq_nil_iff hisCode).2 h.distinctCodes⟩, h.stateVariables⟩,
      fun m hm part hpart => ⟨hitems m hm part hpart, hnumerals.2 m hm part hpart⟩⟩

end Draft

end SmartContract
