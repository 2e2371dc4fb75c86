import SmartContract.Proofs.Description.Batch
import SmartContract.Proofs.Description.NameFaults

/-!
The causes of faults. Every fault that is reported lies at a part of the value, and where it is about
a name or a number, that part is a text which breaks the rule. A fault that cites another place lies
behind it, and the same stands in both.
-/

namespace SmartContract

open Json (Pointer IsDraft IsMethod IsVariable IsItem IsMap IsField IsEntry Has MayHave Lists IsForm)

/-- The value has a part where the pointer leads, also when it is followed as it is written. -/
def Json.HasPart (v : Json) (p : Pointer) : Prop :=
  ∃ w, Pointer.resolve? v p = some w ∧ Pointer.find? v p.text = some w

/-- The value has a text of digits where the pointer leads. -/
def Json.HasNumeral (v : Json) (p : Pointer) (s : String) : Prop :=
  Pointer.resolve? v p = some (.string s) ∧ Numeral.isDigits s.toList = true

/-- The fault lies at a part of the value, and that is wrong as its code and its message say. -/
structure Fault.IsReal (v : Json) (f : Fault) : Prop where
  part : v.HasPart f.pointer
  badName : f.complaint.code = "SCD-NAME-0001" →
    ∃ s, Pointer.resolve? v f.pointer = some (.string s) ∧ ¬ Name.IsName s
  reservedName : f.complaint.code = "SCD-NAME-0002" →
    ∃ s, Pointer.resolve? v f.pointer = some (.string s) ∧ Vocabulary.isReserved s = true
  repeatedName : f.complaint.code = "SCD-DUP-0001" →
    ∃ (n first : Named) (scope : Scope) (s : String), f.pointer = n.pointer ∧ first.Before n ∧
      n.scope? = some scope ∧ first.scope? = some scope ∧
      Pointer.resolve? v n.pointer = some (.string s) ∧
      Pointer.resolve? v first.pointer = some (.string s) ∧
      f.complaint.message =
        Complaint.repetition scope.noun (Text.quoted s) first.pointer.text
  repeatedCode : f.complaint.code = "SCD-DUP-0002" →
    ∃ (i j : Nat) (s t : String), f.pointer = Draft.codePointer i ∧ j < i ∧
      v.HasNumeral (Draft.codePointer i) s ∧ v.HasNumeral (Draft.codePointer j) t ∧
      Numeral.value s = Numeral.value t ∧
      f.complaint.message = Complaint.repetition "method code" (Numeral.text (Numeral.value s))
        (Draft.codePointer j).text
  number : f.complaint.code = "SCD-INT-0001" →
    ∃ s, v.HasNumeral f.pointer s ∧ (2 ^ 64 ≤ Numeral.value s ∨
      (∃ i, f.pointer = Draft.codePointer i) ∧
        ¬ (1 ≤ Numeral.value s ∧ Numeral.value s ≤ 2 ^ 63 - 1))

/-! ### Faults by their complaints -/

theorem Json.HasPart.of_resolve? {v w : Json} {p : Pointer} (h : Pointer.resolve? v p = some w) :
    v.HasPart p := ⟨w, h, Json.find?_text h⟩

namespace Fault.IsReal

variable {v : Json} {p : Pointer} {s : String}

/-- The codes of the faults that say more than that something is wrong with a part. -/
def judged : List String :=
  ["SCD-NAME-0001", "SCD-NAME-0002", "SCD-DUP-0001", "SCD-DUP-0002", "SCD-INT-0001"]

theorem of_part {f : Fault} (h : v.HasPart f.pointer)
    (hcode : judged.contains f.complaint.code = false) : f.IsReal v := by
  simp only [judged, ← Bool.not_eq_true, List.contains_iff_mem, List.mem_cons, List.not_mem_nil,
    or_false, not_or] at hcode
  obtain ⟨h₁, h₂, h₃, h₄, h₅⟩ := hcode
  exact ⟨h, (absurd · h₁), (absurd · h₂), (absurd · h₃), (absurd · h₄), (absurd · h₅)⟩

theorem of_badName {defect : Name.Defect} (h : Pointer.resolve? v p = some (.string s))
    (hs : ¬ Name.IsName s) : IsReal v ⟨p, .badName s defect⟩ := by
  refine ⟨.of_resolve? h, fun _ => ⟨s, h, hs⟩, ?_, ?_, ?_, ?_⟩ <;> simp [Complaint.code]

theorem of_reservedName (h : Pointer.resolve? v p = some (.string s))
    (hs : Vocabulary.isReserved s = true) : IsReal v ⟨p, .reservedName s⟩ := by
  refine ⟨.of_resolve? h, ?_, fun _ => ⟨s, h, hs⟩, ?_, ?_, ?_⟩ <;> simp [Complaint.code]

theorem of_repeatedName {n first : Named} {scope : Scope} (hbefore : first.Before n)
    (hn : n.scope? = some scope) (hfirst : first.scope? = some scope)
    (hns : Pointer.resolve? v n.pointer = some (.string s))
    (hfirsts : Pointer.resolve? v first.pointer = some (.string s)) :
    IsReal v ⟨n.pointer, .repeatedName scope s first.pointer⟩ := by
  refine ⟨.of_resolve? hns, ?_, ?_, fun _ => ?_, ?_, ?_⟩
  case refine_3 => exact ⟨n, first, scope, s, rfl, hbefore, hn, hfirst, hns, hfirsts, rfl⟩
  all_goals simp [Complaint.code]

theorem of_repeatedCode {i j : Nat} {t : String} (hji : j < i)
    (hi : v.HasNumeral (Draft.codePointer i) s) (hj : v.HasNumeral (Draft.codePointer j) t)
    (heq : Numeral.value s = Numeral.value t) :
    IsReal v ⟨Draft.codePointer i, .repeatedCode (Numeral.value s) (Draft.codePointer j)⟩ := by
  refine ⟨.of_resolve? hi.1, ?_, ?_, ?_, fun _ => ?_, ?_⟩
  case refine_4 => exact ⟨i, j, s, t, rfl, hji, hi, hj, heq, rfl⟩
  all_goals simp [Complaint.code]

theorem of_tooLarge (h : v.HasNumeral p s) (hs : ¬ Numeral.value s < Numeral.wordLimit) :
    IsReal v ⟨p, .tooLarge s⟩ := by
  refine ⟨.of_resolve? h.1, ?_, ?_, ?_, ?_, fun _ => ⟨s, h, .inl (Nat.le_of_not_lt hs)⟩⟩ <;>
    simp [Complaint.code]

theorem of_codeOutOfRange {i : Nat} (h : v.HasNumeral (Draft.codePointer i) s)
    (hs : Draft.isCode (Numeral.value s) = false) :
    IsReal v ⟨Draft.codePointer i, .codeOutOfRange⟩ := by
  have hrange : ¬ (1 ≤ Numeral.value s ∧ Numeral.value s ≤ 2 ^ 63 - 1) := fun ⟨hlow, hhigh⟩ => by
    rw [Draft.isCode, Bool.and_eq_false_iff, decide_eq_false_iff_not, decide_eq_false_iff_not] at hs
    exact hs.elim (absurd hlow) (absurd hhigh)
  refine ⟨.of_resolve? h.1, ?_, ?_, ?_, ?_, fun _ => ⟨s, h, .inr ⟨⟨i, rfl⟩, hrange⟩⟩⟩ <;>
    simp [Complaint.code]

end Fault.IsReal

theorem NameFault.isReal {v : Json} {names : Named → String → Prop} {f : Fault}
    (hnames : ∀ n s, names n s → v.Names n s) (h : NameFault names f) : f.IsReal v := by
  cases h with
  | bad h hs => exact .of_badName (hnames _ _ h).1 hs
  | reserved h _ hs => exact .of_reservedName (hnames _ _ h).1 hs
  | repeated h hscope hfirst hbefore =>
    exact .of_repeatedName hbefore hscope hfirst.2.1 (hnames _ _ h).1 (hnames _ _ hfirst.1).1

/-! ### Parts of a value that spells a draft -/

namespace Json

variable {α : Type} {R : Json → α → Prop} {v w : Json} {p : Pointer} {key : String}

theorem Has.resolve? {x : α} (h : w.Has key R x) (hw : Pointer.resolve? v p = some w) :
    ∃ u, Pointer.resolve? v (p.member key) = some u ∧ R u x := by
  obtain ⟨u, hu, hx⟩ := h
  exact ⟨u, (Pointer.resolve?_member hw key).trans hu, hx⟩

theorem Has.resolve?_item {xs : List α} {x : α} {i : Nat} (h : w.Has key (Lists R) xs)
    (hw : Pointer.resolve? v p = some w) (hx : xs[i]? = some x) :
    ∃ u, Pointer.resolve? v ((p.member key).item i) = some u ∧ R u x := by
  obtain ⟨_, hu, ws, rfl, hws⟩ := Has.resolve? h hw
  obtain ⟨u, hi, hR⟩ := getElem?_of_forall₂ hws hx
  exact ⟨u, (Pointer.resolve?_item hu i).trans hi, hR⟩

theorem MayHave.resolve?_item {o : Option (List α)} {x : α} {i : Nat}
    (h : w.MayHave key (Lists R) o) (hw : Pointer.resolve? v p = some w)
    (hx : (o.getD [])[i]? = some x) :
    ∃ u, Pointer.resolve? v ((p.member key).item i) = some u ∧ R u x := by
  cases o with
  | none => cases hx
  | some xs => exact Has.resolve?_item h hw hx

theorem Has.hasNumeral {s : String} (h : w.Has key (IsForm .digits) s)
    (hw : Pointer.resolve? v p = some w) : v.HasNumeral (p.member key) s := by
  obtain ⟨_, hu, rfl, hs⟩ := Has.resolve? h hw
  exact ⟨hu, hs⟩

theorem Has.hasPart {x : α} (h : w.Has key R x) (hw : Pointer.resolve? v p = some w) :
    v.HasPart (p.member key) :=
  let ⟨_, hu, _⟩ := Has.resolve? h hw
  .of_resolve? hu

/-! ### The faults of a draft -/

section Draft

variable {d : Draft} {f : Fault} {i : Nat}

theorem isReal_of_mem_tooLarge {s : String} (h : v.HasNumeral p s)
    (hf : f ∈ Draft.tooLarge p s) : f.IsReal v := by
  rw [Draft.tooLarge, List.mem_ite_nil_left, List.mem_singleton] at hf
  obtain ⟨hs, rfl⟩ := hf
  exact .of_tooLarge h hs

theorem isReal_of_mem_methodFaults {m : Draft.Method}
    (hw : Pointer.resolve? v (Named.method i).holder = some w) (h : IsMethod w m)
    (hf : f ∈ m.faults i) : f.IsReal v := by
  have hcode : v.HasNumeral (Draft.codePointer i) m.code := h.code.hasNumeral hw
  simp only [Draft.Method.faults, List.mem_append, List.mem_ite_nil_left, List.mem_singleton] at hf
  rcases hf with (hf | ⟨hrange, rfl⟩) | ⟨-, rfl⟩
  · exact isReal_of_mem_tooLarge hcode hf
  · exact .of_codeOutOfRange hcode (Bool.eq_false_iff.2 hrange)
  · exact .of_part (h.arguments.hasPart hw) rfl

theorem mem_codes_iff {c : Nat} : (c, i) ∈ d.codes ↔
    ∃ m, d.methods[i]? = some m ∧ Draft.isCode c = true ∧ Numeral.value m.code = c := by
  simp only [Draft.codes, List.mem_filterMap, Prod.exists, List.mem_zipIdx_iff_getElem?,
    Option.ite_none_right_eq_some, Option.some.injEq, Prod.mk.injEq]
  constructor
  · rintro ⟨m, _, hm, hcode, rfl, rfl⟩
    exact ⟨m, hm, hcode, rfl⟩
  · rintro ⟨m, hm, hcode, rfl⟩
    exact ⟨m, i, hm, hcode, rfl, rfl⟩

theorem pairwise_codes (d : Draft) : d.codes.Pairwise fun c e => c.2 < e.2 := by
  refine (pairwise_zipIdx d.methods).filterMap _ fun x y hxy c hc e he => ?_
  obtain ⟨-, ⟨⟩⟩ := Option.ite_none_right_eq_some.1 hc
  obtain ⟨-, ⟨⟩⟩ := Option.ite_none_right_eq_some.1 he
  exact hxy

theorem hasNumeral_codePointer (h : IsDraft v d) {m : Draft.Method} (hm : d.methods[i]? = some m) :
    v.HasNumeral (Draft.codePointer i) m.code := by
  obtain ⟨w, hw, hspells⟩ := h.methods.resolve?_item (p := []) rfl hm
  exact hspells.code.hasNumeral hw

/-- The method whose code another repeats stands before that. -/
theorem isReal_of_mem_repeatedCodes (h : IsDraft v d) (hf : f ∈ d.repeatedCodes) :
    f.IsReal v := by
  obtain ⟨⟨⟨c, i⟩, e, j⟩, hmem, rfl⟩ := List.mem_map.1 hf
  rw [mem_repeats_iff_of_pairwise (fun _ _ => Nat.lt_asymm) (pairwise_codes d)] at hmem
  obtain ⟨hi, hj, hji, rfl, -⟩ := hmem
  obtain ⟨m, hm, -, rfl⟩ := mem_codes_iff.1 hi
  obtain ⟨n, hn, -, heq⟩ := mem_codes_iff.1 hj
  exact .of_repeatedCode hji (hasNumeral_codePointer h hm) (hasNumeral_codePointer h hn) heq.symm

theorem isReal_of_mem_structFaults {x : Draft.Variable} (hw : Pointer.resolve? v p = some w)
    (h : IsVariable w x) (hf : f ∈ x.structFaults p) : f.IsReal v := by
  rw [Draft.Variable.structFaults] at hf
  split at hf
  · rename_i htype
    simp only [List.mem_append, List.mem_ite_nil_right, List.mem_singleton, List.mem_filterMap,
      Prod.exists, Option.ite_none_right_eq_some, Option.some.injEq] at hf
    rcases hf with ⟨-, rfl⟩ | ⟨g, j, hg, -, rfl⟩
    · exact .of_part (.of_resolve? hw) rfl
    · rw [Draft.Variable.structFields, htype] at hg
      obtain ⟨u, hu, hfield⟩ := h.fields.resolve?_item hw (List.mem_zipIdx_iff_getElem?.1 hg)
      exact .of_part (hfield.type.hasPart hu) rfl
  · rename_i hfields
    rw [List.mem_singleton.1 hf]
    have hthere := hfields ▸ h.fields
    exact .of_part (Has.hasPart hthere hw) rfl
  · cases hf

theorem isReal_of_mem_literalFaults {x : Draft.Variable} (hw : Pointer.resolve? v p = some w)
    (h : IsVariable w x) (hf : f ∈ x.literalFaults p) : f.IsReal v := by
  rw [Draft.Variable.literalFaults] at hf
  split at hf
  · split at hf
    · rw [List.mem_singleton.1 hf]
      exact .of_part (.of_resolve? hw) rfl
    · split at hf
      · rw [List.mem_singleton.1 hf]
        exact .of_part (.of_resolve? hw) rfl
      · split at hf
        · rw [List.mem_singleton.1 hf]
          exact .of_part (.of_resolve? hw) rfl
        · rename_i hvalue
          have hthere := hvalue ▸ h.value
          rw [List.mem_ite_nil_left, List.mem_singleton] at hf
          rw [hf.2]
          exact .of_part (Has.hasPart hthere hw) rfl
  · cases hf

theorem isReal_of_mem_entryFaults {item : Draft.Item} (hw : Pointer.resolve? v p = some w)
    (h : IsItem w item) (hf : f ∈ item.entryFaults p) : f.IsReal v := by
  rw [Draft.Item.entryFaults] at hf
  split at hf
  · rename_i hentries
    have hthere := hentries ▸ h.entries
    rw [List.mem_singleton.1 hf]
    exact .of_part (Has.hasPart hthere hw) rfl
  · cases hf
  · cases hf
  · rw [List.mem_ite_nil_right, List.mem_singleton] at hf
    rw [hf.2]
    exact .of_part (.of_resolve? hw) rfl

theorem listed_getElem? {item : Draft.Item} {e : Draft.Entry} {k : Nat}
    (he : item.listed[k]? = some e) : (item.entries.getD [])[k]? = some e := by
  rw [Draft.Item.listed] at he
  split at he
  · cases he
  · exact he

theorem isReal_of_mem_itemFaults {item : Draft.Item} (hw : Pointer.resolve? v p = some w)
    (h : IsItem w item) (hf : f ∈ item.faults p) : f.IsReal v := by
  simp only [Draft.Item.faults, List.mem_append, List.mem_flatMap, Prod.exists,
    List.mem_zipIdx_iff_getElem?, List.mem_ite_nil_right, List.mem_singleton] at hf
  rcases hf with ((hf | ⟨e, k, he, hf⟩) | hf) | ⟨-, rfl⟩
  · exact isReal_of_mem_entryFaults hw h hf
  · have hentries := mayHave_imp h.entries fun _ _ hes => hes.1
    obtain ⟨u, hu, hentry⟩ := hentries.resolve?_item hw (listed_getElem? he)
    exact isReal_of_mem_tooLarge (hentry.value.hasNumeral hu) hf
  · cases hvalue : item.value with
    | none =>
      rw [hvalue] at hf
      cases hf
    | some s =>
      have hthere := hvalue ▸ h.value
      rw [hvalue] at hf
      exact isReal_of_mem_tooLarge (Has.hasNumeral hthere hw) hf
  · exact .of_part (.of_resolve? hw) rfl

theorem names_of_mem_nameSites (h : IsDraft v d) {n : Named} {s : String}
    (hs : ⟨n, s⟩ ∈ d.nameSites) : v.Names n s := by
  rw [← filter_isPlaced_nameSites h] at hs
  exact mem_nameSites_iff.1 (List.mem_filter.1 hs).1

theorem pairwise_draftNameSites (h : IsDraft v d) :
    d.nameSites.Pairwise fun s t => s.named.Before t.named := by
  rw [← filter_isPlaced_nameSites h]
  exact v.pairwise_nameSites.filter _

theorem hasPart_of_mem_symbols (h : IsDraft v d) {x : ProgramSymbol} (hx : x ∈ d.symbols) :
    v.HasPart (x.origin.pointer?.getD []) := by
  simp only [Draft.symbols, List.mem_append, List.mem_cons, List.mem_map, List.mem_filterMap,
    Prod.exists, List.mem_zipIdx_iff_getElem?, Option.ite_none_right_eq_some,
    Option.some.injEq] at hx
  rcases hx with ((rfl | ⟨m, i, hm, rfl⟩) | ⟨y, i, hy, -, rfl⟩) | ⟨m, i, hm, -, rfl⟩
  · exact .of_resolve? (p := []) rfl
  · obtain ⟨w, hw, hspells⟩ := h.methods.resolve?_item (p := []) rfl hm
    exact hspells.name.hasPart hw
  · obtain ⟨w, hw, hspells⟩ := h.stateVariables.resolve?_item (p := []) rfl hy
    exact hspells.name.hasPart hw
  · obtain ⟨w, hw, hspells⟩ := h.maps.resolve?_item (p := []) rfl hm
    obtain ⟨u, hu, hitem⟩ := hspells.key1.resolve? hw
    exact hitem.name.hasPart hu

theorem isReal_of_mem_repeatedSymbols (h : IsDraft v d) (hf : f ∈ d.repeatedSymbols) :
    f.IsReal v := by
  obtain ⟨⟨x, y⟩, hmem, rfl⟩ := List.mem_map.1 hf
  obtain ⟨i, _, -, hx, -⟩ := mem_repeats_iff.1 hmem
  exact .of_part (hasPart_of_mem_symbols h (List.mem_of_getElem? hx)) rfl

theorem isReal_of_mem_shadowedName (h : IsDraft v d) {s : NameSite} (hs : s ∈ d.nameSites)
    (hf : f ∈ Draft.shadowedName d.symbols s) : f.IsReal v := by
  rw [Draft.shadowedName] at hf
  split at hf
  · rw [List.mem_ite_nil_right, List.mem_singleton] at hf
    rw [hf.2]
    exact .of_part (.of_resolve? (names_of_mem_nameSites h hs).1) rfl
  · cases hf

theorem isReal_of_mem_severalLines (h : IsDraft v d) (hf : f ∈ d.severalLines) : f.IsReal v := by
  rw [Draft.severalLines, List.mem_ite_nil_right, List.mem_singleton] at hf
  obtain ⟨hlines, rfl⟩ := hf
  cases hremark : d.description with
  | none =>
    rw [hremark] at hlines
    cases hlines
  | some s =>
    have hthere := hremark ▸ h.description
    exact .of_part (Has.hasPart (p := []) hthere rfl) rfl

/-- Everything that is wrong with the draft that a value spells is wrong with a part of the value. -/
theorem isReal_of_mem_faults (h : IsDraft v d) (hf : f ∈ d.faults) : f.IsReal v := by
  simp only [Draft.faults, List.mem_append, List.mem_flatMap, Prod.exists,
    List.mem_zipIdx_iff_getElem?] at hf
  rcases hf with (((((((hf | hf) | ⟨s, hs, hf⟩) | hf) | hf) | ⟨m, i, hm, hf⟩) | hf) |
    ⟨x, i, hx, hf⟩) | ⟨m, i, hm, hf⟩
  · exact ((NameSite.mem_faults_iff (pairwise_draftNameSites h)).1 hf).isReal fun _ _ =>
      names_of_mem_nameSites h
  · exact isReal_of_mem_repeatedSymbols h hf
  · exact isReal_of_mem_shadowedName h hs hf
  · exact isReal_of_mem_severalLines h hf
  · exact isReal_of_mem_tooLarge (h.activationAmount.hasNumeral (p := []) rfl) hf
  · obtain ⟨w, hw, hspells⟩ := h.methods.resolve?_item (p := []) rfl hm
    exact isReal_of_mem_methodFaults hw hspells hf
  · exact isReal_of_mem_repeatedCodes h hf
  · obtain ⟨w, hw, hspells⟩ := h.stateVariables.resolve?_item (p := []) rfl hx
    rcases List.mem_append.1 hf with hf | hf
    · exact isReal_of_mem_structFaults hw hspells hf
    · exact isReal_of_mem_literalFaults hw hspells hf
  · obtain ⟨w, hw, hspells⟩ := h.maps.resolve?_item (p := []) rfl hm
    obtain ⟨part, -, hf⟩ := List.mem_flatMap.1 hf
    obtain ⟨u, hu, hitem⟩ := (has_part hspells part).resolve? hw
    exact isReal_of_mem_itemFaults hu hitem hf

/-- What keeps a value from having the form lies at a part of it. -/
theorem isReal_of_mem_formFaults (hf : f ∈ Description.formFaults v) : f.IsReal v := by
  obtain ⟨x, hx, rfl⟩ := List.mem_map.1 hf
  obtain ⟨part, hpart⟩ := Shape.exists_resolve?_of_mem_violations rfl hx
  exact .of_part (.of_resolve? hpart) rfl

end Draft

end Json

/-- Whatever is reported of a value that is refused is wrong with one of its parts, and is reported in
the order of faults; and something is reported. -/
theorem refused_for_cause (v : Json) (batch : List Fault) (h : Description.ofJson v = .error batch) :
    batch ≠ [] ∧ batch.Pairwise Fault.Precedes ∧ ∀ f ∈ batch, f.IsReal v := by
  rcases Description.ofJson_eq_error_iff.1 h with ⟨d, hd, hne, rfl⟩ | ⟨hne, rfl⟩
  · exact ⟨Fault.sort_ne_nil hne, Fault.pairwise_sort _, fun f hf =>
      Json.isReal_of_mem_faults hd (Fault.mem_sort.1 hf)⟩
  · refine ⟨Fault.sort_ne_nil (List.append_ne_nil_of_left_ne_nil hne _), Fault.pairwise_sort _, ?_⟩
    intro f hf
    rcases List.mem_append.1 (Fault.mem_sort.1 hf) with hf | hf
    · exact Json.isReal_of_mem_formFaults hf
    · exact (Json.mem_nameFaults_iff.1 hf).isReal fun _ _ hs => hs

/-- A method without arguments. -/
def Json.ofMethod (name code : String) : Json :=
  .object [("args", .array []), ("code", .string code), ("name", .string name)]

/-- A value with methods that have the same code. -/
def Json.clashing : Json := ofParts "0" [ofMethod "pay" "1", ofMethod "withdraw" "01"] []

theorem refused_for_cause_clashing :
    ∃ batch, Description.ofJson Json.clashing = .error batch ∧
      (batch.map fun f => (f.pointer.text, f.complaint.message)) =
        [("/methods/1/code", "duplicate method code 1 (first declared at /methods/0/code)")] ∧
      batch ≠ [] ∧ batch.Pairwise Fault.Precedes ∧ ∀ f ∈ batch, f.IsReal Json.clashing := by
  have hlist : (Description.batch Json.clashing).map
      (fun f => (f.pointer.text, f.complaint.message)) =
        [("/methods/1/code", "duplicate method code 1 (first declared at /methods/0/code)")] := by
    decide +kernel
  rw [Description.batch] at hlist
  split at hlist
  · cases hlist
  · rename_i batch hbatch
    exact ⟨batch, hbatch, hlist, refused_for_cause _ _ hbatch⟩

end SmartContract
