import SmartContract.Proofs.Description.Acceptance
import SmartContract.Proofs.Description.Placed
import SmartContract.Proofs.Report.Order

/-!
What is reported of a value that has the form of a description. Names and numbers that stand where
they belong are all reported where they break a rule, whatever else is wrong. Those that stand where
nothing belongs are not looked at, and a constant does not count whose spelling an earlier symbol
has.
-/

namespace SmartContract

/-! ### Reports -/

/-- What is wrong with a value: nothing if it is accepted. -/
def Description.batch (v : Json) : List Fault :=
  match ofJson v with
  | .ok _ => []
  | .error faults => faults

namespace Json

/-- A fault with the code is reported at the place. -/
def Reports (v : Json) (code : String) (p : Pointer) : Prop :=
  ∃ f ∈ Description.batch v, f.pointer = p ∧ f.complaint.code = code

instance (v : Json) (code : String) (p : Pointer) : Decidable (v.Reports code p) :=
  inferInstanceAs (Decidable (∃ f ∈ Description.batch v, _))

/-- Whatever is wrong with the names and the numbers by themselves, with names of one scope, and
with names that are spelled like one of the constants is reported where it is wrong. -/
structure Covers (v : Json) (names : List NameSite) (numerals : List NumeralSite)
    (constants : List String) : Prop where
  isName : ∀ s ∈ names, ¬ Name.IsName s.name → v.Reports "SCD-NAME-0001" s.named.pointer
  unreserved : ∀ s ∈ names, s.named.inProgram = true → Vocabulary.isReserved s.name = true →
    v.Reports "SCD-NAME-0002" s.named.pointer
  distinct : ∀ t s : NameSite, [t, s].Sublist names → s.named.scope? ≠ none →
    t.named.scope? = s.named.scope? → t.name = s.name → v.Reports "SCD-DUP-0001" s.named.pointer
  numerals : ∀ n ∈ numerals, ¬ Numeral.value n.numeral < Numeral.wordLimit →
    v.Reports "SCD-INT-0001" n.pointer
  unshadowed : ∀ s ∈ names, s.named.inProgram = true → s.name ∈ constants →
    v.Reports "SCD-DUP-0003" s.named.pointer

/-- Is the first symbol of the spelling a constant, if one is? The constants of methods come before
the tags of structs, except for the tag of the skeleton, and those of maps come after them. -/
def isFirst (v : Json) (constant : String) : Bool :=
  constant ∉ v.tags || constant ≠ Vocabulary.transactionTag &&
    constant ∈ (v.itemsOf "methods").map fun m => Name.upper (m.textOf "name")

end Json

/-! ### Names -/

namespace NameSite

variable {s t : NameSite} {sites : List NameSite}

theorem exists_mem_badName (h : ¬ Name.IsName s.name) :
    ∃ defect, ⟨s.named.pointer, .badName s.name defect⟩ ∈ s.badName := by
  rw [← Name.defect?_eq_none_iff, ← ne_eq, Option.ne_none_iff_exists'] at h
  obtain ⟨defect, hdefect⟩ := h
  exact ⟨defect, by simp [badName, hdefect]⟩

theorem mem_reservedName (h : s.named.inProgram = true) (hs : Vocabulary.isReserved s.name = true) :
    ⟨s.named.pointer, .reservedName s.name⟩ ∈ s.reservedName := by
  simp [reservedName, h, hs]

/-- A name that stands after another of its scope is reported to repeat one. -/
theorem exists_mem_repeatedNames (h : [t, s].Sublist sites) {scope : Scope}
    (ht : t.named.scope? = some scope) (hs : s.named.scope? = some scope)
    (hname : t.name = s.name) :
    ∃ first, ⟨s.named.pointer, .repeatedName scope s.name first⟩ ∈ repeatedNames sites := by
  have hscoped := h.filterMap scoped?
  simp only [List.filterMap_cons, scoped?, ht, hs, Option.map_some, List.filterMap_nil] at hscoped
  obtain ⟨before, after, hsplit, hmem, hrest⟩ := List.cons_sublist_iff.1 hscoped
  obtain ⟨j, hj⟩ := List.mem_iff_getElem?.1 hmem
  obtain ⟨i, hi⟩ := List.mem_iff_getElem?.1 (List.singleton_sublist.1 hrest)
  have hlt : j < before.length := (List.getElem?_eq_some_iff.1 hj).1
  have hx : (sites.filterMap scoped?)[before.length + i]? = some (s, scope) := by
    rw [hsplit, List.getElem?_append_right (by omega), Nat.add_sub_cancel_left, hi]
  have hy : (sites.filterMap scoped?)[j]? = some (t, scope) := by
    rw [hsplit, List.getElem?_append_left hlt, hj]
  obtain ⟨first, hfirst⟩ : ∃ first, ((s, scope), first) ∈
      repeats (fun s : NameSite × Scope => (s.2, s.1.name)) (sites.filterMap scoped?) :=
    exists_mem_repeats (by omega) hx hy (by simp [hname])
  exact ⟨first.1.named.pointer, List.mem_map_of_mem hfirst⟩

end NameSite

namespace Draft

variable {d : Draft}

/-! ### Numbers -/

theorem mem_tooLarge {p : Json.Pointer} {s : String} (h : ¬ Numeral.value s < Numeral.wordLimit) :
    ⟨p, .tooLarge s⟩ ∈ tooLarge p s := by
  simp [tooLarge, h]

theorem Item.tooLarge_subset_faults {item : Item} {i : Nat} {part : MapPart} {n : NumeralSite}
    (h : n ∈ item.numeralSites i part) :
    tooLarge n.pointer n.numeral ⊆ item.faults (Named.item i part).holder := by
  intro f hf
  simp only [faults, List.mem_append, List.mem_flatMap]
  rcases List.mem_append.1 h with hvalue | hentry
  · refine .inl (.inr ?_)
    obtain ⟨s, hs, rfl⟩ := Option.map_eq_some_iff.1 (Option.mem_toList.1 hvalue)
    rw [hs]
    exact hf
  · refine .inl (.inl (.inr ?_))
    obtain ⟨⟨e, k⟩, he, rfl⟩ := List.mem_map.1 hentry
    exact ⟨(e, k), he, hf⟩

/-- Every number of a draft is looked at. -/
theorem tooLarge_subset_faults {n : NumeralSite} (h : n ∈ d.numeralSites) :
    tooLarge n.pointer n.numeral ⊆ d.faults := by
  intro f hf
  simp only [faults, List.mem_append, List.mem_flatMap]
  rcases List.mem_append.1 h with h | hmap
  · rcases List.mem_cons.1 h with rfl | hmethod
    · exact .inl (.inl (.inl (.inl (.inr hf))))
    · obtain ⟨⟨m, i⟩, hm, rfl⟩ := List.mem_map.1 hmethod
      have hcode : f ∈ m.faults i := List.mem_append_left _ (List.mem_append_left _ hf)
      exact .inl (.inl (.inl (.inr ⟨(m, i), hm, hcode⟩)))
  · obtain ⟨⟨m, i⟩, hm, hitem⟩ := List.mem_flatMap.1 hmap
    obtain ⟨part, hpart, hn⟩ := List.mem_flatMap.1 hitem
    exact .inr ⟨(m, i), hm, List.mem_flatMap.2 ⟨part, hpart, Item.tooLarge_subset_faults hn hf⟩⟩

/-! ### Constants -/

/-- A symbol that is no constant is a tag. -/
theorem spelling_mem_tags {x : ProgramSymbol} (h : x ∈ d.symbols)
    (hx : x.origin.isConstant = false) : x.spelling ∈ d.tags := by
  simp only [symbols, List.mem_append, List.mem_cons, List.mem_map, List.mem_filterMap] at h
  rcases h with ((rfl | ⟨y, -, rfl⟩) | ⟨y, hy, hsome⟩) | ⟨y, -, hsome⟩
  · exact List.mem_cons_self
  · cases hx
  · obtain ⟨htype, ⟨⟩⟩ := Option.ite_none_right_eq_some.1 hsome
    have hstruct : y.1 ∈ d.stateVariables.filter (·.type = .struct) :=
      List.mem_filter.2 ⟨List.fst_mem_of_mem_zipIdx hy, by simpa using htype⟩
    exact List.mem_cons_of_mem _ (List.mem_map.2 ⟨y.1, hstruct, rfl⟩)
  · obtain ⟨-, ⟨⟩⟩ := Option.ite_none_right_eq_some.1 hsome
    cases hx

/-- Where no tag has the spelling of a constant, the first symbol of the spelling is a constant. -/
theorem find?_symbols_of_not_mem_tags {c : String} (h : c ∈ d.constants) (htags : c ∉ d.tags) :
    ∃ x, d.symbols.find? (·.spelling == c) = some x ∧ x.origin.isConstant = true := by
  obtain ⟨y, hy, -, hname⟩ := mem_constants_iff.1 h
  have hsome : (d.symbols.find? (·.spelling == c)).isSome := by
    rw [List.find?_isSome]
    exact ⟨y, hy, by simp [hname]⟩
  obtain ⟨x, hx⟩ := Option.isSome_iff_exists.1 hsome
  refine ⟨x, hx, ?_⟩
  have hspelling : x.spelling = c := by simpa using List.find?_some hx
  rw [← Bool.not_eq_false]
  intro hconstant
  exact htags (hspelling ▸ spelling_mem_tags (List.mem_of_find?_eq_some hx) hconstant)

theorem isSome_find?_methods {c : String} (h : c ∈ d.methods.map fun m => Name.upper m.name) :
    ((d.methods.zipIdx.map fun (m, i) =>
      (⟨.method i, Name.upper m.name⟩ : ProgramSymbol)).find? (·.spelling == c)).isSome := by
  obtain ⟨m, hm, hc⟩ := List.mem_map.1 h
  obtain ⟨i, hi⟩ := List.mem_iff_getElem?.1 hm
  rw [List.find?_isSome]
  exact ⟨_, List.mem_map.2 ⟨(m, i), List.mem_zipIdx_iff_getElem?.2 hi, rfl⟩, by simp [hc]⟩

/-- The constants of methods come first, except for the tag of the skeleton. -/
theorem find?_symbols_of_mem_methods {c : String} (htag : c ≠ Vocabulary.transactionTag)
    (h : c ∈ d.methods.map fun m => Name.upper m.name) :
    ∃ x, d.symbols.find? (·.spelling == c) = some x ∧ x.origin.isConstant = true := by
  obtain ⟨x, hx⟩ := Option.isSome_iff_exists.1 (isSome_find?_methods h)
  refine ⟨x, ?_, ?_⟩
  · rw [symbols, List.find?_append, List.find?_append,
      List.find?_cons_of_neg (by simpa using htag.symm), hx]
    rfl
  · obtain ⟨y, -, rfl⟩ := List.mem_map.1 (List.mem_of_find?_eq_some hx)
    rfl

/-- A name that is spelled like the first symbol of its spelling is reported, if that is a
constant. -/
theorem mem_shadowedName {s : NameSite} (h : s.named.inProgram = true) {x : ProgramSymbol}
    (hx : d.symbols.find? (·.spelling == s.name) = some x)
    (hconstant : x.origin.isConstant = true) :
    ⟨s.named.pointer, .shadowedName s.name x.origin⟩ ∈ shadowedName d.symbols s := by
  simp [shadowedName, hx, h, hconstant]

theorem shadowedNames_subset_faults : d.nameSites.flatMap (shadowedName d.symbols) ⊆ d.faults := by
  intro f hf
  simp only [faults, List.mem_append]
  exact .inl (.inl (.inl (.inl (.inl (.inl (.inr hf))))))

end Draft

/-! ### The whole value -/

namespace Json

variable {v : Json} {d : Draft}

/-- What is wrong with a value that spells a draft is what is wrong with the draft. -/
theorem mem_batch_iff_of_isDraft (h : IsDraft v d) {f : Fault} :
    f ∈ Description.batch v ↔ f ∈ d.faults := by
  rw [Description.batch, Description.ofJson_eq_of_isDraft h]
  cases hfaults : d.faults with
  | nil => rfl
  | cons g rest => exact Fault.mem_sort

theorem reports_of_mem_faults (h : IsDraft v d) {f : Fault} (hf : f ∈ d.faults) :
    v.Reports f.complaint.code f.pointer :=
  ⟨f, (mem_batch_iff_of_isDraft h).2 hf, rfl, rfl⟩

theorem reports_of_mem_nameFaults (h : IsDraft v d) {f : Fault}
    (hf : f ∈ NameSite.faults d.nameSites) : v.Reports f.complaint.code f.pointer :=
  reports_of_mem_faults h (by simp [Draft.faults, hf])

theorem find?_symbols_of_isFirst (h : IsDraft v d) {c : String} (hc : c ∈ v.constants)
    (hfirst : v.isFirst c = true) :
    ∃ x, d.symbols.find? (·.spelling == c) = some x ∧ x.origin.isConstant = true := by
  have hmethods : ((v.itemsOf "methods").map fun m => Name.upper (m.textOf "name")) =
      d.methods.map fun m => Name.upper m.name :=
    map_eq_of_forall₂ (itemsOf_eq h.methods) fun _ _ hm =>
      congrArg Name.upper (textOf_name_eq hm.name)
  rw [isFirst, tags_eq h, hmethods, Bool.or_eq_true, Bool.and_eq_true, decide_eq_true_eq,
    decide_eq_true_eq, decide_eq_true_eq] at hfirst
  rcases hfirst with htags | ⟨htag, hmethod⟩
  · exact Draft.find?_symbols_of_not_mem_tags (constants_eq h ▸ hc) htags
  · exact Draft.find?_symbols_of_mem_methods htag hmethod

/-- The names and the numbers of the draft that a value spells are covered. -/
theorem covers_draft (h : IsDraft v d) :
    v.Covers d.nameSites d.numeralSites (v.constants.filter v.isFirst) where
  isName s hs hname := by
    obtain ⟨defect, hbad⟩ := NameSite.exists_mem_badName hname
    exact reports_of_mem_nameFaults h (List.mem_append_left _ (List.mem_append_left _
      (List.mem_flatMap.2 ⟨s, hs, hbad⟩)))
  unreserved s hs hprogram hreserved :=
    reports_of_mem_nameFaults h (List.mem_append_left _ (List.mem_append_right _
      (List.mem_flatMap.2 ⟨s, hs, NameSite.mem_reservedName hprogram hreserved⟩)))
  distinct t s hsites hscope hsame hname := by
    obtain ⟨scope, hs⟩ := Option.ne_none_iff_exists'.1 hscope
    obtain ⟨first, hrepeated⟩ :=
      NameSite.exists_mem_repeatedNames hsites (hsame.trans hs) hs hname
    exact reports_of_mem_nameFaults h (List.mem_append_right _ hrepeated)
  numerals n hn hlarge :=
    reports_of_mem_faults h (Draft.tooLarge_subset_faults hn (Draft.mem_tooLarge hlarge))
  unshadowed s hs hprogram hconstant := by
    obtain ⟨hmem, hfirst⟩ := List.mem_filter.1 hconstant
    obtain ⟨x, hx, hkind⟩ := find?_symbols_of_isFirst h hmem hfirst
    exact reports_of_mem_faults h (Draft.shadowedNames_subset_faults
      (List.mem_flatMap.2 ⟨s, hs, Draft.mem_shadowedName hprogram hx hkind⟩))

end Json

/-- Of a value that has the form of a description, everything that is wrong with names and numbers
is reported, provided that they stand where they belong and that constants come before other symbols
of their spellings; so it is for all of them in a value where nothing is out of place. -/
theorem batch_covers {v : Json} (h : Form.description.Holds v) :
    v.Covers (v.nameSites.filter (v.isPlaced ·.named)) (v.numeralSites.filter (v.isPlaced ·.named))
        (v.constants.filter v.isFirst) ∧
      ((∀ s ∈ v.nameSites, v.isPlaced s.named = true) →
        (∀ n ∈ v.numeralSites, v.isPlaced n.named = true) →
          (∀ c ∈ v.constants, v.isFirst c = true) →
            v.Covers v.nameSites v.numeralSites v.constants) := by
  obtain ⟨d, hd⟩ := (Json.holds_description_iff v).1 h
  have hcovers := Json.covers_draft hd
  rw [← Json.filter_isPlaced_nameSites hd, ← Json.filter_isPlaced_numeralSites hd] at hcovers
  refine ⟨hcovers, fun hnames hnumerals hconstants => ?_⟩
  rwa [List.filter_eq_self.2 hnames, List.filter_eq_self.2 hnumerals,
    List.filter_eq_self.2 hconstants] at hcovers

/-- A value of the form of a description with the given parts. -/
def Json.ofParts (amount : String) (methods stateVariables : List Json) : Json :=
  .object
    [("activationAmount", .string amount), ("contractName", .string "Sample"),
     ("maps", .array []), ("methods", .array methods),
     ("pragmas", .object
       [("maxAuxVars", .int 3), ("optimizationLevel", .int 3), ("verboseAssembly", .bool false),
        ("version", .string "2.3.0")]),
     ("transactions", .array []), ("variables", .array stateVariables)]

def Json.ofTyped (name type : String) : Json :=
  .object [("name", .string name), ("type", .string type)]

/-- A value that breaks each of the rules for names and numbers. -/
def Json.faulty : Json :=
  ofParts "18446744073709551616"
    [.object
      [("args", .array [ofTyped "PAY" "long", ofTyped "1st" "long"]), ("code", .string "1"),
       ("name", .string "pay")]]
    [ofTyped "pay" "long", ofTyped "long" "long"]

theorem batch_covers_faulty :
    Form.description.Holds Json.faulty ∧
      Json.faulty.Reports "SCD-NAME-0001" (Named.argument 0 1).pointer ∧
      Json.faulty.Reports "SCD-NAME-0002" (Named.stateVariable 1).pointer ∧
      Json.faulty.Reports "SCD-DUP-0001" (Named.stateVariable 0).pointer ∧
      Json.faulty.Reports "SCD-INT-0001" [.member "activationAmount"] ∧
      Json.faulty.Reports "SCD-DUP-0003" (Named.argument 0 0).pointer := by
  have hform : Form.description.Holds Json.faulty :=
    (Json.Shape.violations_eq_nil_iff _ [] _).1 (List.isEmpty_iff.1 (by decide +kernel))
  have hcovers := (batch_covers hform).2 (by decide +kernel) (by decide +kernel) (by decide +kernel)
  have hname : ¬ Name.IsName "1st" := by
    rw [← Name.defect?_eq_none_iff]
    decide
  exact ⟨hform, hcovers.isName ⟨.argument 0 1, "1st"⟩ (by decide +kernel) hname,
    hcovers.unreserved ⟨.stateVariable 1, "long"⟩ (by decide +kernel) rfl (by decide +kernel),
    hcovers.distinct ⟨.method 0, "pay"⟩ ⟨.stateVariable 0, "pay"⟩ (by decide +kernel) (by decide)
      rfl rfl,
    hcovers.numerals ⟨.contract, "18446744073709551616"⟩ (by decide +kernel) (by decide +kernel),
    hcovers.unshadowed ⟨.argument 0 0, "PAY"⟩ (by decide +kernel) rfl (by decide +kernel)⟩

/-- A value with a field that is a struct and has a text for its name that is no name. -/
def Json.nested : Json :=
  ofParts "0" []
    [.object
      [("fields", .array [ofTyped "1st" "struct"]), ("name", .string "last"),
       ("type", .string "struct")]]

/-- The name of a field that is a struct is not looked at. -/
theorem not_covers_nested :
    Form.description.Holds Json.nested ∧
      ¬ Json.nested.Covers Json.nested.nameSites Json.nested.numeralSites Json.nested.constants := by
  have hform : Form.description.Holds Json.nested :=
    (Json.Shape.violations_eq_nil_iff _ [] _).1 (List.isEmpty_iff.1 (by decide +kernel))
  refine ⟨hform, fun h => ?_⟩
  have hname : ¬ Name.IsName "1st" := by
    rw [← Name.defect?_eq_none_iff]
    decide
  have hreports := h.isName ⟨.field 0 0, "1st"⟩ (by decide +kernel) hname
  revert hreports
  decide +kernel

end SmartContract
