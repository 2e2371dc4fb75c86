import SmartContract.Proofs.Description.Acceptance
import SmartContract.Proofs.Description.NamePlaces
import SmartContract.Proofs.Report.Order

/-!
What is reported of names. It depends on nothing but which texts stand in which places of names: a
text that is no name, a name that is taken where it comes to stand in the program, and a name that
stands after the first one of its scope. Of a value that does not have the form of a description
that is all that is reported besides what keeps it from having the form.
-/

namespace SmartContract

/-- The name is the first one of its scope that is the text. -/
def Named.IsFirst (names : Named → String → Prop) (scope : Scope) (s : String) (n : Named) : Prop :=
  names n s ∧ n.scope? = some scope ∧ ∀ m, names m s → m.scope? = some scope → ¬ m.Before n

/-- What is wrong with texts in the places of names. -/
inductive NameFault (names : Named → String → Prop) : Fault → Prop
  /-- The text is no name. -/
  | bad {n : Named} {s : String} {defect : Name.Defect} (h : names n s) (hs : ¬ Name.IsName s)
      (hdefect : Name.defect? s = some defect) : NameFault names ⟨n.pointer, .badName s defect⟩
  /-- The name would come to stand in the program and is taken. -/
  | reserved {n : Named} {s : String} (h : names n s) (hprogram : n.inProgram = true)
      (hs : Vocabulary.isReserved s = true) : NameFault names ⟨n.pointer, .reservedName s⟩
  /-- The name stands after the first one of its scope that is the same. -/
  | repeated {n first : Named} {s : String} {scope : Scope} (h : names n s)
      (hscope : n.scope? = some scope) (hfirst : first.IsFirst names scope s)
      (hbefore : first.Before n) :
      NameFault names ⟨n.pointer, .repeatedName scope s first.pointer⟩

namespace NameSite

variable {sites : List NameSite} {f : Fault}

/-! ### The faults of a list of names -/

theorem mem_badNames_iff : f ∈ sites.flatMap badName ↔
    ∃ n s defect, ⟨n, s⟩ ∈ sites ∧ Name.defect? s = some defect ∧
      f = ⟨n.pointer, .badName s defect⟩ := by
  simp only [List.mem_flatMap, badName, Option.mem_toList, Option.map_eq_some_iff]
  constructor
  · rintro ⟨⟨n, s⟩, hs, defect, hdefect, rfl⟩
    exact ⟨n, s, defect, hs, hdefect, rfl⟩
  · rintro ⟨n, s, defect, hs, hdefect, rfl⟩
    exact ⟨⟨n, s⟩, hs, defect, hdefect, rfl⟩

theorem mem_reservedNames_iff : f ∈ sites.flatMap reservedName ↔
    ∃ n s, ⟨n, s⟩ ∈ sites ∧ n.inProgram = true ∧ Vocabulary.isReserved s = true ∧
      f = ⟨n.pointer, .reservedName s⟩ := by
  simp only [List.mem_flatMap, reservedName, List.mem_ite_nil_right, Bool.and_eq_true,
    List.mem_singleton]
  constructor
  · rintro ⟨⟨n, s⟩, hs, ⟨hprogram, hreserved⟩, rfl⟩
    exact ⟨n, s, hs, hprogram, hreserved, rfl⟩
  · rintro ⟨n, s, hs, hprogram, hreserved, rfl⟩
    exact ⟨⟨n, s⟩, hs, ⟨hprogram, hreserved⟩, rfl⟩

theorem mem_scoped_iff {s : NameSite} {scope : Scope} : (s, scope) ∈ sites.filterMap scoped? ↔
    s ∈ sites ∧ s.named.scope? = some scope := by
  simp only [List.mem_filterMap, scoped?, Option.map_eq_some_iff, Prod.mk.injEq]
  constructor
  · rintro ⟨t, ht, _, hscope, rfl, rfl⟩
    exact ⟨ht, hscope⟩
  · rintro ⟨hs, hscope⟩
    exact ⟨s, hs, scope, hscope, rfl, rfl⟩

theorem pairwise_scoped (h : sites.Pairwise fun s t => s.named.Before t.named) :
    (sites.filterMap scoped?).Pairwise fun s t => s.1.named.Before t.1.named := by
  refine h.filterMap _ ?_
  intro s t hst x hx y hy
  obtain ⟨_, -, rfl⟩ := Option.map_eq_some_iff.1 hx
  obtain ⟨_, -, rfl⟩ := Option.map_eq_some_iff.1 hy
  exact hst

/-- Of names that are listed in the order of their places, the one that another is said to repeat is
the first of its scope. -/
theorem mem_repeatedNames_iff (h : sites.Pairwise fun s t => s.named.Before t.named) :
    f ∈ repeatedNames sites ↔
      ∃ (n first : Named) (s : String) (scope : Scope), ⟨n, s⟩ ∈ sites ∧ n.scope? = some scope ∧
        first.IsFirst (fun m t => ⟨m, t⟩ ∈ sites) scope s ∧ first.Before n ∧
          f = ⟨n.pointer, .repeatedName scope s first.pointer⟩ := by
  simp only [repeatedNames, List.mem_map, Prod.exists, mem_repeats_iff_of_pairwise
    (fun s t : NameSite × Scope => Named.not_before_of_before s.1.named t.1.named)
    (pairwise_scoped h), mem_scoped_iff]
  constructor
  · rintro ⟨⟨n, s⟩, scope, ⟨first, t⟩, scope', ⟨⟨hs, hscope⟩, ⟨hfirst, hfirstScope⟩, hrest⟩, rfl⟩
    obtain ⟨hbefore, hkey, hleast⟩ := hrest
    obtain ⟨rfl, rfl⟩ := Prod.mk.inj hkey
    refine ⟨n, first, _, _, hs, hscope, ⟨hfirst, hfirstScope, ?_⟩, hbefore, rfl⟩
    intro m hm hmscope hlt
    exact hleast (⟨m, _⟩, _) (mem_scoped_iff.2 ⟨hm, hmscope⟩) hlt rfl
  · rintro ⟨n, first, s, scope, hs, hscope, ⟨hfirst, hfirstScope, hleast⟩, hbefore, rfl⟩
    refine ⟨⟨n, s⟩, scope, ⟨first, s⟩, scope,
      ⟨⟨hs, hscope⟩, ⟨hfirst, hfirstScope⟩, hbefore, rfl, ?_⟩, rfl⟩
    rintro ⟨⟨m, t⟩, scope'⟩ hm hlt hkey
    obtain ⟨rfl, rfl⟩ := Prod.mk.inj hkey
    obtain ⟨hm, hmscope⟩ := mem_scoped_iff.1 hm
    exact hleast m hm hmscope hlt

/-- The faults of names that are listed in the order of their places. -/
theorem mem_faults_iff (h : sites.Pairwise fun s t => s.named.Before t.named) :
    f ∈ faults sites ↔ NameFault (fun n s => ⟨n, s⟩ ∈ sites) f := by
  rw [faults, List.mem_append, List.mem_append, mem_badNames_iff, mem_reservedNames_iff,
    mem_repeatedNames_iff h]
  constructor
  · rintro ((⟨n, s, defect, hs, hdefect, rfl⟩ | ⟨n, s, hs, hprogram, hreserved, rfl⟩) |
      ⟨n, first, s, scope, hs, hscope, hfirst, hbefore, rfl⟩)
    · have hname : ¬ Name.IsName s := fun hname => by
        rw [Name.defect?_eq_none_iff.2 hname] at hdefect
        cases hdefect
      exact .bad hs hname hdefect
    · exact .reserved hs hprogram hreserved
    · exact .repeated hs hscope hfirst hbefore
  · intro hf
    cases hf with
    | bad hs _ hdefect => exact .inl (.inl ⟨_, _, _, hs, hdefect, rfl⟩)
    | reserved hs hprogram hreserved => exact .inl (.inr ⟨_, _, hs, hprogram, hreserved, rfl⟩)
    | repeated hs hscope hfirst hbefore =>
      exact .inr ⟨_, _, _, _, hs, hscope, hfirst, hbefore, rfl⟩

/-! ### One fault of each sort -/

theorem badNames_sublist :
    ((sites.flatMap badName).map Fault.pointer).Sublist (sites.map (·.named.pointer)) := by
  rw [List.map_flatMap]
  refine flatMap_sublist_map fun s => ?_
  rw [badName]
  cases Name.defect? s.name with
  | none => exact List.nil_sublist _
  | some defect => exact List.Sublist.refl _

theorem reservedNames_sublist :
    ((sites.flatMap reservedName).map Fault.pointer).Sublist (sites.map (·.named.pointer)) := by
  rw [List.map_flatMap]
  refine flatMap_sublist_map fun s => ?_
  rw [reservedName]
  split
  · exact List.Sublist.refl _
  · exact List.nil_sublist _

theorem repeatedNames_sublist :
    ((repeatedNames sites).map Fault.pointer).Sublist (sites.map (·.named.pointer)) := by
  have hscoped : ((sites.filterMap scoped?).map fun s => s.1.named.pointer).Sublist
      (sites.map (·.named.pointer)) := by
    rw [List.map_filterMap, List.filterMap_eq_flatMap_toList]
    refine flatMap_sublist_map fun s => ?_
    rw [scoped?]
    cases s.named.scope? with
    | none => exact List.nil_sublist _
    | some scope => exact List.Sublist.refl _
  have hfirst : ((repeats (fun s => (s.2, s.1.name)) (sites.filterMap scoped?)).map
      Prod.fst).Sublist (sites.filterMap scoped?) := map_fst_repeats_sublist
  have hrepeats := hfirst.map fun s => s.1.named.pointer
  rw [List.map_map] at hrepeats
  rw [repeatedNames, List.map_map]
  exact hrepeats.trans hscoped

/-- At every place there is at most one fault of each sort. -/
theorem nodup_faults (h : sites.Pairwise fun s t => s.named.Before t.named) :
    (faults sites).Nodup := by
  have hplaces : (sites.map (·.named.pointer)).Nodup := by
    rw [List.nodup_iff_pairwise_ne, List.pairwise_map]
    refine h.imp fun {s t} hst heq => ?_
    rw [Named.pointer_injective heq] at hst
    exact Named.not_before_of_before _ _ hst hst
  have hsort : ∀ {faults : List Fault},
      (faults.map Fault.pointer).Sublist (sites.map (·.named.pointer)) → faults.Nodup :=
    fun hsub => .of_map _ (hplaces.sublist hsub)
  rw [faults, List.nodup_append, List.nodup_append]
  refine ⟨⟨hsort badNames_sublist, hsort reservedNames_sublist, ?_⟩,
    hsort repeatedNames_sublist, ?_⟩
  · intro f hf g hg
    obtain ⟨_, _, _, _, _, rfl⟩ := mem_badNames_iff.1 hf
    obtain ⟨_, _, _, _, _, rfl⟩ := mem_reservedNames_iff.1 hg
    simp
  · intro f hf g hg
    obtain ⟨_, _, _, _, _, _, _, _, rfl⟩ := (mem_repeatedNames_iff h).1 hg
    obtain hf | hf := List.mem_append.1 hf
    · obtain ⟨_, _, _, _, _, rfl⟩ := mem_badNames_iff.1 hf
      simp
    · obtain ⟨_, _, _, _, _, rfl⟩ := mem_reservedNames_iff.1 hf
      simp

end NameSite

/-! ### Values that do not have the form -/

namespace Json

variable {v : Json} {f : Fault}

theorem mem_nameFaults_iff : f ∈ NameSite.faults v.nameSites ↔ NameFault v.Names f := by
  have hnames : (fun n s => ⟨n, s⟩ ∈ v.nameSites) = v.Names :=
    funext fun _ => funext fun _ => propext mem_nameSites_iff
  rw [NameSite.mem_faults_iff v.pairwise_nameSites, hnames]

end Json

/-- The codes of faults of names by themselves and with others of their scopes. -/
def NameFault.codes : List String := ["SCD-NAME-0001", "SCD-NAME-0002", "SCD-DUP-0001"]

theorem NameFault.code_mem {names : Named → String → Prop} {f : Fault} (h : NameFault names f) :
    f.complaint.code ∈ codes := by
  cases h <;> simp [Complaint.code, codes]

theorem NameFault.code_ne {names : Named → String → Prop} {f : Fault} (h : NameFault names f) :
    f.complaint.code ≠ "SCD-SCHEMA-0001" :=
  fun heq => absurd (heq ▸ h.code_mem) (by decide)

theorem Description.code_of_mem_formFaults {v : Json} {f : Fault} (h : f ∈ formFaults v) :
    f.complaint.code = "SCD-SCHEMA-0001" := by
  obtain ⟨x, -, rfl⟩ := List.mem_map.1 h
  rfl

/-- Of a value that does not have the form of a description, everything that is wrong with the names
in their places is reported, once and in the order of faults, and beside what keeps it from having
the form nothing else is. -/
theorem names_of_formless (v : Json) (h : Description.formFaults v ≠ []) :
    ∃ batch, Description.ofJson v = .error batch ∧ batch.Pairwise Fault.Precedes ∧
      (batch.filter fun f => f.complaint.code ≠ "SCD-SCHEMA-0001").Nodup ∧
      ∀ f : Fault, (f ∈ batch ∧ f.complaint.code ≠ "SCD-SCHEMA-0001") ↔ NameFault v.Names f := by
  have hnames : ∀ f ∈ NameSite.faults v.nameSites, f.complaint.code ≠ "SCD-SCHEMA-0001" :=
    fun f hf => (Json.mem_nameFaults_iff.1 hf).code_ne
  refine ⟨_, Description.ofJson_eq_error_iff.2 (.inr ⟨h, rfl⟩), Fault.pairwise_sort _, ?_, ?_⟩
  · have hforms : (Description.formFaults v).filter
        (fun f => f.complaint.code ≠ "SCD-SCHEMA-0001") = [] :=
      List.filter_eq_nil_iff.2 fun f hf => by simpa using Description.code_of_mem_formFaults hf
    have hperm := (Fault.sort_perm (Description.formFaults v ++ NameSite.faults v.nameSites)).filter
      fun f => f.complaint.code ≠ "SCD-SCHEMA-0001"
    rw [hperm.nodup_iff, List.filter_append, hforms, List.nil_append,
      List.filter_eq_self.2 fun f hf => by simpa using hnames f hf]
    exact NameSite.nodup_faults v.pairwise_nameSites
  · intro f
    rw [Fault.mem_sort, List.mem_append]
    constructor
    · rintro ⟨hf | hf, hcode⟩
      · exact absurd (Description.code_of_mem_formFaults hf) hcode
      · exact Json.mem_nameFaults_iff.1 hf
    · intro hf
      exact ⟨.inr (Json.mem_nameFaults_iff.2 hf), hf.code_ne⟩

/-- A value that does not have the form, in which names stand among other things. -/
def Json.mixed : Json :=
  .object
    [("methods", .array
      [.string "pay", .object [("args", .array [.null, .object [("name", .string "1st")]]),
        ("name", .string "pay")], .object [("name", .int 7)]]),
     ("variables", .array [.object [("name", .string "")], .object [("name", .string "pay")]])]

theorem names_of_formless_mixed :
    Description.formFaults Json.mixed ≠ [] ∧
      ∃ batch, Description.ofJson Json.mixed = .error batch ∧
        ⟨(Named.argument 1 1).pointer, .badName "1st" .badStart⟩ ∈ batch ∧
        ⟨(Named.stateVariable 1).pointer,
          .repeatedName .program "pay" (Named.method 1).pointer⟩ ∈ batch := by
  have hform : Description.formFaults Json.mixed ≠ [] := by
    rw [← List.isEmpty_eq_false_iff]
    decide +kernel
  obtain ⟨batch, hbatch, -, -, hfaults⟩ := names_of_formless Json.mixed hform
  have hbad : Name.defect? "1st" = some .badStart := by decide
  have hname : ¬ Name.IsName "1st" := by
    rw [← Name.defect?_eq_none_iff, hbad]
    exact Option.some_ne_none _
  have hleast : ∀ s ∈ Json.mixed.nameSites, s.name = "pay" → s.named.scope? = some .program →
      ¬ s.named.Before (.method 1) := by decide +kernel
  have hfirst : (Named.method 1).IsFirst Json.mixed.Names .program "pay" :=
    ⟨⟨rfl, by decide⟩, rfl, fun m hm => hleast ⟨m, "pay"⟩ (Json.mem_nameSites_iff.2 hm) rfl⟩
  exact ⟨hform, batch, hbatch, ((hfaults _).2 (.bad ⟨rfl, by decide⟩ hname hbad)).1,
    ((hfaults _).2 (.repeated ⟨rfl, by decide⟩ rfl hfirst (by decide))).1⟩

end SmartContract
