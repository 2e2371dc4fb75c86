import SmartContract.Proofs.Description.Causes
import SmartContract.Proofs.Description.Sections
import SmartContract.Proofs.Json.Members

/-!
A member that no description has, added to a value that has the form of one. Names stand in the same
places as before, so what was wrong with them is reported again. What was wrong with codes of methods
and with symbols is not, since these are not looked at in a value that does not have the form.
-/

namespace SmartContract

open Json (Pointer IsDraft)

namespace Json

/-- The names of the members that a description can have. -/
def rootNames : List String :=
  ["contractName", "description", "activationAmount", "pragmas", "methods", "variables", "maps",
    "transactions"]

/-- The value with the member, if it is an object. -/
def withMember (v : Json) (key : String) (w : Json) : Json :=
  match v with
  | .object ms => .object (insertMember key w ms)
  | v => v

variable {v w : Json} {key name s : String} {n : Named}

theorem get?_withMember (h : name ≠ key) : (v.withMember key w).get? name = v.get? name := by
  cases v with
  | object ms => rw [withMember, get?, get?, lookup_insertMember, if_neg h]
  | _ => rfl

theorem exists_pointer_eq_cons (n : Named) :
    ∃ name ∈ rootNames, ∃ rest, n.pointer = .member name :: rest := by
  cases n
  case contract => exact ⟨"contractName", by decide, _, rfl⟩
  case method | argument => exact ⟨"methods", by decide, _, rfl⟩
  case stateVariable | field => exact ⟨"variables", by decide, _, rfl⟩
  case map | item | entry => exact ⟨"maps", by decide, _, rfl⟩
  case transaction => exact ⟨"transactions", by decide, _, rfl⟩

/-- Names stand in the same places. -/
theorem names_withMember (h : key ∉ rootNames) : (v.withMember key w).Names = v.Names := by
  funext n s
  obtain ⟨name, hname, rest, hpointer⟩ := exists_pointer_eq_cons n
  have hne : name ≠ key := fun heq => h (heq ▸ hname)
  have hget : Step.resolve? (v.withMember key w) (.member name) = Step.resolve? v (.member name) :=
    get?_withMember hne
  rw [Names, Names, HasText, HasText, hpointer, Pointer.resolve?, Pointer.resolve?, hget]

/-- A value does not have the form of a description with the member. -/
theorem formFaults_withMember_ne_nil (h : key ∉ rootNames) (hform : Form.description.Holds v) :
    Description.formFaults (v.withMember key w) ≠ [] := by
  intro hnil
  obtain ⟨d, hd⟩ := (holds_description_iff v).1 hform
  obtain ⟨ms, rfl, -⟩ := hd.record
  obtain ⟨e, he⟩ := Description.formFaults_eq_nil_iff.1 hnil
  obtain ⟨_, hms, hnames⟩ := he.record
  cases hms
  have hkey : key ∈ (insertMember key w ms).map (·.1) :=
    mem_names_iff.2 ⟨w, (lookup_insertMember key).trans (if_pos rfl)⟩
  obtain ⟨m, hm, rfl⟩ := List.mem_map.1 hkey
  exact h (hnames m hm)

/-! ### Names in the same scope -/

/-- A name that stands after another of its scope is wrong. -/
theorem exists_repeated {m : Named} {scope : Scope} (hn : v.Names n s) (hm : v.Names m s)
    (hnscope : n.scope? = some scope) (hmscope : m.scope? = some scope) (h : m.Before n) :
    ∃ first : Named, NameFault v.Names ⟨n.pointer, .repeatedName scope s first.pointer⟩ := by
  -- The first one is the head of the list of those that are the same.
  have hsame : ∀ t, t ∈ v.nameSites.filter (fun t => t.named.scope? = some scope ∧ t.name = s) ↔
      v.Names t.named t.name ∧ t.named.scope? = some scope ∧ t.name = s := by
    intro t
    rw [List.mem_filter, ← mem_nameSites_iff, decide_eq_true_eq]
  have hpairwise := v.pairwise_nameSites.filter fun t => t.named.scope? = some scope ∧ t.name = s
  have hmem := (hsame ⟨m, s⟩).2 ⟨hm, hmscope, rfl⟩
  cases hlist : v.nameSites.filter (fun t => t.named.scope? = some scope ∧ t.name = s) with
  | nil =>
    rw [hlist] at hmem
    cases hmem
  | cons first rest =>
    obtain ⟨hfirst, hfirstScope, rfl⟩ := (hsame first).1 (hlist ▸ List.mem_cons_self)
    rw [hlist] at hpairwise
    have hothers : ∀ k, v.Names k first.name → k.scope? = some scope →
        k = first.named ∨ first.named.Before k := by
      intro k hk hkscope
      have hkmem := (hsame ⟨k, first.name⟩).2 ⟨hk, hkscope, rfl⟩
      rw [hlist] at hkmem
      exact (List.mem_cons.1 hkmem).imp (congrArg NameSite.named)
        ((List.pairwise_cons.1 hpairwise).1 _)
    have hleast : ∀ k, v.Names k first.name → k.scope? = some scope → ¬ k.Before first.named := by
      intro k hk hkscope hlt
      rcases hothers k hk hkscope with rfl | hbefore
      · exact Named.not_before_of_before _ _ hlt hlt
      · exact Named.not_before_of_before _ _ hlt hbefore
    have hbefore : first.named.Before n := by
      rcases hothers m hm hmscope with rfl | hbefore
      · exact h
      · exact lt_trans hbefore h
    exact ⟨first.named, .repeated hn hnscope ⟨hfirst, hfirstScope, hleast⟩ hbefore⟩

/-! ### What is reported -/

variable {f : Fault} {d : Draft}

theorem mem_batch_iff_of_formless (h : Description.formFaults v ≠ []) :
    f ∈ Description.batch v ↔ f ∈ Description.formFaults v ∨ NameFault v.Names f := by
  rw [Description.batch, Description.ofJson_eq_error_iff.2 (.inr ⟨h, rfl⟩), Fault.mem_sort,
    List.mem_append, mem_nameFaults_iff]

/-- The faults of a draft that have such a code are those of its names. -/
theorem mem_nameFaults_of_mem_faults (hf : f ∈ d.faults) (hcode : f.complaint.code ∈ NameFault.codes) :
    f ∈ NameSite.faults d.nameSites := by
  have hother : ∀ {codes : List String}, f.complaint.code ∈ codes →
      codes.all (· ∉ NameFault.codes) = true → f ∈ NameSite.faults d.nameSites := by
    intro codes hmem hcodes
    exact absurd hcode (by simpa using List.all_eq_true.1 hcodes _ hmem)
  simp only [Draft.faults, List.mem_append, List.mem_flatMap] at hf
  rcases hf with (((((((hf | hf) | ⟨s, -, hf⟩) | hf) | hf) | ⟨m, -, hf⟩) | hf) | ⟨x, -, hf⟩) |
    ⟨m, -, hf⟩
  · exact hf
  · exact hother (List.mem_singleton.2 (Draft.code_of_mem_repeatedSymbols hf).1) (by decide)
  · exact hother (List.mem_singleton.2 (Draft.code_of_mem_shadowedName hf).1) (by decide)
  · exact hother (Draft.liesIn_of_mem_severalLines hf).1 (by decide)
  · exact hother (Draft.liesIn_of_mem_tooLarge rfl hf).1 (by decide)
  · exact hother (Draft.liesIn_of_mem_methodFaults hf).1 (by decide)
  · exact hother (Draft.liesIn_of_mem_repeatedCodes hf).1 (by decide)
  · exact hother (Draft.liesIn_of_mem_variableFaults hf).1 (by decide)
  · exact hother (Draft.liesIn_of_mem_mapFaults hf).1 (by decide)

theorem exists_nameFault (h : IsDraft v d) (hf : f ∈ d.faults)
    (hcode : f.complaint.code ∈ NameFault.codes) :
    ∃ g, NameFault v.Names g ∧ g.pointer = f.pointer ∧ g.complaint.code = f.complaint.code := by
  have hnames : ∀ {n s}, ⟨n, s⟩ ∈ d.nameSites → v.Names n s := names_of_mem_nameSites h
  have hfault := mem_nameFaults_of_mem_faults hf hcode
  rw [NameSite.mem_faults_iff (pairwise_draftNameSites h)] at hfault
  cases hfault with
  | bad hs hname hdefect => exact ⟨_, .bad (hnames hs) hname hdefect, rfl, rfl⟩
  | reserved hs hprogram hreserved => exact ⟨_, .reserved (hnames hs) hprogram hreserved, rfl, rfl⟩
  | repeated hs hscope hfirst hbefore =>
    obtain ⟨first, hrepeated⟩ :=
      exists_repeated (hnames hs) (hnames hfirst.1) hscope hfirst.2.1 hbefore
    exact ⟨_, hrepeated, rfl, rfl⟩

end Json

/-- The codes of faults of names and of what must differ. -/
def Fault.namingCodes : List String :=
  ["SCD-NAME-0001", "SCD-NAME-0002", "SCD-DUP-0001", "SCD-DUP-0002", "SCD-DUP-0003"]

/-- Of the faults of names and of what must differ, those of names by themselves and with others of
their scopes are reported again when a member is added that no description has, beside that. Those
of the codes of methods and of symbols are not. -/
theorem reported_with_unknown_member_iff (v : Json) (h : Form.description.Holds v) (key : String)
    (hkey : key ∉ Json.rootNames) (w : Json) (f : Fault) (hf : f ∈ Description.batch v)
    (hcode : f.complaint.code ∈ Fault.namingCodes) :
    (∃ p, (v.withMember key w).Reports "SCD-SCHEMA-0001" p) ∧
      ((v.withMember key w).Reports f.complaint.code f.pointer ↔
        f.complaint.code ≠ "SCD-DUP-0002" ∧ f.complaint.code ≠ "SCD-DUP-0003") := by
  obtain ⟨d, hd⟩ := (Json.holds_description_iff v).1 h
  have hform := Json.formFaults_withMember_ne_nil (w := w) hkey h
  obtain ⟨x, hx⟩ := List.exists_mem_of_ne_nil _ hform
  refine ⟨⟨x.pointer, x, (Json.mem_batch_iff_of_formless hform).2 (.inl hx), rfl,
    Description.code_of_mem_formFaults hx⟩, ?_⟩
  constructor
  · rintro ⟨g, hg, -, hgcode⟩
    rw [← hgcode]
    rcases (Json.mem_batch_iff_of_formless hform).1 hg with hg | hg
    · rw [Description.code_of_mem_formFaults hg]
      decide
    · cases hg <;> simp [Complaint.code]
  · intro hne
    have hnames : f.complaint.code ∈ NameFault.codes := by
      simpa [Fault.namingCodes, NameFault.codes, hne] using hcode
    obtain ⟨g, hg, hpointer, hgcode⟩ :=
      Json.exists_nameFault hd ((Json.mem_batch_iff_of_isDraft hd).1 hf) hnames
    rw [← Json.names_withMember (w := w) hkey] at hg
    exact ⟨g, (Json.mem_batch_iff_of_formless hform).2 (.inr hg), hpointer, hgcode⟩

/-- A value with a method that has no name. -/
def Json.misnamed : Json := ofParts "0" [ofMethod "1st" "1"] []

theorem reported_with_unknown_member_misnamed :
    Form.description.Holds Json.misnamed ∧ "note" ∉ Json.rootNames ∧
      Json.misnamed.Reports "SCD-NAME-0001" (Named.method 0).pointer ∧
      (Json.misnamed.withMember "note" .null).Reports "SCD-NAME-0001" (Named.method 0).pointer := by
  have hform : Form.description.Holds Json.misnamed :=
    (Json.Shape.violations_eq_nil_iff _ [] _).1 (List.isEmpty_iff.1 (by decide +kernel))
  have hkey : "note" ∉ Json.rootNames := by decide
  have hreports : Json.misnamed.Reports "SCD-NAME-0001" (Named.method 0).pointer := by
    decide +kernel
  obtain ⟨f, hf, hpointer, hcode⟩ := id hreports
  have hiff := (reported_with_unknown_member_iff _ hform _ hkey .null f hf
    (by rw [hcode]; decide)).2
  rw [hcode, hpointer] at hiff
  exact ⟨hform, hkey, hreports, hiff.2 (by decide)⟩

/-- A value with a variable that is spelled like the constant of a method. -/
def Json.shadowing : Json := ofParts "0" [ofMethod "pay" "1"] [ofTyped "PAY" "long"]

/-- That two methods have the same code is not reported again, nor that a variable is spelled like a
constant. -/
theorem hidden_by_unknown_member :
    (Form.description.Holds Json.clashing ∧ "note" ∉ Json.rootNames ∧
      Json.clashing.Reports "SCD-DUP-0002" (Draft.codePointer 1) ∧
      ¬ (Json.clashing.withMember "note" .null).Reports "SCD-DUP-0002" (Draft.codePointer 1)) ∧
    Form.description.Holds Json.shadowing ∧
      Json.shadowing.Reports "SCD-DUP-0003" (Named.stateVariable 0).pointer ∧
      ¬ (Json.shadowing.withMember "note" .null).Reports "SCD-DUP-0003"
        (Named.stateVariable 0).pointer := by
  have hholds : ∀ v : Json, (Form.description.violations [] v).isEmpty = true →
      Form.description.Holds v := fun v hv =>
    (Json.Shape.violations_eq_nil_iff _ [] v).1 (List.isEmpty_iff.1 hv)
  exact ⟨⟨hholds _ (by decide +kernel), by decide, by decide +kernel, by decide +kernel⟩,
    hholds _ (by decide +kernel), by decide +kernel, by decide +kernel⟩

end SmartContract
