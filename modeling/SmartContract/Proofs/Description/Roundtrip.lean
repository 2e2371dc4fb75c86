import SmartContract.Command.Plan
import SmartContract.Proofs.Description.Acceptance
import SmartContract.Proofs.Description.Writing
import SmartContract.Proofs.Json.Roundtrip

/-!
The text of an accepted description is read as the description. What is written for it spells its
draft, which keeps the rules again; and it is JSON of the kind that is read back from its texts.
-/

namespace SmartContract

open Json (Canonical IsSettings ofMembers)

/-! ### What is written can be read -/

namespace Json

variable {depth : Nat}

theorem canonical_ofMembers {ms : List (String × Json)} (h : ∀ m ∈ ms, Canonical depth m.2) :
    Canonical (depth + 1) (ofMembers ms) := by
  obtain ⟨sorted, hsorted, hascending, hmem⟩ := exists_ofMembers_eq ms
  rw [hsorted]
  exact .object _ hascending fun m hm => h m (hmem m hm)

theorem canonical_array_map {α : Type} {f : α → Json} {xs : List α}
    (h : ∀ x ∈ xs, Canonical depth (f x)) : Canonical (depth + 1) (.array (xs.map f)) :=
  .array _ (List.forall_mem_map.2 h)

theorem canonical_natCast {n : Nat} (h : n ≤ 10) : Canonical depth (.int n) := by
  refine .int _ (by omega) ?_
  have hlimit : (10 : Int) < Numeral.wordLimit := by decide
  omega

theorem forall_mem_optional_map {α : Type} {p : Json → Prop} {key : String} {o : Option α}
    {f : α → Json} (h : ∀ x, o = some x → p (f x)) : ∀ m ∈ optional key (o.map f), p m.2 := by
  cases o with
  | none => simp [optional]
  | some x => simpa [optional] using h x rfl

theorem forall_mem_optionalText {key : String} {o : Option String} :
    ∀ m ∈ optionalText key o, Canonical depth m.2 :=
  forall_mem_optional_map fun s _ => .string s

end Json

open Json

variable {v : Json} {depth : Nat}

theorem Settings.canonical_toJson {s : Settings} (h : IsSettings v s) :
    Canonical (depth + 1) s.toJson := by
  have hpages : ∀ (o : Option Nat) (key other : String),
      v.MayHave other (IsUpTo Limit.stackPages) o →
        ∀ m ∈ Json.optional key (o.map fun n => .int n), Canonical depth m.2 := by
    intro o key other ho
    cases o with
    | none => simp [Json.optional]
    | some n =>
      have hn : Canonical depth (.int n) := canonical_natCast (ho.choose_spec.2.2)
      simpa [Json.optional] using hn
  have hvariables : s.auxiliaryVariables ≤ 10 := h.auxiliaryVariables.choose_spec.2.2
  have hlevel : s.optimizationLevel ≤ 3 := h.optimizationLevel.choose_spec.2.2
  refine canonical_ofMembers ?_
  simp only [List.forall_mem_append, List.forall_mem_cons]
  exact ⟨⟨⟨canonical_natCast hvariables, canonical_natCast (by omega), .bool _, .string _, by simp⟩,
    hpages _ _ _ h.codeStackPages⟩, hpages _ _ _ h.userStackPages⟩

theorem TypedName.canonical_toJson (n : TypedName) : Canonical (depth + 1) n.toJson := by
  refine canonical_ofMembers ?_
  simp only [List.forall_mem_cons]
  exact ⟨.string _, .string _, by simp⟩

theorem Method.canonical_toJson (m : Method) : Canonical (depth + 3) m.toJson := by
  refine canonical_ofMembers ?_
  simp only [List.forall_mem_append, List.forall_mem_cons]
  exact ⟨⟨.string _, .string _, canonical_array_map fun _ _ => TypedName.canonical_toJson _,
    by simp⟩, forall_mem_optionalText⟩

theorem Variable.canonical_toJson (w : Variable) : Canonical (depth + 3) w.toJson := by
  refine canonical_ofMembers ?_
  have hkind : ∀ m ∈ w.kind.members, Canonical (depth + 2) m.2 := by
    cases w.kind with
    | value type => simpa [VariableKind.members] using .string _
    | struct fields =>
      simp only [VariableKind.members, List.forall_mem_cons]
      exact ⟨.string _, canonical_array_map fun _ _ => TypedName.canonical_toJson _, by simp⟩
  simp only [List.forall_mem_append, List.forall_mem_cons]
  exact ⟨⟨⟨⟨.string _, .bool _, .bool _, by simp⟩, hkind⟩, forall_mem_optionalText⟩,
    forall_mem_optionalText⟩

theorem Entry.canonical_toJson (e : Entry) : Canonical (depth + 1) e.toJson := by
  refine canonical_ofMembers ?_
  simp only [List.forall_mem_cons]
  exact ⟨.string _, .string _, by simp⟩

theorem MapItem.canonical_toJson (i : MapItem) : Canonical (depth + 3) i.toJson := by
  refine canonical_ofMembers ?_
  have htype : ∀ m ∈ (i.type.map ItemType.members).getD [], Canonical (depth + 2) m.2 := by
    rcases i.type with _ | _ | entries
    · simp
    · simpa [ItemType.members] using .string _
    · simp only [Option.map_some, Option.getD_some, ItemType.members, List.forall_mem_cons]
      exact ⟨.string _, canonical_array_map fun _ _ => Entry.canonical_toJson _, by simp⟩
  simp only [List.forall_mem_append, List.forall_mem_cons]
  exact ⟨⟨⟨⟨.string _, .bool _, by simp⟩, htype⟩, forall_mem_optionalText⟩,
    forall_mem_optional_map fun _ _ => .string _⟩

theorem KeyMap.canonical_toJson (m : KeyMap) : Canonical (depth + 4) m.toJson := by
  refine canonical_ofMembers ?_
  simp only [List.forall_mem_append, List.forall_mem_cons]
  exact ⟨⟨.string _, m.key1.canonical_toJson, m.key2.canonical_toJson, m.value.canonical_toJson,
    by simp⟩, forall_mem_optionalText⟩

theorem Transaction.canonical_toJson (t : Transaction) : Canonical (depth + 1) t.toJson := by
  refine canonical_ofMembers ?_
  simp only [List.forall_mem_append, List.forall_mem_cons]
  exact ⟨⟨.string _, .string _, by simp⟩, forall_mem_optionalText⟩

/-- At most six arrays and objects lie in each other in what is written for a description. -/
theorem Description.canonical_toJson {d : Description} (h : IsSettings v d.settings) :
    Canonical 6 d.toJson := by
  refine canonical_ofMembers ?_
  simp only [List.forall_mem_append, List.forall_mem_cons]
  exact ⟨⟨.string _, .string _, Settings.canonical_toJson h,
    canonical_array_map fun _ _ => Method.canonical_toJson _,
    canonical_array_map fun _ _ => Variable.canonical_toJson _,
    canonical_array_map fun _ _ => KeyMap.canonical_toJson _,
    canonical_array_map fun _ _ => Transaction.canonical_toJson _, by simp⟩,
    forall_mem_optionalText⟩

/-! ### Accepted descriptions -/

namespace Description

variable {d : Description}

/-- A description is accepted exactly when the value that is written for it spells its draft and the
draft keeps the rules. -/
theorem isAccepted_iff : d.IsAccepted ↔ IsDraft d.toJson d.toDraft ∧ d.toDraft.Lawful := by
  constructor
  · rintro ⟨v, hv⟩
    obtain ⟨draft, hdraft, hlawful, rfl⟩ := ofJson_eq_ok_iff.1 hv
    exact ⟨isDraft_toJson hdraft, Draft.lawful_normal hlawful⟩
  · rintro ⟨hdraft, hlawful⟩
    exact ⟨d.toJson, ofJson_eq_ok_iff.2 ⟨_, hdraft, hlawful, d.toDescription_toDraft⟩⟩

/-- What is written for an accepted description is accepted as the description. -/
theorem IsAccepted.ofJson_toJson (h : d.IsAccepted) : ofJson d.toJson = .ok d := by
  obtain ⟨hdraft, hlawful⟩ := isAccepted_iff.1 h
  exact ofJson_eq_ok_iff.2 ⟨_, hdraft, hlawful, d.toDescription_toDraft⟩

theorem IsAccepted.canonical_toJson (h : d.IsAccepted) : Canonical 6 d.toJson :=
  Description.canonical_toJson (isAccepted_iff.1 h).1.settings.choose_spec.2

theorem ofJson_eq_ok_of_toOption (h : (ofJson v).toOption = some d) : ofJson v = .ok d := by
  cases hd : ofJson v with
  | error faults => simp [hd, Except.toOption] at h
  | ok e => simpa [hd, Except.toOption] using h

theorem isAccepted_of_toOption (h : (ofJson d.toJson).toOption = some d) : d.IsAccepted :=
  ⟨d.toJson, ofJson_eq_ok_of_toOption h⟩

/-- A description with methods, variables of all sorts, a map and a transaction. -/
def sample : Description :=
  { starter "Sample" with
    description := some "Keeps \"deposits\"\tand pays them out"
    methods :=
      [⟨"deposit", some "Takes\nan amount", 1, []⟩,
       ⟨"pay", none, 7, [⟨"recipient", ⟨.address, false⟩⟩, ⟨"total", ⟨.amount, false⟩⟩]⟩]
    stateVariables :=
      [⟨"owner", .value ⟨.address, false⟩, some "Who is paid", false, true, none⟩,
       ⟨"label", .value ⟨.string, false⟩, none, true, false, some "a;b"⟩,
       ⟨"last", .struct [⟨"sender", ⟨.address, false⟩⟩, ⟨"total", ⟨.amount, false⟩⟩], none, false,
         false, none⟩]
    maps :=
      [⟨"balances", none, ⟨"kind", none, none, true, some 4⟩,
        ⟨"account", none, some (.scalar .address), false, none⟩,
        ⟨"state", none, some (.enumeration [⟨"OPEN", 0⟩, ⟨"CLOSED", 1⟩]), false, none⟩⟩]
    transactions := [⟨"payment", some "To the owner", .amount⟩] }

theorem isAccepted_sample : sample.IsAccepted := isAccepted_of_toOption (by decide +kernel)

theorem read_of_read_eq_ok {text : List UInt8} (h : d.IsAccepted)
    (htext : Json.read text = .ok d.toJson) : read text = .ok d := by
  rw [read, htext]
  simp only [h.ofJson_toJson]
  rfl

/-- What is read from a text is accepted. -/
theorem isAccepted_of_read_eq_ok {text : List UInt8} (h : read text = .ok d) : d.IsAccepted := by
  rw [read] at h
  cases htext : Json.read text with
  | error e =>
    rw [htext] at h
    cases h
  | ok v =>
    rw [htext] at h
    cases hv : ofJson v with
    | error faults =>
      simp only [hv] at h
      cases h
    | ok e =>
      simp only [hv] at h
      obtain rfl := Except.ok.inj h
      exact ⟨v, hv⟩

theorem IsAccepted.read_formattedBytes (h : d.IsAccepted) :
    read (Command.formattedBytes d) = .ok d :=
  read_of_read_eq_ok h (read_pretty h.canonical_toJson (by decide))

theorem IsAccepted.read_compact (h : d.IsAccepted) : read (Text.utf8 d.toJson.compact) = .ok d :=
  read_of_read_eq_ok h (Json.read_compact h.canonical_toJson (by decide))

end Description

/-- Both texts of an accepted description are read as the description. Hence formatting what has been
formatted changes nothing, and accepted descriptions with the same compact text are the same. -/
theorem texts_roundtrip {d : Description} (h : d.IsAccepted) :
    Description.read (Command.formattedBytes d) = .ok d ∧
      Description.read (Text.utf8 d.toJson.compact) = .ok d ∧
      (Description.read (Command.formattedBytes d)).map Command.formattedBytes =
        .ok (Command.formattedBytes d) ∧
      ∀ e : Description, e.IsAccepted →
        Text.utf8 e.toJson.compact = Text.utf8 d.toJson.compact → e = d := by
  refine ⟨h.read_formattedBytes, h.read_compact, ?_, ?_⟩
  · rw [h.read_formattedBytes]
    rfl
  · intro e he htext
    exact Except.ok.inj (by rw [← he.read_compact, htext, h.read_compact])

theorem texts_roundtrip_sample :
    Description.sample.IsAccepted ∧
      Description.read (Command.formattedBytes Description.sample) = .ok Description.sample ∧
      Description.read (Text.utf8 Description.sample.toJson.compact) = .ok Description.sample :=
  ⟨Description.isAccepted_sample, (texts_roundtrip Description.isAccepted_sample).1,
    (texts_roundtrip Description.isAccepted_sample).2.1⟩

end SmartContract
