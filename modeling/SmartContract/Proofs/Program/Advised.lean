import SmartContract.Proofs.Description.Advice
import SmartContract.Proofs.Program.Outline

/-!
Advice and the program. Whatever is advised on an accepted description is left out of the text of its
program, and whatever can be advised and is not stands there: the constants for the first keys of
maps and the values of variables.
-/

namespace SmartContract

open Json (Pointer)

/-- The text that the variable is given. -/
def Literal.value : Literal → String
  | plain s | quoted s => s

namespace Diagnostic

/-- The pointer to where the finding is, if it is in a document. -/
def place? (a : Diagnostic) : Option String :=
  match a.location with
  | some (.document pointer) => some pointer
  | _ => none

/-- Is it a finding with the code at the place of a document? -/
def isAt (code : String) (p : Pointer) (a : Diagnostic) : Bool :=
  a.code = code && a.place? = some p.text

end Diagnostic

theorem Advice.isAt_diagnostic (x : Advice) : x.diagnostic.isAt x.code x.pointer = true := by
  simp [Diagnostic.isAt, Diagnostic.place?, diagnostic]

/-- The diagnostics say what the lines of a program leave out of the description. -/
structure Description.IsAdvised (d : Description) (ls : List Line) (ds : List Diagnostic) : Prop where
  /-- Either the first key of a map has a value, for which there is one constant, or it is said that
  there is none. -/
  maps : ∀ (i : Nat) (m : KeyMap), d.maps[i]? = some m →
    Xor (∃ n, m.key1.value = some n ∧
        Program.under Line.definition? ls (Name.mapConstant m.name m.key1.name) = [n])
      (∃ a ∈ ds, a.isAt "SCD-ADV-0001" (Named.item i .key1).holder)
  /-- Where there is no value for the key, a constant of that name is one for something else. -/
  others : ∀ (i : Nat) (m : KeyMap), d.maps[i]? = some m → m.key1.value = none →
    ∀ n ∈ Program.under Line.definition? ls (Name.mapConstant m.name m.key1.name),
      (∃ k ∈ d.methods, k.constant = Name.mapConstant m.name m.key1.name ∧ k.code = n) ∨
        ∃ k ∈ d.maps, Name.mapConstant k.name k.key1.name = Name.mapConstant m.name m.key1.name ∧
          k.key1.value = some n
  /-- Either a variable is declared with the value that it has, or it is said that it is not. -/
  values : ∀ (i : Nat) (v : Variable) (s : String), d.stateVariables[i]? = some v → v.value = some s →
    Xor (∃ l : Literal, Program.under Line.value? ls v.name = [some l] ∧ l.value = s)
      (∃ a ∈ ds, a.isAt "SCD-ADV-0002" ((Named.stateVariable i).holder.member "value"))
  /-- It is said once of every array that it is a single word. -/
  arrays : ∀ n what, d.IsArray n what →
    ds.countP (Diagnostic.isAt "SCD-ADV-0003" (n.holder.member "type")) = 1
  /-- Nothing else is said. -/
  only : ∀ a ∈ ds,
    (∃ (i : Nat) (m : KeyMap), d.maps[i]? = some m ∧ a.isAt "SCD-ADV-0001" (Named.item i .key1).holder) ∨
      (∃ (i : Nat) (v : Variable) (s : String), d.stateVariables[i]? = some v ∧ v.value = some s ∧
        a.isAt "SCD-ADV-0002" ((Named.stateVariable i).holder.member "value")) ∨
      ∃ n what, d.IsArray n what ∧ a.isAt "SCD-ADV-0003" (n.holder.member "type")
  /-- Nothing is said twice about one place. -/
  distinct : (ds.map (·.place?)).Nodup
  warnings : ∀ a ∈ ds, a.severity = .warning
  /-- What something is said about is part of the JSON value of the description. -/
  parts : ∀ a ∈ ds, ∃ p : Pointer, a.place? = some p.text ∧ d.toJson.HasPart p

/-! ### Advice as it is reported -/

variable {d : Description}

namespace Command

theorem mem_advice_iff {a : Diagnostic} :
    a ∈ advice d ↔ ∃ x : Advice, x.IsDue d ∧ x.diagnostic = a := by
  simp only [advice, List.mem_map, Description.mem_advice_iff]

theorem nodup_places_advice (d : Description) : ((advice d).map (·.place?)).Nodup := by
  have hplaces : (advice d).map (·.place?) = (d.advice.map (·.pointer.text)).map some := by
    rw [advice, List.map_map, List.map_map]
    rfl
  rw [hplaces]
  exact d.nodup_pointers_advice.map (Option.some_injective _)

/-- A finding of a sort at a place is advice of that sort on that place. -/
theorem exists_isAt_iff {code : String} {p : Pointer} (hp : p.Alternates) :
    (∃ a ∈ advice d, a.isAt code p) ↔ ∃ x : Advice, x.IsDue d ∧ x.code = code ∧ x.pointer = p := by
  simp only [mem_advice_iff, Diagnostic.isAt, Bool.and_eq_true, decide_eq_true_eq]
  constructor
  · rintro ⟨_, ⟨x, hx, rfl⟩, hcode, hplace⟩
    exact ⟨x, hx, hcode, hx.alternates.eq_of_text_eq hp (Option.some.inj hplace)⟩
  · rintro ⟨x, hx, hcode, rfl⟩
    exact ⟨_, ⟨x, hx, rfl⟩, hcode, rfl⟩

theorem isAt_noMapConstant_iff {i : Nat} :
    (∃ a ∈ advice d, a.isAt "SCD-ADV-0001" (Named.item i .key1).holder) ↔
      ∃ m, d.maps[i]? = some m ∧ m.key1.value = none := by
  have halternates : (Named.item i .key1).holder.Alternates := .item _ _ (.member _)
  rw [exists_isAt_iff halternates]
  constructor
  · rintro ⟨x, hx, hcode, hpointer⟩
    cases hx with
    | @noMapConstant j m hm hvalue =>
      obtain rfl : j = i := (Named.item.inj (Named.holder_injective hpointer)).1
      exact ⟨m, hm, hvalue⟩
    | unusedValue | arrayAsWord => simp [Advice.code] at hcode
  · rintro ⟨m, hm, hvalue⟩
    exact ⟨_, .noMapConstant hm hvalue, rfl, rfl⟩

theorem isAt_unusedValue_iff {i : Nat} :
    (∃ a ∈ advice d, a.isAt "SCD-ADV-0002" ((Named.stateVariable i).holder.member "value")) ↔
      ∃ v s, d.stateVariables[i]? = some v ∧ v.value = some s ∧ v.literal? = none := by
  have halternates : ((Named.stateVariable i).holder.member "value").Alternates :=
    .item _ _ (.member _)
  rw [exists_isAt_iff halternates]
  constructor
  · rintro ⟨x, hx, hcode, hpointer⟩
    cases hx with
    | @unusedValue j v s hv hs hliteral =>
      have hholder : (Named.stateVariable j).holder = (Named.stateVariable i).holder :=
        List.append_inj_left' hpointer rfl
      obtain rfl : j = i := Named.stateVariable.inj (Named.holder_injective hholder)
      exact ⟨v, s, hv, hs, hliteral⟩
    | noMapConstant | arrayAsWord => simp [Advice.code] at hcode
  · rintro ⟨v, s, hv, hs, hliteral⟩
    exact ⟨_, .unusedValue hv hs hliteral, rfl, rfl⟩

end Command

/-- Of findings in different places one only is where a given one is. -/
theorem Diagnostic.countP_isAt_eq_one {ds : List Diagnostic} {a : Diagnostic} {code : String}
    {p : Pointer} (hds : (ds.map (·.place?)).Nodup) (ha : a ∈ ds) (h : a.isAt code p = true) :
    ds.countP (isAt code p) = 1 := by
  apply Nat.le_antisymm
  · have hplace : ds.countP (·.place? = a.place?) = 1 := by
      rw [List.countP_eq_length_filter, Program.filter_eq_singleton hds ha]
      rfl
    rw [← hplace]
    refine List.countP_mono_left fun b _ hb => ?_
    simp only [isAt, Bool.and_eq_true, decide_eq_true_eq] at h hb ⊢
    rw [hb.2, h.2]
  · exact List.countP_pos_iff.2 ⟨a, ha, h⟩

namespace Description

/-- The constant for the first key of a map with a value is defined once. -/
theorem IsAccepted.under_mapConstant (h : d.IsAccepted) {m : KeyMap} (hm : m ∈ d.maps) {n : Nat}
    (hn : m.key1.value = some n) :
    Program.under Line.definition? d.program (Name.mapConstant m.name m.key1.name) = [n] := by
  apply h.under_of_mem_definitions (c := (Name.mapConstant m.name m.key1.name, n))
  rw [d.definitions_program]
  exact List.mem_append_right _ (List.mem_filterMap.2 ⟨m, hm, by rw [hn, Option.map_some]⟩)

theorem mem_under_definition {name : String} {n : Nat}
    (hn : n ∈ Program.under Line.definition? d.program name) :
    (∃ k ∈ d.methods, k.constant = name ∧ k.code = n) ∨
      ∃ k ∈ d.maps, Name.mapConstant k.name k.key1.name = name ∧ k.key1.value = some n := by
  rw [Program.under, List.mem_map] at hn
  obtain ⟨c, hc, rfl⟩ := hn
  obtain ⟨hc, hname⟩ := List.mem_filter.1 hc
  rw [d.definitions_program, List.mem_append, List.mem_map, List.mem_filterMap] at hc
  obtain ⟨k, hk, rfl⟩ | ⟨k, hk, hc⟩ := hc
  · exact .inl ⟨k, hk, of_decide_eq_true hname, rfl⟩
  · obtain ⟨value, hvalue, rfl⟩ := Option.map_eq_some_iff.1 hc
    exact .inr ⟨k, hk, of_decide_eq_true hname, hvalue⟩

/-! ### Constants and values -/

/-- A map has its constant unless the value of the first key is missing. -/
theorem IsAccepted.map_advised (h : d.IsAccepted) {i : Nat} {m : KeyMap}
    (hm : d.maps[i]? = some m) :
    Xor (∃ n, m.key1.value = some n ∧
        Program.under Line.definition? d.program (Name.mapConstant m.name m.key1.name) = [n])
      (∃ a ∈ Command.advice d, a.isAt "SCD-ADV-0001" (Named.item i .key1).holder) := by
  rw [Command.isAt_noMapConstant_iff]
  cases hvalue : m.key1.value with
  | none =>
    refine .inr ⟨⟨m, hm, hvalue⟩, ?_⟩
    rintro ⟨n, hn, -⟩
    cases hn
  | some n =>
    refine .inl ⟨⟨n, rfl, h.under_mapConstant (List.mem_of_getElem? hm) hvalue⟩, ?_⟩
    rintro ⟨k, hk, hnone⟩
    obtain rfl : m = k := Option.some.inj (hm.symm.trans hk)
    rw [hvalue] at hnone
    cases hnone

theorem IsAccepted.under_value_of_literal? (h : d.IsAccepted) {v : Variable}
    (hv : v ∈ d.stateVariables) {s : String} (hs : v.literal? = some s) :
    ∃ l : Literal, Program.under Line.value? d.program v.name = [some l] ∧ l.value = s := by
  obtain ⟨t, hkind, -⟩ := h.exists_admits_of_literal? hv hs
  have hstruct : v.isStruct = false := by rw [Variable.isStruct, hkind]
  rw [h.under_value hv, hstruct, Variable.initial?, hs, Option.map_some]
  refine ⟨_, rfl, ?_⟩
  split <;> rfl

theorem IsAccepted.under_value_of_literal?_eq_none (h : d.IsAccepted) {v : Variable}
    (hv : v ∈ d.stateVariables) (hs : v.literal? = none) (l : Literal) :
    Program.under Line.value? d.program v.name ≠ [some l] := by
  rw [h.under_value hv, Variable.initial?, hs, Option.map_none]
  split <;> simp

/-- A variable is declared with its value unless that is no literal. -/
theorem IsAccepted.value_advised (h : d.IsAccepted) {i : Nat} {v : Variable} {s : String}
    (hv : d.stateVariables[i]? = some v) (hs : v.value = some s) :
    Xor (∃ l : Literal, Program.under Line.value? d.program v.name = [some l] ∧ l.value = s)
      (∃ a ∈ Command.advice d,
        a.isAt "SCD-ADV-0002" ((Named.stateVariable i).holder.member "value")) := by
  have hmem := List.mem_of_getElem? hv
  rw [Command.isAt_unusedValue_iff]
  cases hliteral : v.literal? with
  | none =>
    refine .inr ⟨⟨v, s, hv, hs, hliteral⟩, ?_⟩
    rintro ⟨l, hl, -⟩
    exact h.under_value_of_literal?_eq_none hmem hliteral l hl
  | some t =>
    have hsame : v.literal? = some s := by
      rw [Variable.literal?] at hliteral ⊢
      split at hliteral
      · rw [if_pos ‹_›, hs]
      · cases hliteral
    refine .inl ⟨h.under_value_of_literal? hmem hsame, ?_⟩
    rintro ⟨w, -, hw, -, hnone⟩
    obtain rfl : v = w := Option.some.inj (hv.symm.trans hw)
    rw [hliteral] at hnone
    cases hnone

end Description

/-- The advice on an accepted description says what the text of its program leaves out. -/
theorem advised_as_left_out {d : Description} (h : d.IsAccepted) :
    ∃ ls, readProgram? d.code = some ls ∧ d.IsAdvised ls (Command.advice d) := by
  refine ⟨d.program, h.readProgram?_code, ?_⟩
  constructor
  case maps => exact fun i m hm => h.map_advised hm
  case others => exact fun i m _ _ n hn => Description.mem_under_definition hn
  case values => exact fun i v s hv hs => h.value_advised hv hs
  case arrays =>
    intro n what hn
    have hmem := Command.mem_advice_iff.2 ⟨_, .arrayAsWord hn, rfl⟩
    exact Diagnostic.countP_isAt_eq_one (Command.nodup_places_advice d) hmem
      (Advice.isAt_diagnostic (.arrayAsWord n.holder what))
  case only =>
    intro a ha
    obtain ⟨x, hx, rfl⟩ := Command.mem_advice_iff.1 ha
    cases hx with
    | noMapConstant hm _ => exact .inl ⟨_, _, hm, Advice.isAt_diagnostic (.noMapConstant _ _)⟩
    | unusedValue hv hs _ =>
      exact .inr (.inl ⟨_, _, _, hv, hs, Advice.isAt_diagnostic (.unusedValue _ _)⟩)
    | arrayAsWord hn =>
      exact .inr (.inr ⟨_, _, hn, Advice.isAt_diagnostic (.arrayAsWord _ _)⟩)
  case distinct => exact Command.nodup_places_advice d
  case warnings =>
    intro a ha
    obtain ⟨x, -, rfl⟩ := Command.mem_advice_iff.1 ha
    rfl
  case parts =>
    intro a ha
    obtain ⟨x, hx, rfl⟩ := Command.mem_advice_iff.1 ha
    exact ⟨x.pointer, rfl, h.hasPart_of_isDue hx⟩

/-- A description of which the program leaves out a constant and a value. It has an array of each
sort, and the constant of the one map would be called like that of the other. -/
def Description.shortened : Description :=
  { starter "Sample" with
    methods := [⟨"pay", none, 7, [⟨"recipients", ⟨.address, true⟩⟩]⟩]
    stateVariables :=
      [⟨"fee", .value ⟨.amount, false⟩, none, true, false, some "5"⟩,
       ⟨"rates", .value ⟨.long, true⟩, none, false, false, some "7"⟩,
       ⟨"last", .struct [⟨"sender", ⟨.address, false⟩⟩, ⟨"totals", ⟨.amount, true⟩⟩], none, false,
          false, none⟩]
    maps :=
      [⟨"a_b", none, ⟨"c", none, none, true, some 5⟩, ⟨"k", none, none, false, none⟩,
          ⟨"v", none, none, false, none⟩⟩,
       ⟨"a", none, ⟨"b_c", none, none, false, none⟩, ⟨"k", none, none, false, none⟩,
          ⟨"v", none, none, false, none⟩⟩] }

theorem advised_as_left_out_shortened :
    Description.shortened.IsAccepted ∧
      (Command.advice Description.shortened).map (fun a => (a.code, a.place?)) =
        [("SCD-ADV-0001", some "/maps/1/key1"), ("SCD-ADV-0002", some "/variables/1/value"),
         ("SCD-ADV-0003", some "/variables/1/type"),
         ("SCD-ADV-0003", some "/variables/2/fields/1/type"),
         ("SCD-ADV-0003", some "/methods/0/args/0/type")] ∧
      ∃ ls, readProgram? Description.shortened.code = some ls ∧
        Description.shortened.IsAdvised ls (Command.advice Description.shortened) := by
  have haccepted : Description.shortened.IsAccepted :=
    Description.isAccepted_of_toOption (by decide +kernel)
  exact ⟨haccepted, by decide +kernel, advised_as_left_out haccepted⟩

end SmartContract
