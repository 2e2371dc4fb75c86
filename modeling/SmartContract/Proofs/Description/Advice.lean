import SmartContract.Description.Advice
import SmartContract.Proofs.Description.Accepted
import SmartContract.Proofs.Description.Causes

/-!
What advice is given on a description: that a map has no constant, that a value is not declared, and
that an array is a single word. No two pieces of advice are about the same place, and all are about
parts of the JSON value of the description.
-/

namespace SmartContract

open Json (Pointer)

/-- The thing has an array type. Advice calls it by the text. -/
inductive Description.IsArray (d : Description) : Named → String → Prop where
  | stateVariable {i : Nat} {v : Variable} {t : ValueType} (hv : d.stateVariables[i]? = some v)
      (ht : v.kind = .value t) (harray : t.isArray = true) : IsArray d (.stateVariable i) v.name
  | field {i j : Nat} {v : Variable} {f : TypedName} (hv : d.stateVariables[i]? = some v)
      (hf : v.fields[j]? = some f) (harray : f.type.isArray = true) :
      IsArray d (.field i j) (v.name ++ "." ++ f.name)
  | argument {i j : Nat} {m : Method} {a : TypedName} (hm : d.methods[i]? = some m)
      (ha : m.arguments[j]? = some a) (harray : a.type.isArray = true) :
      IsArray d (.argument i j) (m.name ++ "(" ++ a.name ++ ")")

/-- There is a reason in the description for the advice. -/
inductive Advice.IsDue (d : Description) : Advice → Prop where
  | noMapConstant {i : Nat} {m : KeyMap} (hm : d.maps[i]? = some m)
      (hvalue : m.key1.value = none) : IsDue d (.noMapConstant i m)
  | unusedValue {i : Nat} {v : Variable} {s : String} (hv : d.stateVariables[i]? = some v)
      (hs : v.value = some s) (hliteral : v.literal? = none) : IsDue d (.unusedValue i v)
  | arrayAsWord {n : Named} {what : String} (h : d.IsArray n what) :
      IsDue d (.arrayAsWord n.holder what)

variable {d : Description} {a : Advice} {i : Nat}

/-! ### The advice on the parts of a description -/

theorem KeyMap.mem_advice_iff {m : KeyMap} :
    a ∈ m.advice i ↔ m.key1.value = none ∧ a = .noMapConstant i m := by
  simp [advice]

theorem mem_filterMap_array_iff (xs : List TypedName) (n : Nat → Named) (what : TypedName → String) :
    (a ∈ xs.zipIdx.filterMap fun x =>
      if x.1.type.isArray then some (Advice.arrayAsWord (n x.2).holder (what x.1)) else none) ↔
      ∃ j x, xs[j]? = some x ∧ x.type.isArray = true ∧
        a = .arrayAsWord (n j).holder (what x) := by
  simp only [List.mem_filterMap, Prod.exists, List.mem_zipIdx_iff_getElem?,
    Option.ite_none_right_eq_some, Option.some.injEq]
  constructor
  · rintro ⟨x, j, hx, harray, rfl⟩
    exact ⟨j, x, hx, harray, rfl⟩
  · rintro ⟨j, x, hx, harray, rfl⟩
    exact ⟨x, j, hx, harray, rfl⟩

theorem Method.mem_advice_iff {m : Method} : a ∈ m.advice i ↔
    ∃ j x, m.arguments[j]? = some x ∧ x.type.isArray = true ∧
      a = .arrayAsWord (Named.argument i j).holder (m.name ++ "(" ++ x.name ++ ")") :=
  mem_filterMap_array_iff m.arguments (.argument i) fun x => m.name ++ "(" ++ x.name ++ ")"

theorem Variable.mem_advice_iff {v : Variable} : a ∈ v.advice i ↔
    (∃ s, v.value = some s ∧ v.literal? = none ∧ a = .unusedValue i v) ∨
      (∃ t, v.kind = .value t ∧ t.isArray = true ∧
        a = .arrayAsWord (Named.stateVariable i).holder v.name) ∨
      ∃ j f, v.fields[j]? = some f ∧ f.type.isArray = true ∧
        a = .arrayAsWord (Named.field i j).holder (v.name ++ "." ++ f.name) := by
  have hunused : a ∈ (if v.value.isSome && v.literal?.isNone then [.unusedValue i v] else []) ↔
      ∃ s, v.value = some s ∧ v.literal? = none ∧ a = .unusedValue i v := by
    rw [List.mem_ite_nil_right, List.mem_singleton, Bool.and_eq_true, Option.isSome_iff_exists,
      Option.isNone_iff_eq_none, and_assoc, exists_and_right]
  rw [advice, List.mem_append, hunused]
  refine or_congr_right ?_
  cases hkind : v.kind with
  | value t => simp [fields, hkind]
  | struct fields =>
    simp only [Variable.fields, hkind, reduceCtorEq, false_and, exists_false, false_or]
    exact mem_filterMap_array_iff fields (.field i) fun f => v.name ++ "." ++ f.name

/-- Advice is given exactly where there is a reason. -/
theorem Description.mem_advice_iff : a ∈ d.advice ↔ a.IsDue d := by
  simp only [advice, List.mem_append, List.mem_flatMap, Prod.exists, List.mem_zipIdx_iff_getElem?,
    KeyMap.mem_advice_iff, Variable.mem_advice_iff, Method.mem_advice_iff]
  constructor
  · rintro ((⟨m, i, hm, hvalue, rfl⟩ | ⟨v, i, hv, h⟩) | ⟨m, i, hm, j, x, hx, harray, rfl⟩)
    · exact .noMapConstant hm hvalue
    · obtain ⟨s, hs, hliteral, rfl⟩ | ⟨t, ht, harray, rfl⟩ | ⟨j, f, hf, harray, rfl⟩ := h
      · exact .unusedValue hv hs hliteral
      · exact .arrayAsWord (.stateVariable hv ht harray)
      · exact .arrayAsWord (.field hv hf harray)
    · exact .arrayAsWord (.argument hm hx harray)
  · intro h
    cases h with
    | noMapConstant hm hvalue => exact .inl (.inl ⟨_, _, hm, hvalue, rfl⟩)
    | unusedValue hv hs hliteral =>
      exact .inl (.inr ⟨_, _, hv, .inl ⟨_, hs, hliteral, rfl⟩⟩)
    | arrayAsWord h =>
      cases h with
      | stateVariable hv ht harray =>
        exact .inl (.inr ⟨_, _, hv, .inr (.inl ⟨_, ht, harray, rfl⟩)⟩)
      | field hv hf harray =>
        exact .inl (.inr ⟨_, _, hv, .inr (.inr ⟨_, _, hf, harray, rfl⟩)⟩)
      | argument hm ha harray => exact .inr ⟨_, _, hm, _, _, ha, harray, rfl⟩

/-! ### The places of advice -/

namespace Advice

/-- Nothing is advised twice about the same place. -/
def AreApart (advice : List Advice) : Prop := advice.Pairwise fun a b => a.pointer ≠ b.pointer

theorem apart_of_prefix {p q : Pointer} {k l : String} {i j : Nat}
    (hp : [.member k, .item i] <+: p) (hq : [.member l, .item j] <+: q) (hne : k ≠ l ∨ i ≠ j) :
    p ≠ q := by
  obtain ⟨r, rfl⟩ := hp
  obtain ⟨s, rfl⟩ := hq
  intro heq
  simp only [List.cons_append, List.cons.injEq, Json.Step.member.injEq, Json.Step.item.injEq] at heq
  rcases hne with hne | hne
  · exact hne heq.1
  · exact hne heq.2.1

/-- What is advised on the items of a list, each by itself, is apart. -/
theorem areApart_flatMap {α : Type} (xs : List α) {f : α → Nat → List Advice} (k : String)
    (hf : ∀ x i, AreApart (f x i))
    (hin : ∀ x i, ∀ a ∈ f x i, [.member k, .item i] <+: a.pointer) :
    AreApart (xs.zipIdx.flatMap fun x => f x.1 x.2) := by
  refine List.pairwise_flatMap.2 ⟨fun x _ => hf x.1 x.2, (pairwise_zipIdx xs).imp ?_⟩
  intro x y hlt a ha b hb
  exact apart_of_prefix (hin x.1 x.2 a ha) (hin y.1 y.2 b hb) (.inr (Nat.ne_of_lt hlt))

theorem exists_prefix_of_mem_flatMap {α : Type} (xs : List α) {f : α → Nat → List Advice}
    {k : String} (hin : ∀ x i, ∀ a ∈ f x i, [.member k, .item i] <+: a.pointer) :
    ∀ a ∈ xs.zipIdx.flatMap fun x => f x.1 x.2, ∃ i, [.member k, .item i] <+: a.pointer := by
  intro a ha
  obtain ⟨x, -, ha⟩ := List.mem_flatMap.1 ha
  exact ⟨x.2, hin x.1 x.2 a ha⟩

theorem areApart_filterMap {n : Nat → Named} (hn : ∀ j k, n j = n k → j = k) (xs : List TypedName)
    (what : TypedName → String) :
    AreApart (xs.zipIdx.filterMap fun x =>
      if x.1.type.isArray then some (arrayAsWord (n x.2).holder (what x.1)) else none) := by
  refine (pairwise_zipIdx xs).filterMap _ fun x y hlt a ha b hb => ?_
  obtain ⟨-, ⟨⟩⟩ := Option.ite_none_right_eq_some.1 ha
  obtain ⟨-, ⟨⟩⟩ := Option.ite_none_right_eq_some.1 hb
  intro heq
  exact Nat.ne_of_lt hlt (hn _ _ (Named.holder_injective (List.append_inj_left' heq rfl)))

end Advice

open Advice (AreApart)

theorem KeyMap.areApart_advice (m : KeyMap) (i : Nat) : AreApart (m.advice i) := by
  rw [advice]
  split
  · exact List.pairwise_singleton ..
  · exact .nil

theorem KeyMap.prefix_of_mem_advice (m : KeyMap) (i : Nat) :
    ∀ a ∈ m.advice i, [.member "maps", .item i] <+: a.pointer := by
  intro a ha
  obtain ⟨-, rfl⟩ := KeyMap.mem_advice_iff.1 ha
  exact ⟨_, rfl⟩

theorem Variable.areApart_advice (v : Variable) (i : Nat) : AreApart (v.advice i) := by
  refine List.pairwise_append.2 ⟨?_, ?_, ?_⟩
  · split
    · exact List.pairwise_singleton ..
    · exact .nil
  · split
    · split
      · exact List.pairwise_singleton ..
      · exact .nil
    · exact Advice.areApart_filterMap (fun _ _ h => (Named.field.inj h).2) _ fun f =>
        v.name ++ "." ++ f.name
  · intro a ha b hb heq
    obtain ⟨-, rfl⟩ : _ ∧ a = .unusedValue i v := by
      rwa [List.mem_ite_nil_right, List.mem_singleton] at ha
    obtain ⟨holder, what, rfl⟩ : ∃ holder what, b = .arrayAsWord holder what := by
      split at hb
      · obtain ⟨-, hb⟩ := List.mem_ite_nil_right.1 hb
        exact ⟨_, _, List.mem_singleton.1 hb⟩
      · obtain ⟨_, -, hb⟩ := List.mem_filterMap.1 hb
        exact ⟨_, _, (Option.some.inj (Option.ite_none_right_eq_some.1 hb).2).symm⟩
    have hlast : [Json.Step.member "value"] = [.member "type"] := List.append_inj_right' heq rfl
    exact absurd hlast (by decide)

theorem Variable.prefix_of_mem_advice (v : Variable) (i : Nat) :
    ∀ a ∈ v.advice i, [.member "variables", .item i] <+: a.pointer := by
  intro a ha
  obtain ⟨s, -, -, rfl⟩ | ⟨t, -, -, rfl⟩ | ⟨j, f, -, -, rfl⟩ := Variable.mem_advice_iff.1 ha
  all_goals exact ⟨_, rfl⟩

theorem Method.areApart_advice (m : Method) (i : Nat) : AreApart (m.advice i) :=
  Advice.areApart_filterMap (fun _ _ h => (Named.argument.inj h).2) m.arguments fun x =>
    m.name ++ "(" ++ x.name ++ ")"

theorem Method.prefix_of_mem_advice (m : Method) (i : Nat) :
    ∀ a ∈ m.advice i, [.member "methods", .item i] <+: a.pointer := by
  intro a ha
  obtain ⟨j, x, -, -, rfl⟩ := Method.mem_advice_iff.1 ha
  exact ⟨_, rfl⟩

namespace Description

/-- Nothing is advised twice about the same place of a description. -/
theorem areApart_advice (d : Description) : AreApart d.advice := by
  have hmaps := Advice.exists_prefix_of_mem_flatMap d.maps KeyMap.prefix_of_mem_advice
  have hvariables :=
    Advice.exists_prefix_of_mem_flatMap d.stateVariables Variable.prefix_of_mem_advice
  have hmethods := Advice.exists_prefix_of_mem_flatMap d.methods Method.prefix_of_mem_advice
  refine List.pairwise_append.2 ⟨List.pairwise_append.2 ⟨?_, ?_, ?_⟩, ?_, ?_⟩
  · exact Advice.areApart_flatMap d.maps "maps" KeyMap.areApart_advice KeyMap.prefix_of_mem_advice
  · exact Advice.areApart_flatMap d.stateVariables "variables" Variable.areApart_advice
      Variable.prefix_of_mem_advice
  · intro a ha b hb
    obtain ⟨i, hi⟩ := hmaps a ha
    obtain ⟨j, hj⟩ := hvariables b hb
    exact Advice.apart_of_prefix hi hj (.inl (by decide))
  · exact Advice.areApart_flatMap d.methods "methods" Method.areApart_advice
      Method.prefix_of_mem_advice
  · intro a ha b hb
    obtain ⟨j, hj⟩ := hmethods b hb
    rcases List.mem_append.1 ha with ha | ha
    · obtain ⟨i, hi⟩ := hmaps a ha
      exact Advice.apart_of_prefix hi hj (.inl (by decide))
    · obtain ⟨i, hi⟩ := hvariables a ha
      exact Advice.apart_of_prefix hi hj (.inl (by decide))

end Description

/-! ### Places as they are written -/

theorem Advice.IsDue.alternates (h : a.IsDue d) : a.pointer.Alternates := by
  cases h with
  | noMapConstant => exact .item _ _ (.member _)
  | unusedValue => exact .item _ _ (.member _)
  | arrayAsWord h =>
    cases h with
    | stateVariable => exact .item _ _ (.member _)
    | field | argument => exact .item _ _ (.item _ _ (.member _))

/-- The places of the advice on a description are different as they are written. -/
theorem Description.nodup_pointers_advice (d : Description) :
    (d.advice.map (·.pointer.text)).Nodup := by
  refine List.pairwise_map.2 (d.areApart_advice.imp_of_mem ?_)
  intro a b ha hb hne heq
  exact hne ((Description.mem_advice_iff.1 ha).alternates.eq_of_text_eq
    (Description.mem_advice_iff.1 hb).alternates heq)

/-! ### The parts that advice is about -/

theorem getElem?_map_of_eq_some {α β : Type} {xs : List α} {x : α} (f : α → β)
    (h : xs[i]? = some x) : (xs.map f)[i]? = some (f x) := by
  rw [List.getElem?_map, h, Option.map_some]

namespace Description.IsAccepted

theorem resolve?_map (h : d.IsAccepted) {m : KeyMap} (hm : d.maps[i]? = some m) :
    ∃ w, Pointer.resolve? d.toJson (Named.map i).holder = some w ∧ Json.IsMap w m.toDraft :=
  h.isDraft.maps.resolve?_item (p := []) rfl (getElem?_map_of_eq_some KeyMap.toDraft hm)

theorem resolve?_stateVariable (h : d.IsAccepted) {v : Variable}
    (hv : d.stateVariables[i]? = some v) :
    ∃ w, Pointer.resolve? d.toJson (Named.stateVariable i).holder = some w ∧
      Json.IsVariable w v.toDraft :=
  h.isDraft.stateVariables.resolve?_item (p := []) rfl (getElem?_map_of_eq_some Variable.toDraft hv)

theorem resolve?_method (h : d.IsAccepted) {m : Method} (hm : d.methods[i]? = some m) :
    ∃ w, Pointer.resolve? d.toJson (Named.method i).holder = some w ∧ Json.IsMethod w m.toDraft :=
  h.isDraft.methods.resolve?_item (p := []) rfl (getElem?_map_of_eq_some Method.toDraft hm)

/-- A thing with an array type has a type in the JSON value of the description. -/
theorem hasPart_of_isArray (h : d.IsAccepted) {n : Named} {what : String} (hn : d.IsArray n what) :
    d.toJson.HasPart (n.holder.member "type") := by
  cases hn with
  | stateVariable hv _ _ =>
    obtain ⟨w, hw, hvariable⟩ := h.resolve?_stateVariable hv
    exact hvariable.type.hasPart hw
  | @field i j v f hv hf _ =>
    obtain ⟨w, hw, hvariable⟩ := h.resolve?_stateVariable hv
    have hfield : (v.toDraft.fields.getD [])[j]? = some f.toField := by
      obtain ⟨name, kind, description, constant, initializable, value⟩ := v
      cases kind with
      | value type => cases hf
      | struct fields => exact getElem?_map_of_eq_some TypedName.toField hf
    obtain ⟨u, hu, hdeclared⟩ := hvariable.fields.resolve?_item hw hfield
    exact hdeclared.type.hasPart hu
  | argument hm ha _ =>
    obtain ⟨w, hw, hmethod⟩ := h.resolve?_method hm
    obtain ⟨u, hu, hargument⟩ := hmethod.arguments.resolve?_item hw ha
    exact hargument.type.hasPart hu

/-- Advice is about a part of the JSON value of the description. -/
theorem hasPart_of_isDue (h : d.IsAccepted) (ha : a.IsDue d) : d.toJson.HasPart a.pointer := by
  cases ha with
  | noMapConstant hm _ =>
    obtain ⟨w, hw, hmap⟩ := h.resolve?_map hm
    exact hmap.key1.hasPart hw
  | @unusedValue i v s hv hs _ =>
    obtain ⟨w, hw, hvariable⟩ := h.resolve?_stateVariable hv
    have hvalue : v.toDraft.value = some s := hs
    have hthere := hvariable.value
    rw [hvalue] at hthere
    exact Json.Has.hasPart hthere hw
  | arrayAsWord h' => exact h.hasPart_of_isArray h'

end Description.IsAccepted

end SmartContract
