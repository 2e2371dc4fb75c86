import Mathlib.Data.List.Forall2
import SmartContract.Json.Shape.Basic

/-!
Values that spell something: a relation between JSON values and the things that they stand for is
carried from the members of an object and from the items of an array to the whole. A value has the
shape of a record, or of a list, exactly when it spells one.
-/

namespace SmartContract.Json

variable {α : Type} {R : Json → α → Prop} {s : Shape} {v : Json} {key : String}

/-- The value is an object whose members have the given names only. -/
def IsRecord (names : List String) (v : Json) : Prop :=
  ∃ ms, v = .object ms ∧ ∀ m ∈ ms, m.1 ∈ names

/-- The value has a member of the given name that spells `x`. -/
def Has (v : Json) (key : String) (R : Json → α → Prop) (x : α) : Prop :=
  ∃ w, v.get? key = some w ∧ R w x

/-- The value has a member of the given name that spells the thing, or none if there is none. -/
def MayHave (v : Json) (key : String) (R : Json → α → Prop) : Option α → Prop
  | none => v.get? key = none
  | some x => v.Has key R x

/-- The value is an array whose items spell the things of a list. -/
def Lists (R : Json → α → Prop) (v : Json) (xs : List α) : Prop :=
  ∃ ws, v = .array ws ∧ List.Forall₂ R ws xs

/-! ### Members -/

theorem mem_names_iff {ms : List (String × Json)} {key : String} :
    key ∈ ms.map (·.1) ↔ ∃ w, (Json.object ms).get? key = some w := by
  rw [get?, ← Option.isSome_iff_exists, List.lookup_isSome_iff, List.mem_map]
  simp only [beq_iff_eq, eq_comm (a := key)]

/-- The member that a record has under the name of `m` has its shape, and it is there if it is one of
those needed. -/
def MemberHolds (needed : List String) (v : Json) (m : String × Shape) : Prop :=
  (m.1 ∈ needed → ∃ w, v.get? m.1 = some w) ∧ ∀ w, v.get? m.1 = some w → m.2.Holds w

variable {needed : List String}

/-- A member that is needed has its shape exactly when it spells something. -/
theorem memberHolds_iff_exists_has (h : ∀ w, s.Holds w ↔ ∃ x, R w x) (hkey : key ∈ needed) :
    MemberHolds needed v (key, s) ↔ ∃ x, v.Has key R x := by
  constructor
  · rintro ⟨hthere, hs⟩
    obtain ⟨w, hw⟩ := hthere hkey
    obtain ⟨x, hx⟩ := (h w).1 (hs w hw)
    exact ⟨x, w, hw, hx⟩
  · rintro ⟨x, w, hw, hx⟩
    refine ⟨fun _ => ⟨w, hw⟩, fun u hu => ?_⟩
    rw [hw, Option.some.injEq] at hu
    exact (h u).2 ⟨x, hu ▸ hx⟩

/-- A member that is not needed has its shape exactly when it is not there or spells something. -/
theorem memberHolds_iff_exists_mayHave (h : ∀ w, s.Holds w ↔ ∃ x, R w x) (hkey : key ∉ needed) :
    MemberHolds needed v (key, s) ↔ ∃ x, v.MayHave key R x := by
  constructor
  · rintro ⟨-, hs⟩
    cases hw : v.get? key with
    | none => exact ⟨none, hw⟩
    | some w =>
      obtain ⟨x, hx⟩ := (h w).1 (hs w hw)
      exact ⟨some x, w, hw, hx⟩
  · rintro ⟨x, hx⟩
    refine ⟨fun hmem => absurd hmem hkey, fun u hu => ?_⟩
    cases x with
    | none => rw [MayHave, hu] at hx; cases hx
    | some x =>
      obtain ⟨w, hw, hx⟩ := hx
      rw [hw, Option.some.injEq] at hu
      exact (h u).2 ⟨x, hu ▸ hx⟩

/-! ### Records and lists -/

theorem holds_all_iff {t : Shape} {rest : List Shape} :
    (Shape.all t rest).Holds v ↔ t.Holds v ∧ ∀ u ∈ rest, u.Holds v := by
  induction rest generalizing t with
  | nil => simp [Shape.all]
  | cons u rest ih => simp [Shape.all, Shape.Holds, ih]

theorem holds_kind_object_iff : (Shape.kind .object).Holds v ↔ ∃ ms, v = .object ms := by
  cases v <;> simp [Shape.Holds, Kind.includes]

theorem holds_kind_array_iff : (Shape.kind .array).Holds v ↔ ∃ ws, v = .array ws := by
  cases v <;> simp [Shape.Holds, Kind.includes]

/-- A value has the shape of a record exactly when it is an object with none but the given members,
each of which has its shape and is there if it has to be. -/
theorem holds_record_iff {members : List (String × Shape)} (h : needed ⊆ members.map (·.1)) :
    (Shape.record needed members).Holds v ↔
      v.IsRecord (members.map (·.1)) ∧ ∀ m ∈ members, MemberHolds needed v m := by
  rw [Shape.record, holds_all_iff, holds_kind_object_iff]
  simp only [List.forall_mem_cons, List.forall_mem_map, Shape.Holds]
  constructor
  · rintro ⟨⟨ms, rfl⟩, hclosed, hneeded, hmembers⟩
    refine ⟨⟨ms, rfl, hclosed ms rfl⟩, fun m hm => ⟨fun hname => ?_, hmembers m hm⟩⟩
    exact mem_names_iff.1 (hneeded ms rfl m.1 hname)
  · rintro ⟨⟨ms, rfl, hclosed⟩, hmembers⟩
    refine ⟨⟨ms, rfl⟩, ?_, ?_, fun m hm => (hmembers m hm).2⟩
    · rintro _ ⟨⟩
      exact hclosed
    · rintro _ ⟨⟩ name hname
      obtain ⟨m, hm, rfl⟩ := List.mem_map.1 (h hname)
      exact mem_names_iff.2 ((hmembers m hm).1 hname)

theorem forall₂_exists_iff {ws : List Json} :
    (∃ xs, List.Forall₂ R ws xs) ↔ ∀ w ∈ ws, ∃ x, R w x := by
  induction ws with
  | nil => simp
  | cons w ws ih =>
    rw [List.forall_mem_cons, ← ih]
    constructor
    · rintro ⟨_, _ | ⟨hx, hxs⟩⟩
      exact ⟨⟨_, hx⟩, _, hxs⟩
    · rintro ⟨⟨x, hx⟩, xs, hxs⟩
      exact ⟨x :: xs, .cons hx hxs⟩

/-- A value has the shape of a list exactly when it lists things that its items spell. -/
theorem holds_list_iff (h : ∀ w, s.Holds w ↔ ∃ x, R w x) (v : Json) :
    (Shape.list s).Holds v ↔ ∃ xs, Lists R v xs := by
  rw [Shape.list, holds_all_iff, holds_kind_array_iff]
  simp only [List.mem_singleton, forall_eq, Shape.Holds, h]
  constructor
  · rintro ⟨⟨ws, rfl⟩, hitems⟩
    obtain ⟨xs, hxs⟩ := forall₂_exists_iff.2 (hitems ws rfl)
    exact ⟨xs, ws, rfl, hxs⟩
  · rintro ⟨xs, ws, rfl, hxs⟩
    refine ⟨⟨ws, rfl⟩, ?_⟩
    rintro _ ⟨⟩
    exact forall₂_exists_iff.1 ⟨xs, hxs⟩

/-- What holds of all that items spell holds of the things of the list. -/
theorem forall_mem_of_lists {p : α → Prop} {xs : List α} (h : v.Lists R xs)
    (hp : ∀ u x, R u x → p x) : ∀ x ∈ xs, p x := by
  obtain ⟨ws, -, hws⟩ := h
  induction hws with
  | nil => simp
  | cons hR _ ih => exact List.forall_mem_cons.2 ⟨hp _ _ hR, ih⟩

end SmartContract.Json
