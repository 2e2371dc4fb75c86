import SmartContract.Proofs.Json.Reader.Built

/-!
Values whose objects list their members in the order of their names, each name once. Such objects
are the same if they have the same members by name; every value can be put in order; and a value
that is read from a text is in order.
-/

namespace SmartContract.Json

/-- The members of all objects in the value are in the order of their names. -/
inductive IsOrdered : Json → Prop where
  | null : IsOrdered .null
  | bool (b : Bool) : IsOrdered (.bool b)
  | int (n : Int) : IsOrdered (.int n)
  | float (x : Double) : IsOrdered (.float x)
  | string (s : String) : IsOrdered (.string s)
  | array (items : List Json) (ordered : ∀ v ∈ items, IsOrdered v) : IsOrdered (.array items)
  | object (members : List (String × Json)) (ascending : Ascending members)
      (ordered : ∀ m ∈ members, IsOrdered m.2) : IsOrdered (.object members)

mutual

/-- The value with the members of all objects in the order of their names. Of several members of one
name the first is kept. -/
def ordered : Json → Json
  | .array items => .array (orderedItems items)
  | .object members => .object (orderedMembers members)
  | v => v

def orderedItems : List Json → List Json
  | [] => []
  | v :: rest => ordered v :: orderedItems rest

def orderedMembers : List (String × Json) → List (String × Json)
  | [] => []
  | (key, v) :: rest => insertMember key (ordered v) (orderedMembers rest)

end

/-! ### Objects in order -/

/-- The value is an object whose own members are in the order of their names. -/
def IsAscending (v : Json) : Prop := ∃ ms, v = .object ms ∧ Ascending ms

variable {v w : Json} {ms ns : List (String × Json)}

theorem lookup_eq_none_of_forall_lt {key : String} (h : ∀ m ∈ ms, key < m.1) :
    ms.lookup key = none :=
  List.lookup_eq_none_iff.2 fun m hm => bne_iff_ne.2 (String.ne_of_lt (h m hm))

/-- Members in order start with the least name. -/
theorem not_lt_of_lookup_eq {m n : String × Json} (hn : ∀ x ∈ ns, n.1 < x.1)
    (h : ∀ key, (m :: ms).lookup key = (n :: ns).lookup key) : ¬m.1 < n.1 := by
  intro hlt
  have hnone : (n :: ns).lookup m.1 = none := by
    refine lookup_eq_none_of_forall_lt (List.forall_mem_cons.2 ⟨hlt, fun x hx => ?_⟩)
    exact String.lt_trans hlt (hn x hx)
  have hfirst := h m.1
  rw [lookup_cons_eq_ite, if_pos rfl, hnone] at hfirst
  cases hfirst

theorem ascending_ext (hms : Ascending ms) (hns : Ascending ns)
    (h : ∀ key, ms.lookup key = ns.lookup key) : ms = ns := by
  induction ms generalizing ns with
  | nil =>
    cases ns with
    | nil => rfl
    | cons n ns => simpa using h n.1
  | cons m ms ih =>
    cases ns with
    | nil => simpa using h m.1
    | cons n ns =>
      obtain ⟨hm, hms⟩ := List.pairwise_cons.1 hms
      obtain ⟨hn, hns⟩ := List.pairwise_cons.1 hns
      have hname : m.1 = n.1 :=
        String.le_antisymm (String.not_lt.1 (not_lt_of_lookup_eq hm fun key => (h key).symm))
          (String.not_lt.1 (not_lt_of_lookup_eq hn h))
      have hvalue := h m.1
      rw [lookup_cons_eq_ite, lookup_cons_eq_ite, if_pos rfl, if_pos hname,
        Option.some.injEq] at hvalue
      -- Behind the first member the names are greater than its name.
      have hrest : ∀ key, ms.lookup key = ns.lookup key := by
        intro key
        by_cases hkey : key = m.1
        · rw [hkey, lookup_eq_none_of_forall_lt hm, hname, lookup_eq_none_of_forall_lt hn]
        · have hboth := h key
          rwa [lookup_cons_eq_ite, lookup_cons_eq_ite, if_neg hkey, if_neg (hname ▸ hkey)] at hboth
      rw [ih hms hns hrest, Prod.ext hname hvalue]

/-- Objects in order are the same if they have the same members by name. -/
theorem IsAscending.ext (hv : v.IsAscending) (hw : w.IsAscending)
    (h : ∀ key, v.get? key = w.get? key) : v = w := by
  obtain ⟨ms, rfl, hms⟩ := hv
  obtain ⟨ns, rfl, hns⟩ := hw
  exact congrArg object (ascending_ext hms hns h)

theorem isAscending_ofMembers (ms : List (String × Json)) : (ofMembers ms).IsAscending := by
  obtain ⟨sorted, hsorted, hascending, -⟩ := exists_ofMembers_eq ms
  exact ⟨sorted, hsorted, hascending⟩

/-! ### Putting values in order -/

theorem orderedItems_eq_map (items : List Json) : orderedItems items = items.map ordered := by
  induction items with
  | nil => rfl
  | cons v rest ih => rw [orderedItems, ih, List.map_cons]

theorem ascending_orderedMembers (ms : List (String × Json)) : Ascending (orderedMembers ms) := by
  induction ms with
  | nil => exact .nil
  | cons m ms ih => exact ascending_insertMember ih

theorem lookup_orderedMembers (key : String) :
    (orderedMembers ms).lookup key = (ms.lookup key).map ordered := by
  induction ms with
  | nil => rfl
  | cons m ms ih =>
    rw [orderedMembers, lookup_insertMember, ih, lookup_cons_eq_ite]
    split <;> rfl

theorem get?_ordered (v : Json) (key : String) :
    v.ordered.get? key = (v.get? key).map ordered := by
  cases v with
  | object ms => exact lookup_orderedMembers key
  | _ => rfl

theorem orderedMembers_eq_self (h : Ascending ms) (hms : ∀ m ∈ ms, m.2.ordered = m.2) :
    orderedMembers ms = ms := by
  induction ms with
  | nil => rfl
  | cons m ms ih =>
    obtain ⟨hm, hascending⟩ := List.pairwise_cons.1 h
    obtain ⟨hfirst, hrest⟩ := List.forall_mem_cons.1 hms
    rw [orderedMembers, ih hascending hrest, hfirst]
    cases ms with
    | nil => rfl
    | cons n ms => rw [insertMember, if_pos (hm n List.mem_cons_self)]

/-- A value in order stays as it is. -/
theorem IsOrdered.ordered_eq (h : v.IsOrdered) : v.ordered = v := by
  induction h with
  | array items _ ih =>
    rw [ordered, orderedItems_eq_map, List.map_congr_left ih, List.map_id']
  | object members ascending _ ih => rw [ordered, orderedMembers_eq_self ascending ih]
  | _ => rfl

/-! ### Values that are read -/

theorem built_isOrdered : Built fun _ v => v.IsOrdered where
  null _ := .null
  bool _ b := .bool b
  int _ n _ _ := .int n
  float _ x := .float x
  string _ s := .string s
  array _ items held := .array items held
  object _ members ascending held := .object members ascending held

/-- What is read from a text is in order. -/
theorem isOrdered_of_read {text : List UInt8} (h : read text = .ok v) : v.IsOrdered :=
  built_isOrdered.of_read h

end SmartContract.Json
