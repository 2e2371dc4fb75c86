import Mathlib.Tactic.Common
import SmartContract.Json.Basic

/-!
Members in the order of their names. Inserting a member keeps the order and makes the member the one
of its name; inserting members one after the other that are in order already leaves them as they
are.
-/

namespace SmartContract.Json

/-- The members stand in the order of their names, no two of which are the same. -/
def Ascending (ms : List (String × Json)) : Prop := ms.Pairwise fun m n => m.1 < n.1

variable {key : String} {v : Json} {ms : List (String × Json)}

/-! ### Order -/

theorem mem_insertMember {m : String × Json} (h : m ∈ insertMember key v ms) :
    m = (key, v) ∨ m ∈ ms := by
  induction ms with
  | nil => exact .inl (List.mem_singleton.1 h)
  | cons n ms ih =>
    rw [insertMember] at h
    split at h
    · exact List.mem_cons.1 h
    · split at h
      · exact (List.mem_cons.1 h).imp_right (List.mem_cons_of_mem _)
      · rcases List.mem_cons.1 h with rfl | h
        · exact .inr List.mem_cons_self
        · exact (ih h).imp_right (List.mem_cons_of_mem _)

theorem ascending_insertMember (h : Ascending ms) : Ascending (insertMember key v ms) := by
  induction ms with
  | nil => exact List.pairwise_singleton _ _
  | cons n ms ih =>
    obtain ⟨hn, hms⟩ := List.pairwise_cons.1 h
    rw [insertMember]
    split
    · rename_i hlt
      refine List.pairwise_cons.2 ⟨?_, h⟩
      intro m hm
      rcases List.mem_cons.1 hm with rfl | hm
      · exact hlt
      · exact String.lt_trans hlt (hn m hm)
    · rename_i hlt
      split
      · rename_i heq
        exact List.pairwise_cons.2 ⟨fun m hm => heq ▸ hn m hm, hms⟩
      · rename_i hne
        refine List.pairwise_cons.2 ⟨?_, ih hms⟩
        intro m hm
        rcases mem_insertMember hm with rfl | hm
        · have hle : n.1 ≤ key := String.not_lt.1 hlt
          exact Decidable.byContradiction fun hge =>
            hne (String.le_antisymm (String.not_lt.1 hge) hle)
        · exact hn m hm

/-- A member whose name comes behind all others is put at the end. -/
theorem insertMember_eq_append (h : ∀ m ∈ ms, m.1 < key) :
    insertMember key v ms = ms ++ [(key, v)] := by
  induction ms with
  | nil => rfl
  | cons n ms ih =>
    obtain ⟨hn, hms⟩ := List.forall_mem_cons.1 h
    rw [insertMember, if_neg (String.lt_asymm hn), if_neg (String.ne_of_lt hn).symm, ih hms,
      List.cons_append]

theorem foldl_insertMember_eq_append (before : List (String × Json))
    (h : Ascending (before ++ ms)) :
    ms.foldl (fun sorted m => insertMember m.1 m.2 sorted) before = before ++ ms := by
  induction ms generalizing before with
  | nil => simp
  | cons m ms ih =>
    have hbefore : ∀ n ∈ before, n.1 < m.1 := fun n hn =>
      (List.pairwise_append.1 h).2.2 n hn m List.mem_cons_self
    have happend : before ++ m :: ms = before ++ [m] ++ ms := by simp
    rw [List.foldl_cons, insertMember_eq_append hbefore, ih _ (happend ▸ h), ← happend]

theorem ofMembers_eq_object (h : Ascending ms) : ofMembers ms = .object ms := by
  rw [ofMembers, foldl_insertMember_eq_append [] h, List.nil_append]

/-- The members of an object that has been made from members. -/
theorem exists_ofMembers_eq (ms : List (String × Json)) :
    ∃ sorted, ofMembers ms = .object sorted ∧ Ascending sorted ∧ ∀ m ∈ sorted, m ∈ ms := by
  -- What has been put in order so far stays in order, and is made of members only.
  have hsorted : ∀ before, Ascending before →
      Ascending (ms.foldl (fun sorted m => insertMember m.1 m.2 sorted) before) ∧
        ∀ m ∈ ms.foldl (fun sorted m => insertMember m.1 m.2 sorted) before,
          m ∈ before ∨ m ∈ ms := by
    induction ms with
    | nil => exact fun before h => ⟨h, fun m hm => .inl hm⟩
    | cons n ms ih =>
      intro before h
      obtain ⟨hascending, hmem⟩ := ih (insertMember n.1 n.2 before) (ascending_insertMember h)
      refine ⟨hascending, fun m hm => ?_⟩
      rcases hmem m hm with hm | hm
      · rcases mem_insertMember hm with rfl | hm
        · exact .inr List.mem_cons_self
        · exact .inl hm
      · exact .inr (List.mem_cons_of_mem _ hm)
  obtain ⟨hascending, hmem⟩ := hsorted [] .nil
  exact ⟨_, rfl, hascending, fun m hm => (hmem m hm).resolve_left List.not_mem_nil⟩

/-! ### Members by name -/

@[simp] theorem lookup_cons_eq_ite (m : String × Json) (other : String) :
    (m :: ms).lookup other = if other = m.1 then some m.2 else ms.lookup other := by
  rw [List.lookup_cons]
  split
  · rename_i h
    rw [if_pos (eq_of_beq h)]
  · rename_i h
    rw [if_neg (ne_of_beq_false h)]

theorem lookup_insertMember (other : String) :
    (insertMember key v ms).lookup other = if other = key then some v else ms.lookup other := by
  induction ms with
  | nil => rw [insertMember, lookup_cons_eq_ite]
  | cons n ms ih =>
    rw [insertMember]
    split
    · rw [lookup_cons_eq_ite]
    · split
      · rename_i hkey
        rw [lookup_cons_eq_ite, lookup_cons_eq_ite, ← hkey]
        by_cases h : other = key
        · rw [if_pos h, if_pos h]
        · rw [if_neg h, if_neg h, if_neg h]
      · rename_i hkey
        rw [lookup_cons_eq_ite, lookup_cons_eq_ite, ih]
        by_cases h : other = n.1
        · have hne : other ≠ key := fun hk => hkey (hk ▸ h)
          rw [if_pos h, if_pos h, if_neg hne]
        · rw [if_neg h, if_neg h]

/-- Of several members of one name the last counts. -/
@[simp] theorem get?_ofMembers (ms : List (String × Json)) (key : String) :
    (ofMembers ms).get? key = ms.reverse.lookup key := by
  have hfold : ∀ before, (ms.foldl (fun sorted m => insertMember m.1 m.2 sorted) before).lookup key =
      (ms.reverse.lookup key).or (before.lookup key) := by
    induction ms with
    | nil => intro before; simp
    | cons m ms ih =>
      intro before
      rw [List.foldl_cons, ih, lookup_insertMember, List.reverse_cons, List.lookup_append,
        Option.or_assoc, lookup_cons_eq_ite, List.lookup_nil]
      by_cases h : key = m.1
      · rw [if_pos h, if_pos h, Option.some_or]
      · rw [if_neg h, if_neg h, Option.none_or]
  rw [ofMembers, get?, hfold, List.lookup_nil, Option.or_none]

@[simp] theorem reverse_optional (key : String) (o : Option Json) :
    (optional key o).reverse = optional key o := by
  cases o <;> rfl

@[simp] theorem lookup_optional (key other : String) (o : Option Json) :
    (optional key o).lookup other = if other = key then o else none := by
  cases o with
  | none => exact (ite_self none).symm
  | some v => exact lookup_cons_eq_ite (key, v) other

end SmartContract.Json
