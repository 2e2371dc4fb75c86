import Mathlib.Data.List.Nodup
import SmartContract.Description.NameSite.Faults

/-!
What counts as a repetition. An element is listed with the first one that has its key, provided that
this one stands before it; so nothing is listed exactly when all keys differ.
-/

namespace SmartContract

variable {α κ : Type} [BEq κ] [LawfulBEq κ] {key : α → κ} {xs : List α}

/-- The first of the indexed elements that have a key is the one with the least index. -/
theorem find?_zipIdx_key_eq_some_iff {k : κ} {y : α} {j : Nat} :
    xs.zipIdx.find? (fun z => key z.1 == k) = some (y, j) ↔
      xs[j]? = some y ∧ key y = k ∧ ∀ i < j, ∀ z, xs[i]? = some z → key z ≠ k := by
  rw [List.find?_eq_some_iff_getElem]
  simp only [List.length_zipIdx, List.getElem_zipIdx, Nat.zero_add, Prod.mk.injEq, beq_iff_eq,
    Bool.not_eq_eq_eq_not, Bool.not_true, beq_eq_false_iff_ne]
  constructor
  · rintro ⟨hk, i, hi, ⟨rfl, rfl⟩, hbefore⟩
    refine ⟨List.getElem?_eq_getElem hi, hk, ?_⟩
    intro l hl z hz
    obtain ⟨_, rfl⟩ := List.getElem?_eq_some_iff.1 hz
    exact hbefore l hl
  · rintro ⟨hy, hk, hbefore⟩
    obtain ⟨hj, rfl⟩ := List.getElem?_eq_some_iff.1 hy
    exact ⟨hk, j, hj, ⟨rfl, rfl⟩, fun i hi => hbefore i hi _ (List.getElem?_eq_getElem _)⟩

/-- An element is listed with another one exactly when that stands before it and is the first that
has its key. -/
theorem mem_repeats_iff {x y : α} :
    (x, y) ∈ repeats key xs ↔
      ∃ i j : Nat, j < i ∧ xs[i]? = some x ∧ xs[j]? = some y ∧ key y = key x ∧
        ∀ l < j, ∀ z, xs[l]? = some z → key z ≠ key x := by
  simp only [repeats, List.mem_filterMap, Prod.exists, List.mem_zipIdx_iff_getElem?]
  constructor
  · rintro ⟨a, i, ha, hfirst⟩
    split at hfirst
    · rename_i first hfind
      obtain ⟨b, j⟩ := first
      obtain ⟨hb, hkey, hbefore⟩ := find?_zipIdx_key_eq_some_iff.1 hfind
      split at hfirst
      · rename_i hj
        simp only [Option.some.injEq, Prod.mk.injEq] at hfirst
        obtain ⟨rfl, rfl⟩ := hfirst
        exact ⟨i, j, hj, ha, hb, hkey, hbefore⟩
      · cases hfirst
    · cases hfirst
  · rintro ⟨i, j, hj, hx, hy, hkey, hbefore⟩
    refine ⟨x, i, hx, ?_⟩
    rw [find?_zipIdx_key_eq_some_iff.2 ⟨hy, hkey, hbefore⟩]
    simp [hj]

/-- Every element that has the key of an earlier one is listed. -/
theorem exists_mem_repeats {x y : α} {i j : Nat} (hj : j < i) (hx : xs[i]? = some x)
    (hy : xs[j]? = some y) (hkey : key y = key x) : ∃ z, (x, z) ∈ repeats key xs := by
  have hsome : (xs.zipIdx.find? fun z => key z.1 == key x).isSome := by
    rw [List.find?_isSome]
    exact ⟨(y, j), List.mem_zipIdx_iff_getElem?.2 hy, by simp [hkey]⟩
  obtain ⟨⟨z, l⟩, hfind⟩ := Option.isSome_iff_exists.1 hsome
  obtain ⟨hz, hkey', hbefore⟩ := find?_zipIdx_key_eq_some_iff.1 hfind
  -- The first element with the key is `y` or stands before it, hence before `x`.
  have hl : l ≤ j := Nat.le_of_not_lt fun hlt => hbefore j hlt y hy hkey
  exact ⟨z, mem_repeats_iff.2 ⟨i, l, by omega, hx, hz, hkey', hbefore⟩⟩

omit [BEq κ] [LawfulBEq κ] in
/-- The elements of a list with their indices have ascending indices. -/
theorem pairwise_zipIdx (xs : List α) : xs.zipIdx.Pairwise fun x y => x.2 < y.2 := by
  rw [← List.pairwise_map, List.zipIdx_map_snd]
  exact List.pairwise_lt_range'

/-- In a list that stands in an order, an element is listed with the first one that has its key,
if that comes before it in the order. -/
theorem mem_repeats_iff_of_pairwise {before : α → α → Prop} {x y : α}
    (hasymm : ∀ a b, before a b → ¬ before b a) (h : xs.Pairwise before) :
    (x, y) ∈ repeats key xs ↔
      x ∈ xs ∧ y ∈ xs ∧ before y x ∧ key y = key x ∧
        ∀ z ∈ xs, before z y → key z ≠ key x := by
  have hbefore : ∀ {i j : Nat} {a b : α}, xs[i]? = some a → xs[j]? = some b → i < j →
      before a b := by
    intro i j a b ha hb hij
    obtain ⟨hi, rfl⟩ := List.getElem?_eq_some_iff.1 ha
    obtain ⟨hj, rfl⟩ := List.getElem?_eq_some_iff.1 hb
    exact List.pairwise_iff_getElem.1 h i j hi hj hij
  have hlt : ∀ {i j : Nat} {a b : α}, xs[i]? = some a → xs[j]? = some b → before a b → i < j := by
    intro i j a b ha hb hab
    rcases Nat.lt_trichotomy i j with hij | rfl | hij
    · exact hij
    · rw [ha, Option.some.injEq] at hb
      exact absurd hab (hb ▸ hasymm a b hab)
    · exact absurd hab (hasymm b a (hbefore hb ha hij))
  rw [mem_repeats_iff]
  constructor
  · rintro ⟨i, j, hj, hx, hy, hkey, hfirst⟩
    refine ⟨List.mem_of_getElem? hx, List.mem_of_getElem? hy, hbefore hy hx hj, hkey, ?_⟩
    intro z hz hzy
    obtain ⟨l, hl⟩ := List.mem_iff_getElem?.1 hz
    exact hfirst l (hlt hl hy hzy) z hl
  · rintro ⟨hx, hy, hyx, hkey, hfirst⟩
    obtain ⟨i, hi⟩ := List.mem_iff_getElem?.1 hx
    obtain ⟨j, hj⟩ := List.mem_iff_getElem?.1 hy
    exact ⟨i, j, hlt hj hi hyx, hi, hj, hkey, fun l hl z hz =>
      hfirst z (List.mem_of_getElem? hz) (hbefore hz hj hl)⟩

theorem flatMap_sublist_map {β : Type} {f : α → List β} {g : α → β}
    (h : ∀ x, (f x).Sublist [g x]) : (xs.flatMap f).Sublist (xs.map g) := by
  induction xs with
  | nil => exact List.Sublist.slnil
  | cons x xs ih =>
    rw [List.flatMap_cons, List.map_cons, ← List.singleton_append]
    exact (h x).append ih

omit [LawfulBEq κ] in
/-- The elements that are listed stand in the list in the same order. -/
theorem map_fst_repeats_sublist : ((repeats key xs).map Prod.fst).Sublist xs := by
  have hsub : ((repeats key xs).map Prod.fst).Sublist (xs.zipIdx.map Prod.fst) := by
    rw [repeats, List.map_filterMap, List.filterMap_eq_flatMap_toList]
    refine flatMap_sublist_map fun x => ?_
    split
    · split
      · exact List.Sublist.refl _
      · exact List.nil_sublist _
    · exact List.nil_sublist _
  rwa [List.zipIdx_map_fst] at hsub

/-- Nothing is repeated exactly when all keys differ. -/
theorem repeats_eq_nil_iff : repeats key xs = [] ↔ (xs.map key).Nodup := by
  rw [List.nodup_iff_getElem?_ne_getElem?]
  simp only [List.length_map, List.getElem?_map]
  constructor
  · intro hnil j i hij hi heq
    have hx := List.getElem?_eq_getElem hi
    have hy := List.getElem?_eq_getElem (Nat.lt_trans hij hi)
    rw [hx, hy] at heq
    obtain ⟨z, hz⟩ := exists_mem_repeats hij hx hy (Option.some.inj heq)
    rw [hnil] at hz
    cases hz
  · intro hne
    rw [List.eq_nil_iff_forall_not_mem]
    rintro ⟨x, y⟩ hmem
    obtain ⟨i, j, hj, hx, hy, hkey, -⟩ := mem_repeats_iff.1 hmem
    obtain ⟨hi, -⟩ := List.getElem?_eq_some_iff.1 hx
    exact hne j i hj hi (by simp [hx, hy, hkey])

end SmartContract
