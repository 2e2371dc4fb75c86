import Mathlib.Data.String.Basic
import SmartContract.Description.Fault
import SmartContract.Proofs.Text.Utf8.Order

/-!
Sorted diagnostics. One diagnostic precedes another if its pointer is smaller, or its code where the
pointers are the same, or its message where the codes are the same as well; texts are compared
character by character, which is to say octet by octet. Sorting puts diagnostics, and faults, into this
order. Those of the same pointer, code and message it leaves as they stand, and these two facts
determine its result.
-/

namespace SmartContract

namespace Diagnostic

variable {d e : Diagnostic}

/-- The one does not belong behind the other. -/
def Precedes (d e : Diagnostic) : Prop :=
  d.sortPointer < e.sortPointer ∨ d.sortPointer = e.sortPointer ∧
    (d.code < e.code ∨ d.code = e.code ∧ d.message ≤ e.message)

theorem compare_eq_compareLex : compare = compareLex (compareOn sortPointer)
    (compareLex (compareOn code) (compareOn message)) := rfl

instance : Std.TransCmp compare := by
  rw [compare_eq_compareLex]
  infer_instance

theorem then_ne_gt_iff {o p : Ordering} : o.then p ≠ .gt ↔ o = .lt ∨ o = .eq ∧ p ≠ .gt := by
  cases o <;> simp

theorem compare_ne_gt_iff : d.compare e ≠ .gt ↔ d.Precedes e := by
  rw [compare, then_ne_gt_iff, then_ne_gt_iff, compare_lt_iff_lt, compare_lt_iff_lt,
    Std.compare_eq_iff_eq, Std.compare_eq_iff_eq, compare_le_iff_le, Precedes]

theorem isBefore_eq_true_iff : d.isBefore e = true ↔ d.Precedes e := by
  rw [isBefore, bne_iff_ne, compare_ne_gt_iff]

theorem isBefore_trans {f : Diagnostic} (hde : d.isBefore e = true) (hef : e.isBefore f = true) :
    d.isBefore f = true := by
  rw [isBefore, bne_iff_ne, ne_eq, Ordering.ne_gt_iff_isLE] at *
  exact Std.TransCmp.isLE_trans hde hef

theorem isBefore_total (d e : Diagnostic) : (d.isBefore e || e.isBefore d) = true := by
  have hswap : e.compare d = (d.compare e).swap := Std.OrientedCmp.eq_swap
  rw [isBefore, isBefore, hswap]
  cases d.compare e <;> rfl

/-- Sorted diagnostics stand in their order. -/
theorem pairwise_sort (ds : List Diagnostic) : (sort ds).Pairwise Precedes := by
  have hsorted := @List.pairwise_mergeSort _ isBefore (fun _ _ _ => isBefore_trans) isBefore_total ds
  exact hsorted.imp isBefore_eq_true_iff.1

theorem sort_perm (ds : List Diagnostic) : (sort ds).Perm ds := List.mergeSort_perm ..

/-- The pointers of sorted diagnostics ascend. -/
theorem pairwise_sortPointer_sort (ds : List Diagnostic) :
    ((sort ds).map (·.sortPointer)).Pairwise (· ≤ ·) := by
  refine List.pairwise_map.2 ((pairwise_sort ds).imp ?_)
  rintro d e (hlt | ⟨heq, -⟩)
  · exact le_of_lt hlt
  · exact le_of_eq heq

/-- The pointers of sorted diagnostics are their pointers in order. -/
theorem map_sortPointer_sort {ds : List Diagnostic} {pointers : List String}
    (hperm : (ds.map (·.sortPointer)).Perm pointers) (hsorted : pointers.Pairwise (· ≤ ·)) :
    (sort ds).map (·.sortPointer) = pointers :=
  List.Perm.eq_of_pairwise (fun _ _ _ _ => le_antisymm) (pairwise_sortPointer_sort ds) hsorted
    (((sort_perm ds).map _).trans hperm)

/-- Sorting leaves those diagnostics as they stand that are in their order. -/
theorem sort_eq_self_iff {ds : List Diagnostic} : sort ds = ds ↔ ds.Pairwise Precedes := by
  constructor
  · intro h
    have hsorted := pairwise_sort ds
    rwa [h] at hsorted
  · intro h
    exact List.mergeSort_of_pairwise (h.imp isBefore_eq_true_iff.2)

/-! ### Keys -/

/-- The texts by which a diagnostic is sorted, in octets. -/
def sortKey (d : Diagnostic) : List (List UInt8) :=
  [Text.utf8 d.sortPointer, Text.utf8 d.code, Text.utf8 d.message]

theorem cons_utf8_le_iff {s t : String} {x y : List (List UInt8)} :
    Text.utf8 s :: x ≤ Text.utf8 t :: y ↔ s < t ∨ s = t ∧ x ≤ y := by
  rw [List.cons_le_cons_iff, Text.utf8_lt_iff, Text.utf8_inj]

theorem sortKey_le_iff : d.sortKey ≤ e.sortKey ↔ d.Precedes e := by
  rw [sortKey, sortKey, cons_utf8_le_iff, cons_utf8_le_iff, cons_utf8_le_iff, Precedes,
    le_iff_lt_or_eq, and_iff_left (List.le_refl [])]

/-- The keys of sorted diagnostics ascend. -/
theorem pairwise_sortKey_sort (ds : List Diagnostic) :
    (sort ds).Pairwise fun d e => d.sortKey ≤ e.sortKey :=
  (pairwise_sort ds).imp sortKey_le_iff.2

/-- Sorting keeps the order of diagnostics none of which has to stand before another. -/
theorem filter_sort {p : Diagnostic → Bool}
    (hp : ∀ d e, p d = true → p e = true → d.isBefore e = true) (ds : List Diagnostic) :
    (sort ds).filter p = ds.filter p := by
  have hsame : (ds.filter p).Pairwise fun d e => d.isBefore e = true :=
    List.pairwise_of_forall_mem_list fun d hd e he =>
      hp d e (List.mem_filter.1 hd).2 (List.mem_filter.1 he).2
  have hkept : (ds.filter p).Sublist (sort ds) :=
    @List.sublist_mergeSort _ isBefore ds (fun _ _ _ => isBefore_trans) isBefore_total _ hsame
      List.filter_sublist
  have hfiltered : (ds.filter p).Sublist ((sort ds).filter p) := by
    have h := hkept.filter p
    rwa [List.filter_filter, funext fun d => Bool.and_self (p d)] at h
  exact (hfiltered.eq_of_length ((sort_perm ds).filter p).length_eq.symm).symm

/-- Sorting keeps the order of diagnostics that have the same key. -/
theorem filter_sortKey_sort (ds : List Diagnostic) (key : List (List UInt8)) :
    (sort ds).filter (·.sortKey = key) = ds.filter (·.sortKey = key) := by
  refine filter_sort (fun d e hd he => ?_) ds
  rw [isBefore_eq_true_iff, ← sortKey_le_iff, of_decide_eq_true hd, of_decide_eq_true he]
  exact List.le_refl key

variable {ds es : List Diagnostic}

theorem mem_iff_of_filter_sortKey_eq
    (h : ∀ key, ds.filter (·.sortKey = key) = es.filter (·.sortKey = key)) :
    d ∈ ds ↔ d ∈ es := by
  have hof (l : List Diagnostic) : d ∈ l.filter (·.sortKey = d.sortKey) ↔ d ∈ l := by
    rw [List.mem_filter, decide_eq_true rfl, and_iff_left rfl]
  rw [← hof ds, ← hof es, h]

theorem sortKey_le_of_mem (h : (d :: ds).Pairwise fun d e => d.sortKey ≤ e.sortKey)
    (he : e ∈ d :: ds) : d.sortKey ≤ e.sortKey := by
  rcases List.mem_cons.1 he with rfl | he
  · exact List.le_refl _
  · exact (List.pairwise_cons.1 h).1 e he

/-- Diagnostics whose keys ascend are determined by those of each key. -/
theorem eq_of_filter_sortKey_eq (hds : ds.Pairwise fun d e => d.sortKey ≤ e.sortKey)
    (hes : es.Pairwise fun d e => d.sortKey ≤ e.sortKey)
    (h : ∀ key, ds.filter (·.sortKey = key) = es.filter (·.sortKey = key)) : ds = es := by
  induction ds generalizing es with
  | nil =>
    have hnone : ∀ e, e ∉ es := fun e he =>
      List.not_mem_nil ((mem_iff_of_filter_sortKey_eq h).2 he)
    exact (List.eq_nil_iff_forall_not_mem.2 hnone).symm
  | cons d ds ih =>
    cases es with
    | nil => exact absurd ((mem_iff_of_filter_sortKey_eq h).1 List.mem_cons_self) List.not_mem_nil
    | cons e es =>
      -- Each of the two lists starts with one of the least key.
      have hkey : d.sortKey = e.sortKey := List.le_antisymm
        (sortKey_le_of_mem hds ((mem_iff_of_filter_sortKey_eq h).2 List.mem_cons_self))
        (sortKey_le_of_mem hes ((mem_iff_of_filter_sortKey_eq h).1 List.mem_cons_self))
      have hfirst := h d.sortKey
      rw [List.filter_cons, List.filter_cons, ← hkey, if_pos (decide_eq_true rfl),
        if_pos (decide_eq_true rfl)] at hfirst
      obtain ⟨rfl, -⟩ := List.cons.inj hfirst
      refine congrArg (d :: ·) (ih (List.pairwise_cons.1 hds).2 (List.pairwise_cons.1 hes).2 ?_)
      intro key
      have hboth := h key
      rw [List.filter_cons, List.filter_cons] at hboth
      split at hboth
      · exact List.tail_eq_of_cons_eq hboth
      · exact hboth

end Diagnostic

namespace Fault

/-- The one fault does not belong behind the other. -/
def Precedes (f g : Fault) : Prop := f.diagnostic.Precedes g.diagnostic

theorem sort_perm (faults : List Fault) : (sort faults).Perm faults := List.mergeSort_perm ..

theorem mem_sort {f : Fault} {faults : List Fault} : f ∈ sort faults ↔ f ∈ faults :=
  List.mem_mergeSort

theorem sort_ne_nil {faults : List Fault} (h : faults ≠ []) : sort faults ≠ [] := fun hnil =>
  h (List.perm_nil.1 (hnil ▸ (sort_perm faults).symm))

/-- Sorting faults comes to the same as sorting their diagnostics. -/
theorem map_diagnostic_sort (faults : List Fault) :
    (sort faults).map diagnostic = Diagnostic.sort (faults.map diagnostic) := by
  refine List.map_mergeSort fun f _ g _ => ?_
  rw [Diagnostic.isBefore, compare_diagnostic]

/-- Sorted faults stand in the order of their diagnostics. -/
theorem pairwise_sort (faults : List Fault) : (sort faults).Pairwise Precedes := by
  have hsorted := Diagnostic.pairwise_sort (faults.map diagnostic)
  rwa [← map_diagnostic_sort, List.pairwise_map] at hsorted

end Fault

end SmartContract
