import Mathlib.Data.List.Forall2

/-!
Lists whose elements are related one by one: what is made from them is the same, if it is the same
for related elements. So it is for elements and the same elements with their indices.
-/

namespace SmartContract

variable {α β γ : Type} {R : α → β → Prop} {xs : List α} {ys : List β}

theorem forall₂_zipIdx (h : List.Forall₂ R xs ys) (k : Nat) :
    List.Forall₂ (fun x y => R x.1 y.1 ∧ x.2 = y.2) (xs.zipIdx k) (ys.zipIdx k) := by
  induction h generalizing k with
  | nil => exact .nil
  | cons hR _ ih => exact .cons ⟨hR, rfl⟩ (ih (k + 1))

theorem forall₂_and {p : β → Prop} (h : List.Forall₂ R xs ys) (hp : ∀ y ∈ ys, p y) :
    List.Forall₂ (fun x y => R x y ∧ p y) xs ys := by
  induction h with
  | nil => exact .nil
  | cons hR _ ih =>
    obtain ⟨hy, hys⟩ := List.forall_mem_cons.1 hp
    exact .cons ⟨hR, hy⟩ (ih hys)

theorem getElem?_of_forall₂ {y : β} {i : Nat} (h : List.Forall₂ R xs ys) (hy : ys[i]? = some y) :
    ∃ x, xs[i]? = some x ∧ R x y := by
  induction h generalizing i with
  | nil => simp at hy
  | cons hR _ ih =>
    cases i with
    | zero =>
      obtain rfl := Option.some.inj hy
      exact ⟨_, rfl, hR⟩
    | succ i => exact ih hy

theorem map_eq_of_forall₂ {f : α → γ} {g : β → γ} (h : List.Forall₂ R xs ys)
    (hf : ∀ x y, R x y → f x = g y) : xs.map f = ys.map g := by
  induction h with
  | nil => rfl
  | cons hR _ ih => rw [List.map_cons, List.map_cons, hf _ _ hR, ih]

theorem flatMap_eq_of_forall₂ {f : α → List γ} {g : β → List γ} (h : List.Forall₂ R xs ys)
    (hf : ∀ x y, R x y → f x = g y) : xs.flatMap f = ys.flatMap g := by
  rw [List.flatMap_def, List.flatMap_def, map_eq_of_forall₂ h hf]

theorem filterMap_eq_of_forall₂ {f : α → Option γ} {g : β → Option γ} (h : List.Forall₂ R xs ys)
    (hf : ∀ x y, R x y → f x = g y) : xs.filterMap f = ys.filterMap g := by
  induction h with
  | nil => rfl
  | cons hR _ ih => rw [List.filterMap_cons, List.filterMap_cons, hf _ _ hR, ih]

theorem forall_mem_iff_of_forall₂ {p : α → Prop} {q : β → Prop} (h : List.Forall₂ R xs ys)
    (hp : ∀ x y, R x y → (p x ↔ q y)) : (∀ x ∈ xs, p x) ↔ ∀ y ∈ ys, q y := by
  induction h with
  | nil => simp
  | cons hR _ ih => rw [List.forall_mem_cons, List.forall_mem_cons, hp _ _ hR, ih]

theorem mapM_eq_some_of_forall₂ {read : α → Option β} (h : List.Forall₂ R xs ys)
    (hread : ∀ x y, R x y → read x = some y) : xs.mapM read = some ys := by
  induction h with
  | nil => rfl
  | cons hR _ ih => rw [List.mapM_cons, hread _ _ hR, ih]; rfl

theorem mapM_map_eq_some {write : β → α} {read : α → Option β}
    (h : ∀ y ∈ ys, read (write y) = some y) : (ys.map write).mapM read = some ys := by
  refine mapM_eq_some_of_forall₂ (R := fun x y => read x = some y) ?_ fun _ _ => id
  rw [List.forall₂_map_left_iff, List.forall₂_same]
  exact h

theorem flatMap_zipIdx_eq_of_getElem? {f : α → Nat → List γ} {g : β → Nat → List γ}
    (h : List.Forall₂ R xs ys) (hf : ∀ x y i, ys[i]? = some y → R x y → f x i = g y i) :
    (xs.zipIdx.flatMap fun (x, i) => f x i) = ys.zipIdx.flatMap fun (y, i) => g y i := by
  have hindices : ∀ y ∈ ys.zipIdx, ys[y.2]? = some y.1 := fun y => List.mem_zipIdx_iff_getElem?.1
  refine flatMap_eq_of_forall₂ (forall₂_and (forall₂_zipIdx h 0) hindices) ?_
  rintro ⟨x, i⟩ ⟨y, _⟩ ⟨⟨hR, rfl⟩, hy⟩
  exact hf x y i hy hR

theorem flatMap_zipIdx_eq_of_forall₂ {f : α → Nat → List γ} {g : β → Nat → List γ}
    (h : List.Forall₂ R xs ys) (hf : ∀ x y i, R x y → f x i = g y i) :
    (xs.zipIdx.flatMap fun (x, i) => f x i) = ys.zipIdx.flatMap fun (y, i) => g y i :=
  flatMap_zipIdx_eq_of_getElem? h fun x y i _ => hf x y i

/-- What is made from indexed elements without regard to their indices. -/
theorem filterMap_zipIdx_of_fst {f : α × Nat → Option β} {k : α → Option β}
    (h : ∀ x i, f (x, i) = k x) : xs.zipIdx.filterMap f = xs.filterMap k := by
  have hfst : f = k ∘ Prod.fst := by
    funext ⟨x, i⟩
    exact h x i
  rw [hfst, ← List.filterMap_map, List.zipIdx_map_fst]

end SmartContract
