import Mathlib.Tactic.Common
import SmartContract.Name

/-!
Names, and what is made from them: the characters of a name are letters, digits and underscores, and
a name in capitals is a name without small letters.
-/

namespace SmartContract.Name

variable {c : Char} {s t : String}

instance (s : String) : Decidable (IsName s) :=
  decidable_of_iff _ defect?_eq_none_iff

/-! ### Characters of names -/

theorem isName_iff : IsName s ↔
    ∃ c rest, s.toList = c :: rest ∧ isStart c = true ∧ ∀ d ∈ rest, isPart d = true := by
  rw [IsName]
  cases s.toList with
  | nil => simp
  | cons c rest => simp

theorem isPart_of_isStart (h : isStart c = true) : isPart c = true := by
  rw [isStart, Bool.or_eq_true] at h
  rw [isPart, Char.isAlphanum, Bool.or_eq_true, Bool.or_eq_true]
  exact h.imp_left .inl

theorem isPart_of_isName (h : IsName s) : ∀ c ∈ s.toList, isPart c = true := by
  obtain ⟨c, rest, hs, hc, hrest⟩ := isName_iff.1 h
  rw [hs, List.forall_mem_cons]
  exact ⟨isPart_of_isStart hc, hrest⟩

theorem not_mem_of_isName (hc : isPart c = false) (h : IsName s) : c ∉ s.toList := by
  intro hmem
  rw [isPart_of_isName h c hmem] at hc
  cases hc

theorem isName_append (hs : IsName s) (ht : ∀ c ∈ t.toList, isPart c = true) : IsName (s ++ t) := by
  obtain ⟨c, rest, hc, hstart, hrest⟩ := isName_iff.1 hs
  refine isName_iff.2 ⟨c, rest ++ t.toList, ?_, hstart, ?_⟩
  · rw [String.toList_append, hc, List.cons_append]
  · exact List.forall_mem_append.2 ⟨hrest, ht⟩

/-! ### Names in capitals -/

theorem toNat_lt_of_isPart (h : isPart c = true) : c.toNat < 128 := by
  change (((decide (c.val ≥ 'A'.val ∧ c.val ≤ 'Z'.val) || (c.val ≥ 'a'.val && c.val ≤ 'z'.val))
    || (c.val ≥ '0'.val && c.val ≤ '9'.val)) || decide (c = '_')) = true at h
  simp only [Bool.or_eq_true, Bool.and_eq_true, decide_eq_true_eq, UInt32.le_iff_toNat_le] at h
  rcases h with ((⟨-, h⟩ | ⟨-, h⟩) | ⟨-, h⟩) | rfl
  · exact Nat.lt_of_le_of_lt h (by decide)
  · exact Nat.lt_of_le_of_lt h (by decide)
  · exact Nat.lt_of_le_of_lt h (by decide)
  · decide

/-- What holds of the ASCII characters holds of those of names. -/
theorem forall_isPart {p : Char → Prop} (h : ∀ n < 128, p (Char.ofNat n)) (hc : isPart c = true) :
    p c := by
  have hp := h c.toNat (toNat_lt_of_isPart hc)
  rwa [Char.ofNat_toNat] at hp

theorem isPart_of_isDigit (h : c.isDigit = true) : isPart c = true := by
  rw [isPart, Char.isAlphanum, h, Bool.or_true, Bool.true_or]

theorem isStart_of_isDigit (h : c.isDigit = true) : isStart c = false :=
  forall_isPart (p := fun c => c.isDigit = true → isStart c = false) (by decide)
    (isPart_of_isDigit h) h

theorem isPart_toUpper (h : isPart c = true) :
    isPart c.toUpper = true ∧ (isStart c = true → isStart c.toUpper = true) := by
  have hsame := forall_isPart
    (p := fun c => isPart c.toUpper = isPart c ∧ isStart c.toUpper = isStart c) (by decide) h
  exact ⟨hsame.1.trans h, hsame.2.trans⟩

theorem isLower_toUpper (h : isPart c = true) : c.toUpper.isLower = false :=
  forall_isPart (p := fun c => c.toUpper.isLower = false) (by decide) h

theorem isName_upper (h : IsName s) : IsName (upper s) := by
  obtain ⟨c, rest, hs, hc, hrest⟩ := isName_iff.1 h
  refine isName_iff.2 ⟨c.toUpper, rest.map Char.toUpper, ?_, ?_, ?_⟩
  · rw [upper, String.toList_ofList, hs, List.map_cons]
  · exact (isPart_toUpper (isPart_of_isStart hc)).2 hc
  · rw [List.forall_mem_map]
    exact fun d hd => (isPart_toUpper (hrest d hd)).1

theorem isLower_of_mem_upper (h : IsName s) (hc : c ∈ (upper s).toList) : c.isLower = false := by
  rw [upper, String.toList_ofList] at hc
  obtain ⟨d, hd, rfl⟩ := List.mem_map.1 hc
  exact isLower_toUpper (isPart_of_isName h d hd)

theorem isLower_of_mem_mapConstant (hs : IsName s) (ht : IsName t)
    (hc : c ∈ (mapConstant s t).toList) : c.isLower = false := by
  have hfixed : ("MAP_".toList ++ "_".toList).all (!Char.isLower ·) = true := by decide
  have hlower : ∀ d ∈ "MAP_".toList ++ "_".toList, d.isLower = false := fun d hd =>
    by simpa using List.all_eq_true.1 hfixed d hd
  rw [mapConstant, String.toList_append, String.toList_append, String.toList_append] at hc
  simp only [List.mem_append] at hc hlower
  rcases hc with ((hc | hc) | hc) | hc
  · exact hlower c (.inl hc)
  · exact isLower_of_mem_upper hs hc
  · exact hlower c (.inr hc)
  · exact isLower_of_mem_upper ht hc

theorem isName_mapConstant (hs : IsName s) (ht : IsName t) : IsName (mapConstant s t) := by
  have hprefix : IsName "MAP_" := by decide
  have hmiddle : ∀ c ∈ "_".toList, isPart c = true := List.forall_mem_singleton.2 (by decide)
  have hmap := isName_append hprefix (isPart_of_isName (isName_upper hs))
  exact isName_append (isName_append hmap hmiddle) (isPart_of_isName (isName_upper ht))

end SmartContract.Name
