import Mathlib.Tactic.Common
import SmartContract.Numeric.Numeral

/-!
Decimal digits of a number: there is at least one, they are digits, the first of several is no zero,
and they stand for the number. Other digits that stand for the number have zeros before these, so that a
number has one decimal form without needless zeros.
-/

namespace SmartContract.Numeral

variable {n : Nat}

theorem valueFrom_toDigits (n : Nat) : valueFrom 0 (Nat.toDigits 10 n) = n := by
  rw [valueFrom, ← Nat.ofDigitChars_eq_foldl, Nat.ofDigitChars_ten_toDigits]

theorem valueFrom_cons (n : Nat) (c : Char) (digits : List Char) :
    valueFrom n (c :: digits) = valueFrom (10 * n + (c.toNat - '0'.toNat)) digits := by
  rw [valueFrom, List.foldl_cons, ← valueFrom]

theorem le_valueFrom (n : Nat) (digits : List Char) : n ≤ valueFrom n digits := by
  induction digits generalizing n with
  | nil => exact Nat.le_refl n
  | cons c digits ih => exact Nat.le_trans (by omega) (ih (10 * n + (c.toNat - '0'.toNat)))

theorem isDigit_of_mem_toDigits {c : Char} (h : c ∈ Nat.toDigits 10 n) : c.isDigit = true :=
  Nat.isDigit_of_mem_toDigits (by decide) (by decide) h

theorem isDigits_toDigits (n : Nat) : isDigits (Nat.toDigits 10 n) = true := by
  rw [isDigits, Bool.and_eq_true, List.all_eq_true]
  exact ⟨by simp [Nat.toDigits_ne_nil], fun _ => isDigit_of_mem_toDigits⟩

theorem toDigits_eq_cons (h : 0 < n) :
    ∃ c digits, Nat.toDigits 10 n = c :: digits ∧ c ≠ '0' := by
  have hdigit : ∀ m < 10, 0 < m → Nat.digitChar m ≠ '0' := by decide
  induction n using Nat.strongRecOn with
  | ind n ih =>
    by_cases hn : n < 10
    · exact ⟨n.digitChar, [], Nat.toDigits_of_lt_base hn, hdigit n hn h⟩
    · obtain ⟨c, digits, hdigits, hc⟩ := ih (n / 10) (by omega) (by omega)
      rw [Nat.toDigits_of_base_le (by decide) (by omega), hdigits]
      exact ⟨c, _, rfl, hc⟩

theorem toList_text (n : Nat) : (text n).toList = Nat.toDigits 10 n := String.toList_ofList

/-- The digits of a number stand for the number. -/
theorem value_text (n : Nat) : value (text n) = n := by
  rw [value, toList_text, valueFrom_toDigits]

/-! ### Leading zeros -/

/-- The digits without the zeros before them; of zeros only one is left. -/
def withoutZeros (s : String) : String :=
  match s.toList.dropWhile (· = '0') with
  | [] => "0"
  | digits => String.ofList digits

theorem digitChar_of_isDigit {c : Char} (h : c.isDigit = true) :
    (c.toNat - '0'.toNat).digitChar = c := by
  have hdigit : ∀ k < 10, k.digitChar = Char.ofNat ('0'.toNat + k) := by decide
  obtain ⟨hlow, hhigh⟩ := Char.isDigit_iff_toNat.1 h
  have hten : '9'.toNat = '0'.toNat + 9 := rfl
  rw [hdigit _ (by omega), Nat.add_sub_cancel' hlow, Char.ofNat_toNat]

theorem toDigits_valueFrom (h : 0 < n) {digits : List Char}
    (hdigits : ∀ c ∈ digits, c.isDigit = true) :
    Nat.toDigits 10 (valueFrom n digits) = Nat.toDigits 10 n ++ digits := by
  induction digits generalizing n with
  | nil => exact (List.append_nil _).symm
  | cons c digits ih =>
    obtain ⟨hc, hdigits⟩ := List.forall_mem_cons.1 hdigits
    obtain ⟨hlow, hhigh⟩ := Char.isDigit_iff_toNat.1 hc
    have hten : '9'.toNat = '0'.toNat + 9 := rfl
    have hlt : c.toNat - '0'.toNat < 10 := by omega
    rw [valueFrom_cons, ih (by omega) hdigits,
      ← Nat.toDigits_append_toDigits (by decide) h hlt, Nat.toDigits_of_lt_base hlt,
      digitChar_of_isDigit hc, List.append_assoc, List.singleton_append]

/-- The digits of the number that other digits stand for are these without the zeros before them. -/
theorem text_value {s : String} (h : isDigits s.toList = true) :
    text (value s) = withoutZeros s := by
  rw [isDigits, Bool.and_eq_true, List.all_eq_true] at h
  have hdigits := h.2
  rw [value, withoutZeros]
  generalize s.toList = cs at hdigits ⊢
  induction cs with
  | nil => rfl
  | cons c digits ih =>
    obtain ⟨hc, hrest⟩ := List.forall_mem_cons.1 hdigits
    by_cases hzero : c = '0'
    · subst hzero
      exact ih hrest
    · obtain ⟨hlow, hhigh⟩ := Char.isDigit_iff_toNat.1 hc
      have hten : '9'.toNat = '0'.toNat + 9 := rfl
      have hne : c.toNat ≠ '0'.toNat := mt Char.toNat_inj.1 hzero
      have hpositive : 0 < c.toNat - '0'.toNat := by omega
      have hlt : c.toNat - '0'.toNat < 10 := by omega
      have hdrop : (c :: digits).dropWhile (· = '0') = c :: digits :=
        List.dropWhile_cons_of_neg (by simpa using hzero)
      rw [hdrop, text, valueFrom_cons, Nat.mul_zero, Nat.zero_add,
        toDigits_valueFrom hpositive hrest, Nat.toDigits_of_lt_base hlt, digitChar_of_isDigit hc,
        List.singleton_append]

example : withoutZeros "007" = "7" ∧ withoutZeros "000" = "0" := by decide

/-! ### The decimal form -/

/-- The text consists of digits that stand for the number, and it starts with a zero only if it is
nothing else. -/
structure IsDecimal (s : String) (n : Nat) : Prop where
  digits : isDigits s.toList = true
  value : value s = n
  zero : s.toList.head? = some '0' → s = "0"

variable {s : String}

theorem isDecimal_text (n : Nat) : IsDecimal (text n) n where
  digits := toList_text n ▸ isDigits_toDigits n
  value := value_text n
  zero hzero := by
    rcases Nat.eq_zero_or_pos n with rfl | hn
    · rfl
    · obtain ⟨c, digits, hdigits, hc⟩ := toDigits_eq_cons hn
      rw [toList_text, hdigits, List.head?_cons, Option.some.injEq] at hzero
      exact absurd hzero hc

theorem withoutZeros_eq_self (hzero : s.toList.head? = some '0' → s = "0")
    (hdigits : isDigits s.toList = true) : withoutZeros s = s := by
  cases hs : s.toList with
  | nil =>
    rw [hs] at hdigits
    cases hdigits
  | cons c rest =>
    by_cases hc : c = '0'
    · rw [hzero (by rw [hs, hc, List.head?_cons])]
      rfl
    · have hdrop : (c :: rest).dropWhile (· = '0') = c :: rest :=
        List.dropWhile_cons_of_neg (by simpa using hc)
      simp only [withoutZeros, hs, hdrop]
      rw [← hs, String.ofList_toList]

/-- A number has one decimal form, which is how it is written. -/
theorem isDecimal_iff : IsDecimal s n ↔ s = text n := by
  constructor
  · rintro ⟨hdigits, rfl, hzero⟩
    rw [text_value hdigits, withoutZeros_eq_self hzero hdigits]
  · rintro rfl
    exact isDecimal_text n

/-- A text that is read as a number is its decimal form unless it has a sign or a needless zero. -/
theorem isDecimal_iff_of_word? (h : word? s = some n) :
    IsDecimal s n ↔ s.toList.head? ≠ some '+' ∧ (s.toList.head? = some '0' → s = "0") := by
  rw [word?] at h
  split at h
  · rename_i rest hs
    have hsign : isDigits s.toList = false := by simp [hs, isDigits]
    constructor
    · rintro ⟨hdigits, -, -⟩
      exact absurd hdigits (by rw [hsign]; decide)
    · rintro ⟨hplus, -⟩
      exact absurd (by rw [hs, List.head?_cons]) hplus
  · rename_i hs
    split_ifs at h with hword
    obtain rfl := Option.some.inj h
    constructor
    · rintro ⟨hdigits, -, hzero⟩
      refine ⟨fun hplus => ?_, hzero⟩
      obtain ⟨rest, hrest⟩ := List.head?_eq_some_iff.1 hplus
      exact hs rest hrest
    · rintro ⟨-, hzero⟩
      exact ⟨hword.1, rfl, hzero⟩

end SmartContract.Numeral
