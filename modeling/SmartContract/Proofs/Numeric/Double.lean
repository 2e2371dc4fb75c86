import Mathlib.Algebra.Order.Ring.Int
import SmartContract.Numeric.Double

/-!
Floating-point numbers without fraction. Such a number compares with integers as the integer does
that it stands for.
-/

namespace SmartContract.Double

variable {x : Double} {k : Int}

theorem denominator_pos (x : Double) : 0 < x.denominator := Nat.pow_pos (by decide)

/-- The signed numerator of a number without fraction is a multiple of the denominator. -/
theorem signed_numerator_of_integer? (h : x.integer? = some k) :
    (if x.negative then -(x.numerator : Int) else x.numerator) = k * x.denominator := by
  rw [integer?] at h
  split at h
  · rename_i hdvd
    have hn : (x.numerator : Int) = (x.numerator / x.denominator : Nat) * x.denominator := by
      rw [← Int.natCast_mul, Nat.div_mul_cancel (Nat.dvd_of_mod_eq_zero hdvd)]
    cases h
    split
    · rw [Int.neg_mul, ← hn]
    · exact hn
  · cases h

/-- A number is without fraction and natural exactly when it is a natural number. A negative one is
zero then. -/
theorem integer?_eq_natCast_iff {n : Nat} :
    x.integer? = some (n : Int) ↔
      (if x.negative then -(x.numerator : Int) else x.numerator) = n * x.denominator := by
  refine ⟨signed_numerator_of_integer?, fun h => ?_⟩
  have hd : 0 < x.denominator := x.denominator_pos
  rw [← Int.natCast_mul] at h
  have hn : x.numerator = n * x.denominator := by split at h <;> omega
  rw [integer?, hn, Nat.mul_mod_left, if_pos rfl, Nat.mul_div_cancel _ hd]
  cases hneg : x.negative with
  | false => rfl
  | true =>
    rw [hneg, if_pos rfl] at h
    have hzero : n * x.denominator = 0 := by omega
    rw [(Nat.mul_eq_zero.1 hzero).resolve_right (Nat.ne_of_gt hd)]
    rfl

theorem ltInt_eq_of_integer? (h : x.integer? = some k) (n : Int) : x.ltInt n = decide (k < n) := by
  have hd : (0 : Int) < x.denominator := by exact_mod_cast x.denominator_pos
  simp only [ltInt, signed_numerator_of_integer? h, Int.mul_lt_mul_right hd]

theorem gtInt_eq_of_integer? (h : x.integer? = some k) (n : Int) : x.gtInt n = decide (n < k) := by
  have hd : (0 : Int) < x.denominator := by exact_mod_cast x.denominator_pos
  simp only [gtInt, signed_numerator_of_integer? h, Int.mul_lt_mul_right hd]

end SmartContract.Double
