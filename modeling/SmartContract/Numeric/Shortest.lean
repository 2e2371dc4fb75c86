import SmartContract.Numeric.Double

/-!
The shortest decimal of a floating-point number: the fewest digits that read back to the same
value, and of those the nearest. The digits are found by trying the grids of one, two, … digits
in exact arithmetic on natural numbers; a point of a grid that reads back is next to the value.
-/

namespace SmartContract

/-- The decimal `digits * 10 ^ exponent`. -/
structure Decimal where
  digits : Nat
  /-- The power of ten of the last digit. -/
  exponent : Int
deriving DecidableEq, Repr

namespace Decimal

/-- Compares `a * 10 ^ i` with `n * 2 ^ j`. -/
def compareScaled (a : Nat) (i : Int) (n : Nat) (j : Int) : Ordering :=
  compare (a * Double.power 10 i * Double.power 2 (-j))
    (n * Double.power 2 j * Double.power 10 (-i))

def dropZeros : Nat → Decimal → Decimal
  | 0, d => d
  | n + 1, d => if d.digits % 10 = 0 then dropZeros n ⟨d.digits / 10, d.exponent + 1⟩ else d

end Decimal

namespace Double

/-- Is the decimal among the reals that round to the magnitude of `x`? They reach halfway to the
neighbours on both sides, and the ends belong to them when the significand is even. Below a power
of two the neighbour is only half as far. -/
def readsBack (x : Double) (d : Decimal) : Bool :=
  let narrow := x.significand == fullSignificand && decide (-1074 < x.exponent)
  let low := if narrow then 4 * x.significand - 1 else 4 * x.significand - 2
  let high := 4 * x.significand + 2
  let closed := x.significand % 2 == 0
  let fromLow := Decimal.compareScaled d.digits d.exponent low (x.exponent - 2)
  let fromHigh := Decimal.compareScaled d.digits d.exponent high (x.exponent - 2)
  (fromLow == .gt || (closed && fromLow == .eq)) && (fromHigh == .lt || (closed && fromHigh == .eq))

/-- The least `k` with `x < 10 ^ k`, for a magnitude that is not zero: an estimate from the binary
logarithm, which is at most two too small, and then corrected. -/
def decimalScale (x : Double) : Int :=
  let bits : Int := (x.significand.log2 : Int) + x.exponent
  let k := (bits * 30103).fdiv 100000
  let reaches (k : Int) : Bool := Decimal.compareScaled 1 k x.significand x.exponent == .gt
  if reaches k then k else if reaches (k + 1) then k + 1 else k + 2

/-- The nearer of the two points around the magnitude on the grid of `10 ^ e` that read back, the
even one on a tie, if one does. -/
def onGrid? (x : Double) (e : Int) : Option Decimal :=
  let n := x.numerator * power 10 (-e)
  let d := x.denominator * power 10 e
  let below : Decimal := ⟨n / d, e⟩
  let above : Decimal := ⟨n / d + 1, e⟩
  match x.readsBack below, x.readsBack above with
  | true, true => some ⟨roundQuotient n d, e⟩
  | true, false => some below
  | false, true => some above
  | false, false => none

/-- The shortest decimal that reads back to the magnitude of `x`; zero is the digit `0`. Seventeen
digits are enough for every value; the exact quotient stands behind them. -/
def shortest (x : Double) : Decimal :=
  if x.isZero then ⟨0, 0⟩
  else
    let k := x.decimalScale
    match (List.range 17).findSome? fun i => x.onGrid? (k - (i + 1 : Nat)) with
    | some d => d.dropZeros 17
    | none => ⟨x.numerator * power 5 (-x.exponent), -((-x.exponent).toNat : Int)⟩

end Double

end SmartContract
