/-!
Binary floating-point numbers of double precision, held exactly. A finite value is a sign, a
significand below `2 ^ 53` and a power of two. Arithmetic is done on fractions of natural
numbers and rounded once, to the nearest value, a tie going to the even significand.
-/

namespace SmartContract

/-- The finite value `± significand * 2 ^ exponent`. A value in normal form has
`significand < 2 ^ 53` and `-1074 ≤ exponent ≤ 971`, and a significand of at least `2 ^ 52`
unless the exponent is the least. -/
structure Double where
  /-- The sign bit, which zero has too. -/
  negative : Bool
  significand : Nat
  exponent : Int
deriving DecidableEq, Repr

namespace Double

/-- `b ^ e`, and one where `e` is negative. -/
def power (b : Nat) (e : Int) : Nat := Nat.pow b e.toNat

/-- The least significand with 53 bits. -/
def fullSignificand : Nat := Nat.pow 2 52

def zero (negative : Bool) : Double := ⟨negative, 0, -1074⟩

def isZero (x : Double) : Bool := x.significand == 0

def numerator (x : Double) : Nat := x.significand * power 2 x.exponent

def denominator (x : Double) : Nat := power 2 (-x.exponent)

/-- The quotient `n / d` rounded to an integer, a tie going to the even one. -/
def roundQuotient (n d : Nat) : Nat :=
  let q := n / d
  let twice := 2 * (n % d)
  if twice < d then q
  else if d < twice then q + 1
  else if q % 2 = 0 then q
  else q + 1

/-- The greatest `e` with `2 ^ e ≤ n / d`, for positive `n` and `d`. -/
def binaryLog (n d : Nat) : Int :=
  let e : Int := (n.log2 : Int) - (d.log2 : Int)
  if n * power 2 (-e) < d * power 2 e then e - 1 else e

/-- The value nearest to `n / d`, or nothing if that is past the largest finite value. -/
def ofQuotient? (n d : Nat) : Option Double :=
  if n = 0 then some (zero false)
  else
    let e := max (binaryLog n d - 52) (-1074)
    let m := roundQuotient (n * power 2 (-e)) (d * power 2 e)
    -- Rounding up may carry into a 54th bit, which is then the only one.
    let x : Double :=
      if m = 2 * fullSignificand then ⟨false, fullSignificand, e + 1⟩ else ⟨false, m, e⟩
    if x.exponent ≤ 971 then some x else none

def mul? (x y : Double) : Option Double :=
  ofQuotient? (x.numerator * y.numerator) (x.denominator * y.denominator)

def div? (x y : Double) : Option Double :=
  ofQuotient? (x.numerator * y.denominator) (x.denominator * y.numerator)

/-- The integer that a value without fraction is. -/
def integer? (x : Double) : Option Int :=
  if x.numerator % x.denominator = 0 then
    let n : Int := (x.numerator / x.denominator : Nat)
    some (if x.negative then -n else n)
  else none

def ltInt (x : Double) (n : Int) : Bool :=
  let m : Int := x.numerator
  (if x.negative then -m else m) < n * x.denominator

def gtInt (x : Double) (n : Int) : Bool :=
  let m : Int := x.numerator
  n * x.denominator < (if x.negative then -m else m)

/-- The value nearest to a power of ten, up to `10 ^ 308`. -/
def powerOfTen? (n : Nat) : Option Double := ofQuotient? (Nat.pow 10 n) 1

/-- Divides by `10 ^ 308` the given number of times, rounding each time; zero stays as it is. -/
def shrink? : Nat → Double → Option Double
  | 0, x => some x
  | k + 1, x => if x.isZero then some x else powerOfTen? 308 >>= x.div? >>= shrink? k

/-- Divides by `10 ^ n`, by at most `10 ^ 308` at a time. -/
def divPowerOfTen? (x : Double) (n : Nat) : Option Double := do
  let steps := (n - 1) / 308
  let y ← x.shrink? steps
  y.div? (← powerOfTen? (n - 308 * steps))

/-- The value taken for the decimal `± significand * 10 ^ scale`: the significand is rounded and
then multiplied or divided by the rounded power of ten. The result can differ from the nearest
value in the last bit. Nothing is taken for what is past the largest finite value. -/
def ofDecimal? (negative : Bool) (significand : Nat) (scale : Int) : Option Double := do
  let x ← ofQuotient? significand 1
  let y ←
    if scale < 0 then x.divPowerOfTen? (-scale).toNat
    else if scale ≤ 308 then do x.mul? (← powerOfTen? scale.toNat)
    else if x.isZero then some x
    else none
  return { y with negative }

end Double

end SmartContract
