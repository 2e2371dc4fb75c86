import SmartContract.Numeric.Shortest

/-!
How a floating-point number is written: its shortest digits, with a point from `10 ^ -5` up to
below `10 ^ 16`, and otherwise with a signed exponent behind the first digit. A number with a point
always has a digit on both sides of it.
-/

namespace SmartContract.Double

/-- The least decimal exponent of the first digit that is written without exponent. -/
def plainFrom : Int := -5

/-- The decimal exponent of the first digit from which on an exponent is written. -/
def plainBelow : Int := 16

/-- Digits written with a point so that the first one has the decimal exponent `e`. -/
def pointed (digits : List Char) (e : Int) : List Char :=
  if e < 0 then ['0', '.'] ++ List.replicate (-e - 1).toNat '0' ++ digits
  else
    let whole := e.toNat + 1
    if digits.length ≤ whole then digits ++ List.replicate (whole - digits.length) '0' ++ ['.', '0']
    else digits.take whole ++ '.' :: digits.drop whole

/-- Digits written with an exponent, of which the first has the decimal exponent `e`. -/
def scientific (digits : List Char) (e : Int) : List Char :=
  let mantissa :=
    match digits with
    | first :: second :: rest => first :: '.' :: second :: rest
    | digits => digits
  mantissa ++ ['e', if e < 0 then '-' else '+'] ++ Nat.toDigits 10 e.natAbs

def chars (x : Double) : List Char :=
  let d := x.shortest
  let digits := Nat.toDigits 10 d.digits
  let e : Int := d.exponent + digits.length - 1
  let magnitude := if plainFrom ≤ e ∧ e < plainBelow then pointed digits e else scientific digits e
  if x.negative then '-' :: magnitude else magnitude

def toText (x : Double) : String := String.ofList x.chars

example : ((ofDecimal? false 15 (-1)).map toText) = some "1.5" := by decide +kernel
example : ((ofDecimal? true 1 23).map toText) = some "-1e+23" := by decide +kernel
example : ((ofDecimal? false 5 (-324)).map toText) = some "5e-324" := by decide +kernel
example : ((ofDecimal? false 1 309).map toText) = none := by decide +kernel

end SmartContract.Double
