/-!
Whole numbers as decimal texts, and the ranges they have to fit.
-/

namespace SmartContract.Numeral

/-- One more than the largest number of 64 bits. -/
def wordLimit : Nat := Nat.pow 2 64

def signedMax : Nat := Nat.pow 2 63 - 1

/-- The number that decimal digits stand for, read on from `n`. -/
def valueFrom (n : Nat) (digits : List Char) : Nat :=
  digits.foldl (fun n c => 10 * n + (c.toNat - '0'.toNat)) n

def value (s : String) : Nat := valueFrom 0 s.toList

/-- Is the text a decimal digit or more of them, and nothing else? -/
def isDigits (s : List Char) : Bool := !s.isEmpty && s.all Char.isDigit

/-- The number below `2 ^ 64` that a text stands for: digits, which a plus sign may precede. -/
def word? (s : String) : Option Nat :=
  let digits :=
    match s.toList with
    | '+' :: rest => rest
    | chars => chars
  if isDigits digits ∧ valueFrom 0 digits < wordLimit then some (valueFrom 0 digits) else none

def text (n : Nat) : String := String.ofList (Nat.toDigits 10 n)

example : word? "+007" = some 7 ∧ word? "" = none ∧ word? "+" = none ∧ word? "-1" = none := by
  decide

end SmartContract.Numeral
