import SmartContract.Json.Basic
import SmartContract.Json.Reader.Defect
import SmartContract.Numeric.Numeral

/-!
Reading a number, one character at a time. The significand holds the digits that fit 64 bits. Whole
digits that do not fit are dropped and raise the scale; digits behind the point that do not fit are
dropped, and those that fit lower it.
-/

namespace SmartContract.Json

/-- How much of a number has been read. Throughout, `negative` is the sign, `significand` the digits
kept, and `scale` the power of ten that the digits dropped and those behind the point make up. -/
inductive Numbering where
  | sign
  | zero (negative : Bool)
  /-- Whole digits, all kept. -/
  | whole (negative : Bool) (significand : Nat)
  /-- Whole digits, of which the last are dropped. -/
  | long (negative : Bool) (significand : Nat) (scale : Int)
  | point (negative : Bool) (significand : Nat) (scale : Int)
  /-- Digits behind the point, all kept. -/
  | fraction (negative : Bool) (significand : Nat) (scale : Int)
  /-- Digits behind the point, of which the last are dropped. -/
  | longFraction (negative : Bool) (significand : Nat) (scale : Int)
  | mark (negative : Bool) (significand : Nat) (scale : Int)
  | markSign (negative : Bool) (significand : Nat) (scale : Int) (down : Bool)
  | power (negative : Bool) (significand : Nat) (scale : Int) (down : Bool) (exponent : Nat)
  /-- An exponent too long for any number but zero. -/
  | vanished (negative : Bool)
deriving DecidableEq, Repr

namespace Numbering

def digit? (c : Char) : Option Nat :=
  if c.isDigit then some (c.toNat - '0'.toNat) else none

/-- The significand with a further digit, if it still fits 64 bits. -/
def append? (significand d : Nat) : Option Nat :=
  if significand * 10 + d < Numeral.wordLimit then some (significand * 10 + d) else none

/-- The largest exponent that is read digit by digit. -/
def maxExponent : Nat := Nat.pow 2 31 - 1

def behindPoint (negative : Bool) (significand : Nat) (scale : Int) (d : Nat) : Numbering :=
  match append? significand d with
  | some significand => .fraction negative significand (scale - 1)
  | none => .longFraction negative significand scale

/-- What a point, a mark or another character does behind whole digits. Nothing is returned when the
number ends before the character. -/
def behindWhole (negative : Bool) (significand : Nat) (scale : Int) (c : Char) : Option Numbering :=
  if c = '.' then some (.point negative significand scale)
  else if c = 'e' ∨ c = 'E' then some (.mark negative significand scale)
  else none

def start? (c : Char) : Option Numbering :=
  if c = '-' then some .sign
  else if c = '0' then some (.zero false)
  else (digit? c).map (.whole false)

/-- Reads a character. Nothing is returned when the number ends before it. -/
def step (n : Numbering) (c : Char) : Except Finding (Option Numbering) :=
  match n with
  | .sign =>
    match digit? c with
    | some 0 => .ok (some (.zero true))
    | some d => .ok (some (.whole true d))
    | none => .error Defect.badNumber
  | .zero negative =>
    if c.isDigit then .error Defect.badNumber else .ok (behindWhole negative 0 0 c)
  | .whole negative significand =>
    match digit? c with
    | some d =>
      match append? significand d with
      | some significand => .ok (some (.whole negative significand))
      | none => .ok (some (.long negative significand 1))
    | none => .ok (behindWhole negative significand 0 c)
  | .long negative significand scale =>
    if c.isDigit then .ok (some (.long negative significand (scale + 1)))
    else .ok (behindWhole negative significand scale c)
  | .point negative significand scale =>
    match digit? c with
    | some d => .ok (some (behindPoint negative significand scale d))
    | none => .error Defect.badNumber
  | .fraction negative significand scale =>
    match digit? c with
    | some d => .ok (some (behindPoint negative significand scale d))
    | none =>
      if c = 'e' ∨ c = 'E' then .ok (some (.mark negative significand scale)) else .ok none
  | .longFraction negative significand scale =>
    if c.isDigit then .ok (some (.longFraction negative significand scale))
    else if c = 'e' ∨ c = 'E' then .ok (some (.mark negative significand scale))
    else .ok none
  | .mark negative significand scale =>
    if c = '+' then .ok (some (.markSign negative significand scale false))
    else if c = '-' then .ok (some (.markSign negative significand scale true))
    else
      match digit? c with
      | some d => .ok (some (.power negative significand scale false d))
      | none => .error Defect.badNumber
  | .markSign negative significand scale down =>
    match digit? c with
    | some d => .ok (some (.power negative significand scale down d))
    | none => .error Defect.badNumber
  | .power negative significand scale down exponent =>
    match digit? c with
    | some d =>
      if exponent * 10 + d ≤ maxExponent then
        .ok (some (.power negative significand scale down (exponent * 10 + d)))
      else if significand ≠ 0 ∧ down = false then .error Defect.numberOutOfRange
      else .ok (some (.vanished negative))
    | none => .ok none
  | .vanished negative => if c.isDigit then .ok (some (.vanished negative)) else .ok none

/-- The integer with the given sign and magnitude: a floating-point number when it does not fit 64
bits, and when it is zero with a minus sign. -/
def integer (negative : Bool) (magnitude : Nat) : Option Json :=
  if negative then
    if magnitude = 0 ∨ Numeral.signedMax + 1 < magnitude then
      (Double.ofDecimal? true magnitude 0).map .float
    else some (.int (-(magnitude : Int)))
  else some (.int magnitude)

def finish (n : Numbering) : Except Defect Json :=
  let decimal (negative : Bool) (significand : Nat) (scale : Int) : Except Defect Json :=
    match Double.ofDecimal? negative significand scale with
    | some x => .ok (.float x)
    | none => .error .numberOutOfRange
  match n with
  | .zero negative => (integer negative 0).elim (.error .numberOutOfRange) .ok
  | .whole negative significand =>
    (integer negative significand).elim (.error .numberOutOfRange) .ok
  | .long negative significand scale => decimal negative significand scale
  | .fraction negative significand scale => decimal negative significand scale
  | .longFraction negative significand scale => decimal negative significand scale
  | .power negative significand scale down exponent =>
    decimal negative significand (if down then scale - exponent else scale + exponent)
  | .vanished negative => .ok (.float (Double.zero negative))
  | .sign | .point .. | .mark .. | .markSign .. => .error .endInValue

end Numbering

end SmartContract.Json
