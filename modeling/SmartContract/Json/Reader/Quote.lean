import SmartContract.Json.Reader.Defect
import SmartContract.Text.Utf8

/-!
Reading a string from behind its first quotation mark, one octet at a time. Octets are kept as they
come; that they are UTF-8 is checked when the string ends.
-/

namespace SmartContract.Json

/-- How much of a string has been read. The octets so far are held in reverse. -/
inductive Quoting where
  /-- Between characters. -/
  | plain (octets : List UInt8)
  /-- Behind a backslash. -/
  | escape (octets : List UInt8)
  /-- Within the four hexadecimal digits of an escape, behind the high surrogate if there was one;
  the digits are held in reverse. -/
  | hex (octets : List UInt8) (high : Option Nat) (digits : List UInt8)
  /-- Behind a high surrogate, where a backslash is due. -/
  | pairSlash (octets : List UInt8) (high : Nat)
  /-- Behind a high surrogate and a backslash, where the letter is due. -/
  | pairLetter (octets : List UInt8) (high : Nat)

namespace Quoting

def hexValue? (b : UInt8) : Option Nat :=
  let n := b.toNat
  if 48 ≤ n ∧ n ≤ 57 then some (n - 48)
  else if 65 ≤ n ∧ n ≤ 70 then some (n - 55)
  else if 97 ≤ n ∧ n ≤ 102 then some (n - 87)
  else none

/-- The character that the letter behind a backslash stands for, other than the `u`. -/
def escaped? : Char → Option Char
  | '"' => some '"'
  | '\\' => some '\\'
  | '/' => some '/'
  | 'b' => some '\x08'
  | 'f' => some '\x0c'
  | 'n' => some '\n'
  | 'r' => some '\r'
  | 't' => some '\t'
  | _ => none

def push (c : Char) (octets : List UInt8) : List UInt8 :=
  (String.utf8EncodeChar c).reverse ++ octets

/-- What the number of an escape does, behind the high surrogate if there was one. -/
def unit (octets : List UInt8) (high : Option Nat) (n : Nat) : Except Defect Quoting :=
  match high with
  | none =>
    if 0xDC00 ≤ n ∧ n ≤ 0xDFFF then .error .loneSurrogate
    else if 0xD800 ≤ n ∧ n ≤ 0xDBFF then .ok (.pairSlash octets n)
    else .ok (.plain (push (Char.ofNat n) octets))
  | some h =>
    if 0xDC00 ≤ n ∧ n ≤ 0xDFFF then
      .ok (.plain (push (Char.ofNat ((h - 0xD800) * 0x400 + (n - 0xDC00) + 0x10000)) octets))
    else .error .loneSurrogate

/-- The number that hexadecimal digits in reverse stand for, if all of them are such digits. -/
def hexNumber? : List UInt8 → Option Nat
  | [] => some 0
  | b :: rest => do
    let d ← hexValue? b
    let n ← hexNumber? rest
    return n * 16 + d

/-- The text whose octets in reverse are given. -/
def close (octets : List UInt8) : Except Finding String :=
  match Text.decodeUtf8 octets.reverse with
  | .ok s => .ok s
  | .error left => .error ⟨.badEncoding, left⟩

/-- Reads an octet: either the string goes on, or it ends and its text is there. -/
def step (q : Quoting) (b : UInt8) : Except Finding (Quoting ⊕ String) :=
  let c := Char.ofNat b.toNat
  match q with
  | .plain octets =>
    if c = '"' then (close octets).map .inr
    else if c = '\\' then .ok (.inl (.escape octets))
    else if b.toNat < 0x20 then .error Defect.controlCharacter
    else .ok (.inl (.plain (b :: octets)))
  | .escape octets =>
    if c = 'u' then .ok (.inl (.hex octets none []))
    else
      match escaped? c with
      | some x => .ok (.inl (.plain (push x octets)))
      | none => .error Defect.badEscape
  | .hex octets high digits =>
    if digits.length < 3 then .ok (.inl (.hex octets high (b :: digits)))
    else
      match hexNumber? (b :: digits) with
      | none => .error Defect.badEscape
      | some n =>
        match unit octets high n with
        | .ok q => .ok (.inl q)
        | .error defect => .error defect
  | .pairSlash octets high =>
    if c = '\\' then .ok (.inl (.pairLetter octets high)) else .error Defect.brokenPair
  | .pairLetter octets high =>
    if c = 'u' then .ok (.inl (.hex octets (some high) [])) else .error Defect.brokenPair

end Quoting

end SmartContract.Json
