/-!
Texts as octets. `utf8` writes a text in UTF-8 and `decodeUtf8` reads one back. Reading refuses
overlong forms, surrogates and code points past the last plane, and says how many octets were
left when it met the first that starts no character.
-/

namespace SmartContract.Text

def utf8 (s : String) : List UInt8 :=
  s.toList.flatMap String.utf8EncodeChar

/-- The six payload bits of an octet that continues a character. -/
def payload? (b : UInt8) : Option Nat :=
  if b.toNat / 64 = 2 then some (b.toNat % 64) else none

/-- The character with code point `n`, provided that nothing shorter than its form could write
it, that is, provided that `n` is at least `least`. -/
def scalar? (least n : Nat) : Option Char :=
  if h : n.isValidChar then if least ≤ n then some (Char.ofNatAux n h) else none else none

def pair? (a b : UInt8) : Option Char := do
  let y ← payload? b
  scalar? 0x80 (a.toNat % 32 * 64 + y)

def triple? (a b c : UInt8) : Option Char := do
  let y ← payload? b
  let z ← payload? c
  scalar? 0x800 ((a.toNat % 16 * 64 + y) * 64 + z)

def quadruple? (a b c d : UInt8) : Option Char := do
  let y ← payload? b
  let z ← payload? c
  let w ← payload? d
  scalar? 0x10000 (((a.toNat % 8 * 64 + y) * 64 + z) * 64 + w)

/-- Reads characters onto `acc`, which holds those before in reverse. The error is the number of
octets from the first one that starts no character. -/
def decodeOnto (acc : List Char) : List UInt8 → Except Nat (List Char)
  | [] => .ok acc.reverse
  | a :: rest =>
    if a.toNat < 0x80 then decodeOnto (Char.ofNat a.toNat :: acc) rest
    else
      match rest with
      | [] => .error 1
      | b :: rest =>
        if a.toNat / 32 = 6 then
          match pair? a b with
          | some x => decodeOnto (x :: acc) rest
          | none => .error (rest.length + 2)
        else
          match rest with
          | [] => .error 2
          | c :: rest =>
            if a.toNat / 16 = 14 then
              match triple? a b c with
              | some x => decodeOnto (x :: acc) rest
              | none => .error (rest.length + 3)
            else
              match rest with
              | [] => .error 3
              | d :: rest =>
                if a.toNat / 8 = 30 then
                  match quadruple? a b c d with
                  | some x => decodeOnto (x :: acc) rest
                  | none => .error (rest.length + 4)
                else .error (rest.length + 4)

/-- The text that the octets write in UTF-8. The error is the number of octets from the first
one that starts no character to the end. -/
def decodeUtf8 (bytes : List UInt8) : Except Nat String :=
  (decodeOnto [] bytes).map String.ofList

end SmartContract.Text
