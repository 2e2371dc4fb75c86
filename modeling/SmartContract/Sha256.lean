/-!
The digest SHA-256. A message is padded to blocks of 64 octets; every block stirs the eight words of
the state in 64 rounds; the state after the last block is the digest.
-/

namespace SmartContract.Sha256

/-- The eight words that the rounds work on. -/
structure State where
  a : UInt32
  b : UInt32
  c : UInt32
  d : UInt32
  e : UInt32
  f : UInt32
  g : UInt32
  h : UInt32

def start : State :=
  ⟨0x6a09e667, 0xbb67ae85, 0x3c6ef372, 0xa54ff53a, 0x510e527f, 0x9b05688c, 0x1f83d9ab, 0x5be0cd19⟩

def roundConstants : List UInt32 :=
  [0x428a2f98, 0x71374491, 0xb5c0fbcf, 0xe9b5dba5, 0x3956c25b, 0x59f111f1, 0x923f82a4, 0xab1c5ed5,
   0xd807aa98, 0x12835b01, 0x243185be, 0x550c7dc3, 0x72be5d74, 0x80deb1fe, 0x9bdc06a7, 0xc19bf174,
   0xe49b69c1, 0xefbe4786, 0x0fc19dc6, 0x240ca1cc, 0x2de92c6f, 0x4a7484aa, 0x5cb0a9dc, 0x76f988da,
   0x983e5152, 0xa831c66d, 0xb00327c8, 0xbf597fc7, 0xc6e00bf3, 0xd5a79147, 0x06ca6351, 0x14292967,
   0x27b70a85, 0x2e1b2138, 0x4d2c6dfc, 0x53380d13, 0x650a7354, 0x766a0abb, 0x81c2c92e, 0x92722c85,
   0xa2bfe8a1, 0xa81a664b, 0xc24b8b70, 0xc76c51a3, 0xd192e819, 0xd6990624, 0xf40e3585, 0x106aa070,
   0x19a4c116, 0x1e376c08, 0x2748774c, 0x34b0bcb5, 0x391c0cb3, 0x4ed8aa4a, 0x5b9cca4f, 0x682e6ff3,
   0x748f82ee, 0x78a5636f, 0x84c87814, 0x8cc70208, 0x90befffa, 0xa4506ceb, 0xbef9a3f7, 0xc67178f2]

/-- A word turned to the right by `n` bits, for `n` between 1 and 31. -/
def turn (x n : UInt32) : UInt32 := x >>> n ||| x <<< (32 - n)

/-- The word that four octets make, the first one on top. -/
def word (a b c d : UInt8) : UInt32 :=
  a.toUInt32 <<< 24 ||| b.toUInt32 <<< 16 ||| c.toUInt32 <<< 8 ||| d.toUInt32

def words : List UInt8 → List UInt32
  | a :: b :: c :: d :: rest => word a b c d :: words rest
  | _ => []

def octets (x : UInt32) : List UInt8 :=
  [(x >>> 24).toUInt8, (x >>> 16).toUInt8, (x >>> 8).toUInt8, x.toUInt8]

/-- Puts `n` further words in front of the words of a block, which are held in reverse. -/
def extend : Nat → List UInt32 → List UInt32
  | 0, block => block
  | n + 1, block =>
    let x := block.getD 1 0
    let y := block.getD 14 0
    let sx := turn x 17 ^^^ turn x 19 ^^^ x >>> 10
    let sy := turn y 7 ^^^ turn y 18 ^^^ y >>> 3
    extend n ((sx + block.getD 6 0 + sy + block.getD 15 0) :: block)

def State.round (s : State) (constant w : UInt32) : State :=
  let turned := turn s.e 6 ^^^ turn s.e 11 ^^^ turn s.e 25
  let choice := s.e &&& s.f ^^^ ~~~s.e &&& s.g
  let x := s.h + turned + choice + constant + w
  let majority := s.a &&& s.b ^^^ s.a &&& s.c ^^^ s.b &&& s.c
  let y := (turn s.a 2 ^^^ turn s.a 13 ^^^ turn s.a 22) + majority
  ⟨x + y, s.a, s.b, s.c, s.d + x, s.e, s.f, s.g⟩

def State.add (s t : State) : State :=
  ⟨s.a + t.a, s.b + t.b, s.c + t.c, s.d + t.d, s.e + t.e, s.f + t.f, s.g + t.g, s.h + t.h⟩

/-- Takes in a block of sixteen words. -/
def State.block (s : State) (block : List UInt32) : State :=
  let schedule := (extend 48 block.reverse).reverse
  s.add ((roundConstants.zip schedule).foldl (fun s kw => s.round kw.1 kw.2) s)

def State.blocks (s : State) : Nat → List UInt32 → State
  | 0, _ => s
  | n + 1, message => (s.block (message.take 16)).blocks n (message.drop 16)

def State.octets (s : State) : List UInt8 :=
  [s.a, s.b, s.c, s.d, s.e, s.f, s.g, s.h].flatMap Sha256.octets

/-- The number of zero octets between the mark behind a message and its length. -/
def gap (length : Nat) : Nat := (119 - length % 64) % 64

/-- The message with what fills its last block: a one bit, zeros, and the length in bits. -/
def padded (message : List UInt8) : List UInt8 :=
  let bits := (8 * message.length).toUInt64
  let mark : List UInt8 := 0x80 :: List.replicate (gap message.length) 0
  message ++ mark ++ octets (bits >>> 32).toUInt32 ++ octets bits.toUInt32

def digest (message : List UInt8) : List UInt8 :=
  let stream := words (padded message)
  (start.blocks (stream.length / 16) stream).octets

def hexadecimal (bytes : List UInt8) : String :=
  String.ofList (bytes.flatMap fun b =>
    [Nat.digitChar (b.toNat / 16), Nat.digitChar (b.toNat % 16)])

def text (message : List UInt8) : String := hexadecimal (digest message)

/-- A padded message consists of whole blocks. -/
theorem length_padded_mod (message : List UInt8) : (padded message).length % 64 = 0 := by
  simp [padded, gap, octets]
  omega

end SmartContract.Sha256
