import Mathlib.Tactic.Common
import SmartContract.Text.Utf8

/-!
Reading UTF-8 undoes writing it. The octets of a character are read as that character whatever
comes behind them, so that a text is read character by character.
-/

namespace SmartContract.Text

/-! ### Octets of a character -/

theorem toNat_ofNat_of_lt {n : Nat} (h : n < 256) : (UInt8.ofNat n).toNat = n := by
  rw [UInt8.toNat_ofNat', Nat.mod_eq_of_lt h]

theorem toNat_lt (c : Char) : c.toNat < 0x110000 := by
  rcases c.valid with hlow | hhigh
  · exact Nat.lt_trans hlow (by decide)
  · exact hhigh.2

theorem scalar?_toNat {c : Char} {least : Nat} (h : least ≤ c.toNat) :
    scalar? least c.toNat = some c := by
  have hvalid : c.toNat.isValidChar := c.valid
  rw [scalar?, dif_pos hvalid, if_pos h]
  rfl

theorem payload?_ofNat (n : Nat) : payload? (UInt8.ofNat (n % 64 + 0x80)) = some (n % 64) := by
  have hn : (UInt8.ofNat (n % 64 + 0x80)).toNat = n % 64 + 0x80 := toNat_ofNat_of_lt (by omega)
  rw [payload?, hn, if_pos (by omega)]
  exact congrArg some (by omega)

theorem pair?_eq_some {c : Char} (h : 0x80 ≤ c.toNat) (hlt : c.toNat ≤ 0x7FF) :
    pair? (UInt8.ofNat (c.toNat / 64 % 32 + 0xC0)) (UInt8.ofNat (c.toNat % 64 + 0x80)) =
      some c := by
  have ha : (UInt8.ofNat (c.toNat / 64 % 32 + 0xC0)).toNat = c.toNat / 64 % 32 + 0xC0 :=
    toNat_ofNat_of_lt (by omega)
  have hsum : (c.toNat / 64 % 32 + 0xC0) % 32 * 64 + c.toNat % 64 = c.toNat := by omega
  rw [pair?, payload?_ofNat, ha, Option.bind_eq_bind, Option.bind_some, hsum, scalar?_toNat h]

theorem triple?_eq_some {c : Char} (h : 0x800 ≤ c.toNat) (hlt : c.toNat ≤ 0xFFFF) :
    triple? (UInt8.ofNat (c.toNat / 4096 % 16 + 0xE0)) (UInt8.ofNat (c.toNat / 64 % 64 + 0x80))
      (UInt8.ofNat (c.toNat % 64 + 0x80)) = some c := by
  have ha : (UInt8.ofNat (c.toNat / 4096 % 16 + 0xE0)).toNat = c.toNat / 4096 % 16 + 0xE0 :=
    toNat_ofNat_of_lt (by omega)
  have hsum : ((c.toNat / 4096 % 16 + 0xE0) % 16 * 64 + c.toNat / 64 % 64) * 64 + c.toNat % 64 =
      c.toNat := by omega
  rw [triple?, payload?_ofNat, payload?_ofNat, ha, Option.bind_eq_bind, Option.bind_some,
    Option.bind_some, hsum, scalar?_toNat h]

theorem quadruple?_eq_some {c : Char} (h : 0x10000 ≤ c.toNat) :
    quadruple? (UInt8.ofNat (c.toNat / 262144 % 8 + 0xF0))
      (UInt8.ofNat (c.toNat / 4096 % 64 + 0x80)) (UInt8.ofNat (c.toNat / 64 % 64 + 0x80))
      (UInt8.ofNat (c.toNat % 64 + 0x80)) = some c := by
  have hlt : c.toNat < 0x110000 := toNat_lt c
  have ha : (UInt8.ofNat (c.toNat / 262144 % 8 + 0xF0)).toNat = c.toNat / 262144 % 8 + 0xF0 :=
    toNat_ofNat_of_lt (by omega)
  have hsum : (((c.toNat / 262144 % 8 + 0xF0) % 8 * 64 + c.toNat / 4096 % 64) * 64
      + c.toNat / 64 % 64) * 64 + c.toNat % 64 = c.toNat := by omega
  simp only [quadruple?, payload?_ofNat, ha, Option.bind_eq_bind, Option.bind_some, hsum,
    scalar?_toNat h]

/-! ### Reading the first character -/

variable {acc : List Char} {a b c d : UInt8} {rest : List UInt8} {x : Char}

theorem decodeOnto_single (h : a.toNat < 0x80) :
    decodeOnto acc (a :: rest) = decodeOnto (Char.ofNat a.toNat :: acc) rest := by
  rw [decodeOnto.eq_def]
  simp only [h, if_true]

theorem decodeOnto_pair (h : a.toNat / 32 = 6) (hx : pair? a b = some x) :
    decodeOnto acc (a :: b :: rest) = decodeOnto (x :: acc) rest := by
  have hfirst : ¬ a.toNat < 0x80 := by omega
  rw [decodeOnto.eq_def]
  simp only [hfirst, if_false, h, if_true, hx]

theorem decodeOnto_triple (h : a.toNat / 16 = 14) (hx : triple? a b c = some x) :
    decodeOnto acc (a :: b :: c :: rest) = decodeOnto (x :: acc) rest := by
  have hfirst : ¬ a.toNat < 0x80 := by omega
  have hpair : ¬ a.toNat / 32 = 6 := by omega
  rw [decodeOnto.eq_def]
  simp only [hfirst, hpair, if_false, h, if_true, hx]

theorem decodeOnto_quadruple (h : a.toNat / 8 = 30) (hx : quadruple? a b c d = some x) :
    decodeOnto acc (a :: b :: c :: d :: rest) = decodeOnto (x :: acc) rest := by
  have hfirst : ¬ a.toNat < 0x80 := by omega
  have hpair : ¬ a.toNat / 32 = 6 := by omega
  have htriple : ¬ a.toNat / 16 = 14 := by omega
  rw [decodeOnto.eq_def]
  simp only [hfirst, hpair, htriple, if_false, h, if_true, hx]

/-- The octets of a character are read as the character. -/
theorem decodeOnto_utf8EncodeChar (acc : List Char) (c : Char) (rest : List UInt8) :
    decodeOnto acc (String.utf8EncodeChar c ++ rest) = decodeOnto (c :: acc) rest := by
  have hval : c.val.toNat = c.toNat := rfl
  simp only [String.utf8EncodeChar, hval]
  split
  · have ha : (UInt8.ofNat c.toNat).toNat = c.toNat := toNat_ofNat_of_lt (by omega)
    rw [List.singleton_append, decodeOnto_single (by omega), ha, Char.ofNat_toNat]
  · split
    · have ha : (UInt8.ofNat (c.toNat / 64 % 32 + 0xC0)).toNat = c.toNat / 64 % 32 + 0xC0 :=
        toNat_ofNat_of_lt (by omega)
      exact decodeOnto_pair (by omega) (pair?_eq_some (by omega) (by omega))
    · split
      · have ha : (UInt8.ofNat (c.toNat / 4096 % 16 + 0xE0)).toNat = c.toNat / 4096 % 16 + 0xE0 :=
          toNat_ofNat_of_lt (by omega)
        exact decodeOnto_triple (by omega) (triple?_eq_some (by omega) (by omega))
      · have ha : (UInt8.ofNat (c.toNat / 262144 % 8 + 0xF0)).toNat =
            c.toNat / 262144 % 8 + 0xF0 := toNat_ofNat_of_lt (by omega)
        exact decodeOnto_quadruple (by omega) (quadruple?_eq_some (by omega))

/-! ### Reading texts -/

theorem decodeOnto_flatMap (acc cs : List Char) :
    decodeOnto acc (cs.flatMap String.utf8EncodeChar) = .ok (acc.reverse ++ cs) := by
  induction cs generalizing acc with
  | nil => simp [decodeOnto]
  | cons c cs ih =>
    rw [List.flatMap_cons, decodeOnto_utf8EncodeChar, ih, List.reverse_cons, List.append_assoc,
      List.singleton_append]

/-- Reading UTF-8 undoes writing it. -/
theorem decodeUtf8_utf8 (s : String) : decodeUtf8 (utf8 s) = .ok s := by
  rw [decodeUtf8, utf8, decodeOnto_flatMap]
  exact congrArg Except.ok String.ofList_toList

theorem utf8_ofList (cs : List Char) : utf8 (String.ofList cs) = cs.flatMap String.utf8EncodeChar := by
  rw [utf8, String.toList_ofList]

end SmartContract.Text
