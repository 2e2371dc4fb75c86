import Mathlib.Data.String.Basic
import SmartContract.Proofs.Text.Utf8

/-!
The order of octets. UTF-8 keeps the order of texts: comparing texts character by character comes to
the same as comparing their octets one by one. The first octet of a character says how many others it
has, and the more it has the greater is the first; characters with as many octets compare like numbers
in base 64.
-/

namespace SmartContract.Text

/-- How many octets a character has behind its first. -/
def continuing (n : Nat) : Nat :=
  if n ≤ 0x7F then 0 else if n ≤ 0x7FF then 1 else if n ≤ 0xFFFF then 2 else 3

/-- What is added to the first digit where so many others follow. -/
def lead : Nat → Nat
  | 0 => 0
  | 1 => 0xC0
  | 2 => 0xE0
  | _ => 0xF0

/-- A number without its last `k` digits in base 64. -/
def leadingDigits : Nat → Nat → Nat
  | 0, n => n
  | k + 1, n => leadingDigits k (n / 64)

/-- The octets of a number that is written with `k` digits in base 64 behind the first octet. -/
def octets (first : Nat) : Nat → Nat → List UInt8
  | 0, n => [UInt8.ofNat (first + n)]
  | k + 1, n => octets first k (n / 64) ++ [UInt8.ofNat (n % 64 + 0x80)]

variable {first other k l m n : Nat} {x y : List UInt8}

/-! ### Numbers in base 64 -/

theorem ofNat_cons_lt_iff (hm : m < 256) (hn : n < 256) :
    UInt8.ofNat m :: x < UInt8.ofNat n :: y ↔ m < n ∨ m = n ∧ x < y := by
  rw [List.cons_lt_cons_iff, UInt8.lt_iff_toNat_lt, ← UInt8.toNat_inj, toNat_ofNat_of_lt hm,
    toNat_ofNat_of_lt hn]

theorem exists_octets_eq_cons (first k n : Nat) :
    ∃ rest, octets first k n = UInt8.ofNat (first + leadingDigits k n) :: rest := by
  induction k generalizing n with
  | zero => exact ⟨[], rfl⟩
  | succ k ih =>
    obtain ⟨rest, hrest⟩ := ih (n / 64)
    exact ⟨rest ++ [UInt8.ofNat (n % 64 + 0x80)], by rw [octets, hrest]; rfl⟩

/-- The first octets decide if they differ. -/
theorem octets_append_lt_of_first (hn : other + leadingDigits l n < 256)
    (h : first + leadingDigits k m < other + leadingDigits l n) :
    octets first k m ++ x < octets other l n ++ y := by
  obtain ⟨xs, hxs⟩ := exists_octets_eq_cons first k m
  obtain ⟨ys, hys⟩ := exists_octets_eq_cons other l n
  rw [hxs, hys, List.cons_append, List.cons_append, ofNat_cons_lt_iff (by omega) hn]
  exact .inl h

/-- Written with as many digits, the smaller number comes first. -/
theorem octets_append_lt (hn : first + leadingDigits k n < 256) (h : m < n) :
    octets first k m ++ x < octets first k n ++ y := by
  induction k generalizing m n x y with
  | zero => exact octets_append_lt_of_first hn (Nat.add_lt_add_left h first)
  | succ k ih =>
    rw [octets, octets, List.append_assoc, List.append_assoc]
    have hdigits : m / 64 < n / 64 ∨ m / 64 = n / 64 ∧ m % 64 < n % 64 := by omega
    rcases hdigits with hlt | ⟨heq, hlast⟩
    · exact ih hn hlt
    · rw [heq]
      refine List.append_left_lt ((ofNat_cons_lt_iff (by omega) (by omega)).2 (.inl ?_))
      exact Nat.add_lt_add_right hlast 0x80

/-! ### Characters -/

theorem utf8EncodeChar_eq_octets (c : Char) :
    String.utf8EncodeChar c = octets (lead (continuing c.toNat)) (continuing c.toNat) c.toNat := by
  have hval : c.val.toNat = c.toNat := rfl
  have hlt : c.toNat < 0x110000 := toNat_lt c
  simp only [String.utf8EncodeChar, hval, continuing]
  split
  · simp [octets, lead]
  · split
    · have hfirst : c.toNat / 64 % 32 + 0xC0 = 0xC0 + c.toNat / 64 := by omega
      rw [hfirst]
      rfl
    · split
      · have hfirst : c.toNat / 4096 % 16 + 0xE0 = 0xE0 + c.toNat / 64 / 64 := by omega
        rw [hfirst]
        rfl
      · have hfirst : c.toNat / 262144 % 8 + 0xF0 = 0xF0 + c.toNat / 64 / 64 / 64 := by omega
        have hsecond : c.toNat / 4096 = c.toNat / 64 / 64 := by omega
        rw [hfirst, hsecond]
        rfl

/-- The first octet is one. -/
theorem first_lt (h : n < 0x110000) :
    lead (continuing n) + leadingDigits (continuing n) n < 256 := by
  unfold continuing
  split_ifs <;> simp only [lead, leadingDigits] <;> omega

/-- More octets have a greater first one. -/
theorem first_lt_first (h : continuing m < continuing n) :
    lead (continuing m) + leadingDigits (continuing m) m <
      lead (continuing n) + leadingDigits (continuing n) n := by
  unfold continuing at h ⊢
  split_ifs at h ⊢ <;> simp only [lead, leadingDigits] <;> omega

theorem continuing_mono (h : m ≤ n) : continuing m ≤ continuing n := by
  unfold continuing
  split_ifs <;> omega

/-- The octets of the smaller character come first, whatever is behind them. -/
theorem utf8EncodeChar_append_lt {c d : Char} (h : c < d) (x y : List UInt8) :
    String.utf8EncodeChar c ++ x < String.utf8EncodeChar d ++ y := by
  have hlt : c.toNat < d.toNat := h
  rw [utf8EncodeChar_eq_octets, utf8EncodeChar_eq_octets]
  rcases Nat.lt_or_eq_of_le (continuing_mono hlt.le) with hmore | hsame
  · exact octets_append_lt_of_first (first_lt (toNat_lt d)) (first_lt_first hmore)
  · rw [hsame]
    exact octets_append_lt (first_lt (toNat_lt d)) hlt

/-! ### Texts -/

theorem flatMap_utf8EncodeChar_lt {cs ds : List Char} (h : cs < ds) :
    cs.flatMap String.utf8EncodeChar < ds.flatMap String.utf8EncodeChar := by
  induction cs generalizing ds with
  | nil =>
    cases ds with
    | nil => exact absurd h (List.lt_irrefl [])
    | cons d ds =>
      obtain ⟨rest, hrest⟩ := exists_octets_eq_cons (lead (continuing d.toNat))
        (continuing d.toNat) d.toNat
      rw [List.flatMap_cons, utf8EncodeChar_eq_octets, hrest]
      exact List.nil_lt_cons _ _
  | cons c cs ih =>
    cases ds with
    | nil => exact absurd h (List.not_lt_nil _)
    | cons d ds =>
      rw [List.flatMap_cons, List.flatMap_cons]
      rcases List.cons_lt_cons_iff.1 h with hlt | ⟨rfl, hlt⟩
      · exact utf8EncodeChar_append_lt hlt _ _
      · exact List.append_left_lt (ih hlt)

theorem utf8_lt_of_lt {s t : String} (h : s < t) : utf8 s < utf8 t :=
  flatMap_utf8EncodeChar_lt (String.lt_iff_toList_lt.1 h)

theorem utf8_inj {s t : String} : utf8 s = utf8 t ↔ s = t := by
  refine ⟨fun h => ?_, congrArg utf8⟩
  have hread := congrArg decodeUtf8 h
  rw [decodeUtf8_utf8, decodeUtf8_utf8] at hread
  exact Except.ok.inj hread

/-- UTF-8 keeps the order of texts. -/
theorem utf8_lt_iff {s t : String} : utf8 s < utf8 t ↔ s < t := by
  refine ⟨fun h => ?_, utf8_lt_of_lt⟩
  rcases lt_trichotomy s t with hlt | rfl | hgt
  · exact hlt
  · exact absurd h (List.lt_irrefl _)
  · exact absurd h (List.lt_asymm (utf8_lt_of_lt hgt))

end SmartContract.Text
