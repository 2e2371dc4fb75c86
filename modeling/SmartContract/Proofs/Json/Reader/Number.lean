import SmartContract.Json.Reader.Number
import SmartContract.Json.Writer
import SmartContract.Proofs.Numeric.Numeral

/-!
Reading an integer from its digits. The digits of a number that fits 64 bits are all kept, so that
the number which has been read at their end is the one that was written.
-/

namespace SmartContract.Json.Numbering

/-- Reads characters, none of which ends the number. -/
def after? (n : Numbering) : List Char → Option Numbering
  | [] => some n
  | c :: rest =>
    match n.step c with
    | .ok (some n) => n.after? rest
    | _ => none

/-- The number has been read as `v` and ends before any character that is no digit, point or mark
of an exponent. -/
structure Completes (n : Numbering) (v : Json) : Prop where
  finish : n.finish = .ok v
  step : ∀ c : Char, c.isDigit = false → c ≠ '.' → c ≠ 'e' → c ≠ 'E' → n.step c = .ok none

theorem digit?_eq_some {c : Char} (h : c.isDigit = true) :
    digit? c = some (c.toNat - '0'.toNat) := if_pos h

theorem digit?_eq_none {c : Char} (h : c.isDigit = false) : digit? c = none := by
  rw [digit?, if_neg (by simp [h])]

theorem toNat_sub_ne_zero {c : Char} (h : c.isDigit = true) (hc : c ≠ '0') :
    c.toNat - '0'.toNat ≠ 0 := by
  have hlow : '0'.toNat ≤ c.toNat :=
    UInt32.le_iff_toNat_le.1 (of_decide_eq_true (Bool.and_eq_true_iff.1 h).1)
  intro hzero
  exact hc (Char.toNat_inj.1 (by omega))

theorem append?_eq_some {significand d : Nat} (h : 10 * significand + d < Numeral.wordLimit) :
    append? significand d = some (10 * significand + d) := by
  rw [append?, Nat.mul_comm significand, if_pos h]

theorem behindWhole_eq_none {negative : Bool} {significand : Nat} {scale : Int} {c : Char}
    (hpoint : c ≠ '.') (hlower : c ≠ 'e') (hupper : c ≠ 'E') :
    behindWhole negative significand scale c = none := by
  rw [behindWhole, if_neg hpoint, if_neg (not_or.2 ⟨hlower, hupper⟩)]

theorem completes_zero {negative : Bool} {v : Json} (h : integer negative 0 = some v) :
    (zero negative).Completes v where
  finish := by rw [finish, h]; rfl
  step c hdigit hpoint hlower hupper := by
    rw [step, hdigit, behindWhole_eq_none hpoint hlower hupper]
    rfl

theorem completes_whole {negative : Bool} {significand : Nat} {v : Json}
    (h : integer negative significand = some v) : (whole negative significand).Completes v where
  finish := by rw [finish, h]; rfl
  step c hdigit hpoint hlower hupper := by
    rw [step, digit?_eq_none hdigit, behindWhole_eq_none hpoint hlower hupper]

/-- Digits are kept as long as the number that they make up fits 64 bits. -/
theorem after?_whole {negative : Bool} {significand : Nat} {digits : List Char}
    (hdigits : ∀ c ∈ digits, c.isDigit = true)
    (h : Numeral.valueFrom significand digits < Numeral.wordLimit) :
    (whole negative significand).after? digits =
      some (whole negative (Numeral.valueFrom significand digits)) := by
  induction digits generalizing significand with
  | nil => rfl
  | cons c digits ih =>
    obtain ⟨hc, hdigits⟩ := List.forall_mem_cons.1 hdigits
    rw [Numeral.valueFrom_cons] at h ⊢
    have hfits : 10 * significand + (c.toNat - '0'.toNat) < Numeral.wordLimit :=
      Nat.lt_of_le_of_lt (Numeral.le_valueFrom _ digits) h
    have hstep : (whole negative significand).step c =
        .ok (some (whole negative (10 * significand + (c.toNat - '0'.toNat)))) := by
      simp only [step, digit?_eq_some hc, append?_eq_some hfits]
    rw [after?, hstep]
    exact ih hdigits h

/-- The digits of a number other than zero are read behind the first, which starts it. -/
theorem exists_after?_toDigits (negative : Bool) {n : Nat} (hpos : 0 < n)
    (hlt : n < Numeral.wordLimit) :
    ∃ c digits, Nat.toDigits 10 n = c :: digits ∧ c ≠ '0' ∧ c.isDigit = true ∧
      (∀ d ∈ digits, d.isDigit = true) ∧
        (whole negative (c.toNat - '0'.toNat)).after? digits = some (whole negative n) := by
  obtain ⟨c, digits, hn, hc⟩ := Numeral.toDigits_eq_cons hpos
  have hmem : ∀ d ∈ c :: digits, d.isDigit = true := fun d hd =>
    Numeral.isDigit_of_mem_toDigits (hn ▸ hd)
  obtain ⟨hdigit, hdigits⟩ := List.forall_mem_cons.1 hmem
  have hvalue : Numeral.valueFrom (c.toNat - '0'.toNat) digits = n := by
    have := Numeral.valueFrom_toDigits n
    rwa [hn, Numeral.valueFrom_cons, Nat.mul_zero, Nat.zero_add] at this
  refine ⟨c, digits, hn, hc, hdigit, hdigits, ?_⟩
  rw [after?_whole hdigits (hvalue ▸ hlt), hvalue]

/-- An integer that fits 64 bits, signed or unsigned, is read from the characters that write it. -/
theorem exists_after?_intChars {n : Int} (hlow : -(Numeral.signedMax + 1 : Int) ≤ n)
    (hhigh : n < Numeral.wordLimit) :
    ∃ c rest start m, intChars n = c :: rest ∧ (c = '-' ∨ c.isDigit = true) ∧
      (∀ d ∈ rest, d.isDigit = true) ∧ start? c = some start ∧ start.after? rest = some m ∧
        m.Completes (.int n) := by
  rcases n with (_ | n) | n
  · exact ⟨'0', [], zero false, zero false, rfl, .inr rfl, by simp, rfl, rfl,
      completes_zero rfl⟩
  · obtain ⟨c, digits, hn, hc, hdigit, hdigits, hrun⟩ :=
      exists_after?_toDigits false (Nat.succ_pos n) (Int.ofNat_lt.1 hhigh)
    have hminus : c ≠ '-' := by
      rintro rfl
      cases hdigit
    have hstart : start? c = some (whole false (c.toNat - '0'.toNat)) := by
      rw [start?, if_neg hminus, if_neg hc, digit?_eq_some hdigit]
      rfl
    exact ⟨c, digits, _, _, hn, .inr hdigit, hdigits, hstart, hrun, completes_whole rfl⟩
  -- Behind a minus sign the number is still read as one without a sign; it is bounded when it is
  -- complete.
  · have hmax : n + 1 ≤ Numeral.signedMax + 1 := by
      rw [Int.negSucc_eq] at hlow
      omega
    have hlimit : n + 1 < Numeral.wordLimit := Nat.lt_of_le_of_lt hmax (by decide)
    obtain ⟨c, digits, hn, hc, hdigit, hdigits, hrun⟩ :=
      exists_after?_toDigits true (Nat.succ_pos n) hlimit
    obtain ⟨d, hd⟩ : ∃ d, c.toNat - '0'.toNat = d + 1 :=
      Nat.exists_eq_succ_of_ne_zero (toNat_sub_ne_zero hdigit hc)
    have hstep : sign.step c = .ok (some (whole true (c.toNat - '0'.toNat))) := by
      simp only [step, digit?_eq_some hdigit, hd]
    have hint : integer true (n + 1) = some (.int (Int.negSucc n)) := by
      rw [integer, if_pos rfl, if_neg (by omega)]
      rfl
    refine ⟨'-', c :: digits, sign, _, congrArg _ hn, .inl rfl,
      List.forall_mem_cons.2 ⟨hdigit, hdigits⟩, rfl, ?_, completes_whole hint⟩
    rw [after?, hstep]
    exact hrun

end SmartContract.Json.Numbering
