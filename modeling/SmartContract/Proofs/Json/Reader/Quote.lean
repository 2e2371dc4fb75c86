import SmartContract.Json.Reader.Quote
import SmartContract.Json.Writer
import SmartContract.Proofs.Text.Utf8

/-!
Reading a string from the characters that write it. A character is written as itself or as an
escape, and what is read is its octets either way, so that the octets of the text have been read
when the quotation mark comes.
-/

namespace SmartContract.Json.Quoting

open Text (utf8)

/-- Reads octets, none of which ends the string. -/
def after? (q : Quoting) : List UInt8 → Option Quoting
  | [] => some q
  | b :: rest =>
    match q.step b with
    | .ok (.inl q) => q.after? rest
    | _ => none

theorem after?_append {q r : Quoting} {bs cs : List UInt8} (h : q.after? bs = some r) :
    q.after? (bs ++ cs) = r.after? cs := by
  induction bs generalizing q with
  | nil => rw [List.nil_append, Option.some.inj h]
  | cons b bs ih =>
    rw [after?] at h
    rw [List.cons_append, after?]
    split at h
    · exact ih h
    · cases h

/-! ### Octets that stand for themselves -/

/-- The octet neither ends a string nor starts an escape, and may stand in a string. -/
def IsPlain (b : UInt8) : Prop := 0x20 ≤ b.toNat ∧ b.toNat ≠ '"'.toNat ∧ b.toNat ≠ '\\'.toNat

theorem ofNat_ne {b : UInt8} {c : Char} (h : b.toNat ≠ c.toNat) : Char.ofNat b.toNat ≠ c := by
  rintro rfl
  have hvalid : b.toNat.isValidChar := .inl (Nat.lt_trans b.toNat_lt (by decide))
  rw [Char.ofNat, dif_pos hvalid] at h
  exact h rfl

theorem after?_plain {octets bs : List UInt8} (h : ∀ b ∈ bs, IsPlain b) :
    (plain octets).after? bs = some (plain (bs.reverse ++ octets)) := by
  induction bs generalizing octets with
  | nil => rfl
  | cons b bs ih =>
    obtain ⟨⟨hlow, hquote, hslash⟩, hbs⟩ := List.forall_mem_cons.1 h
    have hstep : (plain octets).step b = .ok (.inl (plain (b :: octets))) := by
      simp only [step, ofNat_ne hquote, ofNat_ne hslash, Nat.not_lt.2 hlow, if_false]
    rw [after?, hstep, List.reverse_cons, List.append_assoc]
    exact ih hbs

theorem isPlain_ofNat {n : Nat} (h : 0x80 ≤ n) (hlt : n < 256) : IsPlain (UInt8.ofNat n) := by
  rw [IsPlain, Text.toNat_ofNat_of_lt hlt]
  exact ⟨by omega, fun hn => absurd h (hn ▸ by decide), fun hn => absurd h (hn ▸ by decide)⟩

/-- The octets of a character that is written as itself. -/
theorem isPlain_of_mem_utf8EncodeChar {c : Char} (hlow : 0x20 ≤ c.toNat) (hquote : c ≠ '"')
    (hslash : c ≠ '\\') : ∀ b ∈ String.utf8EncodeChar c, IsPlain b := by
  have hval : c.val.toNat = c.toNat := rfl
  simp only [String.utf8EncodeChar, hval]
  split
  · rw [List.forall_mem_singleton, IsPlain, Text.toNat_ofNat_of_lt (by omega)]
    exact ⟨hlow, fun h => hquote (Char.toNat_inj.1 h), fun h => hslash (Char.toNat_inj.1 h)⟩
  · split
    · simp only [List.forall_mem_cons]
      exact ⟨isPlain_ofNat (by omega) (by omega), isPlain_ofNat (by omega) (by omega), by simp⟩
    · split
      · simp only [List.forall_mem_cons]
        exact ⟨isPlain_ofNat (by omega) (by omega), isPlain_ofNat (by omega) (by omega),
          isPlain_ofNat (by omega) (by omega), by simp⟩
      · simp only [List.forall_mem_cons]
        exact ⟨isPlain_ofNat (by omega) (by omega), isPlain_ofNat (by omega) (by omega),
          isPlain_ofNat (by omega) (by omega), isPlain_ofNat (by omega) (by omega), by simp⟩

/-! ### Characters -/

/-- An escape with a letter stands for the character that has the letter. -/
theorem after?_letter {octets : List UInt8} {c letter : Char} (h : escapeLetter? c = some letter) :
    (plain octets).after? (['\\', letter].flatMap String.utf8EncodeChar) =
      some (plain (push c octets)) := by
  rw [escapeLetter?.eq_def] at h
  split at h
  all_goals first | (cases h; rfl) | cases h

/-- The octet of a hexadecimal digit. -/
def hexOctet (n : Nat) : UInt8 := UInt8.ofNat (hexDigit n).toNat

theorem utf8EncodeChar_hexDigit : ∀ n < 16, String.utf8EncodeChar (hexDigit n) = [hexOctet n] := by
  decide

theorem hexNumber?_hexOctet :
    ∀ n < 0x20, hexNumber? [hexOctet (n % 16), hexOctet (n / 16), 48, 48] = some n := by
  decide

/-- An escape with a number stands for the character of that number. -/
theorem after?_hex {octets : List UInt8} {c : Char} (h : c.toNat < 0x20) :
    (plain octets).after? (['\\', 'u', '0', '0', hexDigit (c.toNat / 16),
      hexDigit (c.toNat % 16)].flatMap String.utf8EncodeChar) = some (plain (push c octets)) := by
  have hoctets : ['\\', 'u', '0', '0', hexDigit (c.toNat / 16), hexDigit (c.toNat % 16)].flatMap
      String.utf8EncodeChar =
        [92, 117, 48, 48, hexOctet (c.toNat / 16), hexOctet (c.toNat % 16)] := by
    simp only [List.flatMap_cons, List.flatMap_nil,
      utf8EncodeChar_hexDigit (c.toNat / 16) (by omega),
      utf8EncodeChar_hexDigit (c.toNat % 16) (by omega)]
    rfl
  have hunit : unit octets none c.toNat = .ok (plain (push c octets)) := by
    rw [unit, if_neg (by omega), if_neg (by omega), Char.ofNat_toNat]
  have hlast : (hex octets none [hexOctet (c.toNat / 16), 48, 48]).step (hexOctet (c.toNat % 16)) =
      .ok (.inl (plain (push c octets))) := by
    simp only [step, hexNumber?_hexOctet c.toNat h, hunit]
    rfl
  rw [hoctets]
  change (hex octets none [hexOctet (c.toNat / 16), 48, 48]).after? [hexOctet (c.toNat % 16)] = _
  rw [after?, hlast]
  rfl

/-- What is read from a character that is written is its octets. -/
theorem after?_escape {octets : List UInt8} (c : Char) :
    (plain octets).after? ((Json.escape c).flatMap String.utf8EncodeChar) =
      some (plain (push c octets)) := by
  rw [Json.escape]
  split
  · rename_i letter h
    exact after?_letter h
  · rename_i h
    split
    · rename_i hlow
      exact after?_hex hlow
    · rename_i hlow
      have hquote : c ≠ '"' := by
        rintro rfl
        cases h
      have hslash : c ≠ '\\' := by
        rintro rfl
        cases h
      rw [List.flatMap_singleton]
      exact after?_plain (isPlain_of_mem_utf8EncodeChar (Nat.le_of_not_lt hlow) hquote hslash)

/-- What is read from the characters that write a text is the octets of the text. -/
theorem after?_flatMap_escape (octets : List UInt8) (cs : List Char) :
    (plain octets).after? ((cs.flatMap Json.escape).flatMap String.utf8EncodeChar) =
      some (plain ((cs.flatMap String.utf8EncodeChar).reverse ++ octets)) := by
  induction cs generalizing octets with
  | nil => rfl
  | cons c cs ih =>
    rw [List.flatMap_cons, List.flatMap_append, after?_append (after?_escape c), ih, push,
      List.flatMap_cons, List.reverse_append, List.append_assoc]

/-- At the quotation mark the string ends with the text whose octets have been read. -/
theorem step_quote (s : String) : (plain (utf8 s).reverse).step 34 = .ok (.inr s) := by
  have hclose : close (utf8 s).reverse = .ok s := by
    rw [close, List.reverse_reverse, Text.decodeUtf8_utf8]
  change (close (utf8 s).reverse).map Sum.inr = _
  rw [hclose]
  rfl

end SmartContract.Json.Quoting
