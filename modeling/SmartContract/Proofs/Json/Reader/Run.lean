import SmartContract.Json.Reader
import SmartContract.Proofs.Json.Reader.Number
import SmartContract.Proofs.Json.Reader.Quote

/-!
Runs of the machine that reads JSON texts. A run over characters is cut where a value ends: when a
value has been read, a blank, a comma or a bracket finds the machine in a state that holds the value,
whatever the value was read from.
-/

namespace SmartContract.Json

/-- What is read when a string has come to its end. -/
def Role.reading (role : Role) (text : String) : Reading :=
  match role with
  | .value => .done (.string text)
  | .key members => .colon members text

namespace State

/-- Reads octets, without counting them. -/
def after? (s : State) : List UInt8 → Option State
  | [] => some s
  | b :: rest =>
    match s.step b with
    | .ok s => s.after? rest
    | .error _ => none

/-- Reads characters. -/
def reads? (s : State) (cs : List Char) : Option State := s.after? (cs.flatMap String.utf8EncodeChar)

variable {s t : State} {frames : List Frame} {v : Json} {c : Char} {cs : List Char}

/-! ### Runs -/

theorem run_eq_ok {bs : List UInt8} (h : s.after? bs = some t) (count : Nat) :
    run s count bs = .ok t := by
  induction bs generalizing s count with
  | nil => rw [run, Option.some.inj h]
  | cons b bs ih =>
    rw [after?] at h
    rw [run]
    cases hstep : s.step b with
    | error finding => simp [hstep] at h
    | ok next =>
      simp only [hstep] at h ⊢
      exact ih h (count + 1)

theorem after?_append {bs ds : List UInt8} (h : s.after? bs = some t) :
    s.after? (bs ++ ds) = t.after? ds := by
  induction bs generalizing s with
  | nil => rw [List.nil_append, Option.some.inj h]
  | cons b bs ih =>
    rw [after?] at h
    rw [List.cons_append, after?]
    split at h
    · exact ih h
    · cases h

theorem reads?_append {ds : List Char} (h : s.reads? cs = some t) :
    s.reads? (cs ++ ds) = t.reads? ds := by
  rw [reads?, List.flatMap_append, after?_append h, reads?]

@[simp] theorem reads?_nil : s.reads? [] = some s := rfl

/-- The octet of a character that takes one octet only. -/
def octet (c : Char) : UInt8 := UInt8.ofNat c.toNat

theorem ofNat_octet (h : c.toNat < 0x80) : Char.ofNat (octet c).toNat = c := by
  rw [octet, Text.toNat_ofNat_of_lt (by omega), Char.ofNat_toNat]

theorem reads?_cons (h : c.toNat < 0x80) (hstep : s.step (octet c) = .ok t) :
    s.reads? (c :: cs) = t.reads? cs := by
  have hoctet : String.utf8EncodeChar c = [octet c] := by
    rw [String.utf8EncodeChar]
    exact if_pos (Nat.le_of_lt_succ h)
  rw [reads?, List.flatMap_cons, hoctet, List.singleton_append, after?, hstep, reads?]

/-! ### Values that have been read -/

/-- The characters that stand behind values. -/
def IsDelimiter (c : Char) : Prop := isSpace c = true ∨ c = ',' ∨ c = ']' ∨ c = '\x7d'

theorem isSpace_eq_true_iff : isSpace c = true ↔ c = ' ' ∨ c = '\t' ∨ c = '\n' ∨ c = '\r' := by
  simp [isSpace, or_assoc]

theorem IsDelimiter.toNat_lt (h : IsDelimiter c) : c.toNat < 0x80 := by
  rw [IsDelimiter, isSpace_eq_true_iff] at h
  rcases h with (rfl | rfl | rfl | rfl) | rfl | rfl | rfl <;> decide

/-- The value has been read within the frames: the text may end if there are none, and otherwise a
delimiter is taken as one behind the value. -/
structure HasRead (s : State) (frames : List Frame) (v : Json) : Prop where
  finish : frames = [] → s.finish = .ok v
  step : ∀ c, IsDelimiter c → s.step (octet c) = follow frames v c

theorem hasRead_done : (⟨frames, .done v⟩ : State).HasRead frames v where
  finish := by
    rintro rfl
    rfl
  step c hc := by
    rw [State.step, ofNat_octet hc.toNat_lt]

theorem hasRead_number {n : Numbering} (h : n.Completes v) :
    (⟨frames, .number n⟩ : State).HasRead frames v where
  finish := by
    rintro rfl
    simp only [State.finish, h.finish]
    rfl
  step c hc := by
    have hnone : n.step c = .ok none := by
      rw [IsDelimiter, isSpace_eq_true_iff] at hc
      rcases hc with (rfl | rfl | rfl | rfl) | rfl | rfl | rfl <;>
        exact h.step _ (by decide) (by decide) (by decide) (by decide)
    simp only [State.step, ofNat_octet hc.toNat_lt, hnone, h.finish]

/-- Blanks behind a value change nothing. -/
theorem HasRead.blanks (h : s.HasRead frames v) (hcs : ∀ c ∈ cs, isSpace c = true) :
    ∃ t, s.reads? cs = some t ∧ t.HasRead frames v := by
  induction cs generalizing s with
  | nil => exact ⟨s, rfl, h⟩
  | cons c cs ih =>
    obtain ⟨hc, hcs⟩ := List.forall_mem_cons.1 hcs
    have hdelimiter : IsDelimiter c := .inl hc
    have hstep : s.step (octet c) = .ok ⟨frames, .done v⟩ := by
      rw [h.step c hdelimiter, follow.eq_def, if_pos hc]
    rw [reads?_cons hdelimiter.toNat_lt hstep]
    exact ih hasRead_done hcs

/-! ### Values to be read -/

/-- From the characters, a value is read within the frames where one is due. -/
def Starts (frames : List Frame) (cs : List Char) (v : Json) : Prop :=
  ∃ c rest s t, cs = c :: rest ∧ c.toNat < 0x80 ∧ isSpace c = false ∧ c ≠ ']' ∧
    begin frames c = .ok s ∧ s.reads? rest = some t ∧ t.HasRead frames v

/-- A value is due. -/
def IsDue (r : Reading) : Prop := r = .value ∨ r = .firstItem ∨ r = .nextItem

theorem reads?_blanks {blanks : List Char} (hs : ∀ c, isSpace c = true → s.step (octet c) = .ok s)
    (h : ∀ c ∈ blanks, isSpace c = true) : s.reads? blanks = some s := by
  induction blanks with
  | nil => rfl
  | cons c blanks ih =>
    obtain ⟨hc, hblanks⟩ := List.forall_mem_cons.1 h
    rw [reads?_cons (IsDelimiter.toNat_lt (.inl hc)) (hs c hc)]
    exact ih hblanks

theorem step_blank_of_isDue {r : Reading} (hr : IsDue r) (c : Char) (hc : isSpace c = true) :
    (⟨frames, r⟩ : State).step (octet c) = .ok ⟨frames, r⟩ := by
  have hascii : c.toNat < 0x80 := IsDelimiter.toNat_lt (.inl hc)
  rcases hr with rfl | rfl | rfl <;> simp only [step, ofNat_octet hascii, hc, if_true]

theorem Starts.exists_reads? {r : Reading} {blanks : List Char} (h : Starts frames cs v)
    (hr : IsDue r) (hblanks : ∀ c ∈ blanks, isSpace c = true) :
    ∃ t, (⟨frames, r⟩ : State).reads? (blanks ++ cs) = some t ∧ t.HasRead frames v := by
  obtain ⟨c, rest, s, t, rfl, hascii, hspace, hbracket, hbegin, hrest, ht⟩ := h
  have hstep : (⟨frames, r⟩ : State).step (octet c) = .ok s := by
    rcases hr with rfl | rfl | rfl <;>
      simp only [step, ofNat_octet hascii, hspace, hbracket, if_false, Bool.false_eq_true, hbegin]
  refine ⟨t, ?_, ht⟩
  rw [reads?_append (reads?_blanks (step_blank_of_isDue hr) hblanks), reads?_cons hascii hstep, hrest]

/-! ### Values without parts -/

theorem starts_null : Starts frames ['n', 'u', 'l', 'l'] .null :=
  ⟨_, _, _, _, rfl, by decide, by decide, by decide, rfl, rfl, hasRead_done⟩

theorem starts_true : Starts frames ['t', 'r', 'u', 'e'] (.bool true) :=
  ⟨_, _, _, _, rfl, by decide, by decide, by decide, rfl, rfl, hasRead_done⟩

theorem starts_false : Starts frames ['f', 'a', 'l', 's', 'e'] (.bool false) :=
  ⟨_, _, _, _, rfl, by decide, by decide, by decide, rfl, rfl, hasRead_done⟩

theorem after?_string {role : Role} {q r : Quoting} {bs : List UInt8} (h : q.after? bs = some r) :
    (⟨frames, .string role q⟩ : State).after? bs = some ⟨frames, .string role r⟩ := by
  induction bs generalizing q with
  | nil => rw [after?, Option.some.inj h]
  | cons b bs ih =>
    rw [Quoting.after?] at h
    split at h
    · rename_i next hstep
      have hstate : (⟨frames, .string role q⟩ : State).step b =
          .ok ⟨frames, .string role next⟩ := by
        simp only [step, hstep]
      rw [after?, hstate]
      exact ih h
    · cases h

theorem reads?_string {role : Role} (text : String) :
    (⟨frames, .string role (.plain [])⟩ : State).reads? (text.toList.flatMap escape ++ ['"']) =
      some ⟨frames, role.reading text⟩ := by
  have htext := @after?_string frames role _ _ _ (Quoting.after?_flatMap_escape [] text.toList)
  rw [List.append_nil, ← Text.utf8] at htext
  have hquote : (⟨frames, .string role (.plain (Text.utf8 text).reverse)⟩ : State).step (octet '"') =
      .ok ⟨frames, role.reading text⟩ := by
    have hstep : (Quoting.plain (Text.utf8 text).reverse).step (octet '"') = .ok (.inr text) :=
      Quoting.step_quote text
    simp only [step, hstep]
    cases role <;> rfl
  rw [reads?_append htext, reads?_cons (by decide) hquote, reads?_nil]

theorem starts_string (text : String) : Starts frames (stringChars text) (.string text) :=
  ⟨_, _, _, _, rfl, by decide, by decide, by decide, rfl, reads?_string text, hasRead_done⟩

theorem toNat_lt_of_isDigit (h : c.isDigit = true) : c.toNat < 0x80 :=
  Nat.lt_of_le_of_lt (UInt32.le_iff_toNat_le.1 (of_decide_eq_true (Bool.and_eq_true_iff.1 h).2))
    (by decide)

theorem begin_number {n : Numbering} (hc : c = '-' ∨ c.isDigit = true)
    (h : Numbering.start? c = some n) : begin frames c = .ok ⟨frames, .number n⟩ := by
  rw [begin.eq_def]
  split
  case h_7 => simp only [h]
  all_goals exact absurd hc (by decide)

theorem reads?_number {n m : Numbering} (hascii : ∀ c ∈ cs, c.toNat < 0x80)
    (h : n.after? cs = some m) :
    (⟨frames, .number n⟩ : State).reads? cs = some ⟨frames, .number m⟩ := by
  induction cs generalizing n with
  | nil => rw [reads?_nil, Option.some.inj h]
  | cons c cs ih =>
    obtain ⟨hc, hcs⟩ := List.forall_mem_cons.1 hascii
    rw [Numbering.after?] at h
    split at h
    · rename_i next hnext
      have hstep : (⟨frames, .number n⟩ : State).step (octet c) = .ok ⟨frames, .number next⟩ := by
        simp only [step, ofNat_octet hc, hnext]
      rw [reads?_cons hc hstep]
      exact ih hcs h
    · cases h

theorem starts_int {n : Int} (hlow : -(Numeral.signedMax + 1 : Int) ≤ n)
    (hhigh : n < Numeral.wordLimit) : Starts frames (intChars n) (.int n) := by
  obtain ⟨c, rest, start, m, hn, hc, hrest, hstart, hafter, hm⟩ :=
    Numbering.exists_after?_intChars hlow hhigh
  have hascii : c.toNat < 0x80 := by
    rcases hc with rfl | hc
    · decide
    · exact toNat_lt_of_isDigit hc
  have hspace : isSpace c = false := by
    rw [← Bool.not_eq_true, isSpace_eq_true_iff]
    rintro (rfl | rfl | rfl | rfl) <;> exact absurd hc (by decide)
  have hbracket : c ≠ ']' := by
    rintro rfl
    exact absurd hc (by decide)
  exact ⟨c, rest, _, _, hn, hascii, hspace, hbracket, begin_number hc hstart,
    reads?_number (fun d hd => toNat_lt_of_isDigit (hrest d hd)) hafter, hasRead_number hm⟩

end State

end SmartContract.Json
