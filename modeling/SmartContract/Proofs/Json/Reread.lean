import SmartContract.Proofs.Json.Order
import SmartContract.Proofs.Json.Roundtrip

/-!
Reading again what has been read. A value that is read from any text and has no floating-point numbers
is of the kind that is read back from its texts: the reader keeps members in order, integers within
64 bits and the depth below its limit.
-/

namespace SmartContract.Json

mutual

/-- Are there no floating-point numbers in the value? -/
def isExact : Json → Bool
  | .float _ => false
  | .array items => areExact items
  | .object members => membersAreExact members
  | .null | .bool _ | .int _ | .string _ => true

def areExact : List Json → Bool
  | [] => true
  | v :: rest => isExact v && areExact rest

def membersAreExact : List (String × Json) → Bool
  | [] => true
  | (_, v) :: rest => isExact v && membersAreExact rest

end

variable {v : Json}

theorem areExact_eq_all (items : List Json) : areExact items = items.all isExact := by
  induction items with
  | nil => rfl
  | cons v rest ih => rw [areExact, ih, List.all_cons]

theorem membersAreExact_eq_all (members : List (String × Json)) :
    membersAreExact members = members.all (·.2.isExact) := by
  induction members with
  | nil => rfl
  | cons m rest ih => rw [membersAreExact, ih, List.all_cons]

/-! ### Values that are read -/

theorem built_canonical : Built fun depth v => v.isExact = true → Canonical depth v where
  null _ _ := .null
  bool _ b _ := .bool b
  int _ n low high _ := .int n low high
  float _ x h := by cases h
  string _ s _ := .string s
  array _ items held h := by
    rw [isExact, areExact_eq_all, List.all_eq_true] at h
    exact .array items fun v hv => held v hv (h v hv)
  object _ members ascending held h := by
    rw [isExact, membersAreExact_eq_all, List.all_eq_true] at h
    exact .object members ascending fun m hm => held m hm (h m hm)

theorem canonical_of_read {text : List UInt8} (h : read text = .ok v) (hexact : v.isExact = true) :
    Canonical (depthLimit - 1) v :=
  built_canonical.of_read h hexact

/-! ### The last line feed -/

theorem getLast?_stringChars (s : String) : (stringChars s).getLast? = some '"' := by
  rw [stringChars, ← List.cons_append, List.getLast?_concat]

theorem getLast?_prettyItems (level : Nat) (items : List Json) :
    (prettyItems level items).getLast? = some ']' := by
  induction items with
  | nil => rw [prettyItems, List.getLast?_concat]
  | cons v rest ih =>
    rw [prettyItems, ← List.cons_append, List.getLast?_append, ih, Option.some_or]

theorem getLast?_prettyMembers (level : Nat) (members : List (String × Json)) :
    (prettyMembers level members).getLast? = some '\x7d' := by
  induction members with
  | nil => rw [prettyMembers, List.getLast?_concat]
  | cons m rest ih =>
    rw [prettyMembers, ← List.cons_append, List.getLast?_append, ih, Option.some_or]

theorem lineFeed_not_mem_intChars (n : Int) : '\n' ∉ intChars n := by
  have hdigits (n : Nat) : '\n' ∉ Nat.toDigits 10 n := fun hmem =>
    absurd (Numeral.isDigit_of_mem_toDigits hmem) (by decide)
  cases n with
  | ofNat n => exact hdigits n
  | negSucc n =>
    intro hmem
    rcases List.mem_cons.1 hmem with hsign | hmem
    · exact absurd hsign (by decide)
    · exact hdigits (n + 1) hmem

/-- What stands before the last line feed of the pretty form does not end in one. -/
theorem getLast?_prettyChars_ne (level : Nat) (h : v.isExact = true) :
    (prettyChars level v).getLast? ≠ some '\n' := by
  cases v with
  | null => simp [prettyChars, compactChars]
  | bool b => cases b <;> simp [prettyChars, compactChars]
  | int n =>
    intro hlast
    simp only [prettyChars, compactChars] at hlast
    exact lineFeed_not_mem_intChars n (List.mem_of_getLast? hlast)
  | float x => cases h
  | string s => simp [prettyChars, compactChars, getLast?_stringChars]
  | array items =>
    cases items with
    | nil => simp [prettyChars]
    | cons v rest =>
      rw [prettyChars, ← List.cons_append, List.getLast?_append, getLast?_prettyItems,
        Option.some_or]
      decide
  | object members =>
    cases members with
    | nil => simp [prettyChars]
    | cons m rest =>
      rw [prettyChars, ← List.cons_append, List.getLast?_append, getLast?_prettyMembers,
        Option.some_or]
      decide

/-! ### Reading again -/

/-- A value without floating-point numbers that has been read from some text is in order and is read
again from both of its texts. The pretty form ends in one line feed and no more. -/
theorem read_again {text : List UInt8} (h : read text = .ok v) (hexact : v.isExact = true) :
    v.ordered = v ∧ read (Text.utf8 v.ordered.compact) = .ok v ∧
      read (Text.utf8 v.ordered.pretty) = .ok v ∧
      ∃ body, v.ordered.pretty.toList = body ++ ['\n'] ∧ body.getLast? ≠ some '\n' := by
  have hcanonical : Canonical (depthLimit - 1) v := canonical_of_read h hexact
  have hdepth : depthLimit - 1 < depthLimit := by decide
  rw [(isOrdered_of_read h).ordered_eq]
  refine ⟨rfl, read_compact hcanonical hdepth, read_pretty hcanonical hdepth, prettyChars 0 v, ?_, ?_⟩
  · rw [pretty, String.toList_ofList]
  · exact getLast?_prettyChars_ne 0 hexact

/-- A text with members out of order and one of them twice, escapes, the least and the greatest
integer that can be read, and containers without parts. -/
def unorderedText : List UInt8 :=
  Text.utf8 " \x7b\"z\": [18446744073709551615, -9223372036854775808, [], \x7b\x7d],
    \"a\\n\": \"\\u00e9\", \"Z\": 0, \"a\\n\": null, \"é\": \"/\\\"\\u0001\"\x7d "

/-- The same in compact form. -/
def orderedText : String :=
  "\x7b\"Z\":0,\"a\\n\":null,\"z\":[18446744073709551615,-9223372036854775808,[],\x7b\x7d],"
    ++ "\"é\":\"/\\\"\\u0001\"\x7d"

theorem read_again_unorderedText : ∃ v, read unorderedText = .ok v ∧ v.isExact = true ∧
    v.compact = orderedText ∧
    v.ordered = v ∧ read (Text.utf8 v.ordered.compact) = .ok v ∧
      read (Text.utf8 v.ordered.pretty) = .ok v ∧
      ∃ body, v.ordered.pretty.toList = body ++ ['\n'] ∧ body.getLast? ≠ some '\n' := by
  have hread : (read unorderedText).toOption.map (fun v => (v.isExact, v.compact)) =
      some (true, orderedText) := by
    decide +kernel
  cases h : read unorderedText with
  | error defect =>
    rw [h] at hread
    cases hread
  | ok v =>
    rw [h] at hread
    obtain ⟨hexact, hcompact⟩ := Prod.mk.inj (Option.some.inj hread)
    exact ⟨v, rfl, hexact, hcompact, read_again h hexact⟩

end SmartContract.Json
