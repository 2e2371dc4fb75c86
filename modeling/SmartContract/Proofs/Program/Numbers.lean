import SmartContract.Proofs.Description.Faults
import SmartContract.Proofs.Program.LinesKept
import SmartContract.Proofs.Program.Outline

/-!
How numbers are written in a program. The codes of methods and the first keys of maps are written in
their decimal form. A constant variable is declared with its value as the description gives it, which
is a number, but may have a sign and needless zeros.
-/

namespace SmartContract

/-! ### Lines with numbers -/

namespace Line

variable {l : Line} {name : String}

theorem chars_of_definition? {n : Nat} (h : l.definition? = some (name, n)) :
    l.chars = ("#define " ++ name ++ " " ++ Numeral.text n).toList := by
  cases l with
  | constant =>
    cases h
    rfl
  | _ => cases h

theorem exists_chars_of_value? {literal : Literal} (h : l.value? = some (name, some literal)) :
    ∃ behind, l.chars =
      (wordType ++ " " ++ name ++ " = " ++ literal.text ++ ";" ++ behind).toList := by
  cases l with
  | word _ _ remark =>
    cases h
    refine ⟨remark.elim "" (" // " ++ ·), congrArg String.toList ?_⟩
    simp only [content, Option.elim_some, String.append_assoc]
  | _ => cases h

end Line

namespace Description

variable {d : Description} {v : Variable}

/-! ### Declared values -/

/-- A constant that is not set at deployment has a value, with which it is declared. -/
theorem IsAccepted.exists_literal? (h : d.IsAccepted) (hv : v ∈ d.stateVariables)
    (hconstant : v.constant = true) (hinit : v.initializable = false) :
    ∃ s, v.value = some s ∧ v.literal? = some s := by
  have hlawful := h.lawful.stateVariables v.toDraft (List.mem_map_of_mem hv)
  obtain ⟨-, s, -, hs, -⟩ := hlawful.literal hconstant hinit
  refine ⟨s, hs, ?_⟩
  rw [Variable.literal?, hconstant, hinit]
  exact hs

/-- A constant of a numeric type is declared with the text of its value. -/
theorem IsAccepted.exists_word?_of_constant (h : d.IsAccepted) (hv : v ∈ d.stateVariables)
    {t : Scalar} (ht : t ∈ [Scalar.address, .long, .amount, .transactionId])
    (hkind : v.kind = .value ⟨t, false⟩) (hconstant : v.constant = true)
    (hinit : v.initializable = false) :
    ∃ s n, v.value = some s ∧ Numeral.word? s = some n ∧ v.initial? = some (.plain s) := by
  obtain ⟨s, hs, hliteral⟩ := h.exists_literal? hv hconstant hinit
  obtain ⟨u, hu, hadmits⟩ := h.exists_admits_of_literal? hv hliteral
  obtain rfl : t = u := by
    rw [hkind] at hu
    cases hu
    rfl
  have hword : (Numeral.word? s).isSome := by
    simp only [List.mem_cons, List.not_mem_nil, or_false] at ht
    rcases ht with rfl | rfl | rfl | rfl <;> exact Numeral.isSome_word?_iff.2 hadmits
  obtain ⟨n, hn⟩ := Option.isSome_iff_exists.1 hword
  refine ⟨s, n, hs, hn, ?_⟩
  have hstring : v.valueType?.map (·.scalar) ≠ some .string := by
    rw [Variable.valueType?, hkind, Option.map_some]
    rintro ⟨⟩
    exact absurd ht (by decide)
  rw [Variable.initial?, hliteral, Option.map_some, if_neg hstring]

/-! ### Lines of the text -/

theorem IsAccepted.chars_mem_lines_code (h : d.IsAccepted) {l : Line} (hl : l ∈ d.program) :
    l.chars ∈ Text.lines d.code := by
  rw [h.lines_code]
  exact List.mem_map_of_mem hl

/-- The value of every constant that the program defines is in decimal form. -/
theorem IsAccepted.exists_isDecimal_of_mem_definitions (h : d.IsAccepted) {c : String × Nat}
    (hc : c ∈ d.program.filterMap Line.definition?) :
    ∃ s, Numeral.IsDecimal s c.2 ∧ ("#define " ++ c.1 ++ " " ++ s).toList ∈ Text.lines d.code := by
  obtain ⟨l, hl, hdefinition⟩ := List.mem_filterMap.1 hc
  refine ⟨Numeral.text c.2, Numeral.isDecimal_text c.2, ?_⟩
  rw [← Line.chars_of_definition? hdefinition]
  exact h.chars_mem_lines_code hl

theorem IsAccepted.exists_mem_lines_of_mem_values (h : d.IsAccepted) {name : String}
    {literal : Literal} (hv : (name, some literal) ∈ d.program.filterMap Line.value?) :
    ∃ behind, (Line.wordType ++ " " ++ name ++ " = " ++ literal.text ++ ";" ++ behind).toList ∈
      Text.lines d.code := by
  obtain ⟨l, hl, hvalue⟩ := List.mem_filterMap.1 hv
  obtain ⟨behind, hchars⟩ := Line.exists_chars_of_value? hvalue
  refine ⟨behind, ?_⟩
  rw [← hchars]
  exact h.chars_mem_lines_code hl

end Description

/-- A constant of a numeric type is declared with the number that its value is read as. The text is
the decimal form of the number exactly when the value has neither a sign nor a needless zero, whereas
the codes of methods and the first keys of maps are always in decimal form. -/
theorem declared_in_decimal_iff {d : Description} (h : d.IsAccepted) :
    ∃ ls, readProgram? d.code = some ls ∧
      (∀ v ∈ d.stateVariables, ∀ t ∈ [Scalar.address, .long, .amount, .transactionId],
        v.kind = .value ⟨t, false⟩ → v.constant = true → v.initializable = false →
          ∃ s n, v.value = some s ∧ Numeral.word? s = some n ∧
            Program.under Line.value? ls v.name = [some (.plain s)] ∧
            (∃ behind, (Line.wordType ++ " " ++ v.name ++ " = " ++ s ++ ";" ++ behind).toList ∈
              Text.lines d.code) ∧
            (Numeral.IsDecimal s n ↔
              s.toList.head? ≠ some '+' ∧ (s.toList.head? = some '0' → s = "0"))) ∧
      (ls.filterMap Line.definition? =
        (d.methods.map fun m => (m.constant, m.code)) ++ d.maps.filterMap fun m =>
          m.key1.value.map fun value => (Name.mapConstant m.name m.key1.name, value)) ∧
      ∀ c ∈ ls.filterMap Line.definition?, ∃ s, Numeral.IsDecimal s c.2 ∧
        ("#define " ++ c.1 ++ " " ++ s).toList ∈ Text.lines d.code := by
  refine ⟨d.program, h.readProgram?_code, ?_, ?_, ?_⟩
  · intro v hv t ht hkind hconstant hinit
    obtain ⟨s, n, hs, hn, hinitial⟩ := h.exists_word?_of_constant hv ht hkind hconstant hinit
    have hstruct : v.isStruct = false := by rw [Variable.isStruct, hkind]
    have hunder : Program.under Line.value? d.program v.name = [some (.plain s)] := by
      rw [h.under_value hv, hstruct, hinitial]
      rfl
    have hmem : (v.name, some (.plain s)) ∈ d.program.filterMap Line.value? := by
      rw [d.values_program, ← hinitial]
      exact List.mem_map_of_mem (List.mem_filter.2 ⟨hv, by rw [hstruct, Bool.not_false]⟩)
    have hlines := h.exists_mem_lines_of_mem_values hmem
    rw [Literal.text] at hlines
    exact ⟨s, n, hs, hn, hunder, hlines, Numeral.isDecimal_iff_of_word? hn⟩
  · exact d.definitions_program
  · intro c hc
    exact h.exists_isDecimal_of_mem_definitions hc

/-- A description with constants in decimal form, with a sign and with needless zeros. -/
def Description.numbered : Description :=
  { starter "Sample" with
    methods := [⟨"pay", none, 7, []⟩]
    stateVariables :=
      [⟨"fee", .value ⟨.amount, false⟩, none, true, false, some "010"⟩,
       ⟨"limit", .value ⟨.long, false⟩, none, true, false, some "18446744073709551615"⟩,
       ⟨"bonus", .value ⟨.long, false⟩, some "Paid once", true, false, some "+0"⟩] }

theorem Description.isAccepted_numbered : numbered.IsAccepted :=
  isAccepted_of_toOption (by decide +kernel)

theorem declared_in_decimal_numbered :
    ∃ ls, readProgram? Description.numbered.code = some ls ∧
      Program.under Line.value? ls "limit" = [some (.plain "18446744073709551615")] ∧
      Numeral.IsDecimal "18446744073709551615" 18446744073709551615 := by
  obtain ⟨ls, hls, hvalues, -, -⟩ := declared_in_decimal_iff Description.isAccepted_numbered
  obtain ⟨s, n, hs, hn, hunder, -, hdecimal⟩ :=
    hvalues ⟨"limit", .value ⟨.long, false⟩, none, true, false, some "18446744073709551615"⟩
      (by decide) .long (by decide) rfl rfl rfl
  obtain rfl : "18446744073709551615" = s := Option.some.inj hs
  obtain rfl : 18446744073709551615 = n := Option.some.inj ((by decide : _ = _).trans hn)
  exact ⟨ls, hls, hunder, hdecimal.2 (by decide)⟩

/-- The value of a constant that is read as ten is declared with a zero before the ten, although ten has
one decimal form. -/
theorem declared_in_other_form :
    Description.numbered.IsAccepted ∧ Numeral.word? "010" = some 10 ∧
      "long fee = 010;".toList ∈ Text.lines Description.numbered.code ∧
      ∀ s, Numeral.IsDecimal s 10 ↔ s = "10" := by
  refine ⟨Description.isAccepted_numbered, by decide, ?_, fun s => Numeral.isDecimal_iff⟩
  rw [Description.isAccepted_numbered.lines_code]
  decide +kernel

end SmartContract
