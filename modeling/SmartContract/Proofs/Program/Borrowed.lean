import Mathlib.Data.List.Perm.Basic
import SmartContract.Proofs.Program.Expansion

/-!
Words that a program takes from the language. Every identifier of a program is borrowed from the
language, declared by the line that it stands on, or refers to what another line declares or defines.
A method or variable that is spelled like a borrowed word would change what the word means. None is
spelled like a keyword, a built-in function or a name of the skeleton. But truth values are borrowed
too where variables are declared with them, and they are not reserved.
-/

namespace SmartContract

/-! ### Borrowed words, declarations and references -/

namespace Line

/-- The words of a line that no line declares: keywords, built-in functions and truth values. -/
def borrowed : Line → List String
  | word _ literal _ => wordType :: literal.elim [] Literal.words
  | structStart _ => ["struct"]
  | field _ | arrayField .. => [wordType]
  | functionStart _ parameters => "void" :: parameters.map fun _ => wordType
  | loopStart => ["while", "getNextTx"]
  | lookUpSender => ["getSender"]
  | readMessage => ["readMessage"]
  | choiceStart => ["switch"]
  | choiceCase _ => ["case"]
  | leave => ["break"]
  | blank | property .. | setting .. | comment _ | constant .. | structEnd _ | call .. | body _
  | close _ => []

/-- The words of a line that it declares: variables, functions with their parameters, and structs with
their fields. -/
def declared : Line → List String
  | word name .. | structStart name | field name | arrayField name _ | structEnd name => [name]
  | functionStart name parameters => name :: parameters
  | _ => []

/-- The words of a line that refer to what another line declares or defines. -/
def references : Line → List String
  | loopStart => ["currentTx", "txId"]
  | lookUpSender => ["currentTx", "sender", "currentTx", "txId"]
  | readMessage => ["currentTx", "txId", "currentTx", "message"]
  | choiceStart => ["currentTx", "message"]
  | choiceCase name => [name]
  | call function arguments =>
    function :: (List.range arguments).flatMap fun _ => ["currentTx", "message"]
  | _ => []

theorem words_functionStart_perm (name : String) (parameters : List String) :
    (functionStart name parameters).words.Perm
      ((functionStart name parameters).borrowed ++ (functionStart name parameters).declared) := by
  have hparameters : (parameters.flatMap ([wordType, ·])).Perm
      (parameters.map (fun _ => wordType) ++ parameters) := by
    induction parameters with
    | nil => exact .refl _
    | cons p ps ih =>
      rw [List.flatMap_cons, List.map_cons, List.cons_append]
      apply List.Perm.cons
      exact (ih.cons p).trans List.perm_middle.symm
  rw [words, borrowed, declared, List.cons_append]
  apply List.Perm.cons
  exact (hparameters.cons name).trans List.perm_middle.symm

/-- No other words stand on a line. -/
theorem words_perm (l : Line) : l.words.Perm (l.borrowed ++ l.declared ++ l.references) := by
  cases l with
  | functionStart name parameters =>
    show List.Perm _ (_ ++ [])
    rw [List.append_nil]
    exact words_functionStart_perm name parameters
  | word name literal remark =>
    show List.Perm (wordType :: name :: _) (wordType :: _ ++ [name] ++ [])
    rw [List.append_nil, List.cons_append]
    apply List.Perm.cons
    exact (List.perm_append_singleton name _).symm
  | loopStart | lookUpSender | readMessage => decide
  | _ => exact .refl _

theorem mem_declared_of_function? {l : Line} {f : String × List String}
    (h : l.function? = some f) : f.1 ∈ l.declared := by
  cases l with
  | functionStart name parameters =>
    obtain rfl := Option.some.inj h
    exact List.mem_cons_self
  | _ => cases h

theorem mem_borrowed_of_value? {l : Line} {name s : String}
    (h : l.value? = some (name, some (.plain s))) (hs : Name.IsName s) : s ∈ l.borrowed := by
  cases l with
  | word name literal remark =>
    cases h
    rw [borrowed, Option.elim_some, Literal.words, if_pos hs]
    exact List.mem_cons_of_mem _ List.mem_cons_self
  | _ => cases h

end Line

/-- The identifiers of a text. -/
def Text.identifiers (s : String) : List String := (Text.tokens s).filterMap Token.identifier?

theorem Text.identifiers_join {ls : List Line} (h : ∀ l ∈ ls, l.IsWellFormed)
    (hl : ∀ l ∈ ls, l.HasAdmittedLiteral) :
    identifiers (String.join (ls.map Line.text)) = ls.flatMap Line.words := by
  have hall : Scanner.Scans .lineStart (String.join (ls.map Line.text)).toList .lineStart
      (ls.flatMap Line.words) := by
    induction ls with
    | nil => exact ⟨rfl, rfl⟩
    | cons l ls ih =>
      rw [List.forall_mem_cons] at h hl
      rw [List.map_cons, String.join_cons, String.toList_append, List.flatMap_cons]
      exact (Line.scans_text h.1 hl.1).append (ih h.2 hl.2)
  rw [identifiers, tokens, hall.1, List.filterMap_append, hall.2]
  exact List.append_nil _

namespace Description

variable {d : Description}

/-- The identifiers of the program are borrowed, declared or referred to. -/
theorem IsAccepted.identifiers_code_perm (h : d.IsAccepted) :
    (Text.identifiers d.code).Perm (d.program.flatMap Line.borrowed
      ++ d.program.flatMap Line.declared ++ d.program.flatMap Line.references) := by
  rw [code, Text.identifiers_join h.isWellFormed_program h.hasAdmittedLiteral]
  have hwords : (d.program.flatMap Line.words).Perm
      (d.program.flatMap fun l => l.borrowed ++ l.declared ++ l.references) :=
    List.Perm.flatMap_left _ fun l _ => l.words_perm
  apply hwords.trans
  apply (List.flatMap_append_perm d.program _ Line.references).symm.trans
  exact (List.flatMap_append_perm d.program _ _).symm.append_right _

/-! ### What words refer to -/

theorem transactionLines_subset_program (d : Description) : transactionLines ⊆ d.program := by
  intro l hl
  simp only [program, List.mem_append]
  exact .inl (.inl (.inr hl))

/-- The function of a method is declared in the program. -/
theorem name_mem_declared_of_method {m : Method} (hm : m ∈ d.methods) :
    m.name ∈ d.program.flatMap Line.declared := by
  have hfunction : (m.name, m.arguments.map (·.name)) ∈ d.program.filterMap Line.function? := by
    rw [functions_program]
    exact List.mem_cons_of_mem _ (List.mem_map_of_mem hm)
  obtain ⟨l, hl, heq⟩ := List.mem_filterMap.1 hfunction
  exact List.mem_flatMap.2 ⟨l, hl, Line.mem_declared_of_function? heq⟩

/-- What the words of a program refer to is declared in it, or is a constant that it defines. -/
theorem declared_or_defined_of_mem_references (d : Description) :
    ∀ w ∈ d.program.flatMap Line.references,
      w ∈ d.program.flatMap Line.declared ∨
        w ∈ (d.program.filterMap Line.definition?).map (·.1) := by
  have htransaction : ∀ w ∈ ["currentTx", "txId", "sender", "message"],
      w ∈ d.program.flatMap Line.declared := by
    intro w hw
    have hlines : ∀ w ∈ ["currentTx", "txId", "sender", "message"],
        w ∈ transactionLines.flatMap Line.declared := by decide
    obtain ⟨l, hl, hw⟩ := List.mem_flatMap.1 (hlines w hw)
    exact List.mem_flatMap.2 ⟨l, d.transactionLines_subset_program hl, hw⟩
  have hskeleton : ∀ l ∈ skeletonLines, ∀ w ∈ l.references,
      w ∈ ["currentTx", "txId", "sender", "message"] := by decide
  have hnone : ∀ w ∈ ([] : List String), w ∈ d.program.flatMap Line.declared ∨
      w ∈ (d.program.filterMap Line.definition?).map (·.1) := List.forall_mem_nil _
  rw [List.forall_mem_flatMap]
  refine forall_mem_program (fun l hl w hw => .inl (htransaction w (hskeleton l hl w hw)))
    (fun _ _ => hnone) (forall_mem_properties hnone (fun _ _ => hnone) hnone hnone)
    (fun _ _ => hnone) (fun m hm => ?_) (fun _ _ _ _ => hnone) (fun _ _ => hnone)
    (fun _ _ => ⟨hnone, fun _ _ => hnone, hnone⟩)
  -- A method is referred to by the label of its case and by the call in it.
  have hconstant : m.constant ∈ (d.program.filterMap Line.definition?).map (·.1) := by
    rw [definitions_program, List.map_append, List.map_map]
    exact List.mem_append_left _ (List.mem_map_of_mem hm)
  refine ⟨hnone, List.forall_mem_singleton.2 (.inr hconstant), ?_, hnone, hnone⟩
  rw [Line.references, List.forall_mem_cons, List.forall_mem_flatMap]
  refine ⟨.inl (name_mem_declared_of_method hm), fun _ _ w hw => .inl (htransaction w ?_)⟩
  revert w
  decide

/-! ### Which words are borrowed -/

/-- Only the literals of truth values have words. -/
theorem IsAccepted.literal?_of_mem_words (h : d.IsAccepted) {v : Variable}
    (hv : v ∈ d.stateVariables) {l : Literal} (hl : v.initial? = some l) {w : String}
    (hw : w ∈ l.words) : v.valueType? = some ⟨.boolean, false⟩ ∧ v.literal? = some w := by
  obtain ⟨s, hs, rfl⟩ := Option.map_eq_some_iff.1 hl
  obtain ⟨t, hkind, hadmits⟩ := h.exists_admits_of_literal? hv hs
  have htype : v.valueType? = some ⟨t, false⟩ := by rw [Variable.valueType?, hkind]
  rw [htype] at hw ⊢
  cases t with
  | boolean =>
    have hwords : w ∈ (Literal.plain s).words := hw
    rw [Literal.words] at hwords
    split at hwords
    · rw [List.mem_singleton.1 hwords]
      exact ⟨rfl, hs⟩
    · cases hwords
  | string => cases hw
  | address | long | amount | transactionId =>
    obtain ⟨digits, hdigits, hall, -⟩ := hadmits
    have hnone : w ∈ (Literal.plain s).words := hw
    rw [Literal.words_of_digits hdigits hall] at hnone
    cases hnone

/-- The words that a program borrows are reserved, apart from the truth values with which variables
are declared. -/
theorem IsAccepted.isReserved_of_mem_borrowed (h : d.IsAccepted) :
    ∀ w ∈ d.program.flatMap Line.borrowed, Vocabulary.isReserved w = true ∨
      ∃ v ∈ d.stateVariables, v.valueType? = some ⟨.boolean, false⟩ ∧ v.literal? = some w := by
  have hskeleton : ∀ l ∈ skeletonLines, ∀ w ∈ l.borrowed, Vocabulary.isReserved w = true := by
    decide
  have htype : Vocabulary.isReserved Line.wordType = true := by decide
  have hnone : ∀ w ∈ ([] : List String), Vocabulary.isReserved w = true ∨
      ∃ v ∈ d.stateVariables, v.valueType? = some ⟨.boolean, false⟩ ∧ v.literal? = some w :=
    List.forall_mem_nil _
  rw [List.forall_mem_flatMap]
  refine forall_mem_program (fun l hl w hw => .inl (hskeleton l hl w hw)) (fun _ _ => hnone)
    (forall_mem_properties hnone (fun _ _ => hnone) hnone hnone) (fun _ _ => hnone)
    (fun m hm => ⟨hnone, ?_, hnone, ?_, hnone⟩) (fun _ _ _ _ => hnone) (fun v hv => ?_)
    (fun v hv => ⟨?_, fun _ _ => ?_, hnone⟩)
  · exact List.forall_mem_singleton.2 (.inl (by decide))
  · rw [Line.borrowed, List.forall_mem_cons, List.forall_mem_map]
    exact ⟨.inl (by decide), fun _ _ => .inl htype⟩
  · rw [Line.borrowed, List.forall_mem_cons]
    refine ⟨.inl htype, fun w hw => .inr ?_⟩
    have hv := (List.mem_filter.1 hv).1
    cases hl : v.initial? with
    | none =>
      rw [hl] at hw
      cases hw
    | some l =>
      rw [hl] at hw
      exact ⟨v, hv, h.literal?_of_mem_words hv hl hw⟩
  · exact List.forall_mem_singleton.2 (.inl (by decide))
  · exact List.forall_mem_singleton.2 (.inl htype)

/-- The truth value with which a variable is declared is borrowed. -/
theorem IsAccepted.mem_borrowed_of_literal? (h : d.IsAccepted) {v : Variable}
    (hv : v ∈ d.stateVariables) (htype : v.valueType? = some ⟨.boolean, false⟩) {s : String}
    (hs : v.literal? = some s) : s ∈ d.program.flatMap Line.borrowed := by
  obtain ⟨t, hkind, hadmits⟩ := h.exists_admits_of_literal? hv hs
  have hboolean : t = .boolean := by
    rw [Variable.valueType?, hkind] at htype
    cases htype
    rfl
  have hname : Name.IsName s := by
    subst hboolean
    rcases hadmits with rfl | rfl <;> decide
  have hinitial : v.initial? = some (.plain s) := by
    rw [Variable.initial?, hs, htype]
    rfl
  have hvalue : v ∈ d.values := by
    apply List.mem_filter.2
    refine ⟨hv, ?_⟩
    rw [Variable.isStruct, hkind]
    rfl
  have hmem : (v.name, some (.plain s)) ∈ d.program.filterMap Line.value? := by
    rw [values_program, ← hinitial]
    exact List.mem_map_of_mem hvalue
  obtain ⟨l, hl, heq⟩ := List.mem_filterMap.1 hmem
  exact List.mem_flatMap.2 ⟨l, hl, Line.mem_borrowed_of_value? heq hname⟩

end Description

/-- Every identifier of the program for an accepted description is borrowed from the language,
declared by its line, or refers to what the program declares or defines. A method or variable of the
description is spelled like a borrowed word, or like a name of the skeleton, exactly when that is the
truth value with which a variable is declared. -/
theorem spelled_like_borrowed_iff {d : Description} (h : d.IsAccepted) :
    ∃ ls, readProgram? d.code = some ls ∧
      (Text.identifiers d.code).Perm (ls.flatMap Line.borrowed ++ ls.flatMap Line.declared
        ++ ls.flatMap Line.references) ∧
      (∀ w ∈ ls.flatMap Line.references,
        w ∈ ls.flatMap Line.declared ∨ w ∈ (Text.definitions d.code).map (·.1)) ∧
      ∀ name ∈ d.methods.map (·.name) ++ d.stateVariables.map (·.name),
        name ∈ Vocabulary.skeletonNames ++ ls.flatMap Line.borrowed ↔
          ∃ v ∈ d.stateVariables, v.valueType? = some ⟨.boolean, false⟩ ∧ v.literal? = some name := by
  refine ⟨d.program, h.readProgram?_code, h.identifiers_code_perm, ?_, fun name hname => ?_⟩
  · intro w hw
    rw [h.definitions_code, List.map_map]
    exact d.declared_or_defined_of_mem_references w hw
  have hfree : Vocabulary.isReserved name = false := by
    rw [List.mem_append] at hname
    rcases hname with hname | hname
    · obtain ⟨m, hm, rfl⟩ := List.mem_map.1 hname
      exact (h.free_method hm).1
    · obtain ⟨v, hv, rfl⟩ := List.mem_map.1 hname
      exact (h.free_stateVariable hv).1
  have hskeleton : ∀ w ∈ Vocabulary.skeletonNames, Vocabulary.isReserved w = true := by decide
  constructor
  · intro hmem
    rcases List.mem_append.1 hmem with hmem | hmem
    · rw [hskeleton name hmem] at hfree
      cases hfree
    · refine (h.isReserved_of_mem_borrowed name hmem).resolve_left fun hreserved => ?_
      rw [hreserved] at hfree
      cases hfree
  · rintro ⟨v, hv, htype, hs⟩
    exact List.mem_append_right _ (h.mem_borrowed_of_literal? hv htype hs)

/-- A description with truth values, one of which is the name of a variable. -/
def Description.flagged : Description :=
  { starter "Sample" with
    methods := [⟨"pay", none, 7, [⟨"true", ⟨.long, false⟩⟩]⟩]
    stateVariables :=
      [⟨"false", .value ⟨.long, false⟩, none, false, false, none⟩,
       ⟨"open", .value ⟨.boolean, false⟩, none, true, false, some "true"⟩] }

theorem spelled_like_borrowed_flagged :
    Description.flagged.IsAccepted ∧
      ∃ ls, readProgram? Description.flagged.code = some ls ∧
        "true" ∈ ls.flatMap Line.borrowed ∧
        "pay" ∉ Vocabulary.skeletonNames ++ ls.flatMap Line.borrowed ∧
        "false" ∉ Vocabulary.skeletonNames ++ ls.flatMap Line.borrowed := by
  have haccepted : Description.flagged.IsAccepted :=
    Description.isAccepted_of_toOption (by decide +kernel)
  obtain ⟨ls, hread, -, -, hiff⟩ := spelled_like_borrowed_iff haccepted
  have hprogram : ls = Description.flagged.program :=
    Option.some.inj (hread.symm.trans haccepted.readProgram?_code)
  refine ⟨haccepted, ls, hread, ?_, ?_, ?_⟩
  · rw [hprogram]
    decide
  · rw [hiff "pay" (by decide)]
    decide
  · rw [hiff "false" (by decide)]
    decide

/-- A description with a variable that is called like the truth value of another one. -/
def Description.misnamed : Description :=
  { starter "Sample" with
    stateVariables :=
      [⟨"true", .value ⟨.long, false⟩, none, false, false, none⟩,
       ⟨"flag", .value ⟨.boolean, false⟩, none, true, false, some "true"⟩] }

theorem spelled_like_borrowed_misnamed :
    Description.misnamed.IsAccepted ∧
      "true" ∈ Description.misnamed.stateVariables.map (·.name) ∧
      ∃ ls, readProgram? Description.misnamed.code = some ls ∧
        "true" ∈ ls.flatMap Line.borrowed ∧ "true" ∈ ls.flatMap Line.declared := by
  have haccepted : Description.misnamed.IsAccepted :=
    Description.isAccepted_of_toOption (by decide +kernel)
  exact ⟨haccepted, by decide, _, haccepted.readProgram?_code, by decide, by decide⟩

end SmartContract
