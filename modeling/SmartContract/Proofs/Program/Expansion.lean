import SmartContract.Proofs.Program.Outline
import SmartContract.Proofs.Program.Words

/-!
In the program for an accepted description the values of constants come to stand in the labels of
cases only. What the description declares differs from the constants, and what every program has is
not written in capitals, apart from a tag that differs from them too.
-/

namespace SmartContract

/-! ### Expanding lines -/

namespace Line

/-- The line with the value of its constant, if it is a label of a case. -/
def relabel (value? : String → Option String) : Line → Line
  | choiceCase name => choiceCase ((value? name).getD name)
  | l => l

/-- The identifiers of a line that are no labels. -/
def fixedWords : Line → List String
  | choiceCase _ => ["case"]
  | l => l.words

end Line

namespace Scanner

variable {value? : String → Option String} {s t : Scanner} {cs : List Char} {words : List String}

/-- Characters whose identifiers have no values stay as they are. -/
theorem Scans.expanded_eq (h : Scans s cs t words) (hs : s.isInName = false)
    (ht : t.isInName = false) (hwords : ∀ w ∈ words, value? w = none) :
    (s.tokens cs).flatMap (Token.expanded value?) = cs := by
  obtain ⟨rfl, rfl⟩ := h
  have hsame : ∀ token ∈ s.tokens cs, token.expanded value? = token.expanded fun _ => none := by
    intro token htoken
    cases token with
    | identifier name =>
      have hname := hwords name (List.mem_filterMap.2 ⟨_, htoken, rfl⟩)
      rw [Token.expanded, Token.expanded, hname]
    | other c => rfl
  rw [List.flatMap_congr hsame]
  exact tokens_eq_of_not_isInName hs ht

end Scanner

namespace Line

open Scanner

variable {value? : String → Option String} {l : Line} {ls : List Line}

theorem expanded_choiceCase {name : String} (hname : Name.IsName name)
    (hcase : value? "case" = none) :
    (lineStart.tokens (choiceCase name).text.toList).flatMap (Token.expanded value?) =
      ((choiceCase name).relabel value?).text.toList := by
  have hstart : Scans lineStart (indentation 3 ++ "case ").toList code ["case"] := by decide
  have hkept := hstart.expanded_eq rfl rfl (List.forall_mem_singleton.2 hcase)
  have hname := (tokens_of_isName hname (.inr rfl) (by decide : Name.isPart ':' = false) ['\n']).1
  have hend : code.tokens [':', '\n'] = [.other ':', .other '\n'] := by decide
  have hcs : (choiceCase name).text.toList =
      (indentation 3 ++ "case ").toList ++ (name.toList ++ [':', '\n']) := by
    simp [text, content, level]
  rw [hcs, tokens_append, List.flatMap_append, hkept, hstart.1, hname, hend]
  simp [relabel, text, content, level, Token.expanded]

/-- Values come to stand in labels, if no other identifier of the line has one. -/
theorem expanded_text (h : l.IsWellFormed) (hl : l.HasAdmittedLiteral)
    (hwords : ∀ w ∈ l.fixedWords, value? w = none) :
    (lineStart.tokens l.text.toList).flatMap (Token.expanded value?) =
      (l.relabel value?).text.toList := by
  cases l with
  | choiceCase name => exact expanded_choiceCase h (hwords _ (List.mem_singleton_self _))
  | _ => exact (scans_text h hl).expanded_eq rfl rfl hwords

/-- The text of lines, each of which leaves the scanner where a line starts, is expanded line by
line. -/
theorem expand_join (h : ∀ l ∈ ls, l.IsWellFormed) (hl : ∀ l ∈ ls, l.HasAdmittedLiteral)
    (hwords : ∀ l ∈ ls, ∀ w ∈ l.fixedWords, value? w = none) :
    Text.expand value? (String.join (ls.map text)) =
      String.join ((ls.map (relabel value?)).map text) := by
  have hall : lineStart.after (String.join (ls.map text)).toList = lineStart ∧
      (lineStart.tokens (String.join (ls.map text)).toList).flatMap (Token.expanded value?) =
        (String.join ((ls.map (relabel value?)).map text)).toList := by
    induction ls with
    | nil => exact ⟨rfl, rfl⟩
    | cons l ls ih =>
      rw [List.forall_mem_cons] at h hl hwords
      obtain ⟨hafter, htokens⟩ := ih h.2 hl.2 hwords.2
      have hline := (scans_text h.1 hl.1).1
      simp only [List.map_cons, String.join_cons, String.toList_append]
      rw [after_append, tokens_append, hline, List.flatMap_append,
        expanded_text h.1 hl.1 hwords.1, htokens]
      exact ⟨hafter, rfl⟩
  have hfinish : lineStart.finish = [] := rfl
  rw [Text.expand, Text.tokens, hall.1, hfinish, List.append_nil, hall.2, String.ofList_toList]

theorem definition?_chars (h : l.IsWellFormed) :
    Text.definition? l.chars = l.definition?.map fun c => (c.1, Numeral.text c.2) := by
  rw [Text.definition?, (indentation_chars h).2]
  cases l with
  | constant name value =>
    have hspace : ' ' ∉ name.toList := Name.not_mem_of_isName (by decide) h
    have hcs : (constant name value).content.toList =
        "#define ".toList ++ (name.toList ++ ' ' :: (Numeral.text value).toList) := by
      simp [content]
    rw [hcs, behind?_append]
    exact keyAndValue?_append hspace _
  | call name arguments =>
    obtain ⟨c, rest, hlist, hc, -⟩ := Name.isName_iff.1 h
    have hhash : '#' ≠ c := by
      rintro rfl
      exact absurd hc (by decide)
    simp [content, hlist, behind?, hhash, definition?]
  | _ => simp [content, behind?, wordType, messageWord, Vocabulary.currentTransaction, definition?]

theorem definitions_join (h : ∀ l ∈ ls, l.IsWellFormed) :
    Text.definitions (String.join (ls.map text)) =
      (ls.filterMap definition?).map fun c => (c.1, Numeral.text c.2) := by
  rw [Text.definitions, Text.lines_join h, List.filterMap_map, List.map_filterMap]
  exact List.filterMap_congr fun l hl => definition?_chars (h l hl)

end Line

/-! ### Constants of a program -/

theorem lookup_eq_some_of_mem {definitions : List (String × String)} {name value : String}
    (h : (definitions.map (·.1)).Nodup) (hmem : (name, value) ∈ definitions) :
    definitions.lookup name = some value := by
  obtain ⟨before, behind, rfl⟩ := List.append_of_mem hmem
  refine List.lookup_eq_some_iff.2 ⟨before, behind, rfl, fun d hd => ?_⟩
  rw [List.map_append, List.nodup_append] at h
  exact bne_iff_ne.2 (h.2.2 d.1 (List.mem_map_of_mem hd) name List.mem_cons_self).symm

theorem lookup_eq_none_of_not_mem {definitions : List (String × String)} {name : String}
    (h : name ∉ definitions.map (·.1)) : definitions.lookup name = none :=
  List.lookup_eq_none_iff.2 fun _ hd => bne_iff_ne.2 fun heq => h (heq ▸ List.mem_map_of_mem hd)

namespace Description

variable {d : Description}

theorem IsAccepted.definitions_code (h : d.IsAccepted) :
    Text.definitions d.code =
      (d.program.filterMap Line.definition?).map fun c => (c.1, Numeral.text c.2) :=
  Line.definitions_join h.isWellFormed_program

theorem IsAccepted.names_definitions_code (h : d.IsAccepted) :
    (Text.definitions d.code).map (·.1) = d.toDraft.constants := by
  rw [h.definitions_code, List.map_map, ← names_definitions_program]
  rfl

theorem IsAccepted.nodup_definitions_code (h : d.IsAccepted) :
    ((Text.definitions d.code).map (·.1)).Nodup := by
  rw [h.names_definitions_code, constants_toDraft]
  exact h.nodup_constants

theorem IsAccepted.constant?_eq_none (h : d.IsAccepted) {name : String}
    (hname : name ∉ d.toDraft.constants) : Text.constant? d.code name = none :=
  lookup_eq_none_of_not_mem (h.names_definitions_code ▸ hname)

theorem IsAccepted.constant?_constant (h : d.IsAccepted) {m : Method} (hm : m ∈ d.methods) :
    Text.constant? d.code m.constant = some (Numeral.text m.code) := by
  refine lookup_eq_some_of_mem h.nodup_definitions_code ?_
  rw [h.definitions_code, definitions_program]
  exact List.mem_map.2 ⟨(m.constant, m.code), List.mem_append_left _ (List.mem_map_of_mem hm), rfl⟩

/-- Constants are written without small letters. -/
theorem IsAccepted.isLower_of_mem_constants (h : d.IsAccepted) {name : String}
    (hname : name ∈ d.toDraft.constants) : ∀ c ∈ name.toList, c.isLower = false := by
  rw [constants_toDraft, List.mem_append] at hname
  intro c hc
  rcases hname with hname | hname
  · obtain ⟨m, hm, rfl⟩ := List.mem_map.1 hname
    exact Name.isLower_of_mem_upper (h.isName_method hm).1 hc
  · obtain ⟨m, hm, hname⟩ := List.mem_filterMap.1 hname
    obtain ⟨_, -, rfl⟩ := Option.map_eq_some_iff.1 hname
    exact Name.isLower_of_mem_mapConstant (h.isName_map hm).1 (h.isName_map hm).2 hc

theorem IsAccepted.not_mem_constants_of_isLower (h : d.IsAccepted) {name : String}
    (hname : name.toList.any Char.isLower = true) : name ∉ d.toDraft.constants := by
  intro hconstant
  obtain ⟨c, hc, hlower⟩ := List.any_eq_true.1 hname
  rw [h.isLower_of_mem_constants hconstant c hc] at hlower
  cases hlower

/-! ### Identifiers of a program -/

theorem IsAccepted.hasAdmittedLiteral (h : d.IsAccepted) :
    ∀ l ∈ d.program, l.HasAdmittedLiteral := by
  intro l hl
  cases l with
  | word name literal remark =>
    have hvalue : (name, literal) ∈ d.program.filterMap Line.value? :=
      List.mem_filterMap.2 ⟨_, hl, rfl⟩
    rw [values_program] at hvalue
    obtain ⟨v, hv, heq⟩ := List.mem_map.1 hvalue
    obtain ⟨rfl, rfl⟩ := Prod.mk.inj heq
    exact h.isAdmitted_initial (List.mem_filter.1 hv).1
  | _ => trivial

/-- No identifier of the skeleton is a constant: it has small letters or is the tag of the struct of
the transaction. -/
theorem IsAccepted.not_mem_constants_of_skeleton (h : d.IsAccepted) :
    ∀ l ∈ skeletonLines, ∀ w ∈ l.fixedWords, w ∉ d.toDraft.constants := by
  have hskeleton : ∀ l ∈ skeletonLines, ∀ w ∈ l.fixedWords,
      w.toList.any Char.isLower = true ∨ w = Vocabulary.transactionTag := by decide
  intro l hl w hw
  rcases hskeleton l hl w hw with hlower | rfl
  · exact h.not_mem_constants_of_isLower hlower
  · exact h.not_mem_constants_of_mem_tags List.mem_cons_self

/-- In the program for an accepted description only labels are constants. -/
theorem IsAccepted.not_mem_constants_of_mem_fixedWords (h : d.IsAccepted) :
    ∀ l ∈ d.program, ∀ w ∈ l.fixedWords, w ∉ d.toDraft.constants := by
  have htype : Line.wordType ∉ d.toDraft.constants := h.not_mem_constants_of_isLower (by decide)
  have hnone : ∀ w ∈ ([] : List String), w ∉ d.toDraft.constants := List.forall_mem_nil _
  refine forall_mem_program h.not_mem_constants_of_skeleton (fun _ _ => hnone)
    (forall_mem_properties hnone (fun _ _ => hnone) hnone hnone) (fun _ _ => hnone)
    (fun m hm => ⟨hnone, ?_, ?_, ?_, hnone⟩) (fun _ _ _ _ => hnone) (fun v hv => ?_)
    (fun v hv => ⟨?_, ?_, ?_⟩) <;>
    simp only [Line.fixedWords, Line.words, List.forall_mem_cons, List.forall_mem_flatMap]
  · exact ⟨h.not_mem_constants_of_isLower (by decide), hnone⟩
  · refine ⟨(h.free_method hm).2, fun _ _ => ⟨?_, ?_, hnone⟩⟩ <;>
      exact h.not_mem_constants_of_isLower (by decide)
  · refine ⟨h.not_mem_constants_of_isLower (by decide), (h.free_method hm).2, ?_⟩
    rw [List.forall_mem_map]
    exact fun a ha => ⟨htype, (h.free_argument hm ha).2, hnone⟩
  · have hv := (List.mem_filter.1 hv).1
    refine ⟨htype, (h.free_stateVariable hv).2, ?_⟩
    cases hl : v.initial? with
    | none => exact hnone
    | some l =>
      intro w hw
      have hadmitted := h.isAdmitted_initial hv l hl
      exact h.not_mem_constants_of_isLower (Literal.any_isLower_of_mem_words hadmitted w hw)
  · refine ⟨h.not_mem_constants_of_isLower (by decide), ?_, hnone⟩
    exact h.not_mem_constants_of_mem_tags (List.mem_cons_of_mem _ (upper_mem_tags hv))
  · exact fun f hf => ⟨htype, (h.free_field (List.mem_filter.1 hv).1 hf).2, hnone⟩
  · exact ⟨(h.free_stateVariable (List.mem_filter.1 hv).1).2, hnone⟩

/-- No word of the vocabulary is a constant. -/
theorem IsAccepted.not_mem_constants_of_isReserved (h : d.IsAccepted) {name : String}
    (hname : Vocabulary.isReserved name = true) : name ∉ d.toDraft.constants := by
  have hlower : ∀ w ∈ Vocabulary.keywords ++ Vocabulary.skeletonNames
      ++ Vocabulary.builtinFunctions, w.toList.any Char.isLower = true := by decide
  refine h.not_mem_constants_of_isLower (hlower name ?_)
  simpa [Vocabulary.isReserved, or_assoc] using hname

end Description

/-- In the text of the program values come to stand in the labels of cases only. -/
structure Description.KeepsNames (d : Description) : Prop where
  /-- No constant is defined twice. -/
  once : ((Text.definitions d.code).map (·.1)).Nodup
  /-- With values in the places of constants the text has the same lines, but for the labels. -/
  labels : ∃ ls, readProgram? d.code = some ls ∧ d.code = String.join (ls.map Line.text) ∧
    Text.expand (Text.constant? d.code) d.code =
      String.join ((ls.map (Line.relabel (Text.constant? d.code))).map Line.text)
  methods : ∀ m ∈ d.methods,
    Text.constant? d.code m.constant = some (Numeral.text m.code) ∧
      Text.constant? d.code m.name = none ∧
      ∀ a ∈ m.arguments, Text.constant? d.code a.name = none
  stateVariables : ∀ v ∈ d.stateVariables, Text.constant? d.code v.name = none ∧
    ∀ f ∈ v.fields, Text.constant? d.code f.name = none
  tags : ∀ v ∈ d.structs, Text.constant? d.code (Name.upper v.name) = none
  /-- Keywords, built-in functions and the names of the skeleton have no values. -/
  vocabulary : ∀ name, Vocabulary.isReserved name = true →
    Text.constant? d.code name = none
  skeleton : ∀ name ∈ [Vocabulary.transactionTag, "txId", "sender", "message"],
    Text.constant? d.code name = none

/-- In the text of the program for an accepted description values come to stand in the labels of
cases only. -/
theorem accepted_keepsNames {d : Description} (h : d.IsAccepted) : d.KeepsNames where
  once := h.nodup_definitions_code
  labels := by
    refine ⟨d.program, h.readProgram?_code, rfl, ?_⟩
    refine Line.expand_join h.isWellFormed_program h.hasAdmittedLiteral fun l hl w hw => ?_
    exact h.constant?_eq_none (h.not_mem_constants_of_mem_fixedWords l hl w hw)
  methods m hm :=
    ⟨h.constant?_constant hm, h.constant?_eq_none (h.free_method hm).2,
      fun _ ha => h.constant?_eq_none (h.free_argument hm ha).2⟩
  stateVariables v hv :=
    ⟨h.constant?_eq_none (h.free_stateVariable hv).2,
      fun _ hf => h.constant?_eq_none (h.free_field hv hf).2⟩
  tags v hv :=
    h.constant?_eq_none
      (h.not_mem_constants_of_mem_tags (List.mem_cons_of_mem _ (Description.upper_mem_tags hv)))
  vocabulary _ hname := h.constant?_eq_none (h.not_mem_constants_of_isReserved hname)
  skeleton name hname := by
    refine h.constant?_eq_none ?_
    rcases List.mem_cons.1 hname with rfl | hname
    · exact h.not_mem_constants_of_mem_tags List.mem_cons_self
    · have hlower : ∀ w ∈ ["txId", "sender", "message"], w.toList.any Char.isLower = true := by
        decide
      exact h.not_mem_constants_of_isLower (hlower name hname)

theorem sample_keepsNames :
    Description.sample.IsAccepted ∧
      Text.constant? Description.sample.code "PAY" = some "7" ∧
      Text.constant? Description.sample.code "pay" = none ∧
      Line.choiceCase "7" ∈ Description.sample.program.map
        (Line.relabel (Text.constant? Description.sample.code)) := by
  have hkeeps := accepted_keepsNames Description.isAccepted_sample
  obtain ⟨hconstant, hname, -⟩ := hkeeps.methods Description.sample.methods[1] (by decide)
  have hpay : Text.constant? Description.sample.code "PAY" = some "7" := hconstant
  refine ⟨Description.isAccepted_sample, hpay, hname, ?_⟩
  refine List.mem_map.2 ⟨.choiceCase "PAY", by decide, ?_⟩
  rw [Line.relabel, hpay]
  rfl

end SmartContract
