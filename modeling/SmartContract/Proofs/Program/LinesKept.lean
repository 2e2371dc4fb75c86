import SmartContract.Proofs.Program.Uncommented
import SmartContract.Proofs.Text.LogicalLines

/-!
Texts of a description on the lines of its program. The text about the contract must stand on one
line, and texts about variables are put on one; but what is said about a method keeps the carriage
returns within its lines. A backslash at the end of a text is kept everywhere. So a program has under
the rules of C the lines that it is made of unless one of these stands in a text.
-/

namespace SmartContract

/-- The text has neither carriage returns nor backslashes in it. -/
def Text.IsPlain (s : String) : Prop := '\r' ∉ s.toList ∧ '\\' ∉ s.toList

instance (s : String) : Decidable (Text.IsPlain s) :=
  inferInstanceAs (Decidable ('\r' ∉ s.toList ∧ '\\' ∉ s.toList))

theorem Text.isPlain_of_forall {p : Char → Bool} {s : String} (h : ∀ c ∈ s.toList, p c = true)
    (hreturn : p '\r' = false) (hbackslash : p '\\' = false) : IsPlain s := by
  constructor
  · intro hmem
    rw [h _ hmem] at hreturn
    cases hreturn
  · intro hmem
    rw [h _ hmem] at hbackslash
    cases hbackslash

theorem Literal.IsAdmitted.isPlain_text {l : Literal} (h : l.IsAdmitted) :
    Text.IsPlain l.text := by
  cases l with
  | plain s =>
    obtain ⟨t, ht, hadmits⟩ := h
    constructor
    · exact not_mem_of_admits hadmits ht (by decide) (by decide) (by decide)
    · exact not_mem_of_admits hadmits ht (by decide) (by decide) (by decide)
  | quoted s =>
    have hreturn : '\r' ∉ s.toList := fun hmem => absurd (h.2 _ hmem).1 (by decide)
    have hbackslash : '\\' ∉ s.toList := fun hmem =>
      (ne_of_mem_of_admits_string h hmem).2.1 rfl
    constructor
    · simp [text, hreturn]
    · simp [text, hbackslash]

/-! ### Texts at the ends of lines -/

namespace Line

/-- The text with which the line ends. -/
def lastText? : Line → Option String
  | property _ value | setting _ value => some value
  | comment text => some text
  | word _ _ remark => remark
  | _ => none

theorem mem_texts_of_lastText? {l : Line} {t : String} (h : l.lastText? = some t) :
    t ∈ l.texts := by
  cases l with
  | property key value | setting key value =>
    obtain rfl : value = t := Option.some.inj h
    exact List.mem_cons_of_mem _ List.mem_cons_self
  | comment text =>
    obtain rfl : text = t := Option.some.inj h
    exact List.mem_cons_self
  | word name literal remark =>
    obtain rfl : remark = some t := h
    exact List.mem_append_right _ List.mem_cons_self
  | _ => cases h

theorem exists_chars_of_lastText? {l : Line} {t : String} (h : l.lastText? = some t) :
    ∃ cs, l.chars = cs ++ ' ' :: t.toList := by
  cases l with
  | property key value =>
    obtain rfl : value = t := Option.some.inj h
    exact ⟨("#program " ++ key).toList, by simp [chars, indentation, level, content]⟩
  | setting key value =>
    obtain rfl : value = t := Option.some.inj h
    exact ⟨("#pragma " ++ key).toList, by simp [chars, indentation, level, content]⟩
  | comment text =>
    obtain rfl : text = t := Option.some.inj h
    exact ⟨"//".toList, by simp [chars, indentation, level, content]⟩
  | word name literal remark =>
    obtain rfl : remark = some t := h
    exact ⟨(word name literal none).chars ++ " //".toList,
      by simp [chars, indentation, level, content]⟩
  | _ => cases h

theorem getLast?_chars_ne {l : Line} {s e : String} (h : l.content = s ++ e) (hne : e ≠ "")
    (hplain : Text.IsPlain e) : l.chars.getLast? ≠ some '\\' := by
  intro hlast
  rw [chars, h, String.toList_append, ← List.append_assoc, List.getLast?_append,
    Option.or_eq_some_iff] at hlast
  rcases hlast with hlast | ⟨hnone, -⟩
  · exact hplain.2 (List.mem_of_getLast? hlast)
  · exact hne (String.toList_eq_nil_iff.1 (List.getLast?_eq_none_iff.1 hnone))

theorem getLast?_chars_of_lastText?_eq_none {l : Line} (h : l.lastText? = none) :
    l.chars.getLast? ≠ some '\\' := by
  cases l with
  | property key value | setting key value | comment text => cases h
  | constant name value =>
    apply getLast?_chars_ne (s := "#define " ++ name ++ " ") rfl
    · intro hnil
      have hdigits := congrArg String.toList hnil
      rw [Numeral.toList_text] at hdigits
      exact Nat.toDigits_ne_nil hdigits
    · exact Text.isPlain_of_forall (isSettingPart_text value) (by decide) (by decide)
  | word name literal remark =>
    obtain rfl : remark = none := h
    apply getLast?_chars_ne (s := wordType ++ " " ++ name ++ (literal.elim "" fun l => " = " ++ l.text))
      (e := ";")
    · exact String.append_empty
    · decide
    · decide
  | structStart tag => exact getLast?_chars_ne (e := " \x7b") rfl (by decide) (by decide)
  | functionStart name parameters =>
    exact getLast?_chars_ne (e := ") \x7b") rfl (by decide) (by decide)
  | field name | structEnd name => exact getLast?_chars_ne (e := ";") rfl (by decide) (by decide)
  | arrayField name size => exact getLast?_chars_ne (e := "];") rfl (by decide) (by decide)
  | choiceCase name => exact getLast?_chars_ne (e := ":") rfl (by decide) (by decide)
  | call name arguments => exact getLast?_chars_ne (e := ");") rfl (by decide) (by decide)
  | body name => exact getLast?_chars_ne (e := " here") rfl (by decide) (by decide)
  | close level => exact getLast?_chars_ne (s := "") (e := "\x7d") rfl (by decide) (by decide)
  | blank | loopStart | lookUpSender | readMessage | choiceStart | leave => decide

/-- A line ends in a backslash exactly when its last text does. -/
theorem getLast?_chars_iff {l : Line} :
    l.chars.getLast? = some '\\' ↔ ∃ t, l.lastText? = some t ∧ t.toList.getLast? = some '\\' := by
  cases h : l.lastText? with
  | none => simp [getLast?_chars_of_lastText?_eq_none h]
  | some t =>
    obtain ⟨cs, hcs⟩ := exists_chars_of_lastText? h
    cases ht : t.toList.getLast? <;> simp [hcs, List.getLast?_append, List.getLast?_cons, ht]

end Line

/-! ### Texts of a description -/

/-- What is said about the method, line by line. -/
def Method.descriptionLines (m : Method) : List (List Char) :=
  (m.description.map fun s => Text.pieces (· == '\n') s.toList).getD []

theorem Method.mem_filledLines_iff {m : Method} {s : String} :
    s ∈ (m.description.map Text.filledLines).getD [] ↔
      ∃ line ∈ m.descriptionLines, Text.trimChars line ≠ [] ∧
        s = String.ofList (Text.trimChars line) := by
  rw [descriptionLines]
  cases m.description with
  | none => simp
  | some description =>
    simp only [Option.map_some, Option.getD_some, Text.filledLines, List.mem_map, List.mem_filter]
    constructor
    · rintro ⟨_, ⟨⟨line, hline, rfl⟩, hne⟩, rfl⟩
      exact ⟨line, hline, by simpa using hne, rfl⟩
    · rintro ⟨line, hline, hne, rfl⟩
      exact ⟨_, ⟨⟨line, hline, rfl⟩, by simpa using hne⟩, rfl⟩

namespace Description

variable {d : Description}

/-- The texts of a description, those about methods line by line. -/
def textLines (d : Description) : List (List Char) :=
  (d.description.toList ++ d.stateVariables.filterMap (·.description)).map String.toList
    ++ d.methods.flatMap Method.descriptionLines

theorem mem_textLines_iff {u : List Char} : u ∈ d.textLines ↔
    (∃ s, d.description = some s ∧ s.toList = u) ∨
      (∃ v ∈ d.stateVariables, ∃ s, v.description = some s ∧ s.toList = u) ∨
      ∃ m ∈ d.methods, u ∈ m.descriptionLines := by
  simp only [textLines, List.mem_append, List.map_append, List.mem_map, Option.mem_toList,
    List.mem_filterMap, List.mem_flatMap, or_assoc]
  refine or_congr Iff.rfl (or_congr ⟨?_, ?_⟩ Iff.rfl)
  · rintro ⟨s, ⟨v, hv, hs⟩, hu⟩
    exact ⟨v, hv, s, hs, hu⟩
  · rintro ⟨v, hv, s, hs, hu⟩
    exact ⟨s, ⟨v, hv, hs⟩, hu⟩

/-- What holds of plain texts, and of the texts of a description as they are shown, holds of all texts
on the lines of its program. -/
theorem IsAccepted.forall_mem_texts (h : d.IsAccepted) {q : String → Prop}
    (hplain : ∀ t, Text.IsPlain t → q t)
    (hcontract : ∀ s, d.description = some s → q (Text.trim s))
    (hvariables : ∀ v ∈ d.stateVariables, ∀ s, v.description = some s → q (Text.oneLine s))
    (hmethods : ∀ m ∈ d.methods, ∀ line ∈ m.descriptionLines,
      q (String.ofList (Text.trimChars line))) :
    ∀ l ∈ d.program, ∀ t ∈ l.texts, q t := by
  have hremark : ∀ v ∈ d.stateVariables, ∀ r, remark? v.description = some r → q r := by
    intro v hv r hr
    obtain ⟨s, hs, rfl⟩ := Option.map_eq_some_iff.1 (Option.filter_eq_some_iff.1 hr).1
    exact hvariables v hv s hs
  have hnone : ∀ t ∈ ([] : List String), q t := List.forall_mem_nil _
  obtain ⟨v, -, hsettings⟩ := h.isDraft.settings
  refine forall_mem_program_of_items (p := fun l => ∀ t ∈ l.texts, q t) ?_ ?_ ?_ ?_ ?_
    (fun m _ => ⟨hnone, hnone, hnone, hnone, hnone⟩) (fun m _ _ _ => hnone) ?_ ?_
  · have hall : ∀ l ∈ skeletonLines, ∀ t ∈ l.texts, Text.IsPlain t := by decide
    exact fun l hl t ht => hplain t (hall l hl t ht)
  · have hall : ∀ s ∈ headings, Text.IsPlain s := by decide
    exact fun s hs => List.forall_mem_singleton.2 (hplain s (hall s hs))
  · have hkey (key : String) (hkey : Text.IsPlain key) {value : String} (hvalue : q value) :
        ∀ t ∈ (Line.property key value).texts, q t :=
      List.forall_mem_cons.2 ⟨hplain key hkey, List.forall_mem_singleton.2 hvalue⟩
    have hname : Text.IsPlain d.name :=
      Text.isPlain_of_forall (Name.isPart_of_isName h.isName) (by decide) (by decide)
    have hamount : Text.IsPlain (Numeral.text d.activationAmount) :=
      Text.isPlain_of_forall (isSettingPart_text _) (by decide) (by decide)
    exact forall_mem_properties (hkey _ (by decide) (hplain _ hname))
      (fun s hs => hkey _ (by decide) (hcontract s hs)) (hkey _ (by decide) (hplain _ hamount)) hnone
  · intro e he
    obtain ⟨hkey, hvalue⟩ := Settings.isSettingPart_entries hsettings e he
    refine List.forall_mem_cons.2 ⟨hplain _ ?_, List.forall_mem_singleton.2 (hplain _ ?_)⟩
    · exact Text.isPlain_of_forall hkey (by decide) (by decide)
    · exact Text.isPlain_of_forall hvalue (by decide) (by decide)
  · intro m hm s hs
    obtain ⟨line, hline, -, rfl⟩ := Method.mem_filledLines_iff.1 hs
    exact List.forall_mem_singleton.2 (hmethods m hm line hline)
  · intro v hv
    have hv := (List.mem_filter.1 hv).1
    simp only [Line.texts, List.forall_mem_append, Option.mem_toList]
    refine ⟨fun t ht => ?_, hremark v hv⟩
    obtain ⟨l, hl, rfl⟩ := Option.map_eq_some_iff.1 ht
    exact hplain _ (h.isAdmitted_initial hv l hl).isPlain_text
  · intro v hv
    refine ⟨fun r hr => ?_, hnone, fun _ _ => hnone, hnone⟩
    exact List.forall_mem_singleton.2 (hremark v (List.mem_filter.1 hv).1 r hr)

/-! ### Where texts are shown -/

theorem mem_titled {heading : String} {lines : List Line} {l : Line} (h : l ∈ lines) :
    l ∈ titled heading lines := by
  rw [titled, if_neg (by simpa using List.ne_nil_of_mem h)]
  exact List.mem_cons_of_mem _ (List.mem_append_left _ h)

theorem property_mem_program {s : String} (hs : d.description = some s)
    (hne : Text.trim s ≠ "") : .property "description" (Text.trim s) ∈ d.program := by
  have hmem : Line.property "description" (Text.trim s) ∈ d.properties := by
    simp [properties, hs, Option.filter, hne]
  simp [program, hmem]

theorem exists_mem_program_of_variable {v : Variable} (hv : v ∈ d.stateVariables) {s : String}
    (hs : v.description = some s) (hne : Text.oneLine s ≠ "") :
    ∃ l ∈ d.program, l.lastText? = some (Text.oneLine s) := by
  have hremark : remark? v.description = some (Text.oneLine s) := by
    simp [remark?, hs, Option.filter, hne]
  cases hstruct : v.isStruct with
  | false =>
    have hvalue : v ∈ d.values := List.mem_filter.2 ⟨hv, by simp [hstruct]⟩
    have hmem : .word v.name v.initial? (remark? v.description) ∈ d.wordLines :=
      mem_titled (List.mem_map_of_mem hvalue)
    exact ⟨.word v.name v.initial? (remark? v.description), by simp [program, hmem], hremark⟩
  | true =>
    have hmem : .comment (Text.oneLine s) ∈ d.structLines := by
      apply mem_titled
      refine List.mem_flatMap.2 ⟨v, List.mem_filter.2 ⟨hv, hstruct⟩, ?_⟩
      simp [Variable.structLines, hremark]
    exact ⟨.comment (Text.oneLine s), by simp [program, hmem], rfl⟩

theorem comment_mem_program {m : Method} (hm : m ∈ d.methods) {line : List Char}
    (hline : line ∈ m.descriptionLines) (hne : Text.trimChars line ≠ []) :
    .comment (String.ofList (Text.trimChars line)) ∈ d.program := by
  have hlines : .comment (String.ofList (Text.trimChars line)) ∈ m.functionLines := by
    apply List.mem_append_left
    exact List.mem_map_of_mem (Method.mem_filledLines_iff.2 ⟨line, hline, hne, rfl⟩)
  have hmem : .comment (String.ofList (Text.trimChars line)) ∈ d.functionLines := by
    rw [functionLines, if_neg (by simpa using List.ne_nil_of_mem hm)]
    apply List.mem_cons_of_mem
    apply List.mem_cons_of_mem
    exact List.mem_flatten.2
      ⟨_, Text.mem_intersperse_of_mem _ (List.mem_map_of_mem hm), hlines⟩
  exact List.mem_append_right _ hmem

/-! ### Lines under the rules of C -/

theorem IsAccepted.pieces_code (h : d.IsAccepted) :
    Text.pieces (· == '\n') d.code.toList = d.program.map Line.chars ++ [[]] :=
  Text.pieces_join h.isWellFormed_program

theorem IsAccepted.lines_code (h : d.IsAccepted) :
    Text.lines d.code = d.program.map Line.chars :=
  Text.lines_join h.isWellFormed_program

theorem IsAccepted.logicalLines_code (h : d.IsAccepted) :
    Text.logicalLines d.code = Text.joinContinued
      ((d.program.map Line.chars ++ [[]]).flatMap (Text.pieces (· == '\r'))) := by
  rw [Text.logicalLines, Text.pieces_isLineEnd, h.pieces_code]

/-- The program has carriage returns exactly where a line of what is said about a method does. -/
theorem IsAccepted.return_mem_code_iff (h : d.IsAccepted) :
    '\r' ∈ d.code.toList ↔
      ∃ m ∈ d.methods, ∃ line ∈ m.descriptionLines, '\r' ∈ Text.trimChars line := by
  have hlines : '\r' ∈ d.code.toList ↔ ∃ l ∈ d.program, '\r' ∈ l.chars := by
    have hflatten := Text.flatten_pieces (· == '\n') d.code.toList
    rw [h.pieces_code] at hflatten
    have hmem : '\r' ∈ d.code.toList ↔ '\r' ∈ d.code.toList.filter (!(· == '\n') ·) := by
      rw [List.mem_filter, and_iff_left (by decide)]
    rw [hmem, ← hflatten]
    simp
  rw [hlines]
  constructor
  · rintro ⟨l, hl, hmem⟩
    by_contra hnone
    have htexts : ∀ l ∈ d.program, ∀ t ∈ l.texts, '\r' ∉ t.toList := by
      refine h.forall_mem_texts (fun t ht => ht.1) ?_ ?_ ?_
      · intro s hs hmem
        have hline := h.oneLine.2
        rw [hs] at hline
        exact hline (Text.mem_of_mem_trim hmem)
      · intro v _ s _ hmem
        rcases Text.eq_space_or_not_isBlank_of_mem_oneLine hmem with heq | ⟨-, hblank⟩
        · exact absurd heq (by decide)
        · exact absurd hblank (by decide)
      · intro m hm line hline hmem
        rw [String.toList_ofList] at hmem
        exact hnone ⟨m, hm, line, hline, hmem⟩
    refine Line.forall_mem_chars (p := (· ≠ '\r')) ?_ (h.isWellFormed_program l hl)
      (fun t ht c hc heq => htexts l hl t ht (heq ▸ hc)) '\r' hmem rfl
    rintro c hc rfl
    exact absurd hc (by decide)
  · rintro ⟨m, hm, line, hline, hmem⟩
    refine ⟨_, comment_mem_program hm hline (List.ne_nil_of_mem hmem), ?_⟩
    simp [Line.chars, Line.content, hmem]

/-- A line of the program ends in a backslash exactly when a text or a line of what is said about a
method does, but for blanks. -/
theorem IsAccepted.exists_line_ends_iff (h : d.IsAccepted) :
    (∃ line ∈ Text.lines d.code, line.getLast? = some '\\') ↔
      ∃ u ∈ d.textLines, Text.lastFilled? u = some '\\' := by
  rw [h.lines_code]
  constructor
  · rintro ⟨line, hline, hlast⟩
    obtain ⟨l, hl, rfl⟩ := List.mem_map.1 hline
    obtain ⟨t, ht, hlast⟩ := Line.getLast?_chars_iff.1 hlast
    refine h.forall_mem_texts (q := fun t => t.toList.getLast? = some '\\' →
      ∃ u ∈ d.textLines, Text.lastFilled? u = some '\\') ?_ ?_ ?_ ?_ l hl t
      (Line.mem_texts_of_lastText? ht) hlast
    · exact fun t ht hlast => absurd (List.mem_of_getLast? hlast) ht.2
    · intro s hs hlast
      rw [Text.getLast?_trim] at hlast
      exact ⟨_, mem_textLines_iff.2 (.inl ⟨s, hs, rfl⟩), hlast⟩
    · intro v hv s hs hlast
      rw [Text.getLast?_oneLine] at hlast
      exact ⟨_, mem_textLines_iff.2 (.inr (.inl ⟨v, hv, s, hs, rfl⟩)), hlast⟩
    · intro m hm line hline hlast
      rw [String.toList_ofList, Text.getLast?_trimChars] at hlast
      exact ⟨_, mem_textLines_iff.2 (.inr (.inr ⟨m, hm, hline⟩)), hlast⟩
  · rintro ⟨u, hu, hlast⟩
    -- Each text that is not blank ends a line of the program.
    suffices hline : ∃ l ∈ d.program, ∃ t, l.lastText? = some t ∧ t.toList.getLast? = some '\\' by
      obtain ⟨l, hl, ht⟩ := hline
      exact ⟨_, List.mem_map_of_mem hl, Line.getLast?_chars_iff.2 ht⟩
    have hne {s : String} (hs : s.toList.getLast? = some '\\') : s ≠ "" := by
      rintro rfl
      cases hs
    rcases mem_textLines_iff.1 hu with ⟨s, hs, rfl⟩ | ⟨v, hv, s, hs, rfl⟩ | ⟨m, hm, hline⟩
    · rw [← Text.getLast?_trim] at hlast
      exact ⟨_, property_mem_program hs (hne hlast), _, rfl, hlast⟩
    · rw [← Text.getLast?_oneLine] at hlast
      obtain ⟨l, hl, htext⟩ := exists_mem_program_of_variable hv hs (hne hlast)
      exact ⟨l, hl, _, htext, hlast⟩
    · rw [← Text.getLast?_trimChars] at hlast
      have hne := List.ne_nil_of_mem (List.mem_of_getLast? hlast)
      refine ⟨_, comment_mem_program hm hline hne, _, rfl, ?_⟩
      rw [String.toList_ofList, hlast]

end Description

/-- The program for an accepted description has under the rules of C the lines that it is made of
unless a line of what is said about a method has a carriage return within it, or a text or such a line
ends in a backslash, but for blanks. -/
theorem lines_of_code_kept_iff {d : Description} (h : d.IsAccepted) :
    ('\r' ∈ d.code.toList ↔
      ∃ m ∈ d.methods, ∃ line ∈ m.descriptionLines, '\r' ∈ Text.trimChars line) ∧
    ((∃ line ∈ Text.lines d.code, line.getLast? = some '\\') ↔
      ∃ u ∈ d.textLines, Text.lastFilled? u = some '\\') ∧
    (Text.logicalLines d.code = d.program.map Line.chars ++ [[]] ↔
      (∀ m ∈ d.methods, ∀ line ∈ m.descriptionLines, '\r' ∉ Text.trimChars line) ∧
        ∀ u ∈ d.textLines, Text.lastFilled? u ≠ some '\\') := by
  have hreturn := h.return_mem_code_iff
  have hends := h.exists_line_ends_iff
  refine ⟨hreturn, hends, ?_⟩
  have hlogical := Text.logicalLines_eq_iff d.code
  rw [h.pieces_code, List.dropLast_concat] at hlogical
  rw [hlogical, ← h.lines_code]
  constructor
  · rintro ⟨hnone, hkept⟩
    constructor
    · exact fun m hm line hline hmem => hnone (hreturn.2 ⟨m, hm, line, hline, hmem⟩)
    · intro u hu hlast
      obtain ⟨line, hline, hlast⟩ := hends.2 ⟨u, hu, hlast⟩
      exact hkept line hline hlast
  · rintro ⟨hnone, hkept⟩
    constructor
    · intro hmem
      obtain ⟨m, hm, line, hline, hmem⟩ := hreturn.1 hmem
      exact hnone m hm line hline hmem
    · intro line hline hlast
      obtain ⟨u, hu, hlast⟩ := hends.1 ⟨line, hline, hlast⟩
      exact hkept u hu hlast

/-- A description whose texts have carriage returns and backslashes where they do no harm. -/
def Description.harmless : Description :=
  { starter "Sample" with
    methods := [⟨"pay", some "Pays\r\n  \\o/ out\r", 7, []⟩]
    stateVariables := [⟨"owner", .value ⟨.address, false⟩, some "Kept\rin C:\\keys", false, false, none⟩] }

theorem lines_of_code_kept_harmless :
    Description.harmless.IsAccepted ∧
      Text.logicalLines Description.harmless.code =
        Description.harmless.program.map Line.chars ++ [[]] := by
  have haccepted : Description.harmless.IsAccepted :=
    Description.isAccepted_of_toOption (by decide +kernel)
  exact ⟨haccepted, (lines_of_code_kept_iff haccepted).2.2.2 ⟨by decide, by decide⟩⟩

/-- A description with a carriage return in what is said about a method and with a backslash at the
end of what is said about a variable. -/
def Description.spilling : Description :=
  { starter "Sample" with
    methods := [⟨"pay", some "Pays\rout", 7, []⟩]
    stateVariables :=
      [⟨"owner", .value ⟨.address, false⟩, some "Kept in C:\\", false, false, none⟩,
       ⟨"total", .value ⟨.amount, false⟩, none, false, false, none⟩] }

/-- Under the rules of C the tail of a comment is a line of its own, and a declaration is none. -/
theorem lines_of_code_kept_spilling :
    Description.spilling.IsAccepted ∧
      '\r' ∈ Description.spilling.code.toList ∧
      "out".toList ∈ Text.logicalLines Description.spilling.code ∧
      "long owner; // Kept in C:\\".toList ∈ Text.lines Description.spilling.code ∧
      "long total;".toList ∈ Text.lines Description.spilling.code ∧
      "long total;".toList ∉ Text.logicalLines Description.spilling.code := by
  have haccepted : Description.spilling.IsAccepted :=
    Description.isAccepted_of_toOption (by decide +kernel)
  rw [haccepted.return_mem_code_iff, haccepted.logicalLines_code, haccepted.lines_code]
  refine ⟨haccepted, by decide, ?_, ?_, ?_, ?_⟩
  all_goals decide +kernel

end SmartContract
