import Mathlib.Tactic.Common
import SmartContract.Proofs.Description.Accepted
import SmartContract.Proofs.Program.Parts
import SmartContract.Proofs.Program.Reading
import SmartContract.Proofs.Text.Blank

/-!
What holds of all lines of a program holds of those that a description adds to it and of those that
every program has. So all lines of the program for an accepted description are well-formed, since the
names in it are names and what comes from texts stays on its line; hence it is read from its text.
-/

namespace SmartContract

/-! ### Texts and literals -/

theorem lineFeed_not_mem_remark {description : Option String} {r : String}
    (h : remark? description = some r) : '\n' ∉ r.toList := by
  obtain ⟨hr, -⟩ := Option.filter_eq_some_iff.1 h
  obtain ⟨s, -, rfl⟩ := Option.map_eq_some_iff.1 hr
  intro hmem
  rcases Text.eq_space_or_not_isBlank_of_mem_oneLine hmem with heq | ⟨-, hblank⟩
  · exact absurd heq (by decide)
  · exact absurd hblank (by decide)

theorem not_mem_of_admits {t : Scalar} {s : String} {c : Char} (h : t.Admits s)
    (ht : t ≠ .string) (hc : c.isDigit = false) (hplus : c ≠ '+')
    (hflags : c ∉ "true".toList ∧ c ∉ "false".toList) : c ∉ s.toList := by
  -- All types but truth values and texts take numbers.
  have hnumber : ∀ digits, (s.toList = digits ∨ s.toList = '+' :: digits) →
      Numeral.isDigits digits = true → c ∉ s.toList := by
    intro digits hs hdigits hmem
    rw [Numeral.isDigits, Bool.and_eq_true, List.all_eq_true] at hdigits
    have hdigit : c ∈ digits := by
      rcases hs with rfl | hs
      · exact hmem
      · rw [hs] at hmem
        exact (List.mem_cons.1 hmem).resolve_left hplus
    rw [hdigits.2 c hdigit] at hc
    cases hc
  cases t with
  | boolean =>
    rcases h with rfl | rfl
    · exact hflags.1
    · exact hflags.2
  | string => exact absurd rfl ht
  | address | long | amount | transactionId =>
    obtain ⟨digits, hs, hdigits, -⟩ := h
    exact hnumber digits hs hdigits

/-- A type takes the literal as it is written. -/
def Literal.IsAdmitted : Literal → Prop
  | .plain s => ∃ t : Scalar, t ≠ .string ∧ t.Admits s
  | .quoted s => Scalar.string.Admits s

/-- A text constant has neither quotation marks nor backslashes nor ends of lines in it. -/
theorem ne_of_mem_of_admits_string {s : String} (h : Scalar.string.Admits s) {c : Char}
    (hc : c ∈ s.toList) : c ≠ '"' ∧ c ≠ '\\' ∧ c ≠ '\n' := by
  obtain ⟨hle, -, hquote, hbackslash⟩ := h.2 c hc
  refine ⟨hquote, hbackslash, ?_⟩
  rintro rfl
  exact absurd hle (by decide)

theorem Literal.IsAdmitted.isWellFormed {l : Literal} (h : l.IsAdmitted) : l.IsWellFormed := by
  cases l with
  | plain s =>
    obtain ⟨t, ht, hadmits⟩ := h
    intro c hc
    refine ⟨?_, ?_, ?_⟩ <;> rintro rfl <;>
      exact not_mem_of_admits hadmits ht (by decide) (by decide) (by decide) hc
  | quoted s =>
    intro c hc
    obtain ⟨hquote, -, hline⟩ := ne_of_mem_of_admits_string h hc
    exact ⟨hquote, hline⟩

/-- Is the character one of those in the texts of settings: a part of names, a dot or a dash? -/
def isSettingPart (c : Char) : Bool := Name.isPart c || c = '.' || c = '-'

theorem isSettingPart_of_accepts {s : String} (h : Json.TextForm.version.accepts s = true) :
    ∀ c ∈ s.toList, isSettingPart c = true := by
  have halphanum {c : Char} (hc : c.isAlphanum = true) : isSettingPart c = true := by
    rw [isSettingPart, Name.isPart, hc, Bool.true_or, Bool.true_or, Bool.true_or]
  cases hs : s.toList with
  | nil => exact List.forall_mem_nil _
  | cons c rest =>
    simp only [Json.TextForm.accepts, hs, Bool.and_eq_true, List.all_eq_true] at h
    refine List.forall_mem_cons.2 ⟨halphanum h.1, fun d hd => ?_⟩
    have hpart := h.2 d hd
    simp only [Bool.or_eq_true, decide_eq_true_eq] at hpart
    rcases hpart with ((hpart | rfl) | rfl) | rfl
    · exact halphanum hpart
    all_goals decide

theorem isSettingPart_text (n : Nat) : ∀ c ∈ (Numeral.text n).toList, isSettingPart c = true := by
  intro c hc
  rw [Numeral.toList_text] at hc
  rw [isSettingPart, Name.isPart_of_isDigit (Numeral.isDigit_of_mem_toDigits hc), Bool.true_or,
    Bool.true_or]

theorem Settings.isSettingPart_entries {v : Json} {s : Settings} (h : Json.IsSettings v s) :
    ∀ e ∈ s.entries, (∀ c ∈ e.1.toList, isSettingPart c = true) ∧
      ∀ c ∈ e.2.toList, isSettingPart c = true := by
  obtain ⟨-, -, -, haccepts⟩ := h.version
  have hfixed (s : String) (hs : s.toList.all isSettingPart = true) :
      ∀ c ∈ s.toList, isSettingPart c = true := List.all_eq_true.1 hs
  have hpages : ∀ (key : String) (n : Option Nat), key.toList.all isSettingPart = true →
      ∀ e ∈ (n.map fun n => (key, Numeral.text n)).toList,
        (∀ c ∈ e.1.toList, isSettingPart c = true) ∧
          ∀ c ∈ e.2.toList, isSettingPart c = true := by
    intro key n hkey e he
    obtain ⟨m, -, rfl⟩ := Option.map_eq_some_iff.1 (Option.mem_toList.1 he)
    exact ⟨hfixed key hkey, isSettingPart_text m⟩
  simp only [entries, List.forall_mem_append, List.forall_mem_cons]
  refine ⟨⟨⟨?_, ?_, ?_, ?_, by simp⟩, hpages _ _ (by decide)⟩, hpages _ _ (by decide)⟩
  · exact ⟨hfixed _ (by decide), isSettingPart_text _⟩
  · refine ⟨hfixed _ (by decide), ?_⟩
    split <;> exact hfixed _ (by decide)
  · exact ⟨hfixed _ (by decide), isSettingPart_text _⟩
  · exact ⟨hfixed _ (by decide), isSettingPart_of_accepts haccepts⟩

theorem Settings.isWellFormed_entries {v : Json} {s : Settings} (h : Json.IsSettings v s) :
    ∀ e ∈ s.entries, (Line.setting e.1 e.2).IsWellFormed := by
  intro e he
  obtain ⟨hkey, hvalue⟩ := isSettingPart_entries h e he
  refine ⟨?_, ?_, ?_⟩
  · exact fun hmem => absurd (hkey _ hmem) (by decide)
  · exact fun hmem => absurd (hkey _ hmem) (by decide)
  · exact fun hmem => absurd (hvalue _ hmem) (by decide)

/-! ### The lines of a program -/

namespace Description

variable {d : Description}

/-- The lines that every program has, or every choice in a program. -/
def skeletonLines : List Line :=
  [.blank, .functionStart "main" [], .loopStart, .lookUpSender, .readMessage, .choiceStart, .leave,
   .close 0, .close 1, .close 2] ++ transactionLines

/-- The headings in a program. -/
def headings : List String :=
  ["Magic codes for methods", "Map keys", "State variables", "Structs", "Method stubs"]

/-- What holds of the lines of every program and of those for each item of a description holds of
all lines of the program for the description. -/
theorem forall_mem_program_of_items {p : Line → Prop} (hskeleton : ∀ l ∈ skeletonLines, p l)
    (hheadings : ∀ s ∈ headings, p (.comment s))
    (hproperties : ∀ l ∈ d.properties, p l)
    (hentries : ∀ e ∈ d.settings.entries, p (.setting e.1 e.2))
    (hremarks : ∀ m ∈ d.methods, ∀ s ∈ (m.description.map Text.filledLines).getD [],
      p (.comment s))
    (hmethods : ∀ m ∈ d.methods, p (.constant m.constant m.code) ∧ p (.choiceCase m.constant) ∧
      p (.call m.name m.arguments.length) ∧
      p (.functionStart m.name (m.arguments.map (·.name))) ∧ p (.body m.name))
    (hmaps : ∀ m ∈ d.maps, ∀ value, m.key1.value = some value →
      p (.constant (Name.mapConstant m.name m.key1.name) value))
    (hvalues : ∀ v ∈ d.values, p (.word v.name v.initial? (remark? v.description)))
    (hstructs : ∀ v ∈ d.structs, (∀ r, remark? v.description = some r → p (.comment r)) ∧
      p (.structStart (Name.upper v.name)) ∧ (∀ f ∈ v.fields, p (.field f.name)) ∧
      p (.structEnd v.name)) :
    ∀ l ∈ d.program, p l := by
  have hblank : p .blank := hskeleton _ (by decide)
  have hcodes : ∀ l ∈ d.codeLines, p l :=
    forall_mem_titled (hheadings _ (by decide)) hblank
      (List.forall_mem_map.2 fun m hm => (hmethods m hm).1)
  have hkeys : ∀ l ∈ d.keyLines, p l :=
    forall_mem_keyLines hblank (hheadings _ (by decide)) hmaps
  have hwords : ∀ l ∈ d.wordLines, p l :=
    forall_mem_titled (hheadings _ (by decide)) hblank (List.forall_mem_map.2 hvalues)
  have hstructLines : ∀ l ∈ d.structLines, p l := by
    refine forall_mem_titled (hheadings _ (by decide)) hblank (List.forall_mem_flatMap.2 ?_)
    intro v hv
    obtain ⟨hremark, hstart, hfields, hend⟩ := hstructs v hv
    exact Variable.forall_mem_structLines hremark hstart hfields hend
  have hchoice : ∀ l ∈ d.choiceLines, p l :=
    forall_mem_choiceLines hblank (hskeleton _ (by decide))
      (fun m hm => ⟨(hmethods m hm).2.1, (hmethods m hm).2.2.1, hskeleton _ (by decide)⟩)
      (hskeleton _ (by decide))
  have hmain : ∀ l ∈ d.mainLines, p l := by
    simp only [mainLines, List.forall_mem_append, List.forall_mem_cons]
    exact ⟨⟨⟨hskeleton _ (by decide), hskeleton _ (by decide), hskeleton _ (by decide),
      hskeleton _ (by decide), List.forall_mem_nil p⟩, hchoice⟩, hskeleton _ (by decide),
      hskeleton _ (by decide), List.forall_mem_nil p⟩
  have hfunctions : ∀ l ∈ d.functionLines, p l := by
    refine forall_mem_functionLines hblank (hheadings _ (by decide)) fun m hm => ?_
    have hclose : p (.close 0) := hskeleton _ (by decide)
    exact Method.forall_mem_functionLines (hremarks m hm) (hmethods m hm).2.2.2.1
      (hmethods m hm).2.2.2.2 hclose
  simp only [program, List.forall_mem_append]
  exact ⟨⟨⟨⟨⟨⟨⟨⟨hproperties, forall_mem_settingLines hentries hblank⟩, hcodes⟩, hkeys⟩, hwords⟩,
    hstructLines⟩, fun l hl => hskeleton l (List.mem_append_right _ hl)⟩, hmain⟩, hfunctions⟩

theorem forall_mem_program {p : Line → Prop} (hskeleton : ∀ l ∈ skeletonLines, p l)
    (hcomment : ∀ s : String, '\n' ∉ s.toList → p (.comment s))
    (hproperties : ∀ l ∈ d.properties, p l)
    (hentries : ∀ e ∈ d.settings.entries, p (.setting e.1 e.2))
    (hmethods : ∀ m ∈ d.methods, p (.constant m.constant m.code) ∧ p (.choiceCase m.constant) ∧
      p (.call m.name m.arguments.length) ∧
      p (.functionStart m.name (m.arguments.map (·.name))) ∧ p (.body m.name))
    (hmaps : ∀ m ∈ d.maps, ∀ value, m.key1.value = some value →
      p (.constant (Name.mapConstant m.name m.key1.name) value))
    (hvalues : ∀ v ∈ d.values, p (.word v.name v.initial? (remark? v.description)))
    (hstructs : ∀ v ∈ d.structs, p (.structStart (Name.upper v.name)) ∧
      (∀ f ∈ v.fields, p (.field f.name)) ∧ p (.structEnd v.name)) :
    ∀ l ∈ d.program, p l := by
  have hheadings : ∀ s ∈ headings, '\n' ∉ s.toList := by decide
  refine forall_mem_program_of_items hskeleton (fun s hs => hcomment s (hheadings s hs)) hproperties
    hentries (fun m _ s hs => ?_) hmethods hmaps hvalues (fun v hv => ⟨fun r hr => ?_, hstructs v hv⟩)
  · refine hcomment s fun hmem => ?_
    cases hd : m.description with
    | none => simp [hd] at hs
    | some description =>
      rw [hd] at hs
      exact (Text.mem_of_mem_filledLines hs hmem).2 rfl
  · exact hcomment r (lineFeed_not_mem_remark hr)

/-! ### Well-formed programs -/

theorem IsAccepted.isWellFormed_properties (h : d.IsAccepted) :
    ∀ l ∈ d.properties, l.IsWellFormed := by
  refine forall_mem_properties ⟨by decide, by decide, Line.lineFeed_not_mem_of_isName h.isName⟩
    (fun s hs => ⟨by decide, by decide, fun hmem => ?_⟩)
    ⟨by decide, by decide, fun hmem => absurd (isSettingPart_text _ _ hmem) (by decide)⟩ trivial
  have hline := h.oneLine.1
  rw [hs] at hline
  exact hline (Text.mem_of_mem_trim hmem)

theorem IsAccepted.isAdmitted_initial (h : d.IsAccepted) {v : Variable}
    (hv : v ∈ d.stateVariables) : ∀ l ∈ v.initial?, l.IsAdmitted := by
  intro l hl
  obtain ⟨s, hs, rfl⟩ := Option.map_eq_some_iff.1 hl
  obtain ⟨t, hkind, hadmits⟩ := h.exists_admits_of_literal? hv hs
  have htype : v.valueType?.map (·.scalar) = some t := by rw [Variable.valueType?, hkind]; rfl
  rw [htype]
  split
  · rename_i ht
    rw [Option.some.inj ht] at hadmits
    exact hadmits
  · rename_i ht
    exact ⟨t, fun heq => ht (heq ▸ rfl), hadmits⟩

theorem IsAccepted.isWellFormed_program (h : d.IsAccepted) : ∀ l ∈ d.program, l.IsWellFormed := by
  obtain ⟨v, -, hsettings⟩ := h.isDraft.settings
  refine forall_mem_program (by decide) (fun _ hs => hs) h.isWellFormed_properties
    (Settings.isWellFormed_entries hsettings) (fun m hm => ?_) (fun m hm _ _ => ?_) (fun v hv => ?_)
    (fun v hv => ?_)
  · obtain ⟨hname, harguments⟩ := h.isName_method hm
    have hupper := Name.isName_upper hname
    exact ⟨hupper, hupper, hname, ⟨hname, List.forall_mem_map.2 harguments⟩, hname⟩
  · exact Name.isName_mapConstant (h.isName_map hm).1 (h.isName_map hm).2
  · have hv := (List.mem_filter.1 hv).1
    exact ⟨(h.isName_stateVariable hv).1, fun l hl => (h.isAdmitted_initial hv l hl).isWellFormed,
      fun r hr => lineFeed_not_mem_remark hr⟩
  · obtain ⟨hname, hfields⟩ := h.isName_stateVariable (List.mem_filter.1 hv).1
    exact ⟨Name.isName_upper hname, hfields, hname⟩

/-- The program for an accepted description is read from its text. -/
theorem IsAccepted.readProgram?_code (h : d.IsAccepted) : readProgram? d.code = some d.program :=
  readProgram?_join h.isWellFormed_program

end Description

end SmartContract
