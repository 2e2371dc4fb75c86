import Mathlib.Data.List.Basic
import Mathlib.Tactic.Common
import SmartContract.Program
import SmartContract.Proofs.Program.Meaning
import SmartContract.Proofs.Text.Blank

/-!
What the parts of the program for a description say. Properties, settings, constants and values stand
in the parts for them, functions in the main part and in the last one, and the only array is the
message.
-/

namespace SmartContract

open Program (mainBody)

/-- Can something be said by lines of the sort: by properties, settings, definitions of constants,
declarations of values and arrays, and starts of functions? -/
def Line.isEntry : Line → Bool
  | property .. | setting .. | constant .. | word .. | functionStart .. | arrayField .. => true
  | _ => false

/-! ### The lines of each part -/

section Lines

variable {p : Line → Prop}

theorem forall_mem_optional {f : String → Line} {o : Option String}
    (h : ∀ s, o = some s → p (f s)) : ∀ l ∈ (o.map f).toList, p l := by
  intro l hl
  obtain ⟨s, hs, rfl⟩ := Option.map_eq_some_iff.1 (Option.mem_toList.1 hl)
  exact h s hs

theorem forall_mem_titled {heading : String} {lines : List Line} (hheading : p (.comment heading))
    (hblank : p .blank) (hlines : ∀ l ∈ lines, p l) : ∀ l ∈ titled heading lines, p l := by
  rw [titled]
  split
  · exact List.forall_mem_nil p
  · simp only [List.forall_mem_append, List.forall_mem_cons, List.cons_append]
    exact ⟨hheading, hlines, hblank, List.forall_mem_nil p⟩

theorem Variable.forall_mem_structLines {v : Variable}
    (hremark : ∀ r, remark? v.description = some r → p (.comment r))
    (hstart : p (.structStart (Name.upper v.name))) (hfields : ∀ f ∈ v.fields, p (.field f.name))
    (hend : p (.structEnd v.name)) : ∀ l ∈ v.structLines, p l := by
  simp only [structLines, List.forall_mem_append, List.forall_mem_cons, List.forall_mem_map]
  exact ⟨⟨forall_mem_optional hremark, hstart, hfields⟩, hend, List.forall_mem_nil p⟩

theorem Method.forall_mem_functionLines {m : Method}
    (hremarks : ∀ s ∈ (m.description.map Text.filledLines).getD [], p (.comment s))
    (hstart : p (.functionStart m.name (m.arguments.map (·.name)))) (hbody : p (.body m.name))
    (hend : p (.close 0)) : ∀ l ∈ m.functionLines, p l := by
  simp only [functionLines, List.forall_mem_append, List.forall_mem_cons, List.forall_mem_map]
  exact ⟨hremarks, hstart, hbody, hend, List.forall_mem_nil p⟩

namespace Description

variable {d : Description}

theorem forall_mem_properties (hname : p (.property "name" d.name))
    (hdescription : ∀ s, d.description = some s → p (.property "description" (Text.trim s)))
    (hamount : p (.property "activationAmount" (Numeral.text d.activationAmount)))
    (hblank : p .blank) : ∀ l ∈ d.properties, p l := by
  simp only [properties, List.forall_mem_append, List.forall_mem_cons, List.cons_append]
  refine ⟨hname, forall_mem_optional fun s hs => ?_, hamount, hblank, List.forall_mem_nil p⟩
  obtain ⟨description, hsome, rfl⟩ := Option.map_eq_some_iff.1 (Option.filter_eq_some_iff.1 hs).1
  exact hdescription description hsome

theorem forall_mem_settingLines (hentries : ∀ e ∈ d.settings.entries, p (.setting e.1 e.2))
    (hblank : p .blank) : ∀ l ∈ d.settingLines, p l := by
  simp only [settingLines, List.forall_mem_append, List.forall_mem_cons, List.forall_mem_map]
  exact ⟨hentries, hblank, List.forall_mem_nil p⟩

theorem forall_mem_keyLines (hblank : p .blank) (hheading : p (.comment "Map keys"))
    (hkeys : ∀ m ∈ d.maps, ∀ value, m.key1.value = some value →
      p (.constant (Name.mapConstant m.name m.key1.name) value)) : ∀ l ∈ d.keyLines, p l := by
  refine forall_mem_titled hheading hblank fun l hl => ?_
  obtain ⟨m, hm, hl⟩ := List.mem_filterMap.1 hl
  obtain ⟨value, hvalue, rfl⟩ := Option.map_eq_some_iff.1 hl
  exact hkeys m hm value hvalue

theorem forall_mem_choiceLines (hblank : p .blank) (hstart : p .choiceStart)
    (hcases : ∀ m ∈ d.methods, p (.choiceCase m.constant) ∧ p (.call m.name m.arguments.length) ∧
      p .leave) (hend : p (.close 2)) : ∀ l ∈ d.choiceLines, p l := by
  rw [choiceLines]
  split
  · exact List.forall_mem_nil p
  · simp only [List.forall_mem_append, List.forall_mem_cons, List.cons_append,
      List.forall_mem_flatMap, Method.caseLines]
    refine ⟨hblank, hstart, fun m hm => ?_, hend, List.forall_mem_nil p⟩
    obtain ⟨hlabel, hcall, hleave⟩ := hcases m hm
    exact ⟨hlabel, hcall, hleave, List.forall_mem_nil p⟩

theorem forall_mem_functionLines (hblank : p .blank) (hheading : p (.comment "Method stubs"))
    (hmethods : ∀ m ∈ d.methods, ∀ l ∈ m.functionLines, p l) : ∀ l ∈ d.functionLines, p l := by
  rw [functionLines]
  split
  · exact List.forall_mem_nil p
  · simp only [List.forall_mem_cons]
    refine ⟨hblank, hheading, fun l hl => ?_⟩
    obtain ⟨lines, hlines, hl⟩ := List.mem_flatten.1 hl
    rcases Text.mem_intersperse hlines with rfl | hlines
    · rwa [List.mem_singleton.1 hl]
    · obtain ⟨m, hm, rfl⟩ := List.mem_map.1 hlines
      exact hmethods m hm l hl

end Description

end Lines

/-! ### Passes over lines -/

namespace Program

variable {α : Type} {pass : List Line → List α} {ls ms : List Line} {xs ys : List α}

/-- From the lines the pass gets the elements, and it goes on behind them as it does at its start. -/
def Yields (pass : List Line → List α) (ls : List Line) (xs : List α) : Prop :=
  ∀ rest, pass (ls ++ rest) = xs ++ pass rest

theorem Yields.append (hls : Yields pass ls xs) (hms : Yields pass ms ys) :
    Yields pass (ls ++ ms) (xs ++ ys) := by
  intro rest
  rw [List.append_assoc, hls, hms, List.append_assoc]

theorem Yields.flatMap {β : Type} {vs : List β} {lines : β → List Line} {yielded : β → List α}
    (h : ∀ v ∈ vs, Yields pass (lines v) (yielded v)) :
    Yields pass (vs.flatMap lines) (vs.flatMap yielded) := by
  induction vs with
  | nil => exact fun rest => rfl
  | cons v vs ih =>
    obtain ⟨hv, hvs⟩ := List.forall_mem_cons.1 h
    rw [List.flatMap_cons, List.flatMap_cons]
    exact hv.append (ih hvs)

theorem Yields.nothing (h : ∀ l ∈ ls, Yields pass [l] []) : Yields pass ls [] := by
  induction ls with
  | nil => exact fun rest => rfl
  | cons l ls ih =>
    obtain ⟨hl, hls⟩ := List.forall_mem_cons.1 h
    exact hl.append (ih hls)

/-- Fields that a pass collects one by one are collected in their order. -/
theorem pass_fields (pass : List String → List Line → List α)
    (h : ∀ fields name ls, pass fields (.field name :: ls) = pass (fields ++ [name]) ls)
    (fields : List String) (fs : List TypedName) (rest : List Line) :
    pass fields (fs.map (fun f => .field f.name) ++ rest) =
      pass (fields ++ fs.map (·.name)) rest := by
  induction fs generalizing fields with
  | nil => rw [List.map_nil, List.map_nil, List.nil_append, List.append_nil]
  | cons f fs ih =>
    rw [List.map_cons, List.cons_append, h, ih, List.map_cons, List.append_assoc]
    rfl

end Program

/-- Does the line neither declare a word nor belong to a struct or a function? -/
def Line.isSilent : Line → Bool
  | blank | property .. | setting .. | comment _ | constant .. => true
  | _ => false

namespace Program

variable {α : Type} {pass : List Line → List α} {ls : List Line} {xs : List α}
variable (h : ∀ l : Line, l.isSilent = true → Yields pass [l] [])

include h

theorem Yields.titled {heading : String} (hls : Yields pass ls xs) :
    Yields pass (titled heading ls) xs := by
  rw [SmartContract.titled]
  split
  · rename_i hnil
    rwa [← List.isEmpty_iff.1 hnil]
  · have hall := ((h (.comment heading) rfl).append hls).append (h .blank rfl)
    rwa [List.nil_append, List.append_nil] at hall

/-- Before the values stand lines only from which such a pass gets nothing. -/
theorem Yields.heads (d : Description) :
    Yields pass (d.properties ++ d.settingLines ++ d.codeLines ++ d.keyLines) [] := by
  refine Yields.nothing fun l hl => h l ?_
  revert l
  simp only [List.forall_mem_append]
  refine ⟨⟨⟨?_, ?_⟩, ?_⟩, ?_⟩
  · exact Description.forall_mem_properties rfl (fun _ _ => rfl) rfl rfl
  · exact Description.forall_mem_settingLines (fun _ _ => rfl) rfl
  · exact forall_mem_titled rfl rfl (List.forall_mem_map.2 fun _ _ => rfl)
  · exact Description.forall_mem_keyLines rfl rfl fun _ _ _ _ => rfl

theorem Yields.structLines {v : Variable}
    (hstruct : Yields pass (.structStart (Name.upper v.name)
      :: v.fields.map (fun f => .field f.name) ++ [.structEnd v.name]) xs) :
    Yields pass v.structLines xs := by
  have hremark : Yields pass ((remark? v.description).map Line.comment).toList [] :=
    Yields.nothing (forall_mem_optional fun _ _ => h _ rfl)
  have hall := hremark.append hstruct
  rwa [List.nil_append, ← List.append_assoc] at hall

end Program

/-! ### What the parts say -/

section Said

variable {α : Type} {said : Line → Option α} (h : ∀ l : Line, l.isEntry = false → said l = none)

include h

theorem filterMap_of_not_isEntry {ls : List Line} (hls : ∀ l ∈ ls, l.isEntry = false) :
    ls.filterMap said = [] :=
  List.filterMap_eq_nil_iff.2 fun l hl => h l (hls l hl)

/-- Of lines with one entry among them only the entry says something. -/
theorem filterMap_entry {before behind : List Line} (l : Line)
    (hbefore : ∀ l ∈ before, l.isEntry = false) (hbehind : ∀ l ∈ behind, l.isEntry = false) :
    (before ++ [l] ++ behind).filterMap said = (said l).toList := by
  rw [List.filterMap_append, List.filterMap_append, filterMap_of_not_isEntry h hbefore,
    filterMap_of_not_isEntry h hbehind, List.nil_append, List.append_nil]
  cases hl : said l <;> simp [hl]

theorem filterMap_flatten_intersperse (parts : List (List Line)) :
    ((parts.intersperse [.blank]).flatten).filterMap said = parts.flatMap (·.filterMap said) := by
  induction parts with
  | nil => rfl
  | cons part parts ih =>
    cases parts with
    | nil => simp
    | cons next parts =>
      have hblank : [Line.blank].filterMap said = [] := filterMap_of_not_isEntry h (by decide)
      rw [List.intersperse_cons_cons, List.flatten_cons, List.flatten_cons, List.filterMap_append,
        List.filterMap_append, ih, hblank, List.nil_append]
      exact List.flatMap_cons.symm

theorem filterMap_titled (heading : String) (lines : List Line) :
    (titled heading lines).filterMap said = lines.filterMap said := by
  rw [titled]
  split
  -- Where there are no lines, there is no heading.
  · rename_i hnil
    rw [List.isEmpty_iff.1 hnil]
  · simp [h (.comment heading) rfl, h .blank rfl]

theorem Method.filterMap_functionLines (m : Method) : m.functionLines.filterMap said =
    (said (.functionStart m.name (m.arguments.map (·.name)))).toList := by
  refine (congrArg (·.filterMap said) (List.append_cons ..)).trans (filterMap_entry h _ ?_ ?_)
  · rw [List.forall_mem_map]
    exact fun _ _ => rfl
  · simp only [List.forall_mem_cons]
    exact ⟨rfl, rfl, List.forall_mem_nil _⟩

namespace Description

variable (d : Description)

theorem filterMap_settingLines : d.settingLines.filterMap said =
    d.settings.entries.filterMap fun e => said (.setting e.1 e.2) := by
  simp [settingLines, List.filterMap_append, List.filterMap_map, h .blank rfl]

theorem filterMap_codeLines :
    d.codeLines.filterMap said = d.methods.filterMap fun m => said (.constant m.constant m.code) := by
  rw [codeLines, filterMap_titled h, List.filterMap_map]
  rfl

theorem filterMap_keyLines : d.keyLines.filterMap said = d.maps.filterMap fun m =>
    m.key1.value.bind fun value => said (.constant (Name.mapConstant m.name m.key1.name) value) := by
  rw [keyLines, filterMap_titled h, List.filterMap_filterMap]
  refine List.filterMap_congr fun m _ => ?_
  rw [Option.bind_map]
  rfl

theorem filterMap_wordLines : d.wordLines.filterMap said =
    d.values.filterMap fun v => said (.word v.name v.initial? (remark? v.description)) := by
  rw [wordLines, filterMap_titled h, List.filterMap_map]
  rfl

theorem filterMap_structLines : d.structLines.filterMap said = [] := by
  rw [structLines, filterMap_titled h]
  exact filterMap_of_not_isEntry h (List.forall_mem_flatMap.2 fun v _ =>
    Variable.forall_mem_structLines (fun _ _ => rfl) rfl (fun _ _ => rfl) rfl)

theorem filterMap_transactionLines :
    transactionLines.filterMap said = (said (.arrayField "message" Limit.messageWords)).toList := by
  have hbefore : ∀ l ∈ transactionLines.take 4, l.isEntry = false := by decide
  have hbehind : ∀ l ∈ transactionLines.drop 5, l.isEntry = false := by decide
  exact filterMap_entry h (.arrayField "message" Limit.messageWords) hbefore hbehind

theorem filterMap_mainLines :
    d.mainLines.filterMap said = (said (.functionStart "main" [])).toList := by
  have hchoice : ∀ l ∈ d.choiceLines, l.isEntry = false :=
    forall_mem_choiceLines rfl rfl (fun _ _ => ⟨rfl, rfl, rfl⟩) rfl
  have hbody : ∀ l ∈ [.loopStart, .lookUpSender, .readMessage] ++ d.choiceLines
      ++ [.close 1, .close 0], l.isEntry = false := by
    simp only [List.forall_mem_append, List.forall_mem_cons]
    exact ⟨⟨⟨rfl, rfl, rfl, List.forall_mem_nil _⟩, hchoice⟩, rfl, rfl, List.forall_mem_nil _⟩
  exact filterMap_entry h (.functionStart "main" []) (List.forall_mem_nil _) hbody

theorem filterMap_functionLines : d.functionLines.filterMap said =
    d.methods.filterMap fun m => said (.functionStart m.name (m.arguments.map (·.name))) := by
  rw [functionLines]
  split
  · rename_i hnil
    rw [List.isEmpty_iff.1 hnil]
    rfl
  · rw [List.filterMap_cons_none (h _ rfl), List.filterMap_cons_none (h _ rfl),
      filterMap_flatten_intersperse h, List.flatMap_map, List.filterMap_eq_flatMap_toList]
    exact List.flatMap_congr fun m _ => m.filterMap_functionLines h

end Description

end Said

/-! ### The program as a whole -/

namespace Description

variable {α : Type} {said : Line → Option α} (d : Description)

/-- Where properties say nothing, the first part says nothing. -/
theorem filterMap_properties_eq_nil (hproperty : ∀ key value, said (.property key value) = none)
    (hblank : said .blank = none) : d.properties.filterMap said = [] :=
  List.filterMap_eq_nil_iff.2
    (forall_mem_properties (hproperty _ _) (fun _ _ => hproperty _ _) (hproperty _ _) hblank)

/-- What the program says of one kind, part by part. -/
theorem filterMap_program (h : ∀ l : Line, l.isEntry = false → said l = none) :
    d.program.filterMap said =
      d.properties.filterMap said
        ++ (d.settings.entries.filterMap fun e => said (.setting e.1 e.2))
        ++ (d.methods.filterMap fun m => said (.constant m.constant m.code))
        ++ (d.maps.filterMap fun m => m.key1.value.bind fun value =>
          said (.constant (Name.mapConstant m.name m.key1.name) value))
        ++ (d.values.filterMap fun v => said (.word v.name v.initial? (remark? v.description)))
        ++ (said (.arrayField "message" Limit.messageWords)).toList
        ++ (said (.functionStart "main" [])).toList
        ++ d.methods.filterMap fun m =>
          said (.functionStart m.name (m.arguments.map (·.name))) := by
  simp only [program, List.filterMap_append, filterMap_settingLines h, filterMap_codeLines h,
    filterMap_keyLines h, filterMap_wordLines h, filterMap_structLines h,
    filterMap_transactionLines h, filterMap_mainLines h, filterMap_functionLines h,
    List.append_nil]

theorem said_of_not_isEntry {l : Line} (h : l.isEntry = false) :
    l.definition? = none ∧ l.function? = none ∧ l.array? = none := by
  cases l <;> first | exact ⟨rfl, rfl, rfl⟩ | cases h

theorem definitions_program :
    d.program.filterMap Line.definition? =
      d.methods.map (fun m => (m.constant, m.code))
        ++ d.maps.filterMap fun m =>
          m.key1.value.map fun value => (Name.mapConstant m.name m.key1.name, value) := by
  have hkeys : (d.maps.filterMap fun m => m.key1.value.bind fun value =>
        (Line.constant (Name.mapConstant m.name m.key1.name) value).definition?) =
      d.maps.filterMap fun m =>
        m.key1.value.map fun value => (Name.mapConstant m.name m.key1.name, value) := by
    apply List.filterMap_congr
    intro m _
    exact Option.map_eq_bind.symm
  rw [filterMap_program d fun _ hl => (said_of_not_isEntry hl).1,
    filterMap_properties_eq_nil d (fun _ _ => rfl) rfl, hkeys]
  simp [Line.definition?]

theorem functions_program :
    d.program.filterMap Line.function? =
      ("main", []) :: d.methods.map fun m => (m.name, m.arguments.map (·.name)) := by
  rw [filterMap_program d fun _ hl => (said_of_not_isEntry hl).2.1,
    filterMap_properties_eq_nil d (fun _ _ => rfl) rfl]
  simp [Line.function?]

theorem arrays_program : d.program.filterMap Line.array? = [("message", Limit.messageWords)] := by
  rw [filterMap_program d fun _ hl => (said_of_not_isEntry hl).2.2,
    filterMap_properties_eq_nil d (fun _ _ => rfl) rfl]
  simp [Line.array?]

/-- The lines before the main function. -/
def preamble (d : Description) : List Line :=
  d.properties ++ d.settingLines ++ d.codeLines ++ d.keyLines ++ d.wordLines ++ d.structLines
    ++ transactionLines

theorem function?_of_mem_preamble {l : Line} (h : l ∈ d.preamble) : l.function? = none := by
  have hnone := fun (k : Line) hk => (said_of_not_isEntry (l := k) hk).2.1
  have hproperties : d.properties.filterMap Line.function? = [] :=
    filterMap_properties_eq_nil d (fun _ _ => rfl) rfl
  have hnil : d.preamble.filterMap Line.function? = [] := by
    simp [preamble, hproperties, filterMap_settingLines hnone, filterMap_codeLines hnone,
      filterMap_keyLines hnone, filterMap_wordLines hnone, filterMap_structLines hnone,
      filterMap_transactionLines hnone, Line.function?]
  exact List.filterMap_eq_nil_iff.1 hnil l h

theorem mainBody_program : mainBody d.program =
    [.loopStart, .lookUpSender, .readMessage] ++ d.choiceLines ++ [.close 1] := by
  have hprogram : d.program = d.preamble ++ .functionStart "main" []
      :: (([.loopStart, .lookUpSender, .readMessage] ++ d.choiceLines ++ [.close 1])
        ++ .close 0 :: d.functionLines) := by
    simp [program, preamble, mainLines]
  -- The body starts behind the first line that starts the main function, and ends at the first that
  -- closes it.
  have hstart : ∀ l ∈ d.preamble, decide (l ≠ .functionStart "main" []) = true := by
    intro l hl
    refine decide_eq_true ?_
    rintro rfl
    cases d.function?_of_mem_preamble hl
  have hbody : ∀ l ∈ [.loopStart, .lookUpSender, .readMessage] ++ d.choiceLines ++ [.close 1],
      decide (l ≠ .close 0) = true := by
    have hchoice : ∀ l ∈ d.choiceLines, decide (l ≠ .close 0) = true :=
      forall_mem_choiceLines rfl rfl (fun _ _ => ⟨rfl, rfl, rfl⟩) rfl
    simp only [List.forall_mem_append, List.forall_mem_cons]
    exact ⟨⟨⟨rfl, rfl, rfl, List.forall_mem_nil _⟩, hchoice⟩, rfl, List.forall_mem_nil _⟩
  rw [mainBody, hprogram, List.dropWhile_append_of_pos hstart, List.dropWhile_cons_of_neg (by simp),
    List.tail_cons, List.takeWhile_append_of_pos hbody, List.takeWhile_cons_of_neg (by simp),
    List.append_nil]

end Description

end SmartContract
