import SmartContract.Command.Plan
import SmartContract.Proofs.Program.Dispatch
import SmartContract.Proofs.Text.Utf8

/-!
The outline of a description is read back from the text of its program: what it is called, how it is
compiled, and its constants, values, structs and functions in their order. Texts of the description
stand in comments and in a property of their own, where nothing of the outline is read.
-/

namespace SmartContract

/-- A struct of a program. -/
structure StructOutline where
  tag : String
  fields : List String
  /-- The variable that holds the struct. -/
  holder : String
deriving DecidableEq, Repr

/-- What a program says apart from what every program has and apart from texts. -/
structure Outline where
  name : String
  activationAmount : Nat
  settings : Settings
  /-- The constants for the codes of methods. -/
  codes : List (String × Nat)
  /-- The constants for the first keys of maps. -/
  keys : List (String × Nat)
  /-- The variables that hold no struct, with the literals that they are declared with. -/
  values : List (String × Option Literal)
  structs : List StructOutline
  /-- The functions for methods, with the names of their parameters. -/
  functions : List (String × List String)
deriving DecidableEq, Repr

def Description.outline (d : Description) : Outline where
  name := d.name
  activationAmount := d.activationAmount
  settings := d.settings
  codes := d.methods.map fun m => (m.constant, m.code)
  keys := d.maps.filterMap fun m =>
    m.key1.value.map fun value => (Name.mapConstant m.name m.key1.name, value)
  values := d.values.map fun v => (v.name, v.initial?)
  structs := d.structs.map fun v => ⟨Name.upper v.name, v.fields.map (·.name), v.name⟩
  functions := d.methods.map fun m => (m.name, m.arguments.map (·.name))

/-! ### Reading an outline -/

namespace Line

/-- The property that a line sets, with its value. -/
def property? : Line → Option (String × String)
  | property key value => some (key, value)
  | _ => none

/-- The setting of the compiler that a line makes, with its value. -/
def setting? : Line → Option (String × String)
  | setting key value => some (key, value)
  | _ => none

/-- The variable that a line declares, with its literal. -/
def value? : Line → Option (String × Option Literal)
  | word name literal _ => some (name, literal)
  | _ => none

end Line

/-- The number that the entries have under the key. -/
def numberUnder? (entries : List (String × String)) (key : String) : Option Nat :=
  entries.lookup key >>= fun s => Line.number? s.toList

/-- The settings of which the entries are given. -/
def Settings.ofEntries? (entries : List (String × String)) : Option Settings := do
  let auxiliaryVariables ← numberUnder? entries "maxAuxVars"
  let optimizationLevel ← numberUnder? entries "optimizationLevel"
  let verbose ← entries.lookup "verboseAssembly"
  let version ← entries.lookup "version"
  return ⟨auxiliaryVariables, optimizationLevel, verbose == "true", version,
    numberUnder? entries "codeStackPages", numberUnder? entries "userStackPages"⟩

namespace Program

/-- The structs that lines declare. The tag and the fields are those of a struct that has not ended.
What follows from the struct of the transaction on is the same in every program. -/
def structs (tag : String) (fields : List String) : List Line → List StructOutline
  | [] => []
  | .structStart tag :: ls =>
    if tag = Vocabulary.transactionTag then [] else structs tag [] ls
  | .field name :: ls => structs tag (fields ++ [name]) ls
  | .structEnd name :: ls => ⟨tag, fields, name⟩ :: structs "" [] ls
  | _ :: ls => structs tag fields ls

/-- Does the line stand before the heading of the constants for keys? -/
def beforeKeys (l : Line) : Bool := l ≠ .comment "Map keys"

/-- The outline of the program that the lines are. -/
def outline? (ls : List Line) : Option Outline := do
  let name ← (ls.filterMap Line.property?).lookup "name"
  let activationAmount ← numberUnder? (ls.filterMap Line.property?) "activationAmount"
  let settings ← Settings.ofEntries? (ls.filterMap Line.setting?)
  return ⟨name, activationAmount, settings,
    (ls.takeWhile beforeKeys).filterMap Line.definition?,
    (ls.dropWhile beforeKeys).filterMap Line.definition?,
    ls.filterMap Line.value?, structs "" [] ls,
    (ls.filterMap Line.function?).filter (·.1 ≠ "main")⟩

end Program

/-! ### Settings -/

@[simp] theorem number?_text (n : Nat) : Line.number? (Numeral.text n).toList = some n := by
  rw [Numeral.toList_text, Line.number?_toDigits]

theorem Settings.ofEntries?_entries (s : Settings) : ofEntries? s.entries = some s := by
  obtain ⟨auxiliaryVariables, optimizationLevel, verbose, version, code, user⟩ := s
  have hverbose : ((if verbose then "true" else "false") == "true") = verbose := by
    cases verbose <;> decide
  cases code <;> cases user <;>
    simp [ofEntries?, entries, numberUnder?, List.lookup_cons, hverbose]

namespace Description

open Program (Yields)

variable {d : Description}

/-! ### Properties, settings and values -/

theorem outlined_of_not_isEntry {l : Line} (h : l.isEntry = false) :
    l.property? = none ∧ l.setting? = none ∧ l.value? = none := by
  cases l <;> first | exact ⟨rfl, rfl, rfl⟩ | cases h

theorem properties_program (d : Description) :
    d.program.filterMap Line.property? =
      ("name", d.name)
        :: (((d.description.map Text.trim).filter (· ≠ "")).map ("description", ·)).toList
        ++ [("activationAmount", Numeral.text d.activationAmount)] := by
  rw [filterMap_program d fun _ hl => (outlined_of_not_isEntry hl).1, properties]
  cases (d.description.map Text.trim).filter (· ≠ "") <;> simp [Line.property?]

theorem settings_program (d : Description) :
    d.program.filterMap Line.setting? = d.settings.entries := by
  rw [filterMap_program d fun _ hl => (outlined_of_not_isEntry hl).2.1,
    filterMap_properties_eq_nil d (fun _ _ => rfl) rfl]
  simp [Line.setting?]

theorem values_program (d : Description) :
    d.program.filterMap Line.value? = d.values.map fun v => (v.name, v.initial?) := by
  rw [filterMap_program d fun _ hl => (outlined_of_not_isEntry hl).2.2,
    filterMap_properties_eq_nil d (fun _ _ => rfl) rfl]
  simp [Line.value?]

/-- A variable that holds no struct is declared once by its name, and one that holds a struct is not
declared as a value. -/
theorem IsAccepted.under_value (h : d.IsAccepted) {v : Variable} (hv : v ∈ d.stateVariables) :
    Program.under Line.value? d.program v.name = if v.isStruct then [] else [v.initial?] := by
  split
  · rename_i hstruct
    rw [Program.under, List.map_eq_nil_iff, List.filter_eq_nil_iff, values_program,
      List.forall_mem_map]
    intro w hw hname
    obtain ⟨hw, hvalue⟩ := List.mem_filter.1 hw
    have hsame : w = v :=
      List.inj_on_of_nodup_map h.nodup_names_stateVariables hw hv (of_decide_eq_true hname)
    rw [hsame, hstruct] at hvalue
    cases hvalue
  · rename_i hstruct
    refine Program.under_eq_singleton ?_ ?_
    · rw [values_program, List.map_map]
      exact h.nodup_names_stateVariables.sublist (List.filter_sublist.map _)
    · rw [values_program]
      exact List.mem_map_of_mem (List.mem_filter.2 ⟨hv, by simpa using hstruct⟩)

theorem lookup_name_program (d : Description) :
    (d.program.filterMap Line.property?).lookup "name" = some d.name := by
  rw [properties_program]
  rfl

theorem numberUnder?_activationAmount_program (d : Description) :
    numberUnder? (d.program.filterMap Line.property?) "activationAmount" =
      some d.activationAmount := by
  rw [properties_program, numberUnder?]
  cases (d.description.map Text.trim).filter (· ≠ "") <;> simp [List.lookup_cons]

/-! ### Constants -/

/-- The lines before the constants for keys. -/
def heads (d : Description) : List Line := d.properties ++ d.settingLines ++ d.codeLines

/-- The lines behind the constants for keys. -/
def tails (d : Description) : List Line :=
  d.wordLines ++ d.structLines ++ transactionLines ++ d.mainLines ++ d.functionLines

theorem program_eq_heads_append (d : Description) :
    d.program = d.heads ++ (d.keyLines ++ d.tails) := by
  simp only [program, heads, tails, List.append_assoc]

theorem beforeKeys_of_mem_heads (d : Description) : ∀ l ∈ d.heads, Program.beforeKeys l = true := by
  simp only [heads, List.forall_mem_append]
  refine ⟨⟨?_, ?_⟩, ?_⟩
  · exact forall_mem_properties rfl (fun _ _ => rfl) rfl rfl
  · exact forall_mem_settingLines (fun _ _ => rfl) rfl
  · exact forall_mem_titled (by decide) rfl (List.forall_mem_map.2 fun _ _ => rfl)

theorem definitions_heads (d : Description) :
    d.heads.filterMap Line.definition? = d.methods.map fun m => (m.constant, m.code) := by
  have hother := fun (l : Line) hl => (said_of_not_isEntry (l := l) hl).1
  rw [heads, List.filterMap_append, List.filterMap_append, filterMap_settingLines hother,
    filterMap_codeLines hother, filterMap_properties_eq_nil d (fun _ _ => rfl) rfl]
  simp [Line.definition?]

theorem definitions_tails (d : Description) : d.tails.filterMap Line.definition? = [] := by
  have hother := fun (l : Line) hl => (said_of_not_isEntry (l := l) hl).1
  simp [tails, filterMap_wordLines hother, filterMap_structLines hother,
    filterMap_transactionLines hother, filterMap_mainLines hother, filterMap_functionLines hother,
    Line.definition?]

/-- Up to the heading of the constants for keys, or if there is none, in the whole program, only
codes are defined. -/
theorem definitions_takeWhile_program (d : Description) :
    (d.program.takeWhile Program.beforeKeys).filterMap Line.definition? =
      d.methods.map fun m => (m.constant, m.code) := by
  have hkeys : ((d.keyLines ++ d.tails).takeWhile Program.beforeKeys).filterMap
      Line.definition? = [] := by
    rw [keyLines, titled]
    split
    · rw [List.nil_append]
      have hsublist := (List.takeWhile_sublist (l := d.tails) Program.beforeKeys).filterMap
        Line.definition?
      rw [definitions_tails] at hsublist
      exact List.sublist_nil.1 hsublist
    · rfl
  rw [program_eq_heads_append, List.takeWhile_append_of_pos d.beforeKeys_of_mem_heads,
    List.filterMap_append, definitions_heads, hkeys, List.append_nil]

theorem definitions_dropWhile_program (d : Description) :
    (d.program.dropWhile Program.beforeKeys).filterMap Line.definition? =
      d.maps.filterMap fun m =>
        m.key1.value.map fun value => (Name.mapConstant m.name m.key1.name, value) := by
  have hall := d.definitions_program
  rw [← List.takeWhile_append_dropWhile (p := Program.beforeKeys) (l := d.program),
    List.filterMap_append, definitions_takeWhile_program] at hall
  exact List.append_cancel_left hall

/-! ### Structs -/

theorem structs_of_isSilent (l : Line) (h : l.isSilent = true) :
    Yields (Program.structs "" []) [l] [] := by
  intro rest
  cases l with
  | blank | property | setting | comment | constant => rfl
  | _ => cases h

theorem structs_structLines {v : Variable}
    (htag : Name.upper v.name ≠ Vocabulary.transactionTag) :
    Yields (Program.structs "" []) v.structLines
      [⟨Name.upper v.name, v.fields.map (·.name), v.name⟩] := by
  refine Yields.structLines structs_of_isSilent fun rest => ?_
  rw [List.append_assoc, List.cons_append, Program.structs, if_neg htag,
    Program.pass_fields (Program.structs _) fun _ _ _ => rfl]
  rfl

theorem IsAccepted.structs_program (h : d.IsAccepted) :
    Program.structs "" [] d.program =
      d.structs.map fun v => ⟨Name.upper v.name, v.fields.map (·.name), v.name⟩ := by
  have hvalues : Yields (Program.structs "" []) d.wordLines [] := by
    refine Yields.titled structs_of_isSilent (Yields.nothing ?_)
    rw [List.forall_mem_map]
    exact fun _ _ _ => rfl
  have hstructs : Yields (Program.structs "" []) d.structLines
      (d.structs.flatMap fun v => [⟨Name.upper v.name, v.fields.map (·.name), v.name⟩]) :=
    Yields.titled structs_of_isSilent
      (Yields.flatMap fun v hv => structs_structLines (h.upper_ne_transactionTag hv))
  have hstate := ((Yields.heads structs_of_isSilent d).append hvalues).append hstructs
  -- From here on every program is the same.
  have htransaction : ∀ rest, Program.structs "" [] (transactionLines ++ rest) = [] := fun _ => rfl
  rw [program, List.append_assoc _ d.mainLines, List.append_assoc _ transactionLines, hstate,
    htransaction, List.append_nil, List.map_eq_flatMap]
  rfl

/-! ### The outline of a program -/

theorem IsAccepted.functions_program_except_main (h : d.IsAccepted) :
    (d.program.filterMap Line.function?).filter (·.1 ≠ "main") =
      d.methods.map fun m => (m.name, m.arguments.map (·.name)) := by
  have hother : ∀ f ∈ d.methods.map fun m => (m.name, m.arguments.map (·.name)),
      decide (f.1 ≠ "main") = true := by
    rw [List.forall_mem_map]
    exact fun m hm => decide_eq_true (h.name_method_ne_main hm)
  rw [functions_program, List.filter_cons_of_neg (by simp), List.filter_eq_self.2 hother]

theorem IsAccepted.outline?_program (h : d.IsAccepted) :
    Program.outline? d.program = some d.outline := by
  simp only [Program.outline?, lookup_name_program, numberUnder?_activationAmount_program,
    settings_program, Settings.ofEntries?_entries, definitions_takeWhile_program,
    definitions_dropWhile_program, values_program, h.structs_program,
    h.functions_program_except_main]
  rfl

end Description

/-- The text of the program for an accepted description is read as its outline. Hence accepted
descriptions with the same program have the same outline, whatever their texts are. -/
theorem program_determines_outline {d : Description} (h : d.IsAccepted) :
    (readProgram? d.code).bind Program.outline? = some d.outline ∧
      ∀ e : Description, e.IsAccepted → Command.programBytes e = Command.programBytes d →
        e.outline = d.outline := by
  have houtline : ∀ e : Description, e.IsAccepted →
      (readProgram? e.code).bind Program.outline? = some e.outline := by
    intro e he
    rw [he.readProgram?_code, Option.bind_some, he.outline?_program]
  refine ⟨houtline d h, fun e he hbytes => ?_⟩
  have hcode : e.code = d.code := by
    have hread := Text.decodeUtf8_utf8 e.code
    rw [← Command.programBytes, hbytes, Command.programBytes, Text.decodeUtf8_utf8] at hread
    exact (Except.ok.inj hread).symm
  have hsame := houtline e he
  rw [hcode, houtline d h] at hsame
  exact (Option.some.inj hsame).symm

/-- A description with other texts for the same program as the sample. -/
def Description.sampleRetold : Description :=
  { sample with
    description := some " Keeps \"deposits\"\tand pays them out  "
    methods :=
      [⟨"deposit", some "Takes\n\nan amount\n", 1, []⟩,
       ⟨"pay", some " ", 7, [⟨"recipient", ⟨.long, false⟩⟩, ⟨"total", ⟨.amount, true⟩⟩]⟩]
    transactions := [] }

theorem program_determines_outline_sample :
    Description.sample.IsAccepted ∧ Description.sampleRetold.IsAccepted ∧
      (readProgram? Description.sample.code).bind Program.outline? =
        some Description.sample.outline ∧
      Description.sample.outline.values = [("owner", none), ("label", some (.quoted "a;b"))] ∧
      Description.sampleRetold.outline = Description.sample.outline := by
  have hretold : Description.sampleRetold.IsAccepted :=
    Description.isAccepted_of_toOption (by decide +kernel)
  have houtline := program_determines_outline Description.isAccepted_sample
  have hprogram : Description.sampleRetold.program = Description.sample.program := by
    decide +kernel
  have hbytes : Command.programBytes Description.sampleRetold =
      Command.programBytes Description.sample := by
    rw [Command.programBytes, Command.programBytes, Description.code, Description.code, hprogram]
  exact ⟨Description.isAccepted_sample, hretold, houtline.1, by decide,
    houtline.2 Description.sampleRetold hretold hbytes⟩

end SmartContract
