import SmartContract.Proofs.Program.Expansion

/-!
Programs without their comments. A comment goes from two slashes that stand in no literal to the end
of the line. What describes methods, variables, maps and transactions comes to stand in comments
only, so that it has no part in what remains of a program without them.
-/

namespace SmartContract

/-! ### Cutting comments -/

namespace Text

/-- What stands before the comment on a line: before the first two slashes outside of literals. The
flag says whether the line starts within a literal. -/
def beforeComment (inLiteral : Bool) : List Char → List Char
  | [] => []
  | c :: cs =>
    if !inLiteral && c = '/' && cs.head? = some '/' then []
    else c :: beforeComment (if c = '"' then !inLiteral else inLiteral) cs

/-- The characters without the blanks at their end. -/
def trimEnd (cs : List Char) : List Char := (cs.reverse.dropWhile isBlank).reverse

/-- The line without its comment and the blanks before it, unless it consists of a comment only. -/
def uncommented? (line : List Char) : Option (List Char) :=
  let code := beforeComment false line
  if code ≠ line ∧ code.all isBlank = true then none else some (trimEnd code)

/-- The lines of a text without their comments. -/
def uncommented (s : String) : List (List Char) := (lines s).filterMap uncommented?

example : uncommented "a = \"//\"; // b\n  // c\n\nd\n" = ["a = \"//\";".toList, [], ['d']] := by
  decide

variable {cs ds : List Char}

/-- What holds neither slashes nor quotation marks stands before the comment. -/
theorem beforeComment_append (inLiteral : Bool) (h : ∀ c ∈ cs, c ≠ '/' ∧ c ≠ '"') :
    beforeComment inLiteral (cs ++ ds) = cs ++ beforeComment inLiteral ds := by
  induction cs with
  | nil => rfl
  | cons c cs ih =>
    obtain ⟨⟨hslash, hquote⟩, hcs⟩ := List.forall_mem_cons.1 h
    simp [beforeComment, hslash, hquote, ih hcs]

/-- What stands in a literal stands before the comment. -/
theorem beforeComment_literal (ds : List Char) (h : ∀ c ∈ cs, c ≠ '"') :
    beforeComment true (cs ++ '"' :: ds) = cs ++ '"' :: beforeComment false ds := by
  induction cs with
  | nil => simp [beforeComment]
  | cons c cs ih =>
    obtain ⟨hquote, hcs⟩ := List.forall_mem_cons.1 h
    simp [beforeComment, hquote, ih hcs]

theorem trimEnd_append_blank {c : Char} (h : isBlank c = true) :
    trimEnd (cs ++ [c]) = trimEnd cs := by
  rw [trimEnd, List.reverse_append, List.reverse_singleton, List.singleton_append,
    List.dropWhile_cons_of_pos h, trimEnd]

/-- A line of blanks and a comment consists of a comment only. -/
theorem uncommented?_comment (ds : List Char) (h : ∀ c ∈ cs, c = ' ') :
    uncommented? (cs ++ '/' :: '/' :: ds) = none := by
  have hcode : beforeComment false (cs ++ '/' :: '/' :: ds) = cs := by
    rw [beforeComment_append false fun c hc => by rw [h c hc]; decide]
    simp [beforeComment]
  have hblank : cs.all isBlank = true := List.all_eq_true.2 fun c hc => by rw [h c hc]; decide
  rw [uncommented?, hcode, if_pos ⟨by simp, hblank⟩]

/-- A comment behind code counts as little as none. -/
theorem uncommented?_remark (hall : beforeComment false cs = cs) (hblank : cs.all isBlank = false)
    (hremark : beforeComment false (cs ++ ' ' :: '/' :: '/' :: ds) = cs ++ [' ']) :
    uncommented? (cs ++ ' ' :: '/' :: '/' :: ds) = uncommented? cs := by
  rw [uncommented?, uncommented?, hremark, hall, if_neg (by simp [hblank]), if_neg (by simp),
    trimEnd_append_blank (by decide)]

end Text

/-! ### Lines without comments -/

namespace Line

/-- The line without its comment, unless it is one. -/
def bare? : Line → Option Line
  | comment _ | body _ => none
  | word name literal _ => some (word name literal none)
  | l => some l

theorem ne_of_mem_of_isName {name : String} (h : Name.IsName name) :
    ∀ c ∈ name.toList, c ≠ '/' ∧ c ≠ '"' := by
  intro c hc
  refine ⟨?_, ?_⟩ <;> rintro rfl <;> exact Name.not_mem_of_isName (by decide) h hc

/-- The literal with which a variable is declared stands before the comment, and so does what ends
the declaration. -/
theorem beforeComment_literal_append {literal : Option Literal}
    (h : ∀ l ∈ literal, l.IsAdmitted) (rest : List Char) :
    Text.beforeComment false
        ((literal.elim "" fun l => " = " ++ l.text).toList ++ ';' :: rest) =
      (literal.elim "" fun l => " = " ++ l.text).toList ++ ';' :: Text.beforeComment false rest := by
  have hend : Text.beforeComment false (';' :: rest) = ';' :: Text.beforeComment false rest := by
    simp [Text.beforeComment]
  rcases literal with _ | s | s
  · exact hend
  · obtain ⟨t, ht, hadmits⟩ := h _ rfl
    have hplain : ∀ c ∈ (" = " ++ s).toList, c ≠ '/' ∧ c ≠ '"' := by
      rw [String.toList_append, List.forall_mem_append]
      refine ⟨by simp, fun c hc => ⟨?_, ?_⟩⟩ <;> rintro rfl <;>
        exact not_mem_of_admits hadmits ht (by decide) (by decide) (by decide) hc
    exact (Text.beforeComment_append false hplain).trans (congrArg _ hend)
  · have hquoted : ∀ c ∈ s.toList, c ≠ '"' := fun c hc =>
      (ne_of_mem_of_admits_string (h _ rfl) hc).1
    have hstart : Text.beforeComment false (" = \"".toList ++ (s.toList ++ '"' :: ';' :: rest)) =
        " = \"".toList ++ (s.toList ++ '"' :: ';' :: Text.beforeComment false rest) := by
      have hliteral := Text.beforeComment_literal (';' :: rest) hquoted
      simp [Text.beforeComment, hliteral]
    simpa [Literal.text] using hstart

theorem uncommented?_word {name : String} {literal : Option Literal} (remark : Option String)
    (hname : Name.IsName name) (h : ∀ l ∈ literal, l.IsAdmitted) :
    Text.uncommented? (word name literal remark).chars =
      Text.uncommented? (word name literal none).chars := by
  cases remark with
  | none => rfl
  | some r =>
    have hstart : ∀ c ∈ (wordType ++ " " ++ name).toList, c ≠ '/' ∧ c ≠ '"' := by
      rw [String.toList_append, List.forall_mem_append]
      exact ⟨by simp [wordType], ne_of_mem_of_isName hname⟩
    have hcode (rest : List Char) : Text.beforeComment false ((word name literal none).chars ++ rest)
        = (word name literal none).chars ++ Text.beforeComment false rest := by
      have hall := (Text.beforeComment_append false hstart).trans
        (congrArg _ (beforeComment_literal_append h rest))
      simpa [chars, indentation, level, content] using hall
    have hchars : (word name literal (some r)).chars =
        (word name literal none).chars ++ ' ' :: '/' :: '/' :: (' ' :: r.toList) := by
      simp [chars, indentation, level, content]
    have hblank : (word name literal none).chars.all Text.isBlank = false := by
      have hfirst : Text.isBlank 'l' = false := by decide
      simp [chars, indentation, level, content, wordType, hfirst]
    rw [hchars]
    refine Text.uncommented?_remark ?_ hblank ?_
    · simpa [Text.beforeComment] using hcode []
    · exact (hcode _).trans (congrArg _ (by simp [Text.beforeComment]))

/-- Without comments the text of a line is that of the line without its comment. -/
theorem uncommented?_chars {l : Line} (h : l.IsWellFormed) (hl : l.HasAdmittedLiteral) :
    Text.uncommented? l.chars = l.bare?.bind fun k => Text.uncommented? k.chars := by
  have hspaces (level : Nat) : ∀ c ∈ (indentation level).toList, c = ' ' := by
    rw [indentation, String.toList_ofList]
    exact fun c hc => List.eq_of_mem_replicate hc
  cases l with
  | comment text =>
    have hcomment := Text.uncommented?_comment (' ' :: text.toList) (hspaces 0)
    simpa [chars, level, content, bare?] using hcomment
  | body name =>
    have hcomment := Text.uncommented?_comment
      (" Implement " ++ name ++ " here").toList (hspaces 1)
    simpa [chars, level, content, bare?] using hcomment
  | word name literal remark => exact uncommented?_word remark h.1 hl
  | _ => rfl

end Line

/-- Without comments the text of a program is that of its lines without their comments. -/
theorem Text.uncommented_join {ls : List Line} (h : ∀ l ∈ ls, l.IsWellFormed)
    (hl : ∀ l ∈ ls, l.HasAdmittedLiteral) :
    uncommented (String.join (ls.map Line.text)) =
      (ls.filterMap Line.bare?).filterMap fun l => uncommented? l.chars := by
  rw [uncommented, lines_join h, List.filterMap_map, List.filterMap_filterMap]
  exact List.filterMap_congr fun l hmem => Line.uncommented?_chars (h l hmem) (hl l hmem)

/-! ### Descriptions without documentation -/

def Method.undocumented (m : Method) : Method := { m with description := none }

def Variable.undocumented (v : Variable) : Variable := { v with description := none }

def MapItem.undocumented (item : MapItem) : MapItem := { item with description := none }

def KeyMap.undocumented (m : KeyMap) : KeyMap where
  name := m.name
  description := none
  key1 := m.key1.undocumented
  key2 := m.key2.undocumented
  value := m.value.undocumented

def Transaction.undocumented (t : Transaction) : Transaction := { t with description := none }

/-- The description without what is said about its methods, variables, maps and transactions. -/
def Description.undocumented (d : Description) : Description :=
  { d with
    methods := d.methods.map Method.undocumented
    stateVariables := d.stateVariables.map Variable.undocumented
    maps := d.maps.map KeyMap.undocumented
    transactions := d.transactions.map Transaction.undocumented }

/-! ### Programs without comments -/

theorem filterMap_bare?_titled {heading : String} {ls ms : List Line}
    (h : ls.filterMap Line.bare? = ms.filterMap Line.bare?) (hempty : ls.isEmpty = ms.isEmpty) :
    (titled heading ls).filterMap Line.bare? = (titled heading ms).filterMap Line.bare? := by
  rw [titled, titled, hempty]
  split
  · rfl
  · rw [List.cons_append, List.cons_append, List.filterMap_cons_none rfl,
      List.filterMap_cons_none rfl, List.filterMap_append, List.filterMap_append, h]

theorem map_intersperse {α β : Type} (f : α → β) (sep : α) (xs : List α) :
    (xs.intersperse sep).map f = (xs.map f).intersperse (f sep) := by
  induction xs with
  | nil => rfl
  | cons x xs ih =>
    cases xs with
    | nil => rfl
    | cons y xs => simpa [List.intersperse_cons_cons] using ih

theorem filterMap_bare?_comments {texts : List String} :
    (texts.map Line.comment).filterMap Line.bare? = [] := by
  rw [List.filterMap_eq_nil_iff, List.forall_mem_map]
  exact fun _ _ => rfl

theorem Variable.filterMap_bare?_structLines (v : Variable) :
    v.structLines.filterMap Line.bare? = v.undocumented.structLines.filterMap Line.bare? := by
  have hremark (o : Option String) : (o.map Line.comment).toList.filterMap Line.bare? = [] := by
    cases o <;> rfl
  simp only [structLines, List.append_assoc, List.filterMap_append, hremark]
  rfl

theorem isEmpty_flatMap_structLines (vs : List Variable) :
    (vs.flatMap Variable.structLines).isEmpty = vs.isEmpty := by
  cases vs <;> simp [Variable.structLines]

theorem Method.filterMap_bare?_functionLines (m : Method) :
    m.functionLines.filterMap Line.bare? = m.undocumented.functionLines.filterMap Line.bare? := by
  rw [functionLines, functionLines, List.filterMap_append, List.filterMap_append,
    filterMap_bare?_comments, filterMap_bare?_comments]
  rfl

namespace Description

variable (d : Description)

theorem codeLines_undocumented : d.undocumented.codeLines = d.codeLines := by
  rw [codeLines, undocumented, List.map_map]
  rfl

theorem keyLines_undocumented : d.undocumented.keyLines = d.keyLines := by
  rw [keyLines, undocumented, List.filterMap_map]
  rfl

theorem values_undocumented : d.undocumented.values = d.values.map Variable.undocumented := by
  rw [values, undocumented, List.filter_map]
  rfl

theorem structs_undocumented : d.undocumented.structs = d.structs.map Variable.undocumented := by
  rw [structs, undocumented, List.filter_map]
  rfl

theorem filterMap_bare?_wordLines :
    d.undocumented.wordLines.filterMap Line.bare? = d.wordLines.filterMap Line.bare? := by
  rw [wordLines, wordLines, values_undocumented, List.map_map]
  refine filterMap_bare?_titled ?_ (by simp)
  rw [List.filterMap_map, List.filterMap_map]
  rfl

theorem filterMap_bare?_structLines :
    d.undocumented.structLines.filterMap Line.bare? = d.structLines.filterMap Line.bare? := by
  rw [structLines, structLines, structs_undocumented]
  refine filterMap_bare?_titled ?_ ?_
  · rw [List.flatMap_map, List.filterMap_flatMap, List.filterMap_flatMap]
    exact List.flatMap_congr fun v _ => v.filterMap_bare?_structLines.symm
  · rw [isEmpty_flatMap_structLines, isEmpty_flatMap_structLines, List.isEmpty_map]

theorem mainLines_undocumented : d.undocumented.mainLines = d.mainLines := by
  have hchoice : d.undocumented.choiceLines = d.choiceLines := by
    rw [choiceLines, choiceLines, undocumented, List.isEmpty_map, List.flatMap_map]
    rfl
  rw [mainLines, hchoice, mainLines]

theorem filterMap_bare?_functionLines :
    d.undocumented.functionLines.filterMap Line.bare? = d.functionLines.filterMap Line.bare? := by
  rw [functionLines, functionLines, undocumented, List.isEmpty_map]
  split
  · rfl
  · simp only [List.filterMap_cons, List.filterMap_flatten, map_intersperse, List.map_map]
    have hparts : d.methods.map (List.filterMap Line.bare? ∘ Method.functionLines) =
        d.methods.map
          ((List.filterMap Line.bare? ∘ Method.functionLines) ∘ Method.undocumented) :=
      List.map_congr_left fun m _ => m.filterMap_bare?_functionLines
    rw [hparts]
    rfl

/-- What documents a description has no part in the lines of its program without comments. -/
theorem filterMap_bare?_undocumented :
    d.undocumented.program.filterMap Line.bare? = d.program.filterMap Line.bare? := by
  simp only [program, List.filterMap_append, codeLines_undocumented, keyLines_undocumented,
    filterMap_bare?_wordLines, filterMap_bare?_structLines, mainLines_undocumented,
    filterMap_bare?_functionLines]
  rfl

variable {d : Description}

theorem IsAccepted.uncommented_code (h : d.IsAccepted) :
    Text.uncommented d.code =
      (d.program.filterMap Line.bare?).filterMap fun l => Text.uncommented? l.chars :=
  Text.uncommented_join h.isWellFormed_program h.hasAdmittedLiteral

end Description

/-- Accepted descriptions that differ only in what is said about their methods, variables, maps and
transactions have the same program but for its comments. -/
theorem uncommented_code_eq_of_undocumented_eq {d e : Description} (hd : d.IsAccepted)
    (he : e.IsAccepted) (h : d.undocumented = e.undocumented) :
    Text.uncommented d.code = Text.uncommented e.code := by
  rw [hd.uncommented_code, he.uncommented_code, ← d.filterMap_bare?_undocumented,
    ← e.filterMap_bare?_undocumented, h]

/-- A description with slashes in a literal. -/
def Description.linked : Description :=
  { starter "Sample" with
    methods := [⟨"pay", none, 7, [⟨"total", ⟨.amount, false⟩⟩]⟩]
    stateVariables :=
      [⟨"scheme", .value ⟨.string, false⟩, none, true, false, some "a://b"⟩,
       ⟨"last", .struct [⟨"sender", ⟨.address, false⟩⟩], none, false, false, none⟩]
    maps :=
      [⟨"balances", none, ⟨"kind", none, none, true, some 4⟩,
        ⟨"account", none, some (.scalar .address), false, none⟩,
        ⟨"state", none, none, false, none⟩⟩]
    transactions := [⟨"payment", none, .amount⟩] }

/-- The same description with texts that look like code. -/
def Description.linkedDocumented : Description :=
  { linked with
    methods := [⟨"pay", some "long x; // \"\n\n\t\nbreak;", 7, [⟨"total", ⟨.amount, false⟩⟩]⟩]
    stateVariables :=
      [⟨"scheme", .value ⟨.string, false⟩, some " = \"//\"\n;", true, false, some "a://b"⟩,
       ⟨"last", .struct [⟨"sender", ⟨.address, false⟩⟩], some "/* long y;", false, false, none⟩]
    maps :=
      [⟨"balances", some "By // kind", ⟨"kind", some "4", none, true, some 4⟩,
        ⟨"account", some "Whose", some (.scalar .address), false, none⟩,
        ⟨"state", some "\"", none, false, none⟩⟩]
    transactions := [⟨"payment", some "To // all", .amount⟩] }

theorem uncommented_code_eq_linked :
    Description.linked.IsAccepted ∧ Description.linkedDocumented.IsAccepted ∧
      Description.linked.undocumented = Description.linkedDocumented.undocumented ∧
      Description.linked.program.length ≠ Description.linkedDocumented.program.length ∧
      Text.uncommented Description.linked.code =
        Text.uncommented Description.linkedDocumented.code := by
  have hlinked : Description.linked.IsAccepted :=
    Description.isAccepted_of_toOption (by decide +kernel)
  have hdocumented : Description.linkedDocumented.IsAccepted :=
    Description.isAccepted_of_toOption (by decide +kernel)
  have hsame : Description.linked.undocumented = Description.linkedDocumented.undocumented := rfl
  have hdiffer : Description.linked.program.length ≠
      Description.linkedDocumented.program.length := by
    decide +kernel
  exact ⟨hlinked, hdocumented, hsame, hdiffer,
    uncommented_code_eq_of_undocumented_eq hlinked hdocumented hsame⟩

end SmartContract
