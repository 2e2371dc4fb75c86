import SmartContract.Proofs.Name
import SmartContract.Proofs.Numeric.Numeral
import SmartContract.Proofs.Program.Reader
import SmartContract.Proofs.Related
import SmartContract.Proofs.Text.Blank

/-!
Reading undoes writing for lines whose names are names and whose texts hold no line feeds: a line is
read from its characters as the line, and a text of such lines as these lines.
-/

namespace SmartContract

/-! ### Lists of characters -/

theorem takeWhile_append_of_all {p : Char → Bool} {cs rest : List Char} (h : ∀ c ∈ cs, p c = true)
    (hrest : ∀ c ∈ rest.head?, p c = false) : (cs ++ rest).takeWhile p = cs := by
  rw [List.takeWhile_append_of_pos h]
  cases rest with
  | nil => simp
  | cons c rest => simp [hrest c (by simp)]

theorem dropWhile_append_of_all {p : Char → Bool} {cs rest : List Char} (h : ∀ c ∈ cs, p c = true)
    (hrest : ∀ c ∈ rest.head?, p c = false) : (cs ++ rest).dropWhile p = rest := by
  rw [List.dropWhile_append_of_pos h]
  cases rest with
  | nil => rfl
  | cons c rest => simp [hrest c (by simp)]

/-- The literal ends where it seems to end, and on its line. -/
def Literal.IsWellFormed : Literal → Prop
  | .plain s => ∀ c ∈ s.toList, c ≠ ';' ∧ c ≠ '"' ∧ c ≠ '\n'
  | .quoted s => ∀ c ∈ s.toList, c ≠ '"' ∧ c ≠ '\n'

instance (l : Literal) : Decidable l.IsWellFormed :=
  match l with
  | .plain s => inferInstanceAs (Decidable (∀ c ∈ s.toList, c ≠ ';' ∧ c ≠ '"' ∧ c ≠ '\n'))
  | .quoted s => inferInstanceAs (Decidable (∀ c ∈ s.toList, c ≠ '"' ∧ c ≠ '\n'))

namespace Line

variable {cs rest : List Char} {s : String}

/-! ### Parts of lines -/

@[simp] theorem behind?_append (ps cs : List Char) : behind? ps (ps ++ cs) = some cs := by
  induction ps with
  | nil => rfl
  | cons p ps ih => simp [behind?, ih]

@[simp] theorem before?_append (ps cs : List Char) : before? ps (cs ++ ps) = some cs := by
  rw [before?, List.reverse_append, behind?_append, Option.map_some, List.reverse_reverse]

theorem name?_append (h : Name.IsName s) (rest : List Char)
    (hrest : ∀ c ∈ rest.head?, Name.isPart c = false) :
    name? (s.toList ++ rest) = some (s, rest) := by
  have hs := Name.isPart_of_isName h
  rw [name?, takeWhile_append_of_all hs hrest, dropWhile_append_of_all hs hrest,
    String.ofList_toList, if_pos (Name.defect?_eq_none_iff.2 h)]

theorem nameBefore?_append (h : Name.IsName s) (rest : List Char)
    (hrest : ∀ c ∈ rest.head?, Name.isPart c = false) :
    nameBefore? rest (s.toList ++ rest) = some s := by
  rw [nameBefore?, name?_append h rest hrest]
  exact if_pos rfl

theorem nameBefore?_nil (h : Name.IsName s) : nameBefore? [] s.toList = some s := by
  have hs := nameBefore?_append h [] (by simp)
  rwa [List.append_nil] at hs

@[simp] theorem number?_toDigits (n : Nat) : number? (Nat.toDigits 10 n) = some n := by
  rw [number?, if_pos (Numeral.isDigits_toDigits n), Numeral.valueFrom_toDigits]

theorem keyAndValue?_append {key : String} (h : ' ' ∉ key.toList) (value : String) :
    keyAndValue? (key.toList ++ ' ' :: value.toList) = some (key, value) := by
  have hkey : ∀ c ∈ key.toList, decide (c ≠ ' ') = true := by
    intro c hc
    exact decide_eq_true fun heq => h (heq ▸ hc)
  have hspace : ∀ c ∈ (' ' :: value.toList).head?, decide (c ≠ ' ') = false := by simp
  simp only [keyAndValue?, takeWhile_append_of_all hkey hspace,
    dropWhile_append_of_all hkey hspace, String.ofList_toList]

/-! ### Lists with commas -/

theorem pieces_intercalate (before : List Char) {i : List Char} {items : List (List Char)}
    (hbefore : ',' ∉ before) (hi : ',' ∉ i) (h : ∀ j ∈ items, ',' ∉ j) :
    Text.pieces (· == ',') (before ++ [',', ' '].intercalate (i :: items)) =
      (before ++ i) :: items.map (' ' :: ·) := by
  have hfirst : ∀ c ∈ before ++ i, (c == ',') = false := by
    intro c hc
    rw [beq_eq_false_iff_ne]
    rintro rfl
    exact (List.mem_append.1 hc).elim hbefore hi
  induction items generalizing before i with
  | nil =>
    rw [List.map_nil, ← Text.pieces_of_none hfirst]
    simp [List.intercalate]
  | cons j items ih =>
    obtain ⟨hj, hitems⟩ := List.forall_mem_cons.1 h
    have hsplit : before ++ [',', ' '].intercalate (i :: j :: items) =
        (before ++ i) ++ ',' :: ([' '] ++ [',', ' '].intercalate (j :: items)) := by
      simp [List.intercalate]
    have hnext : ∀ c ∈ [' '] ++ j, (c == ',') = false := by
      intro c hc
      rw [beq_eq_false_iff_ne]
      rintro rfl
      exact (List.mem_append.1 hc).elim (by decide) hj
    rw [hsplit, Text.pieces_append_cons hfirst rfl, ih _ (by decide) hj hitems hnext]
    rfl

/-- Items that hold no commas and do not start with a space are read back from the list of them. -/
theorem commaList_intercalate {items : List (List Char)} (hne : ∀ i ∈ items, i ≠ [])
    (hcomma : ∀ i ∈ items, ',' ∉ i) (hspace : ∀ i ∈ items, ' ' ∉ i.head?) :
    commaList ([',', ' '].intercalate items) = items := by
  have hdrop : ∀ i ∈ items, i.dropWhile (· = ' ') = i := by
    intro i hi
    cases i with
    | nil => rfl
    | cons c i =>
      have hc : c ≠ ' ' := fun heq => hspace _ hi (by simp [heq])
      simp [hc]
  cases items with
  | nil => rfl
  | cons i items =>
    have hnil : ([',', ' '].intercalate (i :: items)).isEmpty = false := by
      have hi : i ≠ [] := hne i List.mem_cons_self
      cases items <;> simp [List.intercalate, hi]
    obtain ⟨hi, hitems⟩ := List.forall_mem_cons.1 hcomma
    obtain ⟨hdropi, hdrops⟩ := List.forall_mem_cons.1 hdrop
    -- The first item has nothing before it, and each other one the space behind its comma.
    have hpieces := pieces_intercalate [] List.not_mem_nil hi hitems
    rw [List.nil_append, List.nil_append] at hpieces
    have hrest : (items.map (' ' :: ·)).map (·.dropWhile (· = ' ')) = items := by
      rw [List.map_map]
      refine (List.map_congr_left fun j hj => ?_).trans (List.map_id _)
      simpa using hdrops j hj
    rw [commaList, hnil, hpieces, List.map_cons, hdropi, hrest]
    rfl

/-! ### Well-formed lines -/

/-- The names of the line are names, and its texts end where they seem to end, and on the line. -/
def IsWellFormed : Line → Prop
  | property key value | setting key value =>
    ' ' ∉ key.toList ∧ '\n' ∉ key.toList ∧ '\n' ∉ value.toList
  | comment text => '\n' ∉ text.toList
  | word name literal remark =>
    Name.IsName name ∧ (∀ l ∈ literal, l.IsWellFormed) ∧ ∀ r ∈ remark, '\n' ∉ r.toList
  | constant name _ | structStart name | field name | arrayField name _ | structEnd name
  | choiceCase name | call name _ | body name => Name.IsName name
  | functionStart name parameters => Name.IsName name ∧ ∀ p ∈ parameters, Name.IsName p
  | close level => level ≤ 2
  | blank | loopStart | lookUpSender | readMessage | choiceStart | leave => True

instance (l : Line) : Decidable l.IsWellFormed :=
  match l with
  | property key value | setting key value =>
    inferInstanceAs (Decidable (' ' ∉ key.toList ∧ '\n' ∉ key.toList ∧ '\n' ∉ value.toList))
  | comment text => inferInstanceAs (Decidable ('\n' ∉ text.toList))
  | word name literal remark =>
    inferInstanceAs (Decidable
      (Name.IsName name ∧ (∀ l ∈ literal, l.IsWellFormed) ∧ ∀ r ∈ remark, '\n' ∉ r.toList))
  | constant name _ | structStart name | field name | arrayField name _ | structEnd name
  | choiceCase name | call name _ | body name => inferInstanceAs (Decidable (Name.IsName name))
  | functionStart name parameters =>
    inferInstanceAs (Decidable (Name.IsName name ∧ ∀ p ∈ parameters, Name.IsName p))
  | close level => inferInstanceAs (Decidable (level ≤ 2))
  | blank | loopStart | lookUpSender | readMessage | choiceStart | leave => .isTrue trivial

/-- The characters of a line without the line feed. -/
def chars (l : Line) : List Char := (indentation l.level).toList ++ l.content.toList

theorem constant?_eq {name : String} (h : Name.IsName name) (value : Nat) :
    constant? (name.toList ++ ' ' :: Nat.toDigits 10 value) = some (.constant name value) := by
  rw [constant?, name?_append h _ (by simp; decide)]
  simp [behind?]

theorem declared?_eq {name : String} {literal : Option Literal} (remark : Option String) :
    declared? name literal (';' :: (remark.elim "" (" // " ++ ·)).toList) =
      some (.word name literal remark) := by
  cases remark with
  | none => simp [declared?]
  | some r => simp [declared?, behind?]

theorem literalAnd_append {l : Literal} (h : l.IsWellFormed) (rest : List Char) :
    literalAnd (l.text.toList ++ ';' :: rest) = (l, ';' :: rest) := by
  cases l with
  | plain s =>
    have hs : ∀ c ∈ s.toList, decide (c ≠ ';') = true := fun c hc => decide_eq_true (h c hc).1
    have hhead : (s.toList ++ ';' :: rest).head? ≠ some '"' := by
      cases hc : s.toList with
      | nil => simp
      | cons c cs => simpa using (h c (by simp [hc])).2.1
    have hend : ∀ c ∈ (';' :: rest).head?, decide (c ≠ ';') = false := by simp
    rw [literalAnd, Literal.text, if_neg hhead, takeWhile_append_of_all hs hend,
      dropWhile_append_of_all hs hend, String.ofList_toList]
  | quoted s =>
    have hs : ∀ c ∈ s.toList, decide (c ≠ '"') = true := fun c hc => decide_eq_true (h c hc).1
    have hend : ∀ c ∈ ('"' :: ';' :: rest).head?, decide (c ≠ '"') = false := by simp
    have htext : (Literal.quoted s).text.toList ++ ';' :: rest =
        '"' :: (s.toList ++ '"' :: ';' :: rest) := by simp [Literal.text]
    rw [literalAnd, htext, List.head?_cons, if_pos rfl, List.tail_cons,
      takeWhile_append_of_all hs hend, dropWhile_append_of_all hs hend, String.ofList_toList,
      List.tail_cons]

theorem word?_eq {name : String} {literal : Option Literal} (h : Name.IsName name)
    (hliteral : ∀ l ∈ literal, l.IsWellFormed) (remark : Option String) :
    word? (name.toList ++ (literal.elim "" fun l => " = " ++ l.text).toList
      ++ ';' :: (remark.elim "" (" // " ++ ·)).toList) = some (.word name literal remark) := by
  cases literal with
  | none =>
    have hname := name?_append h (';' :: (remark.elim "" (" // " ++ ·)).toList) (by simp; decide)
    simp [word?, hname, behind?, declared?_eq]
  | some l =>
    have hname := name?_append h (" = ".toList ++ (l.text.toList
      ++ ';' :: (remark.elim "" (" // " ++ ·)).toList)) (by simp; decide)
    have hl := literalAnd_append (hliteral l rfl) (remark.elim "" (" // " ++ ·)).toList
    have hcs : name.toList ++ ((some l).elim "" fun l => " = " ++ l.text).toList
        ++ ';' :: (remark.elim "" (" // " ++ ·)).toList =
          name.toList ++ (" = ".toList ++ (l.text.toList
            ++ ';' :: (remark.elim "" (" // " ++ ·)).toList)) := by simp
    rw [hcs, word?, hname]
    simp only [Option.bind_eq_bind, Option.bind_some, behind?_append, hl, declared?_eq]

theorem parameter?_eq {p : String} (h : Name.IsName p) :
    parameter? ((wordType ++ " ").toList ++ p.toList) = some p := by
  rw [parameter?, behind?_append, Option.bind_eq_bind, Option.bind_some, nameBefore?_nil h]

theorem functionStart?_eq {name : String} {parameters : List String} (h : Name.IsName name)
    (hparameters : ∀ p ∈ parameters, Name.IsName p) :
    functionStart? (name.toList ++ '(' :: ((String.intercalate ", "
      (parameters.map (wordType ++ " " ++ ·))).toList ++ ") \x7b".toList)) =
        some (.functionStart name parameters) := by
  have hname := name?_append h ('(' :: ((String.intercalate ", "
    (parameters.map (wordType ++ " " ++ ·))).toList ++ ") \x7b".toList)) (by simp; decide)
  have hitems : (String.intercalate ", " (parameters.map (wordType ++ " " ++ ·))).toList =
      [',', ' '].intercalate (parameters.map fun p => (wordType ++ " ").toList ++ p.toList) := by
    rw [String.toList_intercalate, List.map_map]
    simp [Function.comp_def]
  have hlist : commaList ([',', ' '].intercalate
      (parameters.map fun p => (wordType ++ " ").toList ++ p.toList)) =
        parameters.map fun p => (wordType ++ " ").toList ++ p.toList := by
    refine commaList_intercalate ?_ ?_ ?_ <;> rw [List.forall_mem_map]
    · intro p _
      simp [wordType]
    · intro p hp
      have hcomma := Name.not_mem_of_isName (c := ',') (by decide) (hparameters p hp)
      simp [wordType, hcomma]
    · intro p _
      simp [wordType]
  have hmap : (parameters.map fun p => (wordType ++ " ").toList ++ p.toList).mapM parameter? =
      some parameters :=
    mapM_map_eq_some fun p hp => parameter?_eq (hparameters p hp)
  rw [functionStart?, hname]
  simp only [Option.bind_eq_bind, Option.bind_some, behind?, if_true, before?_append, hitems, hlist,
    hmap]
  rfl

theorem readOuter?_content {l : Line} (h : l.IsWellFormed) (hl : l.level = 0) :
    readOuter? l.content.toList = some l := by
  cases l with
  | blank => rfl
  | property key value =>
    have hkey := keyAndValue?_append h.1 value
    simp [content, readOuter?, behind?, hkey]
  | setting key value =>
    have hkey := keyAndValue?_append h.1 value
    simp [content, readOuter?, behind?, hkey]
  | comment text => simp [content, readOuter?, behind?]
  | constant name value =>
    simp [content, readOuter?, behind?, Numeral.toList_text, constant?_eq h]
  | word name literal remark =>
    have hword := word?_eq h.1 h.2.1 remark
    simp only [List.append_assoc] at hword
    simp [content, readOuter?, behind?, wordType, hword]
  | structStart tag =>
    have htag := nameBefore?_append h [' ', '\x7b'] (by simp; decide)
    simp [content, readOuter?, behind?, wordType, htag]
  | structEnd name =>
    have hname := nameBefore?_append h [';'] (by simp; decide)
    simp [content, readOuter?, behind?, wordType, hname]
  | functionStart name parameters =>
    have hstart := functionStart?_eq h.1 h.2
    have hcs : (functionStart name parameters).content.toList = "void ".toList ++ (name.toList
        ++ '(' :: ((String.intercalate ", " (parameters.map (wordType ++ " " ++ ·))).toList
          ++ ") \x7b".toList)) := by
      simp [content]
    rw [hcs, readOuter?, behind?_append]
    simpa [behind?, wordType] using hstart
  | close level =>
    obtain rfl : level = 0 := hl
    rfl
  | _ => cases hl

/-! ### Lines at inner levels -/

theorem field?_field {name : String} (h : Name.IsName name) :
    field? (name.toList ++ [';']) = some (.field name) := by
  rw [field?, name?_append h _ (by simp; decide)]
  simp

theorem field?_arrayField {name : String} (h : Name.IsName name) (size : Nat) :
    field? (name.toList ++ '[' :: (Nat.toDigits 10 size ++ "];".toList)) =
      some (.arrayField name size) := by
  rw [field?, name?_append h _ (by simp; decide)]
  simp only [Option.bind_eq_bind, Option.bind_some, behind?, if_true, before?_append,
    number?_toDigits]
  rfl

theorem readMember?_content {l : Line} (h : l.IsWellFormed) (hl : l.level = 1) :
    readMember? l.content.toList = some l := by
  cases l with
  | field name =>
    have hfield := field?_field h
    simp [content, readMember?, behind?, wordType, hfield]
  | arrayField name size =>
    have hfield := field?_arrayField h size
    simp at hfield
    simp [content, readMember?, behind?, wordType, Numeral.toList_text, hfield]
  | body method =>
    have hname := nameBefore?_append h " here".toList (by simp; decide)
    simp at hname
    simp [content, readMember?, behind?, hname]
  | loopStart => rfl
  | close level =>
    obtain rfl : level = 1 := hl
    rfl
  | _ => cases hl

theorem readStep?_content {l : Line} (hl : l.level = 2) : readStep? l.content.toList = some l := by
  cases l with
  | close level =>
    obtain rfl : level = 2 := hl
    rfl
  | lookUpSender => decide
  | readMessage => decide
  | choiceStart => decide
  | _ => cases hl

theorem readLabel?_content {l : Line} (h : l.IsWellFormed) (hl : l.level = 3) :
    readLabel? l.content.toList = some l := by
  cases l with
  | choiceCase name =>
    have hname := nameBefore?_append h [':'] (by simp; decide)
    simp [content, readLabel?, behind?, hname]
  | close level => exact absurd (hl ▸ h : 3 ≤ 2) (by decide)
  | _ => cases hl

theorem argument?_messageWord (i : Nat) : argument? (messageWord i).toList = some i := by
  have hcs : (messageWord i).toList = (Vocabulary.currentTransaction ++ ".message[").toList
      ++ (Nat.toDigits 10 i ++ [']']) := by
    simp [messageWord, Numeral.toList_text]
  rw [argument?, hcs, behind?_append]
  simp

theorem not_mem_toDigits {c : Char} (hc : c.isDigit = false) (n : Nat) :
    c ∉ Nat.toDigits 10 n := by
  intro hmem
  rw [Numeral.isDigit_of_mem_toDigits hmem] at hc
  cases hc

theorem commaList_messageWords (arguments : Nat) :
    commaList (String.intercalate ", "
      ((List.range arguments).map fun i => messageWord (i + 1))).toList =
        (List.range arguments).map fun i => (messageWord (i + 1)).toList := by
  have hitems : (String.intercalate ", "
      ((List.range arguments).map fun i => messageWord (i + 1))).toList =
        [',', ' '].intercalate
          ((List.range arguments).map fun i => (messageWord (i + 1)).toList) := by
    rw [String.toList_intercalate, List.map_map]
    rfl
  rw [hitems]
  refine commaList_intercalate ?_ ?_ ?_ <;> rw [List.forall_mem_map] <;> intro i _
  · simp [messageWord, Vocabulary.currentTransaction]
  · have hcomma := not_mem_toDigits (c := ',') (by decide) (i + 1)
    simp [messageWord, Vocabulary.currentTransaction, Numeral.toList_text, hcomma]
  · simp [messageWord, Vocabulary.currentTransaction]

theorem call?_eq {name : String} (h : Name.IsName name) (arguments : Nat) :
    call? (call name arguments).content.toList = some (.call name arguments) := by
  have hcs : (call name arguments).content.toList = name.toList ++ '(' :: ((String.intercalate ", "
      ((List.range arguments).map fun i => messageWord (i + 1))).toList ++ ");".toList) := by
    simp [content]
  have hindices : ((List.range arguments).map fun i => (messageWord (i + 1)).toList).mapM
      argument? = some ((List.range arguments).map (· + 1)) := by
    have hwords : ((List.range arguments).map fun i => (messageWord (i + 1)).toList) =
        ((List.range arguments).map (· + 1)).map fun i => (messageWord i).toList := by
      rw [List.map_map]
      rfl
    rw [hwords]
    exact mapM_map_eq_some fun i _ => argument?_messageWord i
  rw [call?, hcs, name?_append h _ (by simp; decide)]
  simp only [Option.bind_eq_bind, Option.bind_some, behind?, if_true, before?_append,
    commaList_messageWords, hindices, List.length_map, List.length_range]
  rfl

theorem readStatement?_content {l : Line} (h : l.IsWellFormed) (hl : l.level = 4) :
    readStatement? l.content.toList = some l := by
  cases l with
  | leave => rfl
  | call name arguments =>
    -- A function may be called `break` as far as the text goes, but a call has a bracket.
    have hne : (call name arguments).content.toList ≠ leave.content.toList := by
      intro heq
      have hmem : '(' ∈ (call name arguments).content.toList := by simp [content]
      rw [heq] at hmem
      exact absurd hmem (by decide)
    rw [readStatement?, if_neg hne]
    exact call?_eq h arguments
  | close level => exact absurd (hl ▸ h : 4 ≤ 2) (by decide)
  | _ => cases hl

/-! ### Lines and programs -/

theorem head_content_ne_space {l : Line} (h : l.IsWellFormed) :
    ∀ c ∈ l.content.toList.head?, c ≠ ' ' := by
  cases l with
  | call name arguments =>
    intro c hc
    have hname : ∀ d ∈ name.toList.head?, d ≠ ' ' := by
      rintro _ hd rfl
      exact Name.not_mem_of_isName (by decide) h (List.mem_of_mem_head? hd)
    cases hs : name.toList with
    | nil =>
      rw [IsWellFormed, Name.IsName, hs] at h
      exact h.elim
    | cons d rest =>
      rw [hs] at hname
      simp [content, hs] at hc
      exact hc ▸ hname d rfl
  | _ => simp [content, wordType, messageWord, Vocabulary.currentTransaction]

theorem level_le_four {l : Line} (h : l.IsWellFormed) : l.level ≤ 4 := by
  cases l with
  | close level => exact Nat.le_trans h (by decide)
  | _ => simp [level]

/-- The indentation of a line ends where it seems to end. -/
theorem indentation_chars {l : Line} (h : l.IsWellFormed) :
    l.chars.takeWhile (· = ' ') = List.replicate (4 * l.level) ' ' ∧
      l.chars.dropWhile (· = ' ') = l.content.toList := by
  have hspaces : ∀ c ∈ List.replicate (4 * l.level) ' ', decide (c = ' ') = true := fun c hc =>
    decide_eq_true (List.eq_of_mem_replicate hc)
  have hhead : ∀ c ∈ l.content.toList.head?, decide (c = ' ') = false := fun c hc =>
    decide_eq_false (head_content_ne_space h c hc)
  rw [chars, indentation, String.toList_ofList]
  exact ⟨takeWhile_append_of_all hspaces hhead, dropWhile_append_of_all hspaces hhead⟩

theorem read?_chars {l : Line} (h : l.IsWellFormed) : read? l.chars = some l := by
  rw [read?, (indentation_chars h).1, (indentation_chars h).2, List.length_replicate]
  have hlevel := level_le_four h
  match hl : l.level with
  | 0 => exact readOuter?_content h hl
  | 1 => exact readMember?_content h hl
  | 2 => exact readStep?_content hl
  | 3 => exact readLabel?_content h hl
  | 4 => exact readStatement?_content h hl
  | n + 5 => omega

/-! ### Characters of lines -/

/-- The texts on the line. -/
def texts : Line → List String
  | property key value | setting key value => [key, value]
  | comment text => [text]
  | word _ literal remark => (literal.map (·.text)).toList ++ remark.toList
  | _ => []

/-- Is the character no control? -/
def isShown (c : Char) : Bool := 32 ≤ c.toNat

theorem isShown_of_isPart {c : Char} (h : Name.isPart c = true) : isShown c = true :=
  Name.forall_isPart (p := fun c => Name.isPart c = true → isShown c = true) (by decide) h h

section Characters

variable {p : Char → Prop} (hp : ∀ c, isShown c = true → p c)

include hp

theorem forall_mem_intercalate {items : List String} (h : ∀ i ∈ items, ∀ c ∈ i.toList, p c) :
    ∀ c ∈ (String.intercalate ", " items).toList, p c := by
  have hseparator : ∀ c ∈ ", ".toList, p c := fun c hc =>
    hp c (List.all_eq_true.1 (by decide : ", ".toList.all isShown = true) c hc)
  induction items with
  | nil => exact fun c hc => absurd hc (by simp)
  | cons i items ih =>
    obtain ⟨hi, hitems⟩ := List.forall_mem_cons.1 h
    cases items with
    | nil => simpa using hi
    | cons j items =>
      rw [String.intercalate_cons_cons, String.toList_append, String.toList_append,
        List.forall_mem_append, List.forall_mem_append]
      exact ⟨⟨hi, hseparator⟩, ih hitems⟩

/-- What holds of all characters but controls holds of those of a line, if it holds of those of the
texts on it. -/
theorem forall_mem_content {l : Line} (h : l.IsWellFormed)
    (htexts : ∀ t ∈ l.texts, ∀ c ∈ t.toList, p c) : ∀ c ∈ l.content.toList, p c := by
  have hfixed (s : String) (hs : s.toList.all isShown = true) : ∀ c ∈ s.toList, p c :=
    fun c hc => hp c (List.all_eq_true.1 hs c hc)
  have hname {s : String} (hs : Name.IsName s) : ∀ c ∈ s.toList, p c := fun c hc =>
    hp c (isShown_of_isPart (Name.isPart_of_isName hs c hc))
  have hnumber (n : Nat) : ∀ c ∈ (Numeral.text n).toList, p c := by
    rw [Numeral.toList_text]
    exact fun c hc =>
      hp c (isShown_of_isPart (Name.isPart_of_isDigit (Numeral.isDigit_of_mem_toDigits hc)))
  have hword (i : Nat) : ∀ c ∈ (messageWord i).toList, p c := by
    rw [messageWord]
    simp only [String.toList_append, List.forall_mem_append]
    exact ⟨⟨⟨hfixed _ (by decide), hfixed _ (by decide)⟩, hnumber i⟩, hfixed _ (by decide)⟩
  cases l with
  | property key value | setting key value =>
    simp only [content, String.toList_append, List.forall_mem_append]
    exact ⟨⟨⟨hfixed _ (by decide), htexts _ (by simp [texts])⟩, hfixed _ (by decide)⟩,
      htexts _ (by simp [texts])⟩
  | comment text =>
    simp only [content, String.toList_append, List.forall_mem_append]
    exact ⟨hfixed _ (by decide), htexts _ (by simp [texts])⟩
  | constant name value =>
    simp only [content, String.toList_append, List.forall_mem_append]
    exact ⟨⟨⟨hfixed _ (by decide), hname h⟩, hfixed _ (by decide)⟩, hnumber value⟩
  | word name literal remark =>
    have hliteral : ∀ c ∈ (literal.elim "" fun l => " = " ++ l.text).toList, p c := by
      cases literal with
      | none => exact hfixed _ (by decide)
      | some l =>
        rw [Option.elim_some, String.toList_append, List.forall_mem_append]
        exact ⟨hfixed _ (by decide), htexts _ (by simp [texts])⟩
    have hremark : ∀ c ∈ (remark.elim "" (" // " ++ ·)).toList, p c := by
      cases remark with
      | none => exact hfixed _ (by decide)
      | some r =>
        rw [Option.elim_some, String.toList_append, List.forall_mem_append]
        exact ⟨hfixed _ (by decide), htexts _ (by simp [texts])⟩
    simp only [content, String.toList_append, List.forall_mem_append]
    exact ⟨⟨⟨⟨⟨hfixed _ (by decide), hfixed _ (by decide)⟩, hname h.1⟩, hliteral⟩,
      hfixed _ (by decide)⟩, hremark⟩
  | structStart name | structEnd name | choiceCase name | body name =>
    simp only [content, String.toList_append, List.forall_mem_append]
    exact ⟨⟨hfixed _ (by decide), hname h⟩, hfixed _ (by decide)⟩
  | field name =>
    simp only [content, String.toList_append, List.forall_mem_append]
    exact ⟨⟨⟨hfixed _ (by decide), hfixed _ (by decide)⟩, hname h⟩, hfixed _ (by decide)⟩
  | arrayField name size =>
    simp only [content, String.toList_append, List.forall_mem_append]
    exact ⟨⟨⟨⟨⟨hfixed _ (by decide), hfixed _ (by decide)⟩, hname h⟩, hfixed _ (by decide)⟩,
      hnumber size⟩, hfixed _ (by decide)⟩
  | functionStart name parameters =>
    have hparameters : ∀ i ∈ parameters.map (wordType ++ " " ++ ·), ∀ c ∈ i.toList, p c := by
      rw [List.forall_mem_map]
      intro parameter hparameter
      simp only [String.toList_append, List.forall_mem_append]
      exact ⟨⟨hfixed _ (by decide), hfixed _ (by decide)⟩, hname (h.2 parameter hparameter)⟩
    simp only [content, String.toList_append, List.forall_mem_append]
    exact ⟨⟨⟨⟨hfixed _ (by decide), hname h.1⟩, hfixed _ (by decide)⟩,
      forall_mem_intercalate hp hparameters⟩, hfixed _ (by decide)⟩
  | call name arguments =>
    have hwords := forall_mem_intercalate hp
      (List.forall_mem_map.2 fun i (_ : i ∈ List.range arguments) => hword (i + 1))
    simp only [content, String.toList_append, List.forall_mem_append]
    exact ⟨⟨⟨hname h, hfixed _ (by decide)⟩, hwords⟩, hfixed _ (by decide)⟩
  | close level => exact hfixed "\x7d" (by decide)
  | blank | loopStart | lookUpSender | readMessage | choiceStart | leave =>
    exact hfixed _ (by decide)

theorem forall_mem_chars {l : Line} (h : l.IsWellFormed)
    (htexts : ∀ t ∈ l.texts, ∀ c ∈ t.toList, p c) : ∀ c ∈ l.chars, p c := by
  rw [chars, indentation, String.toList_ofList, List.forall_mem_append]
  refine ⟨fun c hc => ?_, forall_mem_content hp h htexts⟩
  rw [List.eq_of_mem_replicate hc]
  exact hp ' ' (by decide)

end Characters

theorem lineFeed_not_mem_of_isName (h : Name.IsName s) : '\n' ∉ s.toList :=
  Name.not_mem_of_isName (by decide) h

theorem lineFeed_not_mem_texts {l : Line} (h : l.IsWellFormed) : ∀ t ∈ l.texts, '\n' ∉ t.toList := by
  cases l with
  | property key value | setting key value =>
    simpa [texts] using h.2
  | comment text => exact List.forall_mem_singleton.2 h
  | word name literal remark =>
    simp only [texts, List.forall_mem_append, Option.mem_toList]
    refine ⟨fun t ht => ?_, h.2.2⟩
    obtain ⟨l, hl, rfl⟩ := Option.map_eq_some_iff.1 ht
    have hliteral := h.2.1 l hl
    cases l with
    | plain s => exact fun hmem => (hliteral _ hmem).2.2 rfl
    | quoted s =>
      have hs : '\n' ∉ s.toList := fun hmem => (hliteral _ hmem).2 rfl
      simp [Literal.text, hs]
  | _ => exact List.forall_mem_nil _

theorem lineFeed_not_mem_chars {l : Line} (h : l.IsWellFormed) : '\n' ∉ l.chars := by
  intro hmem
  refine forall_mem_chars (p := (· ≠ '\n')) ?_ h (fun t ht c hc => ?_) '\n' hmem rfl
  · rintro c hc rfl
    exact absurd hc (by decide)
  · rintro rfl
    exact lineFeed_not_mem_texts h t ht hc

theorem lineFeed_not_mem_content {l : Line} (h : l.IsWellFormed) : '\n' ∉ l.content.toList := by
  intro hmem
  apply lineFeed_not_mem_chars h
  rw [chars]
  exact List.mem_append_right _ hmem

end Line

/-- Behind the last line feed there is one more piece, which is empty. -/
theorem Text.pieces_join {ls : List Line} (h : ∀ l ∈ ls, l.IsWellFormed) :
    pieces (· == '\n') (String.join (ls.map Line.text)).toList = ls.map Line.chars ++ [[]] := by
  induction ls with
  | nil => rfl
  | cons l ls ih =>
    obtain ⟨hl, hls⟩ := List.forall_mem_cons.1 h
    have htext : (String.join ((l :: ls).map Line.text)).toList =
        l.chars ++ '\n' :: (String.join (ls.map Line.text)).toList := by
      simp [Line.text, Line.chars]
    have hbreak : ∀ c ∈ l.chars, (c == '\n') = false := by
      intro c hc
      rw [beq_eq_false_iff_ne]
      rintro rfl
      exact Line.lineFeed_not_mem_chars hl hc
    rw [htext, pieces_append_cons hbreak rfl, ih hls, List.map_cons, List.cons_append]

theorem Text.lines_join {ls : List Line} (h : ∀ l ∈ ls, l.IsWellFormed) :
    Text.lines (String.join (ls.map Line.text)) = ls.map Line.chars := by
  rw [lines, pieces_join h, List.dropLast_concat]

/-- A program of lines that are well-formed is read from its text. -/
theorem readProgram?_join {ls : List Line} (h : ∀ l ∈ ls, l.IsWellFormed) :
    readProgram? (String.join (ls.map Line.text)) = some ls := by
  rw [readProgram?, Text.lines_join h]
  exact mapM_map_eq_some fun l hl => Line.read?_chars (h l hl)

end SmartContract
