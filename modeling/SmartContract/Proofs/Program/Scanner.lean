import SmartContract.Proofs.Program.Reading

/-!
Constants in the text of a program. The text is cut into its identifiers and what stands between
them; there are no identifiers in comments, in literals and on the lines that start with a hash. A
constant is an identifier that such a line defines, and its value is put wherever it stands.
-/

namespace SmartContract

/-- A piece of a text: an identifier, or a character that belongs to none. -/
inductive Token where
  | identifier (name : String)
  | other (c : Char)
deriving DecidableEq, Repr

namespace Token

def identifier? : Token → Option String
  | identifier name => some name
  | other _ => none

/-- The characters of the text that is put in place of the token. -/
def expanded (value? : String → Option String) : Token → List Char
  | identifier name => ((value? name).getD name).toList
  | other c => [c]

end Token

/-- What a character of a text is behind. -/
inductive Scanner where
  /-- The start of a line, and blanks. -/
  | lineStart
  | code
  /-- The part of an identifier that has been read. -/
  | name (read : List Char)
  | number
  /-- A slash, with which a comment may start. -/
  | slash
  /-- The start of a comment or of a definition, which goes on to the end of the line. -/
  | restOfLine
  /-- The start of a comment that goes on over the end of the line. -/
  | block
  /-- A star in such a comment. -/
  | blockStar
  | literal
  /-- A backslash in a literal. -/
  | escape
deriving DecidableEq, Repr

namespace Scanner

def afterCode (c : Char) : Scanner :=
  if c = '\n' then lineStart
  else if c = '/' then slash
  else if c = '"' then literal
  else if Name.isStart c then name [c]
  else if c.isDigit then number
  else code

/-- What the character behind the given one is behind. -/
def next : Scanner → Char → Scanner
  | lineStart, c =>
    if c = ' ' ∨ c = '\t' then lineStart else if c = '#' then restOfLine else afterCode c
  | code, c => afterCode c
  | name read, c => if Name.isPart c then name (read ++ [c]) else afterCode c
  | number, c => if Name.isPart c then number else afterCode c
  | slash, c => if c = '/' then restOfLine else if c = '*' then block else afterCode c
  | restOfLine, c => if c = '\n' then lineStart else restOfLine
  | block, c => if c = '*' then blockStar else block
  | blockStar, c => if c = '/' then code else if c = '*' then blockStar else block
  | literal, c =>
    if c = '"' then code
    else if c = '\\' then escape
    else if c = '\n' then lineStart else literal
  | escape, _ => literal

/-- The characters of the identifier that has not ended. -/
def pending : Scanner → List Char
  | name read => read
  | _ => []

def isInName : Scanner → Bool
  | name _ => true
  | _ => false

/-- The tokens that end where the scanner is. -/
def finish : Scanner → List Token
  | name read => [.identifier (String.ofList read)]
  | _ => []

/-- The tokens that end before the character or with it. -/
def emit (s : Scanner) (c : Char) : List Token :=
  if (s.next c).isInName then [] else s.finish ++ [.other c]

/-- What the characters leave the scanner behind. -/
def after (s : Scanner) (cs : List Char) : Scanner := cs.foldl next s

/-- The tokens that end within the characters. -/
def tokens : Scanner → List Char → List Token
  | _, [] => []
  | s, c :: cs => s.emit c ++ (s.next c).tokens cs

end Scanner

/-- The tokens of a text. -/
def Text.tokens (s : String) : List Token :=
  Scanner.lineStart.tokens s.toList ++ (Scanner.lineStart.after s.toList).finish

/-- The text with the values of constants in their places. -/
def Text.expand (value? : String → Option String) (s : String) : String :=
  String.ofList ((Text.tokens s).flatMap (Token.expanded value?))

/-- The constant that a line defines, and the text that is its value. -/
def Text.definition? (line : List Char) : Option (String × String) :=
  Line.behind? "#define ".toList (line.dropWhile (· = ' ')) >>= Line.keyAndValue?

/-- The constants that a text defines, with their values. -/
def Text.definitions (s : String) : List (String × String) :=
  (Text.lines s).filterMap Text.definition?

/-- The value that the text defines the constant with. -/
def Text.constant? (s name : String) : Option String := (Text.definitions s).lookup name

namespace Scanner

variable {s t u : Scanner} {c : Char} {cs ds rest : List Char} {words more : List String}

/-! ### Runs of the scanner -/

theorem after_append (s : Scanner) (cs ds : List Char) :
    s.after (cs ++ ds) = (s.after cs).after ds := List.foldl_append

theorem tokens_append (s : Scanner) (cs ds : List Char) :
    s.tokens (cs ++ ds) = s.tokens cs ++ (s.after cs).tokens ds := by
  induction cs generalizing s with
  | nil => rfl
  | cons c cs ih =>
    rw [List.cons_append, tokens, tokens, ih, List.append_assoc]
    rfl

theorem afterCode_of_isStart (h : Name.isStart c = true) : afterCode c = name [c] := by
  have hne : c ≠ '\n' ∧ c ≠ '/' ∧ c ≠ '"' := by
    refine ⟨?_, ?_, ?_⟩ <;> rintro rfl <;> exact absurd h (by decide)
  rw [afterCode, if_neg hne.1, if_neg hne.2.1, if_neg hne.2.2, if_pos h]

theorem isInName_afterCode (c : Char) : (afterCode c).isInName = Name.isStart c := by
  cases h : Name.isStart c with
  | true => rw [afterCode_of_isStart h, isInName]
  | false =>
    rw [afterCode, h, if_neg Bool.false_ne_true]
    split_ifs <;> rfl

/-- An identifier goes on with the character or starts with it, or there is none. -/
theorem next_eq_name (h : (s.next c).isInName = true) : s.next c = name (s.pending ++ [c]) := by
  have hcode : (afterCode c).isInName = true → afterCode c = name [c] := fun hname =>
    afterCode_of_isStart (isInName_afterCode c ▸ hname)
  cases s with
  | name read =>
    rw [next] at h ⊢
    split at h
    · rename_i hpart
      rw [if_pos hpart, pending]
    · rename_i hpart
      rw [isInName_afterCode] at h
      exact absurd (Name.isPart_of_isStart h) hpart
  | code => exact hcode h
  | escape => cases h
  | _ =>
    rw [next] at h ⊢
    split_ifs at h ⊢ <;> first | exact hcode h | cases h

theorem pending_of_not_isInName (h : s.isInName = false) : s.pending = [] := by
  cases s <;> first | rfl | cases h

theorem flatMap_finish (s : Scanner) :
    s.finish.flatMap (Token.expanded fun _ => none) = s.pending := by
  cases s <;> simp [finish, pending, Token.expanded]

/-- No character is lost: what was pending and the character are in the tokens or pending. -/
theorem flatMap_emit (s : Scanner) (c : Char) :
    (s.emit c).flatMap (Token.expanded fun _ => none) ++ (s.next c).pending = s.pending ++ [c] := by
  rw [emit]
  split
  · rename_i h
    rw [next_eq_name h]
    rfl
  · rename_i h
    rw [pending_of_not_isInName (Bool.eq_false_iff.2 h), List.append_nil, List.flatMap_append,
      flatMap_finish]
    rfl

theorem flatMap_tokens (s : Scanner) (cs : List Char) :
    (s.tokens cs).flatMap (Token.expanded fun _ => none) ++ (s.after cs).pending =
      s.pending ++ cs := by
  induction cs generalizing s with
  | nil => simp [tokens, after]
  | cons c cs ih =>
    have hrest := ih (s.next c)
    rw [tokens, List.flatMap_append, List.append_assoc]
    change _ ++ (_ ++ ((s.next c).after cs).pending) = _
    rw [hrest, ← List.append_assoc, flatMap_emit, List.append_assoc, List.singleton_append]

theorem tokens_eq_of_not_isInName (hs : s.isInName = false) (ht : (s.after cs).isInName = false) :
    (s.tokens cs).flatMap (Token.expanded fun _ => none) = cs := by
  have hall := flatMap_tokens s cs
  rwa [pending_of_not_isInName hs, pending_of_not_isInName ht, List.append_nil,
    List.nil_append] at hall

/-! ### Identifiers -/

theorem next_name_of_isPart (hc : Name.isPart c = true) (read : List Char) :
    (name read).next c = name (read ++ [c]) := if_pos hc

theorem next_name_of_not_isPart (hc : Name.isPart c = false) (read : List Char) :
    (name read).next c = code.next c := if_neg (Bool.eq_false_iff.1 hc)

theorem isInName_next_code_of_not_isPart (hc : Name.isPart c = false) :
    (code.next c).isInName = false := by
  rw [next, isInName_afterCode, Bool.eq_false_iff]
  intro hstart
  rw [Name.isPart_of_isStart hstart] at hc
  cases hc

theorem after_name_of_isPart (read : List Char) (h : ∀ c ∈ cs, Name.isPart c = true) :
    (name read).after cs = name (read ++ cs) := by
  induction cs generalizing read with
  | nil => rw [List.append_nil]; rfl
  | cons c cs ih =>
    obtain ⟨hc, hcs⟩ := List.forall_mem_cons.1 h
    have hrest := ih (read ++ [c]) hcs
    rw [← next_name_of_isPart hc, List.append_assoc] at hrest
    exact hrest

theorem tokens_name_of_isPart (read : List Char) (h : ∀ c ∈ cs, Name.isPart c = true) :
    (name read).tokens cs = [] := by
  induction cs generalizing read with
  | nil => rfl
  | cons c cs ih =>
    obtain ⟨hc, hcs⟩ := List.forall_mem_cons.1 h
    rw [tokens, emit, next_name_of_isPart hc, ih _ hcs]
    rfl

/-- Where a name may start, a name with something else behind it is an identifier. -/
theorem tokens_of_isName {name : String} (hname : Name.IsName name)
    (hs : s = lineStart ∨ s = code) (hc : Name.isPart c = false) (rest : List Char) :
    s.tokens (name.toList ++ c :: rest) = .identifier name :: code.tokens (c :: rest) ∧
      s.after (name.toList ++ c :: rest) = code.after (c :: rest) := by
  obtain ⟨d, cs, hlist, hstart, hparts⟩ := Name.isName_iff.1 hname
  have hnext : s.next d = .name [d] := by
    rcases hs with rfl | rfl
    · have hne : ¬(d = ' ' ∨ d = '\t') ∧ d ≠ '#' := by
        refine ⟨?_, ?_⟩
        · rintro (rfl | rfl) <;> exact absurd hstart (by decide)
        · rintro rfl
          exact absurd hstart (by decide)
      rw [next, if_neg hne.1, if_neg hne.2, afterCode_of_isStart hstart]
    · exact afterCode_of_isStart hstart
  have hfirst : s.tokens name.toList = [] ∧ s.after name.toList = .name name.toList := by
    rw [hlist]
    constructor
    · rw [tokens, emit, hnext, tokens_name_of_isPart _ hparts]
      rfl
    · change (s.next d).after cs = _
      rw [hnext, after_name_of_isPart _ hparts, List.singleton_append]
  constructor
  · rw [tokens_append, hfirst.1, hfirst.2, tokens, tokens, emit, emit, next_name_of_not_isPart hc,
      isInName_next_code_of_not_isPart hc]
    simp [finish]
  · rw [after_append, hfirst.2]
    change ((Scanner.name name.toList).next c).after rest = _
    rw [next_name_of_not_isPart hc]
    rfl

/-! ### Words -/

/-- From the first scanner the characters lead to the second one, and the identifiers that end within
them are the words. -/
def Scans (s : Scanner) (cs : List Char) (t : Scanner) (words : List String) : Prop :=
  s.after cs = t ∧ (s.tokens cs).filterMap Token.identifier? = words

instance : Decidable (Scans s cs t words) := inferInstanceAs (Decidable (_ ∧ _))

theorem Scans.append (h : Scans s cs t words) (h' : Scans t ds u more) :
    Scans s (cs ++ ds) u (words ++ more) := by
  obtain ⟨rfl, rfl⟩ := h
  obtain ⟨rfl, rfl⟩ := h'
  exact ⟨after_append .., by rw [tokens_append, List.filterMap_append]⟩

theorem scans_cons (hs : s.isInName = false) :
    Scans s (c :: cs) t words ↔ Scans (s.next c) cs t words := by
  have hemit : (s.emit c).filterMap Token.identifier? = [] := by
    rw [emit]
    split
    · rfl
    · cases s <;> first | rfl | cases hs
  rw [Scans, Scans, tokens, List.filterMap_append, hemit, List.nil_append]
  rfl

theorem scans_spaces (n : Nat) : Scans lineStart (List.replicate n ' ') lineStart [] := by
  induction n with
  | zero => exact ⟨rfl, rfl⟩
  | succ n ih => exact (scans_cons rfl).2 ih

theorem scans_restOfLine (h : '\n' ∉ cs) : Scans restOfLine (cs ++ ['\n']) lineStart [] := by
  induction cs with
  | nil => decide
  | cons c cs ih =>
    rw [List.mem_cons, not_or] at h
    rw [List.cons_append, scans_cons rfl, next, if_neg (Ne.symm h.1)]
    exact ih h.2

theorem scans_name {name : String} (hname : Name.IsName name) (hs : s = lineStart ∨ s = code)
    (hc : Name.isPart c = false) (h : Scans code (c :: cs) t words) :
    Scans s (name.toList ++ c :: cs) t (name :: words) := by
  obtain ⟨htokens, hafter⟩ := tokens_of_isName hname hs hc cs
  refine ⟨hafter.trans h.1, ?_⟩
  rw [htokens, ← h.2]
  rfl

theorem next_code_of_isDigit (h : c.isDigit = true) : code.next c = number := by
  have hne : c ≠ '\n' ∧ c ≠ '/' ∧ c ≠ '"' := by
    refine ⟨?_, ?_, ?_⟩ <;> rintro rfl <;> exact absurd h (by decide)
  rw [next, afterCode, if_neg hne.1, if_neg hne.2.1, if_neg hne.2.2, Name.isStart_of_isDigit h,
    if_neg Bool.false_ne_true, if_pos h]

theorem scans_digits {digits : List Char} (hdigits : ∀ d ∈ digits, d.isDigit = true)
    (hc : Name.isPart c = false) (h : Scans code (c :: cs) t words) :
    Scans code (digits ++ c :: cs) t words := by
  cases digits with
  | nil => exact h
  | cons d digits =>
    rw [List.forall_mem_cons] at hdigits
    obtain ⟨hd, hdigits⟩ := hdigits
    rw [List.cons_append, scans_cons rfl, next_code_of_isDigit hd]
    -- From here on there are digits until the number ends.
    induction digits with
    | nil =>
      rw [scans_cons rfl] at h
      rw [List.nil_append, scans_cons rfl, next, if_neg (Bool.eq_false_iff.1 hc)]
      exact h
    | cons e digits ih =>
      obtain ⟨he, hdigits⟩ := List.forall_mem_cons.1 hdigits
      rw [List.cons_append, scans_cons rfl, next, if_pos (Name.isPart_of_isDigit he)]
      exact ih hdigits

theorem scans_literal (hs : ∀ c ∈ cs, c ≠ '"' ∧ c ≠ '\\' ∧ c ≠ '\n')
    (h : Scans code rest t words) : Scans literal (cs ++ '"' :: rest) t words := by
  induction cs with
  | nil =>
    rw [List.nil_append, scans_cons rfl]
    exact h
  | cons c cs ih =>
    obtain ⟨⟨hquote, hbackslash, hline⟩, hcs⟩ := List.forall_mem_cons.1 hs
    rw [List.cons_append, scans_cons rfl, next, if_neg hquote, if_neg hbackslash, if_neg hline]
    exact ih hcs

end Scanner

theorem Text.expand_none (s : String) : Text.expand (fun _ => none) s = s := by
  have hall := Scanner.flatMap_tokens .lineStart s.toList
  rw [expand, tokens, List.flatMap_append, Scanner.flatMap_finish, hall]
  exact String.ofList_toList

example : Text.expand (Text.constant? "#define A 1\n") "A = \"A\"; // A\nAB = 0xA;\n" =
    "1 = \"A\"; // A\nAB = 0xA;\n" := by decide

end SmartContract
