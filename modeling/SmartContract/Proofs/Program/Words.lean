import SmartContract.Proofs.Program.Scanner
import SmartContract.Proofs.Program.WellFormed

/-!
The identifiers of each sort of line. A line starts and ends where a line can start, so that the
identifiers of a program are those of its lines.
-/

namespace SmartContract

/-- The identifiers of a literal: of a truth value, the value itself, and of others none. -/
def Literal.words : Literal → List String
  | .plain s => if Name.IsName s then [s] else []
  | .quoted _ => []

namespace Line

/-- The identifiers of a line. -/
def words : Line → List String
  | word name literal _ => wordType :: name :: literal.elim [] Literal.words
  | structStart tag => ["struct", tag]
  | field name | arrayField name _ => [wordType, name]
  | structEnd name => [name]
  | functionStart name parameters => "void" :: name :: parameters.flatMap ([wordType, ·])
  | loopStart => ["while", "currentTx", "txId", "getNextTx"]
  | lookUpSender => ["currentTx", "sender", "getSender", "currentTx", "txId"]
  | readMessage => ["readMessage", "currentTx", "txId", "currentTx", "message"]
  | choiceStart => ["switch", "currentTx", "message"]
  | choiceCase name => ["case", name]
  | call function arguments =>
    function :: (List.range arguments).flatMap fun _ => ["currentTx", "message"]
  | leave => ["break"]
  | blank | property .. | setting .. | comment _ | constant .. | body _ | close _ => []

/-- If the line declares a variable with a literal, then the literal is one that a type takes. -/
def HasAdmittedLiteral : Line → Prop
  | word _ literal _ => ∀ l ∈ literal, l.IsAdmitted
  | _ => True

end Line

namespace Scanner

variable {s t : Scanner} {c : Char} {cs rest : List Char} {name : String} {words : List String}

/-! ### Parts of lines -/

theorem scans_directive (h : '\n' ∉ cs) (hcs : cs = '#' :: rest) :
    Scans lineStart (cs ++ ['\n']) lineStart [] := by
  subst hcs
  rw [List.mem_cons, not_or] at h
  exact (scans_cons rfl).2 (scans_restOfLine h.2)

theorem scans_comment (hs : s = lineStart ∨ s = code) (h : '\n' ∉ cs)
    (hcs : cs = '/' :: '/' :: rest) :
    Scans s (cs ++ ['\n']) lineStart [] := by
  subst hcs
  rw [List.mem_cons, List.mem_cons, not_or, not_or] at h
  rcases hs with rfl | rfl <;>
    exact (scans_cons rfl).2 ((scans_cons rfl).2 (scans_restOfLine h.2.2))

/-- A declaration up to its name, with something else behind the name. -/
theorem scans_long (hname : Name.IsName name) (hs : s = lineStart ∨ s = code)
    (hc : Name.isPart c = false) (h : Scans code (c :: cs) t words) :
    Scans s ((Line.wordType ++ " ").toList ++ (name.toList ++ c :: cs)) t
      (Line.wordType :: name :: words) := by
  have htype : Scans s (Line.wordType ++ " ").toList code [Line.wordType] := by
    rcases hs with rfl | rfl <;> decide
  exact htype.append (scans_name hname (.inr rfl) hc h)

/-- A list of items with commas between them is scanned item by item. -/
theorem scans_intercalate {α : Type} {item : α → String} {wordsOf : α → List String} {xs : List α}
    (hitem : ∀ x ∈ xs, ∀ (c : Char) (cs : List Char) (words : List String),
      Name.isPart c = false → Scans code (c :: cs) t words →
        Scans code ((item x).toList ++ c :: cs) t (wordsOf x ++ words))
    (hc : Name.isPart c = false) (h : Scans code (c :: cs) t words) :
    Scans code ((String.intercalate ", " (xs.map item)).toList ++ c :: cs) t
      (xs.flatMap wordsOf ++ words) := by
  induction xs with
  | nil => exact h
  | cons x xs ih =>
    obtain ⟨hx, hxs⟩ := List.forall_mem_cons.1 hitem
    cases xs with
    | nil => simpa using hx c cs words hc h
    | cons y xs =>
      have hcomma : Scans code [',', ' '] code [] := by decide
      have hall := hx ',' _ _ (by decide) (hcomma.append (ih hxs))
      simpa using hall

end Scanner

namespace Literal

open Scanner

variable {t : Scanner} {cs : List Char} {words : List String} {l : Literal}

/-- A number has no identifiers, for a name does not start like one. -/
theorem words_of_digits {s : String} {digits : List Char}
    (hs : s.toList = digits ∨ s.toList = '+' :: digits)
    (hdigits : Numeral.isDigits digits = true) : (plain s).words = [] := by
  rw [Numeral.isDigits, Bool.and_eq_true, List.all_eq_true] at hdigits
  refine if_neg fun hname => ?_
  obtain ⟨c, rest, hlist, hc, -⟩ := Name.isName_iff.1 hname
  rcases hs with hs | hs
  · have hmem : c ∈ digits := by
      rw [← hs, hlist]
      exact List.mem_cons_self
    rw [Name.isStart_of_isDigit (hdigits.2 c hmem)] at hc
    cases hc
  · obtain ⟨rfl, -⟩ := List.cons_eq_cons.1 (hlist.symm.trans hs)
    exact absurd hc (by decide)

theorem any_isLower_of_mem_words (hl : l.IsAdmitted) :
    ∀ w ∈ l.words, w.toList.any Char.isLower = true := by
  cases l with
  | plain s =>
    obtain ⟨type, hne, hadmits⟩ := hl
    cases type with
    | boolean => rcases hadmits with rfl | rfl <;> decide
    | string => exact absurd rfl hne
    | address | long | amount | transactionId =>
      obtain ⟨digits, hs, hdigits, -⟩ := hadmits
      rw [words_of_digits hs hdigits]
      exact List.forall_mem_nil _
  | quoted s => exact List.forall_mem_nil _

theorem scans_text (hl : l.IsAdmitted) (h : Scans code (';' :: cs) t words) :
    Scans code (l.text.toList ++ ';' :: cs) t (l.words ++ words) := by
  cases l with
  | plain s =>
    obtain ⟨type, hne, hadmits⟩ := hl
    cases type with
    | boolean =>
      have hname : Name.IsName s := by
        rcases hadmits with rfl | rfl <;> decide
      rw [Literal.words, if_pos hname]
      exact scans_name hname (.inr rfl) (by decide) h
    | string => exact absurd rfl hne
    | address | long | amount | transactionId =>
      obtain ⟨digits, hs, hdigits, -⟩ := hadmits
      rw [words_of_digits hs hdigits]
      rw [Numeral.isDigits, Bool.and_eq_true, List.all_eq_true] at hdigits
      have hscans := scans_digits hdigits.2 (by decide) h
      rw [Literal.text, List.nil_append]
      rcases hs with hs | hs
      · exact hs ▸ hscans
      · exact hs ▸ (scans_cons rfl).2 hscans
  | quoted s =>
    have hcs : (quoted s).text.toList ++ ';' :: cs = '"' :: (s.toList ++ '"' :: ';' :: cs) := by
      simp [Literal.text]
    rw [hcs, scans_cons rfl]
    exact scans_literal (fun _ hc => ne_of_mem_of_admits_string hl hc) h

end Literal

namespace Line

open Scanner

variable {l : Line}

/-! ### Lines -/

theorem scans_remark {r : Option String} (h : ∀ s ∈ r, '\n' ∉ s.toList) :
    Scans code (';' :: ((r.elim "" (" // " ++ ·)).toList ++ ['\n'])) lineStart [] := by
  cases r with
  | none => decide
  | some r =>
    have hr : '\n' ∉ '/' :: '/' :: ' ' :: r.toList := by simpa using h r rfl
    have hcs : (Option.elim (some r) "" (" // " ++ ·)).toList ++ ['\n'] =
        ' ' :: (('/' :: '/' :: ' ' :: r.toList) ++ ['\n']) := by simp
    rw [hcs, scans_cons rfl, scans_cons rfl]
    exact scans_comment (.inr rfl) hr rfl

theorem scans_word {name : String} {literal : Option Literal} {remark : Option String}
    (h : (word name literal remark).IsWellFormed)
    (hl : (word name literal remark).HasAdmittedLiteral) :
    Scans lineStart ((word name literal remark).content.toList ++ ['\n']) lineStart
      (word name literal remark).words := by
  have hremark := scans_remark h.2.2
  cases literal with
  | none =>
    have hcs : (word name none remark).content.toList ++ ['\n'] =
        (wordType ++ " ").toList ++ (name.toList
          ++ ';' :: ((remark.elim "" (" // " ++ ·)).toList ++ ['\n'])) := by
      simp [content]
    rw [hcs]
    exact scans_long h.1 (.inl rfl) (by decide) hremark
  | some literal =>
    have hcs : (word name (some literal) remark).content.toList ++ ['\n'] =
        (wordType ++ " ").toList ++ (name.toList ++ ' ' :: '=' :: ' ' :: (literal.text.toList
          ++ ';' :: ((remark.elim "" (" // " ++ ·)).toList ++ ['\n']))) := by
      simp [content]
    have hequals : Scans code [' ', '=', ' '] code [] := by decide
    have htext := hequals.append (Literal.scans_text (hl literal rfl) hremark)
    rw [hcs]
    have hall := scans_long h.1 (.inl rfl) (by decide) htext
    rwa [List.nil_append, List.append_nil] at hall

theorem scans_functionStart {name : String} {parameters : List String}
    (h : (functionStart name parameters).IsWellFormed) :
    Scans lineStart ((functionStart name parameters).content.toList ++ ['\n']) lineStart
      (functionStart name parameters).words := by
  have hend : Scans code ") \x7b\n".toList lineStart [] := by decide
  have hparameters : Scans code ((String.intercalate ", "
      (parameters.map (wordType ++ " " ++ ·))).toList ++ ") \x7b\n".toList) lineStart
        (parameters.flatMap ([wordType, ·]) ++ []) := by
    refine scans_intercalate (fun p hp c cs words hc hrest => ?_) (by decide) hend
    rw [String.toList_append, List.append_assoc]
    exact scans_long (h.2 p hp) (.inr rfl) hc hrest
  have hvoid : Scans lineStart "void ".toList code ["void"] := by decide
  have hcs : (functionStart name parameters).content.toList ++ ['\n'] =
      "void ".toList ++ (name.toList ++ '(' :: ((String.intercalate ", "
        (parameters.map (wordType ++ " " ++ ·))).toList ++ ") \x7b\n".toList)) := by
    simp [content]
  rw [hcs, words, ← List.append_nil (parameters.flatMap _)]
  exact hvoid.append (scans_name h.1 (.inr rfl) (by decide) ((scans_cons rfl).2 hparameters))

theorem scans_call {name : String} {arguments : Nat} (h : (call name arguments).IsWellFormed) :
    Scans lineStart ((call name arguments).content.toList ++ ['\n']) lineStart
      (call name arguments).words := by
  have hend : Scans code ");\n".toList lineStart [] := by decide
  have hwords : Scans code ((String.intercalate ", "
      ((List.range arguments).map fun i => messageWord (i + 1))).toList ++ ");\n".toList) lineStart
        (((List.range arguments).flatMap fun _ => ["currentTx", "message"]) ++ []) := by
    refine scans_intercalate (fun i _ c cs words hc hrest => ?_) (by decide) hend
    have hmessage : Scans code "currentTx.message[".toList code ["currentTx", "message"] := by
      decide
    have hcs : (messageWord (i + 1)).toList ++ c :: cs = "currentTx.message[".toList
        ++ (Nat.toDigits 10 (i + 1) ++ ']' :: c :: cs) := by
      simp [messageWord, Vocabulary.currentTransaction, Numeral.toList_text]
    rw [hcs]
    exact hmessage.append (scans_digits (fun _ hd => Numeral.isDigit_of_mem_toDigits hd) (by decide)
      ((scans_cons rfl).2 hrest))
  have hcs : (call name arguments).content.toList ++ ['\n'] =
      name.toList ++ '(' :: ((String.intercalate ", "
        ((List.range arguments).map fun i => messageWord (i + 1))).toList ++ ");\n".toList) := by
    simp [content]
  rw [hcs, words, ← List.append_nil (List.flatMap _ _)]
  exact scans_name h (.inl rfl) (by decide) ((scans_cons rfl).2 hwords)

theorem scans_content (h : l.IsWellFormed) (hl : l.HasAdmittedLiteral) :
    Scans lineStart (l.content.toList ++ ['\n']) lineStart l.words := by
  have hline := lineFeed_not_mem_content h
  cases l with
  | property key value | setting key value | constant name value =>
    exact scans_directive hline (by simp only [content, String.toList_append]; rfl)
  | comment text | body text =>
    exact scans_comment (.inl rfl) hline (by simp only [content, String.toList_append]; rfl)
  | word name literal remark => exact scans_word h hl
  | structStart tag =>
    have hstruct : Scans lineStart "struct ".toList code ["struct"] := by decide
    have hend : Scans code " \x7b\n".toList lineStart [] := by decide
    have hcs : (structStart tag).content.toList ++ ['\n'] =
        "struct ".toList ++ (tag.toList ++ " \x7b\n".toList) := by simp [content]
    rw [hcs]
    exact hstruct.append (scans_name h (.inr rfl) (by decide) hend)
  | field name =>
    have hend : Scans code ";\n".toList lineStart [] := by decide
    have hcs : (field name).content.toList ++ ['\n'] =
        (wordType ++ " ").toList ++ (name.toList ++ ";\n".toList) := by simp [content]
    rw [hcs]
    exact scans_long h (.inl rfl) (by decide) hend
  | arrayField name size =>
    have hend : Scans code "];\n".toList lineStart [] := by decide
    have hsize := scans_digits (fun _ hd => Numeral.isDigit_of_mem_toDigits (n := size) hd)
      (by decide) hend
    have hcs : (arrayField name size).content.toList ++ ['\n'] =
        (wordType ++ " ").toList ++ (name.toList
          ++ '[' :: (Nat.toDigits 10 size ++ "];\n".toList)) := by
      simp [content, Numeral.toList_text]
    rw [hcs]
    exact scans_long h (.inl rfl) (by decide) ((scans_cons rfl).2 hsize)
  | structEnd name =>
    have hstart : Scans lineStart "\x7d ".toList code [] := by decide
    have hend : Scans code ";\n".toList lineStart [] := by decide
    have hcs : (structEnd name).content.toList ++ ['\n'] =
        "\x7d ".toList ++ (name.toList ++ ";\n".toList) := by simp [content]
    rw [hcs]
    exact hstart.append (scans_name h (.inr rfl) (by decide) hend)
  | functionStart name parameters => exact scans_functionStart h
  | choiceCase name =>
    have hcase : Scans lineStart "case ".toList code ["case"] := by decide
    have hend : Scans code ":\n".toList lineStart [] := by decide
    have hcs : (choiceCase name).content.toList ++ ['\n'] =
        "case ".toList ++ (name.toList ++ ":\n".toList) := by simp [content]
    rw [hcs]
    exact hcase.append (scans_name h (.inr rfl) (by decide) hend)
  | call name arguments => exact scans_call h
  | close level =>
    have hclose : Scans lineStart ("\x7d".toList ++ ['\n']) lineStart [] := by decide
    exact hclose
  | blank | loopStart | lookUpSender | readMessage | choiceStart | leave => decide

/-- The identifiers of a line are its words, and behind the line another one can start. -/
theorem scans_text (h : l.IsWellFormed) (hl : l.HasAdmittedLiteral) :
    Scans lineStart l.text.toList lineStart l.words := by
  have hcs : l.text.toList =
      List.replicate (4 * l.level) ' ' ++ (l.content.toList ++ ['\n']) := by
    simp [text, indentation]
  rw [hcs]
  exact (scans_spaces _).append (scans_content h hl)

end Line

end SmartContract
