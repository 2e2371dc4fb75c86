import SmartContract.Name
import SmartContract.Program.Line
import SmartContract.Text.Blank

/-!
Reading a skeleton from its text. The text is cut into lines at its line feeds. The indentation of a
line says at which level it stands, and the text that it starts with, which sort of line it is. What
is no line of a skeleton is not read.
-/

namespace SmartContract

namespace Line

/-! ### Parts of lines -/

/-- What stands behind the given characters, if the text starts with them. -/
def behind? : List Char → List Char → Option (List Char)
  | [], cs => some cs
  | p :: ps, c :: cs => if p = c then behind? ps cs else none
  | _ :: _, [] => none

/-- What stands before the given characters, if the text ends with them. -/
def before? (ps cs : List Char) : Option (List Char) :=
  (behind? ps.reverse cs.reverse).map List.reverse

/-- The name that the text starts with, and what stands behind it. -/
def name? (cs : List Char) : Option (String × List Char) :=
  let name := String.ofList (cs.takeWhile Name.isPart)
  if Name.defect? name = none then some (name, cs.dropWhile Name.isPart) else none

/-- The name that the text is when the given characters stand behind it. -/
def nameBefore? (ps cs : List Char) : Option String :=
  match name? cs with
  | some (name, rest) => if rest = ps then some name else none
  | none => none

/-- The number that the text is. -/
def number? (cs : List Char) : Option Nat :=
  if Numeral.isDigits cs then some (Numeral.valueFrom 0 cs) else none

/-- The text up to the first space and the text behind it. -/
def keyAndValue? (cs : List Char) : Option (String × String) :=
  match cs.dropWhile (· ≠ ' ') with
  | _ :: value => some (String.ofList (cs.takeWhile (· ≠ ' ')), String.ofList value)
  | [] => none

/-- The items of a list with commas between them, each without the blanks before it. -/
def commaList (cs : List Char) : List (List Char) :=
  if cs.isEmpty then [] else (Text.pieces (· == ',') cs).map (·.dropWhile (· = ' '))

/-! ### Lines at the outermost level -/

/-- The definition of a constant, behind its first word. -/
def constant? (cs : List Char) : Option Line := do
  let (name, rest) ← name? cs
  let value ← behind? [' '] rest >>= number?
  return .constant name value

/-- A declaration from where its literal ends: it has a remark or none. -/
def declared? (name : String) (literal : Option Literal) (cs : List Char) : Option Line :=
  if cs = [';'] then some (.word name literal none)
  else (behind? "; // ".toList cs).map fun remark => .word name literal (String.ofList remark)

/-- The literal that the text starts with, and what stands behind it. -/
def literalAnd (cs : List Char) : Literal × List Char :=
  if cs.head? = some '"' then
    (.quoted (String.ofList (cs.tail.takeWhile (· ≠ '"'))), (cs.tail.dropWhile (· ≠ '"')).tail)
  else (.plain (String.ofList (cs.takeWhile (· ≠ ';'))), cs.dropWhile (· ≠ ';'))

/-- The declaration of a variable, behind the type. -/
def word? (cs : List Char) : Option Line := do
  let (name, rest) ← name? cs
  match behind? " = ".toList rest with
  | none => declared? name none rest
  | some rest => declared? name (some (literalAnd rest).1) (literalAnd rest).2

def parameter? (cs : List Char) : Option String :=
  behind? (wordType ++ " ").toList cs >>= nameBefore? []

/-- The start of a function, behind its first word. -/
def functionStart? (cs : List Char) : Option Line := do
  let (name, rest) ← name? cs
  let inner ← behind? ['('] rest >>= before? ") \x7b".toList
  let parameters ← (commaList inner).mapM parameter?
  return .functionStart name parameters

/-- A line without indentation. -/
def readOuter? (cs : List Char) : Option Line :=
  if cs = [] then some .blank
  else if cs = ['\x7d'] then some (.close 0)
  else if let some rest := behind? "// ".toList cs then some (.comment (String.ofList rest))
  else if let some rest := behind? "#program ".toList cs then
    (keyAndValue? rest).map fun (key, value) => .property key value
  else if let some rest := behind? "#pragma ".toList cs then
    (keyAndValue? rest).map fun (key, value) => .setting key value
  else if let some rest := behind? "#define ".toList cs then constant? rest
  else if let some rest := behind? (wordType ++ " ").toList cs then word? rest
  else if let some rest := behind? "struct ".toList cs then
    (nameBefore? " \x7b".toList rest).map .structStart
  else if let some rest := behind? "\x7d ".toList cs then (nameBefore? [';'] rest).map .structEnd
  else if let some rest := behind? "void ".toList cs then functionStart? rest
  else none

/-! ### Lines at inner levels -/

def field? (cs : List Char) : Option Line := do
  let (name, rest) ← name? cs
  if rest = [';'] then return .field name
  let size ← behind? ['['] rest >>= before? "];".toList >>= number?
  return .arrayField name size

/-- A line of a struct or a function. -/
def readMember? (cs : List Char) : Option Line :=
  if cs = ['\x7d'] then some (.close 1)
  else if cs = loopStart.content.toList then some .loopStart
  else if let some rest := behind? "// Implement ".toList cs then
    (nameBefore? " here".toList rest).map .body
  else if let some rest := behind? (wordType ++ " ").toList cs then field? rest
  else none

def readStep? (cs : List Char) : Option Line :=
  if cs = ['\x7d'] then some (.close 2)
  else [lookUpSender, readMessage, choiceStart].find? fun l => l.content.toList = cs

def readLabel? (cs : List Char) : Option Line :=
  (behind? "case ".toList cs >>= nameBefore? [':']).map .choiceCase

/-- The index of a word of the message. -/
def argument? (cs : List Char) : Option Nat :=
  behind? (Vocabulary.currentTransaction ++ ".message[").toList cs >>= before? [']'] >>= number?

/-- A call with words of the message, which have to be the first ones behind the code in their
order. -/
def call? (cs : List Char) : Option Line := do
  let (name, rest) ← name? cs
  let inner ← behind? ['('] rest >>= before? ");".toList
  let indices ← (commaList inner).mapM argument?
  if indices = (List.range indices.length).map (· + 1) then return .call name indices.length
  none

def readStatement? (cs : List Char) : Option Line :=
  if cs = leave.content.toList then some .leave else call? cs

/-! ### Lines and programs -/

/-- The line that is written by the characters, which are those up to the line feed. -/
def read? (cs : List Char) : Option Line :=
  let rest := cs.dropWhile (· = ' ')
  match (cs.takeWhile (· = ' ')).length with
  | 0 => readOuter? rest
  | 4 => readMember? rest
  | 8 => readStep? rest
  | 12 => readLabel? rest
  | 16 => readStatement? rest
  | _ => none

end Line

/-- The lines of a text, each of which ends in a line feed. -/
def Text.lines (s : String) : List (List Char) := (pieces (· == '\n') s.toList).dropLast

/-- The lines of the skeleton that a text is. -/
def readProgram? (s : String) : Option (List Line) := (Text.lines s).mapM Line.read?

end SmartContract
