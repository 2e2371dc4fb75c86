import SmartContract.Json.Basic
import SmartContract.Numeric.Notation

/-!
JSON texts. The compact form has no blanks; the pretty form puts every item and member on a line of
its own, indented by two spaces a level, and ends in a line feed. Both write the members of an
object in the order in which they stand.
-/

namespace SmartContract.Json

def escapeLetter? : Char → Option Char
  | '"' => some '"'
  | '\\' => some '\\'
  | '\x08' => some 'b'
  | '\x0c' => some 'f'
  | '\n' => some 'n'
  | '\r' => some 'r'
  | '\t' => some 't'
  | _ => none

def hexDigit (n : Nat) : Char := Nat.digitChar n

/-- How a character is written in a JSON text: itself, unless it is a quotation mark, a backslash or
below the space. -/
def escape (c : Char) : List Char :=
  match escapeLetter? c with
  | some letter => ['\\', letter]
  | none =>
    if c.toNat < 0x20 then
      ['\\', 'u', '0', '0', hexDigit (c.toNat / 16), hexDigit (c.toNat % 16)]
    else [c]

def stringChars (s : String) : List Char :=
  '"' :: (s.toList.flatMap escape ++ ['"'])

def intChars : Int → List Char
  | .ofNat n => Nat.toDigits 10 n
  | .negSucc n => '-' :: Nat.toDigits 10 (n + 1)

mutual

def compactChars : Json → List Char
  | .null => ['n', 'u', 'l', 'l']
  | .bool true => ['t', 'r', 'u', 'e']
  | .bool false => ['f', 'a', 'l', 's', 'e']
  | .int n => intChars n
  | .float x => x.chars
  | .string s => stringChars s
  | .array items => '[' :: compactItems items
  | .object members => '\x7b' :: compactMembers members

/-- The items of an array and the bracket behind them. -/
def compactItems : List Json → List Char
  | [] => [']']
  | [v] => compactChars v ++ [']']
  | v :: w :: rest => compactChars v ++ ',' :: compactItems (w :: rest)

def compactMembers : List (String × Json) → List Char
  | [] => ['\x7d']
  | [(k, v)] => stringChars k ++ ':' :: (compactChars v ++ ['\x7d'])
  | (k, v) :: m :: rest =>
    stringChars k ++ ':' :: (compactChars v ++ ',' :: compactMembers (m :: rest))

end

def compact (v : Json) : String := String.ofList v.compactChars

/-- A line feed and the indentation of the given level. -/
def newLine (level : Nat) : List Char := '\n' :: List.replicate (2 * level) ' '

mutual

/-- The characters of the pretty form of a value at the given level, without the last line feed. -/
def prettyChars (level : Nat) : Json → List Char
  | .array [] => ['[', ']']
  | .array (v :: rest) =>
    '[' :: (newLine (level + 1) ++ prettyChars (level + 1) v ++ prettyItems level rest)
  | .object [] => ['\x7b', '\x7d']
  | .object ((k, v) :: rest) =>
    '\x7b' :: (newLine (level + 1) ++ stringChars k ++ ':' :: ' ' :: prettyChars (level + 1) v
      ++ prettyMembers level rest)
  | v => v.compactChars

/-- The further items of an array at the given level and the bracket behind them. -/
def prettyItems (level : Nat) : List Json → List Char
  | [] => newLine level ++ [']']
  | v :: rest => ',' :: (newLine (level + 1) ++ prettyChars (level + 1) v ++ prettyItems level rest)

def prettyMembers (level : Nat) : List (String × Json) → List Char
  | [] => newLine level ++ ['\x7d']
  | (k, v) :: rest =>
    ',' :: (newLine (level + 1) ++ stringChars k ++ ':' :: ' ' :: prettyChars (level + 1) v
      ++ prettyMembers level rest)

end

def pretty (v : Json) : String := String.ofList (prettyChars 0 v ++ ['\n'])

example : compact (.object [("a", .array [.int (-1), .null]), ("b", .string "\n")])
    = "\x7b\"a\":[-1,null],\"b\":\"\\n\"\x7d" := by decide
example : pretty (.array [.bool true, .array []]) = "[\n  true,\n  []\n]\n" := by decide

end SmartContract.Json
