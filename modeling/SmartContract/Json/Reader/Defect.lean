/-!
What makes octets no JSON text, and where. A position counts the octets from the start of the text
up to and including the one at which reading stopped.
-/

namespace SmartContract.Json

inductive Defect where
  /-- The text ends where a value is due or unfinished. -/
  | endInValue
  | endInString
  | endInArray
  | endInObject
  /-- An octet starts no value where one is due. -/
  | noValue
  /-- A word starts like a constant and goes on otherwise. -/
  | noConstant
  /-- A number has no digit where it needs one, or a zero before its digits. -/
  | badNumber
  | numberOutOfRange
  /-- A backslash is followed by no escape. -/
  | badEscape
  | controlCharacter
  | loneSurrogate
  /-- The escape that a high surrogate needs behind it does not come. -/
  | brokenPair
  | badEncoding
  | noComma
  | noMemberComma
  | noColon
  | noKey
  | trailingComma
  | tooDeep
  | trailingCharacters
deriving DecidableEq, Repr

def Defect.message : Defect → String
  | .endInValue => "EOF while parsing a value"
  | .endInString => "EOF while parsing a string"
  | .endInArray => "EOF while parsing a list"
  | .endInObject => "EOF while parsing an object"
  | .noValue => "expected value"
  | .noConstant => "expected ident"
  | .badNumber => "invalid number"
  | .numberOutOfRange => "number out of range"
  | .badEscape => "invalid escape"
  | .controlCharacter => "control character (\\u0000-\\u001F) found while parsing a string"
  | .loneSurrogate => "lone leading surrogate in hex escape"
  | .brokenPair => "unexpected end of hex escape"
  | .badEncoding => "invalid unicode code point"
  | .noComma => "expected \x60,\x60 or \x60]\x60"
  | .noMemberComma => "expected \x60,\x60 or \x60\x7d\x60"
  | .noColon => "expected \x60:\x60"
  | .noKey => "key must be a string"
  | .trailingComma => "trailing comma"
  | .tooDeep => "recursion limit exceeded"
  | .trailingCharacters => "trailing characters"

/-- A defect found at an octet, so many octets before it. -/
structure Finding where
  defect : Defect
  /-- How many octets back the defect lies. -/
  back : Nat := 0
deriving DecidableEq, Repr

instance : Coe Defect Finding := ⟨fun defect => ⟨defect, 0⟩⟩

/-- A line and a column of a text. Lines count from one. The column is the number of octets of the
line up to the position, so that it is zero right behind a line feed. -/
structure Place where
  line : Nat
  column : Nat
deriving DecidableEq, Repr

def Place.after (text : List UInt8) (position : Nat) : Place :=
  let before := text.take position
  ⟨1 + before.count 10, (before.reverse.takeWhile (· != 10)).length⟩

structure SyntaxError where
  defect : Defect
  place : Place
deriving DecidableEq, Repr

def SyntaxError.message (e : SyntaxError) : String :=
  e.defect.message ++ " at line " ++ toString e.place.line ++ " column " ++ toString e.place.column

end SmartContract.Json
