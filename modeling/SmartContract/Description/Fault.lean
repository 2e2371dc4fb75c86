import SmartContract.Description.Symbol
import SmartContract.Json.Basic
import SmartContract.Json.Shape.Violation
import SmartContract.Report.Diagnostic

/-!
Faults: the reasons why a JSON value is refused as a description, each at the place where it lies.
A fault has a code, a stage and a wording, and faults have an order.
-/

namespace SmartContract

open Json (Pointer)

/-- The names among which a text is looked up. -/
inductive KnownNames where
  | valueTypes
  | itemTypes
  | transactionKinds
deriving DecidableEq, Repr

def KnownNames.noun : KnownNames → String
  | valueTypes => "value type"
  | itemTypes => "map item type"
  | transactionKinds => "transaction kind"

inductive Complaint where
  | form (lack : Json.Shape.Lack)
  /-- The value has the form but no transcript, and so no draft. -/
  | noDraft
  /-- A text stands where one of the names has to stand, and is none of them. -/
  | unknownName (names : KnownNames) (text : String)
  /-- A number of the settings is above its limit. -/
  | settingTooLarge (limit : Nat)
  /-- A number of the settings is no natural number, or none up to its limit. -/
  | noSetting (limit : Nat) (n : Json.Number)
  | tooManyEntries
  | badName (name : String) (defect : Name.Defect)
  /-- A name that comes to stand in the program is taken. -/
  | reservedName (name : String)
  /-- A name repeats another of its scope. -/
  | repeatedName (scope : Scope) (name : String) (first : Pointer)
  /-- A method has the code of another. -/
  | repeatedCode (code : Nat) (first : Pointer)
  | repeatedSymbol (origin : SymbolOrigin) (spelling : String) (first : SymbolOrigin)
  /-- A name is spelled like a constant, which would be put in its place. -/
  | shadowedName (name : String) (first : SymbolOrigin)
  | tooLarge (numeral : String)
  /-- The code of a method is zero or does not fit 63 bits. -/
  | codeOutOfRange
  | tooManyArguments (count : Nat)
  | noFields
  | fieldsWithoutStruct
  | nestedStruct
  /-- A variable that holds more than a single value is to be declared with its value. -/
  | noLiteralType
  /-- A variable is to be declared with a value that is not there. -/
  | noLiteral
  /-- A variable is to be declared with a value that its type does not have. -/
  | badLiteral (value : String) (type : ValueType)
  /-- A key or value of a map is always the same, but it is not said what. -/
  | noItemValue
  | noEntries
  | entriesWithoutEnumeration
  /-- What the contract is for takes more than one line. -/
  | severalLines

namespace Complaint

def code : Complaint → String
  | form _ => "SCD-SCHEMA-0001"
  | noDraft | unknownName .. => "SCD-SCHEMA-0002"
  | badName .. => "SCD-NAME-0001"
  | reservedName _ => "SCD-NAME-0002"
  | repeatedName .. => "SCD-DUP-0001"
  | repeatedCode .. => "SCD-DUP-0002"
  | repeatedSymbol .. | shadowedName .. => "SCD-DUP-0003"
  | tooLarge _ | codeOutOfRange | settingTooLarge _ | noSetting .. => "SCD-INT-0001"
  | tooManyArguments _ => "SCD-METHOD-0001"
  | noFields | fieldsWithoutStruct => "SCD-STRUCT-0001"
  | nestedStruct => "SCD-STRUCT-0002"
  | noLiteral => "SCD-VAR-0001"
  | noLiteralType | badLiteral .. => "SCD-VAR-0002"
  | noItemValue => "SCD-MAP-0001"
  | noEntries | entriesWithoutEnumeration | tooManyEntries => "SCD-MAP-0002"
  | severalLines => "SCD-TEXT-0001"

def stage : Complaint → Stage
  | form _ | noDraft => .schema
  | _ => .semantic

def expected : Scalar → String
  | .boolean => "true or false"
  | .string =>
    "at most " ++ Numeral.text Limit.literalOctets
      ++ " printable ASCII chars without quotes or backslashes"
  | .address | .long | .amount | .transactionId => "an unsigned 64-bit integer"

def repetition (noun key first : String) : String :=
  "duplicate " ++ noun ++ " " ++ key ++ " (first declared at " ++ first ++ ")"

def message : Complaint → String
  | form lack => lack.message
  | noDraft => "decode: not a description"
  | unknownName names text => "unknown " ++ names.noun ++ " " ++ Text.quoted text
  | settingTooLarge limit => "expected integer in [0," ++ Numeral.text limit ++ "]"
  | noSetting limit n =>
    "expected integer in [0," ++ Numeral.text limit ++ "], got " ++ n.toJson.compact
  | tooManyEntries => "at most " ++ Numeral.text Limit.entries ++ " enum entries are allowed"
  | badName name defect => defect.message name
  | reservedName name => Text.quoted name ++ " is reserved in SmartC or by the generated skeleton"
  | repeatedName scope name first => repetition scope.noun (Text.quoted name) first.text
  | repeatedCode code first => repetition "method code" (Numeral.text code) first.text
  | repeatedSymbol origin spelling first =>
    repetition origin.noun (Text.quoted spelling) first.text
  | shadowedName name first =>
    Text.quoted name ++ " collides with a generated constant (declared at " ++ first.text ++ ")"
  | tooLarge numeral =>
    "integer literal out of range [0," ++ Numeral.text (Numeral.wordLimit - 1) ++ "]: "
      ++ Text.quoted numeral
  | codeOutOfRange => "method code must be in [1," ++ Numeral.text Numeral.signedMax ++ "]"
  | tooManyArguments count =>
    "method takes " ++ Numeral.text count ++ " args, at most " ++ Numeral.text Limit.arguments
      ++ " fit into one message page"
  | noFields => "struct variables must declare at least one field"
  | fieldsWithoutStruct => "fields are only allowed on struct variables"
  | nestedStruct => "nested structs are not allowed; struct fields must be value types"
  | noLiteralType => "only scalar non-array variables can be constant literals"
  | noLiteral => "constant non-initializable variables must carry a literal value"
  | badLiteral value type =>
    "literal " ++ Text.quoted value ++ " for " ++ type.name ++ " variable must be "
      ++ expected type.scalar
  | noItemValue => "constant map items must carry a literal value"
  | noEntries => "enum map items must list their values in a non-empty oneOf"
  | entriesWithoutEnumeration => "oneOf is only allowed on enum map items"
  | severalLines => "contract description must be a single line"

end Complaint

/-- A complaint in its place. -/
structure Fault where
  pointer : Pointer
  complaint : Complaint

namespace Fault

/-- The fault as a line of text, in which the whole document is a slash. -/
def display (f : Fault) : String :=
  (if f.pointer.isEmpty then "/" else f.pointer.text) ++ ": " ++ f.complaint.message

def diagnostic (f : Fault) : Diagnostic :=
  { code := f.complaint.code, severity := .error, stage := f.complaint.stage,
    message := f.complaint.message, location := some (.document f.pointer.text) }

def compare (f g : Fault) : Ordering :=
  (Ord.compare f.pointer.text g.pointer.text).then
    ((Ord.compare f.complaint.code g.complaint.code).then
      (Ord.compare f.complaint.message g.complaint.message))

/-- Faults have the order of their diagnostics. -/
theorem compare_diagnostic (f g : Fault) : f.diagnostic.compare g.diagnostic = f.compare g := rfl

def sort (faults : List Fault) : List Fault := faults.mergeSort fun f g => f.compare g != .gt

end Fault

end SmartContract
