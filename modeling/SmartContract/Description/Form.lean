import SmartContract.Json.Shape.Basic
import SmartContract.Types
import SmartContract.Vocabulary

/-!
The form of a description, as a shape of JSON values. It settles which members there are and what
kind of value each one has. What it leaves open, such as which names are allowed, is settled on
the typed draft that a value of this form stands for.
-/

namespace SmartContract.Form

open Json (Shape)

def text : Shape := .kind .string

def flag : Shape := .kind .boolean

/-- A name: a text that is not empty. -/
def name : Shape := .all text [.minLength 1]

/-- A natural number as a text of decimal digits. -/
def numeral : Shape := .all text [.form .digits]

def upTo (n : Nat) : Shape := .all (.kind .integer) [.minimum 0, .maximum n]

def valueType : Shape := .oneOf (ValueType.all.map ValueType.name)

/-- The word that stands in the place of a type where a struct is declared. -/
def structWord : String := "struct"

/-- The word that stands in the place of a type where an enumeration is declared. -/
def enumerationWord : String := "enum"

/-- The name of a type of values, or the word for a struct. -/
def declaredType : Shape := .either valueType (.exactly structWord)

/-- The name of a type of single values, or the word for an enumeration. -/
def itemType : Shape := .either (.oneOf (Scalar.all.map Scalar.name)) (.exactly enumerationWord)

def settings : Shape :=
  .record ["maxAuxVars", "optimizationLevel", "verboseAssembly", "version"]
    [("maxAuxVars", upTo Limit.auxiliaryVariables),
     ("optimizationLevel", upTo Limit.optimizationLevel),
     ("verboseAssembly", flag),
     ("version", .all text [.form .version]),
     ("codeStackPages", upTo Limit.stackPages),
     ("userStackPages", upTo Limit.stackPages)]

def argument : Shape := .record ["name", "type"] [("name", name), ("type", valueType)]

def field : Shape := .record ["name", "type"] [("name", name), ("type", declaredType)]

def method : Shape :=
  .record ["name", "code", "args"]
    [("name", name), ("description", text), ("code", numeral), ("args", .list argument)]

def stateVariable : Shape :=
  .record ["name", "type"]
    [("name", name), ("type", declaredType), ("description", text), ("constant", flag),
     ("initializable", flag), ("value", text), ("fields", .list field)]

def entry : Shape := .record ["name", "value"] [("name", name), ("value", numeral)]

def mapItem : Shape :=
  .record ["name"]
    [("name", name), ("description", text), ("type", itemType), ("constant", flag),
     ("value", numeral), ("oneOf", .all (.kind .array) [.maxItems Limit.entries, .items entry])]

def map : Shape :=
  .record ["name", "key1", "key2", "value"]
    [("name", name), ("description", text), ("key1", mapItem), ("key2", mapItem),
     ("value", mapItem)]

def transaction : Shape :=
  .record ["name", "kind"]
    [("name", name), ("description", text),
     ("kind", .oneOf (TransactionKind.all.map TransactionKind.name))]

def description : Shape :=
  .record
    ["contractName", "activationAmount", "pragmas", "methods", "variables", "maps", "transactions"]
    [("contractName", name), ("description", .all text [.maxLength 320]),
     ("activationAmount", numeral), ("pragmas", settings), ("methods", .list method),
     ("variables", .list stateVariable), ("maps", .list map), ("transactions", .list transaction)]

end SmartContract.Form
