import SmartContract.Description.Form
import SmartContract.Description.Basic

/-!
The JSON value of a description. Numbers that may be large are written as texts of digits, and flags
are always there, so that a description has one value only.
-/

namespace SmartContract

open Json (ofMembers optional)

def optionalText (key : String) (s : Option String) : List (String × Json) :=
  optional key (s.map .string)

def numeralJson (n : Nat) : Json := .string (Numeral.text n)

def Settings.toJson (s : Settings) : Json :=
  ofMembers ([("maxAuxVars", .int s.auxiliaryVariables),
    ("optimizationLevel", .int s.optimizationLevel), ("verboseAssembly", .bool s.verboseAssembly),
    ("version", .string s.version)]
      ++ optional "codeStackPages" (s.codeStackPages.map fun n => .int n)
      ++ optional "userStackPages" (s.userStackPages.map fun n => .int n))

def TypedName.toJson (n : TypedName) : Json :=
  ofMembers [("name", .string n.name), ("type", .string n.type.name)]

def Method.toJson (m : Method) : Json :=
  ofMembers ([("name", .string m.name), ("code", numeralJson m.code),
    ("args", .array (m.arguments.map TypedName.toJson))]
      ++ optionalText "description" m.description)

def VariableKind.members : VariableKind → List (String × Json)
  | .value type => [("type", .string type.name)]
  | .struct fields =>
    [("type", .string Form.structWord), ("fields", .array (fields.map TypedName.toJson))]

def Variable.toJson (v : Variable) : Json :=
  ofMembers ([("name", .string v.name), ("constant", .bool v.constant),
    ("initializable", .bool v.initializable)] ++ v.kind.members
      ++ optionalText "description" v.description ++ optionalText "value" v.value)

def Entry.toJson (e : Entry) : Json :=
  ofMembers [("name", .string e.name), ("value", numeralJson e.value)]

def ItemType.members : ItemType → List (String × Json)
  | .scalar type => [("type", .string type.name)]
  | .enumeration entries =>
    [("type", .string Form.enumerationWord), ("oneOf", .array (entries.map Entry.toJson))]

def MapItem.toJson (item : MapItem) : Json :=
  ofMembers ([("name", .string item.name), ("constant", .bool item.constant)]
    ++ (item.type.map ItemType.members).getD [] ++ optionalText "description" item.description
    ++ optional "value" (item.value.map numeralJson))

def KeyMap.toJson (m : KeyMap) : Json :=
  ofMembers ([("name", .string m.name), ("key1", m.key1.toJson), ("key2", m.key2.toJson),
    ("value", m.value.toJson)] ++ optionalText "description" m.description)

def Transaction.toJson (t : Transaction) : Json :=
  ofMembers ([("name", .string t.name), ("kind", .string t.kind.name)]
    ++ optionalText "description" t.description)

def Description.toJson (d : Description) : Json :=
  ofMembers ([("contractName", .string d.name),
    ("activationAmount", numeralJson d.activationAmount), ("pragmas", d.settings.toJson),
    ("methods", .array (d.methods.map Method.toJson)),
    ("variables", .array (d.stateVariables.map Variable.toJson)),
    ("maps", .array (d.maps.map KeyMap.toJson)),
    ("transactions", .array (d.transactions.map Transaction.toJson))]
      ++ optionalText "description" d.description)

end SmartContract
