import SmartContract.Description.Basic
import SmartContract.Description.Form

/-!
Drafts. A draft is a description as it was written, of the right form but not yet accepted: its
numerals are texts of any length, and what belongs to structs and enumerations can stand where
there are none. `Draft.toDescription` is the description that it becomes once it is accepted.
-/

namespace SmartContract

inductive DeclaredType where
  | value (type : ValueType)
  | struct
deriving DecidableEq, Repr

inductive DeclaredItemType where
  | scalar (type : Scalar)
  | enumeration
deriving DecidableEq, Repr

namespace Draft

structure Method where
  name : String
  description : Option String
  code : String
  arguments : List TypedName

structure Field where
  name : String
  type : DeclaredType

structure Variable where
  name : String
  type : DeclaredType
  description : Option String
  constant : Bool
  initializable : Bool
  value : Option String
  fields : Option (List Field)

structure Entry where
  name : String
  value : String

structure Item where
  name : String
  description : Option String
  type : Option DeclaredItemType
  constant : Bool
  value : Option String
  entries : Option (List Entry)

structure KeyMap where
  name : String
  description : Option String
  key1 : Item
  key2 : Item
  value : Item

end Draft

/-- A description as it was written. -/
structure Draft where
  name : String
  description : Option String
  activationAmount : String
  settings : Settings
  methods : List Draft.Method
  stateVariables : List Draft.Variable
  maps : List Draft.KeyMap
  transactions : List Transaction

namespace Draft

def Method.toMethod (m : Method) : SmartContract.Method :=
  ⟨m.name, m.description, Numeral.value m.code, m.arguments⟩

def Field.typedName? (f : Field) : Option TypedName :=
  match f.type with
  | .value type => some ⟨f.name, type⟩
  | .struct => none

/-- The fields of the variable, with their indices: none unless it is a struct. -/
def Variable.structFields (v : Variable) : List (Field × Nat) :=
  match v.type with
  | .struct => (v.fields.getD []).zipIdx
  | .value _ => []

def Variable.kind (v : Variable) : VariableKind :=
  match v.type with
  | .value type => .value type
  | .struct => .struct (v.structFields.filterMap fun f => f.1.typedName?)

def Variable.toVariable (v : Variable) : SmartContract.Variable :=
  ⟨v.name, v.kind, v.description, v.constant, v.initializable, v.value⟩

def Entry.toEntry (e : Entry) : SmartContract.Entry := ⟨e.name, Numeral.value e.value⟩

/-- The entries of the enumeration that the item is: none if it has a type of single values. -/
def Item.listed (item : Item) : List Entry :=
  match item.type with
  | some (.scalar _) => []
  | _ => item.entries.getD []

/-- What the item can be. Entries without a type make it an enumeration. -/
def Item.itemType? (item : Item) : Option ItemType :=
  match item.type, item.entries with
  | some (.scalar type), _ => some (.scalar type)
  | none, none => none
  | _, _ => some (.enumeration (item.listed.map Entry.toEntry))

def Item.toItem (item : Item) : MapItem :=
  ⟨item.name, item.description, item.itemType?, item.constant, item.value.map Numeral.value⟩

def KeyMap.toMap (m : KeyMap) : SmartContract.KeyMap :=
  ⟨m.name, m.description, m.key1.toItem, m.key2.toItem, m.value.toItem⟩

def toDescription (d : Draft) : Description :=
  ⟨d.name, d.description, Numeral.value d.activationAmount, d.settings,
    d.methods.map Method.toMethod, d.stateVariables.map Variable.toVariable,
    d.maps.map KeyMap.toMap, d.transactions⟩

end Draft

end SmartContract
