import SmartContract.Numeric.Numeral
import SmartContract.Types

/-!
Contract descriptions: what a contract is called, how it is compiled, which methods it has, what it
keeps, and what it sends.
-/

namespace SmartContract

structure Settings where
  /-- The number of auxiliary variables that the compiler may take. -/
  auxiliaryVariables : Nat
  optimizationLevel : Nat
  /-- Does the assembly text carry comments? -/
  verboseAssembly : Bool
  version : String
  codeStackPages : Option Nat
  userStackPages : Option Nat
deriving DecidableEq, Repr

/-- A name with the type of the values that it stands for: an argument, or the field of a struct. -/
structure TypedName where
  name : String
  type : ValueType
deriving DecidableEq, Repr

/-- A method, which is called by a message whose first word is the code. -/
structure Method where
  name : String
  description : Option String
  code : Nat
  arguments : List TypedName
deriving DecidableEq, Repr

inductive VariableKind where
  | value (type : ValueType)
  | struct (fields : List TypedName)
deriving DecidableEq, Repr

structure Variable where
  name : String
  kind : VariableKind
  description : Option String
  constant : Bool
  /-- Is it set when the contract is deployed? -/
  initializable : Bool
  /-- The value that it is given. -/
  value : Option String
deriving DecidableEq, Repr

namespace Variable

def isStruct (v : Variable) : Bool :=
  match v.kind with
  | .struct _ => true
  | .value _ => false

def valueType? (v : Variable) : Option ValueType :=
  match v.kind with
  | .value type => some type
  | .struct _ => none

def fields (v : Variable) : List TypedName :=
  match v.kind with
  | .value _ => []
  | .struct fields => fields

/-- The value with which the variable is declared: only a constant that is not set at deployment
has one. -/
def literal? (v : Variable) : Option String :=
  if v.constant && !v.initializable then v.value else none

end Variable

/-- A name for a value of an enumeration. -/
structure Entry where
  name : String
  value : Nat
deriving DecidableEq, Repr

inductive ItemType where
  | scalar (type : Scalar)
  | enumeration (entries : List Entry)
deriving DecidableEq, Repr

/-- A key or the value of a map. -/
structure MapItem where
  name : String
  description : Option String
  /-- What it can be, as far as the description says so. -/
  type : Option ItemType
  constant : Bool
  /-- What it is then. -/
  value : Option Nat
deriving DecidableEq, Repr

def MapItem.entries (item : MapItem) : List Entry :=
  match item.type with
  | some (.enumeration entries) => entries
  | _ => []

/-- A map from two keys to a value. -/
structure KeyMap where
  name : String
  description : Option String
  key1 : MapItem
  key2 : MapItem
  value : MapItem
deriving DecidableEq, Repr

structure Transaction where
  name : String
  description : Option String
  kind : TransactionKind
deriving DecidableEq, Repr

structure Description where
  name : String
  description : Option String
  /-- The amount that it takes to set the contract going. -/
  activationAmount : Nat
  settings : Settings
  methods : List Method
  stateVariables : List Variable
  maps : List KeyMap
  transactions : List Transaction
deriving DecidableEq, Repr

namespace Description

/-- The variables that hold a single value or an array. -/
def values (d : Description) : List Variable := d.stateVariables.filter (!·.isStruct)

def structs (d : Description) : List Variable := d.stateVariables.filter (·.isStruct)

end Description

/-- The settings that are given to the compiler, with their values as text, in the order of the
program; pages that are not set are left out. -/
def Settings.entries (s : Settings) : List (String × String) :=
  let pages (key : String) (n : Option Nat) : List (String × String) :=
    (n.map fun n => (key, Numeral.text n)).toList
  [("maxAuxVars", Numeral.text s.auxiliaryVariables),
   ("verboseAssembly", if s.verboseAssembly then "true" else "false"),
   ("optimizationLevel", Numeral.text s.optimizationLevel),
   ("version", s.version)]
    ++ pages "codeStackPages" s.codeStackPages ++ pages "userStackPages" s.userStackPages

end SmartContract
