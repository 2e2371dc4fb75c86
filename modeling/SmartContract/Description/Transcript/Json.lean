import SmartContract.Description.Transcript

/-!
Taking down a JSON value. The value has to have the members that a description needs and no others,
each of the right kind; it is not asked which names, numbers and types these are. A member that is
not needed may be null instead of missing.
-/

namespace SmartContract.Transcript

/-- Is the value an object whose members have the given names only? -/
def isRecord (names : List String) : Json → Bool
  | .object members => members.all fun m => names.contains m.1
  | _ => false

def member (key : String) (read : Json → Option α) (v : Json) : Option α := v.get? key >>= read

/-- What the member of the given name is read as, if there is one that is not null. -/
def optionalMember (key : String) (read : Json → Option α) (v : Json) : Option (Option α) :=
  match v.get? key with
  | none | some .null => some none
  | some w => (read w).map some

/-- The truth value of the member of the given name, which is false if there is none. -/
def flag (key : String) (v : Json) : Option Bool :=
  match v.get? key with
  | none => some false
  | some w => w.bool?

def list (read : Json → Option α) (v : Json) : Option (List α) := v.items? >>= (·.mapM read)

def settings? (v : Json) : Option Settings := do
  guard <| isRecord ["maxAuxVars", "optimizationLevel", "verboseAssembly", "version",
    "codeStackPages", "userStackPages"] v
  let auxiliaryVariables ← member "maxAuxVars" Json.number? v
  let optimizationLevel ← member "optimizationLevel" Json.number? v
  let verboseAssembly ← member "verboseAssembly" Json.bool? v
  let version ← member "version" Json.text? v
  let codeStackPages ← optionalMember "codeStackPages" Json.number? v
  let userStackPages ← optionalMember "userStackPages" Json.number? v
  return { auxiliaryVariables, optimizationLevel, verboseAssembly, version, codeStackPages,
           userStackPages }

def typedName? (v : Json) : Option TypedName := do
  guard <| isRecord ["name", "type"] v
  let name ← member "name" Json.text? v
  let type ← member "type" Json.text? v
  return { name, type }

def method? (v : Json) : Option Method := do
  guard <| isRecord ["name", "description", "code", "args"] v
  let name ← member "name" Json.text? v
  let description ← optionalMember "description" Json.text? v
  let code ← member "code" Json.text? v
  let arguments ← member "args" (list typedName?) v
  return { name, description, code, arguments }

def stateVariable? (v : Json) : Option Variable := do
  guard <| isRecord ["name", "type", "description", "constant", "initializable", "value",
    "fields"] v
  let name ← member "name" Json.text? v
  let type ← member "type" Json.text? v
  let description ← optionalMember "description" Json.text? v
  let constant ← flag "constant" v
  let initializable ← flag "initializable" v
  let value ← optionalMember "value" Json.text? v
  let fields ← optionalMember "fields" (list typedName?) v
  return { name, type, description, constant, initializable, value, fields }

def entry? (v : Json) : Option Draft.Entry := do
  guard <| isRecord ["name", "value"] v
  let name ← member "name" Json.text? v
  let value ← member "value" Json.text? v
  return { name, value }

def item? (v : Json) : Option Item := do
  guard <| isRecord ["name", "description", "type", "constant", "value", "oneOf"] v
  let name ← member "name" Json.text? v
  let description ← optionalMember "description" Json.text? v
  let type ← optionalMember "type" Json.text? v
  let constant ← flag "constant" v
  let value ← optionalMember "value" Json.text? v
  let entries ← optionalMember "oneOf" (list entry?) v
  return { name, description, type, constant, value, entries }

def map? (v : Json) : Option KeyMap := do
  guard <| isRecord ["name", "description", "key1", "key2", "value"] v
  let name ← member "name" Json.text? v
  let description ← optionalMember "description" Json.text? v
  let key1 ← member "key1" item? v
  let key2 ← member "key2" item? v
  let value ← member "value" item? v
  return { name, description, key1, key2, value }

def transaction? (v : Json) : Option Transaction := do
  guard <| isRecord ["name", "description", "kind"] v
  let name ← member "name" Json.text? v
  let description ← optionalMember "description" Json.text? v
  let kind ← member "kind" Json.text? v
  return { name, description, kind }

def ofJson? (v : Json) : Option Transcript := do
  guard <| isRecord ["contractName", "description", "activationAmount", "pragmas", "methods",
    "variables", "maps", "transactions"] v
  let name ← member "contractName" Json.text? v
  let description ← optionalMember "description" Json.text? v
  let activationAmount ← member "activationAmount" Json.text? v
  let settings ← member "pragmas" settings? v
  let methods ← member "methods" (list method?) v
  let stateVariables ← member "variables" (list stateVariable?) v
  let maps ← member "maps" (list map?) v
  let transactions ← member "transactions" (list transaction?) v
  return { name, description, activationAmount, settings, methods, stateVariables, maps,
           transactions }

end SmartContract.Transcript
