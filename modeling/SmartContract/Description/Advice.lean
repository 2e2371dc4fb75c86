import SmartContract.Description.NameSite
import SmartContract.Name
import SmartContract.Report.Diagnostic

/-!
Advice on an accepted description: what the program does not take over from it.
-/

namespace SmartContract

/-- Something of a description that the program does not take over. -/
inductive Advice where
  /-- There is no constant for the first key of a map, since it has no value. -/
  | noMapConstant (i : Nat) (m : KeyMap)
  /-- The value of a variable is not declared with it. -/
  | unusedValue (i : Nat) (v : Variable)
  /-- An array is declared as a single word. -/
  | arrayAsWord (holder : Json.Pointer) (what : String)

namespace Advice

def pointer : Advice → Json.Pointer
  | noMapConstant i _ => (Named.item i .key1).holder
  | unusedValue i _ => (Named.stateVariable i).holder.member "value"
  | arrayAsWord holder _ => holder.member "type"

def code : Advice → String
  | noMapConstant .. => "SCD-ADV-0001"
  | unusedValue .. => "SCD-ADV-0002"
  | arrayAsWord .. => "SCD-ADV-0003"

def message : Advice → String
  | noMapConstant _ m =>
    "map " ++ Text.quoted m.name ++ " has no key1 value; no "
      ++ Name.mapConstant m.name m.key1.name ++ " constant is generated"
  | unusedValue _ v =>
    "value of " ++ Text.quoted v.name
      ++ " is only emitted for constant, non-initializable variables"
  | arrayAsWord _ what =>
    what ++ " has an array type; it is declared as a single long in generated code"

def diagnostic (a : Advice) : Diagnostic :=
  { code := a.code, severity := .warning, stage := .codegen, message := a.message,
    location := some (.document a.pointer.text) }

end Advice

def KeyMap.advice (m : KeyMap) (i : Nat) : List Advice :=
  if m.key1.value.isNone then [.noMapConstant i m] else []

def Variable.advice (v : Variable) (i : Nat) : List Advice :=
  (if v.value.isSome && v.literal?.isNone then [.unusedValue i v] else [])
    ++ match v.kind with
      | .value type =>
        if type.isArray then [.arrayAsWord (Named.stateVariable i).holder v.name] else []
      | .struct fields =>
        fields.zipIdx.filterMap fun (f, j) =>
          if f.type.isArray then
            some (.arrayAsWord (Named.field i j).holder (v.name ++ "." ++ f.name))
          else none

def Method.advice (m : Method) (i : Nat) : List Advice :=
  m.arguments.zipIdx.filterMap fun (a, j) =>
    if a.type.isArray then
      some (.arrayAsWord (Named.argument i j).holder (m.name ++ "(" ++ a.name ++ ")"))
    else none

def Description.advice (d : Description) : List Advice :=
  (d.maps.zipIdx.flatMap fun (m, i) => m.advice i)
    ++ (d.stateVariables.zipIdx.flatMap fun (v, i) => v.advice i)
    ++ d.methods.zipIdx.flatMap fun (m, i) => m.advice i

end SmartContract
