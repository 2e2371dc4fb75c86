import SmartContract.Description.Basic

/-!
Where a contract keeps its state. The words of the state are the variables and the fields of the
structs, in the order of their declaration; they lie in storage one after another, behind the
auxiliary variables of the compiler and one further word.
-/

namespace SmartContract

structure StateWord where
  /-- The name of the variable, with that of the field behind a point if the variable is a
  struct. -/
  name : String
  type : ValueType
deriving DecidableEq, Repr

structure Slot extends StateWord where
  index : Nat
deriving DecidableEq, Repr

/-- The words that a variable takes. A struct takes a word for each field, and none for itself. -/
def Variable.words (v : Variable) : List StateWord :=
  match v.kind with
  | .value type => [⟨v.name, type⟩]
  | .struct fields => fields.map fun f => ⟨v.name ++ "." ++ f.name, f.type⟩

namespace Description

def words (d : Description) : List StateWord := d.stateVariables.flatMap Variable.words

def firstSlot (d : Description) : Nat := d.settings.auxiliaryVariables + 1

def slots (d : Description) : List Slot :=
  (d.words.zipIdx d.firstSlot).map fun (w, i) => ⟨w, i⟩

def slotOf? (slots : List Slot) (name : String) : Option Nat :=
  (slots.find? (·.name == name)).map (·.index)

end Description

end SmartContract
