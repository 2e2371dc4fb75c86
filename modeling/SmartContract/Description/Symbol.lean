import SmartContract.Description.NameSite
import SmartContract.Name

/-!
The symbols that a program gets besides the declared names: a constant for the code of every method,
a tag for every struct, a constant for the first key of a map, and the tag of the skeleton.
-/

namespace SmartContract

inductive SymbolOrigin where
  /-- The struct of the transaction being handled. -/
  | skeleton
  /-- The code of a method. -/
  | method (i : Nat)
  /-- The struct that a variable holds. -/
  | struct (i : Nat)
  /-- The value of the first key of a map. -/
  | map (i : Nat)
deriving DecidableEq, Repr

namespace SymbolOrigin

def pointer? : SymbolOrigin → Option Json.Pointer
  | skeleton => none
  | method i => some (Named.method i).pointer
  | struct i => some (Named.stateVariable i).pointer
  | map i => some (Named.item i .key1).pointer

/-- How messages say where the symbol comes from. -/
def text (o : SymbolOrigin) : String := (o.pointer?.map Json.Pointer.text).getD "(generated)"

def noun : SymbolOrigin → String
  | skeleton => "generated struct tag"
  | method _ => "method constant"
  | struct _ => "struct tag"
  | map _ => "map constant"

/-- Is the symbol a constant, which the compiler puts its value for wherever it stands? -/
def isConstant : SymbolOrigin → Bool
  | method _ | map _ => true
  | skeleton | struct _ => false

end SymbolOrigin

structure ProgramSymbol where
  origin : SymbolOrigin
  spelling : String
deriving DecidableEq, Repr

def Draft.symbols (d : Draft) : List ProgramSymbol :=
  ⟨.skeleton, Vocabulary.transactionTag⟩
    :: (d.methods.zipIdx.map fun (m, i) => ⟨.method i, Name.upper m.name⟩)
    ++ (d.stateVariables.zipIdx.filterMap fun (v, i) =>
      if v.type = .struct then some ⟨.struct i, Name.upper v.name⟩ else none)
    ++ d.maps.zipIdx.filterMap fun (m, i) =>
      if m.key1.value.isSome then some ⟨.map i, Name.mapConstant m.name m.key1.name⟩ else none

end SmartContract
