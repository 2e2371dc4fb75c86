import SmartContract.Description.Draft
import SmartContract.Json.Pointer

/-!
The places of a description where something is named. A place says which names must differ from it
and whether its name comes to stand in the program. The names of a draft are listed, and so are
those of a JSON value that is no description, as far as it looks like one.
-/

namespace SmartContract

inductive MapPart where
  | key1
  | key2
  | value
deriving DecidableEq, Repr

namespace MapPart

def all : List MapPart := [key1, key2, value]

def key : MapPart → String
  | key1 => "key1"
  | key2 => "key2"
  | value => "value"

end MapPart

def Draft.KeyMap.part (m : Draft.KeyMap) : MapPart → Draft.Item
  | .key1 => m.key1
  | .key2 => m.key2
  | .value => m.value

/-- Names that must differ from each other. -/
inductive Scope where
  /-- The names of methods and variables. -/
  | program
  | arguments (i : Nat)
  | fields (i : Nat)
  | maps
  | entries (i : Nat) (part : MapPart)
  | transactions
deriving DecidableEq, Repr

def Scope.noun : Scope → String
  | program => "method/variable name"
  | arguments _ => "argument name"
  | fields _ => "field name"
  | maps => "map name"
  | entries .. => "enum entry name"
  | transactions => "transaction name"

/-- What a name is the name of. -/
inductive Named where
  | contract
  | method (i : Nat)
  | argument (i j : Nat)
  | stateVariable (i : Nat)
  | field (i j : Nat)
  | map (i : Nat)
  | item (i : Nat) (part : MapPart)
  | entry (i : Nat) (part : MapPart) (k : Nat)
  | transaction (i : Nat)
deriving DecidableEq, Repr

namespace Named

open Json (Pointer)

/-- Where a description holds the thing. -/
def holder : Named → Pointer
  | contract => []
  | method i => [.member "methods", .item i]
  | argument i j => [.member "methods", .item i, .member "args", .item j]
  | stateVariable i => [.member "variables", .item i]
  | field i j => [.member "variables", .item i, .member "fields", .item j]
  | map i => [.member "maps", .item i]
  | item i part => [.member "maps", .item i, .member part.key]
  | entry i part k => [.member "maps", .item i, .member part.key, .member "oneOf", .item k]
  | transaction i => [.member "transactions", .item i]

def key : Named → String
  | contract => "contractName"
  | _ => "name"

def pointer (n : Named) : Pointer := n.holder.member n.key

/-- The names from which its name must differ. -/
def scope? : Named → Option Scope
  | contract => none
  | method _ => some .program
  | argument i _ => some (.arguments i)
  | stateVariable _ => some .program
  | field i _ => some (.fields i)
  | map _ => some .maps
  | item .. => none
  | entry i part _ => some (.entries i part)
  | transaction _ => some .transactions

/-- Does the name come to stand in the program as it is? -/
def inProgram : Named → Bool
  | method _ | argument .. | stateVariable _ | field .. => true
  | _ => false

end Named

structure NameSite where
  named : Named
  name : String
deriving DecidableEq, Repr

/-- The names of a draft. Of the fields of a variable only those count that the program declares: a
field that is a struct is refused whatever it is called. -/
def Draft.nameSites (d : Draft) : List NameSite :=
  ⟨.contract, d.name⟩
    :: (d.methods.zipIdx.flatMap fun (m, i) =>
      ⟨.method i, m.name⟩ :: m.arguments.zipIdx.map fun (a, j) => ⟨.argument i j, a.name⟩)
    ++ (d.stateVariables.zipIdx.flatMap fun (v, i) =>
      ⟨.stateVariable i, v.name⟩
        :: v.structFields.filterMap fun (f, j) => f.typedName?.map fun t => ⟨.field i j, t.name⟩)
    ++ (d.maps.zipIdx.flatMap fun (m, i) =>
      ⟨.map i, m.name⟩
        :: MapPart.all.flatMap fun part =>
          ⟨.item i part, (m.part part).name⟩
            :: (m.part part).listed.zipIdx.map fun (e, k) => ⟨.entry i part k, e.name⟩)
    ++ d.transactions.zipIdx.map fun (t, i) => ⟨.transaction i, t.name⟩

namespace Json

def listed (key : String) (v : Json) : List (Json × Nat) :=
  ((v.get? key >>= items?).getD []).zipIdx

/-- The name of the thing that the value stands for, unless it has none or an empty one. -/
def nameSite (named : Named) (v : Json) : List NameSite :=
  match v.get? named.key >>= text? with
  | some name => if name = "" then [] else [⟨named, name⟩]
  | none => []

def nameSites (v : Json) : List NameSite :=
  v.nameSite .contract
    ++ ((v.listed "methods").flatMap fun (m, i) =>
      m.nameSite (.method i)
        ++ (m.listed "args").flatMap fun (a, j) => a.nameSite (.argument i j))
    ++ ((v.listed "variables").flatMap fun (w, i) =>
      w.nameSite (.stateVariable i)
        ++ (w.listed "fields").flatMap fun (f, j) => f.nameSite (.field i j))
    ++ ((v.listed "maps").flatMap fun (m, i) =>
      m.nameSite (.map i)
        ++ MapPart.all.flatMap fun part =>
          match m.get? part.key with
          | some item =>
            item.nameSite (.item i part)
              ++ (item.listed "oneOf").flatMap fun (e, k) => e.nameSite (.entry i part k)
          | none => [])
    ++ (v.listed "transactions").flatMap fun (t, i) => t.nameSite (.transaction i)

end Json

end SmartContract
