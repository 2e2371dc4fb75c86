import SmartContract.Description.Fault
import SmartContract.Vocabulary

/-!
What is wrong with names: a text that is no name, a name that is taken, a name that repeats another
of its scope. Codes and symbols repeat others in the same way.
-/

namespace SmartContract

/-- The elements that have the key of an earlier one, each with the first that has the key. -/
def repeats [BEq κ] (key : α → κ) (xs : List α) : List (α × α) :=
  let indexed := xs.zipIdx
  indexed.filterMap fun x =>
    match indexed.find? fun y => key y.1 == key x.1 with
    | some first => if first.2 < x.2 then some (x.1, first.1) else none
    | none => none

example : repeats (· % 10) [1, 2, 11, 12, 21] = [(11, 1), (12, 2), (21, 1)] := by decide

namespace NameSite

def badName (s : NameSite) : List Fault :=
  ((Name.defect? s.name).map fun defect => ⟨s.named.pointer, .badName s.name defect⟩).toList

/-- The fault that the name is taken, if the program needs it and it is. -/
def reservedName (s : NameSite) : List Fault :=
  if s.named.inProgram && Vocabulary.isReserved s.name then
    [⟨s.named.pointer, .reservedName s.name⟩]
  else []

def scoped? (s : NameSite) : Option (NameSite × Scope) := s.named.scope?.map (s, ·)

def repeatedNames (sites : List NameSite) : List Fault :=
  (repeats (fun s => (s.2, s.1.name)) (sites.filterMap scoped?)).map fun (s, first) =>
    ⟨s.1.named.pointer, .repeatedName s.2 s.1.name first.1.named.pointer⟩

def faults (sites : List NameSite) : List Fault :=
  sites.flatMap badName ++ sites.flatMap reservedName ++ repeatedNames sites

end NameSite

end SmartContract
