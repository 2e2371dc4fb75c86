import SmartContract.Json.Basic
import SmartContract.Json.Reader.Defect

/-!
Diagnostics: what a command found, how grave it is, which stage of the work found it, and where.
They are ordered by pointer, then by code, then by message, each compared character by character.
Sorting keeps diagnostics that agree in all three as they stood.
-/

namespace SmartContract

inductive Severity where
  | error
  | warning
deriving DecidableEq, Repr

def Severity.name : Severity → String
  | error => "error"
  | warning => "warning"

inductive Stage where
  | parse
  | schema
  | semantic
  | codegen
  | io
deriving DecidableEq, Repr

def Stage.name : Stage → String
  | parse => "parse"
  | schema => "schema"
  | semantic => "semantic"
  | codegen => "codegen"
  | io => "io"

inductive Location where
  | document (pointer : String)
  /-- Between two places of a text. -/
  | text (start stop : Json.Place)

structure Diagnostic where
  /-- The code that tells findings of this sort from others. -/
  code : String
  severity : Severity
  stage : Stage
  message : String
  location : Option Location := none
  notes : List String := []
  /-- Further data, in the order of the names. -/
  data : List (String × Json) := []

namespace Diagnostic

/-- The pointer by which the finding is sorted: empty when it was found elsewhere than at one. -/
def sortPointer (d : Diagnostic) : String :=
  match d.location with
  | some (.document pointer) => pointer
  | _ => ""

def compare (d e : Diagnostic) : Ordering :=
  (Ord.compare d.sortPointer e.sortPointer).then
    ((Ord.compare d.code e.code).then (Ord.compare d.message e.message))

def isBefore (d e : Diagnostic) : Bool := d.compare e != .gt

def sort (ds : List Diagnostic) : List Diagnostic := ds.mergeSort isBefore

end Diagnostic

end SmartContract
