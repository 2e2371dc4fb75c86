import SmartContract.Json.Pointer
import SmartContract.Json.Shape.Basic
import SmartContract.Json.Writer

/-!
What is wrong with a value that does not have a shape, and how it is said.
-/

namespace SmartContract.Json.Shape

inductive Lack where
  | kind (v : Json) (k : Kind)
  | minLength (v : Json) (n : Nat)
  | maxLength (v : Json) (n : Nat)
  | form (v : Json) (f : TextForm)
  | minimum (v : Json) (n : Int)
  | maximum (v : Json) (n : Int)
  | oneOf (v : Json) (options : List String)
  | exactly (v : Json) (s : String)
  | maxItems (v : Json) (n : Nat)
  | required (name : String)
  | closed (names : List String)
  | either (v : Json)

def counted (n : Nat) (noun : String) : String :=
  Numeral.text n ++ " " ++ noun ++ if n = 1 then "" else "s"

/-- Texts in quotation marks, of which the first two are shown and the others counted. -/
def options : List String → String
  | a :: b :: rest =>
    (Json.string a).compact ++ ", " ++ (Json.string b).compact ++ " or " ++ Numeral.text rest.length
      ++ " other candidates"
  | few => String.join (few.map fun s => (Json.string s).compact)

def Lack.message : Lack → String
  | kind v k => v.compact ++ " is not of type \"" ++ k.name ++ "\""
  | minLength v n => v.compact ++ " is shorter than " ++ counted n "character"
  | maxLength v n => v.compact ++ " is longer than " ++ counted n "character"
  | form v f => v.compact ++ " does not match \"" ++ f.pattern ++ "\""
  | minimum v n => v.compact ++ " is less than the minimum of " ++ (Json.int n).compact
  | maximum v n => v.compact ++ " is greater than the maximum of " ++ (Json.int n).compact
  | oneOf v texts => v.compact ++ " is not one of " ++ options texts
  | exactly _ s => (Json.string s).compact ++ " was expected"
  | maxItems v n => v.compact ++ " has more than " ++ counted n "item"
  | required name => (Json.string name).compact ++ " is a required property"
  | closed names =>
    "Additional properties are not allowed ("
      ++ String.intercalate ", " (names.map fun name => "'" ++ name ++ "'")
      ++ (if names.length = 1 then " was" else " were") ++ " unexpected)"
  | either v => v.compact ++ " is not valid under any of the schemas listed in the 'anyOf' keyword"

structure Violation where
  pointer : Pointer
  lack : Lack

end SmartContract.Json.Shape
