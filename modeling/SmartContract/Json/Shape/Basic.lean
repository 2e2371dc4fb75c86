import SmartContract.Json.Basic
import SmartContract.Numeric.Numeral

/-!
Shapes of JSON values. A shape is a condition on a value; most shapes restrict values of one kind
and let all others pass, so that the conditions on a value are told apart when it breaks several.
`Holds` says what a shape asks for.
-/

namespace SmartContract.Json

inductive Kind where
  | object
  | array
  | string
  | boolean
  | integer
deriving DecidableEq, Repr

def Kind.name : Kind → String
  | object => "object"
  | array => "array"
  | string => "string"
  | boolean => "boolean"
  | integer => "integer"

/-- Is the value of the kind? A number without fraction is an integer however it is written. -/
def Kind.includes : Kind → Json → Bool
  | object, .object _ => true
  | array, .array _ => true
  | string, .string _ => true
  | boolean, .bool _ => true
  | integer, .int _ => true
  | integer, .float x => x.integer?.isSome
  | _, _ => false

inductive TextForm where
  | digits
  /-- A letter or digit, and behind it letters, digits, points, underscores and hyphens. -/
  | version
deriving DecidableEq, Repr

def TextForm.pattern : TextForm → String
  | digits => "^[0-9]+$"
  | version => "^[0-9A-Za-z][0-9A-Za-z._-]*$"

def TextForm.accepts (f : TextForm) (s : String) : Bool :=
  match f, s.toList with
  | digits, chars => Numeral.isDigits chars
  | version, [] => false
  | version, c :: rest =>
    c.isAlphanum && rest.all fun d => d.isAlphanum || d = '.' || d = '_' || d = '-'

inductive Shape where
  | kind (k : Kind)
  | minLength (n : Nat)
  | maxLength (n : Nat)
  | form (f : TextForm)
  | minimum (n : Int)
  | maximum (n : Int)
  | oneOf (options : List String)
  | exactly (s : String)
  | maxItems (n : Nat)
  | items (s : Shape)
  | required (names : List String)
  | closed (names : List String)
  | member (name : String) (s : Shape)
  | both (s t : Shape)
  | either (s t : Shape)

namespace Shape

def isBelow (n : Int) : Json → Bool
  | .int m => m < n
  | .float x => x.ltInt n
  | _ => false

def isAbove (n : Int) : Json → Bool
  | .int m => n < m
  | .float x => x.gtInt n
  | _ => false

def Holds : Shape → Json → Prop
  | kind k, v => k.includes v = true
  | minLength n, v => ∀ s, v = .string s → n ≤ s.length
  | maxLength n, v => ∀ s, v = .string s → s.length ≤ n
  | form f, v => ∀ s, v = .string s → f.accepts s = true
  | minimum n, v => isBelow n v = false
  | maximum n, v => isAbove n v = false
  | oneOf options, v => ∃ s ∈ options, v = .string s
  | exactly s, v => v = .string s
  | maxItems n, v => ∀ xs, v = .array xs → xs.length ≤ n
  | items s, v => ∀ xs, v = .array xs → ∀ x ∈ xs, s.Holds x
  | required names, v => ∀ ms, v = .object ms → ∀ name ∈ names, name ∈ ms.map (·.1)
  | closed names, v => ∀ ms, v = .object ms → ∀ m ∈ ms, m.1 ∈ names
  | member name s, v => ∀ w, v.get? name = some w → s.Holds w
  | both s t, v => s.Holds v ∧ t.Holds v
  | either s t, v => s.Holds v ∨ t.Holds v

/-- The shape of the values that have all of the shapes, at least one of which is given. -/
def all (s : Shape) : List Shape → Shape
  | [] => s
  | t :: rest => s.both (all t rest)

def list (s : Shape) : Shape := all (kind .array) [items s]

/-- The shape of an object with the given members, of which some have to be there, and no others. -/
def record (needed : List String) (members : List (String × Shape)) : Shape :=
  all (kind .object) (closed (members.map (·.1)) :: required needed
    :: members.map fun m => member m.1 m.2)

end Shape

end SmartContract.Json
