import SmartContract.Numeric.Double

/-!
JSON values. The members of an object stand in the order in which they are written; reading puts
them in the order of their names and keeps one of each name.
-/

namespace SmartContract

/-- A JSON value. A number is an integer if it is written without point and exponent and fits 64
bits, signed or unsigned, and a floating-point number otherwise. -/
inductive Json where
  | null
  | bool (b : Bool)
  | int (n : Int)
  | float (x : Double)
  | string (s : String)
  | array (items : List Json)
  | object (members : List (String × Json))

namespace Json

def get? (key : String) : Json → Option Json
  | .object members => members.lookup key
  | _ => none

def text? : Json → Option String
  | .string s => some s
  | _ => none

def bool? : Json → Option Bool
  | .bool b => some b
  | _ => none

def items? : Json → Option (List Json)
  | .array items => some items
  | _ => none

/-- The natural number that a number is, if it has no fraction and is not negative. -/
def natural? : Json → Option Nat
  | .int n => n.toNat?
  | .float x => x.integer?.bind Int.toNat?
  | _ => none

/-- Puts a member where its name belongs in a list that is ordered by name, in the place of the
member that has the same name. -/
def insertMember (key : String) (value : Json) :
    List (String × Json) → List (String × Json)
  | [] => [(key, value)]
  | (k, v) :: rest =>
    if key < k then (key, value) :: (k, v) :: rest
    else if key = k then (key, value) :: rest
    else (k, v) :: insertMember key value rest

def ofMembers (members : List (String × Json)) : Json :=
  .object (members.foldl (fun sorted m => insertMember m.1 m.2 sorted) [])

def optional (key : String) (value : Option Json) : List (String × Json) :=
  (value.map (key, ·)).toList

inductive Number where
  | int (n : Int)
  | float (x : Double)
deriving DecidableEq, Repr

def number? : Json → Option Number
  | .int n => some (.int n)
  | .float x => some (.float x)
  | _ => none

def Number.toJson : Number → Json
  | int n => .int n
  | float x => .float x

/-- The natural number up to `limit` that a number is taken for. A number without point and exponent
is taken whatever its size, and a limit is set to it later. -/
def Number.whole? (limit : Nat) : Number → Option Nat
  | int n => n.toNat?
  | float x => (x.integer?.bind Int.toNat?).filter (· ≤ limit)

end Json

end SmartContract
