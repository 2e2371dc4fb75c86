import SmartContract.Json.Basic
import SmartContract.Numeric.Numeral

/-!
Pointers into JSON values. A pointer is the way from a value to a part of it, and is written with a
slash before every step.
-/

namespace SmartContract.Json

inductive Step where
  | member (name : String)
  | item (index : Nat)
deriving DecidableEq, Repr

/-- How a character of a name is written in a pointer: the tilde and the slash are escaped. -/
def Step.escape (c : Char) : List Char :=
  if c = '~' then ['~', '0'] else if c = '/' then ['~', '1'] else [c]

def Step.text : Step → String
  | .member name => String.ofList (name.toList.flatMap escape)
  | .item index => Numeral.text index

def Step.resolve? (v : Json) : Step → Option Json
  | .member name => v.get? name
  | .item index => v.items? >>= (·[index]?)

/-- The way from a value to a part of it. -/
abbrev Pointer := List Step

namespace Pointer

def text (p : Pointer) : String := String.join (p.map fun step => "/" ++ step.text)

def resolve? (v : Json) : Pointer → Option Json
  | [] => some v
  | step :: rest => step.resolve? v >>= fun part => resolve? part rest

def member (p : Pointer) (name : String) : Pointer := p ++ [.member name]

def item (p : Pointer) (index : Nat) : Pointer := p ++ [.item index]

example : text [.member "a/b", .item 10] = "/a~1b/10" := by decide

end Pointer

end SmartContract.Json
