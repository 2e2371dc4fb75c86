import SmartContract.Text.Quoted

/-!
Names of what a description declares, and the names of constants made from them.
-/

namespace SmartContract.Name

inductive Defect where
  | empty
  /-- It starts with neither a letter nor an underscore. -/
  | badStart
  /-- It goes on with something other than letters, digits and underscores. -/
  | badCharacter
deriving DecidableEq, Repr

/-- May a name start with the character? Only the letters without accents count. -/
def isStart (c : Char) : Bool := c.isAlpha || c = '_'

def isPart (c : Char) : Bool := c.isAlphanum || c = '_'

def defect? (s : String) : Option Defect :=
  match s.toList with
  | [] => some .empty
  | c :: rest =>
    if !isStart c then some .badStart else if !rest.all isPart then some .badCharacter else none

/-- Is the text a name? -/
@[irreducible]
def IsName (s : String) : Prop :=
  match s.toList with
  | [] => False
  | c :: rest => isStart c = true ∧ ∀ d ∈ rest, isPart d = true

/-- A text has no defect exactly when it is a name. -/
theorem defect?_eq_none_iff {s : String} : defect? s = none ↔ IsName s := by
  unfold defect? IsName
  cases s.toList with
  | nil => simp
  | cons c rest => cases hc : isStart c <;> cases hr : rest.all isPart <;> simp_all

def Defect.message (s : String) : Defect → String
  | .empty => "name must be non-empty"
  | .badStart => "invalid name start (must be [A-Za-z_]): " ++ Text.quoted s
  | .badCharacter => "invalid name char (allowed [A-Za-z0-9_]): " ++ Text.quoted s

/-- A name in capitals; letters with accents stay as they are. -/
def upper (s : String) : String := String.ofList (s.toList.map Char.toUpper)

def mapConstant (map key : String) : String := "MAP_" ++ upper map ++ "_" ++ upper key

example : mapConstant "testMap" "key1" = "MAP_TESTMAP_KEY1" := by decide

end SmartContract.Name
