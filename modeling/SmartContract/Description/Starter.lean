import SmartContract.Description.Basic
import SmartContract.FileTree
import SmartContract.Name

/-!
The description that a new contract starts from, and why it is not written to a file. It has a name
and settings, and nothing else yet.
-/

namespace SmartContract

namespace Description

def starterSettings : Settings :=
  { auxiliaryVariables := 3, optimizationLevel := 3, verboseAssembly := false, version := "2.3.0",
    codeStackPages := none, userStackPages := none }

/-- The amount that sets a new contract going, in the smallest unit: half a coin. -/
def starterAmount : Nat := 50000000

def starter (name : String) : Description :=
  { name, description := none, activationAmount := starterAmount, settings := starterSettings,
    methods := [], stateVariables := [], maps := [], transactions := [] }

def starter? (name : String) : Except Name.Defect Description :=
  match Name.defect? name with
  | none => .ok (starter name)
  | some defect => .error defect

end Description

inductive StartFailure where
  | badName (name : String) (defect : Name.Defect)
  | occupied (path : String)
  | unwritable (failure : WriteFailure)
deriving DecidableEq, Repr

def StartFailure.message : StartFailure → String
  | badName name defect => "invalid --name: " ++ defect.message name
  | occupied path => "refusing to overwrite existing file: " ++ path ++ " (pass --force)"
  | unwritable failure => failure.message

end SmartContract
