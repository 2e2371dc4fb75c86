import SmartContract.Description.Transcript.Draft
import SmartContract.Description.Transcript.Json
import SmartContract.Json.Reader
import SmartContract.Json.Shape

/-!
Which JSON values are descriptions. A value is accepted when nothing is wrong with it; otherwise
everything that is wrong is reported at once. Of a value that does not have the form, the names are
looked at as well.
-/

namespace SmartContract

inductive Refusal where
  | notJson (error : Json.SyntaxError)
  /-- It stands for a JSON value with the given faults. -/
  | faulty (faults : List Fault)

namespace Description

def formFaults (v : Json) : List Fault :=
  (Form.description.violations [] v).map fun x => ⟨x.pointer, .form x.lack⟩

/-- The description that a value stands for, or all of its faults in their order. -/
def ofJson (v : Json) : Except (List Fault) Description :=
  match formFaults v with
  | [] =>
    match Transcript.ofJson? v with
    | none => .error [⟨[], .noDraft⟩]
    | some transcript =>
      match transcript.faults ++ transcript.toDraft.faults with
      | [] => .ok transcript.toDraft.toDescription
      | faults => .error (Fault.sort faults)
  | faults => .error (Fault.sort (faults ++ NameSite.faults v.nameSites))

def read (text : List UInt8) : Except Refusal Description :=
  match Json.read text with
  | .error e => .error (.notJson e)
  | .ok v => (ofJson v).mapError .faulty

end Description

namespace Refusal

def message : Refusal → String
  | notJson e =>
    "invalid JSON: " ++ e.message ++ " (line " ++ Numeral.text e.place.line ++ ", col "
      ++ Numeral.text e.place.column ++ ")"
  | faulty faults =>
    "invalid SCD (" ++ Numeral.text faults.length ++ " error(s))"
      ++ String.join (faults.map fun f => "\n  " ++ f.display)

def diagnostics : Refusal → List Diagnostic
  | notJson e =>
    [{ code := "SCD-PARSE-0001", severity := .error, stage := .parse, message := e.message,
       location := some (.text e.place e.place) }]
  | faulty faults => faults.map Fault.diagnostic

end Refusal

end SmartContract
