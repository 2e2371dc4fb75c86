import SmartContract.Description.Acceptance
import SmartContract.Description.Starter
import SmartContract.Json.Writer
import SmartContract.Report

/-!
What commands come to: what is printed, and the exit code. A command can print a report on its
input, as a line of JSON. A failure has a cause, which is printed as a line of text or, on request,
as a report.
-/

namespace SmartContract

structure Outcome where
  exitCode : Nat
  output : String
  /-- What goes to the standard error output. -/
  errors : String
deriving DecidableEq, Repr

namespace Outcome

def success (output : String) : Outcome := ⟨0, output, ""⟩

def line (v : Json) : String := v.compact ++ "\n"

def warnings (ds : List Diagnostic) : String :=
  String.join ((ds.filter (·.severity = .warning)).map fun d =>
    "warning[" ++ d.code ++ "]: " ++ d.message ++ "\n")

end Outcome

def commandReportVersion : String := "scdc.report@0.1.0"

def commandReport (command input : String) (ds : List Diagnostic) (facts : List (String × Json))
    (exitCode : Nat) : Json :=
  .object ([("schema_version", .string commandReportVersion), ("command", .string command),
    ("ok", .bool (exitCode = 0)), ("in", .string input), ("diagnostics_count", .int ds.length)]
      ++ (if ds.isEmpty then [] else [("diagnostics", .array (ds.map Diagnostic.toJson))])
      ++ (if facts.isEmpty then [] else [("meta", .object facts)])
      ++ [("exit_code", .int exitCode)])

/-! ### Failures -/

inductive OptionConflict where
  | writeAndCheck
  /-- An option needs a file for the program. -/
  | noOut
  /-- A description is to be both written and compared, or neither. -/
  | notOneOfBoth
  | writeToStandardInput
deriving DecidableEq, Repr

def OptionConflict.message : OptionConflict → String
  | writeAndCheck => "set at most one of --check or --write"
  | noOut =>
    "--write, --check and --report-json require --out "
      ++ "(otherwise stdout would be the generated code)"
  | notOneOfBoth => "set exactly one of --check or --write"
  | writeToStandardInput => "--write needs a file --input"

/-- The variable of the environment that bounds the size of inputs. -/
def limitVariable : String := "SCDC_MAX_INPUT_BYTES"

inductive ReadFailure where
  | opening (path : String) (obstacle : Obstacle)
  | reading (path : String) (obstacle : Obstacle)
  | tooLarge (path : String) (limit : Nat)
deriving DecidableEq, Repr

def ReadFailure.message : ReadFailure → String
  | opening path obstacle => "open: " ++ path ++ ": " ++ obstacle.message
  | reading path obstacle => "read: " ++ path ++ ": " ++ obstacle.message
  | tooLarge path limit =>
    "input too large: " ++ path ++ " exceeds " ++ Numeral.text limit ++ " bytes ("
      ++ limitVariable ++ ")"

inductive Failure where
  | options (conflict : OptionConflict)
  | unreadable (failure : ReadFailure)
  | unwritable (failure : WriteFailure)
  /-- The input is no description. -/
  | refused (input : String) (refusal : Refusal)
  /-- The file does not hold the program. -/
  | stale (out : String) (advice : List Diagnostic) (facts : List (String × Json))
  | unformatted (input : String)

namespace Failure

/-- The exit code: one when the comparison with a file fails, and two otherwise. -/
def exitCode : Failure → Nat
  | stale .. | unformatted _ => 1
  | options _ | unreadable _ | unwritable _ | refused .. => 2

def message : Failure → String
  | options conflict => conflict.message
  | unreadable failure => failure.message
  | unwritable failure => failure.message
  | refused input refusal => input ++ ": " ++ refusal.message
  | stale out .. => "generated code is out of date: " ++ out
  | unformatted input => "file is not formatted: " ++ input

def error (f : Failure) (code : String) (stage : Stage) : Diagnostic :=
  { code, severity := .error, stage, message := f.message }

def diagnostics (f : Failure) : List Diagnostic :=
  match f with
  | options _ => [f.error "SCDC-CLI-ARGS-0001" .parse]
  | unreadable _ => [f.error "SCDC-IO-READ-0001" .io]
  | unwritable _ => [f.error "SCDC-IO-WRITE-0001" .io]
  | refused _ refusal => refusal.diagnostics
  | stale _ advice _ => advice ++ [f.error "SCDC-GEN-0001" .codegen]
  | unformatted _ => [f.error "SCDC-FMT-0001" .parse]

def facts : Failure → List (String × Json)
  | stale _ _ facts => facts
  | _ => []

def outcome (f : Failure) (command input : String) (reportJson : Bool) : Outcome :=
  if reportJson then
    ⟨f.exitCode, Outcome.line (commandReport command input f.diagnostics f.facts f.exitCode), ""⟩
  else ⟨f.exitCode, "", f.message ++ "\n"⟩

end Failure

def StartFailure.outcome (f : StartFailure) : Outcome := ⟨2, "", f.message ++ "\n"⟩

end SmartContract
