import SmartContract.Command
import SmartContract.Command.Outcome
import SmartContract.Description.Advice
import SmartContract.Description.Form.Published
import SmartContract.Description.Json
import SmartContract.Description.Slots
import SmartContract.Program
import SmartContract.Sha256

/-!
What commands do. A command reads its input and may read its output; what it then does is a plan:
either it is finished, or it writes one file and the outcome depends on whether that succeeds.
-/

namespace SmartContract

/-- The ways in which a command gets at what it reads. -/
structure Access (m : Type → Type) where
  standardInput : m (List UInt8)
  read : String → m (Except Obstacle (List UInt8))

/-- What remains to be done when everything has been read. -/
inductive Plan where
  | finish (outcome : Outcome)
  /-- A file is to be written; the outcomes are those of success and failure. -/
  | write (path : String) (content : List UInt8) (done : Outcome) (failed : WriteFailure → Outcome)

namespace Command

/-- The most octets of an input: the number to which the variable is set, if it is one other than
zero. -/
def inputLimit (setting : Option String) : Nat :=
  ((setting.bind Numeral.word?).filter (· ≠ 0)).getD Limit.inputOctets

/-- The failure to read an input. A directory can be opened and then not read. -/
def inputFailure (path : String) (obstacle : Obstacle) : ReadFailure :=
  if obstacle = .isDirectory then .reading path obstacle else .opening path obstacle

def bounded (limit : Nat) (path : String) (content : List UInt8) :
    Except Failure (List UInt8) :=
  if content.length ≤ limit then .ok content else .error (.unreadable (.tooLarge path limit))

def readInput [Monad m] (access : Access m) (limit : Nat) (path : String) :
    m (Except Failure (List UInt8)) := do
  if path = "-" then return bounded limit path (← access.standardInput)
  match ← access.read path with
  | .ok content => return bounded limit path content
  | .error obstacle => return .error (.unreadable (inputFailure path obstacle))

def readDescription [Monad m] (access : Access m) (limit : Nat) (path : String) :
    m (Except Failure (List UInt8 × Description)) := do
  match ← readInput access limit path with
  | .error failure => return .error failure
  | .ok content =>
    match Description.read content with
    | .ok d => return .ok (content, d)
    | .error refusal => return .error (.refused path refusal)

def advice (d : Description) : List Diagnostic := d.advice.map Advice.diagnostic

def checkReport (content : List UInt8) : Report × Nat :=
  match Description.read content with
  | .ok d => ((Report.empty.withDiagnostics (advice d)).withFact "contract" (.string d.name), 0)
  | .error refusal => (Report.empty.withDiagnostics refusal.diagnostics, 1)

def slotsVersion : String := "scdc.layout@0.1.0"

def slotJson (s : Slot) : Json :=
  .object [("name", .string s.name), ("type", .string s.type.name), ("index", .int s.index)]

def slotsJson (d : Description) : Json :=
  .object [("schema_version", .string slotsVersion), ("contract", .string d.name),
    ("entries", .array (d.slots.map slotJson))]

def programBytes (d : Description) : List UInt8 := Text.utf8 d.code

def formattedBytes (d : Description) : List UInt8 := Text.utf8 d.toJson.pretty

/-- The facts that are reported with a program: the digests of the description and of the program,
and the file. -/
def programFacts (d : Description) (out : String) : List (String × Json) :=
  [("description_sha256", .string (Sha256.text (Text.utf8 d.toJson.compact))),
   ("out", .string out),
   ("output_sha256", .string (Sha256.text (programBytes d)))]

def planCheck [Monad m] (access : Access m) (limit : Nat) (input : String) (reportJson : Bool) :
    m Plan := do
  match ← readInput access limit input with
  | .error failure => return .finish (failure.outcome "check" input reportJson)
  | .ok content =>
    let (report, exitCode) := checkReport content
    let printed :=
      if reportJson then commandReport "check" input report.diagnostics report.facts exitCode
      else report.toJson
    return .finish ⟨exitCode, Outcome.line printed, ""⟩

def planLayout [Monad m] (access : Access m) (limit : Nat) (input : String) : m Plan := do
  match ← readDescription access limit input with
  | .error failure => return .finish (failure.outcome "layout" input false)
  | .ok (_, d) => return .finish (.success (Outcome.line (slotsJson d)))

def planPrint [Monad m] (access : Access m) (limit : Nat) (input : String) : m Plan := do
  match ← readDescription access limit input with
  | .error failure => return .finish (failure.outcome "gen" input false)
  | .ok (_, d) => return .finish ⟨0, d.code, Outcome.warnings (advice d)⟩

def programOutcome (d : Description) (input out : String) (reportJson : Bool) : Outcome :=
  if reportJson then
    .success (Outcome.line (commandReport "gen" input (advice d) (programFacts d out) 0))
  else ⟨0, "", Outcome.warnings (advice d)⟩

def planWrite (d : Description) (input out : String) (reportJson : Bool) : Plan :=
  .write out (programBytes d) (programOutcome d input out reportJson) fun failure =>
    (Failure.unwritable failure).outcome "gen" input reportJson

/-- Compares the program with what a file holds; a file that is not there holds something else. -/
def compareProgram (d : Description) (input out : String) (reportJson : Bool)
    (held : Except Obstacle (List UInt8)) : Outcome :=
  let failure? : Option Failure :=
    match held with
    | .error .missing => some (.stale out (advice d) (programFacts d out))
    | .error obstacle => some (.unreadable (.reading out obstacle))
    | .ok content =>
      if content = programBytes d then none
      else some (.stale out (advice d) (programFacts d out))
  match failure? with
  | some failure => failure.outcome "gen" input reportJson
  | none => programOutcome d input out reportJson

def planGenerate [Monad m] (access : Access m) (limit : Nat) (input : String)
    (out : Option String) (write compared reportJson : Bool) : m Plan := do
  let fail (failure : Failure) : m Plan := return .finish (failure.outcome "gen" input reportJson)
  if write && compared then
    fail (.options .writeAndCheck)
  else
    match out with
    | none =>
      if write || compared || reportJson then
        fail (.options .noOut)
      else planPrint access limit input
    | some out =>
      match ← readDescription access limit input with
      | .error failure => fail failure
      | .ok (_, d) =>
        if compared then return .finish (compareProgram d input out reportJson (← access.read out))
        else return planWrite d input out reportJson

def formattedOutcome (input : String) (reportJson : Bool) : Outcome :=
  .success (if reportJson then Outcome.line (commandReport "fmt" input [] [] 0) else "")

def planFormat [Monad m] (access : Access m) (limit : Nat) (input : String)
    (compared write reportJson : Bool) : m Plan := do
  let fail (failure : Failure) : m Plan := return .finish (failure.outcome "fmt" input reportJson)
  if compared = write then
    fail (.options .notOneOfBoth)
  else if write && input = "-" then
    fail (.options .writeToStandardInput)
  else
    match ← readDescription access limit input with
    | .error failure => fail failure
    | .ok (content, d) =>
      if content = formattedBytes d then return .finish (formattedOutcome input reportJson)
      else if compared then fail (.unformatted input)
      else
        return .write input (formattedBytes d) (formattedOutcome input reportJson) fun failure =>
          (Failure.unwritable failure).outcome "fmt" input reportJson

def isThere : Except Obstacle (List UInt8) → Bool
  | .ok _ | .error .isDirectory => true
  | .error _ => false

def planStart [Monad m] (access : Access m) (name out : String) (force : Bool) : m Plan := do
  match Description.starter? name with
  | .error defect => return .finish (StartFailure.badName name defect).outcome
  | .ok d =>
    if isThere (← access.read out) && !force then
      return .finish (StartFailure.occupied out).outcome
    else
      return .write out (formattedBytes d) (.success "") fun failure =>
        (StartFailure.unwritable failure).outcome

def plan [Monad m] (access : Access m) (limit : Nat) : Command → m Plan
  | languageId => return .finish (.success (SmartContract.languageId ++ "\n"))
  | form => return .finish (.success Form.published)
  | check input reportJson => planCheck access limit input reportJson
  | layout input => planLayout access limit input
  | generate input out write compared reportJson =>
    planGenerate access limit input out write compared reportJson
  | format input compared write reportJson =>
    planFormat access limit input compared write reportJson
  | start name out force => planStart access name out force

end Command

end SmartContract
