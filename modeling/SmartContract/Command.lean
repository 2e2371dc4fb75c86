/-!
The commands of the tool, and the command lines that call for them. The name of the command comes
first, and options follow in any order, each at most once. An option that takes a value has it in
the next argument or behind an equals sign.

Asking for help (`--help`, `-h` or `help`) is left out: arguments that do so call for no command
here.
-/

namespace SmartContract

/-- A command with its options. Inputs and outputs are paths; the input `-` is the standard
input. -/
inductive Command where
  | languageId
  | form
  /-- Reports what is wrong with a description, and what the program does not take over. -/
  | check (input : String) (reportJson : Bool)
  | layout (input : String)
  /-- Prints the program, writes it to a file, or compares it with one. -/
  | generate (input : String) (out : Option String) (write compared reportJson : Bool)
  /-- Writes a description back in its one form, or compares it with that. -/
  | format (input : String) (compared write reportJson : Bool)
  | start (name out : String) (force : Bool)
deriving DecidableEq, Repr

/-! ### Command lines -/

inductive OptionKind where
  | flag
  | text
  /-- A path, which is not empty. -/
  | path
deriving DecidableEq, Repr

/-- The options that are given, by their names. Flags have empty values. -/
abbrev GivenOptions := List (String × String)

def OptionKind.takes (kind : OptionKind) (value : String) : Bool :=
  match kind with
  | .flag => false
  | .text => true
  | .path => value ≠ ""

namespace Command

def splitOption? (argument : String) : Option (String × Option String) :=
  match argument.toList with
  | '-' :: '-' :: rest =>
    let name := String.ofList (rest.takeWhile (· ≠ '='))
    match rest.dropWhile (· ≠ '=') with
    | [] => some (name, none)
    | _ :: value => some (name, some (String.ofList value))
  | _ => none

/-- Can the argument be the value of the option before it? One that looks like an option can not;
a hyphen alone does not look like one. -/
def isValue (argument : String) : Bool :=
  match argument.toList with
  | ['-'] => true
  | '-' :: _ => false
  | _ => true

/-- The options that arguments give, one after another. Two hyphens may end the arguments. -/
def readOptions (known : List (String × OptionKind)) : List String → Option GivenOptions
  | [] => some []
  | argument :: rest => do
    let (name, attached) ← splitOption? argument
    if name = "" && attached.isNone && rest.isEmpty then return []
    let kind ← known.lookup name
    if kind = .flag then
      guard attached.isNone
      return (name, "") :: (← readOptions known rest)
    match attached with
    | some value =>
      guard (kind.takes value)
      return (name, value) :: (← readOptions known rest)
    | none =>
      match rest with
      | [] => none
      | value :: others =>
        guard (isValue value && kind.takes value)
        return (name, value) :: (← readOptions known others)

def options (known : List (String × OptionKind)) (arguments : List String) :
    Option GivenOptions :=
  (readOptions known arguments).filter fun given => (given.map (·.1)).Nodup

def ofArguments? : List String → Option Command
  | "lang-id" :: rest => do
    let _ ← options [] rest
    return languageId
  | "schema" :: rest => do
    let _ ← options [] rest
    return form
  | "check" :: rest => do
    let given ← options [("input", .path), ("report-json", .flag)] rest
    return check (← given.lookup "input") (given.lookup "report-json").isSome
  | "layout" :: rest => do
    let given ← options [("input", .path)] rest
    return layout (← given.lookup "input")
  | "gen" :: rest => do
    let given ← options [("input", .path), ("out", .path), ("write", .flag), ("check", .flag),
      ("report-json", .flag)] rest
    return generate (← given.lookup "input") (given.lookup "out") (given.lookup "write").isSome
      (given.lookup "check").isSome (given.lookup "report-json").isSome
  | "fmt" :: rest => do
    let given ← options [("input", .path), ("check", .flag), ("write", .flag),
      ("report-json", .flag)] rest
    return format (← given.lookup "input") (given.lookup "check").isSome
      (given.lookup "write").isSome (given.lookup "report-json").isSome
  | "init" :: rest => do
    let given ← options [("name", .text), ("out", .path), ("force", .flag)] rest
    return start (← given.lookup "name") (← given.lookup "out") (given.lookup "force").isSome
  | _ => none

example : ofArguments? ["check", "--input=-", "--report-json"] = some (check "-" true) := by
  decide +kernel
example : ofArguments? ["init", "--name", "-x", "--out", "y"] = none := by decide +kernel
example : ofArguments? ["layout", "--input", "a", "--input", "b"] = none := by decide +kernel

end Command

end SmartContract
