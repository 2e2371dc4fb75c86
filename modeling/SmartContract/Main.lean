import SmartContract.Command.Run

/-!
The command line: runs a command on the files of the system.
-/

namespace SmartContract

/-- What an error of the system stands for. Its number can come with either sign. -/
def Obstacle.ofError (e : IO.Error) : Obstacle :=
  match e with
  | .noFileOrDirectory .. => .missing
  | .alreadyExists .. => .taken
  | .inappropriateType _ code _ =>
    if code = 21 ∨ code = 0 - 21 then .isDirectory else .notDirectory
  | .invalidArgument _ code _ =>
    if code = 36 ∨ code = 0 - 36 then .tooLong else .other (toString e)
  | e => .other (toString e)

def readFile (path : String) : IO (Except Obstacle (List UInt8)) := do
  match ← (IO.FS.readBinFile path).toBaseIO with
  | .ok content => return .ok content.toList
  | .error e => return .error (.ofError e)

def systemAccess : Access IO where
  standardInput := return (← (← IO.getStdin).readBinToEnd).toList
  read := readFile

/-- Makes a directory where there is none, and first those that lead to it. The paths are given
with the innermost directory first. -/
def makeSystemDirectories : List String → IO (Except Obstacle Unit)
  | [] => return .ok ()
  | path :: outer => do
    let make : IO (Except Obstacle Unit) := do
      match ← (IO.FS.createDir path).toBaseIO with
      | .ok () => return .ok ()
      | .error e =>
        let obstacle := Obstacle.ofError e
        let tolerated := obstacle = .taken && (← readFile path) matches .error .isDirectory
        return if tolerated then .ok () else .error obstacle
    match ← make with
    | .error .missing =>
      match ← makeSystemDirectories outer with
      | .ok () => make
      | .error obstacle => return .error obstacle
    | result => return result

def writeSystemFile (path : String) (content : List UInt8) : IO (Except WriteFailure Unit) := do
  let directories := Path.directories path
  match ← makeSystemDirectories directories with
  | .error obstacle => return .error (.directory (directories.headD "") obstacle)
  | .ok () =>
    match ← (IO.FS.writeBinFile path ⟨content.toArray⟩).toBaseIO with
    | .ok () => return .ok ()
    | .error e => return .error (.file path (.ofError e))

def Plan.performInSystem : Plan → IO Outcome
  | finish outcome => return outcome
  | write path content done failed => do
    match ← writeSystemFile path content with
    | .ok () => return done
    | .error failure => return failed failure

def runInSystem (arguments : List String) : IO Outcome := do
  let setting ← IO.getEnv limitVariable
  (← planLine systemAccess arguments setting).performInSystem

end SmartContract

def main (arguments : List String) : IO UInt32 := do
  let outcome ← SmartContract.runInSystem arguments
  (← IO.getStdout).putStr outcome.output
  (← IO.getStderr).putStr outcome.errors
  return outcome.exitCode.toUInt32
