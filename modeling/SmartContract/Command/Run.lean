import SmartContract.Command.Plan

/-!
Running commands over a tree of files. The outcome and the tree afterwards depend on the command,
the tree before, the standard input and the bound on the size of inputs, and on nothing else.

Help is left out, and so is what is said about wrong arguments: arguments that ask for help
(`--help`, `-h` or `help`) call for no command here, and all that call for none come to one line on
usage and the exit code two.
-/

namespace SmartContract

def usage : String :=
  "usage: scdc lang-id | schema | check | layout | gen | fmt | init [options]\n"

def planLine [Monad m] (access : Access m) (arguments : List String) (setting : Option String) :
    m Plan :=
  match Command.ofArguments? arguments with
  | none => return .finish ⟨2, "", usage⟩
  | some command => command.plan access (Command.inputLimit setting)

structure Surroundings where
  standardInput : List UInt8
  limit : Nat

def FileTree.access (t : FileTree) (standardInput : List UInt8) : Access Id where
  standardInput := standardInput
  read := t.read

def Plan.perform (t : FileTree) : Plan → Outcome × FileTree
  | finish outcome => (outcome, t)
  | write path content done failed =>
    match t.write path content with
    | (written, .ok ()) => (done, written)
    | (left, .error failure) => (failed failure, left)

def Command.run (c : Command) (s : Surroundings) (t : FileTree) : Outcome × FileTree :=
  (Id.run (c.plan (t.access s.standardInput) s.limit)).perform t

/-- The outcome of a command line over a tree of files, and the tree afterwards. -/
def runLine (arguments : List String) (setting : Option String) (standardInput : List UInt8)
    (t : FileTree) : Outcome × FileTree :=
  (Id.run (planLine (t.access standardInput) arguments setting)).perform t

end SmartContract
