import SmartContract.Program.Line

/-!
What the lines of a program mean: the constants that they define, the functions that they start, and
the calls that the main function makes for a message. The choice goes on at the first label whose
value is the first word of the message, through further labels, until it is left.
-/

namespace SmartContract

namespace Line

/-- The constant that a line defines, with its value. -/
def definition? : Line → Option (String × Nat)
  | constant name value => some (name, value)
  | _ => none

/-- The function that a line starts, with its parameters. -/
def function? : Line → Option (String × List String)
  | functionStart name parameters => some (name, parameters)
  | _ => none

/-- The array that a line declares, with its size. -/
def array? : Line → Option (String × Nat)
  | arrayField name size => some (name, size)
  | _ => none

/-- The constant that a line labels a case with. -/
def label? : Line → Option String
  | choiceCase name => some name
  | _ => none

/-- The function that a line calls, with the number of arguments. -/
def callee? : Line → Option (String × Nat)
  | call function arguments => some (function, arguments)
  | _ => none

end Line

/-- A word of 64 bits. -/
abbrev Word := BitVec 64

/-- A message: as many words as the program reads. -/
abbrev Message := Vector Word Limit.messageWords

/-- A call of a function. -/
structure Call where
  function : String
  arguments : List Word
deriving DecidableEq, Repr

/-- Where the main function has got to. -/
inductive Phase where
  | outside
  /-- In the choice, before the label that matches. -/
  | choosing
  /-- In the choice, behind the label that matches. -/
  | chosen
  /-- In the choice, which has been left. -/
  | left
deriving DecidableEq, Repr

namespace Program

/-- The values of what lines say under the given name. -/
def under {α : Type} (said : Line → Option (String × α)) (ls : List Line) (name : String) :
    List α :=
  ((ls.filterMap said).filter (·.1 = name)).map (·.2)

/-- The value that the constant is defined with, if it is defined exactly once. -/
def word? (ls : List Line) (name : String) : Option Word :=
  match under Line.definition? ls name with
  | [value] => some (BitVec.ofNat 64 value)
  | _ => none

/-- The lines of the main function. -/
def mainBody (ls : List Line) : List Line :=
  (ls.dropWhile (· ≠ .functionStart "main" [])).tail.takeWhile (· ≠ .close 0)

/-- The labels of the choice in the main function. -/
def labels (ls : List Line) : List String := (mainBody ls).filterMap Line.label?

/-- What a line of the main function does for a message: where it leads, and the calls that it makes.
Of `value?` it takes the values of labels. -/
def step (value? : String → Option Word) (message : Message) :
    Phase → Line → Option (Phase × List Call)
  | .outside, .blank | .outside, .loopStart | .outside, .lookUpSender | .outside, .readMessage
  | .outside, .close _ => some (.outside, [])
  | .outside, .choiceStart => some (.choosing, [])
  | .choosing, .choiceCase name =>
    (value? name).map fun value => (if value = message[0] then .chosen else .choosing, [])
  | .choosing, .call .. | .choosing, .leave => some (.choosing, [])
  | .chosen, .choiceCase _ => some (.chosen, [])
  | .chosen, .call function arguments =>
    ((List.range arguments).mapM fun i => message[i + 1]?).map fun words =>
      (.chosen, [⟨function, words⟩])
  | .chosen, .leave => some (.left, [])
  | .left, .choiceCase _ | .left, .call .. | .left, .leave => some (.left, [])
  | .choosing, .close 2 | .chosen, .close 2 | .left, .close 2 => some (.outside, [])
  | _, _ => none

/-- What lines of the main function do one after another. -/
def run (value? : String → Option Word) (message : Message) :
    Phase → List Line → Option (Phase × List Call)
  | phase, [] => some (phase, [])
  | phase, l :: ls =>
    (step value? message phase l).bind fun (next, calls) =>
      (run value? message next ls).map fun (final, more) => (final, calls ++ more)

/-- The calls that the program makes for a message. -/
def calls? (ls : List Line) (message : Message) : Option (List Call) :=
  (run (word? ls) message .outside (mainBody ls)).map (·.2)

end Program

end SmartContract
