import SmartContract.Numeric.Numeral
import SmartContract.Vocabulary

/-!
The lines of a SmartC skeleton. A line is one of a few sorts, and each sort has one spelling: its
indentation and what follows it.
-/

namespace SmartContract

inductive Literal where
  /-- A number or a truth value. -/
  | plain (s : String)
  /-- A text, which is put in quotation marks as it is. -/
  | quoted (s : String)
deriving DecidableEq, Repr

def Literal.text : Literal → String
  | plain s => s
  | quoted s => "\"" ++ s ++ "\""

inductive Line where
  | blank
  | property (key value : String)
  | setting (key value : String)
  /-- A comment of its own. -/
  | comment (text : String)
  | constant (name : String) (value : Nat)
  /-- The declaration of a variable, with a remark behind it. -/
  | word (name : String) (literal : Option Literal) (remark : Option String)
  /-- The start of the struct with the given tag. -/
  | structStart (tag : String)
  | field (name : String)
  /-- A field that is an array of so many words. -/
  | arrayField (name : String) (size : Nat)
  /-- The end of a struct, which the variable holds. -/
  | structEnd (name : String)
  | functionStart (name : String) (parameters : List String)
  | loopStart
  | lookUpSender
  | readMessage
  /-- The start of the choice by the first word of the message. -/
  | choiceStart
  /-- The start of the case in which that word is the constant. -/
  | choiceCase (name : String)
  /-- A call with the next words of the message. -/
  | call (function : String) (arguments : Nat)
  | leave
  /-- The place of the body of a method. -/
  | body (method : String)
  /-- The end of what stands at the given level. -/
  | close (level : Nat)
deriving DecidableEq, Repr

namespace Line

def wordType : String := "long"

/-- A word of the message of the transaction being handled. -/
def messageWord (i : Nat) : String :=
  Vocabulary.currentTransaction ++ ".message[" ++ Numeral.text i ++ "]"

def level : Line → Nat
  | field _ | arrayField .. | body _ | loopStart => 1
  | lookUpSender | readMessage | choiceStart => 2
  | choiceCase _ => 3
  | call .. | leave => 4
  | close level => level
  | _ => 0

/-- What stands on a line behind the indentation. -/
def content : Line → String
  | blank => ""
  | property key value => "#program " ++ key ++ " " ++ value
  | setting key value => "#pragma " ++ key ++ " " ++ value
  | comment text => "// " ++ text
  | constant name value => "#define " ++ name ++ " " ++ Numeral.text value
  | word name literal remark =>
    wordType ++ " " ++ name ++ (literal.elim "" fun l => " = " ++ l.text) ++ ";"
      ++ remark.elim "" (" // " ++ ·)
  | structStart tag => "struct " ++ tag ++ " \x7b"
  | field name => wordType ++ " " ++ name ++ ";"
  | arrayField name size => wordType ++ " " ++ name ++ "[" ++ Numeral.text size ++ "];"
  | structEnd name => "\x7d " ++ name ++ ";"
  | functionStart name parameters =>
    "void " ++ name ++ "(" ++ String.intercalate ", " (parameters.map (wordType ++ " " ++ ·))
      ++ ") \x7b"
  | loopStart => "while ((" ++ Vocabulary.currentTransaction ++ ".txId = getNextTx()) != 0) \x7b"
  | lookUpSender =>
    Vocabulary.currentTransaction ++ ".sender = getSender(" ++ Vocabulary.currentTransaction
      ++ ".txId);"
  | readMessage =>
    "readMessage(" ++ Vocabulary.currentTransaction ++ ".txId, 0, "
      ++ Vocabulary.currentTransaction ++ ".message);"
  | choiceStart => "switch (" ++ messageWord 0 ++ ") \x7b"
  | choiceCase name => "case " ++ name ++ ":"
  | call function arguments =>
    function ++ "("
      ++ String.intercalate ", " ((List.range arguments).map fun i => messageWord (i + 1)) ++ ");"
  | leave => "break;"
  | body method => "// Implement " ++ method ++ " here"
  | close _ => "\x7d"

def indentation (level : Nat) : String := String.ofList (List.replicate (4 * level) ' ')

/-- A line as text, with the line feed at its end. -/
def text (l : Line) : String := indentation l.level ++ l.content ++ "\n"

end Line

end SmartContract
