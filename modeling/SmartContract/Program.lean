import SmartContract.Description.Basic
import SmartContract.Name
import SmartContract.Program.Line
import SmartContract.Text.Blank

/-!
The skeleton of a program for a description: its properties and settings, the constants, the state,
the loop that takes each transaction to its method, and a function to be filled in for every method.
Texts of the description come to stand in comments and in the properties only.
-/

namespace SmartContract

def Method.constant (m : Method) : String := Name.upper m.name

/-- A description on one line, unless it is blank. -/
def remark? (description : Option String) : Option String :=
  (description.map Text.oneLine).filter (· ≠ "")

/-- The value with which the variable is declared, as it is written. -/
def Variable.initial? (v : Variable) : Option Literal :=
  v.literal?.map fun s =>
    if v.valueType?.map (·.scalar) = some .string then .quoted s else .plain s

/-- The lines under a heading, with a blank line behind them; no lines have no heading. -/
def titled (heading : String) (lines : List Line) : List Line :=
  if lines.isEmpty then [] else .comment heading :: lines ++ [.blank]

def Variable.structLines (v : Variable) : List Line :=
  ((remark? v.description).map Line.comment).toList
    ++ .structStart (Name.upper v.name)
    :: v.fields.map (fun f => .field f.name) ++ [.structEnd v.name]

def Method.functionLines (m : Method) : List Line :=
  ((m.description.map Text.filledLines).getD []).map .comment
    ++ [.functionStart m.name (m.arguments.map (·.name)), .body m.name, .close 0]

def Method.caseLines (m : Method) : List Line :=
  [.choiceCase m.constant, .call m.name m.arguments.length, .leave]

namespace Description

def properties (d : Description) : List Line :=
  .property "name" d.name
    :: (((d.description.map Text.trim).filter (· ≠ "")).map (.property "description")).toList
    ++ [.property "activationAmount" (Numeral.text d.activationAmount), .blank]

def settingLines (d : Description) : List Line :=
  d.settings.entries.map (fun (key, value) => .setting key value) ++ [.blank]

def codeLines (d : Description) : List Line :=
  titled "Magic codes for methods" (d.methods.map fun m => .constant m.constant m.code)

/-- The constants for the first keys of the maps. -/
def keyLines (d : Description) : List Line :=
  titled "Map keys"
    (d.maps.filterMap fun m => m.key1.value.map (.constant (Name.mapConstant m.name m.key1.name)))

def wordLines (d : Description) : List Line :=
  titled "State variables"
    (d.values.map fun v => .word v.name v.initial? (remark? v.description))

def structLines (d : Description) : List Line :=
  titled "Structs" (d.structs.flatMap Variable.structLines)

/-- The struct of the transaction being handled. -/
def transactionLines : List Line :=
  [.comment "Current transaction", .structStart Vocabulary.transactionTag, .field "txId",
   .field "sender", .arrayField "message" Limit.messageWords,
   .structEnd Vocabulary.currentTransaction, .blank]

def choiceLines (d : Description) : List Line :=
  if d.methods.isEmpty then []
  else .blank :: .choiceStart :: d.methods.flatMap Method.caseLines ++ [.close 2]

def mainLines (d : Description) : List Line :=
  [.functionStart "main" [], .loopStart, .lookUpSender, .readMessage] ++ d.choiceLines
    ++ [.close 1, .close 0]

def functionLines (d : Description) : List Line :=
  if d.methods.isEmpty then []
  else
    .blank :: .comment "Method stubs"
      :: ((d.methods.map Method.functionLines).intersperse [.blank]).flatten

def program (d : Description) : List Line :=
  d.properties ++ d.settingLines ++ d.codeLines ++ d.keyLines ++ d.wordLines ++ d.structLines
    ++ transactionLines ++ d.mainLines ++ d.functionLines

def code (d : Description) : String := String.join (d.program.map Line.text)

end Description

end SmartContract
