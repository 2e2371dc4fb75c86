/-!
The types of values, and the kinds of transactions, with the names by which a description calls
them. A name is looked up among the names of all types, so that it can mean one only.
-/

namespace SmartContract

inductive Scalar where
  | address
  | boolean
  | string
  | long
  | amount
  | transactionId
deriving DecidableEq, Repr

namespace Scalar

def all : List Scalar := [address, boolean, string, long, amount, transactionId]

def name : Scalar → String
  | address => "address"
  | boolean => "boolean"
  | string => "string"
  | long => "long"
  | amount => "amount"
  | transactionId => "txId"

def ofName? (s : String) : Option Scalar := all.find? (·.name == s)

@[simp] theorem ofName?_name (t : Scalar) : ofName? t.name = some t := by
  cases t <;> decide

end Scalar

/-- The type of an argument, a field or a variable: a single value or an array of them. -/
structure ValueType where
  /-- The type of the value or of the items. -/
  scalar : Scalar
  isArray : Bool
deriving DecidableEq, Repr

namespace ValueType

/-- The types of arguments, fields and variables, the single values first. -/
def all : List ValueType := (Scalar.all.map (⟨·, false⟩)) ++ Scalar.all.map (⟨·, true⟩)

def name (t : ValueType) : String :=
  if t.isArray then t.scalar.name ++ "[]" else t.scalar.name

def ofName? (s : String) : Option ValueType := all.find? (·.name == s)

@[simp] theorem ofName?_name (t : ValueType) : ofName? t.name = some t := by
  rcases t with ⟨_ | _ | _ | _ | _ | _, _ | _⟩ <;> decide

end ValueType

inductive TransactionKind where
  | amount
  | amountAndMessage
  | message
  | quantity
  | quantityAndAmount
deriving DecidableEq, Repr

namespace TransactionKind

def all : List TransactionKind := [amount, amountAndMessage, message, quantity, quantityAndAmount]

def name : TransactionKind → String
  | amount => "sendAmount"
  | amountAndMessage => "sendAmountAndMessage"
  | message => "sendMessage"
  | quantity => "sendQuantity"
  | quantityAndAmount => "sendQuantityAndAmount"

def ofName? (s : String) : Option TransactionKind := all.find? (·.name == s)

@[simp] theorem ofName?_name (k : TransactionKind) : ofName? k.name = some k := by
  cases k <;> decide

end TransactionKind

end SmartContract
