import SmartContract.Description.Draft.Faults
import SmartContract.Description.Transcript

/-!
The draft of a transcript. Texts that stand for types and kinds are looked up, and the numbers of the
settings are held to their limits. Where that fails there is a fault, and something else is taken so
that the draft can be looked at nevertheless. The form of a description leaves nothing to fail.
-/

namespace SmartContract.Transcript

open Json (Pointer)

/-! ### What is taken -/

def orElse (standIn : α) : Except Complaint α → α
  | .ok x => x
  | .error _ => standIn

def faultAt (p : Pointer) : Except Complaint α → List Fault
  | .ok _ => []
  | .error c => [⟨p, c⟩]

@[simp] theorem orElse_ok (standIn x : α) : orElse standIn (.ok x) = x := rfl

@[simp] theorem faultAt_ok (p : Pointer) (x : α) : faultAt p (.ok x) = [] := rfl

def lookUp (names : KnownNames) (ofName? : String → Option α) (text : String) :
    Except Complaint α :=
  match ofName? text with
  | some x => .ok x
  | none => .error (.unknownName names text)

def valueType : String → Except Complaint ValueType := lookUp .valueTypes ValueType.ofName?

def itemType : String → Except Complaint Scalar := lookUp .itemTypes Scalar.ofName?

def transactionKind : String → Except Complaint TransactionKind :=
  lookUp .transactionKinds TransactionKind.ofName?

/-- The value of a number of the settings, which has to fit an octet as well. -/
def setting (limit : Nat) (n : Json.Number) : Except Complaint Nat :=
  match n.whole? limit with
  | some k => if k < 256 ∧ k ≤ limit then .ok k else .error (.settingTooLarge limit)
  | none => .error (.noSetting limit n)

/-! ### The draft -/

/-- The type that is written, and numbers where it is unknown. -/
def valueTypeOrLong (text : String) : ValueType := orElse ⟨.long, false⟩ (valueType text)

def declaredType (text : String) : DeclaredType :=
  if text = Form.structWord then .struct else .value (valueTypeOrLong text)

def declaredItemType (text : String) : DeclaredItemType :=
  if text = Form.enumerationWord then .enumeration else .scalar (orElse .long (itemType text))

def Settings.toDraft (s : Settings) : SmartContract.Settings :=
  let number (limit : Nat) (n : Json.Number) : Nat := orElse 0 (setting limit n)
  { auxiliaryVariables := number Limit.auxiliaryVariables s.auxiliaryVariables
    optimizationLevel := number Limit.optimizationLevel s.optimizationLevel
    verboseAssembly := s.verboseAssembly
    version := s.version
    codeStackPages := s.codeStackPages.map (number Limit.stackPages)
    userStackPages := s.userStackPages.map (number Limit.stackPages) }

def TypedName.toArgument (a : TypedName) : SmartContract.TypedName :=
  ⟨a.name, valueTypeOrLong a.type⟩

def TypedName.toField (f : TypedName) : Draft.Field := ⟨f.name, declaredType f.type⟩

def Method.toDraft (m : Method) : Draft.Method :=
  ⟨m.name, m.description, m.code, m.arguments.map TypedName.toArgument⟩

def Variable.toDraft (v : Variable) : Draft.Variable :=
  ⟨v.name, declaredType v.type, v.description, v.constant, v.initializable, v.value,
    v.fields.map (·.map TypedName.toField)⟩

def Item.toDraft (item : Item) : Draft.Item :=
  ⟨item.name, item.description, item.type.map declaredItemType, item.constant, item.value,
    item.entries⟩

def KeyMap.toDraft (m : KeyMap) : Draft.KeyMap :=
  ⟨m.name, m.description, m.key1.toDraft, m.key2.toDraft, m.value.toDraft⟩

def Transaction.toDraft (t : Transaction) : SmartContract.Transaction :=
  ⟨t.name, t.description, orElse .message (transactionKind t.kind)⟩

def toDraft (t : Transcript) : Draft :=
  ⟨t.name, t.description, t.activationAmount, t.settings.toDraft, t.methods.map Method.toDraft,
    t.stateVariables.map Variable.toDraft, t.maps.map KeyMap.toDraft,
    t.transactions.map Transaction.toDraft⟩

/-! ### What cannot be taken -/

def Settings.faults (s : Settings) : List Fault :=
  let number (key : String) (limit : Nat) (n : Json.Number) : List Fault :=
    faultAt [.member "pragmas", .member key] (setting limit n)
  number "maxAuxVars" Limit.auxiliaryVariables s.auxiliaryVariables
    ++ number "optimizationLevel" Limit.optimizationLevel s.optimizationLevel
    ++ s.codeStackPages.toList.flatMap (number "codeStackPages" Limit.stackPages)
    ++ s.userStackPages.toList.flatMap (number "userStackPages" Limit.stackPages)

def Method.faults (m : Method) (i : Nat) : List Fault :=
  m.arguments.zipIdx.flatMap fun (a, j) =>
    faultAt ((Named.argument i j).holder.member "type") (valueType a.type)

def Variable.faults (v : Variable) (i : Nat) : List Fault :=
  if v.type = Form.structWord then
    (v.fields.getD []).zipIdx.flatMap fun (f, j) =>
      if f.type = Form.structWord then []
      else faultAt ((Named.field i j).holder.member "type") (valueType f.type)
  else faultAt ((Named.stateVariable i).holder.member "type") (valueType v.type)

def Item.entryFaults (item : Item) (p : Pointer) : List Fault :=
  if (item.entries.getD []).length ≤ Limit.entries then [] else [⟨p.member "oneOf", .tooManyEntries⟩]

def Item.faults (item : Item) (p : Pointer) : List Fault :=
  match item.type with
  | some text =>
    if text = Form.enumerationWord then item.entryFaults p
    else faultAt (p.member "type") (itemType text)
  | none => item.entryFaults p

def KeyMap.part (m : KeyMap) : MapPart → Item
  | .key1 => m.key1
  | .key2 => m.key2
  | .value => m.value

def KeyMap.faults (m : KeyMap) (i : Nat) : List Fault :=
  MapPart.all.flatMap fun part => (m.part part).faults (Named.item i part).holder

def Transaction.faults (t : Transaction) (i : Nat) : List Fault :=
  faultAt ((Named.transaction i).holder.member "kind") (transactionKind t.kind)

/-- Everything in a transcript that something else is taken for. -/
def faults (t : Transcript) : List Fault :=
  t.settings.faults
    ++ (t.methods.zipIdx.flatMap fun (m, i) => m.faults i)
    ++ (t.stateVariables.zipIdx.flatMap fun (v, i) => v.faults i)
    ++ (t.maps.zipIdx.flatMap fun (m, i) => m.faults i)
    ++ t.transactions.zipIdx.flatMap fun (t, i) => t.faults i

end SmartContract.Transcript
