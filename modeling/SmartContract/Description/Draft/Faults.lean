import SmartContract.Description.NameSite.Faults

/-!
What is wrong with a draft. The rules look at the draft one by one and do not see each other's
faults, so that none hides another.
-/

namespace SmartContract

def Scalar.takes (t : Scalar) (s : String) : Bool :=
  match t with
  | .boolean => s = "true" || s = "false"
  | .string =>
    s.toList.length ≤ Limit.literalOctets
      && s.toList.all fun c => 0x20 ≤ c.toNat && c.toNat < 0x7F && c ≠ '"' && c ≠ '\\'
  | .address | .long | .amount | .transactionId => (Numeral.word? s).isSome

namespace Draft

open Json (Pointer)

/-- The fault that a number does not fit 64 bits, if it does not. -/
def tooLarge (p : Pointer) (numeral : String) : List Fault :=
  if Numeral.value numeral < Numeral.wordLimit then [] else [⟨p, .tooLarge numeral⟩]

def isCode (n : Nat) : Bool := 0 < n && n ≤ Numeral.signedMax

def codePointer (i : Nat) : Pointer := (Named.method i).holder.member "code"

def Method.faults (m : Method) (i : Nat) : List Fault :=
  let code := Numeral.value m.code
  tooLarge (codePointer i) m.code
    ++ (if isCode code then [] else [⟨codePointer i, .codeOutOfRange⟩])
    ++ if m.arguments.length ≤ Limit.arguments then []
      else [⟨(Named.method i).holder.member "args", .tooManyArguments m.arguments.length⟩]

/-- The codes that methods have, with their indices; those out of range do not count. -/
def codes (d : Draft) : List (Nat × Nat) :=
  d.methods.zipIdx.filterMap fun (m, i) =>
    if isCode (Numeral.value m.code) then some (Numeral.value m.code, i) else none

def repeatedCodes (d : Draft) : List Fault :=
  (repeats (·.1) d.codes).map fun (c, first) =>
    ⟨codePointer c.2, .repeatedCode c.1 (codePointer first.2)⟩

def Variable.structFaults (v : Variable) (p : Pointer) : List Fault :=
  match v.type, v.fields with
  | .struct, fields =>
    (if (fields.getD []).isEmpty then [⟨p, .noFields⟩] else [])
      ++ v.structFields.filterMap fun (f, j) =>
        if f.type = .struct then some ⟨((p.member "fields").item j).member "type", .nestedStruct⟩
        else none
  | .value _, some _ => [⟨p.member "fields", .fieldsWithoutStruct⟩]
  | .value _, none => []

def Variable.literalFaults (v : Variable) (p : Pointer) : List Fault :=
  if v.constant && !v.initializable then
    match v.type with
    | .struct => [⟨p, .noLiteralType⟩]
    | .value type =>
      if type.isArray then [⟨p, .noLiteralType⟩]
      else
        match v.value with
        | none => [⟨p, .noLiteral⟩]
        | some s => if type.scalar.takes s then [] else [⟨p.member "value", .badLiteral s type⟩]
  else []

def Variable.faults (v : Variable) (i : Nat) : List Fault :=
  let p := (Named.stateVariable i).holder
  v.structFaults p ++ v.literalFaults p

def Item.entryFaults (item : Item) (p : Pointer) : List Fault :=
  match item.type, item.entries with
  | some (.scalar _), some _ => [⟨p.member "oneOf", .entriesWithoutEnumeration⟩]
  | some (.scalar _), none => []
  | none, none => []
  | _, entries => if (entries.getD []).isEmpty then [⟨p, .noEntries⟩] else []

def Item.faults (item : Item) (p : Pointer) : List Fault :=
  item.entryFaults p
    ++ (item.listed.zipIdx.flatMap fun (e, k) =>
      tooLarge (((p.member "oneOf").item k).member "value") e.value)
    ++ ((item.value.map (tooLarge (p.member "value"))).getD [])
    ++ if item.constant && item.value.isNone then [⟨p, .noItemValue⟩] else []

def KeyMap.faults (m : KeyMap) (i : Nat) : List Fault :=
  MapPart.all.flatMap fun part => (m.part part).faults (Named.item i part).holder

def repeatedSymbols (d : Draft) : List Fault :=
  (repeats (·.spelling) d.symbols).map fun (s, first) =>
    ⟨s.origin.pointer?.getD [], .repeatedSymbol s.origin s.spelling first.origin⟩

/-- The fault that a name is spelled like a constant, if it is. Of several symbols of one spelling
the first counts. -/
def shadowedName (symbols : List ProgramSymbol) (s : NameSite) : List Fault :=
  match symbols.find? (·.spelling == s.name) with
  | some symbol =>
    if s.named.inProgram && symbol.origin.isConstant then
      [⟨s.named.pointer, .shadowedName s.name symbol.origin⟩]
    else []
  | none => []

def severalLines (d : Draft) : List Fault :=
  if (d.description.getD "").toList.any fun c => c = '\n' || c = '\r' then
    [⟨[.member "description"], .severalLines⟩]
  else []

def faults (d : Draft) : List Fault :=
  NameSite.faults d.nameSites
    ++ d.repeatedSymbols
    ++ d.nameSites.flatMap (shadowedName d.symbols)
    ++ d.severalLines
    ++ tooLarge [.member "activationAmount"] d.activationAmount
    ++ (d.methods.zipIdx.flatMap fun (m, i) => m.faults i)
    ++ d.repeatedCodes
    ++ (d.stateVariables.zipIdx.flatMap fun (v, i) => v.faults i)
    ++ d.maps.zipIdx.flatMap fun (m, i) => m.faults i

end Draft

end SmartContract
