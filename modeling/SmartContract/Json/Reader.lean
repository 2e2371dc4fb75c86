import SmartContract.Json.Reader.Number
import SmartContract.Json.Reader.Quote

/-!
Reading JSON texts. A machine takes the octets one after another. It holds a frame for every array
and object that is open around the place where it reads, and what it is about to read there. `read`
runs it over a text and places what went wrong.
-/

namespace SmartContract.Json

/-- An array or object that is open around a value being read. -/
inductive Frame where
  /-- An array with the items before the value, in reverse. -/
  | array (items : List Json)
  /-- An object with the members before the value, in order, and the name of the value. -/
  | object (members : List (String × Json)) (key : String)

inductive Role where
  | value
  /-- It is the name of a member, behind the given members. -/
  | key (members : List (String × Json))

inductive Reading where
  /-- A value is due. -/
  | value
  /-- The first item of an array or its end is due. -/
  | firstItem
  /-- An item of an array is due, behind a comma. -/
  | nextItem
  /-- The first member of an object or its end is due. -/
  | firstMember
  /-- A member of an object is due, behind the given members and a comma. -/
  | nextMember (members : List (String × Json))
  /-- The colon behind the name of a member is due. -/
  | colon (members : List (String × Json)) (key : String)
  /-- A constant, of which the given characters are still to come. -/
  | constant (rest : List Char) (v : Json)
  | number (n : Numbering)
  | string (role : Role) (q : Quoting)
  | done (v : Json)

/-- The state of the machine between two octets. -/
structure State where
  /-- The arrays and objects that are open, the innermost first. -/
  frames : List Frame
  reading : Reading

/-- The number of arrays and objects that may not be open at once. -/
def depthLimit : Nat := 128

def isSpace (c : Char) : Bool := c = ' ' || c = '\t' || c = '\n' || c = '\r'

namespace State

def begin (frames : List Frame) (c : Char) : Except Finding State :=
  match c with
  | 'n' => .ok ⟨frames, .constant ['u', 'l', 'l'] .null⟩
  | 't' => .ok ⟨frames, .constant ['r', 'u', 'e'] (.bool true)⟩
  | 'f' => .ok ⟨frames, .constant ['a', 'l', 's', 'e'] (.bool false)⟩
  | '"' => .ok ⟨frames, .string .value (.plain [])⟩
  | '[' =>
    if frames.length + 1 < depthLimit then .ok ⟨.array [] :: frames, .firstItem⟩
    else .error Defect.tooDeep
  | '\x7b' =>
    if frames.length + 1 < depthLimit then .ok ⟨frames, .firstMember⟩
    else .error Defect.tooDeep
  | c =>
    match Numbering.start? c with
    | some n => .ok ⟨frames, .number n⟩
    | none => .error Defect.noValue

def follow (frames : List Frame) (v : Json) (c : Char) : Except Finding State :=
  if isSpace c then .ok ⟨frames, .done v⟩
  else
    match frames with
    | [] => .error Defect.trailingCharacters
    | .array items :: outer =>
      if c = ',' then .ok ⟨.array (v :: items) :: outer, .nextItem⟩
      else if c = ']' then .ok ⟨outer, .done (.array (v :: items).reverse)⟩
      else .error Defect.noComma
    | .object members key :: outer =>
      if c = ',' then .ok ⟨outer, .nextMember (insertMember key v members)⟩
      else if c = '\x7d' then .ok ⟨outer, .done (.object (insertMember key v members))⟩
      else .error Defect.noMemberComma

def step (s : State) (b : UInt8) : Except Finding State :=
  let c := Char.ofNat b.toNat
  match s.reading with
  | .value => if isSpace c then .ok s else begin s.frames c
  | .firstItem =>
    if isSpace c then .ok s
    else if c = ']' then .ok ⟨s.frames.tail, .done (.array [])⟩
    else begin s.frames c
  | .nextItem =>
    if isSpace c then .ok s
    else if c = ']' then .error Defect.trailingComma
    else begin s.frames c
  | .firstMember =>
    if isSpace c then .ok s
    else if c = '\x7d' then .ok ⟨s.frames, .done (.object [])⟩
    else if c = '"' then .ok ⟨s.frames, .string (.key []) (.plain [])⟩
    else .error Defect.noKey
  | .nextMember members =>
    if isSpace c then .ok s
    else if c = '\x7d' then .error Defect.trailingComma
    else if c = '"' then .ok ⟨s.frames, .string (.key members) (.plain [])⟩
    else .error Defect.noKey
  | .colon members key =>
    if isSpace c then .ok s
    else if c = ':' then .ok ⟨.object members key :: s.frames, .value⟩
    else .error Defect.noColon
  | .constant rest v =>
    match rest with
    | [] => follow s.frames v c
    | [d] => if c = d then .ok ⟨s.frames, .done v⟩ else .error Defect.noConstant
    | d :: rest => if c = d then .ok ⟨s.frames, .constant rest v⟩ else .error Defect.noConstant
  | .number n =>
    match n.step c with
    | .error finding => .error finding
    | .ok (some n) => .ok ⟨s.frames, .number n⟩
    | .ok none =>
      match n.finish with
      | .ok v => follow s.frames v c
      | .error defect => .error ⟨defect, 1⟩
  | .string role q =>
    match q.step b with
    | .error finding => .error finding
    | .ok (.inl q) => .ok ⟨s.frames, .string role q⟩
    | .ok (.inr text) =>
      match role with
      | .value => .ok ⟨s.frames, .done (.string text)⟩
      | .key members => .ok ⟨s.frames, .colon members text⟩
  | .done v => follow s.frames v c

/-- The value that has been read, if the text may end here. -/
def finish (s : State) : Except Defect Json :=
  let outside (v : Json) : Except Defect Json :=
    match s.frames with
    | [] => .ok v
    | .array _ :: _ => .error .endInArray
    | .object .. :: _ => .error .endInObject
  match s.reading with
  | .value | .nextItem | .nextMember _ => .error .endInValue
  | .firstItem => .error .endInArray
  | .firstMember | .colon .. => .error .endInObject
  | .constant .. => .error .endInValue
  | .number n => n.finish >>= outside
  | .string .. => .error .endInString
  | .done v => outside v

/-- Reads octets. The error holds the number of octets up to the defect, `count` of which came
before. -/
def run (s : State) (count : Nat) : List UInt8 → Except (Defect × Nat) State
  | [] => .ok s
  | b :: rest =>
    match s.step b with
    | .ok s => run s (count + 1) rest
    | .error finding => .error (finding.defect, count + 1 - finding.back)

end State

/-- The value that the octets of a JSON text stand for. -/
def read (text : List UInt8) : Except SyntaxError Json :=
  match State.run ⟨[], .value⟩ 0 text with
  | .error (defect, position) => .error ⟨defect, .after text position⟩
  | .ok s =>
    match s.finish with
    | .ok v => .ok v
    | .error defect => .error ⟨defect, .after text text.length⟩

def ofText (s : String) : Except SyntaxError Json := read (Text.utf8 s)

end SmartContract.Json
