import SmartContract.Description.NameSite
import SmartContract.Description.Symbol
import SmartContract.Vocabulary

/-!
The rules that a description has to keep besides having its form. They are stated twice: for a JSON
value, where they speak of its members, and for a draft. A rule does not mention faults, nor in
which order or how often anything is looked at.
-/

namespace SmartContract

/-- The texts that a variable of the type can be declared with: a truth value, eight characters
without marks of their own, or a number of 64 bits that may have a plus sign. -/
def Scalar.Admits : Scalar → String → Prop
  | .boolean, s => s = "true" ∨ s = "false"
  | .string, s => s.length ≤ 8 ∧ ∀ c ∈ s.toList, ' ' ≤ c ∧ c ≤ '~' ∧ c ≠ '"' ∧ c ≠ '\\'
  | .address, s | .long, s | .amount, s | .transactionId, s =>
    ∃ digits, (s.toList = digits ∨ s.toList = '+' :: digits) ∧ Numeral.isDigits digits = true ∧
      Numeral.valueFrom 0 digits < Numeral.wordLimit

/-- The rules for names: each is a name, none that the program needs is taken, and names of one
scope differ. -/
structure NameSite.Lawful (sites : List NameSite) : Prop where
  isName : ∀ s ∈ sites, Name.IsName s.name
  unreserved : ∀ s ∈ sites, s.named.inProgram = true → Vocabulary.isReserved s.name = false
  distinct : (sites.filterMap fun s => s.named.scope?.map (·, s.name)).Nodup

namespace Json

/-! ### Rules for values -/

/-- The text that is the member of the given name, and the empty text if there is none. -/
def textOf (key : String) (v : Json) : String := (v.get? key >>= text?).getD ""

/-- The items of the array that is the member of the given name, and no items if there is none. -/
def itemsOf (key : String) (v : Json) : List Json := (v.get? key >>= items?).getD []

/-- Is the member of the given name there, and is it true? -/
def flagOf (key : String) (v : Json) : Bool := (v.get? key >>= bool?).getD false

/-- The items of the maps of a value. -/
def mapItems (v : Json) : List Json :=
  (v.itemsOf "maps").flatMap fun m => MapPart.all.filterMap fun part => m.get? part.key

/-- The numbers of a key or the value of a map that are written as texts of digits. -/
def itemNumerals (i : Json) : List String :=
  (i.get? "value" >>= text?).toList ++ (i.itemsOf "oneOf").map (textOf "value")

/-- The numbers of a value that are written as texts of digits. -/
def numerals (v : Json) : List String :=
  v.textOf "activationAmount" :: (v.itemsOf "methods").map (textOf "code")
    ++ v.mapItems.flatMap itemNumerals

/-- The codes of the methods of a value. -/
def codes (v : Json) : List Nat := (v.itemsOf "methods").map fun m => Numeral.value (m.textOf "code")

/-- The tags of structs in the program for a value. -/
def tags (v : Json) : List String :=
  Vocabulary.transactionTag
    :: ((v.itemsOf "variables").filter (textOf "type" · = Form.structWord)).map
      fun w => Name.upper (w.textOf "name")

/-- The constants of the program for a value: one for every method, and one for every map whose first
key has a value. -/
def constants (v : Json) : List String :=
  (v.itemsOf "methods").map (fun m => Name.upper (m.textOf "name"))
    ++ (v.itemsOf "maps").filterMap fun m =>
      (m.get? MapPart.key1.key).bind fun key =>
        (key.get? "value").map fun _ => Name.mapConstant (m.textOf "name") (key.textOf "name")

/-- The rules for a variable. Only a struct has fields; it has some, and none of them is a struct. A
constant that is not set at deployment has a value of its type, which is neither a struct nor an
array. -/
structure VariableLawful (w : Json) : Prop where
  fields : w.textOf "type" = Form.structWord →
    w.itemsOf "fields" ≠ [] ∧ ∀ f ∈ w.itemsOf "fields", f.textOf "type" ≠ Form.structWord
  noFields : w.textOf "type" ≠ Form.structWord → w.get? "fields" = none
  literal : w.flagOf "constant" = true → w.flagOf "initializable" = false →
    ∃ (t : Scalar) (s : String), w.textOf "type" = t.name ∧ w.get? "value" = some (.string s) ∧
      t.Admits s

/-- The rules for a key or the value of a map. An enumeration has entries, and only an enumeration
has them, which may leave its type out. What is always the same has a value. -/
structure ItemLawful (i : Json) : Prop where
  entries : i.textOf "type" = Form.enumerationWord ∨ i.get? "type" = none ∧ i.get? "oneOf" ≠ none →
    i.itemsOf "oneOf" ≠ []
  noEntries : ∀ t : Scalar, i.textOf "type" = t.name → i.get? "oneOf" = none
  value : i.flagOf "constant" = true → i.get? "value" ≠ none

/-- The rules for a value of the form of a description. -/
structure Lawful (v : Json) : Prop where
  names : NameSite.Lawful v.nameSites
  symbols : (v.tags ++ v.constants).Nodup
  unshadowed : ∀ s ∈ v.nameSites, s.named.inProgram = true → s.name ∉ v.constants
  numerals : ∀ s ∈ v.numerals, Numeral.value s < Numeral.wordLimit
  codes : ∀ n ∈ v.codes, 1 ≤ n ∧ n ≤ Numeral.signedMax
  distinctCodes : v.codes.Nodup
  arguments : ∀ m ∈ v.itemsOf "methods", (m.itemsOf "args").length ≤ 3
  stateVariables : ∀ w ∈ v.itemsOf "variables", w.VariableLawful
  items : ∀ i ∈ v.mapItems, i.ItemLawful
  oneLine : '\n' ∉ (v.textOf "description").toList ∧ '\r' ∉ (v.textOf "description").toList

end Json

namespace Draft

/-! ### Names of a draft, part by part -/

/-- The names of a method and its arguments. -/
def Method.sites (m : Method) (i : Nat) : List NameSite :=
  ⟨.method i, m.name⟩ :: m.arguments.zipIdx.map fun (a, j) => ⟨.argument i j, a.name⟩

def Variable.sites (v : Variable) (i : Nat) : List NameSite :=
  ⟨.stateVariable i, v.name⟩
    :: v.structFields.filterMap fun (f, j) => f.typedName?.map fun t => ⟨.field i j, t.name⟩

def Item.sites (item : Item) (i : Nat) (part : MapPart) : List NameSite :=
  ⟨.item i part, item.name⟩ :: item.listed.zipIdx.map fun (e, k) => ⟨.entry i part k, e.name⟩

def KeyMap.sites (m : KeyMap) (i : Nat) : List NameSite :=
  ⟨.map i, m.name⟩ :: MapPart.all.flatMap fun part => (m.part part).sites i part

theorem nameSites_eq_sites (d : Draft) :
    d.nameSites = ⟨.contract, d.name⟩
      :: (d.methods.zipIdx.flatMap fun (m, i) => m.sites i)
      ++ (d.stateVariables.zipIdx.flatMap fun (v, i) => v.sites i)
      ++ (d.maps.zipIdx.flatMap fun (m, i) => m.sites i)
      ++ d.transactions.zipIdx.map fun (t, i) => ⟨.transaction i, t.name⟩ := rfl

/-! ### Rules for drafts -/

def mapItems (d : Draft) : List Item := d.maps.flatMap fun m => MapPart.all.map m.part

theorem forall_mem_mapItems_iff {d : Draft} {p : Item → Prop} :
    (∀ i ∈ d.mapItems, p i) ↔ ∀ m ∈ d.maps, ∀ part, p (m.part part) := by
  simp only [mapItems, List.forall_mem_flatMap, List.forall_mem_map]
  exact forall₂_congr fun m _ => ⟨fun h part => h part (by cases part <;> decide),
    fun h part _ => h part⟩

/-- The numbers of a key or the value of a map that are written as texts of digits, apart from those
that it does not mean. -/
def Item.numerals (i : Item) : List String := i.value.toList ++ i.listed.map (·.value)

/-- The numbers of a draft that are written as texts of digits. -/
def numerals (d : Draft) : List String :=
  d.activationAmount :: d.methods.map (·.code) ++ d.mapItems.flatMap Item.numerals

def tags (d : Draft) : List String :=
  Vocabulary.transactionTag
    :: (d.stateVariables.filter (·.type = .struct)).map fun v => Name.upper v.name

/-- The constants of the program for a draft. -/
def constants (d : Draft) : List String :=
  d.methods.map (fun m => Name.upper m.name)
    ++ d.maps.filterMap fun m => m.key1.value.map fun _ => Name.mapConstant m.name m.key1.name

structure Variable.Lawful (v : Variable) : Prop where
  fields : v.type = .struct → v.fields.getD [] ≠ [] ∧ ∀ f ∈ v.fields.getD [], f.type ≠ .struct
  noFields : v.type ≠ .struct → v.fields = none
  literal : v.constant = true → v.initializable = false →
    ∃ t s, v.type = .value ⟨t, false⟩ ∧ v.value = some s ∧ t.Admits s

structure Item.Lawful (i : Item) : Prop where
  entries : i.type = some .enumeration ∨ i.type = none ∧ i.entries ≠ none → i.entries.getD [] ≠ []
  noEntries : ∀ t, i.type = some (.scalar t) → i.entries = none
  value : i.constant = true → i.value ≠ none

/-- The rules for a draft. -/
structure Lawful (d : Draft) : Prop where
  names : NameSite.Lawful d.nameSites
  symbols : (d.tags ++ d.constants).Nodup
  unshadowed : ∀ s ∈ d.nameSites, s.named.inProgram = true → s.name ∉ d.constants
  numerals : ∀ s ∈ d.numerals, Numeral.value s < Numeral.wordLimit
  codes : ∀ m ∈ d.methods, 1 ≤ Numeral.value m.code ∧ Numeral.value m.code ≤ Numeral.signedMax
  distinctCodes : (d.methods.map fun m => Numeral.value m.code).Nodup
  arguments : ∀ m ∈ d.methods, m.arguments.length ≤ 3
  stateVariables : ∀ v ∈ d.stateVariables, v.Lawful
  items : ∀ i ∈ d.mapItems, i.Lawful
  oneLine : '\n' ∉ (d.description.getD "").toList ∧ '\r' ∉ (d.description.getD "").toList

end Draft

end SmartContract
