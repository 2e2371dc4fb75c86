import SmartContract.Description.Draft
import SmartContract.Proofs.Json.Record
import SmartContract.Proofs.Numeric.Double

/-!
Which JSON values are spellings of which drafts. The relations go through a draft from its texts to
the whole, one for each kind of thing. A value has the form of a description exactly when it is the
spelling of a draft, and that draft is then read from it.
-/

namespace SmartContract

/-- How the type of a variable or a field is written. -/
def DeclaredType.name : DeclaredType → String
  | value type => type.name
  | struct => Form.structWord

/-- How the type of a key or the value of a map is written. -/
def DeclaredItemType.name : DeclaredItemType → String
  | scalar type => type.name
  | enumeration => Form.enumerationWord

theorem ValueType.name_injective {t u : ValueType} (h : t.name = u.name) : t = u :=
  Option.some.inj (by rw [← ofName?_name t, h, ofName?_name])

theorem Scalar.name_injective {t u : Scalar} (h : t.name = u.name) : t = u :=
  Option.some.inj (by rw [← ofName?_name t, h, ofName?_name])

theorem ValueType.name_ne_structWord (t : ValueType) : t.name ≠ Form.structWord := by
  rcases t with ⟨_ | _ | _ | _ | _ | _, _ | _⟩ <;> decide

theorem Scalar.name_ne_enumerationWord (t : Scalar) : t.name ≠ Form.enumerationWord := by
  cases t <;> decide

theorem Scalar.name_ne_empty (t : Scalar) : t.name ≠ "" := by
  cases t <;> decide

theorem DeclaredType.name_eq_structWord_iff {t : DeclaredType} :
    t.name = Form.structWord ↔ t = .struct := by
  cases t with
  | struct => simp [name]
  | value type => simp [name, ValueType.name_ne_structWord]

theorem DeclaredType.name_eq_scalar_iff {t : DeclaredType} {s : Scalar} :
    t.name = s.name ↔ t = .value ⟨s, false⟩ := by
  cases t with
  | struct => simpa [name] using ((⟨s, false⟩ : ValueType).name_ne_structWord ·.symm)
  | value type =>
    rw [value.injEq]
    exact ⟨fun h => ValueType.name_injective h, fun h => h ▸ rfl⟩

theorem DeclaredItemType.name_injective {t u : DeclaredItemType} (h : t.name = u.name) : t = u := by
  cases t with
  | enumeration =>
    cases u with
    | enumeration => rfl
    | scalar u => exact absurd h.symm u.name_ne_enumerationWord
  | scalar t =>
    cases u with
    | enumeration => exact absurd h t.name_ne_enumerationWord
    | scalar u => exact congrArg scalar (Scalar.name_injective h)

theorem DeclaredItemType.name_ne_empty (t : DeclaredItemType) : t.name ≠ "" := by
  cases t with
  | enumeration => decide
  | scalar t => exact t.name_ne_empty

namespace Json

/-! ### Texts, flags, numbers and types -/

/-- The value is the text. -/
def IsText (v : Json) (s : String) : Prop := v = .string s

/-- The value is the text, which is not empty. -/
def IsName (v : Json) (s : String) : Prop := v = .string s ∧ 1 ≤ s.length

/-- The value is the text, which has the form. -/
def IsForm (f : TextForm) (v : Json) (s : String) : Prop := v = .string s ∧ f.accepts s = true

/-- The value is the text, which is not too long to say what a contract is for. -/
def IsRemark (v : Json) (s : String) : Prop := v = .string s ∧ s.length ≤ 320

def IsFlag (v : Json) (b : Bool) : Prop := v = .bool b

/-- The value is a number without fraction, namely `n`, which is at most `limit`. -/
def IsUpTo (limit : Nat) (v : Json) (n : Nat) : Prop := v.natural? = some n ∧ n ≤ limit

def IsValueType (v : Json) (t : ValueType) : Prop := v = .string t.name

/-- The value is what is written for the type. -/
def IsDeclaredType (v : Json) (t : DeclaredType) : Prop := v = .string t.name

/-- The value is what is written for the type. -/
def IsItemType (v : Json) (t : DeclaredItemType) : Prop := v = .string t.name

def IsKind (v : Json) (k : TransactionKind) : Prop := v = .string k.name

/-- The value has the flag as a member, or it has no such member and the flag is not set. -/
def HasFlag (v : Json) (key : String) (b : Bool) : Prop :=
  ∃ o, v.MayHave key IsFlag o ∧ b = o.getD false

/-! ### Records -/

/-- The value spells the settings. -/
structure IsSettings (v : Json) (s : Settings) : Prop where
  record : v.IsRecord ["maxAuxVars", "optimizationLevel", "verboseAssembly", "version",
    "codeStackPages", "userStackPages"]
  auxiliaryVariables : v.Has "maxAuxVars" (IsUpTo Limit.auxiliaryVariables) s.auxiliaryVariables
  optimizationLevel : v.Has "optimizationLevel" (IsUpTo Limit.optimizationLevel) s.optimizationLevel
  verboseAssembly : v.Has "verboseAssembly" IsFlag s.verboseAssembly
  version : v.Has "version" (IsForm .version) s.version
  codeStackPages : v.MayHave "codeStackPages" (IsUpTo Limit.stackPages) s.codeStackPages
  userStackPages : v.MayHave "userStackPages" (IsUpTo Limit.stackPages) s.userStackPages

structure IsArgument (v : Json) (a : TypedName) : Prop where
  record : v.IsRecord ["name", "type"]
  name : v.Has "name" IsName a.name
  type : v.Has "type" IsValueType a.type

structure IsField (v : Json) (f : Draft.Field) : Prop where
  record : v.IsRecord ["name", "type"]
  name : v.Has "name" IsName f.name
  type : v.Has "type" IsDeclaredType f.type

structure IsMethod (v : Json) (m : Draft.Method) : Prop where
  record : v.IsRecord ["name", "description", "code", "args"]
  name : v.Has "name" IsName m.name
  description : v.MayHave "description" IsText m.description
  code : v.Has "code" (IsForm .digits) m.code
  arguments : v.Has "args" (Lists IsArgument) m.arguments

structure IsVariable (v : Json) (w : Draft.Variable) : Prop where
  record : v.IsRecord ["name", "type", "description", "constant", "initializable", "value",
    "fields"]
  name : v.Has "name" IsName w.name
  type : v.Has "type" IsDeclaredType w.type
  description : v.MayHave "description" IsText w.description
  constant : v.HasFlag "constant" w.constant
  initializable : v.HasFlag "initializable" w.initializable
  value : v.MayHave "value" IsText w.value
  fields : v.MayHave "fields" (Lists IsField) w.fields

structure IsEntry (v : Json) (e : Draft.Entry) : Prop where
  record : v.IsRecord ["name", "value"]
  name : v.Has "name" IsName e.name
  value : v.Has "value" (IsForm .digits) e.value

/-- The value spells the entries, which are not too many. -/
def IsEntries (v : Json) (es : List Draft.Entry) : Prop :=
  Lists IsEntry v es ∧ es.length ≤ Limit.entries

structure IsItem (v : Json) (i : Draft.Item) : Prop where
  record : v.IsRecord ["name", "description", "type", "constant", "value", "oneOf"]
  name : v.Has "name" IsName i.name
  description : v.MayHave "description" IsText i.description
  type : v.MayHave "type" IsItemType i.type
  constant : v.HasFlag "constant" i.constant
  value : v.MayHave "value" (IsForm .digits) i.value
  entries : v.MayHave "oneOf" IsEntries i.entries

structure IsMap (v : Json) (m : Draft.KeyMap) : Prop where
  record : v.IsRecord ["name", "description", "key1", "key2", "value"]
  name : v.Has "name" IsName m.name
  description : v.MayHave "description" IsText m.description
  key1 : v.Has "key1" IsItem m.key1
  key2 : v.Has "key2" IsItem m.key2
  value : v.Has "value" IsItem m.value

structure IsTransaction (v : Json) (t : Transaction) : Prop where
  record : v.IsRecord ["name", "description", "kind"]
  name : v.Has "name" IsName t.name
  description : v.MayHave "description" IsText t.description
  kind : v.Has "kind" IsKind t.kind

/-- The value spells the draft. -/
structure IsDraft (v : Json) (d : Draft) : Prop where
  record : v.IsRecord ["contractName", "description", "activationAmount", "pragmas", "methods",
    "variables", "maps", "transactions"]
  name : v.Has "contractName" IsName d.name
  description : v.MayHave "description" IsRemark d.description
  activationAmount : v.Has "activationAmount" (IsForm .digits) d.activationAmount
  settings : v.Has "pragmas" IsSettings d.settings
  methods : v.Has "methods" (Lists IsMethod) d.methods
  stateVariables : v.Has "variables" (Lists IsVariable) d.stateVariables
  maps : v.Has "maps" (Lists IsMap) d.maps
  transactions : v.Has "transactions" (Lists IsTransaction) d.transactions

/-! ### A value has the form of what it spells -/

variable (v : Json)

theorem holds_kind_string_iff : (Shape.kind .string).Holds v ↔ ∃ s, v = .string s := by
  cases v <;> simp [Shape.Holds, Kind.includes]

theorem holds_text_iff : Form.text.Holds v ↔ ∃ s, IsText v s := holds_kind_string_iff v

/-- A text with a further condition has the shape of both. -/
theorem holds_text_with_iff {t : Shape} {p : String → Prop}
    (h : ∀ s, t.Holds (.string s) ↔ p s) :
    (Shape.all Form.text [t]).Holds v ↔ ∃ s, v = .string s ∧ p s := by
  rw [holds_all_iff, holds_text_iff]
  simp only [List.forall_mem_singleton, IsText]
  constructor
  · rintro ⟨⟨s, rfl⟩, ht⟩
    exact ⟨s, rfl, (h s).1 ht⟩
  · rintro ⟨s, rfl, hs⟩
    exact ⟨⟨s, rfl⟩, (h s).2 hs⟩

theorem holds_name_iff : Form.name.Holds v ↔ ∃ s, IsName v s :=
  holds_text_with_iff v fun s => by simp [Shape.Holds]

theorem holds_form_iff {f : TextForm} (v : Json) :
    (Shape.all Form.text [.form f]).Holds v ↔ ∃ s, IsForm f v s :=
  holds_text_with_iff v fun s => by simp [Shape.Holds]

theorem holds_numeral_iff : Form.numeral.Holds v ↔ ∃ s, IsForm .digits v s := holds_form_iff v

theorem holds_remark_iff : (Shape.all Form.text [.maxLength 320]).Holds v ↔ ∃ s, IsRemark v s :=
  holds_text_with_iff v fun s => by simp [Shape.Holds]

theorem holds_flag_iff : Form.flag.Holds v ↔ ∃ b, IsFlag v b := by
  cases v <;> simp [Form.flag, Shape.Holds, Kind.includes, IsFlag]

theorem holds_upTo_iff {limit : Nat} (v : Json) :
    (Form.upTo limit).Holds v ↔ ∃ n, IsUpTo limit v n := by
  rw [Form.upTo, holds_all_iff]
  simp only [List.forall_mem_cons, List.not_mem_nil, false_implies, implies_true, and_true,
    Shape.Holds, IsUpTo]
  cases v with
  | int m =>
    simp only [Kind.includes, Shape.isBelow, Shape.isAbove, natural?, Int.toNat?, true_and,
      decide_eq_false_iff_not]
    cases m with
    | ofNat n => simp
    | negSucc n => simp
  | float x =>
    simp only [Kind.includes, Shape.isBelow, Shape.isAbove, natural?]
    cases h : x.integer? with
    | none => simp
    | some k =>
      rw [x.ltInt_eq_of_integer? h, x.gtInt_eq_of_integer? h]
      cases k with
      | ofNat n => simp [Int.toNat?]
      | negSucc n => simp [Int.toNat?]
  | _ => simp [Kind.includes, natural?]

/-- A value is one of the names of a list of things exactly when it is the name of one of them. -/
theorem holds_oneOf_map_iff {α : Type} {all : List α} {name : α → String}
    (h : ∀ x, x ∈ all) : (Shape.oneOf (all.map name)).Holds v ↔ ∃ x, v = .string (name x) := by
  simp only [Shape.Holds, List.mem_map]
  constructor
  · rintro ⟨_, ⟨x, -, rfl⟩, rfl⟩
    exact ⟨x, rfl⟩
  · rintro ⟨x, rfl⟩
    exact ⟨_, ⟨x, h x, rfl⟩, rfl⟩

theorem holds_valueType_iff : Form.valueType.Holds v ↔ ∃ t, IsValueType v t := by
  refine holds_oneOf_map_iff v fun t => ?_
  rcases t with ⟨_ | _ | _ | _ | _ | _, _ | _⟩ <;> decide

theorem holds_declaredType_iff : Form.declaredType.Holds v ↔ ∃ t, IsDeclaredType v t := by
  rw [Form.declaredType, Shape.Holds, holds_valueType_iff]
  constructor
  · rintro (⟨t, ht⟩ | hs)
    · exact ⟨.value t, ht⟩
    · exact ⟨.struct, hs⟩
  · rintro ⟨t | _, ht⟩
    · exact .inl ⟨t, ht⟩
    · exact .inr ht

theorem holds_itemType_iff : Form.itemType.Holds v ↔ ∃ t, IsItemType v t := by
  rw [Form.itemType, Shape.Holds, holds_oneOf_map_iff v fun t => by cases t <;> decide]
  constructor
  · rintro (⟨t, ht⟩ | he)
    · exact ⟨.scalar t, ht⟩
    · exact ⟨.enumeration, he⟩
  · rintro ⟨t | _, ht⟩
    · exact .inl ⟨t, ht⟩
    · exact .inr ht

theorem holds_kind_iff :
    (Shape.oneOf (TransactionKind.all.map TransactionKind.name)).Holds v ↔ ∃ k, IsKind v k :=
  holds_oneOf_map_iff v fun k => by cases k <;> decide

/-! ### A record has the form of what it spells -/

theorem holds_settings_iff : Form.settings.Holds v ↔ ∃ s, IsSettings v s := by
  rw [Form.settings, holds_record_iff (by decide)]
  simp (disch := decide) only [List.map_cons, List.map_nil, List.forall_mem_cons,
    memberHolds_iff_exists_has holds_upTo_iff, memberHolds_iff_exists_has holds_flag_iff,
    memberHolds_iff_exists_has holds_form_iff, memberHolds_iff_exists_mayHave holds_upTo_iff]
  constructor
  · rintro ⟨hrecord, ⟨_, h₁⟩, ⟨_, h₂⟩, ⟨_, h₃⟩, ⟨_, h₄⟩, ⟨_, h₅⟩, ⟨_, h₆⟩, -⟩
    exact ⟨⟨_, _, _, _, _, _⟩, hrecord, h₁, h₂, h₃, h₄, h₅, h₆⟩
  · rintro ⟨s, hrecord, h₁, h₂, h₃, h₄, h₅, h₆⟩
    exact ⟨hrecord, ⟨_, h₁⟩, ⟨_, h₂⟩, ⟨_, h₃⟩, ⟨_, h₄⟩, ⟨_, h₅⟩, ⟨_, h₆⟩, by simp⟩

theorem holds_argument_iff : Form.argument.Holds v ↔ ∃ a, IsArgument v a := by
  rw [Form.argument, holds_record_iff (by decide)]
  simp (disch := decide) only [List.map_cons, List.map_nil, List.forall_mem_cons,
    memberHolds_iff_exists_has holds_name_iff, memberHolds_iff_exists_has holds_valueType_iff]
  constructor
  · rintro ⟨hrecord, ⟨_, h₁⟩, ⟨_, h₂⟩, -⟩
    exact ⟨⟨_, _⟩, hrecord, h₁, h₂⟩
  · rintro ⟨a, hrecord, h₁, h₂⟩
    exact ⟨hrecord, ⟨_, h₁⟩, ⟨_, h₂⟩, by simp⟩

theorem holds_field_iff : Form.field.Holds v ↔ ∃ f, IsField v f := by
  rw [Form.field, holds_record_iff (by decide)]
  simp (disch := decide) only [List.map_cons, List.map_nil, List.forall_mem_cons,
    memberHolds_iff_exists_has holds_name_iff, memberHolds_iff_exists_has holds_declaredType_iff]
  constructor
  · rintro ⟨hrecord, ⟨_, h₁⟩, ⟨_, h₂⟩, -⟩
    exact ⟨⟨_, _⟩, hrecord, h₁, h₂⟩
  · rintro ⟨f, hrecord, h₁, h₂⟩
    exact ⟨hrecord, ⟨_, h₁⟩, ⟨_, h₂⟩, by simp⟩

theorem holds_method_iff : Form.method.Holds v ↔ ∃ m, IsMethod v m := by
  rw [Form.method, holds_record_iff (by decide)]
  simp (disch := decide) only [List.map_cons, List.map_nil, List.forall_mem_cons,
    memberHolds_iff_exists_has holds_name_iff, memberHolds_iff_exists_mayHave holds_text_iff,
    memberHolds_iff_exists_has holds_numeral_iff,
    memberHolds_iff_exists_has (holds_list_iff holds_argument_iff)]
  constructor
  · rintro ⟨hrecord, ⟨_, h₁⟩, ⟨_, h₂⟩, ⟨_, h₃⟩, ⟨_, h₄⟩, -⟩
    exact ⟨⟨_, _, _, _⟩, hrecord, h₁, h₂, h₃, h₄⟩
  · rintro ⟨m, hrecord, h₁, h₂, h₃, h₄⟩
    exact ⟨hrecord, ⟨_, h₁⟩, ⟨_, h₂⟩, ⟨_, h₃⟩, ⟨_, h₄⟩, by simp⟩

theorem holds_stateVariable_iff : Form.stateVariable.Holds v ↔ ∃ w, IsVariable v w := by
  rw [Form.stateVariable, holds_record_iff (by decide)]
  simp (disch := decide) only [List.map_cons, List.map_nil, List.forall_mem_cons,
    memberHolds_iff_exists_has holds_name_iff, memberHolds_iff_exists_has holds_declaredType_iff,
    memberHolds_iff_exists_mayHave holds_text_iff, memberHolds_iff_exists_mayHave holds_flag_iff,
    memberHolds_iff_exists_mayHave (holds_list_iff holds_field_iff)]
  constructor
  · rintro ⟨hrecord, ⟨_, h₁⟩, ⟨_, h₂⟩, ⟨_, h₃⟩, ⟨_, h₄⟩, ⟨_, h₅⟩, ⟨_, h₆⟩, ⟨_, h₇⟩, -⟩
    exact ⟨⟨_, _, _, _, _, _, _⟩, hrecord, h₁, h₂, h₃, ⟨_, h₄, rfl⟩, ⟨_, h₅, rfl⟩, h₆, h₇⟩
  · rintro ⟨w, hrecord, h₁, h₂, h₃, ⟨_, h₄, -⟩, ⟨_, h₅, -⟩, h₆, h₇⟩
    exact ⟨hrecord, ⟨_, h₁⟩, ⟨_, h₂⟩, ⟨_, h₃⟩, ⟨_, h₄⟩, ⟨_, h₅⟩, ⟨_, h₆⟩, ⟨_, h₇⟩, by simp⟩

theorem holds_entry_iff : Form.entry.Holds v ↔ ∃ e, IsEntry v e := by
  rw [Form.entry, holds_record_iff (by decide)]
  simp (disch := decide) only [List.map_cons, List.map_nil, List.forall_mem_cons,
    memberHolds_iff_exists_has holds_name_iff, memberHolds_iff_exists_has holds_numeral_iff]
  constructor
  · rintro ⟨hrecord, ⟨_, h₁⟩, ⟨_, h₂⟩, -⟩
    exact ⟨⟨_, _⟩, hrecord, h₁, h₂⟩
  · rintro ⟨e, hrecord, h₁, h₂⟩
    exact ⟨hrecord, ⟨_, h₁⟩, ⟨_, h₂⟩, by simp⟩

theorem holds_entries_iff :
    (Shape.all (.kind .array) [.maxItems Limit.entries, .items Form.entry]).Holds v ↔
      ∃ es, IsEntries v es := by
  have hlist := holds_list_iff holds_entry_iff v
  rw [Shape.list, holds_all_iff, List.forall_mem_singleton] at hlist
  rw [holds_all_iff, List.forall_mem_cons, List.forall_mem_singleton, and_left_comm, hlist]
  constructor
  · rintro ⟨hmax, es, ws, rfl, hes⟩
    refine ⟨es, ⟨ws, rfl, hes⟩, ?_⟩
    rw [← hes.length_eq]
    exact hmax ws rfl
  · rintro ⟨es, ⟨ws, rfl, hes⟩, hmax⟩
    refine ⟨?_, es, ws, rfl, hes⟩
    rintro _ ⟨⟩
    rw [hes.length_eq]
    exact hmax

theorem holds_mapItem_iff : Form.mapItem.Holds v ↔ ∃ i, IsItem v i := by
  rw [Form.mapItem, holds_record_iff (by decide)]
  simp (disch := decide) only [List.map_cons, List.map_nil, List.forall_mem_cons,
    memberHolds_iff_exists_has holds_name_iff, memberHolds_iff_exists_mayHave holds_text_iff,
    memberHolds_iff_exists_mayHave holds_itemType_iff,
    memberHolds_iff_exists_mayHave holds_flag_iff,
    memberHolds_iff_exists_mayHave holds_numeral_iff,
    memberHolds_iff_exists_mayHave holds_entries_iff]
  constructor
  · rintro ⟨hrecord, ⟨_, h₁⟩, ⟨_, h₂⟩, ⟨_, h₃⟩, ⟨_, h₄⟩, ⟨_, h₅⟩, ⟨_, h₆⟩, -⟩
    exact ⟨⟨_, _, _, _, _, _⟩, hrecord, h₁, h₂, h₃, ⟨_, h₄, rfl⟩, h₅, h₆⟩
  · rintro ⟨i, hrecord, h₁, h₂, h₃, ⟨_, h₄, -⟩, h₅, h₆⟩
    exact ⟨hrecord, ⟨_, h₁⟩, ⟨_, h₂⟩, ⟨_, h₃⟩, ⟨_, h₄⟩, ⟨_, h₅⟩, ⟨_, h₆⟩, by simp⟩

theorem holds_map_iff : Form.map.Holds v ↔ ∃ m, IsMap v m := by
  rw [Form.map, holds_record_iff (by decide)]
  simp (disch := decide) only [List.map_cons, List.map_nil, List.forall_mem_cons,
    memberHolds_iff_exists_has holds_name_iff, memberHolds_iff_exists_mayHave holds_text_iff,
    memberHolds_iff_exists_has holds_mapItem_iff]
  constructor
  · rintro ⟨hrecord, ⟨_, h₁⟩, ⟨_, h₂⟩, ⟨_, h₃⟩, ⟨_, h₄⟩, ⟨_, h₅⟩, -⟩
    exact ⟨⟨_, _, _, _, _⟩, hrecord, h₁, h₂, h₃, h₄, h₅⟩
  · rintro ⟨m, hrecord, h₁, h₂, h₃, h₄, h₅⟩
    exact ⟨hrecord, ⟨_, h₁⟩, ⟨_, h₂⟩, ⟨_, h₃⟩, ⟨_, h₄⟩, ⟨_, h₅⟩, by simp⟩

theorem holds_transaction_iff : Form.transaction.Holds v ↔ ∃ t, IsTransaction v t := by
  rw [Form.transaction, holds_record_iff (by decide)]
  simp (disch := decide) only [List.map_cons, List.map_nil, List.forall_mem_cons,
    memberHolds_iff_exists_has holds_name_iff, memberHolds_iff_exists_mayHave holds_text_iff,
    memberHolds_iff_exists_has holds_kind_iff]
  constructor
  · rintro ⟨hrecord, ⟨_, h₁⟩, ⟨_, h₂⟩, ⟨_, h₃⟩, -⟩
    exact ⟨⟨_, _, _⟩, hrecord, h₁, h₂, h₃⟩
  · rintro ⟨t, hrecord, h₁, h₂, h₃⟩
    exact ⟨hrecord, ⟨_, h₁⟩, ⟨_, h₂⟩, ⟨_, h₃⟩, by simp⟩

/-- A value has the form of a description exactly when it spells a draft. -/
theorem holds_description_iff : Form.description.Holds v ↔ ∃ d, IsDraft v d := by
  rw [Form.description, holds_record_iff (by decide)]
  simp (disch := decide) only [List.map_cons, List.map_nil, List.forall_mem_cons,
    memberHolds_iff_exists_has holds_name_iff, memberHolds_iff_exists_mayHave holds_remark_iff,
    memberHolds_iff_exists_has holds_numeral_iff, memberHolds_iff_exists_has holds_settings_iff,
    memberHolds_iff_exists_has (holds_list_iff holds_method_iff),
    memberHolds_iff_exists_has (holds_list_iff holds_stateVariable_iff),
    memberHolds_iff_exists_has (holds_list_iff holds_map_iff),
    memberHolds_iff_exists_has (holds_list_iff holds_transaction_iff)]
  constructor
  · rintro ⟨hrecord, ⟨_, h₁⟩, ⟨_, h₂⟩, ⟨_, h₃⟩, ⟨_, h₄⟩, ⟨_, h₅⟩, ⟨_, h₆⟩, ⟨_, h₇⟩, ⟨_, h₈⟩, -⟩
    exact ⟨⟨_, _, _, _, _, _, _, _⟩, hrecord, h₁, h₂, h₃, h₄, h₅, h₆, h₇, h₈⟩
  · rintro ⟨d, hrecord, h₁, h₂, h₃, h₄, h₅, h₆, h₇, h₈⟩
    exact ⟨hrecord, ⟨_, h₁⟩, ⟨_, h₂⟩, ⟨_, h₃⟩, ⟨_, h₄⟩, ⟨_, h₅⟩, ⟨_, h₆⟩, ⟨_, h₇⟩, ⟨_, h₈⟩,
      by simp⟩

end Json

end SmartContract
