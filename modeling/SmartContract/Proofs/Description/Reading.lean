import SmartContract.Description.Transcript.Draft
import SmartContract.Description.Transcript.Json
import SmartContract.Proofs.Description.Spelling
import SmartContract.Proofs.Related

/-!
A value that spells a draft can be taken down, and the transcript is taken for the draft without a
fault. The form of a description asks for as much as the taking down and the looking up do, so that
neither of them fails on a value that has the form.
-/

namespace SmartContract

open Json

/-! ### Transcripts of drafts -/

/-- The name with its type as it is taken down. -/
def TypedName.transcript (a : TypedName) : Transcript.TypedName := ⟨a.name, a.type.name⟩

def Transaction.transcript (t : Transaction) : Transcript.Transaction :=
  ⟨t.name, t.description, t.kind.name⟩

namespace Draft

def Field.transcript (f : Field) : Transcript.TypedName := ⟨f.name, f.type.name⟩

def Method.transcript (m : Method) : Transcript.Method :=
  ⟨m.name, m.description, m.code, m.arguments.map TypedName.transcript⟩

def Variable.transcript (v : Variable) : Transcript.Variable :=
  ⟨v.name, v.type.name, v.description, v.constant, v.initializable, v.value,
    v.fields.map (·.map Field.transcript)⟩

def Item.transcript (i : Item) : Transcript.Item :=
  ⟨i.name, i.description, i.type.map DeclaredItemType.name, i.constant, i.value, i.entries⟩

def KeyMap.transcript (m : KeyMap) : Transcript.KeyMap :=
  ⟨m.name, m.description, m.key1.transcript, m.key2.transcript, m.value.transcript⟩

/-- The draft as it is taken down. Its settings can be written in several ways. -/
def transcript (d : Draft) (settings : Transcript.Settings) : Transcript :=
  ⟨d.name, d.description, d.activationAmount, settings, d.methods.map Method.transcript,
    d.stateVariables.map Variable.transcript, d.maps.map KeyMap.transcript,
    d.transactions.map Transaction.transcript⟩

end Draft

/-! ### Numbers of the settings -/

/-- The number is exactly `n`, however it is written; zero may have a sign. -/
def Json.Number.Is : Number → Nat → Prop
  | .int m, n => m = n
  | .float x, n => (if x.negative then -(x.numerator : Int) else x.numerator) = n * x.denominator

namespace Transcript

/-- A number of the settings is taken as what it is, if that is a natural number up to the limit. -/
theorem setting_eq_ok_iff {limit n : Nat} (hlimit : limit < 256) {k : Number} :
    setting limit k = .ok n ↔ k.Is n ∧ n ≤ limit := by
  have hwhole : (∃ m, k.whole? limit = some m ∧ m ≤ limit ∧ m = n) ↔ k.Is n ∧ n ≤ limit := by
    cases k with
    | int m =>
      simp only [Number.whole?, Number.Is]
      constructor
      · rintro ⟨_, hm, hle, rfl⟩
        exact ⟨Int.mem_toNat?.1 hm, hle⟩
      · rintro ⟨hm, hle⟩
        exact ⟨n, Int.mem_toNat?.2 hm, hle, rfl⟩
    | float x =>
      simp only [Number.whole?, Number.Is, ← Double.integer?_eq_natCast_iff,
        Option.filter_eq_some_iff, Option.bind_eq_some_iff, decide_eq_true_eq]
      constructor
      · rintro ⟨_, ⟨⟨i, hi, him⟩, -⟩, hle, rfl⟩
        exact ⟨Int.mem_toNat?.1 him ▸ hi, hle⟩
      · rintro ⟨hi, hle⟩
        exact ⟨n, ⟨⟨n, hi, Int.mem_toNat?.2 rfl⟩, hle⟩, hle, rfl⟩
  rw [← hwhole, setting]
  cases k.whole? limit with
  | none => simp
  | some m =>
    simp only [Option.some.injEq, exists_eq_left']
    split
    · rename_i h
      simp [h.2]
    · rename_i h
      have hlt : ¬ m ≤ limit := fun hle => h ⟨by omega, hle⟩
      simp [hlt]

theorem exists_setting_eq_ok {limit n : Nat} (hlimit : limit < 256) (w : Json)
    (h : IsUpTo limit w n) : ∃ k, w.number? = some k ∧ setting limit k = .ok n := by
  obtain ⟨hnatural, hle⟩ := h
  cases w with
  | int m =>
    exact ⟨_, rfl, (setting_eq_ok_iff hlimit).2 ⟨Int.mem_toNat?.1 hnatural, hle⟩⟩
  | float x =>
    obtain ⟨i, hi, hin⟩ := Option.bind_eq_some_iff.1 hnatural
    refine ⟨_, rfl, (setting_eq_ok_iff hlimit).2 ⟨?_, hle⟩⟩
    exact Double.integer?_eq_natCast_iff.1 (Int.mem_toNat?.1 hin ▸ hi)
  | _ => cases hnatural

/-- What is taken down are the settings. -/
structure Settings.StandFor (t : Settings) (s : SmartContract.Settings) : Prop where
  auxiliaryVariables :
    setting Limit.auxiliaryVariables t.auxiliaryVariables = .ok s.auxiliaryVariables
  optimizationLevel : setting Limit.optimizationLevel t.optimizationLevel = .ok s.optimizationLevel
  verboseAssembly : t.verboseAssembly = s.verboseAssembly
  version : t.version = s.version
  codeStackPages : t.codeStackPages.map (setting Limit.stackPages) = s.codeStackPages.map .ok
  userStackPages : t.userStackPages.map (setting Limit.stackPages) = s.userStackPages.map .ok

theorem Settings.toDraft_eq {t : Settings} {s : SmartContract.Settings} (h : t.StandFor s) :
    t.toDraft = s := by
  have hpages {ks : Option Number} {ns : Option Nat}
      (h : ks.map (setting Limit.stackPages) = ns.map .ok) :
      ks.map (fun k => orElse 0 (setting Limit.stackPages k)) = ns := by
    have hvalues := congrArg (Option.map (orElse 0)) h
    rw [Option.map_map, Option.map_map] at hvalues
    exact hvalues.trans Option.map_id'
  simp only [Settings.toDraft, h.auxiliaryVariables, h.optimizationLevel, h.verboseAssembly,
    h.version, hpages h.codeStackPages, hpages h.userStackPages, orElse_ok]

theorem Settings.faults_eq_nil {t : Settings} {s : SmartContract.Settings} (h : t.StandFor s) :
    t.faults = [] := by
  have hpages {ks : Option Number} {ns : Option Nat} (p : Pointer)
      (h : ks.map (setting Limit.stackPages) = ns.map .ok) :
      ks.toList.flatMap (fun k => faultAt p (setting Limit.stackPages k)) = [] := by
    cases ks with
    | none => rfl
    | some k =>
      cases ns with
      | none => cases h
      | some n => simp [Option.some.inj h]
  simp only [Settings.faults, h.auxiliaryVariables, h.optimizationLevel, faultAt_ok,
    hpages _ h.codeStackPages, hpages _ h.userStackPages, List.append_nil]

/-! ### Names of types and kinds -/

theorem valueType_name (t : ValueType) : valueType t.name = .ok t := by
  rw [valueType, lookUp, ValueType.ofName?_name]

theorem itemType_name (t : Scalar) : itemType t.name = .ok t := by
  rw [itemType, lookUp, Scalar.ofName?_name]

theorem transactionKind_name (k : TransactionKind) : transactionKind k.name = .ok k := by
  rw [transactionKind, lookUp, TransactionKind.ofName?_name]

theorem declaredType_name (t : DeclaredType) : declaredType t.name = t := by
  cases t with
  | struct => rfl
  | value type =>
    rw [declaredType, DeclaredType.name, if_neg type.name_ne_structWord, valueTypeOrLong,
      valueType_name, orElse_ok]

theorem declaredItemType_name (t : DeclaredItemType) : declaredItemType t.name = t := by
  cases t with
  | enumeration => rfl
  | scalar type =>
    rw [declaredItemType, DeclaredItemType.name, if_neg type.name_ne_enumerationWord,
      itemType_name, orElse_ok]

/-! ### The transcript of a draft is taken for the draft -/

theorem toArgument_transcript (a : SmartContract.TypedName) : a.transcript.toArgument = a := by
  rw [TypedName.toArgument, SmartContract.TypedName.transcript, valueTypeOrLong, valueType_name,
    orElse_ok]

theorem toField_transcript (f : Draft.Field) : f.transcript.toField = f := by
  rw [TypedName.toField, Draft.Field.transcript, declaredType_name]

theorem toDraft_transcript_method (m : Draft.Method) : m.transcript.toDraft = m := by
  simp [Method.toDraft, Draft.Method.transcript, Function.comp_def, toArgument_transcript]

theorem toDraft_transcript_variable (v : Draft.Variable) : v.transcript.toDraft = v := by
  simp [Variable.toDraft, Draft.Variable.transcript, declaredType_name, Function.comp_def,
    toField_transcript]

theorem toDraft_transcript_item (i : Draft.Item) : i.transcript.toDraft = i := by
  simp [Item.toDraft, Draft.Item.transcript, Function.comp_def, declaredItemType_name]

theorem toDraft_transcript_map (m : Draft.KeyMap) : m.transcript.toDraft = m := by
  simp only [KeyMap.toDraft, Draft.KeyMap.transcript, toDraft_transcript_item]

theorem toDraft_transcript_transaction (t : SmartContract.Transaction) :
    t.transcript.toDraft = t := by
  rw [Transaction.toDraft, SmartContract.Transaction.transcript, transactionKind_name, orElse_ok]

theorem toDraft_transcript (d : Draft) {s : Settings} (h : s.StandFor d.settings) :
    (d.transcript s).toDraft = d := by
  simp [toDraft, Draft.transcript, Settings.toDraft_eq h, Function.comp_def,
    toDraft_transcript_method, toDraft_transcript_variable, toDraft_transcript_map,
    toDraft_transcript_transaction]

/-! ### Nothing in it is unknown -/

theorem faults_transcript_method (m : Draft.Method) (i : Nat) : m.transcript.faults i = [] := by
  rw [Method.faults, Draft.Method.transcript, List.zipIdx_map, List.flatMap_map]
  refine List.flatMap_eq_nil_iff.2 fun a _ => ?_
  exact congrArg (faultAt _) (valueType_name a.1.type)

theorem faults_transcript_variable (v : Draft.Variable) (i : Nat) :
    v.transcript.faults i = [] := by
  obtain ⟨name, type, description, constant, initializable, value, fields⟩ := v
  rw [Variable.faults, Draft.Variable.transcript]
  cases type with
  | value type =>
    rw [DeclaredType.name, if_neg type.name_ne_structWord, valueType_name, faultAt_ok]
  | struct =>
    rw [DeclaredType.name, if_pos rfl, List.flatMap_eq_nil_iff]
    rintro ⟨f, j⟩ hf
    have hmem : f ∈ (fields.map (·.map Draft.Field.transcript)).getD [] :=
      List.fst_mem_of_mem_zipIdx hf
    cases fields with
    | none => cases hmem
    | some fields =>
      obtain ⟨⟨name, type | -⟩, -, rfl⟩ := List.mem_map.1 hmem
      · show (if type.name = Form.structWord then [] else faultAt _ (valueType type.name)) = []
        rw [if_neg type.name_ne_structWord, valueType_name, faultAt_ok]
      · exact if_pos rfl

theorem faults_transcript_item {i : Draft.Item}
    (h : ∀ es, i.entries = some es → es.length ≤ Limit.entries) (p : Pointer) :
    i.transcript.faults p = [] := by
  have hentries : i.transcript.entryFaults p = [] := by
    rw [Item.entryFaults, Draft.Item.transcript]
    cases hes : i.entries with
    | none => rfl
    | some es => exact if_pos (h es hes)
  rw [Item.faults]
  rcases htype : i.type with _ | type | _
  · simp [Draft.Item.transcript, htype] at hentries ⊢
    exact hentries
  · simp [Draft.Item.transcript, htype, DeclaredItemType.name, type.name_ne_enumerationWord,
      itemType_name]
  · simp [Draft.Item.transcript, htype, DeclaredItemType.name] at hentries ⊢
    exact hentries

theorem faults_transcript_map {v : Json} {m : Draft.KeyMap} (h : IsMap v m) (i : Nat) :
    m.transcript.faults i = [] := by
  have hitem {key : String} {item : Draft.Item} (h : v.Has key IsItem item) (p : Pointer) :
      item.transcript.faults p = [] := by
    obtain ⟨w, -, hspells⟩ := h
    refine faults_transcript_item (fun es hes => ?_) p
    obtain ⟨u, -, hlisted⟩ := hes ▸ hspells.entries
    exact hlisted.2
  refine List.flatMap_eq_nil_iff.2 fun part _ => ?_
  cases part with
  | key1 => exact hitem h.key1 _
  | key2 => exact hitem h.key2 _
  | value => exact hitem h.value _

/-- Nothing else is taken for anything in the transcript of a draft that a value spells. -/
theorem faults_transcript {v : Json} {d : Draft} (h : IsDraft v d) {s : Settings}
    (hs : s.StandFor d.settings) : (d.transcript s).faults = [] := by
  obtain ⟨_, -, hlists⟩ := h.maps
  have hmaps : ∀ m ∈ d.maps, ∀ i, m.transcript.faults i = [] :=
    forall_mem_of_lists hlists fun _ _ hspells i => faults_transcript_map hspells i
  have hmem {α β : Type} {xs : List α} {f : α → β} {y : β} {i : Nat}
      (hy : (y, i) ∈ (xs.map f).zipIdx) : ∃ x ∈ xs, f x = y :=
    List.mem_map.1 (List.fst_mem_of_mem_zipIdx hy)
  simp only [faults, Draft.transcript, Settings.faults_eq_nil hs, List.append_eq_nil_iff,
    List.flatMap_eq_nil_iff, true_and]
  refine ⟨⟨⟨?_, ?_⟩, ?_⟩, ?_⟩
  · rintro ⟨_, i⟩ hy
    obtain ⟨m, -, rfl⟩ := hmem hy
    exact faults_transcript_method m i
  · rintro ⟨_, i⟩ hy
    obtain ⟨x, -, rfl⟩ := hmem hy
    exact faults_transcript_variable x i
  · rintro ⟨_, i⟩ hy
    obtain ⟨m, hm, rfl⟩ := hmem hy
    exact hmaps m hm i
  · rintro ⟨_, i⟩ hy
    obtain ⟨t, -, rfl⟩ := hmem hy
    exact congrArg (faultAt _) (transactionKind_name t.kind)

/-! ### Taking down members, flags and lists -/

section Members

variable {α β : Type} {R : Json → α → Prop} {read : Json → Option β} {f : α → β} {v : Json}
  {key : String}

theorem isRecord_eq_true {names : List String} (h : v.IsRecord names) : isRecord names v = true := by
  obtain ⟨ms, rfl, hnames⟩ := h
  simpa [isRecord] using fun key w hm => hnames (key, w) hm

theorem guard_isRecord {names : List String} (h : v.IsRecord names) :
    (guard (isRecord names v) : Option Unit) = some () :=
  if_pos (isRecord_eq_true h)

theorem member_eq_some {x : α} (h : v.Has key R x) (hread : ∀ w x, R w x → read w = some (f x)) :
    member key read v = some (f x) := by
  obtain ⟨w, hw, hx⟩ := h
  rw [member, hw, Option.bind_eq_bind, Option.bind_some, hread w x hx]

/-- Nothing is read from null, so that a member that spells something is not null. -/
theorem optionalMember_eq_some {o : Option α} (h : v.MayHave key R o)
    (hread : ∀ w x, R w x → read w = some (f x)) (hnull : read .null = none) :
    optionalMember key read v = some (o.map f) := by
  cases o with
  | none =>
    rw [MayHave] at h
    rw [optionalMember, h, Option.map_none]
  | some x =>
    obtain ⟨w, hw, hx⟩ := h
    have hsome : read w = some (f x) := hread w x hx
    rw [optionalMember, hw]
    split
    · rename_i hnone
      cases hnone
    · rename_i heq
      cases heq
      rw [hnull] at hsome
      cases hsome
    · rename_i heq
      cases heq
      rw [hsome, Option.map_some, Option.map_some]

theorem flag_eq_some {b : Bool} (h : v.HasFlag key b) : flag key v = some b := by
  obtain ⟨o, ho, rfl⟩ := h
  cases o with
  | none =>
    rw [MayHave] at ho
    rw [flag, ho, Option.getD_none]
  | some b =>
    obtain ⟨w, hw, rfl⟩ := ho
    rw [flag, hw]
    rfl

theorem list_eq_some (hread : ∀ w x, R w x → read w = some (f x)) (v : Json) (xs : List α)
    (h : Lists R v xs) : list read v = some (xs.map f) := by
  obtain ⟨ws, rfl, hxs⟩ := h
  rw [list, items?, Option.bind_eq_bind, Option.bind_some]
  exact mapM_eq_some_of_forall₂ (List.forall₂_map_right_iff.2 (hxs.imp hread)) fun _ _ => id

end Members

theorem text?_eq_some (v : Json) (s : String) (h : IsText v s) : v.text? = some (id s) := by
  rw [h, text?, id]

theorem text?_eq_some_of_and {p : String → Prop} (v : Json) (s : String)
    (h : v = .string s ∧ p s) : v.text? = some (id s) :=
  text?_eq_some v s h.1

/-! ### Taking down records -/

variable {v : Json}

/-- A number of the settings is taken down and stands for what the value spells. -/
theorem exists_member_number {key : String} {limit n : Nat} (hlimit : limit < 256)
    (h : v.Has key (IsUpTo limit) n) :
    ∃ k, member key number? v = some k ∧ setting limit k = .ok n := by
  obtain ⟨w, hw, hn⟩ := h
  obtain ⟨k, hk, hsetting⟩ := exists_setting_eq_ok hlimit w hn
  exact ⟨k, by rw [member, hw, Option.bind_eq_bind, Option.bind_some, hk], hsetting⟩

theorem exists_optionalMember_number {key : String} {limit : Nat} {o : Option Nat}
    (hlimit : limit < 256) (h : v.MayHave key (IsUpTo limit) o) :
    ∃ ks, optionalMember key number? v = some ks ∧ ks.map (setting limit) = o.map .ok := by
  cases o with
  | none => exact ⟨none, by rw [optionalMember, show v.get? key = none from h], rfl⟩
  | some n =>
    obtain ⟨w, hw, hn⟩ := h
    obtain ⟨k, hk, hsetting⟩ := exists_setting_eq_ok hlimit w hn
    refine ⟨some k, ?_, congrArg some hsetting⟩
    rw [optionalMember, hw]
    cases w with
    | null => cases hk
    | _ => exact congrArg (Option.map some) hk

theorem exists_settings?_eq_some {s : SmartContract.Settings} (w : Json) (h : IsSettings w s) :
    ∃ t, settings? w = some t ∧ t.StandFor s := by
  obtain ⟨k₁, h₁, hs₁⟩ := exists_member_number (by decide) h.auxiliaryVariables
  obtain ⟨k₂, h₂, hs₂⟩ := exists_member_number (by decide) h.optimizationLevel
  obtain ⟨k₃, h₃, hs₃⟩ := exists_optionalMember_number (by decide) h.codeStackPages
  obtain ⟨k₄, h₄, hs₄⟩ := exists_optionalMember_number (by decide) h.userStackPages
  have hflag : member "verboseAssembly" bool? w = some (id s.verboseAssembly) :=
    member_eq_some h.verboseAssembly fun w b hb => by rw [show w = .bool b from hb]; rfl
  refine ⟨⟨k₁, k₂, s.verboseAssembly, s.version, k₃, k₄⟩, ?_, hs₁, hs₂, rfl, rfl, hs₃, hs₄⟩
  rw [settings?, guard_isRecord h.record, h₁, h₂, hflag,
    member_eq_some h.version text?_eq_some_of_and, h₃, h₄]
  rfl

theorem typedName?_eq_some {name type : String} (hrecord : v.IsRecord ["name", "type"])
    (hname : v.Has "name" IsName name) (htype : v.Has "type" IsText type) :
    typedName? v = some ⟨name, type⟩ := by
  rw [typedName?, guard_isRecord hrecord, member_eq_some hname text?_eq_some_of_and,
    member_eq_some htype text?_eq_some]
  rfl

theorem argument?_eq_some (v : Json) (a : SmartContract.TypedName) (h : IsArgument v a) :
    typedName? v = some a.transcript :=
  typedName?_eq_some h.record h.name h.type

theorem field?_eq_some (v : Json) (f : Draft.Field) (h : IsField v f) :
    typedName? v = some f.transcript :=
  typedName?_eq_some h.record h.name h.type

theorem method?_eq_some (v : Json) (m : Draft.Method) (h : IsMethod v m) :
    method? v = some m.transcript := by
  rw [method?, guard_isRecord h.record, member_eq_some h.name text?_eq_some_of_and,
    optionalMember_eq_some h.description text?_eq_some rfl,
    member_eq_some h.code text?_eq_some_of_and,
    member_eq_some h.arguments (list_eq_some argument?_eq_some), Option.map_id]
  rfl

theorem stateVariable?_eq_some (v : Json) (x : Draft.Variable) (h : IsVariable v x) :
    stateVariable? v = some x.transcript := by
  have htype : v.Has "type" IsText x.type.name := h.type
  rw [stateVariable?, guard_isRecord h.record, member_eq_some h.name text?_eq_some_of_and,
    member_eq_some htype text?_eq_some, optionalMember_eq_some h.description text?_eq_some rfl,
    flag_eq_some h.constant, flag_eq_some h.initializable,
    optionalMember_eq_some h.value text?_eq_some rfl,
    optionalMember_eq_some h.fields (list_eq_some field?_eq_some) rfl, Option.map_id]
  rfl

theorem entry?_eq_some (v : Json) (e : Draft.Entry) (h : IsEntry v e) : entry? v = some (id e) := by
  unfold entry?
  rw [guard_isRecord h.record, member_eq_some h.name text?_eq_some_of_and,
    member_eq_some h.value text?_eq_some_of_and]
  rfl

theorem item?_eq_some (v : Json) (i : Draft.Item) (h : IsItem v i) :
    item? v = some i.transcript := by
  have htype : ∀ w t, IsItemType w t → w.text? = some (DeclaredItemType.name t) := fun w t ht =>
    text?_eq_some w t.name ht
  have hentries : ∀ w es, IsEntries w es → list entry? w = some (id es) := fun w es hes => by
    rw [list_eq_some entry?_eq_some w es hes.1, List.map_id, id]
  rw [item?, guard_isRecord h.record, member_eq_some h.name text?_eq_some_of_and,
    optionalMember_eq_some h.description text?_eq_some rfl,
    optionalMember_eq_some h.type htype rfl, flag_eq_some h.constant,
    optionalMember_eq_some h.value text?_eq_some_of_and rfl,
    optionalMember_eq_some h.entries hentries rfl, Option.map_id, Option.map_id]
  rfl

theorem map?_eq_some (v : Json) (m : Draft.KeyMap) (h : IsMap v m) : map? v = some m.transcript := by
  rw [map?, guard_isRecord h.record, member_eq_some h.name text?_eq_some_of_and,
    optionalMember_eq_some h.description text?_eq_some rfl, member_eq_some h.key1 item?_eq_some,
    member_eq_some h.key2 item?_eq_some, member_eq_some h.value item?_eq_some, Option.map_id]
  rfl

theorem transaction?_eq_some (v : Json) (t : SmartContract.Transaction) (h : IsTransaction v t) :
    transaction? v = some t.transcript := by
  have hkind : v.Has "kind" IsText t.kind.name := h.kind
  rw [transaction?, guard_isRecord h.record, member_eq_some h.name text?_eq_some_of_and,
    optionalMember_eq_some h.description text?_eq_some rfl, member_eq_some hkind text?_eq_some,
    Option.map_id]
  rfl

/-- A value that spells a draft is taken down. -/
theorem exists_ofJson?_eq_some {d : Draft} (h : IsDraft v d) :
    ∃ s, ofJson? v = some (d.transcript s) ∧ s.StandFor d.settings := by
  obtain ⟨w, hw, hspells⟩ := h.settings
  obtain ⟨s, hs, hstands⟩ := exists_settings?_eq_some w hspells
  have hsettings : member "pragmas" settings? v = some s := by
    rw [member, hw, Option.bind_eq_bind, Option.bind_some, hs]
  refine ⟨s, ?_, hstands⟩
  rw [ofJson?, guard_isRecord h.record, member_eq_some h.name text?_eq_some_of_and,
    optionalMember_eq_some h.description text?_eq_some_of_and rfl,
    member_eq_some h.activationAmount text?_eq_some_of_and, hsettings,
    member_eq_some h.methods (list_eq_some method?_eq_some),
    member_eq_some h.stateVariables (list_eq_some stateVariable?_eq_some),
    member_eq_some h.maps (list_eq_some map?_eq_some),
    member_eq_some h.transactions (list_eq_some transaction?_eq_some), Option.map_id]
  rfl

end Transcript

end SmartContract
