import SmartContract.Proofs.Description.Acceptance
import SmartContract.Proofs.Description.Sections
import SmartContract.Proofs.Json.Pointer
import SmartContract.Proofs.Report.Order

/-!
A value that has the form of a description is taken down, and every text and number in the transcript
is what the draft needs. So nothing else is ever taken in its place: the faults that say so are never
reported, and neither is any fault of the settings.
-/

namespace SmartContract

open Json (Pointer IsDraft IsMap IsItem IsSettings IsUpTo Has MayHave)

namespace Transcript

/-- Every text that has to name something names it, and no enumeration has too many entries. -/
structure IsKnown (t : Transcript) : Prop where
  arguments : ∀ m ∈ t.methods, ∀ a ∈ m.arguments, ∃ type, ValueType.ofName? a.type = some type
  stateVariables : ∀ x ∈ t.stateVariables, x.type ≠ Form.structWord →
    ∃ type, ValueType.ofName? x.type = some type
  fields : ∀ x ∈ t.stateVariables, ∀ f ∈ x.fields.getD [], f.type ≠ Form.structWord →
    ∃ type, ValueType.ofName? f.type = some type
  items : ∀ m ∈ t.maps, ∀ part, ∀ text ∈ (m.part part).type, text ≠ Form.enumerationWord →
    ∃ type, Scalar.ofName? text = some type
  entries : ∀ m ∈ t.maps, ∀ part, ((m.part part).entries.getD []).length ≤ 10
  transactions : ∀ x ∈ t.transactions, ∃ kind, TransactionKind.ofName? x.kind = some kind

end Transcript

namespace Json

/-- Among the settings the value has the number, however it is written, and it is at most `limit`; or
it has none if there is none. -/
def HasSetting (v : Json) (key : String) (limit : Nat) : Option Nat → Prop
  | none => Pointer.resolve? v [.member "pragmas", .member key] = none
  | some n => ∃ w k, Pointer.resolve? v [.member "pragmas", .member key] = some w ∧
    w.number? = some k ∧ k.Is n ∧ n ≤ limit ∧ Transcript.setting limit k = .ok n

/-- The numbers of the settings are those of the value. -/
structure HasSettings (v : Json) (s : Settings) : Prop where
  auxiliaryVariables : v.HasSetting "maxAuxVars" 10 (some s.auxiliaryVariables)
  optimizationLevel : v.HasSetting "optimizationLevel" 3 (some s.optimizationLevel)
  codeStackPages : v.HasSetting "codeStackPages" 10 s.codeStackPages
  userStackPages : v.HasSetting "userStackPages" 10 s.userStackPages

end Json

/-! ### Transcripts of drafts -/

namespace Json

variable {v w : Json} {key : String} {limit : Nat}

theorem hasSetting_of_mayHave (hlimit : limit < 256) (hw : v.get? "pragmas" = some w)
    {o : Option Nat} (h : w.MayHave key (IsUpTo limit) o) : v.HasSetting key limit o := by
  have hpragmas : Pointer.resolve? v [.member "pragmas"] = some w := by
    show (v.get? "pragmas" >>= some) = some w
    rw [hw]
    rfl
  have hresolve : Pointer.resolve? v [.member "pragmas", .member key] = w.get? key :=
    Pointer.resolve?_member hpragmas key
  cases o with
  | none => exact hresolve.trans h
  | some n =>
    obtain ⟨u, hu, hn⟩ := h
    obtain ⟨k, hk, hsetting⟩ := Transcript.exists_setting_eq_ok hlimit u hn
    obtain ⟨his, hle⟩ := (Transcript.setting_eq_ok_iff hlimit).1 hsetting
    exact ⟨u, k, hresolve.trans hu, hk, his, hle, hsetting⟩

theorem hasSettings_of_has {s : Settings} (h : v.Has "pragmas" IsSettings s) :
    v.HasSettings s := by
  obtain ⟨w, hw, hspells⟩ := h
  exact ⟨hasSetting_of_mayHave (by decide) hw (o := some _) hspells.auxiliaryVariables,
    hasSetting_of_mayHave (by decide) hw (o := some _) hspells.optimizationLevel,
    hasSetting_of_mayHave (by decide) hw hspells.codeStackPages,
    hasSetting_of_mayHave (by decide) hw hspells.userStackPages⟩

end Json

namespace Transcript

variable {v : Json} {d : Draft}

theorem exists_ofName?_of_ne {t : DeclaredType} (h : t.name ≠ Form.structWord) :
    ∃ type, ValueType.ofName? t.name = some type := by
  cases t with
  | value type => exact ⟨type, ValueType.ofName?_name type⟩
  | struct => exact absurd rfl h

theorem exists_ofName?_of_ne_item {t : DeclaredItemType} (h : t.name ≠ Form.enumerationWord) :
    ∃ type, Scalar.ofName? t.name = some type := by
  cases t with
  | scalar type => exact ⟨type, Scalar.ofName?_name type⟩
  | enumeration => exact absurd rfl h

theorem part_transcript (m : Draft.KeyMap) (part : MapPart) :
    m.transcript.part part = (m.part part).transcript := by
  cases part <;> rfl

theorem length_entries_le {w : Json} {m : Draft.KeyMap} (h : IsMap w m) (part : MapPart) :
    ((m.part part).entries.getD []).length ≤ Limit.entries := by
  obtain ⟨u, -, hitem⟩ := Json.has_part h part
  cases hentries : (m.part part).entries with
  | none => exact Nat.zero_le _
  | some es =>
    obtain ⟨_, -, hspells⟩ := hentries ▸ hitem.entries
    exact hspells.2

theorem isKnown_transcript (h : IsDraft v d) (s : Settings) : (d.transcript s).IsKnown where
  arguments := List.forall_mem_map.2 fun m _ => List.forall_mem_map.2 fun a _ =>
    ⟨a.type, ValueType.ofName?_name a.type⟩
  stateVariables := List.forall_mem_map.2 fun _ _ => exists_ofName?_of_ne
  fields := List.forall_mem_map.2 fun x _ f hf => by
    obtain ⟨fields, hfields, hmem⟩ : ∃ fields, x.transcript.fields = some fields ∧ f ∈ fields := by
      cases hfields : x.transcript.fields with
      | none => rw [hfields] at hf; cases hf
      | some fields => exact ⟨fields, rfl, by rwa [hfields] at hf⟩
    obtain ⟨gs, -, rfl⟩ := Option.map_eq_some_iff.1 hfields
    obtain ⟨g, -, rfl⟩ := List.mem_map.1 hmem
    exact exists_ofName?_of_ne
  items := List.forall_mem_map.2 fun m _ part text htext => by
    rw [part_transcript] at htext
    obtain ⟨type, -, rfl⟩ := Option.map_eq_some_iff.1 htext
    exact exists_ofName?_of_ne_item
  entries := List.forall_mem_map.2 fun m hm part => by
    obtain ⟨_, -, hlists⟩ := h.maps
    rw [part_transcript]
    exact Json.forall_mem_of_lists hlists (fun _ _ hmap => length_entries_le hmap part) m hm
  transactions := List.forall_mem_map.2 fun x _ => ⟨x.kind, TransactionKind.ofName?_name x.kind⟩

end Transcript

/-! ### What is never reported -/

namespace Draft

variable {d : Draft} {f : Fault}

theorem head?_ne_of_mem_faults (hf : f ∈ d.faults) :
    f.complaint.code ≠ "SCD-SCHEMA-0002" ∧ f.pointer.head? ≠ some (.member "pragmas") := by
  have hother : ∀ {codes : List String}, f.complaint.code ∈ codes → "SCD-SCHEMA-0002" ∉ codes →
      f.complaint.code ≠ "SCD-SCHEMA-0002" := fun hmem hcodes heq => hcodes (heq ▸ hmem)
  have hsection : ∀ {codes : List String} {key : String}, f.LiesIn codes key →
      "SCD-SCHEMA-0002" ∉ codes → key ≠ "pragmas" →
        f.complaint.code ≠ "SCD-SCHEMA-0002" ∧ f.pointer.head? ≠ some (.member "pragmas") := by
    rintro codes key ⟨hcode, hhead⟩ hcodes hkey
    refine ⟨hother hcode hcodes, fun heq => hkey ?_⟩
    rw [hhead] at heq
    exact Json.Step.member.inj (Option.some.inj heq)
  simp only [Draft.faults, List.mem_append, List.mem_flatMap] at hf
  rcases hf with (((((((hf | hf) | ⟨s, -, hf⟩) | hf) | hf) | ⟨m, -, hf⟩) | hf) | ⟨x, -, hf⟩) |
    ⟨m, -, hf⟩
  · exact (code_of_mem_nameFaults hf).imp_left (hother · (by decide))
  · exact (code_of_mem_repeatedSymbols hf).imp_left fun hcode => by rw [hcode]; decide
  · exact (code_of_mem_shadowedName hf).imp_left fun hcode => by rw [hcode]; decide
  · exact hsection (liesIn_of_mem_severalLines hf) (by decide) (by decide)
  · exact hsection (liesIn_of_mem_tooLarge rfl hf) (by decide) (by decide)
  · exact hsection (liesIn_of_mem_methodFaults hf) (by decide) (by decide)
  · exact hsection (liesIn_of_mem_repeatedCodes hf) (by decide) (by decide)
  · exact hsection (liesIn_of_mem_variableFaults hf) (by decide) (by decide)
  · exact hsection (liesIn_of_mem_mapFaults hf) (by decide) (by decide)

end Draft

/-- Of a value that has the form of a description everything is taken down and known, and the numbers of
the settings are what they were; so whatever is wrong with it, nothing is unknown and nothing is
wrong with the settings. -/
theorem transcript_of_form (v : Json) (h : Description.formFaults v = []) :
    (∃ t, Transcript.ofJson? v = some t ∧ t.faults = [] ∧ t.IsKnown ∧
      v.HasSettings t.toDraft.settings) ∧
    ∀ batch, Description.ofJson v = .error batch → ∀ f ∈ batch,
      f.complaint.code ≠ "SCD-SCHEMA-0002" ∧ ¬ [.member "pragmas"] <+: f.pointer := by
  obtain ⟨d, hd⟩ := Description.formFaults_eq_nil_iff.1 h
  constructor
  · obtain ⟨s, hs, hstands⟩ := Transcript.exists_ofJson?_eq_some hd
    refine ⟨d.transcript s, hs, Transcript.faults_transcript hd hstands,
      Transcript.isKnown_transcript hd s, ?_⟩
    rw [Transcript.toDraft_transcript d hstands]
    exact Json.hasSettings_of_has hd.settings
  · intro batch hbatch f hf
    rcases Description.ofJson_eq_error_iff.1 hbatch with ⟨e, -, -, rfl⟩ | ⟨hne, -⟩
    · obtain ⟨hcode, hhead⟩ := Draft.head?_ne_of_mem_faults (Fault.mem_sort.1 hf)
      refine ⟨hcode, fun ⟨rest, hrest⟩ => hhead ?_⟩
      rw [← hrest]
      rfl
    · exact absurd h hne

/-- A value with settings that are written with points: `3.0`, and `-0.0`. -/
def Json.pointed : Json :=
  .object
    [("activationAmount", .string "0"), ("contractName", .string "Sample"), ("maps", .array []),
     ("methods", .array []),
     ("pragmas", .object
       [("codeStackPages", .int 10), ("maxAuxVars", .float ⟨false, 3 * Nat.pow 2 51, -51⟩),
        ("optimizationLevel", .float (.zero true)), ("verboseAssembly", .bool false),
        ("version", .string "2.3.0")]),
     ("transactions", .array
       [.object [("kind", .string "sendAmount"), ("name", .string "refund")]]),
     ("variables", .array
       [.object
         [("fields", .array [.object [("name", .string "to"), ("type", .string "address")]]),
          ("name", .string "1st"), ("type", .string "struct")]])]

theorem transcript_of_form_pointed :
    Description.formFaults Json.pointed = [] ∧
      (∃ t, Transcript.ofJson? Json.pointed = some t ∧ t.faults = [] ∧ t.IsKnown ∧
        Json.pointed.HasSettings ⟨3, 0, false, "2.3.0", some 10, none⟩) ∧
      ∃ batch, Description.ofJson Json.pointed = .error batch ∧
        ∀ f ∈ batch, ¬ [.member "pragmas"] <+: f.pointer := by
  have hform : Description.formFaults Json.pointed = [] := List.isEmpty_iff.1 (by decide +kernel)
  obtain ⟨⟨t, ht, hfaults, hknown, hsettings⟩, hreported⟩ := transcript_of_form Json.pointed hform
  have hsame : (Transcript.ofJson? Json.pointed).map (fun t => t.toDraft.settings) =
      some ⟨3, 0, false, "2.3.0", some 10, none⟩ := by decide +kernel
  rw [ht, Option.map_some, Option.some.injEq] at hsame
  rw [hsame] at hsettings
  refine ⟨hform, ⟨t, ht, hfaults, hknown, hsettings⟩, ?_⟩
  cases hbatch : Description.ofJson Json.pointed with
  | ok d =>
    have hok : (Description.ofJson Json.pointed).isOk = false := by decide +kernel
    rw [hbatch] at hok
    cases hok
  | error batch => exact ⟨batch, rfl, fun f hf => (hreported batch hbatch f hf).2⟩

end SmartContract
