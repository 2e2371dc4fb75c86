import Mathlib.Data.Option.Basic
import SmartContract.Command
import SmartContract.Proofs.FileTree

/-!
Options of command lines, as a grammar, and the option that calls for a report: it can stand wherever an
option can, and what else is given does not depend on it.
-/

namespace SmartContract.Command

variable {known : List (String × OptionKind)} {arguments : List String} {given : GivenOptions}

/-! ### The grammar of options -/

/-- The arguments are spellings of the options, one after another. -/
inductive Gives (known : List (String × OptionKind)) : List String → GivenOptions → Prop where
  | nil : Gives known [] []
  /-- Two hyphens at the end. -/
  | stop {argument : String} (h : splitOption? argument = some ("", none)) :
    Gives known [argument] []
  | flag {argument name : String} {rest : List String} {given : GivenOptions}
    (h : splitOption? argument = some (name, none)) (hkind : known.lookup name = some .flag)
    (hrest : Gives known rest given) : Gives known (argument :: rest) ((name, "") :: given)
  | attached {argument name value : String} {kind : OptionKind} {rest : List String}
    {given : GivenOptions} (h : splitOption? argument = some (name, some value))
    (hkind : known.lookup name = some kind) (htakes : kind.takes value = true)
    (hrest : Gives known rest given) : Gives known (argument :: rest) ((name, value) :: given)
  | apart {argument name value : String} {kind : OptionKind} {rest : List String}
    {given : GivenOptions} (h : splitOption? argument = some (name, none))
    (hkind : known.lookup name = some kind) (hvalue : isValue value = true)
    (htakes : kind.takes value = true) (hrest : Gives known rest given) :
    Gives known (argument :: value :: rest) ((name, value) :: given)

theorem ne_flag_of_takes {kind : OptionKind} {value : String} (h : kind.takes value = true) :
    kind ≠ .flag := by
  rintro rfl
  cases h

theorem guard_bind_eq_some_iff {α : Type} {p : Prop} [Decidable p] {f : Unit → Option α} {a : α} :
    (guard p : Option Unit).bind f = some a ↔ p ∧ f () = some a := by
  by_cases hp : p
  · rw [guard, if_pos hp]
    exact (and_iff_right hp).symm
  · rw [guard, if_neg hp]
    refine iff_of_false (fun h => ?_) fun h => hp h.1
    cases h

theorem gives_of_readOptions_eq_some : ∀ {arguments : List String} {given : GivenOptions},
    readOptions known arguments = some given → Gives known arguments given
  | [], given, h => by
    obtain rfl : [] = given := Option.some.inj h
    exact .nil
  | argument :: rest, given, h => by
    rw [readOptions] at h
    obtain ⟨⟨name, attached⟩, hsplit, hread⟩ := Option.bind_eq_some_iff.1 h
    dsimp only at hread
    split at hread
    · rename_i hstop
      simp only [Bool.and_eq_true, decide_eq_true_eq, Option.isNone_iff_eq_none,
        List.isEmpty_iff] at hstop
      obtain ⟨⟨rfl, rfl⟩, rfl⟩ := hstop
      obtain rfl := Option.some.inj hread
      exact .stop hsplit
    · obtain ⟨kind, hkind, hread⟩ := Option.bind_eq_some_iff.1 hread
      split at hread
      · rename_i hflag
        rw [hflag] at hkind
        obtain ⟨hnone, hread⟩ := guard_bind_eq_some_iff.1 hread
        obtain ⟨more, hmore, hread⟩ := Option.bind_eq_some_iff.1 hread
        obtain rfl := Option.some.inj hread
        rw [Option.isNone_iff_eq_none] at hnone
        rw [hnone] at hsplit
        exact .flag hsplit hkind (gives_of_readOptions_eq_some hmore)
      · cases attached with
        | some value =>
          obtain ⟨htakes, hread⟩ := guard_bind_eq_some_iff.1 hread
          obtain ⟨more, hmore, hread⟩ := Option.bind_eq_some_iff.1 hread
          obtain rfl := Option.some.inj hread
          exact .attached hsplit hkind htakes (gives_of_readOptions_eq_some hmore)
        | none =>
          cases rest with
          | nil => cases hread
          | cons value others =>
            obtain ⟨hvalue, hread⟩ := guard_bind_eq_some_iff.1 hread
            obtain ⟨more, hmore, hread⟩ := Option.bind_eq_some_iff.1 hread
            obtain rfl := Option.some.inj hread
            rw [Bool.and_eq_true] at hvalue
            exact .apart hsplit hkind hvalue.1 hvalue.2 (gives_of_readOptions_eq_some hmore)

/-- Options are read from arguments exactly when the arguments are spellings of them. -/
theorem readOptions_eq_some_iff (hnone : known.lookup "" = none) :
    readOptions known arguments = some given ↔ Gives known arguments given := by
  constructor
  · exact gives_of_readOptions_eq_some
  intro h
  have hname {name : String} {kind : OptionKind} (hkind : known.lookup name = some kind) :
      name ≠ "" := by
    rintro rfl
    rw [hnone] at hkind
    cases hkind
  induction h with
  | nil => rfl
  | stop h =>
    rw [readOptions]
    exact Option.bind_eq_some_iff.2 ⟨_, h, rfl⟩
  | flag h hkind _ ih =>
    rw [readOptions]
    refine Option.bind_eq_some_iff.2 ⟨_, h, ?_⟩
    dsimp only
    rw [if_neg (by simp [hname hkind])]
    refine Option.bind_eq_some_iff.2 ⟨_, hkind, ?_⟩
    rw [if_pos rfl]
    exact guard_bind_eq_some_iff.2 ⟨rfl, Option.bind_eq_some_iff.2 ⟨_, ih, rfl⟩⟩
  | attached h hkind htakes _ ih =>
    rw [readOptions]
    refine Option.bind_eq_some_iff.2 ⟨_, h, ?_⟩
    dsimp only
    rw [if_neg (by simp)]
    refine Option.bind_eq_some_iff.2 ⟨_, hkind, ?_⟩
    rw [if_neg (ne_flag_of_takes htakes)]
    exact guard_bind_eq_some_iff.2 ⟨htakes, Option.bind_eq_some_iff.2 ⟨_, ih, rfl⟩⟩
  | apart h hkind hvalue htakes _ ih =>
    rw [readOptions]
    refine Option.bind_eq_some_iff.2 ⟨_, h, ?_⟩
    dsimp only
    rw [if_neg (by simp)]
    refine Option.bind_eq_some_iff.2 ⟨_, hkind, ?_⟩
    rw [if_neg (ne_flag_of_takes htakes)]
    exact guard_bind_eq_some_iff.2
      ⟨Bool.and_eq_true_iff.2 ⟨hvalue, htakes⟩, Option.bind_eq_some_iff.2 ⟨_, ih, rfl⟩⟩

/-! ### The option that calls for a report -/

/-- The argument that calls for a report. -/
def reportFlag : String := "--report-json"

def withoutFlag (arguments : List String) : List String := arguments.filter (· ≠ reportFlag)

/-- The arguments with the flag right behind the name of the command, and nowhere else. -/
def withFlag (arguments : List String) : List String :=
  (withoutFlag arguments).take 1 ++ reportFlag :: (withoutFlag arguments).drop 1

theorem splitOption?_reportFlag : splitOption? reportFlag = some ("report-json", none) := by
  decide

/-- Only the one argument calls for the option without a value. -/
theorem eq_reportFlag_of_splitOption? {argument : String}
    (h : splitOption? argument = some ("report-json", none)) : argument = reportFlag := by
  rw [splitOption?] at h
  split at h
  · rename_i rest hchars
    dsimp only at h
    split at h
    · rename_i hnone
      obtain ⟨hname, -⟩ := Prod.mk.inj (Option.some.inj h)
      have hall := List.takeWhile_append_dropWhile (p := (· ≠ '=')) (l := rest)
      rw [hnone, List.append_nil] at hall
      rw [hall] at hname
      have hrest : rest = "report-json".toList := by rw [← hname, String.toList_ofList]
      rw [← String.toList_inj, hchars, hrest]
      decide
    · have hvalue := (Prod.mk.inj (Option.some.inj h)).2
      cases hvalue
  · cases h

theorem ne_reportFlag_of_splitOption? {argument : String} {x : String × Option String}
    (h : splitOption? argument = some x) (hx : x ≠ ("report-json", none)) :
    argument ≠ reportFlag := by
  rintro rfl
  rw [splitOption?_reportFlag] at h
  exact hx (Option.some.inj h).symm

theorem ne_reportFlag_of_isValue {value : String} (h : isValue value = true) :
    value ≠ reportFlag := by
  rintro rfl
  exact absurd h (by decide)

section

variable (hflag : known.lookup "report-json" = some .flag)

include hflag

theorem ne_report_of_takes {name value : String} {kind : OptionKind}
    (hkind : known.lookup name = some kind) (htakes : kind.takes value = true) :
    name ≠ "report-json" := by
  rintro rfl
  rw [hflag] at hkind
  exact ne_flag_of_takes htakes (Option.some.inj hkind).symm

/-- The flag can be left out, and with it the option. -/
theorem Gives.withoutFlag (h : Gives known arguments given) :
    Gives known (withoutFlag arguments) (given.filter (·.1 ≠ "report-json")) := by
  rw [Command.withoutFlag]
  induction h with
  | nil => exact .nil
  | @stop argument h =>
    have hargument : argument ≠ reportFlag := ne_reportFlag_of_splitOption? h (by decide)
    rw [List.filter_cons_of_pos (by simpa using hargument)]
    exact .stop h
  | @flag argument name rest given h hkind _ ih =>
    by_cases hreport : argument = reportFlag
    · subst hreport
      rw [splitOption?_reportFlag] at h
      obtain ⟨rfl, -⟩ := Prod.mk.inj (Option.some.inj h)
      simpa using ih
    · have hne : name ≠ "report-json" := by
        rintro rfl
        exact hreport (eq_reportFlag_of_splitOption? h)
      rw [List.filter_cons_of_pos (by simpa using hreport),
        List.filter_cons_of_pos (by simpa using hne)]
      exact .flag h hkind ih
  | @attached argument name value kind rest given h hkind htakes _ ih =>
    have hargument : argument ≠ reportFlag := ne_reportFlag_of_splitOption? h (by simp)
    have hne := ne_report_of_takes hflag hkind htakes
    rw [List.filter_cons_of_pos (by simpa using hargument),
      List.filter_cons_of_pos (by simpa using hne)]
    exact .attached h hkind htakes ih
  | @apart argument name value kind rest given h hkind hvalue htakes _ ih =>
    have hne := ne_report_of_takes hflag hkind htakes
    have hargument : argument ≠ reportFlag :=
      ne_reportFlag_of_splitOption? h (by simpa using hne)
    have hreport := ne_reportFlag_of_isValue hvalue
    rw [List.filter_cons_of_pos (by simpa using hargument),
      List.filter_cons_of_pos (by simpa using hreport), List.filter_cons_of_pos (by simpa using hne)]
    exact .apart h hkind hvalue htakes ih

/-- The option is given by the flag and by nothing else. -/
theorem Gives.mem_names_iff (h : Gives known arguments given) :
    "report-json" ∈ given.map (·.1) ↔ reportFlag ∈ arguments := by
  induction h with
  | nil => simp
  | @stop argument h =>
    have hargument : argument ≠ reportFlag := ne_reportFlag_of_splitOption? h (by decide)
    simp [hargument.symm]
  | @flag argument name rest given h hkind _ ih =>
    have hname : "report-json" = name ↔ reportFlag = argument := by
      constructor
      · rintro rfl
        exact (eq_reportFlag_of_splitOption? h).symm
      · rintro rfl
        rw [splitOption?_reportFlag] at h
        exact (Prod.mk.inj (Option.some.inj h)).1
    rw [List.map_cons, List.mem_cons, List.mem_cons, hname, ih]
  | @attached argument name value kind rest given h hkind htakes _ ih =>
    have hargument : argument ≠ reportFlag := ne_reportFlag_of_splitOption? h (by simp)
    have hne := ne_report_of_takes hflag hkind htakes
    rw [List.map_cons, List.mem_cons, List.mem_cons, ih]
    exact or_congr (iff_of_false hne.symm hargument.symm) Iff.rfl
  | @apart argument name value kind rest given h hkind hvalue htakes _ ih =>
    have hne := ne_report_of_takes hflag hkind htakes
    have hargument : argument ≠ reportFlag :=
      ne_reportFlag_of_splitOption? h (by simpa using hne)
    have hreport := ne_reportFlag_of_isValue hvalue
    rw [List.map_cons, List.mem_cons, List.mem_cons, List.mem_cons, ih, or_iff_right hreport.symm]
    exact or_congr (iff_of_false hne.symm hargument.symm) Iff.rfl

end

theorem isSome_lookup_iff {entries : List (String × String)} {key : String} :
    (entries.lookup key).isSome = true ↔ key ∈ entries.map (·.1) := by
  rw [Option.isSome_iff_ne_none, ne_eq, List.lookup_eq_none_iff]
  simp

theorem options_eq_some_iff (hnone : known.lookup "" = none) :
    options known arguments = some given ↔
      Gives known arguments given ∧ (given.map (·.1)).Nodup := by
  rw [options, Option.filter_eq_some_iff, readOptions_eq_some_iff hnone, decide_eq_true_eq]

/-! ### Commands that can report -/

/-- Can the command report on what it does? A program has to go to a file, as the report takes its
place. -/
def reports : Command → Bool
  | check .. | format .. | generate _ (some _) .. => true
  | _ => false

/-- The command with or without a report. -/
def reporting (reportJson : Bool) : Command → Command
  | check input _ => check input reportJson
  | generate input out write compared _ => generate input out write compared reportJson
  | format input compared write _ => format input compared write reportJson
  | c => c

variable (known) in
/-- A command that is made from the other options does not depend on the flag but for the report. -/
theorem ofArguments?_of_make {name : String} {rest : List String} {c : Command}
    (make : (String → Option String) → Bool → Option Command) (hname : name ≠ reportFlag)
    (hnone : known.lookup "" = none) (hflag : known.lookup "report-json" = some .flag)
    (hmake : ∀ f g b, (∀ key, key ≠ "report-json" → f key = g key) → make f b = make g b)
    (hreporting : ∀ f b c, make f b = some c → ∀ b', make f b' = some (c.reporting b'))
    (hparse : ∀ rest, ofArguments? (name :: rest) = (options known rest).bind fun given =>
      make (fun key => given.lookup key) (given.lookup "report-json").isSome)
    (h : ofArguments? (name :: rest) = some c) :
    ofArguments? (withoutFlag (name :: rest)) = some (c.reporting false) ∧
      ofArguments? (withFlag (name :: rest)) = some (c.reporting true) ∧
        c = c.reporting (decide (reportFlag ∈ name :: rest)) := by
  rw [hparse] at h
  obtain ⟨given, hgiven, h⟩ := Option.bind_eq_some_iff.1 h
  obtain ⟨hgives, hnodup⟩ := (options_eq_some_iff hnone).1 hgiven
  have hwithout : withoutFlag (name :: rest) = name :: withoutFlag rest :=
    List.filter_cons_of_pos (by simpa using hname)
  have hwith : withFlag (name :: rest) = name :: reportFlag :: withoutFlag rest := by
    rw [withFlag, hwithout]
    rfl
  let kept := given.filter (·.1 ≠ "report-json")
  have hkept : options known (withoutFlag rest) = some kept :=
    (options_eq_some_iff hnone).2 ⟨hgives.withoutFlag hflag,
      hnodup.sublist (List.filter_sublist.map _)⟩
  have hother : ∀ key, key ≠ "report-json" → kept.lookup key = given.lookup key :=
    fun key hkey => FileTree.lookup_filter_ne given hkey
  have hreport : "report-json" ∉ kept.map (·.1) := by
    intro hmem
    obtain ⟨e, he, hkey⟩ := List.mem_map.1 hmem
    exact absurd hkey (by simpa using (List.mem_filter.1 he).2)
  have hadded : options known (reportFlag :: withoutFlag rest) = some (("report-json", "") :: kept) := by
    rw [options_eq_some_iff hnone]
    exact ⟨.flag splitOption?_reportFlag hflag (hgives.withoutFlag hflag),
      List.nodup_cons.2 ⟨hreport, ((options_eq_some_iff hnone).1 hkept).2⟩⟩
  have hmade := hreporting _ _ _ h
  refine ⟨?_, ?_, ?_⟩
  · have hnot : (kept.lookup "report-json").isSome = false := by
      rw [Bool.eq_false_iff, ne_eq, isSome_lookup_iff]
      exact hreport
    rw [hwithout, hparse, hkept, Option.bind_some, hnot, hmake _ _ _ hother]
    exact hmade false
  · rw [hwith, hparse, hadded, Option.bind_some]
    refine (hmake _ _ _ fun key hkey => ?_).trans (hmade true)
    rw [List.lookup_cons, beq_false_of_ne hkey]
    exact hother key hkey
  · have hsome : (given.lookup "report-json").isSome = decide (reportFlag ∈ name :: rest) := by
      rw [Bool.eq_iff_iff, isSome_lookup_iff, hgives.mem_names_iff hflag, decide_eq_true_eq,
        List.mem_cons, or_iff_right hname.symm]
    rw [← hsome]
    exact Option.some.inj (h.symm.trans (hmade _))

/-- The flag can stand anywhere among the options of a command that can report, and decides on the
report only. -/
theorem ofArguments?_reporting {c : Command} (h : ofArguments? arguments = some c)
    (hc : c.reports = true) :
    ofArguments? (withoutFlag arguments) = some (c.reporting false) ∧
      ofArguments? (withFlag arguments) = some (c.reporting true) ∧
        c = c.reporting (decide (reportFlag ∈ arguments)) := by
  have hcommand := h
  unfold ofArguments? at h
  split at h
  · obtain ⟨given, -, h⟩ := Option.bind_eq_some_iff.1 h
    obtain rfl := Option.some.inj h
    cases hc
  · obtain ⟨given, -, h⟩ := Option.bind_eq_some_iff.1 h
    obtain rfl := Option.some.inj h
    cases hc
  · refine ofArguments?_of_make [("input", .path), ("report-json", .flag)]
      (fun f b => (f "input").bind fun input => some (check input b)) (by decide) (by decide)
      (by decide) (fun f g b hfg => ?_) (fun f b c hf b' => ?_) (fun rest => rfl) hcommand
    · rw [hfg _ (by decide)]
    · obtain ⟨input, hinput, hc⟩ := Option.bind_eq_some_iff.1 hf
      obtain rfl := Option.some.inj hc
      rw [hinput]
      rfl
  · obtain ⟨given, -, h⟩ := Option.bind_eq_some_iff.1 h
    obtain ⟨input, -, h⟩ := Option.bind_eq_some_iff.1 h
    obtain rfl := Option.some.inj h
    cases hc
  · refine ofArguments?_of_make [("input", .path), ("out", .path), ("write", .flag),
        ("check", .flag), ("report-json", .flag)]
      (fun f b => (f "input").bind fun input =>
        some (generate input (f "out") (f "write").isSome (f "check").isSome b))
      (by decide) (by decide) (by decide) (fun f g b hfg => ?_) (fun f b c hf b' => ?_)
      (fun rest => rfl) hcommand
    · rw [hfg "input" (by decide), hfg "out" (by decide), hfg "write" (by decide),
        hfg "check" (by decide)]
    · obtain ⟨input, hinput, hc⟩ := Option.bind_eq_some_iff.1 hf
      obtain rfl := Option.some.inj hc
      rw [hinput]
      rfl
  · refine ofArguments?_of_make [("input", .path), ("check", .flag), ("write", .flag),
        ("report-json", .flag)]
      (fun f b => (f "input").bind fun input =>
        some (format input (f "check").isSome (f "write").isSome b))
      (by decide) (by decide) (by decide) (fun f g b hfg => ?_) (fun f b c hf b' => ?_)
      (fun rest => rfl) hcommand
    · rw [hfg "input" (by decide), hfg "check" (by decide), hfg "write" (by decide)]
    · obtain ⟨input, hinput, hc⟩ := Option.bind_eq_some_iff.1 hf
      obtain rfl := Option.some.inj hc
      rw [hinput]
      rfl
  · obtain ⟨given, -, h⟩ := Option.bind_eq_some_iff.1 h
    obtain ⟨name, -, h⟩ := Option.bind_eq_some_iff.1 h
    obtain ⟨out, -, h⟩ := Option.bind_eq_some_iff.1 h
    obtain rfl := Option.some.inj h
    cases hc
  · cases h

end SmartContract.Command
