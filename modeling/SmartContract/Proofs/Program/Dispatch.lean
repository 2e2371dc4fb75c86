import SmartContract.Proofs.Program.Parts
import SmartContract.Proofs.Program.WellFormed

/-!
The program for an accepted description takes every message to the method whose code is its first
word. The cases before that of the method are passed over, the function is called with the next words
of the message, and the cases behind are not reached, since the choice is left.
-/

namespace SmartContract

namespace Program

/-! ### Names that say one thing -/

variable {α β : Type} {xs : List α} {x : α}

/-- If values differ, one element only has the value of a given element. -/
theorem filter_eq_singleton [DecidableEq β] {f : α → β} (h : (xs.map f).Nodup) (hx : x ∈ xs) :
    xs.filter (f · = f x) = [x] := by
  induction xs with
  | nil => cases hx
  | cons y xs ih =>
    obtain ⟨hy, hxs⟩ := List.nodup_cons.1 h
    rcases List.mem_cons.1 hx with rfl | hx
    · have hnone : xs.filter (f · = f x) = [] := by
        refine List.filter_eq_nil_iff.2 fun z hz heq => hy ?_
        exact of_decide_eq_true heq ▸ List.mem_map_of_mem hz
      simp [hnone]
    · have hne : f y ≠ f x := fun heq => hy (heq ▸ List.mem_map_of_mem hx)
      simp [hne, ih hxs hx]

theorem under_eq_singleton {said : Line → Option (String × α)} {ls : List Line} {name : String}
    (h : ((ls.filterMap said).map (·.1)).Nodup) (hx : (name, x) ∈ ls.filterMap said) :
    under said ls name = [x] := by
  rw [under, filter_eq_singleton h hx]
  rfl

/-! ### Runs -/

variable {value? : String → Option Word} {message : Message} {phase next final : Phase}
variable {calls more : List Call} {ls ms : List Line}

theorem run_cons {l : Line} (hstep : step value? message phase l = some (next, calls))
    (hrun : run value? message next ls = some (final, more)) :
    run value? message phase (l :: ls) = some (final, calls ++ more) := by
  simp only [run, hstep, Option.bind_some, hrun, Option.map_some]

theorem run_append (hls : run value? message phase ls = some (next, calls))
    (hms : run value? message next ms = some (final, more)) :
    run value? message phase (ls ++ ms) = some (final, calls ++ more) := by
  induction ls generalizing phase calls with
  | nil =>
    obtain ⟨rfl, rfl⟩ : phase = next ∧ [] = calls := by simpa [run] using hls
    exact hms
  | cons l ls ih =>
    -- The first line leads to a phase in which the others are run.
    rw [run, Option.bind_eq_some_iff] at hls
    obtain ⟨⟨first, firstCalls⟩, hstep, hrest⟩ := hls
    obtain ⟨⟨_, restCalls⟩, hrun, heq⟩ := Option.map_eq_some_iff.1 hrest
    obtain ⟨rfl, rfl⟩ := Prod.mk.inj heq
    rw [List.cons_append, List.append_assoc]
    exact run_cons hstep (ih hrun)

theorem mapM_range {n k : Nat} (h : n + k ≤ xs.length) :
    (List.range n).mapM (fun i => xs[i + k]?) = some ((xs.drop k).take n) := by
  induction n with
  | zero => rfl
  | succ n ih =>
    have hn : n + k < xs.length := by omega
    rw [List.range_succ, List.mapM_append, ih (by omega), List.take_add_one, List.getElem?_drop,
      Nat.add_comm k n, List.getElem?_eq_getElem hn]
    simp [List.getElem?_eq_getElem hn]

/-- Behind its label a case calls its function with the next words of the message and is left. -/
theorem run_caseLines {m : Method} (hvalue : value? m.constant = some message[0])
    (harguments : m.arguments.length < Limit.messageWords) :
    run value? message .choosing m.caseLines =
      some (.left, [⟨m.name, (message.toList.drop 1).take m.arguments.length⟩]) := by
  have hlabel : step value? message .choosing (.choiceCase m.constant) = some (.chosen, []) := by
    rw [step, hvalue, Option.map_some, if_pos rfl]
  have hcall : step value? message .chosen (.call m.name m.arguments.length) =
      some (.chosen, [⟨m.name, (message.toList.drop 1).take m.arguments.length⟩]) := by
    have hwords : (List.range m.arguments.length).mapM (fun i => message[i + 1]?) =
        some ((message.toList.drop 1).take m.arguments.length) := by
      have hlength : m.arguments.length + 1 ≤ message.toList.length := by
        rw [Vector.length_toList]
        exact harguments
      rw [← mapM_range hlength]
      simp
    rw [step, hwords, Option.map_some]
  exact run_cons hlabel (run_cons hcall rfl)

theorem run_caseLines_of_ne {m : Method} {value : Word} (hvalue : value? m.constant = some value)
    (hne : value ≠ message[0]) :
    run value? message .choosing m.caseLines = some (.choosing, []) := by
  have hlabel : step value? message .choosing (.choiceCase m.constant) = some (.choosing, []) := by
    rw [step, hvalue, Option.map_some, if_neg hne]
  exact run_cons hlabel rfl

theorem run_flatMap_caseLines {methods : List Method}
    (h : ∀ m ∈ methods, ∃ value, value? m.constant = some value ∧ value ≠ message[0]) :
    run value? message .choosing (methods.flatMap Method.caseLines) = some (.choosing, []) := by
  induction methods with
  | nil => rfl
  | cons m methods ih =>
    obtain ⟨⟨value, hvalue, hne⟩, hmethods⟩ := List.forall_mem_cons.1 h
    exact run_append (run_caseLines_of_ne hvalue hne) (ih hmethods)

/-- When the choice has been left, no case is reached. -/
theorem run_flatMap_caseLines_left (methods : List Method) :
    run value? message .left (methods.flatMap Method.caseLines) = some (.left, []) := by
  induction methods with
  | nil => rfl
  | cons m methods ih =>
    have hm : run value? message .left m.caseLines = some (.left, []) := rfl
    exact run_append hm ih

end Program

namespace Description

open Program

variable {d : Description}

/-! ### The program of an accepted description -/

/-- The names that the program defines as constants. -/
theorem names_definitions_program (d : Description) :
    (d.program.filterMap Line.definition?).map (·.1) = d.toDraft.constants := by
  rw [definitions_program, constants_toDraft, List.map_append, List.map_map, List.map_filterMap]
  simp only [Option.map_map, Function.comp_def]

/-- What the program defines it defines once. -/
theorem IsAccepted.under_of_mem_definitions (h : d.IsAccepted) {c : String × Nat}
    (hc : c ∈ d.program.filterMap Line.definition?) :
    under Line.definition? d.program c.1 = [c.2] := by
  refine under_eq_singleton ?_ hc
  rw [names_definitions_program]
  exact (List.nodup_append.1 h.lawful.symbols).2.1

theorem IsAccepted.under_constant (h : d.IsAccepted) {m : Method} (hm : m ∈ d.methods) :
    under Line.definition? d.program m.constant = [m.code] := by
  apply h.under_of_mem_definitions (c := (m.constant, m.code))
  rw [d.definitions_program]
  exact List.mem_append_left _ (List.mem_map_of_mem hm)

theorem IsAccepted.word?_constant (h : d.IsAccepted) {m : Method} (hm : m ∈ d.methods) :
    word? d.program m.constant = some (BitVec.ofNat 64 m.code) := by
  rw [word?, h.under_constant hm]

theorem IsAccepted.code_lt (h : d.IsAccepted) {m : Method} (hm : m ∈ d.methods) :
    m.code < Nat.pow 2 64 :=
  Nat.lt_of_le_of_lt (h.code_method hm).2 (by decide)

/-- A word is the code of a method as a word exactly when it stands for the same number. -/
theorem IsAccepted.ofNat_code_eq_iff (h : d.IsAccepted) {m : Method} (hm : m ∈ d.methods)
    (w : Word) : BitVec.ofNat 64 m.code = w ↔ w.toNat = m.code := by
  have hcode : (BitVec.ofNat 64 m.code).toNat = m.code := by
    rw [BitVec.toNat_ofNat]
    exact Nat.mod_eq_of_lt (h.code_lt hm)
  constructor
  · rintro rfl
    exact hcode
  · intro hw
    exact BitVec.eq_of_toNat_eq (hcode.trans hw.symm)

theorem filterMap_mainBody {α : Type} {said : Line → Option α} (d : Description)
    (h : ∀ l ∈ [Line.blank, .loopStart, .lookUpSender, .readMessage, .choiceStart, .close 1,
      .close 2], said l = none) :
    (mainBody d.program).filterMap said = d.methods.flatMap (·.caseLines.filterMap said) := by
  rw [mainBody_program, choiceLines]
  split
  · rename_i hnil
    rw [List.isEmpty_iff.1 hnil]
    simp_all
  · simp_all [List.filterMap_flatMap]

theorem labels_program (d : Description) : labels d.program = d.methods.map Method.constant := by
  rw [labels, d.filterMap_mainBody (by decide), List.map_eq_flatMap]
  rfl

theorem callees_program (d : Description) :
    (mainBody d.program).filterMap Line.callee? =
      d.methods.map fun m => (m.name, m.arguments.length) := by
  rw [d.filterMap_mainBody (by decide), List.map_eq_flatMap]
  rfl

/-- The calls of the program are those that the choice makes. -/
theorem calls?_program {message : Message} {phase : Phase} {calls : List Call}
    (hrun : run (word? d.program) message .choosing (d.methods.flatMap Method.caseLines) =
      some (phase, calls))
    (hclose : step (word? d.program) message phase (.close 2) = some (.outside, [])) :
    calls? d.program message = some calls := by
  have hstart : run (word? d.program) message .outside [.loopStart, .lookUpSender, .readMessage] =
      some (.outside, []) := rfl
  have hend : run (word? d.program) message .outside [.close 1] = some (.outside, []) := rfl
  have hchoice : run (word? d.program) message .outside d.choiceLines = some (.outside, calls) := by
    rw [choiceLines]
    split
    -- Without methods there is no choice.
    · rename_i hnil
      rw [List.isEmpty_iff.1 hnil] at hrun
      obtain ⟨-, rfl⟩ := Prod.mk.inj (Option.some.inj hrun)
      rfl
    · have hopen : run (word? d.program) message .outside [.blank, .choiceStart] =
          some (.choosing, []) := rfl
      have hleave : run (word? d.program) message phase [.close 2] = some (.outside, []) :=
        run_cons hclose rfl
      have hall := run_append (run_append hopen hrun) hleave
      rwa [List.nil_append, List.append_nil] at hall
  have hall := run_append (run_append hstart hchoice) hend
  rw [calls?, mainBody_program, hall, List.nil_append, List.append_nil, Option.map_some]

theorem IsAccepted.nodup_words (h : d.IsAccepted) :
    ((labels d.program).map (word? d.program)).Nodup := by
  have hwords : (labels d.program).map (word? d.program) =
      (d.methods.map (·.code)).map fun code => some (BitVec.ofNat 64 code) := by
    rw [labels_program, List.map_map, List.map_map]
    refine List.map_congr_left fun m hm => ?_
    rw [Function.comp_apply, Function.comp_apply, h.word?_constant hm]
  rw [hwords]
  refine h.nodup_codes.map_on fun x hx y hy heq => ?_
  obtain ⟨m, hm, rfl⟩ := List.mem_map.1 hx
  obtain ⟨n, hn, rfl⟩ := List.mem_map.1 hy
  have hword := (h.ofNat_code_eq_iff hm _).1 (Option.some.inj heq)
  exact (((h.ofNat_code_eq_iff hn _).1 rfl).symm.trans hword).symm

theorem IsAccepted.under_function (h : d.IsAccepted) {m : Method} (hm : m ∈ d.methods) :
    under Line.function? d.program m.name = [m.arguments.map (·.name)] := by
  refine under_eq_singleton ?_ ?_
  · rw [functions_program, List.map_cons, List.map_map, List.nodup_cons]
    refine ⟨?_, h.nodup_names_methods⟩
    intro hmain
    obtain ⟨n, hn, hname⟩ := List.mem_map.1 hmain
    exact h.name_method_ne_main hn hname
  · rw [functions_program]
    exact List.mem_cons_of_mem _ (List.mem_map_of_mem hm)

theorem IsAccepted.under_definition_method (h : d.IsAccepted) {m : Method} (hm : m ∈ d.methods) :
    under Line.definition? d.program m.name = [] := by
  rw [under, List.map_eq_nil_iff, List.filter_eq_nil_iff]
  intro definition hdefinition heq
  refine (h.free_method hm).2 ?_
  rw [← names_definitions_program, ← of_decide_eq_true heq]
  exact List.mem_map_of_mem hdefinition

/-- A message whose first word is the code of a method makes the one call of its case. -/
theorem IsAccepted.calls?_of_code (h : d.IsAccepted) {message : Message} {m : Method}
    (hm : m ∈ d.methods) (hcode : message[0].toNat = m.code) :
    calls? d.program message =
      some [⟨m.name, (message.toList.drop 1).take m.arguments.length⟩] := by
  obtain ⟨before, behind, hmethods⟩ := List.append_of_mem hm
  have hvalue : word? d.program m.constant = some message[0] := by
    rw [h.word?_constant hm, (h.ofNat_code_eq_iff hm _).2 hcode]
  -- No method before this one has its code.
  have hbefore : ∀ n ∈ before, ∃ value, word? d.program n.constant = some value ∧
      value ≠ message[0] := by
    intro n hn
    have hmem : n ∈ d.methods := hmethods ▸ List.mem_append_left _ hn
    refine ⟨_, h.word?_constant hmem, fun heq => ?_⟩
    have hsame := (h.ofNat_code_eq_iff hmem _).1 heq
    have hcodes := h.nodup_codes
    rw [hmethods, List.map_append, List.nodup_append] at hcodes
    exact hcodes.2.2 _ (List.mem_map_of_mem hn) _ (List.mem_map_of_mem List.mem_cons_self)
      (hsame.symm.trans hcode)
  have harguments : m.arguments.length < Limit.messageWords :=
    Nat.lt_succ_of_le (h.arguments_method hm)
  have hcase := run_append (run_caseLines hvalue harguments) (run_flatMap_caseLines_left behind)
  have hall := run_append (run_flatMap_caseLines hbefore) hcase
  rw [List.nil_append, List.append_nil, ← List.flatMap_cons, ← List.flatMap_append, ← hmethods]
    at hall
  exact calls?_program hall rfl

theorem IsAccepted.calls?_of_no_code (h : d.IsAccepted) {message : Message}
    (hcodes : ∀ m ∈ d.methods, message[0].toNat ≠ m.code) : calls? d.program message = some [] := by
  refine calls?_program (run_flatMap_caseLines fun m hm => ?_) rfl
  exact ⟨_, h.word?_constant hm, fun heq => hcodes m hm ((h.ofNat_code_eq_iff hm _).1 heq)⟩

/-- A word that is the value of a label is the value of no other. -/
theorem IsAccepted.filter_labels (h : d.IsAccepted) {m : Method} (hm : m ∈ d.methods) {w : Word}
    (hcode : w.toNat = m.code) :
    (labels d.program).filter (word? d.program · = some w) = [m.constant] := by
  have hlabel : m.constant ∈ labels d.program := by
    rw [labels_program]
    exact List.mem_map_of_mem hm
  rw [← (h.ofNat_code_eq_iff hm w).2 hcode, ← h.word?_constant hm]
  exact filter_eq_singleton h.nodup_words hlabel

theorem IsAccepted.filter_labels_eq_nil (h : d.IsAccepted) {w : Word}
    (hcodes : ∀ m ∈ d.methods, w.toNat ≠ m.code) :
    (labels d.program).filter (word? d.program · = some w) = [] := by
  rw [labels_program, List.filter_eq_nil_iff, List.forall_mem_map]
  intro m hm heq
  rw [decide_eq_true_iff, h.word?_constant hm, Option.some.injEq, h.ofNat_code_eq_iff hm] at heq
  exact hcodes m hm heq

theorem caseLines_isInfix_mainBody {m : Method} (hm : m ∈ d.methods) :
    m.caseLines <:+: mainBody d.program := by
  have hne : d.methods.isEmpty = false := List.isEmpty_eq_false_iff.2 (List.ne_nil_of_mem hm)
  have hcase : m.caseLines <:+: d.methods.flatMap Method.caseLines :=
    List.infix_of_mem_flatten (List.mem_map_of_mem hm)
  refine hcase.trans ⟨[.loopStart, .lookUpSender, .readMessage, .blank, .choiceStart],
    [.close 2, .close 1], ?_⟩
  simp [mainBody_program, choiceLines, hne]

end Description

/-- The lines take a message to the method whose code is its first word. -/
structure Program.Dispatches (ls : List Line) (d : Description) : Prop where
  /-- The message that is declared has as many words as are read. -/
  declared : under Line.array? ls "message" = [Limit.messageWords]
  /-- The code of a method is the value of the one label of its case, which calls the function of the
  method with the words behind the code, and is left. -/
  taken : ∀ message : Message, ∀ m ∈ d.methods, message[0].toNat = m.code →
    (labels ls).filter (word? ls · = some message[0]) = [m.constant] ∧
      [.choiceCase m.constant, .call m.name m.arguments.length, .leave] <:+: mainBody ls ∧
      m.arguments.length < Limit.messageWords ∧
      calls? ls message = some [⟨m.name, (message.toList.drop 1).take m.arguments.length⟩]
  /-- What is the code of no method takes no case. -/
  passed : ∀ message : Message, (∀ m ∈ d.methods, message[0].toNat ≠ m.code) →
    (labels ls).filter (word? ls · = some message[0]) = [] ∧ calls? ls message = some []
  /-- Zero is the code of no method. -/
  zero : ∀ message : Message, message[0] = 0 → calls? ls message = some []
  /-- A label is defined exactly once. -/
  defined : ∀ name ∈ labels ls, ∃ value, under Line.definition? ls name = [value]
  /-- Labels have different values. -/
  distinct : ((labels ls).map (word? ls)).Nodup
  /-- A function that is called is there exactly once, with as many parameters as it is called with;
  and its name is no constant. -/
  functions : ∀ callee ∈ (mainBody ls).filterMap Line.callee?,
    (∃ parameters, under Line.function? ls callee.1 = [parameters] ∧
      parameters.length = callee.2) ∧ under Line.definition? ls callee.1 = []

open Program

/-- The text of the program for an accepted description takes every message to the method whose code
is its first word, and no message to anything else. -/
theorem program_dispatches {d : Description} (h : d.IsAccepted) :
    ∃ ls, readProgram? d.code = some ls ∧ Program.Dispatches ls d := by
  refine ⟨d.program, h.readProgram?_code, ?_, fun message m hm hcode => ?_,
    fun message hcodes => ?_, fun message hzero => ?_, fun name hname => ?_, h.nodup_words,
    fun callee hcallee => ?_⟩
  · rw [under, d.arrays_program]
    rfl
  · exact ⟨h.filter_labels hm hcode, Description.caseLines_isInfix_mainBody hm,
      Nat.lt_succ_of_le (h.arguments_method hm), h.calls?_of_code hm hcode⟩
  · exact ⟨h.filter_labels_eq_nil hcodes, h.calls?_of_no_code hcodes⟩
  · refine h.calls?_of_no_code fun m hm heq => ?_
    have hpositive := (h.code_method hm).1
    rw [hzero] at heq
    exact absurd (heq ▸ hpositive) (by decide)
  · rw [d.labels_program] at hname
    obtain ⟨m, hm, rfl⟩ := List.mem_map.1 hname
    exact ⟨m.code, h.under_constant hm⟩
  · rw [d.callees_program] at hcallee
    obtain ⟨m, hm, rfl⟩ := List.mem_map.1 hcallee
    exact ⟨⟨_, h.under_function hm, List.length_map _⟩, h.under_definition_method hm⟩

theorem program_dispatches_sample :
    ∃ ls, readProgram? Description.sample.code = some ls ∧
      calls? ls #v[7, 11, 22, 33] = some [⟨"pay", [11, 22]⟩] ∧
      calls? ls #v[8, 11, 22, 33] = some [] := by
  obtain ⟨ls, hls, hdispatches⟩ := program_dispatches Description.isAccepted_sample
  have hpay := hdispatches.taken #v[7, 11, 22, 33]
    ⟨"pay", none, 7, [⟨"recipient", ⟨.address, false⟩⟩, ⟨"total", ⟨.amount, false⟩⟩]⟩ (by decide) rfl
  exact ⟨ls, hls, hpay.2.2.2, (hdispatches.passed #v[8, 11, 22, 33] (by decide)).2⟩

end SmartContract
