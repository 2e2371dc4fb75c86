import SmartContract.Json.Shape.Violation

/-!
Checking a value against a shape. `violations` lists everything that is wrong with the value;
nothing is exactly when the value has the shape.
-/

namespace SmartContract.Json.Shape

def textFails (p : String → Bool) : Json → Bool
  | .string s => !p s
  | _ => false

def lacking (names : List String) : Json → List String
  | .object members => names.filter fun name => !(members.map (·.1)).contains name
  | _ => []

def foreign (names : List String) : Json → List String
  | .object members => (members.map (·.1)).filter fun name => !names.contains name
  | _ => []

/-- What is wrong with the value that the pointer leads to. -/
def violations (p : Pointer) : Shape → Json → List Violation
  | kind k, v => if k.includes v then [] else [⟨p, .kind v k⟩]
  | minLength n, v => if textFails (n ≤ ·.length) v then [⟨p, .minLength v n⟩] else []
  | maxLength n, v => if textFails (·.length ≤ n) v then [⟨p, .maxLength v n⟩] else []
  | form f, v => if textFails f.accepts v then [⟨p, .form v f⟩] else []
  | minimum n, v => if isBelow n v then [⟨p, .minimum v n⟩] else []
  | maximum n, v => if isAbove n v then [⟨p, .maximum v n⟩] else []
  | oneOf options, v =>
    match v.text? with
    | some s => if options.contains s then [] else [⟨p, .oneOf v options⟩]
    | none => [⟨p, .oneOf v options⟩]
  | exactly s, v => if v.text? = some s then [] else [⟨p, .exactly v s⟩]
  | maxItems n, v =>
    match v.items? with
    | some xs => if xs.length ≤ n then [] else [⟨p, .maxItems v n⟩]
    | none => []
  | items s, v =>
    match v.items? with
    | some xs => xs.zipIdx.flatMap fun x => violations (p.item x.2) s x.1
    | none => []
  | required names, v => (lacking names v).map fun name => ⟨p, .required name⟩
  | closed names, v =>
    match foreign names v with
    | [] => []
    | extra => [⟨p, .closed extra⟩]
  | member name s, v =>
    match v.get? name with
    | some w => violations (p.member name) s w
    | none => []
  | both s t, v => violations p s v ++ violations p t v
  | either s t, v =>
    match violations p s v, violations p t v with
    | [], _ => []
    | _, [] => []
    | _, _ => [⟨p, .either v⟩]

theorem textFails_eq_false_iff {p : String → Bool} {v : Json} :
    textFails p v = false ↔ ∀ s, v = .string s → p s = true := by
  cases v <;> simp [textFails]

theorem text?_eq_some_iff {v : Json} {s : String} : v.text? = some s ↔ v = .string s := by
  cases v <;> simp [text?]

/-- A value has a shape exactly when nothing is wrong with it. -/
theorem violations_eq_nil_iff (s : Shape) (p : Pointer) (v : Json) :
    violations p s v = [] ↔ s.Holds v := by
  induction s generalizing p v with
  | kind k => simp [violations, Holds]
  | minLength n =>
    simp only [violations, Holds, ite_eq_right_iff, List.cons_ne_nil, imp_false,
      Bool.not_eq_true, textFails_eq_false_iff, decide_eq_true_eq]
  | maxLength n =>
    simp only [violations, Holds, ite_eq_right_iff, List.cons_ne_nil, imp_false,
      Bool.not_eq_true, textFails_eq_false_iff, decide_eq_true_eq]
  | form f =>
    simp only [violations, Holds, ite_eq_right_iff, List.cons_ne_nil, imp_false,
      Bool.not_eq_true, textFails_eq_false_iff]
  | minimum n => simp [violations, Holds]
  | maximum n => simp [violations, Holds]
  | oneOf options => cases v <;> simp [violations, Holds, text?]
  | exactly s => simp [violations, Holds, text?_eq_some_iff]
  | maxItems n => cases v <;> simp [violations, Holds, items?]
  | items s ih =>
    cases v with
    | array xs =>
      simp only [violations, Holds, items?, List.flatMap_eq_nil_iff, ih, array.injEq,
        forall_eq']
      constructor
      · intro h x hx
        obtain ⟨i, hi⟩ := List.mem_iff_getElem?.1 hx
        exact h (x, i) (List.mem_zipIdx_iff_getElem?.2 hi)
      · intro h x hx
        exact h x.1 (List.mem_iff_getElem?.2 ⟨x.2, List.mem_zipIdx_iff_getElem?.1 hx⟩)
    | _ => simp [violations, Holds, items?]
  | required names =>
    cases v with
    | object ms => simp [violations, Holds, lacking]
    | _ => simp [violations, Holds, lacking]
  | closed names =>
    cases v with
    | object ms =>
      have : violations p (closed names) (.object ms) = [] ↔ foreign names (.object ms) = [] := by
        simp only [violations]
        split <;> simp_all
      rw [this]
      simp [Holds, foreign]
    | _ => simp [violations, Holds, foreign]
  | member name s ih =>
    simp only [violations, Holds]
    split <;> simp_all
  | both s t ihs iht => simp [violations, Holds, ihs, iht]
  | either s t ihs iht =>
    rw [Holds, ← ihs p v, ← iht p v]
    simp only [violations]
    split <;> simp_all

end SmartContract.Json.Shape
