import Mathlib.Data.String.Basic
import SmartContract.Json.Pointer
import SmartContract.Json.Shape
import SmartContract.Proofs.Numeric.Numeral
import SmartContract.Proofs.Text.Blank

/-!
What pointers lead to. A pointer is followed as it is written as well: the text is cut at its
slashes, and every piece is the index of an item or the escaped name of a member. Both ways lead to
the same part. What is wrong with a value is wrong with a part that it has.
-/

namespace SmartContract.Json

variable {v w : Json} {p : Pointer}

/-! ### Steps -/

namespace Pointer

theorem resolve?_append (v : Json) (p q : Pointer) :
    resolve? v (p ++ q) = resolve? v p >>= fun part => resolve? part q := by
  induction p generalizing v with
  | nil => rfl
  | cons step p ih =>
    rw [List.cons_append, resolve?, resolve?]
    cases step.resolve? v with
    | none => rfl
    | some part => exact ih part

theorem resolve?_member (h : resolve? v p = some w) (name : String) :
    resolve? v (p.member name) = w.get? name := by
  rw [member, resolve?_append, h]
  show (w.get? name >>= fun part => some part) = w.get? name
  exact bind_pure _

theorem resolve?_item {items : List Json} (h : resolve? v p = some (.array items))
    (i : Nat) : resolve? v (p.item i) = items[i]? := by
  rw [item, resolve?_append, h]
  show (items[i]? >>= fun part => some part) = items[i]?
  exact bind_pure _

/-! ### Pointers as they are written -/

/-- The characters that stand escaped in a pointer. -/
def unescape : List Char → List Char
  | '~' :: '0' :: rest => '~' :: unescape rest
  | '~' :: '1' :: rest => '/' :: unescape rest
  | c :: rest => c :: unescape rest
  | [] => []

/-- The part of a value that a piece of a text leads to: the member of that name, or the item with
that index, which is written without zeros before it. -/
def follow? (piece : List Char) : Json → Option Json
  | .object members => members.lookup (String.ofList (unescape piece))
  | .array items => (items.zipIdx.find? fun x => Nat.toDigits 10 x.2 == piece).map (·.1)
  | _ => none

/-- The part of a value that a text leads to: the value itself if the text is empty, and else a slash
stands before every step. -/
def find? (v : Json) (text : String) : Option Json :=
  match Text.pieces (· == '/') text.toList with
  | [] :: steps => steps.foldlM (fun part piece => follow? piece part) v
  | _ => none

end Pointer

theorem unescape_flatMap_escape (cs : List Char) :
    Pointer.unescape (cs.flatMap Step.escape) = cs := by
  induction cs with
  | nil => rfl
  | cons c cs ih =>
    rw [List.flatMap_cons, Step.escape]
    split
    · rename_i hc
      rw [hc]
      exact congrArg _ ih
    · split
      · rename_i hc
        rw [hc]
        exact congrArg _ ih
      · rename_i hc _
        rw [List.singleton_append, Pointer.unescape, ih]
        · exact fun _ h => absurd h hc
        · exact fun _ h => absurd h hc

theorem not_mem_text (step : Step) : ∀ c ∈ step.text.toList, (c == '/') = false := by
  intro c hc
  rw [beq_eq_false_iff_ne]
  rintro rfl
  cases step with
  | member name =>
    rw [Step.text, String.toList_ofList, List.mem_flatMap] at hc
    obtain ⟨d, -, hd⟩ := hc
    rw [Step.escape] at hd
    split at hd
    · revert hd; decide
    · split at hd
      · revert hd; decide
      · rename_i hne
        exact hne (List.mem_singleton.1 hd).symm
  | item i =>
    rw [Step.text, Numeral.toList_text] at hc
    exact absurd (Numeral.isDigit_of_mem_toDigits hc) (by decide)

theorem pieces_steps (p : Pointer) {cs : List Char} (h : ∀ c ∈ cs, (c == '/') = false) :
    Text.pieces (· == '/') (cs ++ p.flatMap fun step => '/' :: step.text.toList) =
      cs :: p.map (·.text.toList) := by
  induction p generalizing cs with
  | nil => rw [List.flatMap_nil, List.append_nil, Text.pieces_of_none h, List.map_nil]
  | cons step p ih =>
    rw [List.flatMap_cons, List.cons_append, Text.pieces_append_cons h rfl,
      ih (not_mem_text step), List.map_cons]

theorem toList_text (p : Pointer) :
    p.text.toList = p.flatMap fun step => '/' :: step.text.toList := by
  rw [Pointer.text, String.toList_join, List.flatMap_map]
  exact List.flatMap_congr fun step _ => String.toList_append

theorem follow?_text {step : Step} (h : step.resolve? v = some w) :
    Pointer.follow? step.text.toList v = some w := by
  cases step with
  | member name =>
    cases v with
    | object ms =>
      rw [Step.text, String.toList_ofList, Pointer.follow?, unescape_flatMap_escape,
        String.ofList_toList]
      exact h
    | _ => cases h
  | item i =>
    cases v with
    | array items =>
      have hi : items[i]? = some w := h
      have hfind : (items.zipIdx.find? fun x => Nat.toDigits 10 x.2 == Nat.toDigits 10 i) =
          some (w, i) := by
        rw [List.find?_eq_some_iff_getElem]
        obtain ⟨hlt, rfl⟩ := List.getElem?_eq_some_iff.1 hi
        refine ⟨beq_self_eq_true _, i, by simpa using hlt, by simp, fun j hj => ?_⟩
        have hne : Nat.toDigits 10 j ≠ Nat.toDigits 10 i := fun heq => by
          have hji := congrArg (Numeral.valueFrom 0) heq
          rw [Numeral.valueFrom_toDigits, Numeral.valueFrom_toDigits] at hji
          omega
        simpa using hne
      rw [Step.text, Numeral.toList_text, Pointer.follow?, hfind]
      rfl
    | _ => cases h

/-- A pointer leads to the same part when it is followed as it is written. -/
theorem find?_text (h : Pointer.resolve? v p = some w) : Pointer.find? v p.text = some w := by
  have hpieces := @pieces_steps p [] (by simp)
  rw [List.nil_append, ← toList_text] at hpieces
  rw [Pointer.find?, hpieces]
  show (p.map (·.text.toList)).foldlM (fun part piece => Pointer.follow? piece part) v = some w
  clear hpieces
  induction p generalizing v with
  | nil => exact h
  | cons step p ih =>
    obtain ⟨part, hpart, hrest⟩ := Option.bind_eq_some_iff.1 h
    rw [List.map_cons, List.foldlM_cons, follow?_text hpart]
    exact ih hrest

/-! ### Pointers with the same text -/

theorem name_eq_of_text_eq {a b : String} (h : (Step.member a).text = (Step.member b).text) :
    a = b := by
  rw [Step.text, Step.text] at h
  have hescaped := congrArg Pointer.unescape (String.ofList_injective h)
  rw [unescape_flatMap_escape, unescape_flatMap_escape] at hescaped
  exact String.toList_injective hescaped

theorem index_eq_of_text_eq {i j : Nat} (h : (Step.item i).text = (Step.item j).text) : i = j := by
  rw [Step.text, Step.text] at h
  have hvalue := congrArg Numeral.value h
  rwa [Numeral.value_text, Numeral.value_text] at hvalue

namespace Pointer

/-- Members and items take turns in the pointer, and it starts with a member. -/
inductive Alternates : Pointer → Prop where
  | nil : Alternates []
  | member (name : String) : Alternates [.member name]
  | item (name : String) (i : Nat) {rest : Pointer} (h : Alternates rest) :
    Alternates (.member name :: .item i :: rest)

theorem map_text_eq_of_text_eq {q : Pointer} (h : p.text = q.text) :
    p.map Step.text = q.map Step.text := by
  have hp := @pieces_steps p [] (List.forall_mem_nil _)
  have hq := @pieces_steps q [] (List.forall_mem_nil _)
  rw [List.nil_append, ← toList_text] at hp hq
  rw [h, hq, List.cons_inj_right] at hp
  have hlists : (p.map Step.text).map String.toList = (q.map Step.text).map String.toList := by
    rw [List.map_map, List.map_map]
    exact hp.symm
  exact List.map_injective_iff.2 (fun _ _ => String.toList_injective) hlists

/-- Such pointers are the same if they are written alike. Of others an index could be written like
the name of a member. -/
theorem Alternates.eq_of_text_eq {q : Pointer} (hp : p.Alternates) (hq : q.Alternates)
    (h : p.text = q.text) : p = q := by
  have hsteps := map_text_eq_of_text_eq h
  clear h
  induction hp generalizing q with
  | nil => exact (List.map_eq_nil_iff.1 hsteps.symm).symm
  | member name =>
    cases hq with
    | nil | item => simp at hsteps
    | member other => rw [name_eq_of_text_eq (List.cons.inj hsteps).1]
  | item name i _ ih =>
    cases hq with
    | nil | member => simp at hsteps
    | item other j hrest =>
      obtain ⟨hname, hsteps⟩ := List.cons.inj hsteps
      obtain ⟨hindex, hsteps⟩ := List.cons.inj hsteps
      rw [name_eq_of_text_eq hname, index_eq_of_text_eq hindex, ih hrest hsteps]

end Pointer

/-! ### What is wrong with a value -/

namespace Shape

/-- Everything that is wrong with a value is wrong with one of its parts. -/
theorem exists_resolve?_of_mem_violations {s : Shape} {x : Violation}
    (h : Pointer.resolve? v p = some w) (hx : x ∈ violations p s w) :
    ∃ part, Pointer.resolve? v x.pointer = some part := by
  induction s generalizing p w with
  | items s ih =>
    rw [violations] at hx
    split at hx
    · rename_i items hitems
      have harray : w = .array items := by
        cases w <;> simp_all [items?]
      obtain ⟨⟨u, i⟩, hu, hmem⟩ := List.mem_flatMap.1 hx
      refine ih ?_ hmem
      rw [Pointer.resolve?_item (harray ▸ h)]
      exact List.mem_zipIdx_iff_getElem?.1 hu
    · cases hx
  | member name s ih =>
    rw [violations] at hx
    split at hx
    · rename_i u hu
      exact ih ((Pointer.resolve?_member h name).trans hu) hx
    · cases hx
  | both s t ihs iht =>
    exact (List.mem_append.1 hx).elim (ihs h) (iht h)
  -- The others do not look into the value.
  | _ =>
    have hp : x.pointer = p := by grind [violations]
    exact ⟨w, hp ▸ h⟩

end Shape

end SmartContract.Json
