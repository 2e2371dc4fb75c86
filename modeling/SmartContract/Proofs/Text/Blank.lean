import Mathlib.Data.List.TakeWhile
import Mathlib.Tactic.Common
import SmartContract.Text.Blank

/-!
What is left of a text when blanks are dropped: characters of the text, and none of those at which
it was cut.
-/

namespace SmartContract.Text

variable {isBreak : Char → Bool} {cs rest piece : List Char} {c : Char} {s : String}

/-! ### Pieces -/

theorem mem_of_mem_pieces (h : piece ∈ pieces isBreak cs) (hc : c ∈ piece) :
    c ∈ cs ∧ isBreak c = false := by
  induction cs generalizing piece with
  | nil =>
    rw [pieces, List.mem_singleton] at h
    rw [h] at hc
    cases hc
  | cons d cs ih =>
    rw [pieces] at h
    split at h
    -- At a break a piece starts that is empty so far.
    · rcases List.mem_cons.1 h with rfl | h
      · cases hc
      · exact (ih h hc).imp_left (List.mem_cons_of_mem d)
    · rename_i hd
      split at h
      · rw [List.mem_singleton] at h
        rw [h, List.mem_singleton] at hc
        exact ⟨hc ▸ List.mem_cons_self, by simpa [hc] using hd⟩
      · rename_i first more hpieces
        rcases List.mem_cons.1 h with rfl | h
        · rcases List.mem_cons.1 hc with rfl | hc
          · exact ⟨List.mem_cons_self, by simpa using hd⟩
          · exact (ih (hpieces ▸ List.mem_cons_self) hc).imp_left (List.mem_cons_of_mem d)
        · exact (ih (hpieces ▸ List.mem_cons_of_mem _ h) hc).imp_left (List.mem_cons_of_mem d)

/-- Pieces are what a list is split into. -/
theorem pieces_eq_splitOnP : pieces isBreak cs = cs.splitOnP isBreak := by
  induction cs with
  | nil => rfl
  | cons c cs ih =>
    rw [pieces, List.splitOnP_cons_eq_if_modifyHead, ih]
    cases hcs : cs.splitOnP isBreak with
    | nil => exact absurd hcs (List.splitOnP_ne_nil _ _)
    | cons piece more => rfl

theorem pieces_of_none (h : ∀ c ∈ cs, isBreak c = false) : pieces isBreak cs = [cs] := by
  induction cs with
  | nil => rfl
  | cons c cs ih =>
    obtain ⟨hc, hcs⟩ := List.forall_mem_cons.1 h
    simp [pieces, hc, ih hcs]

theorem pieces_append_cons (h : ∀ c ∈ cs, isBreak c = false) (hc : isBreak c = true) :
    pieces isBreak (cs ++ c :: rest) = cs :: pieces isBreak rest := by
  induction cs with
  | nil => simp [pieces, hc]
  | cons d cs ih =>
    obtain ⟨hd, hcs⟩ := List.forall_mem_cons.1 h
    simp [pieces, hd, ih hcs]

theorem pieces_ne_nil (isBreak : Char → Bool) (cs : List Char) : pieces isBreak cs ≠ [] := by
  rw [pieces_eq_splitOnP]
  exact List.splitOnP_ne_nil _ _

/-- A text that is cut at two sorts of breaks is cut at one, and each piece at the other. -/
theorem pieces_or (p q : Char → Bool) (cs : List Char) :
    pieces (fun c => p c || q c) cs = (pieces p cs).flatMap (pieces q) := by
  induction cs with
  | nil => rfl
  | cons c cs ih =>
    obtain ⟨piece, more, hp⟩ := List.exists_cons_of_ne_nil (pieces_ne_nil p cs)
    rw [hp, List.flatMap_cons] at ih
    cases hpc : p c with
    | true => simp [pieces, hpc, hp, ih]
    | false =>
      cases hqc : q c with
      | true => simp [pieces, hpc, hqc, hp, ih]
      | false =>
        obtain ⟨first, rest, hq⟩ := List.exists_cons_of_ne_nil (pieces_ne_nil q piece)
        simp [pieces, hpc, hqc, hp, hq, ih]

/-- Only breaks are lost when a text is cut. -/
theorem flatten_pieces (isBreak : Char → Bool) (cs : List Char) :
    (pieces isBreak cs).flatten = cs.filter (!isBreak ·) := by
  induction cs with
  | nil => rfl
  | cons c cs ih =>
    rw [pieces]
    split
    · rename_i hc
      rw [List.flatten_cons, List.nil_append, ih, List.filter_cons_of_neg (by simp [hc])]
    · rename_i hc
      rw [List.filter_cons_of_pos (by simpa using hc), ← ih]
      split
      · rename_i hpieces
        rw [hpieces]
        rfl
      · rename_i piece more hpieces
        rw [hpieces]
        rfl

/-! ### Texts without blanks at their ends -/

theorem mem_of_mem_trimChars (h : c ∈ trimChars cs) : c ∈ cs := by
  rw [trimChars, List.mem_reverse] at h
  have hend := (List.dropWhile_sublist isBlank).subset h
  rw [List.mem_reverse] at hend
  exact (List.dropWhile_sublist isBlank).subset hend

theorem mem_of_mem_trim (h : c ∈ (trim s).toList) : c ∈ s.toList := by
  rw [trim, String.toList_ofList] at h
  exact mem_of_mem_trimChars h

theorem mem_intersperse {α : Type} {xs : List α} {x sep : α} (h : x ∈ xs.intersperse sep) :
    x = sep ∨ x ∈ xs := by
  induction xs with
  | nil => simp at h
  | cons y xs ih =>
    cases xs with
    | nil => exact .inr h
    | cons z xs =>
      rw [List.intersperse_cons_cons] at h
      rcases List.mem_cons.1 h with rfl | h
      · exact .inr List.mem_cons_self
      · rcases List.mem_cons.1 h with rfl | h
        · exact .inl rfl
        · exact (ih h).imp_right (List.mem_cons_of_mem _)

theorem mem_intersperse_of_mem {α : Type} {xs : List α} {x : α} (sep : α) (h : x ∈ xs) :
    x ∈ xs.intersperse sep := by
  induction xs with
  | nil => cases h
  | cons y xs ih =>
    cases xs with
    | nil => exact h
    | cons z xs =>
      rw [List.intersperse_cons_cons]
      rcases List.mem_cons.1 h with rfl | h
      · exact List.mem_cons_self
      · exact List.mem_cons_of_mem _ (List.mem_cons_of_mem _ (ih h))

/-- On the one line of a text stand its words and spaces. -/
theorem eq_space_or_not_isBlank_of_mem_oneLine (h : c ∈ (oneLine s).toList) :
    c = ' ' ∨ c ∈ s.toList ∧ isBlank c = false := by
  rw [oneLine, String.toList_ofList, List.mem_flatten] at h
  obtain ⟨piece, hpiece, hc⟩ := h
  rcases mem_intersperse hpiece with rfl | hpiece
  · exact .inl (List.mem_singleton.1 hc)
  · exact .inr (mem_of_mem_pieces (List.mem_filter.1 hpiece).1 hc)

/-- A line of a text holds no line feed. -/
theorem mem_of_mem_filledLines {line : String} (h : line ∈ filledLines s) (hc : c ∈ line.toList) :
    c ∈ s.toList ∧ c ≠ '\n' := by
  obtain ⟨piece, hpiece, rfl⟩ := List.mem_map.1 h
  obtain ⟨whole, hwhole, rfl⟩ := List.mem_map.1 (List.mem_filter.1 hpiece).1
  rw [String.toList_ofList] at hc
  exact (mem_of_mem_pieces hwhole (mem_of_mem_trimChars hc)).imp_right fun h => by simpa using h

/-! ### Ends of texts -/

/-- The last character of a text that is not blank. -/
def lastFilled? (cs : List Char) : Option Char := (cs.filter (!isBlank ·)).getLast?

theorem getLast?_trimChars (cs : List Char) : (trimChars cs).getLast? = lastFilled? cs := by
  have hfilter : (cs.dropWhile isBlank).filter (!isBlank ·) = cs.filter (!isBlank ·) := by
    have hstart : (cs.takeWhile isBlank).filter (!isBlank ·) = [] := by
      rw [List.filter_eq_nil_iff]
      intro c hc
      simp [List.mem_takeWhile_imp hc]
    conv_rhs => rw [← List.takeWhile_append_dropWhile (p := isBlank) (l := cs)]
    rw [List.filter_append, hstart, List.nil_append]
  have hlast := List.find?_eq_head?_dropWhile_not (!isBlank ·) (cs.dropWhile isBlank).reverse
  simp only [Bool.not_not] at hlast
  rw [trimChars, List.getLast?_reverse, ← hlast, ← List.getLast?_filter, hfilter, lastFilled?]

theorem getLast?_trim (s : String) : (trim s).toList.getLast? = lastFilled? s.toList := by
  rw [trim, String.toList_ofList, getLast?_trimChars]

/-- Words with spaces between them end as the last word does. -/
theorem getLast?_flatten_intersperse {words : List (List Char)} (sep : List Char)
    (h : ∀ w ∈ words, w ≠ []) :
    (words.intersperse sep).flatten.getLast? = words.flatten.getLast? := by
  induction words with
  | nil => rfl
  | cons w words ih =>
    cases words with
    | nil => rfl
    | cons v words =>
      obtain ⟨-, hwords⟩ := List.forall_mem_cons.1 h
      obtain ⟨c, hc⟩ : ∃ c, (v :: words).flatten.getLast? = some c := by
        have hne : (v :: words).flatten ≠ [] := by simp [hwords v List.mem_cons_self]
        exact ⟨_, List.getLast?_eq_some_getLast hne⟩
      rw [List.intersperse_cons_cons, List.flatten_cons, List.flatten_cons, List.getLast?_append,
        List.getLast?_append, ih hwords, List.flatten_cons (l := w), List.getLast?_append, hc]
      rfl

theorem getLast?_oneLine (s : String) : (oneLine s).toList.getLast? = lastFilled? s.toList := by
  have hwords : ∀ w ∈ (pieces isBlank s.toList).filter (!·.isEmpty), w ≠ [] := by
    intro w hw
    simpa using (List.mem_filter.1 hw).2
  rw [oneLine, String.toList_ofList, getLast?_flatten_intersperse _ hwords,
    List.flatten_filter_not_isEmpty, flatten_pieces, lastFilled?]

end SmartContract.Text
