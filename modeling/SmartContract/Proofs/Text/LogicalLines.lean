import Mathlib.Data.List.Basic
import SmartContract.Proofs.Text.Blank

/-!
The lines of a text under the rules of C. A line ends at a line feed or a carriage return, unless a
backslash stands before it; then it goes on with the next line. These are the lines between the line
feeds exactly when the text has no carriage returns and no backslashes at the ends of lines.
-/

namespace SmartContract.Text

variable {isBreak : Char → Bool} {cs line : List Char} {lines : List (List Char)} {c : Char}

def isLineEnd (c : Char) : Bool := c = '\n' || c = '\r'

/-- Joins each line that ends in a backslash with the next one. The backslash goes. -/
def joinContinued : List (List Char) → List (List Char)
  | [] => []
  | line :: lines =>
    if line.getLast? = some '\\' then
      match joinContinued lines with
      | [] => [line]
      | next :: rest => (line.dropLast ++ next) :: rest
    else line :: joinContinued lines

/-- The lines of a text under the rules of C. -/
def logicalLines (s : String) : List (List Char) := joinContinued (pieces isLineEnd s.toList)

example : logicalLines "a\\\nb\rc" = [['a', 'b'], ['c']] := by decide

/-! ### Joining lines -/

theorem length_joinContinued_le (lines : List (List Char)) :
    (joinContinued lines).length ≤ lines.length := by
  induction lines with
  | nil => exact Nat.le_refl 0
  | cons line lines ih =>
    rw [joinContinued]
    split
    · split
      · show 1 ≤ lines.length + 1
        omega
      · rename_i next rest heq
        rw [heq] at ih
        show rest.length + 1 ≤ lines.length + 1
        exact Nat.le_succ_of_le ih
    · show (joinContinued lines).length + 1 ≤ lines.length + 1
      omega

theorem joinContinued_ne_nil (h : lines ≠ []) : joinContinued lines ≠ [] := by
  cases lines with
  | nil => exact absurd rfl h
  | cons line lines =>
    rw [joinContinued]
    split
    · split <;> exact List.cons_ne_nil _ _
    · exact List.cons_ne_nil _ _

/-- Joining leaves lines as they are if none but the last ends in a backslash. -/
theorem joinContinued_eq_self_iff :
    joinContinued lines = lines ↔ ∀ line ∈ lines.dropLast, line.getLast? ≠ some '\\' := by
  induction lines with
  | nil => exact iff_of_true rfl (List.forall_mem_nil _)
  | cons line lines ih =>
    by_cases hnil : lines = []
    · subst hnil
      refine iff_of_true ?_ (List.forall_mem_nil _)
      rw [joinContinued]
      split <;> rfl
    rw [joinContinued, List.dropLast_cons_of_ne_nil hnil, List.forall_mem_cons, ← ih]
    by_cases hend : line.getLast? = some '\\'
    -- What is joined has fewer lines.
    · refine iff_of_false ?_ fun h => h.1 hend
      rw [if_pos hend]
      have hlength := length_joinContinued_le lines
      cases hjoined : joinContinued lines with
      | nil => exact absurd hjoined (joinContinued_ne_nil hnil)
      | cons next rest =>
        intro heq
        have hsame := congrArg List.length heq
        rw [hjoined] at hlength
        simp only [List.length_cons] at hlength hsame
        omega
    · rw [if_neg hend, List.cons.injEq, eq_self, true_and]
      exact (and_iff_right hend).symm

/-- No characters come from elsewhere. -/
theorem mem_of_mem_joinContinued (h : line ∈ joinContinued lines) (hc : c ∈ line) :
    ∃ l ∈ lines, c ∈ l := by
  induction lines generalizing line with
  | nil => cases h
  | cons first lines ih =>
    rw [joinContinued] at h
    split at h
    · split at h
      · rw [List.mem_singleton.1 h] at hc
        exact ⟨first, List.mem_cons_self, hc⟩
      · rename_i next rest heq
        rw [heq] at ih
        rcases List.mem_cons.1 h with rfl | h
        · rcases List.mem_append.1 hc with hc | hc
          · exact ⟨first, List.mem_cons_self, (List.dropLast_sublist first).subset hc⟩
          · obtain ⟨l, hl, hc⟩ := ih List.mem_cons_self hc
            exact ⟨l, List.mem_cons_of_mem _ hl, hc⟩
        · obtain ⟨l, hl, hc⟩ := ih (List.mem_cons_of_mem _ h) hc
          exact ⟨l, List.mem_cons_of_mem _ hl, hc⟩
    · rcases List.mem_cons.1 h with rfl | h
      · exact ⟨line, List.mem_cons_self, hc⟩
      · obtain ⟨l, hl, hc⟩ := ih h hc
        exact ⟨l, List.mem_cons_of_mem _ hl, hc⟩

/-! ### Lines under both rules -/

/-- A line between line feeds is cut at its carriage returns. -/
theorem pieces_isLineEnd (cs : List Char) :
    pieces isLineEnd cs = (pieces (· == '\n') cs).flatMap (pieces (· == '\r')) :=
  pieces_or (· == '\n') (· == '\r') cs

/-- A text has the same lines under the rules of C as between its line feeds exactly when it has no
carriage returns and no backslashes at the ends of lines. -/
theorem logicalLines_eq_iff (s : String) :
    logicalLines s = pieces (· == '\n') s.toList ↔
      '\r' ∉ s.toList ∧
        ∀ line ∈ (pieces (· == '\n') s.toList).dropLast, line.getLast? ≠ some '\\' := by
  have hsame (hreturn : '\r' ∉ s.toList) :
      pieces isLineEnd s.toList = pieces (· == '\n') s.toList := by
    have hnone : ∀ line ∈ pieces (· == '\n') s.toList, pieces (· == '\r') line = [line] := by
      intro line hline
      apply pieces_of_none
      intro c hc
      rw [beq_eq_false_iff_ne]
      rintro rfl
      exact hreturn (mem_of_mem_pieces hline hc).1
    rw [pieces_isLineEnd, List.flatMap_congr hnone, List.flatMap_singleton']
  constructor
  · intro heq
    have hreturn : '\r' ∉ s.toList := by
      intro hmem
      have hpiece : '\r' ∈ (pieces (· == '\n') s.toList).flatten := by
        rw [flatten_pieces]
        exact List.mem_filter.2 ⟨hmem, by decide⟩
      obtain ⟨line, hline, hc⟩ := List.mem_flatten.1 hpiece
      rw [← heq] at hline
      obtain ⟨l, hl, hc⟩ := mem_of_mem_joinContinued hline hc
      exact absurd (mem_of_mem_pieces hl hc).2 (by decide)
    rw [logicalLines, hsame hreturn, joinContinued_eq_self_iff] at heq
    exact ⟨hreturn, heq⟩
  · rintro ⟨hreturn, hend⟩
    rw [logicalLines, hsame hreturn, joinContinued_eq_self_iff]
    exact hend

end SmartContract.Text
