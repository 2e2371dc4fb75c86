import Mathlib.Tactic.Common
import SmartContract.Json.Reader
import SmartContract.Json.Writer

/-!
The two forms in which JSON values are written differ in the blanks only. A layout says which blanks
stand where, and both forms are the characters that one writer puts out in a layout.
-/

namespace SmartContract.Json

/-- Where blanks stand in a JSON text. -/
structure Layout where
  /-- What stands before an item, a member or a closing bracket at the given level. -/
  line : Nat → List Char
  /-- What stands between the colon behind the name of a member and its value. -/
  gap : List Char
  line_blank : ∀ level, ∀ c ∈ line level, isSpace c = true
  gap_blank : ∀ c ∈ gap, isSpace c = true

namespace Layout

mutual

/-- The characters of a value at the given level. -/
def chars (l : Layout) (level : Nat) : Json → List Char
  | .array [] => ['[', ']']
  | .array (v :: rest) =>
    '[' :: (l.line (level + 1) ++ chars l (level + 1) v ++ items l level rest)
  | .object [] => ['\x7b', '\x7d']
  | .object ((k, v) :: rest) =>
    '\x7b' :: (l.line (level + 1) ++ stringChars k ++ ':' :: (l.gap ++ chars l (level + 1) v)
      ++ members l level rest)
  | v => v.compactChars

/-- The further items of an array at the given level and the bracket behind them. -/
def items (l : Layout) (level : Nat) : List Json → List Char
  | [] => l.line level ++ [']']
  | v :: rest => ',' :: (l.line (level + 1) ++ chars l (level + 1) v ++ items l level rest)

/-- The further members of an object at the given level and the brace behind them. -/
def members (l : Layout) (level : Nat) : List (String × Json) → List Char
  | [] => l.line level ++ ['\x7d']
  | (k, v) :: rest =>
    ',' :: (l.line (level + 1) ++ stringChars k ++ ':' :: (l.gap ++ chars l (level + 1) v)
      ++ members l level rest)

end

def compact : Layout where
  line _ := []
  gap := []
  line_blank _ _ hc := absurd hc List.not_mem_nil
  gap_blank _ hc := absurd hc List.not_mem_nil

/-- Items and members on lines of their own. -/
def pretty : Layout where
  line := newLine
  gap := [' ']
  line_blank level c hc := by
    rcases List.mem_cons.1 hc with rfl | hc
    · rfl
    · rw [List.eq_of_mem_replicate hc]
      rfl
  gap_blank c hc := by
    rw [List.mem_singleton.1 hc]
    rfl

@[simp] theorem line_compact (level : Nat) : compact.line level = [] := rfl

@[simp] theorem gap_compact : compact.gap = [] := rfl

@[simp] theorem line_pretty (level : Nat) : pretty.line level = newLine level := rfl

@[simp] theorem gap_pretty : pretty.gap = [' '] := rfl

mutual

/-- The compact form is written without blanks. -/
theorem chars_compact (level : Nat) : ∀ v, compact.chars level v = v.compactChars
  | .null | .bool _ | .int _ | .float _ | .string _ => by simp only [chars]
  | .array [] => by simp only [chars, compactChars, compactItems]
  | .array (v :: rest) => by
    simp only [chars, compactChars, chars_compact (level + 1) v]
    exact congrArg _ (items_compact level v rest)
  | .object [] => by simp only [chars, compactChars, compactMembers]
  | .object ((k, v) :: rest) => by
    simp only [chars, compactChars, chars_compact (level + 1) v]
    exact congrArg _ (members_compact level k v rest)

theorem items_compact (level : Nat) (v : Json) :
    ∀ rest, compactChars v ++ compact.items level rest = compactItems (v :: rest)
  | [] => by simp only [items, compactItems, line_compact, List.nil_append]
  | w :: rest => by
    simp only [items, compactItems, line_compact, List.nil_append, chars_compact (level + 1) w,
      items_compact level w rest]

theorem members_compact (level : Nat) (k : String) (v : Json) : ∀ rest,
    stringChars k ++ ':' :: compactChars v ++ compact.members level rest =
      compactMembers ((k, v) :: rest)
  | [] => by
    simp only [members, compactMembers, line_compact, List.nil_append, List.cons_append,
      List.append_assoc]
  | (k', w) :: rest => by
    simp only [members, compactMembers, line_compact, gap_compact, List.nil_append,
      List.cons_append, List.append_assoc, chars_compact (level + 1) w,
      ← members_compact level k' w rest]

end

mutual

/-- The pretty form has items and members on lines of their own. -/
theorem chars_pretty (level : Nat) : ∀ v, pretty.chars level v = prettyChars level v
  | .null | .bool _ | .int _ | .float _ | .string _ => by simp only [chars, prettyChars]
  | .array [] => by simp only [chars, prettyChars]
  | .array (v :: rest) => by
    simp only [chars, prettyChars, line_pretty, chars_pretty (level + 1) v,
      items_pretty level rest]
  | .object [] => by simp only [chars, prettyChars]
  | .object ((k, v) :: rest) => by
    simp only [chars, prettyChars, line_pretty, gap_pretty, chars_pretty (level + 1) v,
      members_pretty level rest, List.singleton_append]

theorem items_pretty (level : Nat) : ∀ rest, pretty.items level rest = prettyItems level rest
  | [] => by simp only [items, prettyItems, line_pretty]
  | v :: rest => by
    simp only [items, prettyItems, line_pretty, chars_pretty (level + 1) v,
      items_pretty level rest]

theorem members_pretty (level : Nat) :
    ∀ rest, pretty.members level rest = prettyMembers level rest
  | [] => by simp only [members, prettyMembers, line_pretty]
  | (k, v) :: rest => by
    simp only [members, prettyMembers, line_pretty, gap_pretty, chars_pretty (level + 1) v,
      members_pretty level rest, List.singleton_append]

end

end Layout

end SmartContract.Json
