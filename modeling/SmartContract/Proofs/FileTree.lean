import Mathlib.Data.List.Basic
import SmartContract.FileTree

/-!
What writing does to a tree of files. Directories are made only where nothing stands, whether or not
the file is written in the end; a file that is written stands where its path leads afterwards, and
nothing else changes.
-/

namespace SmartContract

theorem Except.bind_eq_ok_iff {ε α β : Type} {x : Except ε α} {f : α → Except ε β} {b : β} :
    (x >>= f) = .ok b ↔ ∃ a, x = .ok a ∧ f a = .ok b := by
  cases x with
  | error e => exact ⟨nofun, fun ⟨_, h, _⟩ => nomatch h⟩
  | ok a => exact ⟨fun h => ⟨a, rfl, h⟩, fun ⟨_, h, hf⟩ => Except.ok.inj h ▸ hf⟩

theorem Except.ok_bind {ε α β : Type} (a : α) (f : α → Except ε β) : (Except.ok a >>= f) = f a :=
  rfl

namespace FileTree

/-- The place to which a path leads. -/
def place? (t : FileTree) (path : String) : Except Obstacle (List String) :=
  partsOf path >>= t.find []

/-- The same files are there, with the same contents. -/
def SameFiles (t u : FileTree) : Prop := ∀ place, u.content? place = t.content? place

/-- What is in the first tree is in the second, which has nothing more but directories. -/
def Extends (t u : FileTree) : Prop :=
  ∀ place, u.get? place = t.get? place ∨ t.get? place = none ∧ u.get? place = some .directory

/-- The directories of the first tree are directories of the second. -/
def KeepsDirectories (t u : FileTree) : Prop :=
  ∀ place, t.get? place = some .directory → u.get? place = some .directory

variable {t u w : FileTree} {place other : List String} {path : String} {content : List UInt8}

theorem content?_eq_some_iff :
    t.content? place = some content ↔ t.get? place = some (.file content) := by
  rw [content?]
  split
  · rename_i c hc
    simp [hc]
  · rename_i hnone
    exact ⟨nofun, fun h => absurd h (hnone content)⟩

theorem content?_congr (h : u.get? place = t.get? place) : u.content? place = t.content? place := by
  rw [content?, content?, h]

theorem content?_put (hp : isUpper place = false) :
    (t.put place (.file content)).content? place = some content := by
  rw [content?_eq_some_iff, get?_put t hp, if_pos rfl]

theorem content?_put_of_ne {node : Node} (hp : isUpper place = false) (h : other ≠ place) :
    (t.put place node).content? other = t.content? other :=
  content?_congr (by rw [get?_put t hp, if_neg h])

theorem SameFiles.refl (t : FileTree) : t.SameFiles t := fun _ => rfl

namespace Extends

theorem refl (t : FileTree) : t.Extends t := fun _ => .inl rfl

theorem trans (h : t.Extends u) (h' : u.Extends w) : t.Extends w := by
  intro place
  rcases h' place with hsame | ⟨hnone, hdirectory⟩
  · rcases h place with hfirst | ⟨hnone, hdirectory⟩
    · exact .inl (hsame.trans hfirst)
    · exact .inr ⟨hnone, hsame.trans hdirectory⟩
  · rcases h place with hfirst | ⟨-, hother⟩
    · exact .inr ⟨hfirst ▸ hnone, hdirectory⟩
    · rw [hnone] at hother
      cases hother

theorem sameFiles (h : t.Extends u) : t.SameFiles u := by
  intro place
  rcases h place with hsame | ⟨hnone, hdirectory⟩
  · exact content?_congr hsame
  · rw [content?, content?, hnone, hdirectory]

theorem keepsDirectories (h : t.Extends u) : t.KeepsDirectories u := by
  intro place hplace
  rcases h place with hsame | ⟨hnone, -⟩
  · exact hsame.trans hplace
  · rw [hplace] at hnone
    cases hnone

/-- A directory that is put where nothing stands extends the tree. -/
theorem put_directory (hp : isUpper place = false) (h : t.get? place = none) :
    t.Extends (t.put place .directory) := by
  intro other
  rw [get?_put t hp]
  split
  · rename_i heq
    exact .inr ⟨heq ▸ h, rfl⟩
  · exact .inl rfl

end Extends

theorem KeepsDirectories.trans (h : t.KeepsDirectories u) (h' : u.KeepsDirectories w) :
    t.KeepsDirectories w := fun place hplace => h' place (h place hplace)

/-- A file that is put where no directory stands leaves the directories. -/
theorem keepsDirectories_put (hp : isUpper place = false) (h : t.get? place ≠ some .directory)
    (content : List UInt8) : t.KeepsDirectories (t.put place (.file content)) := by
  intro other hother
  have hne : other ≠ place := fun heq => h (heq ▸ hother)
  rw [get?_put t hp, if_neg hne, hother]

/-! ### Finding -/

theorem find_cons (h : t.get? place = some .directory) (part : String) (rest : List String) :
    t.find place (part :: rest) = t.find place [part] >>= fun next => t.find next rest := by
  simp only [find, h]
  split
  · rfl
  · split
    · rfl
    · cases within place part <;> rfl

/-- A part of a path leads on from a directory only. -/
theorem directory_of_find_cons {part : String} {rest : List String}
    (h : t.find place (part :: rest) = .ok other) : t.get? place = some .directory := by
  rw [find] at h
  cases hnode : t.get? place with
  | none => simp [hnode] at h
  | some node =>
    cases node with
    | file content => simp [hnode] at h
    | directory => rfl

theorem find_cons_eq_ok_iff {part : String} {rest : List String} :
    t.find place (part :: rest) = .ok other ↔
      ∃ next, t.find place [part] = .ok next ∧ t.find next rest = .ok other := by
  constructor
  · intro h
    rwa [find_cons (directory_of_find_cons h), Except.bind_eq_ok_iff] at h
  · rintro ⟨next, hnext, hrest⟩
    rw [find_cons (directory_of_find_cons hnext), Except.bind_eq_ok_iff]
    exact ⟨next, hnext, hrest⟩

theorem find_append_eq_ok_iff {xs ys : List String} :
    t.find place (xs ++ ys) = .ok other ↔
      ∃ next, t.find place xs = .ok next ∧ t.find next ys = .ok other := by
  induction xs generalizing place with
  | nil => simp [find]
  | cons part xs ih =>
    rw [List.cons_append, find_cons_eq_ok_iff]
    constructor
    · rintro ⟨next, hnext, hrest⟩
      obtain ⟨middle, hmiddle, hys⟩ := ih.1 hrest
      exact ⟨middle, find_cons_eq_ok_iff.2 ⟨next, hnext, hmiddle⟩, hys⟩
    · rintro ⟨middle, hmiddle, hys⟩
      obtain ⟨next, hnext, hrest⟩ := find_cons_eq_ok_iff.1 hmiddle
      exact ⟨next, hnext, ih.2 ⟨middle, hrest, hys⟩⟩

/-- Where directories are kept, paths go on leading to the same places. -/
theorem KeepsDirectories.find (h : t.KeepsDirectories u) {parts : List String}
    (hfind : t.find place parts = .ok other) : u.find place parts = .ok other := by
  induction parts generalizing place with
  | nil => exact hfind
  | cons part rest ih =>
    have hplace := directory_of_find_cons hfind
    obtain ⟨next, hnext, hrest⟩ := find_cons_eq_ok_iff.1 hfind
    refine find_cons_eq_ok_iff.2 ⟨next, ?_, ih hrest⟩
    simpa only [FileTree.find, hplace, h place hplace] using hnext

theorem KeepsDirectories.place? (h : t.KeepsDirectories u) (hplace : t.place? path = .ok place) :
    u.place? path = .ok place := by
  obtain ⟨parts, hparts, hfind⟩ := Except.bind_eq_ok_iff.1 hplace
  exact Except.bind_eq_ok_iff.2 ⟨parts, hparts, h.find hfind⟩

theorem find_empty_eq_ok_iff {next : List String} :
    t.find next [""] = .ok place ↔ next = place ∧ t.get? place = some .directory := by
  constructor
  · intro h
    have hnext := directory_of_find_cons h
    have hplace : next = place := by simpa [find, hnext] using h
    exact ⟨hplace, hplace ▸ hnext⟩
  · rintro ⟨rfl, hdirectory⟩
    simp [find, hdirectory]

theorem findDirectory_eq_ok_iff {parts : List String} :
    t.findDirectory parts = .ok place ↔
      t.find [] parts = .ok place ∧ t.get? place = some .directory := by
  simp only [findDirectory, find_append_eq_ok_iff, find_empty_eq_ok_iff]
  exact ⟨fun ⟨next, hnext, heq, hdirectory⟩ => ⟨heq ▸ hnext, hdirectory⟩,
    fun ⟨hplace, hdirectory⟩ => ⟨place, hplace, rfl, hdirectory⟩⟩

theorem read_eq_ok_iff :
    t.read path = .ok content ↔
      ∃ place, t.place? path = .ok place ∧ t.get? place = some (.file content) := by
  rw [read, ← place?]
  cases t.place? path with
  | error obstacle => simp
  | ok place =>
    simp only [Except.ok.injEq, exists_eq_left']
    cases t.get? place with
    | none => simp
    | some node => cases node <;> simp

/-! ### Making directories -/

/-- The place of a name that is none of the points is not upper. -/
theorem isUpper_eq_false_of_within {last : String} (hdots : isDots last = false)
    (h : within place last = .ok other) : isUpper other = false := by
  rw [within] at h
  split at h
  · obtain rfl := Except.ok.inj h
    simp only [isDots, Bool.or_eq_false_iff, decide_eq_false_iff_not] at hdots
    simp [isUpper, hdots.2]
  · cases h

theorem makeDirectory_extends (h : t.makeDirectory path = .ok u) : t.Extends u := by
  simp only [makeDirectory] at h
  obtain ⟨parts, -, h⟩ := Except.bind_eq_ok_iff.1 h
  obtain ⟨outer, -, h⟩ := Except.bind_eq_ok_iff.1 h
  split at h
  · cases h
  · rename_i hdots
    obtain ⟨place, hplace, h⟩ := Except.bind_eq_ok_iff.1 h
    split at h
    · cases h
    · rename_i hsome
      obtain rfl := Except.ok.inj h
      exact .put_directory (isUpper_eq_false_of_within (by simpa using hdots) hplace)
        (by simpa using hsome)

/-- Directories are made only where nothing stands, whether or not all of them can be made. -/
theorem makeDirectories_extends (t : FileTree) (paths : List String) :
    t.Extends (t.makeDirectories paths).1 := by
  induction paths with
  | nil => exact .refl t
  | cons path outer ih =>
    rw [makeDirectories]
    split
    · exact makeDirectory_extends ‹_›
    · dsimp only
      split
      · exact ih
      · split
        · exact ih.trans (makeDirectory_extends ‹_›)
        · exact ih
    · exact .refl t

/-! ### Writing -/

theorem splitLast_append_singleton {before : List String} {last : String} (h : last ≠ "") :
    splitLast (before ++ [last]) = (before, last, false) := by
  have hcore : (before ++ [last]).reverse.dropWhile (· == "") = (before ++ [last]).reverse := by
    rw [List.reverse_append, List.reverse_singleton, List.singleton_append,
      List.dropWhile_cons_of_neg (by simpa using h)]
  rw [splitLast, hcore, List.reverse_reverse]
  simp

/-- A path without slashes at its end ends with the last part. -/
theorem eq_append_of_splitLast {parts before : List String} {last : String}
    (h : splitLast parts = (before, last, false)) (hlast : last ≠ "") :
    parts = before ++ [last] := by
  simp only [splitLast, Prod.mk.injEq, List.length_reverse, decide_eq_false_iff_not,
    Nat.not_lt] at h
  obtain ⟨hbefore, hget, hlength⟩ := h
  have hall : parts.reverse.dropWhile (· == "") = parts.reverse :=
    (List.dropWhile_suffix _).eq_of_length_le (by rwa [List.length_reverse])
  rw [hall, List.reverse_reverse] at hbefore hget
  cases hparts : parts.getLast? with
  | none => rw [hparts] at hget; exact absurd hget.symm hlast
  | some part =>
    rw [hparts, Option.getD_some] at hget
    rw [← hbefore, ← hget, List.dropLast_append_getLast? part hparts]

theorem find_name {name : String} (hplace : t.get? place = some .directory)
    (hdots : isDots name = false) : t.find place [name] = within place name := by
  simp only [isDots, Bool.or_eq_false_iff, decide_eq_false_iff_not] at hdots
  simp only [find, hplace, hdots, or_self, if_false]
  cases within place name <;> rfl

/-- A file that is written stands where the path leads afterwards. -/
theorem writeFile_eq_ok (h : t.writeFile path content = .ok u) :
    ∃ place, isUpper place = false ∧ t.get? place ≠ some .directory ∧
      u = t.put place (.file content) ∧ u.place? path = .ok place := by
  simp only [writeFile] at h
  obtain ⟨parts, hparts, h⟩ := Except.bind_eq_ok_iff.1 h
  rcases hsplit : splitLast parts with ⟨before, last, slashes⟩
  rw [hsplit] at h
  obtain ⟨outer, houter, h⟩ := Except.bind_eq_ok_iff.1 h
  obtain ⟨hfind, hdirectory⟩ := findDirectory_eq_ok_iff.1 houter
  split at h
  · cases h
  · rename_i hlast
    obtain ⟨hdots, rfl⟩ : isDots last = false ∧ slashes = false := by simpa using hlast
    obtain ⟨place, hplace, h⟩ := Except.bind_eq_ok_iff.1 h
    split at h
    · cases h
    · rename_i hfree
      obtain rfl := Except.ok.inj h
      have hne : last ≠ "" := by rintro rfl; cases hdots
      have hupper := isUpper_eq_false_of_within hdots hplace
      have hkeeps := keepsDirectories_put hupper hfree content
      refine ⟨place, hupper, hfree, rfl, Except.bind_eq_ok_iff.2 ⟨parts, hparts, ?_⟩⟩
      rw [eq_append_of_splitLast hsplit hne, find_append_eq_ok_iff]
      exact ⟨outer, hkeeps.find hfind, (find_name (hkeeps _ hdirectory) hdots).trans hplace⟩

/-- When a file cannot be written, all that has changed are new directories. -/
theorem write_eq_error {failure : WriteFailure} (h : t.write path content = (u, .error failure)) :
    t.Extends u := by
  have hextends := t.makeDirectories_extends (Path.directories path)
  rw [write] at h
  rcases hmade : t.makeDirectories (Path.directories path) with ⟨made, result⟩
  rw [hmade] at h hextends
  cases result with
  | error obstacle =>
    obtain ⟨rfl, -⟩ := Prod.mk.inj h
    exact hextends
  | ok _ =>
    cases hfile : made.writeFile path content with
    | error obstacle =>
      simp only [hfile, Prod.mk.injEq] at h
      exact h.1 ▸ hextends
    | ok written => simp [hfile] at h

/-- When a file is written, new directories apart it is put where the path leads afterwards. -/
theorem write_eq_ok (h : t.write path content = (u, .ok ())) :
    ∃ made place, t.Extends made ∧ isUpper place = false ∧ made.get? place ≠ some .directory ∧
      u = made.put place (.file content) ∧ u.place? path = .ok place := by
  have hextends := t.makeDirectories_extends (Path.directories path)
  rw [write] at h
  rcases hmade : t.makeDirectories (Path.directories path) with ⟨made, result⟩
  rw [hmade] at h hextends
  cases result with
  | error obstacle => cases (Prod.mk.inj h).2
  | ok _ =>
    cases hfile : made.writeFile path content with
    | error obstacle => simp [hfile] at h
    | ok written =>
      simp only [hfile, Prod.mk.injEq, and_true] at h
      obtain ⟨place, hupper, hfree, hput, hplace⟩ := writeFile_eq_ok hfile
      exact ⟨made, place, hextends, hupper, hfree, h ▸ hput, h ▸ hplace⟩

/-- The file that is written has the content and no other file changes. -/
structure Writes (t : FileTree) (path : String) (content : List UInt8) (u : FileTree) : Prop where
  keeps : t.KeepsDirectories u
  placed : ∃ place, u.place? path = .ok place ∧ u.content? place = some content ∧
    ∀ other ≠ place, u.content? other = t.content? other

theorem writes_of_write_eq_ok (h : t.write path content = (u, .ok ())) :
    t.Writes path content u := by
  obtain ⟨made, place, hextends, hupper, hfree, rfl, hplace⟩ := write_eq_ok h
  refine ⟨hextends.keepsDirectories.trans (keepsDirectories_put hupper hfree content), place,
    hplace, content?_put hupper, fun other hne => ?_⟩
  rw [content?_put_of_ne hupper hne, hextends.sameFiles]

end FileTree

end SmartContract
