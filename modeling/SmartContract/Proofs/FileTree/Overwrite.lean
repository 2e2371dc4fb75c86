import SmartContract.Proofs.FileTree
import SmartContract.Proofs.FileTree.Path

/-!
Writing to a file that is there. Its path leads through directories, so that none has to be made,
and ends with a name, so that the file is replaced in its place. A file can therefore be written
wherever one can be read.
-/

namespace SmartContract.FileTree

variable {t u : FileTree} {place other : List String} {path : String} {content : List UInt8}

/-! ### Places that are reached -/

theorem get?_of_isUpper (h : isUpper place = true) : t.get? place = some .directory := if_pos h

theorem isUpper_of_start (h : other <+: place) (hp : isUpper place = true) :
    isUpper other = true := by
  rw [isUpper, List.all_eq_true] at hp ⊢
  exact fun name hname => hp name (h.subset hname)

theorem eq_nil_of_start_dropLast (h : place <+: place.dropLast) : place = [] := by
  have hlength := h.length_le
  rw [List.length_dropLast] at hlength
  exact List.eq_nil_of_length_eq_zero (by omega)

/-- A path comes through directories only: where it ends, all that is before is a directory. -/
theorem directory_before {parts : List String} (h : t.find place parts = .ok other)
    (hbefore : ∀ p, p <+: place → p ≠ place → t.get? p = some .directory) :
    ∀ p, p <+: other → p ≠ other → t.get? p = some .directory := by
  induction parts generalizing place with
  | nil =>
    obtain rfl := Except.ok.inj h
    exact hbefore
  | cons part rest ih =>
    have hplace := directory_of_find_cons h
    rw [find, hplace] at h
    dsimp only at h
    split at h
    · exact ih h hbefore
    · split at h
      · refine ih h fun p hp hne => ?_
        rw [above] at hp hne
        split at hp
        · rename_i hupper
          have happend : isUpper (place ++ [".."]) = true := by
            rw [isUpper, List.all_append, Bool.and_eq_true]
            exact ⟨hupper, rfl⟩
          exact get?_of_isUpper (isUpper_of_start hp happend)
        · rename_i hupper
          refine hbefore p (hp.trans (List.dropLast_prefix place)) ?_
          rintro rfl
          exact hupper (eq_nil_of_start_dropLast hp ▸ rfl)
      · cases hnext : within place part with
        | error obstacle => rw [hnext] at h; cases h
        | ok next =>
          rw [hnext] at h
          refine ih h fun p hp hne => ?_
          rw [within] at hnext
          split at hnext
          · obtain rfl := Except.ok.inj hnext
            rcases List.prefix_concat_iff.1 hp with heq | hp
            · exact absurd heq hne
            · by_cases heq : p = place
              · exact heq ▸ hplace
              · exact hbefore p hp heq
          · cases hnext

theorem get?_above {parts : List String} (h : t.find [] parts = .ok place) :
    t.get? (above place) = some .directory := by
  rw [above]
  split
  · rename_i hupper
    refine get?_of_isUpper ?_
    rw [isUpper, List.all_append, Bool.and_eq_true]
    exact ⟨hupper, rfl⟩
  · rename_i hupper
    refine directory_before h (fun p hp hne => absurd (List.prefix_nil.1 hp) hne) _
      (List.dropLast_prefix place) fun heq => hupper ?_
    have hstart : place <+: place.dropLast := ⟨[], by rw [List.append_nil, heq]⟩
    exact eq_nil_of_start_dropLast hstart ▸ rfl

/-- A path to a file ends with its name in a directory. -/
theorem exists_of_find_eq_file {parts : List String} (h : t.find [] parts = .ok place)
    (hfile : t.get? place = some (.file content)) :
    ∃ before last outer, parts = before ++ [last] ∧ isDots last = false ∧
      t.find [] before = .ok outer ∧ t.get? outer = some .directory ∧
        within outer last = .ok place := by
  rcases parts.eq_nil_or_concat' with rfl | ⟨before, last, rfl⟩
  · obtain rfl := Except.ok.inj h
    cases hfile
  · obtain ⟨outer, houter, hlast⟩ := find_append_eq_ok_iff.1 h
    have hdirectory := directory_of_find_cons hlast
    have hdots : isDots last = false := by
      rw [Bool.eq_false_iff]
      intro hdots
      have hplace : t.get? place = some .directory := by
        simp only [isDots, Bool.or_eq_true, decide_eq_true_eq] at hdots
        simp only [find, hdirectory] at hlast
        split at hlast
        · exact Except.ok.inj hlast ▸ hdirectory
        · rename_i hne
          rw [if_pos (hdots.resolve_left hne)] at hlast
          exact Except.ok.inj hlast ▸ get?_above houter
      rw [hplace] at hfile
      cases hfile
    exact ⟨before, last, outer, rfl, hdots, houter, hdirectory, find_name hdirectory hdots ▸ hlast⟩

/-! ### Files that are there -/

/-- A file is written in the place of one that is there. -/
theorem writeFile_of_file {old : List UInt8} (h : t.place? path = .ok place)
    (hfile : t.get? place = some (.file old)) :
    t.writeFile path content = .ok (t.put place (.file content)) := by
  obtain ⟨parts, hparts, hfind⟩ := Except.bind_eq_ok_iff.1 h
  obtain ⟨before, last, outer, rfl, hdots, houter, hdirectory, hplace⟩ :=
    exists_of_find_eq_file hfind hfile
  have hlast : last ≠ "" := by rintro rfl; cases hdots
  have hfound : t.findDirectory before = .ok outer := findDirectory_eq_ok_iff.2 ⟨houter, hdirectory⟩
  simp only [writeFile, hparts, Except.ok_bind, splitLast_append_singleton hlast, hfound, hplace,
    hdots, hfile]
  rfl

theorem partsOf_eq_ok_iff {parts : List String} :
    partsOf path = .ok parts ↔ path.utf8ByteSize ≤ Path.pathLimit ∧ Path.parts path = parts := by
  rw [partsOf]
  split
  · rename_i hsize
    simp [hsize]
  · rename_i hsize
    simp [hsize]

/-- What stands at a name is taken, and so are the points. -/
theorem makeDirectory_of_directory {before : List String} {last : String} {outer : List String}
    (hparts : partsOf path = .ok (before ++ [last])) (hlast : last ≠ "")
    (houter : t.findDirectory before = .ok outer) (hplace : t.find outer [last] = .ok place)
    (hdirectory : t.get? place = some .directory) : t.makeDirectory path = .error .taken := by
  simp only [makeDirectory, hparts, Except.ok_bind, splitLast_append_singleton hlast, houter]
  split
  · rfl
  · rename_i hdots
    rw [find_name (findDirectory_eq_ok_iff.1 houter).2 (by simpa using hdots)] at hplace
    simp only [hplace, Except.ok_bind, hdirectory]
    rfl

/-- The directories that lead to a place are there. -/
theorem makeDirectories_of_place (h : t.place? path = .ok place) :
    t.makeDirectories (Path.directories path) = (t, .ok ()) := by
  cases hdirectories : Path.directories path with
  | nil => rfl
  | cons directory outer =>
    obtain ⟨parts, hparts, hfind⟩ := Except.bind_eq_ok_iff.1 h
    obtain ⟨hsize, rfl⟩ := partsOf_eq_ok_iff.1 hparts
    obtain ⟨before, part, after, hsplit, hafter, hpart, rfl⟩ :=
      Path.exists_of_mem_directories (hdirectories ▸ List.mem_cons_self)
    -- The path goes on behind the directory, so that there is one.
    rw [hsplit, find_append_eq_ok_iff] at hfind
    obtain ⟨start, hstart, hrest⟩ := hfind
    obtain ⟨next, hnext, hend⟩ := find_cons_eq_ok_iff.1 hrest
    obtain ⟨first, more, rfl⟩ := List.exists_cons_of_ne_nil hafter
    have hdirectory := directory_of_find_cons hend
    have hstartDirectory : t.findDirectory before = .ok start :=
      findDirectory_eq_ok_iff.2 ⟨hstart, directory_of_find_cons hrest⟩
    have hshort : partsOf (Path.ofParts (before ++ [part])) = .ok (before ++ [part]) := by
      have hle : (Path.ofParts (before ++ [part])).utf8ByteSize ≤
          (Path.ofParts ((before ++ [part]) ++ first :: more)).utf8ByteSize :=
        Path.utf8ByteSize_ofParts_le (by simp) (by simp)
      rw [← List.append_cons, ← hsplit, Path.ofParts_parts] at hle
      exact partsOf_eq_ok_iff.2 ⟨Nat.le_trans hle hsize, Path.parts_of_mem_directories hsplit⟩
    have hthere : t.isDirectory (Path.ofParts (before ++ [part])) = true := by
      have hfound : t.findDirectory (before ++ [part]) = .ok next :=
        findDirectory_eq_ok_iff.2 ⟨find_append_eq_ok_iff.2 ⟨start, hstart, hnext⟩, hdirectory⟩
      rw [isDirectory, hshort, Except.ok_bind, hfound]
      rfl
    simp only [makeDirectories, makeDirectory_of_directory hshort hpart hstartDirectory hnext
      hdirectory, tolerate, hthere]
    rfl

/-- Writing to a file that is there changes the file and nothing else. -/
theorem write_of_file {old : List UInt8} (h : t.place? path = .ok place)
    (hfile : t.get? place = some (.file old)) :
    t.write path content = (t.put place (.file content), .ok ()) := by
  rw [write, makeDirectories_of_place h]
  simp only [writeFile_of_file h hfile]

end SmartContract.FileTree
