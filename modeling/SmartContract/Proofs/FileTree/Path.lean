import Mathlib.Data.List.Basic
import SmartContract.FileTree
import SmartContract.Proofs.Text.Blank

/-!
The directories that lead to what a path names. Each is written as a start of the path, and its
parts are the first parts of the path, up to one that names something.
-/

namespace SmartContract.Path

variable {path directory : String} {ps qs : List String}

/-- A path is its parts with slashes between them. -/
theorem ofParts_parts (path : String) : ofParts (parts path) = path := by
  have hchars : (Text.pieces (· == '/') path.toList).map (String.toList ∘ String.ofList) =
      path.toList.splitOn '/' := by
    rw [Text.pieces_eq_splitOnP, List.splitOn_eq_splitOnP]
    exact (List.map_congr_left fun _ _ => String.toList_ofList).trans (List.map_id' _)
  rw [← String.toList_inj, ofParts, String.toList_intercalate, parts, List.map_map, hchars]
  exact List.intercalate_splitOn '/'

theorem parts_ne_nil (path : String) : parts path ≠ [] := by
  rw [parts, Text.pieces_eq_splitOnP, ne_eq, List.map_eq_nil_iff]
  exact List.splitOnP_ne_nil _ _

theorem slash_not_mem_of_mem_parts {part : String} (h : part ∈ parts path) :
    '/' ∉ part.toList := by
  obtain ⟨piece, hpiece, rfl⟩ := List.mem_map.1 h
  rw [String.toList_ofList]
  exact fun hslash => absurd (Text.mem_of_mem_pieces hpiece hslash).2 (by decide)

/-- Texts without slashes are the parts of the path that is made of them. -/
theorem parts_ofParts (hne : ps ≠ []) (h : ∀ part ∈ ps, '/' ∉ part.toList) :
    parts (ofParts ps) = ps := by
  have hsplit : (['/'].intercalate (ps.map String.toList)).splitOn '/' = ps.map String.toList :=
    List.splitOn_intercalate '/' (List.forall_mem_map.2 h) (by simpa using hne)
  rw [List.splitOn_eq_splitOnP, ← Text.pieces_eq_splitOnP] at hsplit
  rw [parts, ofParts, String.toList_intercalate]
  change (Text.pieces _ (['/'].intercalate _)).map _ = ps
  rw [hsplit, List.map_map]
  exact (List.map_congr_left fun _ _ => String.ofList_toList).trans (List.map_id' _)

/-- A path is not shorter than its starts. -/
theorem utf8ByteSize_ofParts_le (hps : ps ≠ []) (hqs : qs ≠ []) :
    (ofParts ps).utf8ByteSize ≤ (ofParts (ps ++ qs)).utf8ByteSize := by
  rw [ofParts, ofParts, String.intercalate_append_of_ne_nil hps hqs, String.utf8ByteSize_append,
    String.utf8ByteSize_append]
  omega

theorem mem_dropLast_append {α : Type} {x : α} {xs ys : List α} (h : x ∈ (xs ++ ys).dropLast)
    (hys : ys.length ≤ 1) : x ∈ xs := by
  match ys, hys with
  | [], _ => exact (List.dropLast_subset xs) (by simpa using h)
  | [y], _ => simpa using h

/-- The last part of a path does not end a directory. -/
theorem mem_starts_of_mem_directories {init : List String} {last : String}
    (hparts : parts path = init ++ [last]) (h : directory ∈ directories path) :
    directory ∈ init.zipIdx.filterMap fun (part, i) =>
      if names part i then some (ofParts ((parts path).take (i + 1))) else none := by
  rw [directories, List.mem_reverse, starts] at h
  dsimp only at h
  rw [hparts, List.zipIdx_append, List.filterMap_append, ← hparts] at h
  exact mem_dropLast_append h (List.length_filterMap_le _ _)

/-- What follows a directory in a path is not empty. -/
theorem exists_of_mem_directories (h : directory ∈ directories path) :
    ∃ before part after, parts path = before ++ part :: after ∧ after ≠ [] ∧ part ≠ "" ∧
      directory = ofParts (before ++ [part]) := by
  obtain ⟨init, last, hparts⟩ := (parts path).eq_nil_or_concat'.resolve_left (parts_ne_nil path)
  obtain ⟨⟨part, i⟩, hpart, hdirectory⟩ :=
    List.mem_filterMap.1 (mem_starts_of_mem_directories hparts h)
  obtain ⟨hnames, hdirectory⟩ := Option.ite_none_right_eq_some.1 hdirectory
  have hget : init[i]? = some part := List.mem_zipIdx_iff_getElem?.1 hpart
  obtain ⟨hi, hpart⟩ := List.getElem?_eq_some_iff.1 hget
  have hne : part ≠ "" := by
    simp only [names, Bool.and_eq_true, decide_eq_true_eq] at hnames
    exact hnames.1
  refine ⟨init.take i, part, init.drop (i + 1) ++ [last], ?_, by simp, hne, ?_⟩
  · rw [hparts, ← List.cons_append, ← List.append_assoc, ← hpart, List.getElem_cons_drop,
      List.take_append_drop]
  · rw [← Option.some.inj hdirectory, hparts, List.take_append_of_le_length hi,
      List.take_succ_eq_append_getElem hi, hpart]

/-- The parts of a directory that leads to what a path names are the first ones of the path. -/
theorem parts_of_mem_directories {before after : List String} {part : String}
    (h : parts path = before ++ part :: after) :
    parts (ofParts (before ++ [part])) = before ++ [part] := by
  have hstart : ∀ p ∈ before ++ [part], p ∈ parts path := by
    intro p hp
    rw [h, List.append_cons]
    exact List.mem_append_left _ hp
  exact parts_ofParts (by simp) fun p hp => slash_not_mem_of_mem_parts (hstart p hp)

end SmartContract.Path
