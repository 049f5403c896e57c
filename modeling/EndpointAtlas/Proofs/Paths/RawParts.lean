import Mathlib.Data.List.Basic
import EndpointAtlas.Package

/-!
Paths that are texts, seen as they are written in bytes. They have the same parts, and no part is
changed when it is shown, so the package of a directory is spelled with its names.
-/

namespace EndpointAtlas

open Text

theorem not_of_mem_split_on_p {p : α → Bool} {items part : List α}
    (member : part ∈ items.splitOnP p)
    {item : α} (inner : item ∈ part) : p item = false := by
  induction items generalizing part with
  | nil =>
      obtain rfl : part = [] := by simpa using member
      cases inner
  | cons first rest ih =>
      rw [List.splitOnP_cons_eq_if_modifyHead] at member
      by_cases cut : p first = true
      · rw [if_pos cut] at member
        rcases List.mem_cons.1 member with rfl | later
        · cases inner
        · exact ih later inner
      · obtain ⟨head, others, split⟩ := List.exists_cons_of_ne_nil (List.splitOnP_ne_nil p rest)
        rw [if_neg cut, split, List.modifyHead_cons] at member
        rcases List.mem_cons.1 member with rfl | later
        · rcases List.mem_cons.1 inner with rfl | inner
          · simpa using cut
          · exact ih (split ▸ List.mem_cons_self) inner
        · exact ih (split ▸ List.mem_cons_of_mem _ later) inner

section

variable {α : Type} [DecidableEq α] {mark : α} {base part : List α}

theorem not_mem_of_mem_split_on (member : part ∈ base.splitOn mark) : mark ∉ part := by
  rw [List.splitOn_eq_splitOnP] at member
  intro inner
  simpa using not_of_mem_split_on_p member inner

variable (clean : mark ∉ part)

include clean

theorem split_on_of_not_mem : part.splitOn mark = [part] := by
  have single := @List.splitOn_intercalate _ [part] _ _ mark (by simpa using clean) (by simp)
  rwa [List.intercalate_singleton] at single

/-- What is joined to a base with one mark between is one more part, after the parts of the base
without an empty one at the end. -/
theorem exists_split_on_joined (nonempty : base ≠ []) : ∃ before,
    (base.splitOn mark = before ∨ base.splitOn mark = before ++ [[]]) ∧
      (base ++ (if base.isEmpty || base.getLast? == some mark then [] else [mark]) ++ part).splitOn
        mark = before ++ [part] := by
  have single := split_on_of_not_mem clean
  by_cases ends : base.getLast? = some mark
  · obtain ⟨start, rfl⟩ := List.getLast?_eq_some_iff.1 ends
    refine ⟨start.splitOn mark, .inr ?_, ?_⟩
    · rw [List.splitOn_append_cons_self]
      rfl
    · simp [List.splitOn_append_cons_self, single]
  · refine ⟨base.splitOn mark, .inl rfl, ?_⟩
    simp [nonempty, ends, List.splitOn_append_cons_self, single]

end

namespace RawPath

theorem split_on_slash_of_chars (chars : List Char) :
    (chars.map Glyph.char).splitOn slash = (chars.splitOn '/').map (List.map Glyph.char) := by
  simp only [List.splitOn_eq_splitOnP]
  induction chars with
  | nil => rfl
  | cons c rest ih =>
      have same : (Glyph.char c == slash) = (c == '/') := by
        rw [Bool.eq_iff_iff, beq_iff_eq, beq_iff_eq, slash, Glyph.char.injEq]
      rw [List.map_cons, List.splitOnP_cons_eq_if_modifyHead, List.splitOnP_cons_eq_if_modifyHead,
        same, ih]
      split
      · rfl
      · cases rest.splitOnP (· == '/') <;> rfl

theorem map_char_injective : Function.Injective (List.map Glyph.char) :=
  List.map_injective_iff.2 fun _ _ => Glyph.char.inj

theorem is_normal_part_of_chars (part : List Char) :
    isNormalPart (part.map Glyph.char) = Path.isNormalPart part := by
  have point : part.map Glyph.char = Glyph.ofString "." ↔ part = ['.'] :=
    map_char_injective.eq_iff' rfl
  have points : part.map Glyph.char = Glyph.ofString ".." ↔ part = ['.', '.'] :=
    map_char_injective.eq_iff' rfl
  rw [Bool.eq_iff_iff]
  simp [isNormalPart, Path.isNormalPart, point, points]

theorem normal_parts_of_path (path : Path) :
    (ofPath path).normalParts = path.normalParts.map Glyph.ofString := by
  have split : (ofPath path).parts = path.parts.map (List.map Glyph.char) :=
    split_on_slash_of_chars path.text.toList
  rw [normalParts, split, List.filter_map, Path.normalParts, List.map_map]
  congr 1
  · funext part
    simp [Glyph.ofString]
  · congr 1
    funext part
    exact is_normal_part_of_chars part

theorem is_slash_of_char (c : Option Char) :
    (c.map Glyph.char == some slash) = (c == some '/') := by
  rw [Bool.eq_iff_iff]
  cases c <;> simp [slash]

theorem is_absolute_of_path (path : Path) : (ofPath path).isAbsolute = path.isAbsolute := by
  rw [isAbsolute, ofPath, Glyph.ofString, List.head?_map, is_slash_of_char, Path.isAbsolute]

theorem join_of_path (base inner : Path) :
    ofPath (base.join inner) = (ofPath base).join (ofPath inner) := by
  rw [join, is_absolute_of_path, Path.join]
  split
  · rfl
  · simp only [ofPath, Glyph.ofString, String.toList_append, List.map_append, List.isEmpty_map,
      List.getLast?_map, is_slash_of_char]
    split <;> rfl

end RawPath

theorem package_path_eq (module : String) (dir : Path) :
    packagePath module dir = packageBelow module dir.normalParts := by
  rw [packagePath, RawPath.package, RawPath.normal_parts_of_path, List.map_map]
  congr 1
  exact List.map_id'' Glyph.lossy_of_string _

end EndpointAtlas
