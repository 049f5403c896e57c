import Mathlib.Data.List.Basic
import EndpointAtlas.Proofs.Aliases.Packages

/-!
Names of entries and the paths made of them. Paths are split again into the names they are made of,
so the package of a directory determines its names below the root, and leads back to the directory.
-/

namespace EndpointAtlas

open Text

/-- Whether an entry of a directory can have the name. -/
def IsEntryName (name : String) : Prop :=
  Path.isNormalPart name.toList = true ∧ '/' ∉ name.toList

instance (name : String) : Decidable (IsEntryName name) := inferInstanceAs (Decidable (_ ∧ _))

def pathThrough (names : List String) : Path := ⟨String.intercalate "/" names⟩

namespace Path

theorem file_name_of_parts {path : Path} {before : List (List Char)} {part : List Char}
    (split : path.parts = before ++ [part]) (normal : isNormalPart part = true) :
    path.fileName? = some (String.ofList part) := by
  have whole (rest : List (List Char)) :
      dropEndWhile (fun part => part.isEmpty || part == ['.']) (rest ++ [part]) =
        rest ++ [part] := by
    simp only [isNormalPart, Bool.and_eq_true, Bool.not_eq_true', bne_iff_ne, ne_eq] at normal
    simp [dropEndWhile, normal.1.1, normal.1.2]
  have last : path.significantParts.getLast? = some part := by
    unfold significantParts
    rw [split]
    cases before with
    | nil => rfl
    | cons first rest =>
        simp only [List.cons_append, whole]
        rw [← List.cons_append, List.getLast?_concat]
  simp [fileName?, last, normal]

section

variable {name : String} (clean : '/' ∉ name.toList)

include clean

theorem is_absolute_of_slash_not_mem : (Path.mk name).isAbsolute = false := by
  unfold isAbsolute
  cases split : name.toList with
  | nil => rfl
  | cons c rest =>
      have apart : c ≠ '/' := fun same => clean (by simp [split, same])
      simpa using apart

theorem parts_of_slash_not_mem : (Path.mk name).parts = [name.toList] := by
  exact split_on_of_not_mem clean

/-- The parts of a path are those of its base, without an empty one at the end, and the name. -/
theorem exists_parts_join {base : Path} (nonempty : base.text ≠ "") :
    ∃ before, (base.parts = before ∨ base.parts = before ++ [[]]) ∧
      (base.join ⟨name⟩).parts = before ++ [name.toList] := by
  have chars : base.text.toList ≠ [] := by simpa using nonempty
  have joined : (base.join ⟨name⟩).text.toList = base.text.toList ++
      (if base.text.toList.isEmpty || base.text.toList.getLast? == some '/' then [] else ['/']) ++
        name.toList := by
    simp only [join, is_absolute_of_slash_not_mem clean, Bool.false_eq_true, if_false,
      String.toList_append]
    split <;> rfl
  rw [parts, parts, joined]
  exact exists_split_on_joined clean chars

end

theorem file_name_join {base : Path} {name : String} (named : IsEntryName name)
    (nonempty : base.text ≠ "") : (base.join ⟨name⟩).fileName? = some name := by
  obtain ⟨before, -, split⟩ := exists_parts_join named.2 nonempty
  rw [file_name_of_parts split named.1, String.ofList_toList]

end Path

theorem to_list_package_below (module : String) (names : List String) :
    (packageBelow module names).toList =
      (moduleBase module).toList ++ names.flatMap ('/' :: ·.toList) := by
  rw [packageBelow]
  simp only [String.join_cons, String.toList_append, String.toList_join, List.flatMap_map]
  rfl

theorem flat_map_slash_names {names : List String} (nonempty : names ≠ []) :
    names.flatMap ('/' :: ·.toList) = '/' :: List.intercalate ['/'] (names.map String.toList) := by
  induction names with
  | nil => exact absurd rfl nonempty
  | cons first rest ih =>
      cases rest with
      | nil => simp
      | cons second others => simp [ih (List.cons_ne_nil _ _), List.intercalate_cons_cons]

section

variable {names : List String} (named : ∀ name ∈ names, IsEntryName name)

include named

theorem split_on_intercalate_names (nonempty : names ≠ []) :
    (List.intercalate ['/'] (names.map String.toList)).splitOn '/' = names.map String.toList := by
  apply List.splitOn_intercalate
  · intro part member
    obtain ⟨name, listed, rfl⟩ := List.mem_map.1 member
    exact (named name listed).2
  · simpa using nonempty

theorem parts_path_through (nonempty : names ≠ []) :
    (pathThrough names).parts = names.map String.toList := by
  rw [Path.parts, pathThrough, String.toList_intercalate]
  exact split_on_intercalate_names named nonempty

theorem normal_parts_path_through : (pathThrough names).normalParts = names := by
  by_cases empty : names = []
  · subst empty
    decide
  · have normal : (names.map String.toList).filter Path.isNormalPart = names.map String.toList := by
      apply List.filter_eq_self.2
      intro part member
      obtain ⟨name, listed, rfl⟩ := List.mem_map.1 member
      exact (named name listed).1
    rw [Path.normalParts, parts_path_through named empty, normal, List.map_map]
    simp [Function.comp_def]

/-- The package that is spelled with names leads to the directory with these names. -/
theorem package_dir_by_below {α : Type} (join : α → String → α) (root : α) (module : String) :
    packageDirBy? join root module (packageBelow module names) = some (names.foldl join root) := by
  unfold packageDirBy?
  by_cases empty : names = []
  · have whole : packageBelow module names = moduleBase module := by
      apply String.toList_inj.1
      rw [to_list_package_below, empty, List.flatMap_nil, List.append_nil]
    rw [if_pos (beq_iff_eq.2 whole), empty]
    rfl
  · have below : packageBelow module names ≠ moduleBase module := by
      intro same
      have longer := congrArg String.toList same
      rw [to_list_package_below, flat_map_slash_names empty] at longer
      simp at longer
    have found : belowModule? module (packageBelow module names) =
        some (List.intercalate ['/'] (names.map String.toList)) := by
      rw [below_module_eq_some_iff, to_list_package_below, flat_map_slash_names empty]
    rw [if_neg (by simpa using below), found, Option.map_some,
      split_on_intercalate_names named empty, List.foldl_map]
    simp only [String.ofList_toList]

theorem package_path_through (module : String) :
    packagePath module (pathThrough names) = packageBelow module names := by
  rw [package_path_eq, normal_parts_path_through named]

/-- The package of a directory leads back to the directory. -/
theorem package_dir_package_path (root : Path) (module : String) :
    packageDir? root module (packagePath module (pathThrough names)) =
      some (names.foldl (fun dir name => dir.join ⟨name⟩) root) := by
  rw [package_path_through named]
  exact package_dir_by_below named _ root module

end

/-- Directories whose names below the root differ have different packages. -/
theorem package_path_injective {module : String} {first second : List String}
    (named : ∀ name ∈ first, IsEntryName name) (others : ∀ name ∈ second, IsEntryName name)
    (same : packagePath module (pathThrough first) = packagePath module (pathThrough second)) :
    first = second := by
  have below := congrArg String.toList same
  rw [package_path_through named, package_path_through others, to_list_package_below,
    to_list_package_below, List.append_cancel_left_eq] at below
  by_cases empty : first = []
  · rw [empty] at below ⊢
    cases second with
    | nil => rfl
    | cons name rest => simp at below
  · by_cases emptyToo : second = []
    · rw [emptyToo, flat_map_slash_names empty] at below
      cases below
    · rw [flat_map_slash_names empty, flat_map_slash_names emptyToo] at below
      have parts := congrArg (·.splitOn '/') (List.cons.inj below).2
      simp only [split_on_intercalate_names named empty,
        split_on_intercalate_names others emptyToo] at parts
      exact List.map_injective_iff.2 (fun _ _ => String.toList_inj.1) parts

end EndpointAtlas
