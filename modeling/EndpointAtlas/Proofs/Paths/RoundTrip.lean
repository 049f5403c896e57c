import Mathlib.Data.List.DropRight
import EndpointAtlas.Proofs.Paths.RawComponents
import EndpointAtlas.Resolver

/-!
The way from directories to packages and back. The package of a directory leads to the root joined
with the names of the directory, as they are shown; a package that is spelled with names leads to a
directory with this package; and the packages that lead to some directory are those of the project.
-/

namespace EndpointAtlas

open Text

theorem exists_slashes (module : String) : ∃ count,
    module = moduleBase module ++ String.ofList (List.replicate count '/') ∧
      (moduleBase module).toList.getLast? ≠ some '/' := by
  have base : (moduleBase module).toList = module.toList.rdropWhile (· == '/') :=
    String.toList_ofList
  have slashes : ∀ mark ∈ module.toList.rtakeWhile (· == '/'), mark = '/' :=
    fun mark member => by simpa using List.mem_rtakeWhile_imp member
  refine ⟨(module.toList.rtakeWhile (· == '/')).length, ?_, ?_⟩
  · apply String.toList_inj.1
    rw [String.toList_append, String.toList_ofList, base, ← List.eq_replicate_of_mem slashes,
      List.rdropWhile_append_rtakeWhile]
  · intro ends
    obtain ⟨start, split⟩ := List.getLast?_eq_some_iff.1 ends
    rw [base] at split
    have nonempty : module.toList.rdropWhile (· == '/') ≠ [] := by simp [split]
    have last := List.rdropWhile_last_not (· == '/') _ nonempty
    simp [split] at last

theorem package_dir_by_is_some {α : Type} (join : α → String → α) (root : α)
    (module package : String) :
    (packageDirBy? join root module package).isSome = isProjectPackage module package := by
  unfold packageDirBy? isProjectPackage
  by_cases whole : (package == moduleBase module) = true <;> simp [whole]

theorem package_dir_is_some (root : Path) (module package : String) :
    (packageDir? root module package).isSome = isProjectPackage module package :=
  package_dir_by_is_some _ root module package

theorem is_project_package_iff {module package : String} : isProjectPackage module package = true ↔
    package = moduleBase module ∨ ∃ rest, package = moduleBase module ++ "/" ++ rest := by
  have below : (belowModule? module package).isSome = true ↔
      ∃ rest, package = moduleBase module ++ "/" ++ rest := by
    simp only [Option.isSome_iff_exists, below_module_eq_some_iff]
    constructor
    · intro found
      obtain ⟨rest, split⟩ := found
      exact ⟨.ofList rest, String.toList_inj.1 (by simpa using split)⟩
    · intro found
      obtain ⟨rest, rfl⟩ := found
      exact ⟨rest.toList, by simp⟩
  rw [isProjectPackage, Bool.or_eq_true, beq_iff_eq, below]

/-- For a root that is a text, the directory is the one that is found in the texts. -/
theorem package_dir_of_path (root : Path) (module package : String) :
    (RawPath.ofPath root).packageDir? module package =
      (packageDir? root module package).map .ofPath := by
  rw [RawPath.packageDir?, packageDir?, packageDirBy?, packageDirBy?]
  split
  · rfl
  · rw [Option.map_map]
    refine Option.map_congr fun rest _ => List.foldl_hom RawPath.ofPath fun dir part => ?_
    exact (RawPath.join_of_path dir ⟨String.ofList part⟩).symm

/-- The maps between directories and packages of a project invert each other. -/
structure RoundTrip (root : RawPath) (module : String) : Prop where
  base : ∃ count, module = moduleBase module ++ String.ofList (List.replicate count '/') ∧
    (moduleBase module).toList.getLast? ≠ some '/'
  /-- The package of a directory leads to the root joined with what is shown of its names, and so to
  the root joined with the names themselves exactly if they are texts. -/
  directory (dir : RawPath) : ∃ found,
    root.packageDir? module (dir.package module) = some found ∧
      found.components =
        root.components ++ dir.normalParts.map (fun part => Glyph.ofString (Glyph.lossy part)) ∧
      (found.components = root.components ++ dir.normalParts ↔
        ∀ part ∈ dir.normalParts, ∃ name, part = Glyph.ofString name)
  /-- A package that is spelled with names leads to a directory, and this directory seen from the
  root has the package. -/
  package (names : List String) : (∀ name ∈ names, IsEntryName name) → ∃ found,
    root.packageDir? module (packageBelow module names) = some found ∧
      (∃ dir : RawPath, found.components = root.components ++ dir.components) ∧
      ∀ dir : RawPath, found.components = root.components ++ dir.components →
        dir.package module = packageBelow module names
  defined (package : String) :
    (root.packageDir? module package).isSome = isProjectPackage module package
  inside (package : String) : isProjectPackage module package = true ↔
    package = moduleBase module ∨ ∃ rest, package = moduleBase module ++ "/" ++ rest
  /-- Further letters behind the module path make a package of another module. -/
  outside (further : String) : further ≠ "" → further.toList.head? ≠ some '/' →
    isProjectPackage module (moduleBase module ++ further) = false ∧
      root.packageDir? module (moduleBase module ++ further) = none
  /-- Loading a package of the project reads the files of its directory. -/
  loaded (project : Project) (package : String) : .ofPath project.root = root →
    project.module = module → isProjectPackage module package = true →
      ∃ dir, root.packageDir? module package = some (.ofPath dir) ∧
        Resolver.loadPackage project package = (do
          modify fun resolver => { resolver with loaded := package :: resolver.loaded }
          (packageSources project.tree dir project.includeTests).forM
            (Resolver.loadFile package dir))

section

variable (root : RawPath) (module : String)

theorem package_dir_of_package (dir : RawPath) : root.packageDir? module (dir.package module) =
    some ((dir.normalParts.map Glyph.lossy).foldl (fun above name => above.join (.ofPath ⟨name⟩))
      root) := by
  refine package_dir_by_below (fun name member => ?_) _ root module
  obtain ⟨part, within, rfl⟩ := List.mem_map.1 member
  exact RawPath.is_entry_name_of_mem_normal_parts within

theorem shown_eq_iff (parts : List (List Glyph)) :
    parts.map (fun part => Glyph.ofString (Glyph.lossy part)) = parts ↔
      ∀ part ∈ parts, ∃ name, part = Glyph.ofString name := by
  have pointwise := @List.map_inj_left _ _ parts (fun part => Glyph.ofString (Glyph.lossy part)) id
  rw [List.map_id] at pointwise
  rw [pointwise]
  refine forall_congr' fun part => imp_congr_right fun _ => ⟨fun same => ⟨_, same.symm⟩, ?_⟩
  rintro ⟨name, rfl⟩
  rw [Glyph.lossy_of_string, id]

theorem package_of_package_dir {names : List String} (named : ∀ name ∈ names, IsEntryName name) :
    ∃ found, root.packageDir? module (packageBelow module names) = some found ∧
      (∃ dir : RawPath, found.components = root.components ++ dir.components) ∧
      ∀ dir : RawPath, found.components = root.components ++ dir.components →
        dir.package module = packageBelow module names := by
  have extended := RawPath.components_foldl_join root named
  refine ⟨_, package_dir_by_below named _ root module,
    ⟨names.foldl (fun dir name => dir.join (.ofPath ⟨name⟩)) ⟨[]⟩, ?_⟩, fun dir relative => ?_⟩
  · rw [extended, RawPath.components_foldl_join _ named]
    rfl
  · rw [extended, List.append_cancel_left_eq] at relative
    rw [RawPath.package, RawPath.normal_parts_of_components named relative.symm, List.map_map]
    congr 1
    exact List.map_id'' Glyph.lossy_of_string _

theorem is_project_package_append_eq_false {further : String} (nonempty : further ≠ "")
    (apart : further.toList.head? ≠ some '/') :
    isProjectPackage module (moduleBase module ++ further) = false := by
  rw [Bool.eq_false_iff]
  intro inside
  rcases is_project_package_iff.1 inside with whole | ⟨rest, below⟩
  · have same := congrArg String.toList whole
    simp [nonempty] at same
  · have same := congrArg String.toList below
    rw [String.append_assoc, String.toList_append, String.toList_append,
      List.append_cancel_left_eq] at same
    simp [same] at apart

/-- The maps from directories to packages and back invert each other, for every root and module
path; the packages that lead to a directory are those of the project. -/
theorem round_trip : RoundTrip root module where
  base := exists_slashes module
  directory dir := by
    have named : ∀ name ∈ dir.normalParts.map Glyph.lossy, IsEntryName name := by
      intro name member
      obtain ⟨part, within, rfl⟩ := List.mem_map.1 member
      exact RawPath.is_entry_name_of_mem_normal_parts within
    have extended := RawPath.components_foldl_join root named
    rw [List.map_map] at extended
    refine ⟨_, package_dir_of_package root module dir, extended, ?_⟩
    rw [extended, List.append_cancel_left_eq]
    exact shown_eq_iff dir.normalParts
  package _ named := package_of_package_dir root module named
  defined := package_dir_by_is_some _ root module
  inside _ := is_project_package_iff
  outside further nonempty apart := by
    have foreign := is_project_package_append_eq_false module nonempty apart
    refine ⟨foreign, Option.not_isSome_iff_eq_none.1 ?_⟩
    rw [RawPath.packageDir?, package_dir_by_is_some, foreign]
    exact Bool.false_ne_true
  loaded project package := by
    intro sameRoot sameModule inside
    subst sameRoot sameModule
    rw [← package_dir_is_some project.root] at inside
    obtain ⟨dir, found⟩ := Option.isSome_iff_exists.1 inside
    refine ⟨dir, by rw [package_dir_of_path, found, Option.map_some], ?_⟩
    rw [Resolver.loadPackage]
    simp only [found]

end

/-- The root need not be absolute, and slashes at the end of the module path do not count. -/
theorem round_trip_slashes :
    RawPath.packageDir? (.ofPath ⟨"./p/"⟩) "m//" "m/a/b" = some (.ofPath ⟨"./p/a/b"⟩) ∧
      RawPath.package "m//" (.ofPath ⟨"a/./b"⟩) = "m/a/b" ∧
        RawPath.packageDir? (.ofPath ⟨"./p/"⟩) "m//" "mod" = none := by
  have both : ∀ name ∈ ["a", "b"], IsEntryName name := by decide
  obtain ⟨found, leads, -, back⟩ := (round_trip (.ofPath ⟨"./p/"⟩) "m//").package ["a", "b"] both
  have dir : found = .ofPath ⟨"./p/a/b"⟩ :=
    Option.some.inj (leads.symm.trans (by decide +kernel))
  refine ⟨dir ▸ leads, back (.ofPath ⟨"a/./b"⟩) ?_, ?_⟩
  · rw [dir]
    decide +kernel
  · exact ((round_trip (.ofPath ⟨"./p/"⟩) "m//").outside "od" (by decide) (by decide)).2

/-- A directory whose name is a stray byte has a package, but this leads to another directory. -/
theorem not_round_trip_stray :
    RawPath.package "m" ⟨[.stray 0xFF]⟩ = "m/\uFFFD" ∧
      RawPath.packageDir? (.ofPath ⟨"/p"⟩) "m" "m/\uFFFD" = some (.ofPath ⟨"/p/\uFFFD"⟩) ∧
        RawPath.normalParts ⟨[.stray 0xFF]⟩ = [[.stray 0xFF]] ∧
          (RawPath.ofPath ⟨"/p/\uFFFD"⟩).components ≠
            (RawPath.ofPath ⟨"/p"⟩).components ++ [[.stray 0xFF]] := by
  decide +kernel

end EndpointAtlas
