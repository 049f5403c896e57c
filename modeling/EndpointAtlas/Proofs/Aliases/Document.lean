import EndpointAtlas.Proofs.Aliases.Packages
import EndpointAtlas.Proofs.Registration.Controllers
import EndpointAtlas.Proofs.Registration.Reachable

/-!
The aliases of a document. The package of a type is read from what is shown of its identifier, so
types are called by the aliases of their packages, and those are what is imported, exactly where no
package of a registered type has a space or starts with white space.
-/

namespace EndpointAtlas

open Text Assembly

/-- A document whose types and controllers are called by the aliases of their packages, and which
imports each of these packages once and no other one, in increasing order. -/
structure HasAliases (project : Project) (contextType : Ident) (files : List ScannedFile)
    (document : Document) : Prop where
  types : ∀ key type, document.types.get? key = some type → ∃ declaration,
    Reachable project contextType files declaration ∧ key = declaration.ident.display ∧
      type.aliasName = aliasOf declaration.package declaration.spec.name
  controllers : ∀ name controller, document.controllers.get? name = some controller →
    ∃ package, Controls files package name ∧ controller.aliasName = aliasOf package name
  imports : ∃ packages : List String, packages.Pairwise (· < ·) ∧
    (∀ package, package ∈ packages ↔
      (∃ declaration, Reachable project contextType files declaration ∧
        declaration.package = package) ∨ ∃ name, Controls files package name) ∧
      document.imports = packages.map importLine

theorem blank_not_mem_alias_of {package name : String} (clean : ' ' ∉ name.toList) :
    ' ' ∉ (aliasOf package name).toList := by
  simp [aliasOf, blank_not_mem_package_alias, clean]

theorem alias_name_with_alias {key : String} {ident : Ident} (read : Ident.parse? key = some ident)
    (type : TypeSchema) : (type.withAlias key).aliasName = aliasOf ident.package ident.name := by
  simp [TypeSchema.withAlias, read]

namespace Assembly

section

variable {project : Project} {contextType : Ident} {files : List ScannedFile} {state : Assembly}
  (complete : Complete project contextType files state)

include complete

theorem Complete.controls {name : String} {controller : Controller}
    (found : state.document.controllers.get? name = some controller) :
    Controls files controller.package name ∧ controller.name = name := by
  apply (place_of_controllers complete.controllers).1
  rw [placeOf, found]
  rfl

theorem Complete.mem_packages_iff {package : String} :
    package ∈ state.document.packages.keys ↔
      (∃ declaration, Reachable project contextType files declaration ∧
        typePackage? declaration.ident.display = some package) ∨
          ∃ name, Controls files package name := by
  rw [Document.mem_packages_iff]
  refine or_congr ?_ ?_
  · simp only [← Table.contains_iff_mem_keys, complete.contains_iff]
    constructor
    · rintro ⟨_, ⟨declaration, reachable, rfl⟩, read⟩
      exact ⟨declaration, reachable, read⟩
    · rintro ⟨declaration, reachable, read⟩
      exact ⟨_, ⟨declaration, reachable, rfl⟩, read⟩
  · constructor
    · rintro ⟨name, controller, found, rfl⟩
      exact ⟨name, (complete.controls found).1⟩
    · rintro ⟨name, controls⟩
      have placed := (place_of_controllers complete.controllers).2 ⟨controls, rfl⟩
      obtain ⟨controller, found, place⟩ := Option.map_eq_some_iff.1 placed
      exact ⟨name, controller, found, (Prod.mk.inj place).1⟩

end

end Assembly

section

variable {project : Project} {contextType : Ident} {files : List ScannedFile} {state : Assembly}

theorem HasAliases.of_clean (complete : Complete project contextType files state)
    (clean : ∀ declaration, Reachable project contextType files declaration →
      ' ' ∉ declaration.package.toList ∧ startsBlank declaration.package.toList = false) :
    HasAliases project contextType files state.document.withAliases := by
  have read : ∀ declaration, Reachable project contextType files declaration →
      Ident.parse? declaration.ident.display = some declaration.ident := by
    intro declaration reachable
    obtain ⟨whole, start⟩ := clean declaration reachable
    have same : trimStart declaration.ident.package.toList = declaration.ident.package.toList :=
      trim_start_eq_self start
    have parsed := Ident.parse_display_of_not_mem reachable.found.is_predeclared
      reachable.found.is_name (same.symm ▸ whole)
    rwa [same, String.ofList_toList] at parsed
  constructor
  · intro key type held
    rw [Document.withAliases, Table.get_map_values, Option.map_eq_some_iff] at held
    obtain ⟨entry, registered, rfl⟩ := held
    obtain ⟨declaration, reachable, rfl, -⟩ := complete.types_iff.1 registered
    exact ⟨declaration, reachable, rfl, alias_name_with_alias (read declaration reachable) entry⟩
  · intro name controller held
    rw [Document.withAliases, Table.get_map_values, Option.map_eq_some_iff] at held
    obtain ⟨entry, found, rfl⟩ := held
    obtain ⟨controls, named⟩ := complete.controls found
    refine ⟨entry.package, controls, ?_⟩
    rw [Controller.withAlias, named]
  · refine ⟨state.document.packages.keys,
      List.pairwise_map.2 state.document.packages.increasing, fun package => ?_,
      Document.imports_with_aliases _⟩
    rw [complete.mem_packages_iff]
    refine or_congr_left (exists_congr fun declaration => and_congr_right fun reachable => ?_)
    rw [typePackage?, read declaration reachable, Option.map_some, Option.some.injEq]
    rfl

/-- A space behind the start of a package would end up in the alias of the type. -/
theorem HasAliases.not_mem (complete : Complete project contextType files state)
    (aliases : HasAliases project contextType files state.document.withAliases)
    {declaration : Declaration} (reachable : Reachable project contextType files declaration) :
    ' ' ∉ trimStart declaration.package.toList := by
  intro broken
  obtain ⟨other, read, split⟩ :=
    Ident.parse_display_of_mem reachable.found.is_predeclared reachable.found.is_name broken
  have held : state.document.withAliases.types.get? declaration.ident.display =
      some (declaration.entry.withAlias declaration.ident.display) := by
    rw [Document.withAliases, Table.get_map_values, complete.registered reachable]
    rfl
  obtain ⟨named, reachableNamed, -, called⟩ := aliases.types _ _ held
  rw [alias_name_with_alias read] at called
  have blank : ' ' ∈ (aliasOf other.package other.name).toList := by simp [aliasOf, split]
  rw [called] at blank
  exact blank_not_mem_alias_of reachableNamed.found.blank_not_mem blank

/-- The package that is read for a type is imported, and only packages of the project are. -/
theorem HasAliases.in_project (complete : Complete project contextType files state)
    (within : ∀ file ∈ files, isProjectPackage project.module file.packagePath = true)
    (aliases : HasAliases project contextType files state.document.withAliases)
    {declaration : Declaration} (reachable : Reachable project contextType files declaration) :
    isProjectPackage project.module
      (String.ofList (trimStart declaration.package.toList)) = true := by
  obtain ⟨packages, -, real, lines⟩ := aliases.imports
  have read := Ident.parse_display_of_not_mem reachable.found.is_predeclared reachable.found.is_name
    (aliases.not_mem complete reachable)
  have package : typePackage? declaration.ident.display =
      some (String.ofList (trimStart declaration.package.toList)) := by
    rw [typePackage?, read]
    rfl
  have listed := complete.mem_packages_iff.2 (.inl ⟨declaration, reachable, package⟩)
  have line := @List.mem_map_of_mem _ _ _ _ importLine listed
  rw [← Document.imports_with_aliases, lines] at line
  obtain ⟨other, member, same⟩ := List.mem_map.1 line
  rw [← import_line_injective same]
  rcases (real other).1 member with ⟨named, reachableNamed, rfl⟩ | ⟨name, controls⟩
  · exact reachableNamed.found.is_project_package
  · obtain ⟨file, listedFile, _, _, _, rfl, _⟩ := controls
    exact within file listedFile

theorem HasAliases.clean (complete : Complete project contextType files state)
    (within : ∀ file ∈ files, isProjectPackage project.module file.packagePath = true)
    (aliases : HasAliases project contextType files state.document.withAliases)
    {declaration : Declaration} (reachable : Reachable project contextType files declaration) :
    ' ' ∉ declaration.package.toList ∧ startsBlank declaration.package.toList = false := by
  have start : startsBlank declaration.package.toList = false := by
    rw [starts_blank_of_is_project_package reachable.found.is_project_package,
      ← starts_blank_of_is_project_package (aliases.in_project complete within reachable),
      String.toList_ofList, starts_blank_trim_start]
  have whole := aliases.not_mem complete reachable
  rw [trim_start_eq_self start] at whole
  exact ⟨whole, start⟩

end

/-- The aliases of a document are right exactly where no package of a registered type has a space or
starts with white space. -/
theorem has_aliases_iff {tree : Tree} {options : AnalysisOptions} {document : Document}
    {files : List ScannedFile} (succeeds : (analyze tree options).1 = .ok document)
    (scanned : options.scannedFiles tree = .ok files) :
    HasAliases (options.project tree) options.contextType files document ↔
      ∀ declaration, Reachable (options.project tree) options.contextType files declaration →
        ' ' ∉ declaration.package.toList ∧ startsBlank declaration.package.toList = false := by
  obtain ⟨others, after, scannedOthers, complete, rfl⟩ := completes_of_analyze succeeds
  rw [scanned] at scannedOthers
  obtain rfl := Except.ok.inj scannedOthers
  constructor
  · intro aliases declaration reachable
    exact aliases.clean complete (fun file listed => ScannedFile.is_project_package scanned listed)
      reachable
  · exact HasAliases.of_clean complete

theorem has_aliases_mutual_tree : ∃ document files,
    (analyze mutualTree mutualOptions).1 = .ok document ∧
      mutualOptions.scannedFiles mutualTree = .ok files ∧
        HasAliases (mutualOptions.project mutualTree) mutualOptions.contextType files document := by
  have keys : (analyze mutualTree mutualOptions).1.toOption.map (·.types.keys) =
      some ["m A", "m B"] := by decide +kernel
  cases succeeds : (analyze mutualTree mutualOptions).1 with
  | error failure =>
      rw [succeeds] at keys
      cases keys
  | ok document =>
      obtain ⟨files, after, scanned, complete, rfl⟩ := completes_of_analyze succeeds
      refine ⟨_, files, rfl, scanned, (has_aliases_iff succeeds scanned).2 ?_⟩
      intro declaration reachable
      rw [succeeds] at keys
      have listed : declaration.ident.display ∈ after.document.withAliases.types.keys := by
        rw [← Table.contains_iff_mem_keys, Table.contains, Document.withAliases,
          Table.get_map_values, complete.registered reachable]
        rfl
      rw [show after.document.withAliases.types.keys = _ from Option.some.inj keys] at listed
      have package : declaration.package = "m" := by
        rcases List.mem_cons.1 listed with isFirst | listed
        · have shown : declaration.ident.display = "m" ++ " " ++ "A" := isFirst
          exact (reachable.found.parts_of_display (by decide) shown).1
        · have shown : declaration.ident.display = "m" ++ " " ++ "B" := List.mem_singleton.1 listed
          exact (reachable.found.parts_of_display (by decide) shown).1
      rw [package]
      decide

def spacedTree : Tree :=
  ⟨[(["my dir"], .directory),
    (["my dir", "a.go"], .file (Text.Glyph.ofString ("package my\n// @Controller\n" ++
      "type C struct \x7b\x7d\ntype T struct \x7b\x7d\n// @Resource GET /t\n" ++
      "func (c C) Get(t T) \x7b\x7d\n")) false)], by decide⟩

/-- There a part of the package is taken for a part of the name of the type. -/
theorem not_has_aliases_spaced_tree : ∃ document files,
    (analyze spacedTree mutualOptions).1 = .ok document ∧
      mutualOptions.scannedFiles spacedTree = .ok files ∧
        ¬ HasAliases (mutualOptions.project spacedTree) mutualOptions.contextType files
          document := by
  have called : (analyze spacedTree mutualOptions).1.toOption.map
      (fun document => (document.types.get? "m/my dir T").map (·.aliasName)) =
        some (some "m_my.dir T") := by decide +kernel
  cases succeeds : (analyze spacedTree mutualOptions).1 with
  | error failure =>
      rw [succeeds] at called
      cases called
  | ok document =>
      obtain ⟨files, after, scanned, -, -⟩ := completes_of_analyze succeeds
      refine ⟨document, files, rfl, scanned, fun aliases => ?_⟩
      rw [succeeds] at called
      obtain ⟨type, held, named⟩ := Option.map_eq_some_iff.1 (Option.some.inj called)
      obtain ⟨declaration, reachable, -, aliased⟩ := aliases.types _ _ held
      have whole : ' ' ∉ (aliasOf declaration.package declaration.spec.name).toList :=
        blank_not_mem_alias_of reachable.found.blank_not_mem
      rw [← aliased, named] at whole
      exact whole (by decide)

end EndpointAtlas
