import Mathlib.Data.List.Basic
import EndpointAtlas.Assembly.State
import EndpointAtlas.Proofs.Registration.References

/-!
A finite list of identifiers that no registration leaves. It is closed under naming, and the bound
of a project on its types is above its length.
-/

namespace EndpointAtlas

open Go

def Context.Within (context : Context) (packages : List String) : Prop :=
  context.package ∈ packages ∧
    ∀ name path, context.imports.get? name = some path → path ∈ packages

theorem Context.Within.identify {context : Context} {packages : List String} {named : TypeExpr}
    {ident : Ident} (within : context.Within packages)
    (identified : context.identify named = .ok ident) :
    ident.isPredeclared = true ∨ ident.package ∈ packages := by
  unfold Context.identify at identified
  split at identified
  · split at identified
    · obtain rfl := Except.ok.inj identified
      exact .inl rfl
    · obtain rfl := Except.ok.inj identified
      exact .inr within.1
  · split at identified
    · rename_i path imported
      obtain rfl := Except.ok.inj identified
      exact .inr (within.2 _ _ imported)
    · cases identified
  · cases identified

/-- Identifiers of a project that hold all that their declarations name. -/
structure Universe (project : Project) where
  idents : List Ident
  closed : ∀ declaration, project.Found declaration → declaration.ident ∈ idents →
    ∀ named target, project.Names declaration.context named target → target.ident ∈ idents

def Universe.Holds {project : Project} (all : Universe project) (idents : List Ident) : Prop :=
  idents.Nodup ∧ ∀ ident ∈ idents, ident ∈ all.idents

namespace Universe

variable {project : Project} {all : Universe project} {idents : List Ident} {ident : Ident}

theorem holds_nil : all.Holds [] := ⟨.nil, by simp⟩

theorem Holds.length_le (holds : all.Holds idents) : idents.length ≤ all.idents.length :=
  holds.1.length_le_of_subset holds.2

theorem Holds.cons (holds : all.Holds idents) (fresh : ident ∉ idents)
    (inside : ident ∈ all.idents) : all.Holds (ident :: idents) := by
  refine ⟨List.nodup_cons.2 ⟨fresh, holds.1⟩, fun other member => ?_⟩
  rcases List.mem_cons.1 member with rfl | earlier
  · exact inside
  · exact holds.2 other earlier

end Universe

namespace Project

def packagesOf (project : Project) (files : List ScannedFile) : List String :=
  files.flatMap (fun file => file.packagePath :: file.imports.values) ++
    project.sources.flatMap fun source => source.imports.map (·.path)

def declaredNames (project : Project) : List String :=
  project.sources.flatMap fun source => source.types.map (·.name)

def identsOf (project : Project) (files : List ScannedFile) : List Ident :=
  (project.packagesOf files).flatMap fun package =>
    project.declaredNames.map fun name => ⟨package, name⟩

theorem length_idents_of_lt (project : Project) (files : List ScannedFile) :
    (project.identsOf files).length < project.typeBound files := by
  have pairs : (project.identsOf files).length =
      (project.packagesOf files).length * project.declaredNames.length := by
    simp [identsOf, List.length_flatMap, List.map_const']
  have names : project.declaredNames.length = (project.sources.flatMap (·.types)).length := by
    rw [declaredNames, ← List.map_flatMap, List.length_map]
  rw [pairs, names]
  exact Nat.lt_succ_self _

theorem mem_idents_of {project : Project} {files : List ScannedFile} {ident : Ident} :
    ident ∈ project.identsOf files ↔
      ident.package ∈ project.packagesOf files ∧ ident.name ∈ project.declaredNames := by
  obtain ⟨package, name⟩ := ident
  simp only [identsOf, List.mem_flatMap, List.mem_map, Ident.mk.injEq]
  grind

theorem Declared.source {project : Project} {declaration : Declaration}
    (declared : project.Declared declaration) : ∃ source ∈ project.sources,
      declaration.spec ∈ source.types ∧ declaration.imports = Imports.ofSpecs source.imports := by
  obtain ⟨file, listed, source, parsed, member, imports⟩ := declared
  refine ⟨source, ?_, member, imports⟩
  unfold filesOf at listed
  split at listed
  · cases listed
  · unfold packageSources at listed
    split at listed
    · cases listed
    · obtain ⟨entry, within, shown⟩ := List.mem_filterMap.1 listed
      obtain ⟨located, isSource, executable, content⟩ := of_source_in shown
      refine List.mem_filterMap.2 ⟨entry, within, ?_⟩
      simp [content, located, isSource, parsed]

theorem Found.name_mem {project : Project} {declaration : Declaration}
    (found : project.Found declaration) : declaration.spec.name ∈ project.declaredNames := by
  obtain ⟨source, listed, member, -⟩ := (declared_of_found found).source
  exact List.mem_flatMap.2 ⟨source, listed, List.mem_map_of_mem member⟩

theorem Found.within {project : Project} {files : List ScannedFile} {declaration : Declaration}
    (found : project.Found declaration)
    (known : declaration.package ∈ project.packagesOf files) :
    declaration.context.Within (project.packagesOf files) := by
  refine ⟨known, fun name path imported => ?_⟩
  obtain ⟨source, listed, -, imports⟩ := (declared_of_found found).source
  rw [Declaration.context, imports] at imported
  have entry := Table.mem_of_mem_of_list (Table.mem_of_get imported)
  obtain ⟨spec, written, same⟩ := List.mem_map.1 entry
  refine List.mem_append_right _ (List.mem_flatMap.2 ⟨source, listed, ?_⟩)
  exact List.mem_map.2 ⟨spec, written, congrArg Prod.snd same⟩

theorem Names.mem_idents_of {project : Project} {files : List ScannedFile} {context : Context}
    {named : TypeExpr} {target : Declaration} (within : context.Within (project.packagesOf files))
    (names : project.Names context named target) : target.ident ∈ project.identsOf files := by
  have found := names.found
  obtain ⟨ident, identified, outcome⟩ := names
  obtain rfl := ident_of_found outcome
  refine Project.mem_idents_of.2 ⟨?_, found.name_mem⟩
  rcases within.identify identified with predeclared | member
  · rw [found.is_predeclared] at predeclared
    cases predeclared
  · exact member

def universeOf (project : Project) (files : List ScannedFile) : Universe project where
  idents := project.identsOf files
  closed := fun _ found member _ _ names =>
    names.mem_idents_of (found.within (Project.mem_idents_of.1 member).1)

theorem within_of_mem {project : Project} {files : List ScannedFile} {file : ScannedFile}
    (member : file ∈ files) :
    (⟨file.packagePath, file.imports⟩ : Context).Within (project.packagesOf files) := by
  refine ⟨?_, fun name path imported => ?_⟩
  · exact List.mem_append_left _ (List.mem_flatMap.2 ⟨file, member, List.mem_cons_self⟩)
  · refine List.mem_append_left _ (List.mem_flatMap.2 ⟨file, member, List.mem_cons_of_mem _ ?_⟩)
    exact List.mem_map_of_mem (f := Prod.snd) (Table.mem_of_get imported)

end Project

end EndpointAtlas
