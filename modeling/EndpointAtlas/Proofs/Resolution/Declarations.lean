import Mathlib.Data.List.Basic
import EndpointAtlas.Proofs.Go.DeclaredNames
import EndpointAtlas.Resolver

/-!
What the packages of a project declare, said without a resolver: the files of a package in the order
of their names, their declarations in that order and in the order of the source, and the outcome
that the first declaration of a name, the absence of one, or a place outside the module gives to an
identifier.
-/

namespace EndpointAtlas

open Go

namespace Project

def filesOf (project : Project) (package : String) : List (String × List Text.Glyph) :=
  match packageDir? project.root project.module package with
  | none => []
  | some dir => packageSources project.tree dir project.includeTests

/-- The declarations of some files of a package; none if one of the files has a syntax error. -/
def declarationsIn? (package : String) (dir : Path) :
    List (String × List Text.Glyph) → Option (List Declaration)
  | [] => some []
  | file :: rest =>
      match SourceFile.ofSource? file.2, declarationsIn? package dir rest with
      | some source, some later =>
          some (Resolver.declarationsOf package (dir.join ⟨file.1⟩) source ++ later)
      | _, _ => none

def declarations? (project : Project) (package : String) : Option (List Declaration) :=
  match packageDir? project.root project.module package with
  | none => some []
  | some dir =>
      declarationsIn? package dir (packageSources project.tree dir project.includeTests)

def firstOf (ident : Ident) (declarations : List Declaration) : Option Declaration :=
  declarations.find? (·.ident = ident)

def outcome? (project : Project) (ident : Ident) : Option Lookup :=
  if ident.isPredeclared then some .missing
  else if isProjectPackage project.module ident.package then
    (project.declarations? ident.package).map fun declarations =>
      match firstOf ident declarations with
      | some declaration => .found declaration
      | none => .missing
  else some .external

def requests (project : Project) (ident : Ident) : Bool :=
  !ident.isPredeclared && isProjectPackage project.module ident.package

/-- Whether a declaration stands in a file of its package, whose imports it has. -/
def Declared (project : Project) (declaration : Declaration) : Prop :=
  ∃ file ∈ project.filesOf declaration.package, ∃ source,
    SourceFile.ofSource? file.2 = some source ∧ declaration.spec ∈ source.types ∧
      declaration.imports = Imports.ofSpecs source.imports

theorem mem_declarations_in {package : String} {dir : Path}
    {files : List (String × List Text.Glyph)} {declarations : List Declaration}
    (read : declarationsIn? package dir files = some declarations) {declaration : Declaration} :
    declaration ∈ declarations ↔ ∃ file ∈ files, ∃ source,
      SourceFile.ofSource? file.2 = some source ∧
        declaration ∈ Resolver.declarationsOf package (dir.join ⟨file.1⟩) source := by
  induction files generalizing declarations with
  | nil =>
      obtain rfl := Option.some.inj read
      simp
  | cons file rest ih =>
      unfold declarationsIn? at read
      split at read
      · rename_i source later ownRead restRead
        obtain rfl := Option.some.inj read
        rw [List.mem_append, ih restRead]
        simp [ownRead]
      · cases read

theorem declared_of_mem {project : Project} {package : String} {declarations : List Declaration}
    (read : project.declarations? package = some declarations) {declaration : Declaration}
    (member : declaration ∈ declarations) :
    declaration.package = package ∧ project.Declared declaration := by
  unfold declarations? at read
  split at read
  · obtain rfl := Option.some.inj read
    cases member
  · rename_i dir located
    obtain ⟨file, listed, source, parsed, own⟩ := (mem_declarations_in read).1 member
    obtain ⟨spec, within, rfl⟩ := List.mem_map.1 own
    refine ⟨rfl, file, ?_, source, parsed, within, rfl⟩
    simpa only [filesOf, located] using listed

theorem outcome_of_is_predeclared {project : Project} {ident : Ident}
    (predeclared : ident.isPredeclared = true) : project.outcome? ident = some .missing := by
  rw [outcome?, if_pos predeclared]

theorem outcome_of_external {project : Project} {ident : Ident}
    (named : ident.isPredeclared = false)
    (outside : isProjectPackage project.module ident.package = false) :
    project.outcome? ident = some .external := by
  simp [outcome?, named, outside]

theorem outcome_of_requests {project : Project} {ident : Ident}
    (requested : project.requests ident = true) :
    project.outcome? ident = (project.declarations? ident.package).map fun declarations =>
      match firstOf ident declarations with
      | some declaration => .found declaration
      | none => .missing := by
  rw [requests, Bool.and_eq_true, Bool.not_eq_true'] at requested
  simp [outcome?, requested.1, requested.2]

/-- What is found is a declaration of the identifier, and the first one of its package. -/
theorem found_iff {project : Project} {ident : Ident} {declaration : Declaration} :
    project.outcome? ident = some (.found declaration) ↔
      project.requests ident = true ∧ ∃ declarations,
        project.declarations? ident.package = some declarations ∧
          firstOf ident declarations = some declaration := by
  by_cases requested : project.requests ident = true
  · rw [outcome_of_requests requested]
    cases read : project.declarations? ident.package with
    | none => simp
    | some declarations => cases first : firstOf ident declarations <;> simp [requested, first]
  · unfold outcome? requests at *
    grind

theorem ident_of_found {project : Project} {ident : Ident} {declaration : Declaration}
    (found : project.outcome? ident = some (.found declaration)) : declaration.ident = ident := by
  obtain ⟨-, declarations, -, first⟩ := found_iff.1 found
  simpa using List.find?_some first

theorem declared_of_found {project : Project} {ident : Ident} {declaration : Declaration}
    (found : project.outcome? ident = some (.found declaration)) :
    project.Declared declaration := by
  obtain ⟨-, declarations, read, first⟩ := found_iff.1 found
  exact (declared_of_mem read (List.mem_of_find?_eq_some first)).2

theorem Declared.is_name {project : Project} {declaration : Declaration}
    (declared : project.Declared declaration) : Lexeme.IsName declaration.spec.name := by
  obtain ⟨file, -, source, read, member, -⟩ := declared
  exact SourceFile.has_names_of_of_source read _ member

theorem eq_of_name_in {directory location : Location} {name : String}
    (named : nameIn? directory location = some name) : location = directory ++ [name] := by
  unfold nameIn? at named
  split at named
  · rename_i only located
    obtain rfl := Option.some.inj named
    exact (List.isPrefixOf?_eq_some_iff_append_eq.1 located).symm
  · cases named

theorem of_source_in {directory : Location} {includeTests : Bool} {entry : Location × Node}
    {file : String × List Text.Glyph} (shown : sourceIn? directory includeTests entry = some file) :
    entry.1 = directory ++ [file.1] ∧ isGoName file.1 = true ∧
      ∃ executable, entry.2 = .file file.2 executable := by
  unfold sourceIn? at shown
  split at shown
  · rename_i name content executable named isFile
    split at shown
    · rename_i accepted
      obtain rfl := Option.some.inj shown
      simp only [Bool.and_eq_true] at accepted
      exact ⟨eq_of_name_in named, accepted.1.2, executable, isFile⟩
    · cases shown
  · cases shown

theorem append_lt_append_iff {prior : Location} {first second : String} :
    prior ++ [first] < prior ++ [second] ↔ first < second := by
  induction prior with
  | nil => simp [List.cons_lt_cons_iff]
  | cons head rest ih => simp [ih]

theorem files_of_increasing (project : Project) (package : String) :
    (project.filesOf package).Pairwise fun first second => first.1 < second.1 := by
  unfold filesOf
  split
  · exact .nil
  · unfold packageSources
    split
    · exact .nil
    · rw [List.pairwise_filterMap]
      refine project.tree.increasing.imp fun {first second} below a shownFirst b shownSecond => ?_
      rw [(of_source_in shownFirst).1, (of_source_in shownSecond).1] at below
      exact append_lt_append_iff.1 below

end Project

end EndpointAtlas
