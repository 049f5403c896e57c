import EndpointAtlas.Document.Model
import EndpointAtlas.Resolver
import EndpointAtlas.Scan
import EndpointAtlas.Warning

/-!
A document in the making. Each step may fail; what has been looked up, registered and warned of
before the failure is kept.
-/

namespace EndpointAtlas

structure Assembly where
  resolver : Resolver
  document : Document
  /-- The types and responders whose registration has begun and has not ended. -/
  inProgress : List Ident
  warnings : List Warning
  /-- Whether a bound has ended a registration before its time. -/
  cutShort : Bool

/-- What an assembly is made for: a project, the type of request contexts, and a bound on the number
of types that can be found in the project. -/
structure Assembly.Scope where
  project : Project
  contextType : Ident
  typeBound : Nat

abbrev Assemble := EStateM Failure Assembly

namespace Assembly

def initial : Assembly := ⟨.initial, .empty, [], [], false⟩

/-- Fails or returns as a result says. -/
def ofExcept : Except Failure α → Assemble α
  | .ok value => pure value
  | .error failure => throw failure

/-- A step that only looks types up. -/
def resolving (step : Resolve α) : Assemble α := fun assembly =>
  match step assembly.resolver with
  | .ok value resolver => .ok value { assembly with resolver }
  | .error failure resolver => .error failure { assembly with resolver }

def warn (warning : Warning) : Assemble Unit :=
  modify fun assembly => { assembly with warnings := assembly.warnings ++ [warning] }

def revise (change : Document → Document) : Assemble Unit :=
  modify fun assembly => { assembly with document := change assembly.document }

/-- Marks an identifier as in progress; false if it is so already. -/
def enter (ident : Ident) : Assemble Bool := do
  if (← get).inProgress.contains ident then return false
  modify fun assembly => { assembly with inProgress := ident :: assembly.inProgress }
  return true

/-- Notes that a bound has been reached. -/
def cutOff : Assemble Unit := modify fun assembly => { assembly with cutShort := true }

def leave (ident : Ident) : Assemble Unit :=
  modify fun assembly => { assembly with inProgress := assembly.inProgress.erase ident }

def requireDeclaration (project : Project) (ident : Ident) : Assemble Declaration := do
  match ← resolving (Resolver.resolve project ident) with
  | some declaration => return declaration
  | none => throw (.typeNotFound ident)

end Assembly

/-- Every Go file of the tree that has no syntax error. -/
def Project.sources (project : Project) : List Go.SourceFile :=
  project.tree.entries.filterMap fun (location, node) =>
    match node with
    | .file content _ =>
        if (location.getLast?.map isGoName).getD false then Go.SourceFile.ofSource? content
        else none
    | .directory => none

/-- A bound above the number of identifiers that can be found from the given files: a package is
named by a file or by an import, and a type by a declaration in the tree. -/
def Project.typeBound (project : Project) (files : List ScannedFile) : Nat :=
  let sources := project.sources
  let packages := files.flatMap (fun file => file.packagePath :: file.imports.values) ++
    sources.flatMap fun source => source.imports.map (·.path)
  let types := sources.flatMap (·.types)
  packages.length * types.length + 1

end EndpointAtlas
