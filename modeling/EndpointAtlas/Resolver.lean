import EndpointAtlas.Failure
import EndpointAtlas.Go.Predeclared
import EndpointAtlas.Go.SourceFile
import EndpointAtlas.Project

/-!
Resolving the names of types to their declarations. The first look-up in a package reads all of its
files and registers every type they declare, so that no file is read twice; the outcome of every
look-up is kept.
-/

namespace EndpointAtlas

open Go

structure Context where
  package : String
  imports : Imports

def Context.identify (context : Context) : TypeExpr → Except Failure Ident
  | .ident name =>
      if isPredeclaredType name then .ok (.predeclared name) else .ok ⟨context.package, name⟩
  | .qualified package name =>
      match context.imports.get? package with
      | some path => .ok ⟨path, name⟩
      | none => .error (.unknownImport package context.package)
  | expr => .error (.unsupportedType expr.display context.package)

/-- A type declaration of a package, with the file that holds it and the imports of that file. -/
structure Declaration where
  package : String
  file : Path
  spec : TypeSpec
  imports : Imports

namespace Declaration

def ident (declaration : Declaration) : Ident := ⟨declaration.package, declaration.spec.name⟩

def shape (declaration : Declaration) : Shape := declaration.spec.type.shape

def context (declaration : Declaration) : Context := ⟨declaration.package, declaration.imports⟩

end Declaration

/-- The outcome of looking up an identifier. -/
inductive Lookup where
  | found (declaration : Declaration)
  | missing
  | external

structure Resolver where
  outcomes : List (Ident × Lookup)
  loaded : List String
  filesParsed : Nat

namespace Resolver

def initial : Resolver := ⟨[], [], 0⟩

def cached (resolver : Resolver) : Nat := resolver.outcomes.length

def outcome? (resolver : Resolver) (ident : Ident) : Option Lookup :=
  resolver.outcomes.lookup ident

/-- The resolver with an outcome for an identifier that has none. -/
def record (resolver : Resolver) (ident : Ident) (lookup : Lookup) : Resolver :=
  if (resolver.outcome? ident).isSome then resolver
  else { resolver with outcomes := (ident, lookup) :: resolver.outcomes }

/-- What an outcome answers. A type outside the module is a failure, a missing one is not. -/
def answer (ident : Ident) : Lookup → Except Failure (Option Declaration)
  | .found declaration => .ok (some declaration)
  | .missing => .ok none
  | .external => .error (.externalType ident)

end Resolver

abbrev Resolve := EStateM Failure Resolver

namespace Resolver

/-- Fails or returns as a result says. -/
def ofExcept : Except Failure α → Resolve α
  | .ok value => pure value
  | .error failure => throw failure

def declarationsOf (package : String) (file : Path) (source : SourceFile) : List Declaration :=
  let imports := Imports.ofSpecs source.imports
  source.types.map fun spec => ⟨package, file, spec, imports⟩

/-- Reads one file of a package. An earlier declaration of a name is kept. -/
def loadFile (package : String) (dir : Path) (file : String × List Text.Glyph) : Resolve Unit :=
  let path := dir.join ⟨file.1⟩
  match SourceFile.ofSource? file.2 with
  | none => throw (.syntaxError path)
  | some source =>
      modify fun resolver =>
        (declarationsOf package path source).foldl
          (fun resolver declaration => resolver.record declaration.ident (.found declaration))
          { resolver with filesParsed := resolver.filesParsed + 1 }

/-- Reads the files of a package, which counts as loaded from the start. -/
def loadPackage (project : Project) (package : String) : Resolve Unit := do
  modify fun resolver => { resolver with loaded := package :: resolver.loaded }
  match packageDir? project.root project.module package with
  | none => return ()
  | some dir =>
      (packageSources project.tree dir project.includeTests).forM (loadFile package dir)

/-- Looks an identifier up, reading its package first if that has not been done. Predeclared types
have no declaration. -/
def lookup (project : Project) (ident : Ident) : Resolve Lookup := do
  if ident.isPredeclared then return .missing
  match (← get).outcome? ident with
  | some lookup => return lookup
  | none =>
      if !isProjectPackage project.module ident.package then
        modify (·.record ident .external)
        return .external
      unless (← get).loaded.contains ident.package do loadPackage project ident.package
      match (← get).outcome? ident with
      | some lookup => return lookup
      | none =>
          modify (·.record ident .missing)
          return .missing

def resolve (project : Project) (ident : Ident) : Resolve (Option Declaration) := do
  ofExcept (answer ident (← lookup project ident))

end Resolver

end EndpointAtlas
