import EndpointAtlas.Document.Model
import EndpointAtlas.Ident
import EndpointAtlas.Route

/-!
Aliases: the names under which the packages of a document can be imported, and what its types and
controllers are called with them.
-/

namespace EndpointAtlas

def aliasOf (package name : String) : String := packageAlias package ++ "." ++ name

def typePackage? (key : String) : Option String := (Ident.parse? key).map (·.package)

def TypeSchema.withAlias (key : String) (type : TypeSchema) : TypeSchema :=
  match Ident.parse? key with
  | some ident => { type with aliasName := aliasOf ident.package ident.name }
  | none => type

def Controller.withAlias (controller : Controller) : Controller :=
  { controller with aliasName := aliasOf controller.package controller.name }

namespace Document

/-- The packages of the types and controllers of a document with their aliases. -/
def packages (document : Document) : Table String :=
  .ofList ((document.types.keys.filterMap typePackage? ++
    document.controllers.values.map (·.package)).map fun package =>
      (package, packageAlias package))

/-- The document with its imports, one for each package, and with all aliases set. -/
def withAliases (document : Document) : Document :=
  { document with
    imports := document.packages.entries.map fun (package, aliasName) =>
      aliasName ++ " \"" ++ package ++ "\""
    types := document.types.mapValues TypeSchema.withAlias
    controllers := document.controllers.mapValues fun _ controller => controller.withAlias }

end Document

end EndpointAtlas
