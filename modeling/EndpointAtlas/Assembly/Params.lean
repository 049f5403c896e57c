import EndpointAtlas.Assembly.Responders
import EndpointAtlas.Route

/-!
The parameters of endpoints and where their values come from. The type of a parameter gives a first
source, a placeholder of the path overrides it, and an annotation overrides both.
-/

namespace EndpointAtlas

open Go

structure ParamNote where
  name : String
  source : String
  metadata : Option String
  deriving DecidableEq, Repr

/-- Reads the argument of an annotation, which has at least two fields. -/
def ParamNote.ofArgument? (argument : String) : Option ParamNote :=
  match (fields 3 argument.toList).map String.ofList with
  | name :: source :: rest => some ⟨name, source, rest.head?⟩
  | _ => none

def changeParam (name : String) (change : Parameter → Parameter) :
    List Parameter → List Parameter
  | [] => []
  | param :: rest =>
      if param.name = name then change param :: rest else param :: changeParam name change rest

/-- The parameters with those that the path names taken from it. -/
def markPathParams (pattern : String) (params : List Parameter) : List Parameter :=
  (placeholders pattern.toList).foldl
    (fun params name => changeParam (String.ofList name) ({ · with source := .path }) params) params

def Parameter.noted (param : Parameter) (source : ParamSource) (metadata : Option String) :
    Parameter :=
  { param with source, metadata := metadata.or param.metadata }

namespace Assembly

/-- The source that the type of a parameter gives; records and contracts are registered. -/
def sourceOfType (scope : Scope) (ident : Ident) : Assemble ParamSource := do
  if ident = scope.contextType then return .context
  if ident.isPredeclared then return .query
  let declaration ← requireDeclaration scope.project ident
  match declaration.shape with
  | .record =>
      registerType scope.project scope.typeBound declaration
      return .body
  | .contract =>
      registerResponder scope declaration
      return .responder
  | .other => return .query

def typedParam (scope : Scope) (context : Context) (func : String) (param : Param) :
    Assemble (Option Parameter) := do
  match param.name with
  | none =>
      warn (.unnamedParam func param.type.display)
      return none
  | some name =>
      let ident ← ofExcept (context.identify param.type)
      let source ← sourceOfType scope ident
      return some ⟨source, ident.display, name, none⟩

def annotateParams (func : String) (params : List Parameter) (argument : String) :
    Assemble (List Parameter) := do
  match ParamNote.ofArgument? argument with
  | none =>
      warn (.incorrectParam func argument)
      return params
  | some note =>
      unless params.any (·.name = note.name) do throw (.unknownParam func note.name)
      match ParamSource.ofName? note.source with
      | none =>
          warn (.unknownSource func argument)
          return params
      | some source => return changeParam note.name (·.noted source note.metadata) params

/-- The named parameters of an endpoint with their sources. -/
def classifyParams (scope : Scope) (context : Context) (func : FuncDecl) (pattern : String)
    (annotations : Annotations) : Assemble (List Parameter) := do
  let params ← func.params.filterMapM (typedParam scope context func.name)
  (annotations.get "@Param").foldlM (annotateParams func.name) (markPathParams pattern params)

end Assembly

end EndpointAtlas
