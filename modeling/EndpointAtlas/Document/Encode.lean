import EndpointAtlas.Document.Model
import EndpointAtlas.Json

/-!
The API document as a JSON value. Absent parts and most empty lists are left out.
-/

namespace EndpointAtlas

def optionalMember (key : String) (value : Option Json) : List (String × Json) :=
  match value with
  | some value => [(key, value)]
  | none => []

/-- A member that is left out if its list is empty. -/
def nonemptyMember (key : String) (items : List Json) : List (String × Json) :=
  if items.isEmpty then [] else [(key, .list items)]

def textsJson (texts : List String) : Json := .list (texts.map Json.text)

def tableJson (encode : α → Json) (table : Table α) : Json :=
  .object (table.entries.map fun (key, value) => (key, encode value))

mutual

def Schema.toJson : Schema → Json
  | ⟨reference, kind, items, required, properties⟩ =>
      .object (optionalMember "ref" (reference.map Json.text) ++
        optionalMember "type" (kind.map Json.text) ++
        (match items with
          | some schema => [("items", schema.toJson)]
          | none => []) ++
        nonemptyMember "required" (required.map Json.text) ++
        (match properties with
          | some entries => [("properties", .object (propertiesJson entries))]
          | none => []))

def propertiesJson : List (String × Schema) → List (String × Json)
  | [] => []
  | (key, schema) :: rest => (key, schema.toJson) :: propertiesJson rest

end

def TypeSchema.toJson (type : TypeSchema) : Json :=
  .object ([("name", .text type.name), ("alias", .text type.aliasName)] ++
    optionalMember "schema" (type.schema.map Schema.toJson))

def Parameter.toJson (param : Parameter) : Json :=
  .object ([("source", .text param.source.name), ("type", .text param.type),
    ("name", .text param.name)] ++ optionalMember "metadata" (param.metadata.map Json.text))

def Annotations.toJson (annotations : Annotations) : Json := tableJson textsJson annotations.tags

def Response.toJson (response : Response) : Json :=
  .object [("name", .text response.name), ("annotations", response.annotations.toJson),
    ("status", .text response.status), ("params", .list (response.params.map Parameter.toJson))]

def Responder.toJson (responder : Responder) : Json :=
  .object (("name", .text responder.name) ::
    nonemptyMember "responses" (responder.responses.map Response.toJson))

def Resource.toJson (resource : Resource) : Json :=
  .object ([("package", .text resource.package), ("file", .text resource.file),
    ("name", .text resource.name), ("method", .text resource.method),
    ("path", .text resource.path), ("params", .list (resource.params.map Parameter.toJson))] ++
    optionalMember "summary" (resource.summary.map Json.text) ++
    optionalMember "details" (resource.details.map Json.text) ++
    nonemptyMember "tags" (resource.tags.map Json.text))

def Controller.toJson (controller : Controller) : Json :=
  .object [("package", .text controller.package), ("file", .text controller.file),
    ("name", .text controller.name), ("alias", .text controller.aliasName),
    ("base", .text controller.base), ("resources", tableJson Resource.toJson controller.resources)]

def Document.toJson (document : Document) : Json :=
  .object [("imports", textsJson document.imports),
    ("types", tableJson TypeSchema.toJson document.types),
    ("responders", tableJson Responder.toJson document.responders),
    ("controllers", tableJson Controller.toJson document.controllers)]

/-- The document as it is written for readers: one member on a line, and a line end. -/
def Document.prettyText (document : Document) : String := document.toJson.pretty ++ "\n"

/-- The document as it is handed to a generator. -/
def Document.payload (document : Document) : String := document.toJson.compact

end EndpointAtlas
