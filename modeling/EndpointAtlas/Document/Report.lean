import EndpointAtlas.Document.Model
import EndpointAtlas.Path
import EndpointAtlas.Text.Column

/-!
The API document as a report for readers.
-/

namespace EndpointAtlas

open Text

namespace Document

def rule : String := String.ofList (List.replicate 60 '-')

def parameterLine (param : Parameter) : String :=
  "          " ++ padRight 10 param.source.name ++ " " ++ param.name ++ " " ++ param.type ++
    (match param.metadata with
      | some metadata => " (" ++ metadata ++ ")"
      | none => "")

def resourceLines (resource : Resource) : List String :=
  ("  " ++ padRight 7 resource.method ++ " " ++ padRight 30 resource.path ++ " " ++
      resource.name) ::
    (resource.summary.toList.map ("          " ++ ·) ++ resource.params.map parameterLine)

def controllerLines (controller : Controller) : List String :=
  let base := if controller.base.isEmpty then "/" else controller.base
  [controller.name ++ " (" ++ base ++ ")", rule] ++
    controller.resources.values.flatMap resourceLines ++ [""]

def responderLines (entry : String × Responder) : List String :=
  ("  " ++ entry.1) ::
    entry.2.responses.map fun response => "    " ++ response.status ++ " " ++ response.name

def resourceCount (document : Document) : Nat :=
  (document.controllers.values.flatMap (·.resources.values)).length

def reportLines (document : Document) (root : Path) : List String :=
  ["restc API Report", "================", "", "Root:        " ++ root.text,
    "Controllers: " ++ toString document.controllers.size,
    "Resources:   " ++ toString document.resourceCount,
    "Types:       " ++ toString document.types.size,
    "Responders:  " ++ toString document.responders.size, ""] ++
    document.controllers.values.flatMap controllerLines ++
    (if document.responders.isEmpty then []
      else ["Responders", rule] ++ document.responders.entries.flatMap responderLines ++ [""]) ++
    (if document.types.isEmpty then []
      else ["Types", rule] ++
        document.types.entries.map fun (key, type) => "  " ++ key ++ " as " ++ type.aliasName)

def report (document : Document) (root : Path) : String :=
  String.join ((document.reportLines root).map (· ++ "\n"))

end Document

inductive OutputFormat where
  | json
  | text
  deriving DecidableEq, Repr

namespace OutputFormat

def name : OutputFormat → String
  | json => "json"
  | text => "text"

def ofName? (name : String) : Option OutputFormat :=
  let lower := name.map Char.toLower
  if lower == "json" then some .json else if lower == "text" then some .text else none

end OutputFormat

end EndpointAtlas
