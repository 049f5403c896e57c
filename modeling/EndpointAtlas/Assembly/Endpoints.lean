import EndpointAtlas.Assembly.Params

/-!
Controllers and their endpoints. All controllers are found before the first endpoint, so that the
two may stand in different files.
-/

namespace EndpointAtlas

open Go

/-- The name of the receiver type without pointers and type arguments; empty if there is none. -/
def receiverName (func : FuncDecl) : String :=
  match func.receiver.map TypeExpr.deref with
  | some (.ident name) => name
  | some (.other text) =>
      String.ofList (Text.trim
        (((text.toList.takeWhile (· != '[')).dropWhile (· == '*'))))
  | _ => ""

/-- The arguments for details that are not empty, each on a line of its own. -/
def detailsOf (annotations : Annotations) : Option String :=
  let details := (annotations.get "@Details").filter (!·.isEmpty)
  if details.isEmpty then none else some (String.intercalate "\n" details)

def isTagSeparator (c : Char) : Bool := c == ',' || Text.isBlank c

def tagsOf (annotations : Annotations) : List String :=
  (annotations.get "@Tags").flatMap fun argument =>
    ((argument.toList.splitOnP isTagSeparator).filter (!·.isEmpty)).map String.ofList

def ScannedFile.context (file : ScannedFile) : Context := ⟨file.packagePath, file.imports⟩

def ScannedFile.path (file : ScannedFile) : String := file.packagePath ++ "/" ++ file.fileName

namespace Assembly

def addController (file : ScannedFile) (spec : TypeSpec) : Assemble Unit := do
  let annotations := Annotations.ofDoc spec.doc
  unless spec.type.shape = .record && annotations.contains "@Controller" do return
  match (← get).document.controllers.get? spec.name with
  | some existing => throw (.duplicateController spec.name existing.file file.path)
  | none =>
      let controller : Controller :=
        ⟨file.packagePath, file.path, spec.name, "",
          (annotations.first? "@Controller").getD "", .empty⟩
      revise fun document =>
        { document with controllers := document.controllers.insert spec.name controller }

def routeOf (func argument : String) : Assemble (String × String) := do
  match (Text.words argument.toList).map String.ofList with
  | method :: path :: extra =>
      unless extra.isEmpty do warn (.extraTokens func (String.intercalate " " extra))
      return (method, path)
  | _ => throw (.malformedResource func argument)

/-- The name of the controller that a function belongs to. It must be one of the same package. -/
def ownerOf (file : ScannedFile) (func : FuncDecl) : Assemble String := do
  let receiver := receiverName func
  match (← get).document.controllers.get? receiver with
  | some controller =>
      unless controller.package = file.packagePath do
        throw (.orphanResource func.name receiver file.packagePath)
      return receiver
  | none => throw (.orphanResource func.name receiver file.packagePath)

def addResource (scope : Scope) (file : ScannedFile) (func : FuncDecl) : Assemble Unit := do
  let annotations := Annotations.ofDoc func.doc
  match annotations.get "@Resource" with
  | [] => return
  | argument :: others =>
      unless others.isEmpty do warn (.multipleResources func.name)
      let (method, path) ← routeOf func.name argument
      let owner ← ownerOf file func
      let params ← classifyParams scope file.context func path annotations
      let resource : Resource :=
        ⟨file.packagePath, file.fileName, func.name, method, path, params,
          annotations.nonemptyFirst? "@Summary", detailsOf annotations, tagsOf annotations⟩
      revise fun document =>
        { document with
          controllers := document.controllers.modify owner fun controller =>
            { controller with resources := controller.resources.insert func.name resource } }

def addFiles (scope : Scope) (files : List ScannedFile) : Assemble Unit := do
  files.forM fun file => file.source.types.forM (addController file)
  files.forM fun file => file.source.funcs.forM (addResource scope file)

end Assembly

end EndpointAtlas
