import EndpointAtlas.Assembly.Schemas

/-!
Responders: the interfaces through which endpoints answer. Each method of the interface is a
response, also those that it has from the interfaces it embeds.
-/

namespace EndpointAtlas

open Go

def defaultStatus : String := "200"

def Annotations.nonemptyFirst? (annotations : Annotations) (tag : String) : Option String :=
  (annotations.first? tag).filter (!·.isEmpty)

structure PlacedMethod where
  method : Method
  context : Context

namespace Assembly

/-- A step that goes through embedded interfaces and remembers which it has entered. -/
abbrev Expand := StateT (List Ident) Assemble

/-- The declaration of an embedded interface; anything else may not be embedded. -/
def embeddedContract (project : Project) (contract : Declaration) (ident : Ident) :
    Assemble Declaration := do
  if ident.isPredeclared then throw (.invalidEmbedding contract.ident ident)
  let embedded ← requireDeclaration project ident
  unless embedded.shape = .contract do throw (.invalidEmbedding contract.ident ident)
  return embedded

/-- The methods that an element of an interface adds; `expand` gives those of an embedded
interface, which count once. -/
def elementMethods (project : Project) (expand : Declaration → Expand (List PlacedMethod))
    (contract : Declaration) : Element → Expand (List PlacedMethod)
  | .method method => return [⟨method, contract.context⟩]
  | .embedded type => do
      let ident ← ofExcept (contract.context.identify type)
      let embedded ← embeddedContract project contract ident
      if (← get).contains ident then return []
      modify (ident :: ·)
      expand embedded

/-- The methods of an interface in the order of their declaration, with those of an embedded
interface in its place. The bound is larger than the number of interfaces not yet entered. -/
def contractMethods (project : Project) : Nat → Declaration → Expand (List PlacedMethod)
  | 0, _ => do
      cutOff
      return []
  | bound + 1, contract =>
      match contract.spec.type with
      | .interface elements => do
          let methods ←
            elements.mapM (elementMethods project (contractMethods project bound) contract)
          return methods.flatten
      | _ => return []

/-- A parameter of a response. Its type is registered if it is a record. -/
def responseParam (scope : Scope) (responder : String) (placed : PlacedMethod)
    (param : Param) : Assemble (Option Parameter) := do
  match param.name with
  | none =>
      warn (.unnamedResponseParam responder placed.method.name)
      return none
  | some name =>
      let ident ← ofExcept (placed.context.identify param.type)
      unless ident.isPredeclared do
        let declaration ← requireDeclaration scope.project ident
        if declaration.shape = .record then
          registerType scope.project scope.typeBound declaration
      return some ⟨.body, ident.display, name, none⟩

def responseOf (scope : Scope) (responder : String) (placed : PlacedMethod) :
    Assemble Response := do
  let annotations := Annotations.ofDoc placed.method.doc
  let params ← placed.method.params.filterMapM (responseParam scope responder placed)
  return ⟨placed.method.name, annotations,
    (annotations.nonemptyFirst? "@Status").getD defaultStatus, params⟩

def registerResponder (scope : Scope) (contract : Declaration) : Assemble Unit := do
  let ident := contract.ident
  if (← get).document.responders.contains ident.display then return
  unless ← enter ident do return
  let (methods, _) ← (contractMethods scope.project scope.typeBound contract).run [ident]
  let responses ← methods.mapM (responseOf scope contract.spec.name)
  revise fun document =>
    { document with
      responders := document.responders.insert ident.display ⟨contract.spec.name, responses⟩ }
  leave ident

end Assembly

end EndpointAtlas
