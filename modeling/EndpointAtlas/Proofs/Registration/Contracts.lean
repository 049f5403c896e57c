import EndpointAtlas.Assembly.Responders
import EndpointAtlas.Proofs.Registration.Universe

/-!
The methods of a contract, said without a run of the analysis: those that it has, and the search for
them, which enters every embedded contract once, also where contracts embed each other.
-/

namespace EndpointAtlas

open Go

def Declaration.elements (declaration : Declaration) : List Element :=
  match declaration.spec.type with
  | .interface elements => elements
  | _ => []

/-- A method that a contract has, of its own or from a contract that it embeds. The names in it
stand where the method is written. -/
inductive HasMethod (project : Project) : Declaration → PlacedMethod → Prop where
  | own {contract : Declaration} {method : Method} :
      .method method ∈ contract.elements → HasMethod project contract ⟨method, contract.context⟩
  | embedded {contract target : Declaration} {type : TypeExpr} {placed : PlacedMethod} :
      .embedded type ∈ contract.elements → project.Names contract.context type target →
        HasMethod project target placed → HasMethod project contract placed

namespace Project

def Embeds (project : Project) (contract target : Declaration) : Prop :=
  ∃ type, .embedded type ∈ contract.elements ∧ project.Names contract.context type target

/-- Whether a declaration can be reached from a contract by embedding; from itself in no step. -/
def Reaches (project : Project) : Declaration → Declaration → Prop :=
  Relation.ReflTransGen project.Embeds

def embedded? (project : Project) (context : Context) (type : TypeExpr) : Option Declaration :=
  match context.identify type with
  | .error _ => none
  | .ok ident =>
      match project.outcome? ident with
      | some (.found target) => if target.shape = .contract then some target else none
      | _ => none

def enter? (expand : Declaration → List Ident → Option (List PlacedMethod × List Ident))
    (target : Declaration) (entered : List Ident) : Option (List PlacedMethod × List Ident) :=
  if entered.contains target.ident then some ([], entered)
  else expand target (target.ident :: entered)

def methodsOf? (project : Project)
    (expand : Declaration → List Ident → Option (List PlacedMethod × List Ident))
    (context : Context) : List Element → List Ident → Option (List PlacedMethod × List Ident)
  | [], entered => some ([], entered)
  | .method method :: rest, entered =>
      (methodsOf? project expand context rest entered).map fun (methods, entered) =>
        (⟨method, context⟩ :: methods, entered)
  | .embedded type :: rest, entered =>
      (project.embedded? context type).bind fun target =>
        (enter? expand target entered).bind fun (first, between) =>
          (methodsOf? project expand context rest between).map fun (others, after) =>
            (first ++ others, after)

def methods? (project : Project) :
    Nat → Declaration → List Ident → Option (List PlacedMethod × List Ident)
  | 0, _, entered => some ([], entered)
  | bound + 1, contract, entered =>
      methodsOf? project (methods? project bound) contract.context contract.elements entered

theorem names_of_embedded {project : Project} {context : Context} {type : TypeExpr}
    {target : Declaration} (embedded : project.embedded? context type = some target) :
    project.Names context type target ∧ target.shape = .contract := by
  unfold embedded? at embedded
  split at embedded
  · cases embedded
  · rename_i ident identified
    split at embedded
    · rename_i declaration outcome
      split at embedded
      · rename_i isContract
        obtain rfl := Option.some.inj embedded
        exact ⟨⟨ident, identified, outcome⟩, isContract⟩
      · cases embedded
    · cases embedded

def finds (project : Project) (ident : Ident) : Bool :=
  match project.outcome? ident with
  | some (.found _) => true
  | _ => false

def responseParam? (project : Project) (context : Context) (param : Param) :
    Option (Option Parameter) :=
  match param.name with
  | none => some none
  | some name =>
      match context.identify param.type with
      | .error _ => none
      | .ok ident =>
          if ident.isPredeclared || project.finds ident then
            some (some ⟨.body, ident.display, name, none⟩)
          else none

def response? (project : Project) (placed : PlacedMethod) : Option Response :=
  let annotations := Annotations.ofDoc placed.method.doc
  (placed.method.params.filterMapM (project.responseParam? placed.context)).map fun params =>
    ⟨placed.method.name, annotations,
      (annotations.nonemptyFirst? "@Status").getD defaultStatus, params⟩

def responder? (project : Project) (bound : Nat) (contract : Declaration) : Option Responder :=
  (project.methods? bound contract [contract.ident]).bind fun (methods, _) =>
    (methods.mapM project.response?).map fun responses => ⟨contract.spec.name, responses⟩

def Answers (project : Project) (contract target : Declaration) : Prop :=
  ∃ placed, HasMethod project contract placed ∧ ∃ param ∈ placed.method.params,
    param.name.isSome = true ∧ project.Names placed.context param.type target

end Project

end EndpointAtlas
