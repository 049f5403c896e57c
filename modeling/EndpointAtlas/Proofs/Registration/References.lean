import Mathlib.Logic.Relation
import EndpointAtlas.Assembly.Schemas
import EndpointAtlas.Proofs.Aliases.ReadBack
import EndpointAtlas.Proofs.Resolution.Declarations

/-!
Which types a type refers to, said without a run of the analysis: the named types that its schema
enters, the declarations that these names have where they stand, and the schema itself.
-/

namespace EndpointAtlas

open Go

/-- The named types that the schema of a type enters. Maps, inline interfaces and all other types
are not entered, and neither are fields that JSON does not show. -/
inductive Mentions : TypeExpr → TypeExpr → Prop where
  | ident {name : String} : Mentions (.ident name) (.ident name)
  | qualified {package name : String} : Mentions (.qualified package name) (.qualified package name)
  | pointer {target named : TypeExpr} : Mentions target named → Mentions (.pointer target) named
  | slice {element named : TypeExpr} :
      isByte element = false → Mentions element named → Mentions (.slice element) named
  | array {element named : TypeExpr} :
      isByte element = false → Mentions element named → Mentions (.array element) named
  | field {fields : List Field} {field : Field} {name : String} {named : TypeExpr} :
      field ∈ fields → fieldName? field.name field.type = some name → isExported name = true →
        (field.tag.bind fun tag => StructTag.lookup tag "json") ≠ some "-" →
          Mentions field.type named → Mentions (.struct fields) named

theorem of_tag_is_some_iff {name : String} {tag : Option String} :
    (FieldLabel.ofTag? name tag).isSome = true ↔
      (tag.bind fun tag => StructTag.lookup tag "json") ≠ some "-" := by
  unfold FieldLabel.ofTag?
  split
  · rename_i untagged
    simp [untagged]
  · rename_i value tagged
    by_cases hidden : value = "-" <;> simp [tagged, hidden]

theorem field_label_is_some_iff {field : Field} :
    (fieldLabel? field.name field.type field.tag).isSome = true ↔
      ∃ name, fieldName? field.name field.type = some name ∧ isExported name = true ∧
        (field.tag.bind fun tag => StructTag.lookup tag "json") ≠ some "-" := by
  unfold fieldLabel?
  split
  · rename_i unnamed
    simp [unnamed]
  · rename_i name found
    by_cases exported : isExported name = true <;> simp [found, exported, of_tag_is_some_iff]

theorem mentions_struct_iff {fields : List Field} {named : TypeExpr} :
    Mentions (.struct fields) named ↔ ∃ field ∈ fields,
      (fieldLabel? field.name field.type field.tag).isSome = true ∧ Mentions field.type named := by
  constructor
  · intro mentions
    cases mentions with
    | field member found exported shown inner =>
        exact ⟨_, member, field_label_is_some_iff.2 ⟨_, found, exported, shown⟩, inner⟩
  · rintro ⟨field, member, labelled, inner⟩
    obtain ⟨name, found, exported, shown⟩ := field_label_is_some_iff.1 labelled
    exact .field member found exported shown inner

theorem mentions_ident_iff {name : String} {named : TypeExpr} :
    Mentions (.ident name) named ↔ named = .ident name := by
  constructor
  · intro mentions
    cases mentions
    rfl
  · rintro rfl
    exact .ident

theorem mentions_qualified_iff {package name : String} {named : TypeExpr} :
    Mentions (.qualified package name) named ↔ named = .qualified package name := by
  constructor
  · intro mentions
    cases mentions
    rfl
  · rintro rfl
    exact .qualified

theorem mentions_pointer_iff {target named : TypeExpr} :
    Mentions (.pointer target) named ↔ Mentions target named := by
  constructor
  · intro mentions
    cases mentions with
    | pointer inner => exact inner
  · exact .pointer

theorem mentions_slice_iff {element named : TypeExpr} :
    Mentions (.slice element) named ↔ isByte element = false ∧ Mentions element named := by
  constructor
  · intro mentions
    cases mentions with
    | slice entered inner => exact ⟨entered, inner⟩
  · exact fun mentions => .slice mentions.1 mentions.2

theorem mentions_array_iff {element named : TypeExpr} :
    Mentions (.array element) named ↔ isByte element = false ∧ Mentions element named := by
  constructor
  · intro mentions
    cases mentions with
    | array entered inner => exact ⟨entered, inner⟩
  · exact fun mentions => .array mentions.1 mentions.2

theorem mentions_struct_cons_iff {name tag : Option String} {type named : TypeExpr}
    {rest : List Field} : Mentions (.struct (⟨name, type, tag⟩ :: rest)) named ↔
      (fieldLabel? name type tag).isSome = true ∧ Mentions type named ∨
        Mentions (.struct rest) named := by
  simp [mentions_struct_iff]

namespace Context

def namedSchemaOf (context : Context) (expr : TypeExpr) : Schema :=
  match context.identify expr with
  | .ok ident =>
      if ident.isPredeclared then primitiveSchema ident.name else .ofReference ident.display
  | .error _ => .unspecified

mutual

def schemaOf (context : Context) : TypeExpr → Schema
  | .struct fields => structSchema (propertiesOf context fields)
  | .pointer target => schemaOf context target
  | .slice element | .array element =>
      if isByte element then .ofKind "string" else .arrayOf (schemaOf context element)
  | .map _ _ | .interface _ => .ofKind "object"
  | .ident name => context.namedSchemaOf (.ident name)
  | .qualified package name => context.namedSchemaOf (.qualified package name)
  | .other _ => .unspecified

def propertiesOf (context : Context) : List Field → List Property
  | [] => []
  | ⟨name, type, tag⟩ :: rest =>
      match fieldLabel? name type tag with
      | none => propertiesOf context rest
      | some label =>
          ⟨label.key, !label.omitempty && !isPointer type, schemaOf context type⟩ ::
            propertiesOf context rest

end

end Context

def Declaration.entry (declaration : Declaration) : TypeSchema :=
  ⟨declaration.spec.name, "", some (declaration.context.schemaOf declaration.spec.type)⟩

namespace Project

def Found (project : Project) (declaration : Declaration) : Prop :=
  project.outcome? declaration.ident = some (.found declaration)

def Names (project : Project) (context : Context) (named : TypeExpr)
    (target : Declaration) : Prop :=
  ∃ ident, context.identify named = .ok ident ∧ project.outcome? ident = some (.found target)

/-- Whether a name can be resolved where it stands: it is predeclared, declared in the project, or
lies outside the module. -/
def Settles (project : Project) (context : Context) (named : TypeExpr) : Prop :=
  ∃ ident, context.identify named = .ok ident ∧ (ident.isPredeclared = true ∨
    project.outcome? ident = some .external ∨
      ∃ target, project.outcome? ident = some (.found target))

/-- Whether the schema of a declaration enters another one, which is no contract. -/
def Refers (project : Project) (declaration target : Declaration) : Prop :=
  ∃ named, Mentions declaration.spec.type named ∧ project.Names declaration.context named target ∧
    target.shape ≠ .contract

def Sound (project : Project) (declaration : Declaration) : Prop :=
  ∀ named, Mentions declaration.spec.type named → project.Settles declaration.context named

theorem names_iff {project : Project} {context : Context} {named : TypeExpr} {ident : Ident}
    (identified : context.identify named = .ok ident) {target : Declaration} :
    project.Names context named target ↔ project.outcome? ident = some (.found target) := by
  simp [Names, identified]

theorem settles_iff {project : Project} {context : Context} {named : TypeExpr} {ident : Ident}
    (identified : context.identify named = .ok ident) :
    project.Settles context named ↔ ident.isPredeclared = true ∨
      project.outcome? ident = some .external ∨
        ∃ target, project.outcome? ident = some (.found target) := by
  simp [Settles, identified]

theorem not_settles_of_error {project : Project} {context : Context} {named : TypeExpr}
    {failure : Failure} (failed : context.identify named = .error failure) :
    ¬ project.Settles context named := by
  simp [Settles, failed]

theorem Names.eq {project : Project} {context : Context} {named : TypeExpr}
    {first second : Declaration} (namesFirst : project.Names context named first)
    (namesSecond : project.Names context named second) : first = second := by
  obtain ⟨ident, identified, outcome⟩ := namesFirst
  rw [names_iff identified, outcome] at namesSecond
  exact Lookup.found.inj (Option.some.inj namesSecond)

theorem Names.found {project : Project} {context : Context} {named : TypeExpr}
    {target : Declaration} (names : project.Names context named target) : project.Found target := by
  obtain ⟨ident, -, outcome⟩ := names
  obtain rfl := ident_of_found outcome
  exact outcome

theorem Found.eq_of_ident {project : Project} {first second : Declaration}
    (foundFirst : project.Found first) (foundSecond : project.Found second)
    (same : first.ident = second.ident) : first = second := by
  rw [Found, same, foundSecond] at foundFirst
  exact (Lookup.found.inj (Option.some.inj foundFirst)).symm

theorem Found.is_predeclared {project : Project} {declaration : Declaration}
    (found : project.Found declaration) : declaration.ident.isPredeclared = false := by
  have requested := (found_iff.1 found).1
  simpa [requests] using (Bool.and_eq_true_iff.1 requested).1

theorem Found.is_project_package {project : Project} {declaration : Declaration}
    (found : project.Found declaration) :
    EndpointAtlas.isProjectPackage project.module declaration.package = true := by
  have requested := (found_iff.1 found).1
  exact (Bool.and_eq_true_iff.1 requested).2

theorem Found.is_name {project : Project} {declaration : Declaration}
    (found : project.Found declaration) : Lexeme.IsName declaration.spec.name :=
  (declared_of_found found).is_name

theorem Found.blank_not_mem {project : Project} {declaration : Declaration}
    (found : project.Found declaration) : ' ' ∉ declaration.spec.name.toList :=
  found.is_name.blank_not_mem

end Project

namespace Project

variable {project : Project}

theorem Found.parts_of_display {declaration : Declaration} (found : project.Found declaration)
    {package name : String} (clean : ' ' ∉ name.toList)
    (shown : declaration.ident.display = package ++ " " ++ name) :
    declaration.package = package ∧ declaration.spec.name = name :=
  Ident.parts_of_display found.is_predeclared found.blank_not_mem clean shown

/-- Declarations that the project finds are told apart by what is shown of their identifiers. -/
theorem Found.eq_of_display {first second : Declaration} (foundFirst : project.Found first)
    (foundSecond : project.Found second)
    (same : first.ident.display = second.ident.display) : first = second :=
  foundFirst.eq_of_ident foundSecond
    (Ident.eq_of_display foundFirst.blank_not_mem foundSecond.blank_not_mem same)

end Project

end EndpointAtlas
