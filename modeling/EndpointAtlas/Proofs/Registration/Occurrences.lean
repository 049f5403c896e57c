import EndpointAtlas.Proofs.Registration.Citations
import EndpointAtlas.Proofs.Resolution.HalfRead
import EndpointAtlas.Proofs.Schemas.Places

/-!
What a registration meets on its way, said without a run: the names in a type as often as its schema
enters them, the types outside the module and the declarations that they name, the declarations that
are visited from one to the next, and why a name cannot be resolved. Packages may have been read in
part before.
-/

namespace EndpointAtlas

open Go

mutual

/-- The named types that the schema of a type enters, in order, as often as it does. -/
def namesIn : TypeExpr → List TypeExpr
  | .struct fields => namesInFields fields
  | .pointer target => namesIn target
  | .slice element | .array element => if isByte element then [] else namesIn element
  | .map _ _ | .interface _ => []
  | .ident name => [.ident name]
  | .qualified package name => [.qualified package name]
  | .other _ => []

def namesInFields : List Field → List TypeExpr
  | [] => []
  | ⟨name, type, tag⟩ :: rest =>
      match fieldLabel? name type tag with
      | none => namesInFields rest
      | some _ => namesIn type ++ namesInFields rest

end

theorem mem_names_in_fields_iff {fields : List Field} {named : TypeExpr}
    (each : ∀ field ∈ fields, named ∈ namesIn field.type ↔ Mentions field.type named) :
    named ∈ namesInFields fields ↔ Mentions (.struct fields) named := by
  induction fields with
  | nil => simp [namesInFields, mentions_struct_iff]
  | cons field rest ih =>
      obtain ⟨name, type, tag⟩ := field
      have first := each _ List.mem_cons_self
      have later := ih fun field member => each field (List.mem_cons_of_mem _ member)
      rw [namesInFields, mentions_struct_cons_iff, ← first, ← later]
      cases fieldLabel? name type tag <;> simp

theorem mem_names_in_iff {type named : TypeExpr} : named ∈ namesIn type ↔ Mentions type named := by
  induction type using TypeExpr.by_fields with
  | ident name => rw [namesIn, List.mem_singleton, mentions_ident_iff]
  | qualified package name => rw [namesIn, List.mem_singleton, mentions_qualified_iff]
  | pointer target ih => rw [namesIn, ih, mentions_pointer_iff]
  | slice element ih =>
      rw [namesIn, mentions_slice_iff, ← ih]
      cases isByte element <;> simp
  | array element ih =>
      rw [namesIn, mentions_array_iff, ← ih]
      cases isByte element <;> simp
  | map key value =>
      rw [namesIn]
      exact ⟨nofun, nofun⟩
  | struct fields ih => rw [namesIn, mem_names_in_fields_iff ih]
  | interface elements =>
      rw [namesIn]
      exact ⟨nofun, nofun⟩
  | other text =>
      rw [namesIn]
      exact ⟨nofun, nofun⟩

theorem is_named_of_mem_names_in {type named : TypeExpr} (member : named ∈ namesIn type) :
    (∃ name, named = .ident name) ∨ ∃ package name, named = .qualified package name := by
  have mentions := mem_names_in_iff.1 member
  clear member
  induction mentions with
  | ident => exact .inl ⟨_, rfl⟩
  | qualified => exact .inr ⟨_, _, rfl⟩
  | pointer _ ih | slice _ _ ih | array _ _ ih | field _ _ _ _ _ ih => exact ih

/-- What the schema of a type meets under a name: a type outside the module, or a declaration of the
project that is no contract. -/
inductive Encounter where
  | foreign (ident : Ident)
  | declared (target : Declaration)

def Encounter.foreign? : Encounter → Option Ident
  | .foreign ident => some ident
  | .declared _ => none

namespace Project

variable {project : Project}

def encounter? (project : Project) (context : Context) (named : TypeExpr) : Option Encounter :=
  match context.identify named with
  | .error _ => none
  | .ok ident =>
      if ident.isPredeclared then none
      else if isProjectPackage project.module ident.package then
        match firstOf ident (project.readable ident.package) with
        | some target => if target.shape = .contract then none else some (.declared target)
        | none => none
      else some (.foreign ident)

def encountersIn (project : Project) (context : Context) (type : TypeExpr) : List Encounter :=
  (namesIn type).filterMap (project.encounter? context)

def encountersOf (project : Project) (declaration : Declaration) : List Encounter :=
  project.encountersIn declaration.context declaration.spec.type

/-- The types outside the module that the schema of a declaration meets, as often as it does. -/
def foreignOf (project : Project) (declaration : Declaration) : List Ident :=
  (project.encountersOf declaration).filterMap Encounter.foreign?

/-- Whether a declaration stands in a file of a package of the project. -/
structure Offers (project : Project) (declaration : Declaration) : Prop where
  requested : project.requests declaration.ident = true
  declared : project.Declared declaration

def Enters (project : Project) (declaration target : Declaration) : Prop :=
  .declared target ∈ project.encountersOf declaration

def Visits (project : Project) (root target : Declaration) : Prop :=
  Relation.ReflTransGen project.Enters root target

/-- Why a name cannot be resolved where it stands, if the packages that were read in part before
are among some. -/
inductive NameFault (project : Project) (half : List String) (context : Context)
    (named : TypeExpr) : Failure → Prop where
  /-- The file does not import the package. -/
  | unimported {package name : String} : named = .qualified package name →
      context.imports.get? package = none →
        NameFault project half context named (.unknownImport package context.package)
  /-- No file of the package declares the type. -/
  | undeclared {ident : Ident} : context.identify named = .ok ident →
      project.requests ident = true →
        (∀ file ∈ project.filesOf ident.package, ∀ source,
          SourceFile.ofSource? file.2 = some source → ∀ spec ∈ source.types,
            spec.name ≠ ident.name) →
          NameFault project half context named (.typeNotFound ident)
  /-- The package was read in part, and the type is not declared in that part. -/
  | forgotten {ident : Ident} : context.identify named = .ok ident →
      project.requests ident = true → ident.package ∈ half →
        (∀ file ∈ project.readableFiles ident.package, ∀ source,
          SourceFile.ofSource? file.2 = some source → ∀ spec ∈ source.types,
            spec.name ≠ ident.name) →
          NameFault project half context named (.typeNotFound ident)
  /-- A file of the package has a syntax error. -/
  | unread {ident : Ident} {failure : Failure} : context.identify named = .ok ident →
      project.requests ident = true → project.ReadFault ident.package failure →
        NameFault project half context named failure

def FaultFrom (project : Project) (half : List String) (root : Declaration)
    (failure : Failure) : Prop :=
  ∃ owner named, project.Visits root owner ∧ named ∈ namesIn owner.spec.type ∧
    project.NameFault half owner.context named failure

section

variable {context : Context} {named : TypeExpr} {ident : Ident}

theorem encounter_of_identified (identified : context.identify named = .ok ident) :
    project.encounter? context named =
      match project.heldOutcome ident with
      | .found target => if target.shape = .contract then none else some (.declared target)
      | .missing => none
      | .external => some (.foreign ident) := by
  rw [encounter?, identified, heldOutcome]
  by_cases predeclared : ident.isPredeclared = true
  · simp [predeclared]
  · by_cases inside : isProjectPackage project.module ident.package = true
    · simp only [predeclared, inside, if_true, Bool.false_eq_true, if_false]
      cases firstOf ident (project.readable ident.package) <;> rfl
    · simp [predeclared, inside]

theorem encounter_eq_foreign_iff : project.encounter? context named = some (.foreign ident) ↔
    context.identify named = .ok ident ∧ ident.isPredeclared = false ∧
      isProjectPackage project.module ident.package = false := by
  constructor
  · intro met
    unfold encounter? at met
    split at met
    · cases met
    rename_i other identified
    split at met
    · cases met
    rename_i declared
    split at met
    · split at met
      · split at met <;> cases met
      · cases met
    · rename_i outside
      obtain rfl := Encounter.foreign.inj (Option.some.inj met)
      exact ⟨identified, by simpa using declared, by simpa using outside⟩
  · intro foreign
    obtain ⟨identified, declared, outside⟩ := foreign
    simp [encounter?, identified, declared, outside]

theorem encounter_eq_declared {target : Declaration}
    (met : project.encounter? context named = some (.declared target)) :
    ∃ ident, project.heldOutcome ident = .found target := by
  cases identified : context.identify named with
  | error failure => simp [encounter?, identified] at met
  | ok ident =>
      rw [encounter_of_identified identified] at met
      split at met
      · rename_i other held
        split at met
        · cases met
        · obtain rfl := Encounter.declared.inj (Option.some.inj met)
          exact ⟨ident, held⟩
      · cases met
      · cases met

theorem name_fault_of_identify {half : List String} {type : TypeExpr} {failure : Failure}
    (member : named ∈ namesIn type) (failed : context.identify named = .error failure) :
    project.NameFault half context named failure := by
  rcases is_named_of_mem_names_in member with ⟨name, rfl⟩ | ⟨package, name, rfl⟩
  · cases predeclared : isPredeclaredType name <;>
      simp [Context.identify, predeclared] at failed
  · cases imported : context.imports.get? package with
    | some path => simp [Context.identify, imported] at failed
    | none =>
        simp only [Context.identify, imported, Except.error.injEq] at failed
        exact failed ▸ .unimported rfl imported

/-- A type of the project is missing only where no file declares it, or none that was read. -/
theorem name_fault_of_missing {half : List String} (identified : context.identify named = .ok ident)
    (requested : project.requests ident = true) (held : project.heldOutcome ident = .missing)
    (noted : project.declarations? ident.package = none → ident.package ∈ half) :
    project.NameFault half context named (.typeNotFound ident) := by
  have none : firstOf ident (project.readable ident.package) = none := by
    rw [held_outcome_of_requests requested] at held
    split at held
    · cases held
    · assumption
  have absent := first_of_readable_eq_none_iff.1 none
  cases read : project.declarations? ident.package with
  | none => exact .forgotten identified requested (noted read) absent
  | some declarations =>
      rw [readable_files_of_read read] at absent
      exact .undeclared identified requested absent

theorem encounters_in_slice (element : TypeExpr) : project.encountersIn context (.slice element) =
    if isByte element then [] else project.encountersIn context element := by
  unfold encountersIn
  rw [namesIn]
  split <;> rfl

theorem encounters_in_array (element : TypeExpr) : project.encountersIn context (.array element) =
    if isByte element then [] else project.encountersIn context element := by
  unfold encountersIn
  rw [namesIn]
  split <;> rfl

theorem schema_of_foreign (met : project.encounter? context named = some (.foreign ident)) :
    context.schemaOf named = .ofReference ident.display := by
  obtain ⟨identified, declared, -⟩ := encounter_eq_foreign_iff.1 met
  have reference : context.namedSchemaOf named = .ofReference ident.display := by
    rw [Context.namedSchemaOf, identified]
    simp [declared]
  cases named with
  | ident name | qualified package name => rw [Context.schemaOf, reference]
  | _ => cases identified

end

theorem Offers.of_held_outcome {ident : Ident} {declaration : Declaration}
    (held : project.heldOutcome ident = .found declaration) : project.Offers declaration := by
  obtain ⟨requested, rfl, declared⟩ := found_of_held_outcome held
  exact ⟨requested, declared⟩

theorem Offers.of_visits {root target : Declaration} (offered : project.Offers root)
    (visited : project.Visits root target) : project.Offers target := by
  rcases visited.cases_tail with rfl | ⟨owner, -, entered⟩
  · exact offered
  · obtain ⟨named, -, met⟩ := List.mem_filterMap.1 entered
    obtain ⟨ident, held⟩ := encounter_eq_declared met
    exact .of_held_outcome held

/-- Declarations of the project are told apart by what is shown of their identifiers. -/
theorem Offers.ident_eq {first second : Declaration} (offeredFirst : project.Offers first)
    (offeredSecond : project.Offers second)
    (same : first.ident.display = second.ident.display) : first.ident = second.ident :=
  Ident.eq_of_display offeredFirst.declared.is_name.blank_not_mem
    offeredSecond.declared.is_name.blank_not_mem same

theorem exists_of_mem_foreign_of {declaration : Declaration} {ident : Ident}
    (foreign : ident ∈ project.foreignOf declaration) : ∃ named ∈ namesIn declaration.spec.type,
      project.encounter? declaration.context named = some (.foreign ident) := by
  obtain ⟨encounter, listed, same⟩ := List.mem_filterMap.1 foreign
  obtain ⟨named, member, met⟩ := List.mem_filterMap.1 listed
  cases encounter with
  | declared target => cases same
  | foreign other =>
      obtain rfl := Option.some.inj same
      exact ⟨named, member, met⟩

/-- No declaration of the project is shown as a type outside the module that another one names. -/
theorem Offers.display_ne {declaration owner : Declaration} (offered : project.Offers declaration)
    (other : project.Offers owner) {ident : Ident} (foreign : ident ∈ project.foreignOf owner) :
    declaration.ident.display ≠ ident.display := by
  obtain ⟨named, member, met⟩ := exists_of_mem_foreign_of foreign
  obtain ⟨identified, -, outside⟩ := encounter_eq_foreign_iff.1 met
  have isName : Lexeme.IsName ident.name := by
    rw [name_of_identify identified]
    exact other.declared.calls_names named (mem_names_in_iff.1 member)
  intro shown
  have same := Ident.eq_of_display offered.declared.is_name.blank_not_mem isName.blank_not_mem shown
  have inside := (Bool.and_eq_true_iff.1 offered.requested).2
  rw [same, outside] at inside
  cases inside

end Project

end EndpointAtlas
