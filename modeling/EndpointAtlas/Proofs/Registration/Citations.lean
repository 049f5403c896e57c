import EndpointAtlas.Proofs.Go.MentionedNames
import EndpointAtlas.Proofs.Registration.Order

/-!
The references of a document. A schema refers to a type by what is shown of its identifier, at any
depth. A reference into the project is listed in the document: under the types, or under the
responders if it is an interface. Only an interface through which no endpoint answers is not listed.
-/

namespace EndpointAtlas

open Go

/-- Whether a schema has a reference, in itself or at any depth of its items and properties. -/
inductive Cites : Schema → String → Prop where
  | self {schema : Schema} {ref : String} : schema.reference = some ref → Cites schema ref
  | items {schema inner : Schema} {ref : String} :
      schema.items = some inner → Cites inner ref → Cites schema ref
  | property {schema inner : Schema} {entries : List (String × Schema)} {key ref : String} :
      schema.properties = some entries → (key, inner) ∈ entries → Cites inner ref →
        Cites schema ref

section

variable {ref : String}

theorem not_cites_of_kind {kind : String} : ¬ Cites (.ofKind kind) ref := by
  rintro (same | ⟨same, -⟩ | ⟨same, -, -⟩) <;> cases same

theorem not_cites_unspecified : ¬ Cites .unspecified ref := by
  rintro (same | ⟨same, -⟩ | ⟨same, -, -⟩) <;> cases same

theorem not_cites_primitive_schema {name : String} : ¬ Cites (primitiveSchema name) ref := by
  unfold primitiveSchema
  repeat' split
  all_goals first | exact not_cites_of_kind | exact not_cites_unspecified

theorem cites_of_reference_iff {ident : String} : Cites (.ofReference ident) ref ↔ ref = ident := by
  constructor
  · rintro (same | ⟨same, -⟩ | ⟨same, -, -⟩)
    · exact (Option.some.inj same).symm
    · cases same
    · cases same
  · rintro rfl
    exact .self rfl

theorem cites_array_of_iff {items : Schema} : Cites (.arrayOf items) ref ↔ Cites items ref := by
  constructor
  · rintro (same | ⟨same, inner⟩ | ⟨same, -, -⟩)
    · cases same
    · exact Option.some.inj same ▸ inner
    · cases same
  · exact .items rfl

theorem exists_of_cites_struct_schema {properties : List Property}
    (cites : Cites (structSchema properties) ref) :
    ∃ property ∈ properties, Cites property.schema ref := by
  rcases cites with same | ⟨same, -⟩ | ⟨same, member, inner⟩
  · cases same
  · cases same
  · obtain ⟨property, listed, schema⟩ := (properties_struct_schema same).2 _ member
    exact ⟨property, listed, schema ▸ inner⟩

end

/-- Whether a type mentions a name that is shown so where it stands and is not predeclared. -/
def Points (context : Context) (type : TypeExpr) (ref : String) : Prop :=
  ∃ named ident, Mentions type named ∧ context.identify named = .ok ident ∧
    ident.isPredeclared = false ∧ ident.display = ref

section

variable {context : Context} {type inner : TypeExpr} {ref : String}

theorem Points.imp (points : Points context inner ref)
    (mentions : ∀ named, Mentions inner named → Mentions type named) :
    Points context type ref := by
  obtain ⟨named, ident, mentioned, identified⟩ := points
  exact ⟨named, ident, mentions named mentioned, identified⟩

theorem points_of_cites_named (mentions : Mentions type type)
    (cites : Cites (context.namedSchemaOf type) ref) : Points context type ref := by
  unfold Context.namedSchemaOf at cites
  split at cites
  · rename_i ident identified
    split at cites
    · exact absurd cites not_cites_primitive_schema
    · rename_i declared
      exact ⟨type, ident, mentions, identified, by simpa using declared,
        (cites_of_reference_iff.1 cites).symm⟩
  · exact absurd cites not_cites_unspecified

mutual

/-- The references of a schema come from the names that its type mentions. -/
theorem points_of_cites (type : TypeExpr) (cites : Cites (context.schemaOf type) ref) :
    Points context type ref := by
  cases type with
  | struct fields =>
      unfold Context.schemaOf at cites
      obtain ⟨property, member, inner⟩ := exists_of_cites_struct_schema cites
      exact points_of_property fields member inner
  | pointer target =>
      unfold Context.schemaOf at cites
      exact (points_of_cites target cites).imp fun _ => .pointer
  | slice element =>
      unfold Context.schemaOf at cites
      split at cites
      · exact absurd cites not_cites_of_kind
      · rename_i entered
        exact (points_of_cites element (cites_array_of_iff.1 cites)).imp
          fun _ => .slice (by simpa using entered)
  | array element =>
      unfold Context.schemaOf at cites
      split at cites
      · exact absurd cites not_cites_of_kind
      · rename_i entered
        exact (points_of_cites element (cites_array_of_iff.1 cites)).imp
          fun _ => .array (by simpa using entered)
  | map key value =>
      unfold Context.schemaOf at cites
      exact absurd cites not_cites_of_kind
  | interface elements =>
      unfold Context.schemaOf at cites
      exact absurd cites not_cites_of_kind
  | other text =>
      unfold Context.schemaOf at cites
      exact absurd cites not_cites_unspecified
  | ident name =>
      unfold Context.schemaOf at cites
      exact points_of_cites_named .ident cites
  | qualified package name =>
      unfold Context.schemaOf at cites
      exact points_of_cites_named .qualified cites

theorem points_of_property (fields : List Field) {property : Property}
    (member : property ∈ context.propertiesOf fields) (cites : Cites property.schema ref) :
    Points context (.struct fields) ref := by
  cases fields with
  | nil =>
      unfold Context.propertiesOf at member
      cases member
  | cons field rest =>
      obtain ⟨name, type, tag⟩ := field
      have later : property ∈ context.propertiesOf rest →
          Points context (.struct (⟨name, type, tag⟩ :: rest)) ref := fun further =>
        (points_of_property rest further cites).imp fun _ mentions =>
          mentions_struct_cons_iff.2 (.inr mentions)
      unfold Context.propertiesOf at member
      split at member
      · exact later member
      · rename_i label labelled
        rcases List.mem_cons.1 member with rfl | further
        · exact (points_of_cites type cites).imp fun _ mentions =>
            mentions_struct_cons_iff.2 (.inl ⟨by simp [labelled], mentions⟩)
        · exact later further

end

end

theorem name_of_identify {context : Context} {named : TypeExpr} {ident : Ident}
    (identified : context.identify named = .ok ident) : ident.name = named.shortName := by
  unfold Context.identify at identified
  split at identified
  · split at identified
    · rw [← Except.ok.inj identified]
      rfl
    · rw [← Except.ok.inj identified]
      rfl
  · split at identified
    · rw [← Except.ok.inj identified]
      rfl
    · cases identified
  · cases identified

theorem not_external {project : Project} {ident : Ident} (declared : ident.isPredeclared = false)
    (inside : isProjectPackage project.module ident.package = true) :
    project.outcome? ident ≠ some .external := by
  have requested : project.requests ident = true := by simp [Project.requests, declared, inside]
  rw [Project.outcome_of_requests requested]
  cases project.declarations? ident.package with
  | none => simp
  | some declarations =>
      rw [Option.map_some]
      split <;> simp

section

open Assembly

variable {project : Project} {contextType : Ident} {files : List ScannedFile} {state : Assembly}

/-- A reference into the project leads to a declaration: to a registered type, to a responder, or
to an interface that no parameter of an endpoint names. -/
theorem Assembly.Complete.listed (complete : Complete project contextType files state)
    {declaration : Declaration} (reachable : Reachable project contextType files declaration)
    {ref package name : String}
    (cites : Cites (declaration.context.schemaOf declaration.spec.type) ref)
    (clean : ' ' ∉ name.toList) (shown : ref = package ++ " " ++ name)
    (inside : isProjectPackage project.module package = true) :
    state.document.types.contains ref = true ∨ state.document.responders.contains ref = true ∨
      ∃ contract, project.Found contract ∧ contract.ident.display = ref ∧
        contract.shape = .contract ∧ ¬ Handled project contextType files contract := by
  obtain ⟨named, ident, mentions, identified, declared, rfl⟩ := points_of_cites _ cites
  have isName : Lexeme.IsName ident.name := by
    rw [name_of_identify identified]
    exact (Project.declared_of_found reachable.found).calls_names named mentions
  obtain ⟨rfl, -⟩ := Ident.parts_of_display declared isName.blank_not_mem clean shown
  have settled := complete.sound declaration reachable named mentions
  rw [Project.settles_iff identified] at settled
  rcases settled with predeclared | external | ⟨target, outcome⟩
  · rw [declared] at predeclared
    cases predeclared
  · exact absurd external (not_external declared inside)
  · obtain rfl := Project.ident_of_found outcome
    by_cases isContract : target.shape = .contract
    · by_cases handled : Handled project contextType files target
      · exact .inr (.inl (complete.responds_iff.2 ⟨target, ⟨handled, isContract⟩, rfl⟩))
      · exact .inr (.inr ⟨target, outcome, rfl, isContract, handled⟩)
    · have refers : project.Refers declaration target :=
        ⟨named, mentions, ⟨_, identified, outcome⟩, isContract⟩
      exact .inl (complete.contains_iff.2 ⟨target,
        (territoryOf project contextType files).refers _ _ reachable refers, rfl⟩)

/-- An interface that no parameter of an endpoint names is listed nowhere. -/
theorem Assembly.Complete.not_listed (complete : Complete project contextType files state)
    {contract : Declaration} (found : project.Found contract)
    (isContract : contract.shape = .contract)
    (unnamed : ¬ Handled project contextType files contract) :
    ¬ (state.document.types.contains contract.ident.display = true ∨
      state.document.responders.contains contract.ident.display = true) := by
  rintro (listed | listed)
  · obtain ⟨target, reachable, shown⟩ := complete.contains_iff.1 listed
    exact reachable.no_contract (reachable.found.eq_of_display found shown ▸ isContract)
  · obtain ⟨target, answered, shown⟩ := complete.responds_iff.1 listed
    exact unnamed (answered.1.found.eq_of_display found shown ▸ answered.1)

end

/-- Every reference into the project, at any depth of a schema, is listed under the types or the
responders, except exactly those to interfaces that no parameter of an endpoint names. -/
theorem listed_of_analyze {tree : Tree} {options : AnalysisOptions} {document : Document}
    {files : List ScannedFile} (succeeds : (analyze tree options).1 = .ok document)
    (scanned : options.scannedFiles tree = .ok files) {key : String} {type : TypeSchema}
    (held : document.types.get? key = some type) {schema : Schema}
    (has : type.schema = some schema) {ref package name : String} (cites : Cites schema ref)
    (clean : ' ' ∉ name.toList) (shown : ref = package ++ " " ++ name)
    (inside : isProjectPackage options.module package = true) :
    document.types.contains ref = true ∨ document.responders.contains ref = true ↔
      ¬ ∃ contract, (options.project tree).Found contract ∧ contract.ident.display = ref ∧
        contract.shape = .contract ∧
          ¬ Handled (options.project tree) options.contextType files contract := by
  obtain ⟨others, after, scannedOthers, complete, rfl⟩ := completes_of_analyze succeeds
  rw [scanned] at scannedOthers
  obtain rfl := Except.ok.inj scannedOthers
  rw [Document.withAliases, Table.get_map_values, Option.map_eq_some_iff] at held
  obtain ⟨entry, registered, rfl⟩ := held
  obtain ⟨declaration, reachable, rfl, rfl⟩ := complete.types_iff.1 registered
  rw [schema_with_alias] at has
  obtain rfl := Option.some.inj has
  have same : after.document.withAliases.types.contains ref =
    after.document.types.contains ref := by
    simp [Document.withAliases, Table.contains, Table.get_map_values]
  rw [same]
  constructor
  · rintro listed ⟨contract, found, rfl, isContract, unnamed⟩
    exact complete.not_listed found isContract unnamed listed
  · intro noContract
    rcases complete.listed reachable cites clean shown inside with types | responders | contract
    · exact .inl types
    · exact .inr responders
    · exact absurd contract noContract

def firstItemsRef? (document : Document) (key : String) : Option String :=
  (document.types.get? key).bind fun type => type.schema.bind fun schema =>
    schema.properties.bind fun entries => entries.head?.bind fun entry =>
      entry.2.items.bind (·.reference)

theorem exists_of_first_items_ref {document : Document} {key ref : String}
    (found : firstItemsRef? document key = some ref) : ∃ type schema,
      document.types.get? key = some type ∧ type.schema = some schema ∧ Cites schema ref := by
  obtain ⟨type, held, found⟩ := Option.bind_eq_some_iff.1 found
  obtain ⟨schema, has, found⟩ := Option.bind_eq_some_iff.1 found
  obtain ⟨entries, properties, found⟩ := Option.bind_eq_some_iff.1 found
  obtain ⟨entry, first, found⟩ := Option.bind_eq_some_iff.1 found
  obtain ⟨items, inner, self⟩ := Option.bind_eq_some_iff.1 found
  exact ⟨type, schema, held, has,
    .property properties (List.mem_of_mem_head? first) (.items inner (.self self))⟩

/-- A type that refers back to the one that refers to it. -/
theorem listed_mutual_tree : ∃ document type schema,
    (analyze mutualTree mutualOptions).1 = .ok document ∧
      document.types.get? "m B" = some type ∧ type.schema = some schema ∧ Cites schema "m A" ∧
        ∃ files, mutualOptions.scannedFiles mutualTree = .ok files ∧
          (document.types.contains "m A" = true ∨ document.responders.contains "m A" = true ↔
            ¬ ∃ contract, (mutualOptions.project mutualTree).Found contract ∧
              contract.ident.display = "m A" ∧ contract.shape = .contract ∧
                ¬ Handled (mutualOptions.project mutualTree) mutualOptions.contextType files
                  contract) := by
  have cited : (analyze mutualTree mutualOptions).1.toOption.map (firstItemsRef? · "m B") =
      some (some "m A") := by decide +kernel
  obtain ⟨document, succeeds, found⟩ := exists_ok_of_to_option cited
  obtain ⟨type, schema, held, has, cites⟩ := exists_of_first_items_ref found
  obtain ⟨files, after, scanned, -⟩ := completes_of_analyze succeeds
  exact ⟨document, type, schema, succeeds, held, has, cites, files, scanned,
    listed_of_analyze succeeds scanned held has cites (show ' ' ∉ "A".toList by decide)
      (show "m A" = "m" ++ " " ++ "A" from rfl) (by decide)⟩

def storeTree : Tree :=
  ⟨[(["a.go"], .file (Text.Glyph.ofString ("package m\n// @Controller\ntype C struct \x7b\x7d\n" ++
    "type Store interface \x7b Load() \x7d\ntype T struct \x7b Back []Store \x7d\n" ++
    "// @Resource GET /t\nfunc (c C) Get(t T) \x7b\x7d\n")) false)], by decide⟩

/-- There the reference is listed nowhere, although its package is the module. -/
theorem not_listed_store_tree : ∃ document type schema,
    (analyze storeTree mutualOptions).1 = .ok document ∧
      document.types.get? "m T" = some type ∧ type.schema = some schema ∧
        Cites schema ("m" ++ " " ++ "Store") ∧
          isProjectPackage mutualOptions.module "m" = true ∧
            document.types.contains ("m" ++ " " ++ "Store") = false ∧
              document.responders.contains ("m" ++ " " ++ "Store") = false := by
  have shown : (analyze storeTree mutualOptions).1.toOption.map (fun document =>
      (firstItemsRef? document "m T", document.types.contains "m Store",
        document.responders.contains "m Store")) = some (some "m Store", false, false) := by
    decide +kernel
  obtain ⟨document, succeeds, shown⟩ := exists_ok_of_to_option shown
  obtain ⟨cited, shown⟩ := Prod.mk.inj shown
  obtain ⟨noType, noResponder⟩ := Prod.mk.inj shown
  obtain ⟨type, schema, held, has, cites⟩ := exists_of_first_items_ref cited
  exact ⟨document, type, schema, succeeds, held, has, cites, by decide, noType, noResponder⟩

end EndpointAtlas
