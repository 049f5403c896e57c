import EndpointAtlas.Proofs.Schemas.Places

/-!
Types with two spellings. A byte is also called `uint8`, a rune `int32`, and `any` is the interface
without elements. Runs on two spellings of a type take the same course and fail alike; their
schemas are the same unless a place shows `any` against its interface, or bytes against their other
name in a slice or an array.
-/

namespace EndpointAtlas

open Go

namespace Go

variable {τ σ : Type}

def ParamOf.map (change : τ → σ) (param : ParamOf τ) : ParamOf σ :=
  ⟨param.name, change param.type⟩

def FieldOf.map (change : τ → σ) (field : FieldOf τ) : FieldOf σ :=
  ⟨field.name, change field.type, field.tag⟩

def MethodOf.map (change : τ → σ) (method : MethodOf τ) : MethodOf σ :=
  ⟨method.name, method.doc, method.params.map (·.map change)⟩

def ElementOf.map (change : τ → σ) : ElementOf τ → ElementOf σ
  | .method spec => .method (spec.map change)
  | .embedded type => .embedded (change type)

def ElementOf.types : ElementOf τ → List τ
  | .method spec => spec.params.map (·.type)
  | .embedded type => [type]

end Go

inductive Twins : TypeExpr → TypeExpr → Prop where
  | byte : Twins (.ident "byte") (.ident "uint8")
  | rune : Twins (.ident "rune") (.ident "int32")
  | any : Twins (.ident "any") (.interface [])

/-- Whether two types are the same but for spellings, which may change at any places in them. The
parts of a struct or an interface stand in both types at once, as pairs. -/
inductive Respelled : TypeExpr → TypeExpr → Prop where
  | twins {type other : TypeExpr} : Twins type other → Respelled type other
  | twins_back {type other : TypeExpr} : Twins other type → Respelled type other
  | ident {name : String} : Respelled (.ident name) (.ident name)
  | qualified {package name : String} :
      Respelled (.qualified package name) (.qualified package name)
  | pointer {target other : TypeExpr} : Respelled target other →
      Respelled (.pointer target) (.pointer other)
  | slice {element other : TypeExpr} : Respelled element other →
      Respelled (.slice element) (.slice other)
  | array {element other : TypeExpr} : Respelled element other →
      Respelled (.array element) (.array other)
  | map {key otherKey value otherValue : TypeExpr} : Respelled key otherKey →
      Respelled value otherValue → Respelled (.map key value) (.map otherKey otherValue)
  | struct {pairs : List (FieldOf (TypeExpr × TypeExpr))} :
      (∀ pair ∈ pairs, Respelled pair.type.1 pair.type.2) →
        Respelled (.struct (pairs.map (·.map Prod.fst))) (.struct (pairs.map (·.map Prod.snd)))
  | interface {pairs : List (ElementOf (TypeExpr × TypeExpr))} :
      (∀ pair ∈ pairs, ∀ types ∈ pair.types, Respelled types.1 types.2) →
        Respelled (.interface (pairs.map (·.map Prod.fst)))
          (.interface (pairs.map (·.map Prod.snd)))
  | other {text : String} : Respelled (.other text) (.other text)

inductive Clash : TypeExpr → TypeExpr → Prop where
  | any : Clash (.ident "any") (.interface [])
  | slice : Clash (.slice (.ident "byte")) (.slice (.ident "uint8"))
  | array : Clash (.array (.ident "byte")) (.array (.ident "uint8"))

/-- Whether the schemas of two types show, at one place, spellings that are told apart. -/
def ToldApart (type other : TypeExpr) : Prop :=
  ∃ place inner another, ShownAt place type inner ∧ ShownAt place other another ∧
    (Clash inner another ∨ Clash another inner)

section

variable {type other : TypeExpr}

theorem Respelled.is_pointer_eq (respelled : Respelled type other) :
    isPointer type = isPointer other := by
  cases respelled with
  | twins twins => cases twins <;> rfl
  | twins_back twins => cases twins <;> rfl
  | _ => rfl

theorem field_label_of_not_exported {name : String} (hidden : isExported name = false)
    (tag : Option String) : fieldLabel? none (.ident name) tag = none := by
  simp [fieldLabel?, fieldName?, TypeExpr.deref, hidden]

theorem Twins.field_label_eq_none (twins : Twins type other) (tag : Option String) :
    fieldLabel? none type tag = none ∧ fieldLabel? none other tag = none := by
  have hidden {name : String} (small : isExported name = false) :=
    field_label_of_not_exported small tag
  cases twins with
  | byte => exact ⟨hidden (by decide), hidden (by decide)⟩
  | rune => exact ⟨hidden (by decide), hidden (by decide)⟩
  | any => exact ⟨hidden (by decide), rfl⟩

/-- A field has one label in both spellings: an embedded type of two spellings is not exported. -/
theorem Respelled.field_label_eq (respelled : Respelled type other) (name tag : Option String) :
    fieldLabel? name type tag = fieldLabel? name other tag := by
  cases name with
  | some name => rfl
  | none =>
      induction respelled with
      | twins twins =>
          obtain ⟨first, second⟩ := twins.field_label_eq_none tag
          rw [first, second]
      | twins_back twins =>
          obtain ⟨first, second⟩ := twins.field_label_eq_none tag
          rw [first, second]
      | pointer _ ih => exact ih
      | _ => rfl

/-- Two spellings are bytes by name together, unless one is the other name of bytes. -/
theorem Respelled.is_byte_cases (respelled : Respelled type other) :
    isByte type = isByte other ∨ type = .ident "byte" ∧ other = .ident "uint8" ∨
      type = .ident "uint8" ∧ other = .ident "byte" := by
  cases respelled with
  | twins twins =>
      cases twins with
      | byte => exact .inr (.inl ⟨rfl, rfl⟩)
      | rune => exact .inl (by decide)
      | any => exact .inl (by decide)
  | twins_back twins =>
      cases twins with
      | byte => exact .inr (.inr ⟨rfl, rfl⟩)
      | rune => exact .inl (by decide)
      | any => exact .inl (by decide)
  | _ => exact .inl rfl

/-- What tells parts of two types apart tells the types apart. -/
theorem ToldApart.lift {outer outerOther : TypeExpr} (steps : List Schema.Step)
    (first : ∀ {place inner}, ShownAt place type inner → ShownAt (steps ++ place) outer inner)
    (second : ∀ {place inner}, ShownAt place other inner →
      ShownAt (steps ++ place) outerOther inner)
    (apart : ToldApart type other) : ToldApart outer outerOther := by
  obtain ⟨place, inner, another, shown, shownOther, clash⟩ := apart
  exact ⟨steps ++ place, inner, another, first shown, second shownOther, clash⟩

theorem ToldApart.of_clash (clash : Clash type other ∨ Clash other type) : ToldApart type other :=
  ⟨[], type, other, .here, .here, clash⟩

end

section

variable {context : Context}

theorem schema_of_predeclared {name : String} (predeclared : isPredeclaredType name = true) :
    context.schemaOf (.ident name) = primitiveSchema name := by
  simp [Context.schemaOf, Context.namedSchemaOf, Context.identify, predeclared, Ident.predeclared,
    Ident.isPredeclared]

theorem Clash.schema_of_ne {type other : TypeExpr} (clash : Clash type other) :
    context.schemaOf type ≠ context.schemaOf other := by
  intro same
  have kinds := congrArg Schema.kind same
  cases clash with
  | any =>
      rw [schema_of_predeclared (by decide), Context.schemaOf] at kinds
      exact absurd kinds (by decide)
  | slice => simp [Context.schemaOf, isByte, Schema.ofKind, Schema.arrayOf] at kinds
  | array => simp [Context.schemaOf, isByte, Schema.ofKind, Schema.arrayOf] at kinds

theorem ToldApart.schema_of_ne {type other : TypeExpr} (apart : ToldApart type other) :
    context.schemaOf type ≠ context.schemaOf other := by
  obtain ⟨place, inner, another, shown, shownOther, clash⟩ := apart
  intro same
  have stands : (context.schemaOf type).at? place = some (context.schemaOf inner) :=
    at_schema_of shown
  rw [same, at_schema_of shownOther] at stands
  rcases clash with clash | clash
  · exact clash.schema_of_ne (Option.some.inj stands).symm
  · exact clash.schema_of_ne (Option.some.inj stands)

section

variable {pairs : List (FieldOf (TypeExpr × TypeExpr))}

/-- A key is hidden in both spellings of a struct, or its last field is one pair of both. -/
theorem last_shown_pairs
    (labels : ∀ pair ∈ pairs, fieldLabel? pair.name pair.type.1 pair.tag =
      fieldLabel? pair.name pair.type.2 pair.tag) (key : String) :
    (∀ pair ∈ pairs, ¬ ShownAs (pair.map Prod.fst) key ∧ ¬ ShownAs (pair.map Prod.snd) key) ∨
      ∃ pair ∈ pairs, LastShown (pairs.map (·.map Prod.fst)) key (pair.map Prod.fst) ∧
        LastShown (pairs.map (·.map Prod.snd)) key (pair.map Prod.snd) := by
  induction pairs with
  | nil => exact .inl (List.forall_mem_nil _)
  | cons pair rest ih =>
      obtain ⟨label, labels⟩ := List.forall_mem_cons.1 labels
      rcases ih labels with hidden | ⟨last, member, first, second⟩
      · have alike : ShownAs (pair.map Prod.fst) key ↔ ShownAs (pair.map Prod.snd) key := by
          rw [shown_as_iff, shown_as_iff]
          exact exists_congr fun _ => and_congr_left' (label ▸ Iff.rfl)
        by_cases shown : ShownAs (pair.map Prod.fst) key
        · refine .inr ⟨pair, List.mem_cons_self, .here shown ?_, .here (alike.1 shown) ?_⟩
          · exact List.forall_mem_map.2 fun other member => (hidden other member).1
          · exact List.forall_mem_map.2 fun other member => (hidden other member).2
        · exact .inl (List.forall_mem_cons.2 ⟨⟨shown, fun again => shown (alike.2 again)⟩, hidden⟩)
      · exact .inr ⟨last, List.mem_cons_of_mem _ member, .later first, .later second⟩

theorem properties_alike
    (respelled : ∀ pair ∈ pairs, Respelled pair.type.1 pair.type.2) :
    (context.propertiesOf (pairs.map (·.map Prod.fst))).map
        (fun property => (property.key, property.required)) =
      (context.propertiesOf (pairs.map (·.map Prod.snd))).map
        fun property => (property.key, property.required) := by
  induction pairs with
  | nil => rfl
  | cons pair rest ih =>
      obtain ⟨first, later⟩ := List.forall_mem_cons.1 respelled
      rw [List.map_cons, List.map_cons]
      unfold FieldOf.map
      rw [Context.propertiesOf, Context.propertiesOf, first.field_label_eq]
      cases fieldLabel? pair.name pair.type.2 pair.tag with
      | none => exact ih later
      | some label =>
          rw [List.map_cons, List.map_cons, first.is_pointer_eq]
          exact congrArg _ (ih later)

theorem struct_schema_eq {properties others : List Property}
    (alike : properties.map (fun property => (property.key, property.required)) =
      others.map fun property => (property.key, property.required))
    (same : ∀ key, (setAll [] properties).lookup key = (setAll [] others).lookup key) :
    structSchema properties = structSchema others := by
  have keys : properties.map (·.key) = others.map (·.key) := by
    simpa [List.map_map, Function.comp_def] using congrArg (List.map Prod.fst) alike
  have required : (properties.filter (·.required)).map (·.key) =
      (others.filter (·.required)).map (·.key) := by
    have kept := congrArg (fun labels => (labels.filter Prod.snd).map Prod.fst) alike
    simpa [List.filter_map, List.map_map, Function.comp_def] using kept
  have entries : setAll [] properties = setAll [] others := by
    refine eq_of_lookup ?_ (nodup_keys_set_all properties) same
    rw [keys_set_all, keys_set_all, keys]
  unfold structSchema
  rw [required]
  exact congrArg _ (congrArg _ entries)

/-- Two spellings of a struct have one schema if those of each pair that is not told apart are the
same, and no place tells the structs apart. -/
theorem schema_of_struct_eq (respelled : ∀ pair ∈ pairs, Respelled pair.type.1 pair.type.2)
    (same : ∀ pair ∈ pairs, ¬ ToldApart pair.type.1 pair.type.2 →
      context.schemaOf pair.type.1 = context.schemaOf pair.type.2)
    (alike : ¬ ToldApart (.struct (pairs.map (·.map Prod.fst)))
      (.struct (pairs.map (·.map Prod.snd)))) :
    context.schemaOf (.struct (pairs.map (·.map Prod.fst))) =
      context.schemaOf (.struct (pairs.map (·.map Prod.snd))) := by
  rw [Context.schemaOf, Context.schemaOf]
  refine struct_schema_eq (properties_alike respelled) fun key => ?_
  rcases last_shown_pairs (fun pair member => (respelled pair member).field_label_eq _ _) key with
    hidden | ⟨pair, member, first, second⟩
  · rw [lookup_of_hidden context (List.forall_mem_map.2 fun pair member => (hidden pair member).1),
      lookup_of_hidden context (List.forall_mem_map.2 fun pair member => (hidden pair member).2)]
  · rw [lookup_of_last_shown context first, lookup_of_last_shown context second]
    refine congrArg some (same pair member fun apart => alike ?_)
    exact apart.lift [.property key] (.field first) (.field second)

theorem schema_of_elements_eq {element other : TypeExpr} (bytes : isByte element = isByte other)
    (same : isByte element = false → context.schemaOf element = context.schemaOf other) :
    (if isByte element then Schema.ofKind "string" else .arrayOf (context.schemaOf element)) =
      if isByte other then Schema.ofKind "string" else .arrayOf (context.schemaOf other) := by
  rw [← bytes]
  split
  · rfl
  · rename_i entered
    rw [same (by simpa using entered)]

theorem Twins.schema_of_eq {type other : TypeExpr} (twins : Twins type other)
    (alike : ¬ Clash type other) : context.schemaOf type = context.schemaOf other := by
  cases twins with
  | byte =>
      rw [schema_of_predeclared (by decide), schema_of_predeclared (by decide)]
      rfl
  | rune =>
      rw [schema_of_predeclared (by decide), schema_of_predeclared (by decide)]
      rfl
  | any => exact absurd .any alike

end

/-- The spellings of a type have one schema exactly if no place tells them apart. -/
theorem Respelled.schema_of_eq_iff {type other : TypeExpr} (respelled : Respelled type other) :
    context.schemaOf type = context.schemaOf other ↔ ¬ ToldApart type other := by
  constructor
  · exact fun same apart => apart.schema_of_ne same
  · intro alike
    induction respelled with
    | twins twins => exact twins.schema_of_eq fun clash => alike (.of_clash (.inl clash))
    | twins_back twins =>
        exact (twins.schema_of_eq fun clash => alike (.of_clash (.inr clash))).symm
    | pointer _ ih =>
        rw [Context.schemaOf, Context.schemaOf]
        exact ih fun apart => alike (apart.lift [] .pointer .pointer)
    | slice respelled ih =>
        rcases respelled.is_byte_cases with bytes | ⟨rfl, rfl⟩ | ⟨rfl, rfl⟩
        · rw [Context.schemaOf, Context.schemaOf]
          apply schema_of_elements_eq bytes
          intro entered
          exact ih fun apart =>
            alike (apart.lift [.items] (.slice entered) (.slice (bytes ▸ entered)))
        · exact absurd (.of_clash (.inl .slice)) alike
        · exact absurd (.of_clash (.inr .slice)) alike
    | array respelled ih =>
        rcases respelled.is_byte_cases with bytes | ⟨rfl, rfl⟩ | ⟨rfl, rfl⟩
        · rw [Context.schemaOf, Context.schemaOf]
          apply schema_of_elements_eq bytes
          intro entered
          exact ih fun apart =>
            alike (apart.lift [.items] (.array entered) (.array (bytes ▸ entered)))
        · exact absurd (.of_clash (.inl .array)) alike
        · exact absurd (.of_clash (.inr .array)) alike
    | struct respelled ih => exact schema_of_struct_eq respelled ih alike
    | ident => rfl
    | qualified => rfl
    | map => rw [Context.schemaOf, Context.schemaOf]
    | interface => rw [Context.schemaOf, Context.schemaOf]
    | other => rfl

end

namespace Assembly

variable {project : Project} {register : Declaration → Assemble Unit} {context : Context}

theorem schema_for_predeclared {name : String} (predeclared : isPredeclaredType name = true) :
    schemaFor project register context (.ident name) = pure (primitiveSchema name) := by
  unfold schemaFor namedSchema
  rw [Context.identify, if_pos predeclared]
  rfl

/-- Slices and arrays take the course of their elements; bytes by name take none. -/
theorem elements_same_course (element : TypeExpr) :
    SameCourse (if isByte element then pure (.ofKind "string")
      else Schema.arrayOf <$> schemaFor project register context element)
      (schemaFor project register context element) := by
  split
  · rename_i bytes
    rw [is_byte_iff.1 bytes, schema_for_predeclared (by decide)]
    exact SameCourse.pure _ _
  · rw [← bind_pure_comp]
    conv => rhs; rw [← bind_pure (schemaFor project register context element)]
    exact SameCourse.bind (SameCourse.refl _) fun _ _ => SameCourse.pure _ _

theorem twins_same_course {type other : TypeExpr} (twins : Twins type other) :
    SameCourse (schemaFor project register context type)
      (schemaFor project register context other) := by
  cases twins with
  | byte =>
      rw [schema_for_predeclared (by decide), schema_for_predeclared (by decide)]
      exact SameCourse.pure _ _
  | rune =>
      rw [schema_for_predeclared (by decide), schema_for_predeclared (by decide)]
      exact SameCourse.pure _ _
  | any =>
      rw [schema_for_predeclared (by decide)]
      unfold schemaFor
      exact SameCourse.pure _ _

theorem properties_for_same_course {pairs : List (FieldOf (TypeExpr × TypeExpr))}
    (respelled : ∀ pair ∈ pairs, Respelled pair.type.1 pair.type.2)
    (same : ∀ pair ∈ pairs, SameCourse (schemaFor project register context pair.type.1)
      (schemaFor project register context pair.type.2)) :
    SameCourse (propertiesFor project register context (pairs.map (·.map Prod.fst)))
      (propertiesFor project register context (pairs.map (·.map Prod.snd))) := by
  induction pairs with
  | nil => exact SameCourse.refl _
  | cons pair rest ih =>
      obtain ⟨spelled, respelled⟩ := List.forall_mem_cons.1 respelled
      obtain ⟨first, same⟩ := List.forall_mem_cons.1 same
      rw [List.map_cons, List.map_cons]
      unfold FieldOf.map
      rw [propertiesFor, propertiesFor, spelled.field_label_eq]
      cases fieldLabel? pair.name pair.type.2 pair.tag with
      | none => exact ih respelled same
      | some label =>
          apply SameCourse.bind first
          intro _ _
          apply SameCourse.bind (ih respelled same)
          exact fun _ _ => SameCourse.pure _ _

theorem schema_for_same_course {type other : TypeExpr} (respelled : Respelled type other) :
    SameCourse (schemaFor project register context type)
      (schemaFor project register context other) := by
  induction respelled with
  | twins twins => exact twins_same_course twins
  | twins_back twins => exact (twins_same_course twins).symm
  | pointer _ ih =>
      rw [schemaFor, schemaFor]
      exact ih
  | @slice element other _ ih =>
      rw [schemaFor, schemaFor]
      exact (elements_same_course element).trans (ih.trans (elements_same_course other).symm)
  | @array element other _ ih =>
      rw [schemaFor, schemaFor]
      exact (elements_same_course element).trans (ih.trans (elements_same_course other).symm)
  | struct respelled ih =>
      rw [schemaFor, schemaFor]
      exact SameCourse.map (properties_for_same_course respelled ih)
  | map =>
      rw [schemaFor, schemaFor]
      exact SameCourse.pure _ _
  | interface =>
      rw [schemaFor, schemaFor]
      exact SameCourse.pure _ _
  | ident => exact SameCourse.refl _
  | qualified => exact SameCourse.refl _
  | other => exact SameCourse.refl _

/-- Runs on two spellings of a type fail alike or end in one state. They are the same exactly if no
place tells the spellings apart or they fail. -/
theorem schema_for_respelled {type other : TypeExpr} (respelled : Respelled type other)
    (state : Assembly) :
    courseOf (schemaFor project register context type state) =
        courseOf (schemaFor project register context other state) ∧
      (schemaFor project register context type state =
          schemaFor project register context other state ↔
        (ToldApart type other →
          ∃ failure after, schemaFor project register context type state =
            .error failure after)) := by
  have course : courseOf (schemaFor project register context type state) =
      courseOf (schemaFor project register context other state) :=
    schema_for_same_course respelled state
  refine ⟨course, ?_⟩
  cases ran : schemaFor project register context type state with
  | error failure after =>
      cases ranOther : schemaFor project register context other state with
      | error another last =>
          rw [ran, ranOther] at course
          cases course
          exact ⟨fun _ _ => ⟨_, _, rfl⟩, fun _ => rfl⟩
      | ok schema last =>
          rw [ran, ranOther] at course
          cases course
  | ok schema after =>
      cases ranOther : schemaFor project register context other state with
      | error failure last =>
          rw [ran, ranOther] at course
          cases course
      | ok another last =>
          rw [ran, ranOther] at course
          obtain rfl : after = last := (Prod.mk.inj course).2
          obtain rfl := (schema_for_yields type state).of_ok ran
          obtain rfl := (schema_for_yields other state).of_ok ranOther
          simp [respelled.schema_of_eq_iff]

def framePairs : List (FieldOf (TypeExpr × TypeExpr)) :=
  [⟨some "Sign", (.pointer (.ident "rune"), .pointer (.ident "int32")), none⟩,
    ⟨some "Body", (.slice (.ident "byte"), .slice (.ident "uint8")), some "json:\"body\""⟩]

/-- The slices are told apart, so the two runs end in one state with different schemas. -/
theorem respelled_frame :
    courseOf (schemaFor bareProject (registerType bareProject 0) bareContext
        (.struct (framePairs.map (·.map Prod.fst))) .initial) =
      courseOf (schemaFor bareProject (registerType bareProject 0) bareContext
        (.struct (framePairs.map (·.map Prod.snd))) .initial) ∧
      schemaFor bareProject (registerType bareProject 0) bareContext
          (.struct (framePairs.map (·.map Prod.fst))) .initial ≠
        schemaFor bareProject (registerType bareProject 0) bareContext
          (.struct (framePairs.map (·.map Prod.snd))) .initial := by
  have spelled : ∀ pair ∈ framePairs, Respelled pair.type.1 pair.type.2 :=
    List.forall_mem_cons.2 ⟨.pointer (.twins .rune),
      List.forall_mem_singleton.2 (.slice (.twins .byte))⟩
  obtain ⟨course, same⟩ := schema_for_respelled (.struct spelled) .initial
  refine ⟨course, fun equal => ?_⟩
  have apart : ToldApart (.struct (framePairs.map (·.map Prod.fst)))
      (.struct (framePairs.map (·.map Prod.snd))) := by
    have first : LastShown (framePairs.map (·.map Prod.fst)) "body"
        ⟨some "Body", .slice (.ident "byte"), some "json:\"body\""⟩ :=
      .later (.here (by decide +kernel) (List.forall_mem_nil _))
    have second : LastShown (framePairs.map (·.map Prod.snd)) "body"
        ⟨some "Body", .slice (.ident "uint8"), some "json:\"body\""⟩ :=
      .later (.here (by decide +kernel) (List.forall_mem_nil _))
    exact (ToldApart.of_clash (.inl .slice)).lift [.property "body"] (.field first) (.field second)
  have ended : ((schemaFor bareProject (registerType bareProject 0) bareContext
      (.struct (framePairs.map (·.map Prod.fst)))).run' .initial).map (·.kind) =
        some (some "object") := by decide +kernel
  obtain ⟨schema, after, ran, -⟩ := exists_ok_of_run' ended
  obtain ⟨failure, last, failed⟩ := same.1 equal apart
  cases ran.symm.trans failed

/-- Bytes by either name in a slice, and `any` by either spelling, have different schemas. -/
theorem schema_for_ne_respelled :
    Respelled (.slice (.ident "byte")) (.slice (.ident "uint8")) ∧
      (schemaFor bareProject (registerType bareProject 0) bareContext
          (.slice (.ident "byte"))).run' .initial ≠
        (schemaFor bareProject (registerType bareProject 0) bareContext
          (.slice (.ident "uint8"))).run' .initial ∧
      Respelled (.ident "any") (.interface []) ∧
      (schemaFor bareProject (registerType bareProject 0) bareContext
          (.ident "any")).run' .initial ≠
        (schemaFor bareProject (registerType bareProject 0) bareContext
          (.interface [])).run' .initial := by
  refine ⟨.slice (.twins .byte), fun same => ?_, .twins .any, fun same => ?_⟩
  · exact absurd (congrArg (·.map (·.kind)) same) (by decide +kernel)
  · exact absurd (congrArg (·.map (·.kind)) same) (by decide +kernel)

end Assembly

end EndpointAtlas
