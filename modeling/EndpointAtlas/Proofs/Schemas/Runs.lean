import EndpointAtlas.Proofs.Registration.References
import EndpointAtlas.Proofs.Schemas.Fields
import EndpointAtlas.Proofs.Steps

/-!
What a run that makes a schema ends with. Whatever has been looked up and registered before, and
however types are registered on the way, a run that ends gives the one schema that the type has
where it stands.
-/

namespace EndpointAtlas

open Go

/-- Induction on a type in which a struct has the hypothesis for the types of its fields. -/
theorem Go.TypeExpr.by_fields {motive : TypeExpr → Prop} (ident : ∀ name, motive (.ident name))
    (qualified : ∀ package name, motive (.qualified package name))
    (pointer : ∀ target, motive target → motive (.pointer target))
    (slice : ∀ element, motive element → motive (.slice element))
    (array : ∀ element, motive element → motive (.array element))
    (map : ∀ key value, motive key → motive value → motive (.map key value))
    (struct : ∀ fields, (∀ field ∈ fields, motive field.type) → motive (.struct fields))
    (interface : ∀ elements, motive (.interface elements))
    (other : ∀ text, motive (.other text)) (type : TypeExpr) : motive type := by
  -- The elements of an interface have no motive: no schema enters them.
  refine TypeExpr.rec (motive_1 := motive)
    (motive_2 := fun fields => ∀ field ∈ fields, motive field.type) (motive_3 := fun _ => True)
    (motive_4 := fun field => motive field.type) (motive_5 := fun _ => True)
    (motive_6 := fun _ => True) (motive_7 := fun _ => True) (motive_8 := fun _ => True)
    ident qualified pointer slice array map struct (fun elements _ => interface elements) other
    (List.forall_mem_nil _) (fun field rest first later => ?_) trivial (fun _ _ _ _ => trivial)
    (fun _ _ _ held => held) (fun _ _ => trivial) (fun _ _ => trivial) (fun _ _ _ _ => trivial)
    trivial (fun _ _ _ _ => trivial) (fun _ _ _ => trivial) type
  exact List.forall_mem_cons.2 ⟨first, later⟩

namespace Assembly

variable {project : Project} {register : Declaration → Assemble Unit} {context : Context}

/-- Whether a run on a type can end, and ends with the schema whenever it does. -/
structure GivesSchema (project : Project) (register : Declaration → Assemble Unit)
    (context : Context) (type : TypeExpr) (schema : Schema) : Prop where
  given : ∃ before after, schemaFor project register context type before = .ok schema after
  only : ∀ before other after,
    schemaFor project register context type before = .ok other after → other = schema

theorem named_schema_yields (named : TypeExpr) (state : Assembly) :
    Yields (namedSchema project register context named) state
      (fun schema _ => schema = context.namedSchemaOf named ∧
        ∃ ident, context.identify named = .ok ident) fun _ _ => True := by
  unfold namedSchema Context.namedSchemaOf
  cases context.identify named with
  | error failure => exact Yields.throw trivial
  | ok ident =>
      apply Yields.bind_pure
      dsimp only
      split
      · exact Yields.pure ⟨rfl, ident, rfl⟩
      · apply Yields.bind (Yields.run _ state)
        intro lookup after _
        cases lookup with
        | found declaration =>
            dsimp only
            split
            · exact Yields.pure ⟨rfl, ident, rfl⟩
            · apply Yields.bind (Yields.run _ after)
              exact fun _ _ _ => Yields.pure ⟨rfl, ident, rfl⟩
        | missing => exact Yields.throw trivial
        | external => exact Yields.bind_modify (Yields.pure ⟨rfl, ident, rfl⟩)

theorem elements_yields {step : Assemble Schema} (element : TypeExpr) {schema : Schema}
    {state : Assembly}
    (yields : Yields step state (fun given _ => given = schema) fun _ _ => True) :
    Yields (if isByte element then pure (.ofKind "string") else Schema.arrayOf <$> step) state
      (fun given _ => given = if isByte element then .ofKind "string" else .arrayOf schema)
      fun _ _ => True := by
  split
  · exact Yields.pure rfl
  · exact Yields.map yields fun _ _ same => congrArg Schema.arrayOf same

theorem properties_for_yields {fields : List Field}
    (each : ∀ field ∈ fields, ∀ state, Yields (schemaFor project register context field.type) state
      (fun schema _ => schema = context.schemaOf field.type) fun _ _ => True)
    (state : Assembly) : Yields (propertiesFor project register context fields) state
      (fun properties _ => properties = context.propertiesOf fields) fun _ _ => True := by
  induction fields generalizing state with
  | nil =>
      unfold propertiesFor Context.propertiesOf
      exact Yields.pure rfl
  | cons field rest ih =>
      obtain ⟨name, type, tag⟩ := field
      obtain ⟨first, later⟩ := List.forall_mem_cons.1 each
      unfold propertiesFor Context.propertiesOf
      cases fieldLabel? name type tag with
      | none => exact ih later state
      | some label =>
          apply Yields.bind (first state)
          rintro _ between rfl
          apply Yields.bind (ih later between)
          rintro _ after rfl
          exact Yields.pure rfl

theorem schema_for_yields (type : TypeExpr) (state : Assembly) :
    Yields (schemaFor project register context type) state
      (fun schema _ => schema = context.schemaOf type) fun _ _ => True := by
  induction type using TypeExpr.by_fields generalizing state with
  | ident name =>
      unfold schemaFor Context.schemaOf
      exact (named_schema_yields _ state).mono (fun _ _ named => named.1) fun _ _ failed => failed
  | qualified package name =>
      unfold schemaFor Context.schemaOf
      exact (named_schema_yields _ state).mono (fun _ _ named => named.1) fun _ _ failed => failed
  | pointer target ih =>
      unfold schemaFor Context.schemaOf
      exact ih state
  | slice element ih =>
      unfold schemaFor Context.schemaOf
      exact elements_yields element (ih state)
  | array element ih =>
      unfold schemaFor Context.schemaOf
      exact elements_yields element (ih state)
  | map key value =>
      unfold schemaFor Context.schemaOf
      exact Yields.pure rfl
  | struct fields ih =>
      unfold schemaFor Context.schemaOf
      exact Yields.map (properties_for_yields ih state) fun _ _ same => congrArg structSchema same
  | interface elements =>
      unfold schemaFor Context.schemaOf
      exact Yields.pure rfl
  | other text =>
      unfold schemaFor Context.schemaOf
      exact Yields.pure rfl

theorem gives_schema_of_ran {type : TypeExpr} {before after : Assembly} {schema : Schema}
    (ran : schemaFor project register context type before = .ok schema after) :
    GivesSchema project register context type (context.schemaOf type) where
  given := by
    obtain rfl := (schema_for_yields type before).of_ok ran
    exact ⟨before, after, ran⟩
  only := fun state _ _ again => (schema_for_yields type state).of_ok again

def GivesShown (project : Project) (register : Declaration → Assemble Unit) (context : Context)
    (fields : List Field) : Prop :=
  ∀ field ∈ fields, ∀ key, ShownAs field key →
    GivesSchema project register context field.type (context.schemaOf field.type)

theorem properties_for_gives (fields : List Field) (state : Assembly) :
    Yields (propertiesFor project register context fields) state
      (fun _ _ => GivesShown project register context fields) fun _ _ => True := by
  induction fields generalizing state with
  | nil =>
      unfold propertiesFor
      exact Yields.pure (List.forall_mem_nil _)
  | cons field rest ih =>
      obtain ⟨name, type, tag⟩ := field
      unfold propertiesFor GivesShown
      simp only [List.forall_mem_cons]
      cases labelled : fieldLabel? name type tag with
      | none =>
          apply (ih state).mono
          · intro _ _ later
            refine ⟨fun key shown => ?_, later⟩
            obtain ⟨label, same, -⟩ := shown_as_iff.1 shown
            cases labelled.symm.trans same
          · exact fun _ _ failed => failed
      | some label =>
          apply Yields.bind (Yields.run _ state)
          intro schema between ran
          apply Yields.bind (ih between)
          intro others after later
          exact Yields.pure ⟨fun _ _ => gives_schema_of_ran ran, later⟩

/-- The schema of a struct is made of those of its fields that are shown, each by a run. -/
theorem struct_of_ran {fields : List Field} {before after : Assembly} {schema : Schema}
    (ran : schemaFor project register context (.struct fields) before = .ok schema after) :
    schema = structSchema (context.propertiesOf fields) ∧
      GivesShown project register context fields := by
  have gives : Yields (structSchema <$> propertiesFor project register context fields) before
      (fun _ _ => GivesShown project register context fields) fun _ _ => True :=
    Yields.map (properties_for_gives fields before) fun _ _ shown => shown
  have same := (schema_for_yields _ before).of_ok ran
  unfold schemaFor at ran
  unfold Context.schemaOf at same
  exact ⟨same, gives.of_ok ran⟩

end Assembly

end EndpointAtlas
