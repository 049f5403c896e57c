import EndpointAtlas.Proofs.Document.Decode
import EndpointAtlas.Proofs.Json.BoundedReader
import EndpointAtlas.Proofs.Json.Layouts
import EndpointAtlas.Proofs.Registration.Reachable

/-!
A document comes back from both of its texts, the one for readers and the one for generators, if no
schema shows a property twice; and no schema of an analysis does.
-/

namespace EndpointAtlas

section

variable {schema : Schema}

theorem Schema.DistinctProperties.of_bare (noItems : schema.items = none)
    (noProperties : schema.properties = none) : schema.DistinctProperties :=
  .intro (fun _ same => by simp [noItems] at same) (fun _ same => by simp [noProperties] at same)
    fun _ same => by simp [noProperties] at same

theorem distinct_properties_primitive_schema (name : String) :
    (primitiveSchema name).DistinctProperties := by
  unfold primitiveSchema
  repeat' split
  all_goals exact .of_bare rfl rfl

theorem distinct_properties_array_of (distinct : schema.DistinctProperties) :
    (Schema.arrayOf schema).DistinctProperties :=
  .intro (fun _ same => Option.some.inj same ▸ distinct) (fun _ => nofun) fun _ => nofun

theorem distinct_properties_struct_schema {properties : List Property}
    (distinct : ∀ property ∈ properties, property.schema.DistinctProperties) :
    (structSchema properties).DistinctProperties := by
  refine .intro (fun _ => nofun) (fun _ shown => (properties_struct_schema shown).1)
    fun _ shown entry member => ?_
  obtain ⟨property, listed, same⟩ := (properties_struct_schema shown).2 entry member
  exact same ▸ distinct property listed

end

section

variable (context : Context)

theorem distinct_properties_named_schema_of (named : Go.TypeExpr) :
    (context.namedSchemaOf named).DistinctProperties := by
  unfold Context.namedSchemaOf
  split
  · split
    · exact distinct_properties_primitive_schema _
    · exact .of_bare rfl rfl
  · exact .of_bare rfl rfl

mutual

theorem distinct_properties_schema_of (type : Go.TypeExpr) :
    (context.schemaOf type).DistinctProperties := by
  cases type with
  | struct fields =>
      exact distinct_properties_struct_schema (distinct_properties_properties_of fields)
  | pointer target => exact distinct_properties_schema_of target
  | slice element =>
      unfold Context.schemaOf
      split
      · exact .of_bare rfl rfl
      · exact distinct_properties_array_of (distinct_properties_schema_of element)
  | array element =>
      unfold Context.schemaOf
      split
      · exact .of_bare rfl rfl
      · exact distinct_properties_array_of (distinct_properties_schema_of element)
  | map key value => exact .of_bare rfl rfl
  | interface elements => exact .of_bare rfl rfl
  | other text => exact .of_bare rfl rfl
  | ident name => exact distinct_properties_named_schema_of context _
  | qualified package name => exact distinct_properties_named_schema_of context _

theorem distinct_properties_properties_of (fields : List Go.Field) :
    ∀ property ∈ context.propertiesOf fields, property.schema.DistinctProperties := by
  cases fields with
  | nil =>
      intro property member
      unfold Context.propertiesOf at member
      cases member
  | cons field rest =>
      obtain ⟨name, type, tag⟩ := field
      intro property member
      unfold Context.propertiesOf at member
      split at member
      · exact distinct_properties_properties_of rest property member
      · rcases List.mem_cons.1 member with rfl | later
        · exact distinct_properties_schema_of type
        · exact distinct_properties_properties_of rest property later

end

end

/-- In a document of an analysis no schema shows a property twice. -/
theorem distinct_properties_of_analyze {tree : Tree} {options : AnalysisOptions}
    {document : Document} (succeeds : (analyze tree options).1 = .ok document) :
    document.DistinctProperties := by
  obtain ⟨files, after, -, complete, rfl⟩ := completes_of_analyze succeeds
  intro type member schema has
  obtain ⟨key, held⟩ := Table.mem_values_iff.1 member
  rw [Document.withAliases, Table.get_map_values, Option.map_eq_some_iff] at held
  obtain ⟨entry, registered, rfl⟩ := held
  obtain ⟨declaration, -, -, rfl⟩ := complete.types_iff.1 registered
  rw [schema_with_alias] at has
  obtain rfl := Option.some.inj has
  exact distinct_properties_schema_of _ _

/-- The document that a reader of JSON texts makes of a text. -/
def Json.Reader.document? (reader : Json.Reader) (text : String) : Option Document :=
  (reader.read? text).bind fun json => (Document.ofJson json).toOption

/-- A text gives back a document to every reader that goes down as far as the document nests. -/
def Document.ReadFrom (document : Document) (text : String) : Prop :=
  ∀ reader : Json.Reader, document.toJson.depth ≤ reader.limit →
    reader.document? text = some document

theorem document_of_spelled {document : Document} (distinct : document.DistinctProperties)
    {text : String} (spelled : document.toJson.SpelledBy text) : document.ReadFrom text := by
  intro reader within
  rw [Json.Reader.document?, reader.reads spelled within]
  exact congrArg Except.toOption (Document.of_json_to_json distinct)

end EndpointAtlas
