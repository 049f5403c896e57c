import EndpointAtlas.Document.Decode
import EndpointAtlas.Document.Encode

/-!
The value that a document is written as decodes to the document. A field that is left out is given
back by what stands for its absence, so an absent schema and an empty one stay apart. Properties
come back in their order if no schema shows one twice: a second one takes the place of the first.
-/

namespace EndpointAtlas

namespace Decoded

@[simp] theorem ok_bind (value : α) (next : α → Decoded β) :
    (Except.ok value : Decoded α) >>= next = next value := rfl

@[simp] theorem map_ok (change : α → β) (value : α) :
    change <$> (Except.ok value : Decoded α) = .ok (change value) := rfl

@[simp] theorem discard_ok (value : α) : discard (Except.ok value : Decoded α) = .ok () := rfl

@[simp] theorem pure_eq (value : α) : (pure value : Decoded α) = .ok value := rfl

end Decoded

@[simp] theorem decode_text_text (text : String) : decodeText (.text text) = .ok text := rfl

@[simp] theorem decode_optional_text (text : String) :
    decodeOptional decodeText (.text text) = .ok (some text) := rfl

section

variable {decode : Json → Decoded α} {encode : α → Json}

theorem decode_list_map {values : List α}
    (reads : ∀ value ∈ values, decode (encode value) = .ok value) :
    decodeList decode (.list (values.map encode)) = .ok values := by
  show (values.map encode).mapM decode = .ok values
  induction values with
  | nil => rfl
  | cons head rest ih =>
      have others := ih fun value member => reads value (List.mem_cons_of_mem _ member)
      rw [List.map_cons, List.mapM_cons, reads head List.mem_cons_self, others]
      rfl

theorem decode_table_table_json {table : Table α}
    (reads : ∀ value ∈ table.values, decode (encode value) = .ok value) :
    decodeTable decode (tableJson encode table) = .ok table := by
  have within : ∀ entries : List (String × α),
      (∀ entry ∈ entries, decode (encode entry.2) = .ok entry.2) →
        ((entries.map fun entry => (entry.1, encode entry.2)).mapM fun entry =>
          (entry.1, ·) <$> decode entry.2) = Except.ok entries := by
    intro entries
    induction entries with
    | nil => exact fun _ => rfl
    | cons head rest ih =>
        intro reads
        have others := ih fun entry member => reads entry (List.mem_cons_of_mem _ member)
        rw [List.map_cons, List.mapM_cons, others, reads head List.mem_cons_self]
        rfl
  have read := within table.entries fun entry member => reads entry.2 (List.mem_map_of_mem member)
  exact (congrArg (· >>= fun entries => pure (Table.ofList entries)) read).trans
    (congrArg Except.ok table.of_list_entries)

end

@[simp] theorem decode_list_texts (texts : List String) :
    decodeList decodeText (.list (texts.map Json.text)) = .ok texts :=
  decode_list_map fun _ _ => rfl

inductive Schema.DistinctProperties : Schema → Prop where
  | intro {schema : Schema}
      (items : ∀ inner, schema.items = some inner → inner.DistinctProperties)
      (distinct : ∀ entries, schema.properties = some entries → (entries.map Prod.fst).Nodup)
      (properties : ∀ entries, schema.properties = some entries → ∀ entry ∈ entries,
        entry.2.DistinctProperties) : schema.DistinctProperties

theorem properties_of_members_properties_json {entries : List (String × Schema)}
    (reads : ∀ entry ∈ entries, Schema.ofJson entry.2.toJson = .ok entry.2)
    (before : List (String × Schema)) (distinct : ((before ++ entries).map Prod.fst).Nodup) :
    propertiesOfMembers before (propertiesJson entries) = .ok (before ++ entries) := by
  induction entries generalizing before with
  | nil => simp [propertiesJson, propertiesOfMembers]
  | cons head rest ih =>
      obtain ⟨key, schema⟩ := head
      have first := reads (key, schema) List.mem_cons_self
      have fresh : key ∉ before.map Prod.fst := by
        rw [List.map_append, List.nodup_append] at distinct
        exact fun member => distinct.2.2 key member key List.mem_cons_self rfl
      have others := ih (fun entry member => reads entry (List.mem_cons_of_mem _ member))
        (before ++ [(key, schema)]) (by simpa using distinct)
      simp [propertiesJson, propertiesOfMembers, first, set_property_of_not_mem fresh, others]

@[simp] theorem Schema.to_json_ne_null (schema : Schema) : schema.toJson ≠ .null := by
  obtain ⟨reference, kind, - | items, required, - | entries⟩ := schema <;> simp [Schema.toJson]

theorem Schema.of_json_to_json {schema : Schema} (distinct : schema.DistinctProperties) :
    Schema.ofJson schema.toJson = .ok schema := by
  induction distinct with
  | @intro schema _ distinct _ readItems readProperties =>
      obtain ⟨reference, kind, items, required, properties⟩ := schema
      have propertiesRead : ∀ entries, properties = some entries →
          propertiesOfMembers [] (propertiesJson entries) = .ok entries := fun entries same =>
        properties_of_members_properties_json (readProperties entries same) []
          (distinct entries same)
      -- One case for every choice of the fields that are left out.
      rcases reference with - | reference <;> rcases kind with - | kind <;>
        rcases items with - | items <;> by_cases bare : required = [] <;>
        rcases properties with - | entries <;>
        simp [Schema.toJson, optionalMember, nonemptyMember, bare, Schema.ofJson, schemaOfMembers,
          unrepeated, propertiesOfJson, Schema.unspecified, readItems, propertiesRead]

section

-- The tests and look-ups of a structure run on its members.
attribute [local simp] decodeMembers checkMembers requiredField optionalField unrepeated member
  memberOr List.lookup_cons optionalMember nonemptyMember

@[simp] theorem ParamSource.of_json_name (source : ParamSource) :
    ParamSource.ofJson (.text source.name) = .ok source := by
  cases source <;> rfl

theorem Parameter.of_json_to_json (param : Parameter) :
    Parameter.ofJson param.toJson = .ok param := by
  obtain ⟨source, type, name, metadata⟩ := param
  cases metadata <;> simp [Parameter.toJson, Parameter.ofJson]

@[simp] theorem decode_list_params (params : List Parameter) :
    decodeList Parameter.ofJson (.list (params.map Parameter.toJson)) = .ok params :=
  decode_list_map fun param _ => param.of_json_to_json

@[simp] theorem Annotations.of_json_to_json (annotations : Annotations) :
    Annotations.ofJson annotations.toJson = .ok annotations :=
  congrArg (Annotations.mk <$> ·) (decode_table_table_json fun texts _ => decode_list_texts texts)

theorem Response.of_json_to_json (response : Response) :
    Response.ofJson response.toJson = .ok response := by
  simp [Response.toJson, Response.ofJson]

@[simp] theorem decode_list_responses (responses : List Response) :
    decodeList Response.ofJson (.list (responses.map Response.toJson)) = .ok responses :=
  decode_list_map fun response _ => response.of_json_to_json

theorem Responder.of_json_to_json (responder : Responder) :
    Responder.ofJson responder.toJson = .ok responder := by
  obtain ⟨name, responses⟩ := responder
  by_cases bare : responses = [] <;> simp [Responder.toJson, bare, Responder.ofJson]

theorem Resource.of_json_to_json (resource : Resource) :
    Resource.ofJson resource.toJson = .ok resource := by
  obtain ⟨package, file, name, method, path, params, summary, details, tags⟩ := resource
  cases summary <;> cases details <;> by_cases bare : tags = [] <;>
    simp [Resource.toJson, bare, Resource.ofJson]

@[simp] theorem decode_table_resources (resources : Table Resource) :
    decodeTable Resource.ofJson (tableJson Resource.toJson resources) = .ok resources :=
  decode_table_table_json fun resource _ => resource.of_json_to_json

theorem Controller.of_json_to_json (controller : Controller) :
    Controller.ofJson controller.toJson = .ok controller := by
  simp [Controller.toJson, Controller.ofJson]

theorem decode_optional_to_json {schema : Schema} (distinct : schema.DistinctProperties) :
    decodeOptional Schema.ofJson schema.toJson = .ok (some schema) := by
  have present := schema.to_json_ne_null
  unfold decodeOptional
  split
  · contradiction
  · rw [Schema.of_json_to_json distinct]
    rfl

theorem TypeSchema.of_json_to_json {type : TypeSchema}
    (distinct : ∀ schema, type.schema = some schema → schema.DistinctProperties) :
    TypeSchema.ofJson type.toJson = .ok type := by
  obtain ⟨name, aliasName, schema⟩ := type
  cases schema with
  | none => simp [TypeSchema.toJson, TypeSchema.ofJson]
  | some schema =>
      simp [TypeSchema.toJson, TypeSchema.ofJson, decode_optional_to_json (distinct schema rfl)]

/-- No schema of a type shows a property twice. -/
def Document.DistinctProperties (document : Document) : Prop :=
  ∀ type ∈ document.types.values, ∀ schema, type.schema = some schema → schema.DistinctProperties

theorem Document.of_json_to_json {document : Document} (distinct : document.DistinctProperties) :
    Document.ofJson document.toJson = .ok document := by
  have types : decodeTable TypeSchema.ofJson (tableJson TypeSchema.toJson document.types) =
      .ok document.types := decode_table_table_json fun type member =>
    TypeSchema.of_json_to_json (distinct type member)
  have responders : decodeTable Responder.ofJson (tableJson Responder.toJson document.responders) =
      .ok document.responders :=
        decode_table_table_json fun responder _ => responder.of_json_to_json
  have controllers : decodeTable Controller.ofJson
      (tableJson Controller.toJson document.controllers) = .ok document.controllers :=
    decode_table_table_json fun controller _ => controller.of_json_to_json
  simp [Document.toJson, Document.ofJson, textsJson, types, responders, controllers]

end

end EndpointAtlas
