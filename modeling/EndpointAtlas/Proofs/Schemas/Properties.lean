import Mathlib.Data.List.Induction
import EndpointAtlas.Proofs.Schemas.Fields
import EndpointAtlas.Proofs.Schemas.Runs

/-!
The properties of the schema of a struct. They stand in the order in which their keys first occur
among the fields that are shown, and each has the schema of the last field with its key.
-/

namespace EndpointAtlas

open Go

def setAll (entries : List (String × Schema)) (properties : List Property) :
    List (String × Schema) :=
  properties.foldl (fun entries property => setProperty property.key property.schema entries)
    entries

theorem lookup_cons (key held : String) (kept : Schema) (rest : List (String × Schema)) :
    ((held, kept) :: rest).lookup key = if key = held then some kept else rest.lookup key := by
  rw [List.lookup_cons]
  by_cases same : key = held
  · simp [same]
  · simp [same, beq_eq_false_iff_ne.2 same]

theorem lookup_set_property (key other : String) (schema : Schema)
    (entries : List (String × Schema)) : (setProperty key schema entries).lookup other =
      if other = key then some schema else entries.lookup other := by
  induction entries with
  | nil => exact lookup_cons other key schema []
  | cons head rest ih =>
      obtain ⟨held, kept⟩ := head
      unfold setProperty
      by_cases found : held = key
      · rw [if_pos found, lookup_cons, lookup_cons, found]
        by_cases same : other = key <;> simp [same]
      · rw [if_neg found, lookup_cons, lookup_cons, ih]
        by_cases same : other = held <;> simp [same, found]

theorem lookup_of_not_mem {key : String} {entries : List (String × Schema)}
    (fresh : key ∉ entries.map Prod.fst) : entries.lookup key = none := by
  rw [List.lookup_eq_none_iff]
  intro entry member
  rw [bne_iff_ne]
  rintro rfl
  exact fresh (List.mem_map_of_mem member)

theorem eq_of_lookup {first second : List (String × Schema)}
    (keys : first.map Prod.fst = second.map Prod.fst) (distinct : (first.map Prod.fst).Nodup)
    (same : ∀ key, first.lookup key = second.lookup key) : first = second := by
  induction first generalizing second with
  | nil => exact (List.map_eq_nil_iff.1 keys.symm).symm
  | cons head rest ih =>
      cases second with
      | nil => cases keys
      | cons other others =>
          obtain ⟨key, held⟩ := head
          obtain ⟨name, kept⟩ := other
          obtain ⟨rfl, tails⟩ := List.cons.inj keys
          obtain ⟨fresh, apart⟩ := List.nodup_cons.1 distinct
          have values := same key
          simp only [lookup_cons, if_true, Option.some.injEq] at values
          rw [values, ih tails apart]
          intro name
          have looked := same name
          rw [lookup_cons, lookup_cons] at looked
          split at looked
          · rename_i equal
            rw [equal, lookup_of_not_mem fresh, lookup_of_not_mem (tails ▸ fresh)]
          · exact looked

theorem erase_dups_concat (keys : List String) (key : String) : (keys ++ [key]).eraseDups =
    if key ∈ keys then keys.eraseDups else keys.eraseDups ++ [key] := by
  rw [List.eraseDups_append]
  by_cases known : key ∈ keys <;>
    simp [List.removeAll, List.eraseDups_cons, known]

theorem keys_set_all (properties : List Property) :
    (setAll [] properties).map Prod.fst = (properties.map (·.key)).eraseDups := by
  induction properties using List.reverseRecOn with
  | nil => rfl
  | append_singleton properties property ih =>
      have last : setAll [] (properties ++ [property]) =
          setProperty property.key property.schema (setAll [] properties) := by
        simp [setAll]
      rw [last, List.map_append, List.map_singleton, erase_dups_concat]
      split
      · rename_i known
        rw [keys_set_property_of_mem (by rwa [ih, List.mem_eraseDups]), ih]
      · rename_i fresh
        rw [set_property_of_not_mem (by rwa [ih, List.mem_eraseDups]), List.map_append, ih]
        rfl

theorem nodup_keys_set_all (properties : List Property) :
    ((setAll [] properties).map Prod.fst).Nodup :=
  (properties_struct_schema rfl).1

section

variable (context : Context) {fields : List Field} {field : Field} {key : String}

theorem properties_of_cons (field : Field) (rest : List Field) :
    (∀ key, ¬ ShownAs field key) ∧
        context.propertiesOf (field :: rest) = context.propertiesOf rest ∨
      ∃ property : Property, context.propertiesOf (field :: rest) =
          property :: context.propertiesOf rest ∧ ShownAs field property.key ∧
        property.schema = context.schemaOf field.type ∧
          (property.required = true ↔ Needed field) := by
  obtain ⟨name, type, tag⟩ := field
  rw [Context.propertiesOf]
  cases labelled : fieldLabel? name type tag with
  | none =>
      refine .inl ⟨fun key shown => ?_, rfl⟩
      obtain ⟨label, same, -⟩ := shown_as_iff.1 shown
      cases labelled.symm.trans same
  | some label =>
      refine .inr ⟨_, rfl, shown_as_iff.2 ⟨label, labelled, rfl⟩, rfl, ?_⟩
      have omits := @omits_empty_iff ⟨name, type, tag⟩ label labelled
      simp [Needed, ← omits]

theorem keys_of_properties_of (fields : List Field) :
    KeysOf fields ((context.propertiesOf fields).map (·.key)) := by
  induction fields with
  | nil => exact .nil
  | cons field rest ih =>
      rcases properties_of_cons context field rest with
        ⟨hidden, same⟩ | ⟨property, same, shown, -⟩
      · exact same ▸ .hidden hidden ih
      · exact same ▸ .shown shown ih

theorem mem_keys_set_all_iff : key ∈ (setAll [] (context.propertiesOf fields)).map Prod.fst ↔
    ∃ field ∈ fields, ShownAs field key := by
  rw [keys_set_all, List.mem_eraseDups]
  exact (keys_of_properties_of context fields).mem_iff

theorem lookup_of_hidden (hidden : ∀ field ∈ fields, ¬ ShownAs field key)
    (before : List (String × Schema)) :
    (setAll before (context.propertiesOf fields)).lookup key = before.lookup key := by
  induction fields generalizing before with
  | nil => rfl
  | cons field rest ih =>
      obtain ⟨first, later⟩ := List.forall_mem_cons.1 hidden
      rcases properties_of_cons context field rest with
        ⟨-, same⟩ | ⟨property, same, shown, -⟩
      · exact same ▸ ih later before
      · have other : key ≠ property.key := fun equal => first (equal ▸ shown)
        rw [same]
        refine (ih later _).trans ?_
        rw [lookup_set_property, if_neg other]

/-- Under a key stands the schema of the last field that is shown under it. -/
theorem lookup_of_last_shown (last : LastShown fields key field)
    (before : List (String × Schema)) :
    (setAll before (context.propertiesOf fields)).lookup key =
      some (context.schemaOf field.type) := by
  induction last generalizing before with
  | @here field key rest shown hidden =>
      rcases properties_of_cons context field rest with
        ⟨none, -⟩ | ⟨property, same, again, schema, -⟩
      · exact absurd shown (none key)
      · rw [same]
        refine (lookup_of_hidden context hidden _).trans ?_
        rw [lookup_set_property, if_pos (shown.unique again), schema]
  | @later field other key rest _ ih =>
      rcases properties_of_cons context other rest with ⟨-, same⟩ | ⟨property, same, -⟩
      · exact same ▸ ih before
      · exact same ▸ ih _

end

namespace Assembly

variable {project : Project} {register : Declaration → Assemble Unit} {context : Context}

theorem GivesShown.recorded {fields : List Field} {key : String}
    (gives : GivesShown project register context fields)
    (shown : ∃ field ∈ fields, ShownAs field key) : ∃ field value, LastShown fields key field ∧
      (setAll [] (context.propertiesOf fields)).lookup key = some value ∧
        GivesSchema project register context field.type value := by
  obtain ⟨field, last⟩ := exists_last_shown shown
  exact ⟨field, context.schemaOf field.type, last, lookup_of_last_shown context last [],
    gives field last.mem key last.shown_as⟩

/-- The properties of a struct have the keys of its fields that are shown, in the order in which
they first occur, and each has the schema that a run gives for the last field with its key. -/
theorem properties_of_schema_for {fields : List Field} {before after : Assembly} {schema : Schema}
    (ran : schemaFor project register context (.struct fields) before = .ok schema after) :
    ∃ keys entries, KeysOf fields keys ∧ schema.properties = some entries ∧
      entries.map Prod.fst = keys.eraseDups ∧
        ∀ key ∈ keys, ∃ field value, LastShown fields key field ∧
          entries.lookup key = some value ∧
            GivesSchema project register context field.type value := by
  obtain ⟨rfl, gives⟩ := struct_of_ran ran
  have listed := keys_of_properties_of context fields
  refine ⟨_, setAll [] (context.propertiesOf fields), listed, rfl, keys_set_all _, ?_⟩
  exact fun key member => gives.recorded (listed.mem_iff.1 member)

def bareProject : Project := ⟨.empty, ⟨"/"⟩, "m", false⟩

def bareContext : Context := ⟨"m", Table.empty.insert "time" "time"⟩

def assortedFields : List Field :=
  [⟨some "Id", .ident "string", some "json:\"id\""⟩, ⟨some "Done", .ident "bool", some "db:\"d\""⟩,
    ⟨none, .pointer (.qualified "time" "Time"), none⟩, ⟨some "secret", .ident "int", none⟩,
    ⟨some "Skipped", .ident "int", some "json:\"-\""⟩,
    ⟨some "Ids", .slice (.ident "int"), some "json:\"id,omitempty\""⟩]

/-- The later of two fields of one key is shown at the place of the first. -/
theorem properties_assorted_fields : ∃ schema after entries field value,
    schemaFor bareProject (registerType bareProject 0) bareContext (.struct assortedFields)
      .initial = .ok schema after ∧
      schema.properties = some entries ∧ entries.map Prod.fst = ["id", "Done", "Time"] ∧
        LastShown assortedFields "id" field ∧ entries.lookup "id" = some value ∧
          value.kind = some "array" ∧
            GivesSchema bareProject (registerType bareProject 0) bareContext field.type value := by
  have shown : ((schemaFor bareProject (registerType bareProject 0) bareContext
      (.struct assortedFields)).run' .initial).map (fun schema =>
        schema.properties.map fun entries =>
          (entries.map Prod.fst, (entries.lookup "id").bind (·.kind))) =
      some (some (["id", "Done", "Time"], some "array")) := by decide +kernel
  obtain ⟨schema, after, ran, shown⟩ := exists_ok_of_run' shown
  obtain ⟨keys, entries, -, properties, order, recorded⟩ := properties_of_schema_for ran
  rw [properties, Option.map_some, Option.some.injEq, Prod.mk.injEq] at shown
  have member : "id" ∈ keys := by
    rw [← List.mem_eraseDups, ← order, shown.1]
    decide
  obtain ⟨field, value, last, held, gives⟩ := recorded "id" member
  rw [held] at shown
  exact ⟨schema, after, entries, field, value, ran, properties, shown.1, last, held, shown.2, gives⟩

end Assembly

end EndpointAtlas
