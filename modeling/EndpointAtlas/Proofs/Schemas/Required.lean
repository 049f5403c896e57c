import EndpointAtlas.Proofs.Schemas.Properties

/-!
The required keys of the schema of a struct. Each field that must be written adds its key, also when
a later field takes the place of its property; so the required keys are those of the fields that the
properties show exactly if no such field is followed by one of its key.
-/

namespace EndpointAtlas

open Go

/-- Whether required keys are different keys of the entries, and those of the last fields that must
be written. -/
structure RequiresNeeded (fields : List Field) (entries : List (String × Schema))
    (required : List String) : Prop where
  nodup : required.Nodup
  listed : ∀ key ∈ required, key ∈ entries.map Prod.fst
  needed : ∀ key field, LastShown fields key field → (key ∈ required ↔ Needed field)

/-- Whether no field that must be written is followed by a field of its key. -/
def NeededStandLast (fields : List Field) : Prop :=
  fields.Pairwise fun earlier later =>
    ∀ key, ShownAs earlier key → ShownAs later key → ¬ Needed earlier

instance (earlier later : Field) :
    Decidable (∀ key, ShownAs earlier key → ShownAs later key → ¬ Needed earlier) :=
  decidable_of_iff
    (∀ key ∈ (fieldLabel? earlier.name earlier.type earlier.tag).map FieldLabel.key,
      ShownAs later key → ¬ Needed earlier)
    (forall_congr' fun _ => imp_congr_left (Option.map_eq_some_iff.trans shown_as_iff.symm))

instance (fields : List Field) : Decidable (NeededStandLast fields) :=
  inferInstanceAs (Decidable (fields.Pairwise _))

def Context.requiredKeys (context : Context) (fields : List Field) : List String :=
  ((context.propertiesOf fields).filter (·.required)).map (·.key)

section

variable (context : Context) {fields : List Field} {key : String}

theorem required_keys_cons (field : Field) (rest : List Field) :
    (∀ key, ShownAs field key → ¬ Needed field) ∧
        context.requiredKeys (field :: rest) = context.requiredKeys rest ∨
      ∃ key, ShownAs field key ∧ Needed field ∧
        context.requiredKeys (field :: rest) = key :: context.requiredKeys rest := by
  unfold Context.requiredKeys
  rcases properties_of_cons context field rest with
    ⟨hidden, same⟩ | ⟨property, same, shown, -, needed⟩
  · exact .inl ⟨fun key shown => absurd shown (hidden key), by rw [same]⟩
  · by_cases isNeeded : Needed field
    · refine .inr ⟨property.key, shown, isNeeded, ?_⟩
      rw [same, List.filter_cons_of_pos (needed.2 isNeeded), List.map_cons]
    · refine .inl ⟨fun _ _ => isNeeded, ?_⟩
      rw [same, List.filter_cons_of_neg fun required => isNeeded (needed.1 required)]

theorem mem_required_keys_iff :
    key ∈ context.requiredKeys fields ↔ ∃ field ∈ fields, ShownAs field key ∧ Needed field := by
  induction fields with
  | nil => simp [Context.requiredKeys, Context.propertiesOf]
  | cons first rest ih =>
      rw [List.exists_mem_cons_iff, ← ih]
      rcases required_keys_cons context first rest with
        ⟨free, same⟩ | ⟨other, shown, needed, same⟩
      · have none : ¬ (ShownAs first key ∧ Needed first) := fun both => free key both.1 both.2
        simp [same, none]
      · have only : key = other ↔ ShownAs first key :=
          ⟨fun equal => equal ▸ shown, fun again => again.unique shown⟩
        simp [same, only, needed]

/-- The keys of the last fields that must be written are required in any case. -/
theorem mem_required_keys_of_last_shown {field : Field} (last : LastShown fields key field)
    (needed : Needed field) : key ∈ context.requiredKeys fields :=
  (mem_required_keys_iff context).2 ⟨field, last.mem, last.shown_as, needed⟩

theorem nodup_required_keys (standLast : NeededStandLast fields) :
    (context.requiredKeys fields).Nodup := by
  induction fields with
  | nil => exact .nil
  | cons field rest ih =>
      obtain ⟨apart, later⟩ := List.pairwise_cons.1 standLast
      rcases required_keys_cons context field rest with
        ⟨-, same⟩ | ⟨key, shown, needed, same⟩
      · exact same ▸ ih later
      · rw [same, List.nodup_cons]
        refine ⟨fun again => ?_, ih later⟩
        obtain ⟨other, member, shownOther, -⟩ := (mem_required_keys_iff context).1 again
        exact apart other member key shown shownOther needed

theorem needed_of_mem_required_keys (standLast : NeededStandLast fields) {field : Field}
    (last : LastShown fields key field) (required : key ∈ context.requiredKeys fields) :
    Needed field := by
  induction last with
  | @here field key rest shown hidden =>
      obtain ⟨other, member, shownOther, needed⟩ := (mem_required_keys_iff context).1 required
      rcases List.mem_cons.1 member with rfl | later
      · exact needed
      · exact absurd shownOther (hidden other later)
  | @later field first key rest last ih =>
      obtain ⟨apart, later⟩ := List.pairwise_cons.1 standLast
      apply ih later
      obtain ⟨other, member, shownOther, needed⟩ := (mem_required_keys_iff context).1 required
      rcases List.mem_cons.1 member with rfl | within
      · exact absurd needed (apart field last.mem key shownOther last.shown_as)
      · exact (mem_required_keys_iff context).2 ⟨other, within, shownOther, needed⟩

/-- A field that must be written and is followed by one of its key is seen: its key is required
twice, or it is required for a field that may be left out. -/
theorem needed_stand_last_of_required_keys (distinct : (context.requiredKeys fields).Nodup)
    (agrees : ∀ key field, LastShown fields key field →
      key ∈ context.requiredKeys fields → Needed field) : NeededStandLast fields := by
  induction fields with
  | nil => exact .nil
  | cons field rest ih =>
      have part : (context.requiredKeys rest).Sublist (context.requiredKeys (field :: rest)) := by
        rcases required_keys_cons context field rest with ⟨-, same⟩ | ⟨key, -, -, same⟩
        · rw [same]
        · rw [same]
          exact List.sublist_cons_self key _
      apply List.pairwise_cons.2
      constructor
      · intro other member key shown shownOther needed
        obtain ⟨last, isLast⟩ := exists_last_shown ⟨other, member, shownOther⟩
        have required : key ∈ context.requiredKeys (field :: rest) :=
          (mem_required_keys_iff context).2 ⟨field, List.mem_cons_self, shown, needed⟩
        have again : key ∈ context.requiredKeys rest :=
          mem_required_keys_of_last_shown context isLast (agrees key last (.later isLast) required)
        rcases required_keys_cons context field rest with
          ⟨free, -⟩ | ⟨name, named, -, same⟩
        · exact free key shown needed
        · rw [same, named.unique shown, List.nodup_cons] at distinct
          exact distinct.1 again
      · apply ih (part.nodup distinct)
        intro key last isLast required
        exact agrees key last (.later isLast) (part.subset required)

theorem requires_needed_iff {entries : List (String × Schema)}
    (listed : ∀ key ∈ context.requiredKeys fields, key ∈ entries.map Prod.fst) :
    RequiresNeeded fields entries (context.requiredKeys fields) ↔ NeededStandLast fields := by
  constructor
  · intro requires
    apply needed_stand_last_of_required_keys context requires.nodup
    exact fun key field last => (requires.needed key field last).1
  · intro standLast
    exact {
      nodup := nodup_required_keys context standLast
      listed := listed
      needed := fun key field last =>
        ⟨needed_of_mem_required_keys context standLast last,
          mem_required_keys_of_last_shown context last⟩ }

end

namespace Assembly

variable {project : Project} {register : Declaration → Assemble Unit} {context : Context}

/-- The properties of a struct have the schemas of the last fields with their keys. The required
keys are among theirs and contain that of each last field that must be written; and they are
different and no others exactly if no field that must be written is followed by one of its key. -/
theorem required_of_schema_for {fields : List Field} {before after : Assembly} {schema : Schema}
    (ran : schemaFor project register context (.struct fields) before = .ok schema after) :
    ∃ entries, schema.properties = some entries ∧
      (∀ key ∈ entries.map Prod.fst, ∃ field value, LastShown fields key field ∧
        entries.lookup key = some value ∧
          GivesSchema project register context field.type value) ∧
      (∀ key ∈ schema.required, key ∈ entries.map Prod.fst) ∧
      (∀ key field, LastShown fields key field → Needed field → key ∈ schema.required) ∧
      (RequiresNeeded fields entries schema.required ↔ NeededStandLast fields) := by
  obtain ⟨rfl, gives⟩ := struct_of_ran ran
  let entries := setAll [] (context.propertiesOf fields)
  have listed : ∀ key ∈ context.requiredKeys fields, key ∈ entries.map Prod.fst := by
    intro key required
    obtain ⟨field, member, shown, -⟩ := (mem_required_keys_iff context).1 required
    exact (mem_keys_set_all_iff context).2 ⟨field, member, shown⟩
  refine ⟨entries, rfl, fun key member => ?_, listed, ?_, requires_needed_iff context listed⟩
  · exact gives.recorded ((mem_keys_set_all_iff context).1 member)
  · exact fun key field last needed => mem_required_keys_of_last_shown context last needed

/-- With the fields in the other order, a key that may be left out first is required for the last
field that has it. -/
theorem required_assorted_fields : ∃ schema after entries,
    schemaFor bareProject (registerType bareProject 0) bareContext
      (.struct assortedFields.reverse) .initial = .ok schema after ∧
      schema.properties = some entries ∧ schema.required = ["Done", "id"] ∧
        RequiresNeeded assortedFields.reverse entries schema.required := by
  have shown : ((schemaFor bareProject (registerType bareProject 0) bareContext
      (.struct assortedFields.reverse)).run' .initial).map (·.required) =
      some ["Done", "id"] := by decide +kernel
  obtain ⟨schema, after, ran, required⟩ := exists_ok_of_run' shown
  obtain ⟨entries, properties, -, -, -, requires⟩ := required_of_schema_for ran
  refine ⟨schema, after, entries, ran, properties, required, requires.2 ?_⟩
  decide +kernel

def twinFields : List Field :=
  [⟨some "A", .ident "string", some "json:\"x\""⟩, ⟨some "B", .ident "string", some "json:\"x\""⟩]

/-- There the one key of the properties is required twice. -/
theorem not_nodup_twin_fields : ∃ schema after entries,
    schemaFor bareProject (registerType bareProject 0) bareContext (.struct twinFields)
      .initial = .ok schema after ∧
      schema.properties = some entries ∧ entries.map Prod.fst = ["x"] ∧
        ¬ schema.required.Nodup ∧ ¬ RequiresNeeded twinFields entries schema.required := by
  have shown : ((schemaFor bareProject (registerType bareProject 0) bareContext
      (.struct twinFields)).run' .initial).map (fun schema =>
        (schema.required, schema.properties.map (·.map Prod.fst))) =
      some (["x", "x"], some ["x"]) := by decide +kernel
  obtain ⟨schema, after, ran, shown⟩ := exists_ok_of_run' shown
  obtain ⟨required, properties⟩ := Prod.mk.inj shown
  obtain ⟨entries, properties, keys⟩ := Option.map_eq_some_iff.1 properties
  have twice : ¬ schema.required.Nodup := by
    rw [required]
    decide
  exact ⟨schema, after, entries, ran, properties, keys, twice, fun requires => twice requires.nodup⟩

end Assembly

end EndpointAtlas
